import AimChat.Server.Spec
import AimChat.Server.Connections

/-! # What an event does

`Effect` says once what one event does to the connections, to the user and the sequence number of each
session, to the records and to the calls to the assistant; `step_effect` proves it of the step function.
The invariants of whole runs follow from it. -/

namespace AimChat

open ClientSession

variable (env : Env)

/-- Where a connection is made there is no other object. -/
theorem World.free_of_connects {w : World} {addr : Nat} (h : addr ≠ 0 ∧ w.im.Free addr) : w.im.Free addr := h.2

/-- The connections after an event. -/
def imAfter (w : World) : Event → IMSer
  | .connect addr =>
      if hfree : addr ≠ 0 ∧ w.im.Free addr then w.im.onConnection addr (World.free_of_connects hfree)
      else w.im
  | .malformed n => w.im.shutdown n
  | .close n => if hn : w.im.Live n then w.im.onClose n hn else w.im
  | .recv _ _ => w.im
  | .agentDone _ _ => w.im

/-- The user and the sequence number of a session after an event: a connection starts with a new session,
and a message that is handled changes those of its session. -/
def sessionAfter (w : World) (m : Nat) : Event → Session
  | .connect addr => if addr ≠ 0 ∧ w.im.Free addr ∧ m = w.im.fresh then {} else w.session m
  | .recv n msg =>
      if w.im.Connected n ∧ m = n then received env msg w.store.users (w.session m) else w.session m
  | .malformed _ => w.session m
  | .close _ => w.session m
  | .agentDone _ _ => w.session m

theorem imAfter_connect (w : World) (addr : Nat) :
    imAfter w (.connect addr) =
      if hfree : addr ≠ 0 ∧ w.im.Free addr then w.im.onConnection addr hfree.2 else w.im := rfl

theorem imAfter_close (w : World) (n : Nat) :
    imAfter w (.close n) = if hn : w.im.Live n then w.im.onClose n hn else w.im := rfl

theorem sessionAfter_connect (w : World) (m addr : Nat) :
    sessionAfter env w m (.connect addr) =
      if addr ≠ 0 ∧ w.im.Free addr ∧ m = w.im.fresh then {} else w.session m := rfl

theorem sessionAfter_recv (w : World) (m n : Nat) (msg : MessageContainer) :
    sessionAfter env w m (.recv n msg) =
      if w.im.Connected n ∧ m = n then received env msg w.store.users (w.session m) else w.session m :=
  rfl

/-- What one event does. -/
structure Effect (w : World) (e : Event) (w' : World) : Prop where
  im : w'.im = imAfter w e
  session : ∀ m, (w'.session m).user = (sessionAfter env w m e).user ∧
    (w'.session m).seq = (sessionAfter env w m e).seq
  users : w.store.users.Extends w'.store.users
  agentCalls : ∀ call ∈ w'.agentCalls, call ∈ w.agentCalls ∨ ∃ msg, e = .recv call.session msg ∧
    w.im.Connected call.session ∧ call.seq = msg.seq ∧
      ∃ p, (sessionAfter env w call.session e).user = some p ∧ call.userid = (w.record p).userid

/-- Taking a message in keeps every session on records that have been made. -/
theorem made_received {w : World} (hw : w.Made) (n : Nat) (msg : MessageContainer) :
    (w.setSession n (received env msg w.store.users)).Made := by
  intro m p hp
  rw [World.session_setSession] at hp
  unfold received at hp
  split_ifs at hp with hm hlogin
  · have hassigned := made_assigned env n msg w hw n p
    rw [World.session_setSession, if_pos rfl] at hassigned
    apply hassigned
    rw [hm] at hp
    rw [← hp]
    unfold assigned
    split <;> rfl
  · exact hw m p hp
  · exact hw m p hp

variable {env}

/-- A connection is new, with a session that has no user, or is refused. -/
theorem effect_connect {w w' : World} {addr : Nat} (h : step env w (.connect addr) = .ok w') :
    Effect env w (.connect addr) w' := by
  rcases step_connect h with ⟨hfree, rfl⟩ | ⟨hfree, rfl⟩
  · refine ⟨?_, fun m => ?_, UserManager.Extends.refl _, fun call hcall => .inl hcall⟩
    · rw [imAfter_connect, dif_pos hfree]
      rfl
    · rw [sessionAfter_connect]
      unfold World.connect
      simp only [hfree.1, hfree.2, ne_eq, not_false_eq_true, true_and, and_self]
  · refine ⟨?_, fun m => ?_, UserManager.Extends.refl _, fun call hcall => .inl hcall⟩
    · rw [imAfter_connect, dif_neg hfree]
    · rw [sessionAfter_connect, if_neg fun hall => hfree ⟨hall.1, hall.2.1⟩]
      exact ⟨rfl, rfl⟩

/-- A message does what is proved of its handler, when its connection is there. -/
theorem effect_recv {w w' : World} {n : Nat} {msg : MessageContainer} (hw : w.Made)
    (h : step env w (.recv n msg) = .ok w') : Effect env w (.recv n msg) w' := by
  rcases step_recv h with ⟨hn, hrun⟩ | ⟨hn, rfl⟩
  · have hserved := served_onMessageReceived env n msg w hw
    rw [hrun] at hserved
    have hacted := hserved.of_ok
    have hsession : ∀ m, (w.setSession n (received env msg w.store.users)).session m =
        sessionAfter env w m (.recv n msg) := by
      intro m
      rw [World.session_setSession, sessionAfter_recv]
      simp only [hn, true_and]
    refine ⟨hacted.im, fun m => ?_, hacted.users, fun call hcall => ?_⟩
    · rw [← hsession]
      exact hacted.session m
    · obtain ⟨new, heq, hnew⟩ := hacted.agentCalls
      rw [heq] at hcall
      rcases List.mem_append.1 hcall with hcall | hcall
      · exact .inl hcall
      -- a call of this message, with the number and the user the session has then
      · obtain ⟨rfl, hseq, p, hp, huserid⟩ := hnew call hcall
        refine .inr ⟨msg, rfl, hn, ?_, p, ?_, huserid⟩
        · rw [hseq, World.session_setSession, if_pos rfl]
          unfold received assigned
          split <;> rfl
        · rw [← hsession]
          exact hp
  · refine ⟨rfl, fun m => ?_, UserManager.Extends.refl _, fun call hcall => .inl hcall⟩
    rw [sessionAfter_recv, if_neg fun hall => hn hall.1]
    exact ⟨rfl, rfl⟩

theorem step_effect {w w' : World} {e : Event} (hw : w.Made) (h : step env w e = .ok w') :
    Effect env w e w' := by
  cases e with
  | connect addr => exact effect_connect h
  | recv n msg => exact effect_recv hw h
  | malformed n =>
      rw [step_malformed h]
      exact ⟨rfl, fun _ => ⟨rfl, rfl⟩, UserManager.Extends.refl _, fun call hcall => .inl hcall⟩
  | close n =>
      rcases step_close h with ⟨hn, rfl⟩ | ⟨hn, rfl⟩
      · refine ⟨?_, fun _ => ⟨rfl, rfl⟩, UserManager.Extends.refl _, fun call hcall => .inl hcall⟩
        rw [imAfter_close, dif_pos hn]
      · refine ⟨?_, fun _ => ⟨rfl, rfl⟩, UserManager.Extends.refl _, fun call hcall => .inl hcall⟩
        rw [imAfter_close, dif_neg hn]
  | agentDone k rpc =>
      rcases step_agentDone h with ⟨-, rfl⟩ | ⟨call, p, -, -, -, rfl⟩
      · exact ⟨rfl, fun _ => ⟨rfl, rfl⟩, UserManager.Extends.refl _, fun call hcall => .inl hcall⟩
      · exact ⟨rfl, fun _ => ⟨rfl, rfl⟩, UserManager.Extends.refl _,
          fun call hcall => .inl (List.mem_of_mem_eraseIdx hcall)⟩

/-! ## How a session comes by its user -/

/-- The message names a record in a login. -/
def Names (env : Env) (um : UserManager) (msg : MessageContainer) (p : UserPtr) : Prop :=
  msg.cmd = msg_type_login ∧ (loginCode env msg.payload um).2 = some p

/-- A session has its user from before the event, or the event is a login of its own that names it. -/
theorem user_cases {w : World} {e : Event} {m : Nat} {p : UserPtr}
    (hp : (sessionAfter env w m e).user = some p) :
    (w.session m).user = some p ∨
      ∃ msg, e = .recv m msg ∧ w.im.Connected m ∧ Names env w.store.users msg p := by
  cases e with
  | connect addr =>
      rw [sessionAfter_connect] at hp
      by_cases hall : addr ≠ 0 ∧ w.im.Free addr ∧ m = w.im.fresh
      · rw [if_pos hall] at hp
        cases hp
      · rw [if_neg hall] at hp
        exact .inl hp
  | recv n msg =>
      rw [sessionAfter_recv] at hp
      split_ifs at hp with hall
      · obtain ⟨hn, rfl⟩ := hall
        unfold received at hp
        by_cases hlogin : msg.cmd = msg_type_login
        · rw [if_pos hlogin] at hp
          cases hfound : (loginCode env msg.payload w.store.users).2 with
          | none =>
              rw [hfound] at hp
              exact .inl hp
          | some q =>
              rw [hfound] at hp
              cases hp
              exact .inr ⟨msg, rfl, hn, hlogin, hfound⟩
        · rw [if_neg hlogin] at hp
          exact .inl hp
      · exact .inl hp
  | malformed n => exact .inl hp
  | close n => exact .inl hp
  | agentDone k rpc => exact .inl hp

/-! ## What holds of every run -/

/-- What holds of the server between two events: the sessions are on records that have been made, and a
call to the assistant under way was made by a session that has a user. -/
structure Inv (w : World) : Prop where
  made : w.Made
  agentCalls : ∀ call ∈ w.agentCalls,
    call.session < w.im.fresh ∧ ∃ p, (w.session call.session).user = some p

theorem inv_init (st : Store) : Inv (World.init st) :=
  ⟨fun _ _ h => (by cases h), fun _ h => absurd h List.not_mem_nil⟩

/-- An event makes a session's user a record that has been made. -/
theorem made_sessionAfter {w : World} (hw : w.Made) (e : Event) {m : Nat} {p : UserPtr}
    (hp : (sessionAfter env w m e).user = some p) : p < w.store.users.fresh := by
  rcases user_cases hp with hold | ⟨msg, -, -, -, hfound⟩
  · exact hw m p hold
  · obtain ⟨req, -, -, -, hnamed, -⟩ := loginCode_eq_some env (Prod.ext rfl hfound)
    exact w.store.users.cached_lt _ (List.mem_of_find?_eq_some hnamed)

/-- A session that has a user keeps having one, unless it is made anew. -/
theorem user_sessionAfter {w : World} (e : Event) {m : Nat} {p : UserPtr} (hm : m < w.im.fresh)
    (hp : (w.session m).user = some p) : ∃ q, (sessionAfter env w m e).user = some q := by
  cases e with
  | connect addr =>
      refine ⟨p, ?_⟩
      rw [sessionAfter_connect, if_neg fun hall => absurd hall.2.2 (Nat.ne_of_lt hm)]
      exact hp
  | recv n msg =>
      rw [sessionAfter_recv]
      split_ifs with hall
      · unfold received assigned
        split
        · exact ⟨p, hp⟩
        · exact ⟨_, rfl⟩
      · exact ⟨p, hp⟩
  | malformed n => exact ⟨p, hp⟩
  | close n => exact ⟨p, hp⟩
  | agentDone k rpc => exact ⟨p, hp⟩

/-- Connections are never forgotten. -/
theorem fresh_imAfter (w : World) (e : Event) : w.im.fresh ≤ (imAfter w e).fresh := by
  cases e with
  | connect addr =>
      rw [imAfter_connect]
      split_ifs
      · exact Nat.le_succ _
      · exact le_refl _
  | recv n msg => exact le_refl _
  | malformed n => exact le_refl _
  | close n =>
      rw [imAfter_close]
      split_ifs <;> exact le_refl _
  | agentDone k rpc => exact le_refl _

/-- The session of an event was there before, or has just been made and has no user. -/
theorem live_imAfter {w : World} {e : Event} {m : Nat} (h : (imAfter w e).Live m) :
    w.im.Live m ∨ (sessionAfter env w m e).user = none := by
  cases e with
  | connect addr =>
      rw [imAfter_connect] at h
      split_ifs at h with hfree
      · rcases (IMSer.live_onConnection addr hfree.2).1 h with rfl | h
        · right
          rw [sessionAfter_connect, if_pos ⟨hfree.1, hfree.2, rfl⟩]
        · exact .inl h
      · exact .inl h
  | recv n msg => exact .inl h
  | malformed n => exact .inl ((IMSer.live_shutdown n).1 h)
  | close n =>
      rw [imAfter_close] at h
      split_ifs at h with hn
      · exact .inl ((IMSer.live_onClose n hn).1 h).2
      · exact .inl h
  | agentDone k rpc => exact .inl h

/-- Every event keeps the invariant. -/
theorem inv_step (w : World) (e : Event) (w' : World) (hw : Inv w) (h : step env w e = .ok w') :
    Inv w' := by
  have heffect := step_effect hw.made h
  refine ⟨fun m p hp => ?_, fun call hcall => ?_⟩
  · rw [(heffect.session m).1] at hp
    exact lt_of_lt_of_le (made_sessionAfter hw.made e hp) heffect.users.1
  · rw [heffect.im, (heffect.session call.session).1]
    -- a call from before, or of a chat of a session that has a user
    rcases heffect.agentCalls call hcall with hcall | ⟨msg, rfl, hn, -, p, hp, -⟩
    · obtain ⟨hlt, p, hp⟩ := hw.agentCalls call hcall
      exact ⟨lt_of_lt_of_le hlt (fresh_imAfter w e), user_sessionAfter e hlt hp⟩
    · exact ⟨hn.1, p, hp⟩

/-- Every run keeps it. -/
theorem inv_run {w w' : World} {es : List Event} (hw : Inv w) (h : Run.run (step env) w es = .ok w') :
    Inv w' :=
  Run.run_invariant (P := fun _ _ => True) (fun s e s' hs _ hstep => inv_step s e s' hs hstep) hw
    (Run.always_of_forall_mem fun _ _ => trivial) h

/-- The connections and the table of sessions of every run are those of a run of the bare table. -/
theorem clients_of_run {st : Store} {es : List Event} {w : World}
    (hrun : Run.run (step env) (World.init st) es = .ok w) :
    ∃ calls s, Run.run Clients.step Clients.init calls = .ok s ∧ Clients.Refines s w.im := by
  have hone : ∀ {calls s}, Run.run Clients.step Clients.init calls = .ok s → s.OneToOne :=
    fun h => Clients.oneToOne_run h
  refine (Run.run_invariant (P := fun _ _ => True) (I := fun w => Inv w ∧ ∃ calls s,
    Run.run Clients.step Clients.init calls = .ok s ∧ Clients.Refines s w.im)
    (fun v e v' hv _ hstep => ⟨inv_step v e v' hv.1 hstep, ?_⟩) ⟨inv_init st, [], Clients.init, rfl, ?_⟩
    (Run.always_of_forall_mem fun _ _ => trivial) hrun).2
  · obtain ⟨hinv, calls, s, hcalls, href⟩ := hv
    have him := (step_effect hinv.made hstep).im
    rw [him]
    cases e with
    | recv n msg => exact ⟨calls, s, hcalls, href⟩
    | agentDone k rpc => exact ⟨calls, s, hcalls, href⟩
    | malformed n => exact ⟨calls, s, hcalls, href.shutdown n⟩
    | connect addr =>
        rw [imAfter_connect]
        split_ifs with hfree
        -- the address is free in the bare table too, where it is free when nobody holds it
        · have hfree' : s.Free addr := (href.free_iff (hone hcalls) addr).1 hfree.2
          exact ⟨calls ++ [.up addr], _, Run.run_snoc_eq_ok.2 ⟨s, hcalls, Clients.step_up hfree'⟩, href.up hfree.2⟩
        · exact ⟨calls, s, hcalls, href⟩
    | close n =>
        rw [imAfter_close]
        split_ifs with hn
        · exact ⟨calls ++ [.down n], _, Run.run_snoc_eq_ok.2 ⟨s, hcalls, Clients.step_down (href.live_iff.1 hn)⟩,
            href.down hn (hone hcalls)⟩
        · exact ⟨calls, s, hcalls, href⟩
  · exact ⟨rfl, fun n hn => absurd hn (Nat.not_lt_zero n), fun n hn => absurd hn (Nat.not_lt_zero n)⟩

/-! ## What a login does -/

/-- A login that names a record binds the session to it. -/
theorem user_of_names {w : World} {m : Nat} {msg : MessageContainer} {p : UserPtr}
    (hm : w.im.Connected m) (h : Names env w.store.users msg p) :
    (sessionAfter env w m (.recv m msg)).user = some p := by
  rw [sessionAfter_recv, if_pos ⟨hm, rfl⟩]
  unfold received
  rw [if_pos h.1, h.2]
  rfl

/-- A message that names no record leaves the session its user. -/
theorem user_of_not_names {w : World} {m : Nat} {msg : MessageContainer}
    (h : ∀ p, ¬ Names env w.store.users msg p) :
    (sessionAfter env w m (.recv m msg)).user = (w.session m).user := by
  rw [sessionAfter_recv]
  split_ifs with hall
  · unfold received
    by_cases hlogin : msg.cmd = msg_type_login
    · rw [if_pos hlogin, Option.eq_none_iff_forall_ne_some.2 fun p hp => h p ⟨hlogin, hp⟩]
      rfl
    · rw [if_neg hlogin]
      rfl
  · rfl

/-- A login that names a record is answered. -/
theorem step_of_names {w : World} (hw : w.Made) {m : Nat} {msg : MessageContainer} {p : UserPtr}
    (h : Names env w.store.users msg p) : ∃ w', step env w (.recv m msg) = .ok w' := by
  by_cases hm : w.im.Connected m
  · have hserved := served_onMessageReceived env m msg w hw
    rw [step_of_connected hm]
    cases hrun : onMessageReceived env m msg w with
    | ok w' => exact ⟨w', rfl⟩
    | error f =>
        rw [hrun] at hserved
        cases hserved with
        -- the record that is found is the session's user when the log line reads it
        | nullUser huser hreads => simp [ReadsUser, h.1, h.2] at hreads
        | uncaught hthrows hreads => simp [Throws, h.1] at hthrows
  · exact ⟨w, if_neg hm⟩

/-- A session that keeps its user keeps its `UserID()`. -/
theorem userID_eq {w w' : World} (hw : w.Made) (husers : w.store.users.Extends w'.store.users) {m : Nat}
    (huser : (w'.session m).user = (w.session m).user) : w'.userID m = w.userID m := by
  unfold World.userID
  rw [huser]
  cases hp : (w.session m).user with
  | none => rfl
  | some p => exact husers.2 p (hw m p hp)

end AimChat
