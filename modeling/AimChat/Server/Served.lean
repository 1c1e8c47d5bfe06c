import AimChat.Server.Step

/-! # What a handler can do and how it can end

Most handlers change the user store and write to connections, and touch neither the sessions nor the
offline cache nor the calls to the assistant: `Kept`. All of them act as the session they belong to:
`Acted`. `Served` says how one can end: with a result that meets a condition, or with a fault, and a null
`m_user` is dereferenced exactly when the session has no user and the handler reads it. -/

namespace AimChat

/-! ## What is left alone -/

/-- Nothing but the user store, the log of what was sent and the count of calls has changed; no record
is lost, and what was sent is `Q`. -/
structure Kept (Q : Sent → Prop) (w w' : World) : Prop where
  im : w'.im = w.im
  session : w'.session = w.session
  chatMsgCache : w'.chatMsgCache = w.chatMsgCache
  agentCalls : w'.agentCalls = w.agentCalls
  users : w.store.users.Extends w'.store.users
  sent : ∃ new, w'.sent = w.sent ++ new ∧ ∀ x ∈ new, Q x

namespace Kept

variable {Q : Sent → Prop}

/-- A step that sends nothing. -/
theorem of_sent_eq {w w' : World} (him : w'.im = w.im) (hsession : w'.session = w.session)
    (hcache : w'.chatMsgCache = w.chatMsgCache) (hcalls : w'.agentCalls = w.agentCalls)
    (husers : w.store.users.Extends w'.store.users) (hsent : w'.sent = w.sent) : Kept Q w w' :=
  ⟨him, hsession, hcache, hcalls, husers, [], by rw [hsent, List.append_nil], by simp⟩

theorem refl (w : World) : Kept Q w w := of_sent_eq rfl rfl rfl rfl (UserManager.Extends.refl _) rfl

theorem trans {a b c : World} (hab : Kept Q a b) (hbc : Kept Q b c) : Kept Q a c where
  im := hbc.im.trans hab.im
  session := hbc.session.trans hab.session
  chatMsgCache := hbc.chatMsgCache.trans hab.chatMsgCache
  agentCalls := hbc.agentCalls.trans hab.agentCalls
  users := hab.users.trans hbc.users
  sent := by
    obtain ⟨new₁, heq₁, hnew₁⟩ := hab.sent
    obtain ⟨new₂, heq₂, hnew₂⟩ := hbc.sent
    refine ⟨new₁ ++ new₂, by rw [heq₂, heq₁, List.append_assoc], fun x hx => ?_⟩
    rcases List.mem_append.1 hx with hx | hx
    · exact hnew₁ x hx
    · exact hnew₂ x hx

theorem mono {Q' : Sent → Prop} {w w' : World} (h : Kept Q w w') (himp : ∀ x, Q x → Q' x) :
    Kept Q' w w' := by
  obtain ⟨new, heq, hnew⟩ := h.sent
  exact ⟨h.im, h.session, h.chatMsgCache, h.agentCalls, h.users, new, heq,
    fun x hx => himp x (hnew x hx)⟩

theorem send {n : Nat} {path : Path} {msg : MessageContainer} {w : World}
    (h : Q ⟨n, w.im.state n, w.userID n, path, msg⟩) : Kept Q w (w.send n path msg) := by
  refine ⟨rfl, rfl, rfl, rfl, UserManager.Extends.refl _, _, rfl, fun x hx => ?_⟩
  rw [List.mem_singleton.1 hx]
  exact h

theorem withStore {w : World} {st : Store} (h : w.store.users.Extends st.users) :
    Kept Q w (w.withStore st) :=
  of_sent_eq rfl rfl rfl rfl h rfl

theorem setRecord (p : UserPtr) (f : User → User) (hf : ∀ u, (f u).userid = u.userid) (w : World) :
    Kept Q w (w.setRecord p f hf) :=
  of_sent_eq rfl rfl rfl rfl (UserManager.extends_modify _ p f hf) rfl

theorem called (w : World) : Kept Q w w.called :=
  of_sent_eq rfl rfl rfl rfl (UserManager.Extends.refl _) rfl

/-- A loop whose body keeps the rest keeps it. -/
theorem foldl {α : Type} {f : World → α → World} (hf : ∀ w a, Kept Q w (f w a)) (l : List α) (w : World) :
    Kept Q w (l.foldl f w) := by
  induction l generalizing w with
  | nil => exact refl w
  | cons a l ih => exact (hf w a).trans (ih _)

end Kept

/-- A status change was pushed. -/
def Sent.IsNotify (x : Sent) : Prop := x.path = .notify ∧ x.msg.cmd = msg_type_userstatuschange

/-- Session `n` sends one response to a request, after whatever status changes it pushes. -/
def Answers (n : Nat) (cmd : Int) (w w' : World) : Prop :=
  ∃ v payload, Kept Sent.IsNotify w v ∧ w' = v.respond n cmd payload

theorem Answers.of_kept {n : Nat} {cmd : Int} {payload : Bytes} {w v : World}
    (h : Kept Sent.IsNotify w v) : Answers n cmd w (v.respond n cmd payload) := ⟨v, payload, h, rfl⟩

/-- What answers a request sends no chat message. -/
theorem Answers.kept {n : Nat} {cmd : Int} {w w' : World} (h : Answers n cmd w w') :
    Kept (·.path ≠ .chat) w w' := by
  obtain ⟨v, payload, hkept, rfl⟩ := h
  refine (hkept.mono fun x hx => ?_).trans (Kept.send Path.noConfusion)
  rw [hx.1]
  exact Path.noConfusion

/-! ## How a handler ends -/

/-- A computation of a session with this `m_user` ends with a result that meets `R`, with the null
`m_user` when the session has no user and `reads` holds, or with an uncaught exception when `throws`
holds. -/
inductive Served {α : Type} (user : Option UserPtr) (reads throws : Prop) (R : α → Prop) :
    Except Fault α → Prop
  | ok {a : α} (h : R a) (hreads : user = none → ¬ reads) : Served user reads throws R (.ok a)
  | nullUser (huser : user = none) (hreads : reads) : Served user reads throws R (.error .nullUser)
  | uncaught (hthrows : throws) (hreads : user = none → ¬ reads) :
      Served user reads throws R (.error .uncaught)

namespace Served

variable {α β : Type} {user : Option UserPtr} {reads throws : Prop} {R : α → Prop}
  {x : Except Fault α}

/-- What comes after a computation sees its result. -/
theorem bind {R' : β → Prop} {f : α → Except Fault β} (hx : Served user reads throws R x)
    (hf : ∀ a, R a → (user = none → ¬ reads) → Served user reads throws R' (f a)) :
    Served user reads throws R' (x >>= f) := by
  cases hx with
  | ok h hreads => exact hf _ h hreads
  | nullUser huser hreads => exact .nullUser huser hreads
  | uncaught hthrows hreads => exact .uncaught hthrows hreads

/-- A weaker condition on the result. -/
theorem mono {R' : α → Prop} (hx : Served user reads throws R x) (himp : ∀ a, R a → R' a) :
    Served user reads throws R' x := by
  cases hx with
  | ok h hreads => exact .ok (himp _ h) hreads
  | nullUser huser hreads => exact .nullUser huser hreads
  | uncaught hthrows hreads => exact .uncaught hthrows hreads

/-- Either way of a test. -/
theorem ite {c : Prop} [Decidable c] {y : Except Fault α} (hx : c → Served user reads throws R x)
    (hy : ¬ c → Served user reads throws R y) : Served user reads throws R (if c then x else y) := by
  split_ifs with h
  · exact hx h
  · exact hy h

/-- The conditions said otherwise. -/
theorem adapt {reads' throws' : Prop} {R' : α → Prop} (hx : Served user reads throws R x)
    (hiff : reads ↔ reads') (hthrows : throws → throws') (himp : ∀ a, R a → R' a) :
    Served user reads' throws' R' x := by
  rw [propext hiff] at hx
  cases hx with
  | ok h hreads => exact .ok (himp _ h) hreads
  | nullUser huser hreads => exact .nullUser huser hreads
  | uncaught h hreads => exact .uncaught (hthrows h) hreads

/-- Reading `m_user`, in a handler that reads it here. -/
theorem theUser {n : Nat} {w : World} (hreads : reads) (huser : (w.session n).user = user) :
    Served user reads throws (fun p => user = some p) (w.theUser n) := by
  unfold World.theUser
  rw [huser]
  cases user with
  | none => exact .nullUser rfl hreads
  | some p => exact .ok rfl fun h => by cases h

/-- Only a session without a user faults on it. -/
theorem nullUser_iff (hx : Served user reads throws R x) :
    x = .error .nullUser ↔ user = none ∧ reads := by
  cases hx with
  | ok h hreads => exact iff_of_false (fun h => by cases h) fun h => hreads h.1 h.2
  | nullUser huser hreads => exact iff_of_true rfl ⟨huser, hreads⟩
  | uncaught _ hreads => exact iff_of_false (fun h => by cases h) fun h => hreads h.1 h.2

/-- The result of a computation that gave one. -/
theorem of_ok {a : α} (hx : Served user reads throws R (.ok a)) : R a := by
  cases hx with
  | ok h hreads => exact h

end Served

/-! ## Acting as a session -/

/-- A session points at records that have been made. -/
def World.Made (w : World) : Prop := ∀ m p, (w.session m).user = some p → p < w.store.users.fresh

/-- The handler has run as session `n`: every session has the user and the sequence number it had, and
the calls it made to the assistant are the session's own, with its sequence number and its user. -/
structure Acted (n : Nat) (w w' : World) : Prop where
  im : w'.im = w.im
  session : ∀ m, (w'.session m).user = (w.session m).user ∧ (w'.session m).seq = (w.session m).seq
  users : w.store.users.Extends w'.store.users
  agentCalls : ∃ new, w'.agentCalls = w.agentCalls ++ new ∧ ∀ call ∈ new,
    call.session = n ∧ call.seq = (w.session n).seq ∧
      ∃ p, (w.session n).user = some p ∧ call.userid = (w.record p).userid

namespace Acted

variable {n : Nat}

/-- A step that makes no call. -/
theorem of_eq {w w' : World} (him : w'.im = w.im)
    (hsession : ∀ m, (w'.session m).user = (w.session m).user ∧ (w'.session m).seq = (w.session m).seq)
    (husers : w.store.users.Extends w'.store.users) (hcalls : w'.agentCalls = w.agentCalls) :
    Acted n w w' :=
  ⟨him, hsession, husers, [], by rw [hcalls, List.append_nil], by simp⟩

/-- A step that leaves connections, sessions, users and calls as they are. -/
theorem of_same {w w' : World} (him : w'.im = w.im) (hsession : w'.session = w.session)
    (husers : w'.store.users = w.store.users) (hcalls : w'.agentCalls = w.agentCalls) : Acted n w w' :=
  of_eq him (fun m => by rw [hsession]; exact ⟨rfl, rfl⟩) (husers ▸ UserManager.Extends.refl _) hcalls

theorem of_kept {Q : Sent → Prop} {w w' : World} (h : Kept Q w w') : Acted n w w' :=
  of_eq h.im (fun m => by rw [h.session]; exact ⟨rfl, rfl⟩) h.users h.agentCalls

theorem refl (w : World) : Acted n w w :=
  of_same rfl rfl rfl rfl

theorem of_answers {cmd : Int} {w w' : World} (h : Answers n cmd w w') : Acted n w w' := of_kept h.kept

theorem send (m : Nat) (path : Path) (msg : MessageContainer) (w : World) :
    Acted n w (w.send m path msg) :=
  of_same rfl rfl rfl rfl

theorem made {w w' : World} (h : Acted n w w') (hw : w.Made) : w'.Made := by
  intro m p hp
  rw [(h.session m).1] at hp
  exact lt_of_lt_of_le (hw m p hp) h.users.1

/-- A session's user keeps its id. -/
theorem record {w w' : World} (h : Acted n w w') (hw : w.Made) {m : Nat} {p : UserPtr}
    (hp : (w.session m).user = some p) : (w'.record p).userid = (w.record p).userid :=
  h.users.2 p (hw m p hp)

theorem trans {a b c : World} (ha : a.Made) (hab : Acted n a b) (hbc : Acted n b c) : Acted n a c where
  im := hbc.im.trans hab.im
  session m := ⟨(hbc.session m).1.trans (hab.session m).1, (hbc.session m).2.trans (hab.session m).2⟩
  users := hab.users.trans hbc.users
  agentCalls := by
    obtain ⟨new₁, heq₁, hnew₁⟩ := hab.agentCalls
    obtain ⟨new₂, heq₂, hnew₂⟩ := hbc.agentCalls
    refine ⟨new₁ ++ new₂, by rw [heq₂, heq₁, List.append_assoc], fun call hcall => ?_⟩
    rcases List.mem_append.1 hcall with hcall | hcall
    · exact hnew₁ call hcall
    · obtain ⟨hsession, hseq, p, hp, huserid⟩ := hnew₂ call hcall
      rw [(hab.session n).1] at hp
      exact ⟨hsession, hseq.trans (hab.session n).2, p, hp, huserid.trans (hab.record ha hp)⟩

/-- What a handler that keeps the rest does afterwards makes no call. -/
theorem then_kept {Q : Sent → Prop} {a b c : World} (hab : Acted n a b) (hbc : Kept Q b c) :
    Acted n a c where
  im := hbc.im.trans hab.im
  session := by rw [hbc.session]; exact hab.session
  users := hab.users.trans hbc.users
  agentCalls := by rw [hbc.agentCalls]; exact hab.agentCalls

/-- A loop whose body acts as the session does. -/
theorem foldl {α : Type} {f : World → α → World} (hf : ∀ w a, Acted n w (f w a)) (l : List α)
    {w : World} (hw : w.Made) : Acted n w (l.foldl f w) := by
  induction l generalizing w with
  | nil => exact refl w
  | cons a l ih => exact (hf w a).trans hw (ih ((hf w a).made hw))

end Acted

end AimChat
