import AimChat.Server.Mail
import AimChat.Server.Authentication
import AimChat.Server.StoreMoves

/-! # Who is online

`status` is a field of the record that sessions share; a login sets it to 1 and nothing ever sets it back,
nor is a status change of type 0 ever pushed. What friend lists say is right exactly as long as no close and
no login as another user takes a user's last session away: `presence_iff`. -/

namespace AimChat

open ClientSession

variable (env : Env)

/-- A session in `m_mapclient` is logged in as the user. -/
def Online (w : World) (p : UserPtr) : Prop := ∃ m, w.im.Live m ∧ (w.session m).user = some p

/-- The status of every user, and what friend lists and lists of members say of it, is whether the user is
online. -/
def StatusAccurate (w : World) : Prop :=
  ∀ p < w.store.users.fresh, ((w.record p).status = 1 ↔ Online w p) ∧
    ((friendInfo (w.record p)).status = 1 ↔ Online w p) ∧
    ((memberInfo (w.record p)).status = 1 ↔ Online w p)

/-- When the last session of a user is closed, the friends that have a session are told. -/
def LastCloseNotifies (w : World) : Event → Prop
  | .close n => ∀ p, w.im.Live n → (w.session n).user = some p →
      (∀ m, w.im.Live m → (w.session m).user = some p → m = n) → ∀ w', step env w (.close n) = .ok w' →
        ∀ q ∈ w'.friendsOf (w.record p).userid, ∀ s, w'.getSessionByID (w'.record q).userid = some s →
          ∃ x ∈ w'.sent.drop w.sent.length, x.conn = s ∧ x.msg =
            { cmd := msg_type_userstatuschange
              payload := env.pb.userStatusChangeNotify.serialize
                { type := 0, userid := (w.record p).userid } }
  | _ => True

/-- Connections, logins that are not refused, and closes. -/
def ComesOrGoes (w : World) : Event → Prop
  | .connect _ => True
  | .recv n msg => w.im.Connected n ∧ msg.cmd = msg_type_login ∧
      (loginCode env msg.payload w.store.users).1 = 0
  | .close _ => True
  | _ => False

instance (w : World) (e : Event) : Decidable (ComesOrGoes env w e) :=
  match e with
  | .connect _ => .isTrue trivial
  | .recv n msg => inferInstanceAs (Decidable (w.im.Connected n ∧ msg.cmd = msg_type_login ∧
      (loginCode env msg.payload w.store.users).1 = 0))
  | .malformed _ => .isFalse id
  | .close _ => .isTrue trivial
  | .agentDone _ _ => .isFalse id

/-- A session that is closed, or logs in as somebody else, is not the only one its user has. -/
def KeepsPresence (w : World) : Event → Prop
  | .recv n msg => w.im.Live n → ∀ p, (w.session n).user = some p →
      (loginCode env msg.payload w.store.users).2 ≠ some p →
        ∃ m, m ≠ n ∧ w.im.Live m ∧ (w.session m).user = some p
  | .close n => w.im.Live n → ∀ p, (w.session n).user = some p →
      ∃ m, m ≠ n ∧ w.im.Live m ∧ (w.session m).user = some p
  | _ => True

variable {env}

/-- Nobody is neither online nor offline. -/
def StatusBit (w : World) : Prop := ∀ p < w.store.users.fresh, (w.record p).status = 0 ∨ (w.record p).status = 1

/-- What the lists say is what the record says. -/
theorem statusAccurate_iff {w : World} (hbit : StatusBit w) :
    StatusAccurate w ↔ ∀ p < w.store.users.fresh, ((w.record p).status = 1 ↔ Online w p) := by
  -- a member list shows the status itself, a friend list whether it is not 0
  refine forall₂_congr fun p hp => ⟨fun h => h.1, fun h => ⟨h, ?_, h⟩⟩
  rw [← h]
  unfold friendInfo
  rcases hbit p hp with h0 | h1
  · simp [h0]
  · simp [h1]

/-! ## The store after a login -/

/-- A login that is not refused names a record. -/
theorem found_of_code_zero {payload : Bytes} {um : UserManager}
    (h : (loginCode env payload um).1 = 0) : ∃ p, loginCode env payload um = (0, some p) := by
  unfold loginCode at h ⊢
  cases hparse : env.pb.loginReq.parse payload with
  | none => rw [hparse] at h; cases h
  | some req =>
      rw [hparse] at h
      dsimp only at h ⊢
      unfold UserManager.checkLogin at h ⊢
      split_ifs at h ⊢
      · cases h
      · cases hfound : um.getUserInfoUsername req.username with
        | none => rw [hfound] at h; cases h
        | some p =>
            rw [hfound] at h
            dsimp only at h ⊢
            split_ifs at h ⊢
            · cases h
            · exact ⟨p, rfl⟩

/-- What a login does to the records. -/
theorem users_login {w w' : World} {n : Nat} {msg : MessageContainer} {p : UserPtr}
    (hn : w.im.Connected n) (hlogin : msg.cmd = msg_type_login)
    (hcode : loginCode env msg.payload w.store.users = (0, some p))
    (hstep : step env w (.recv n msg) = .ok w') :
    w'.store.users = w.store.users.modify p (fun u => { u with status := 1 }) fun _ => rfl := by
  rcases step_recv hstep with ⟨-, hrun⟩ | ⟨hnot, -⟩
  · unfold onMessageReceived at hrun
    rw [dispatch_login env n msg _ hlogin] at hrun
    unfold onLoginResponse at hrun
    have husers : (w.setSession n fun s => { s with seq := msg.seq }).store.users = w.store.users := rfl
    rw [husers, hcode] at hrun
    dsimp only at hrun
    rw [if_pos rfl] at hrun
    cases hrun
    rw [store_loggedIn]
    rfl
  · exact absurd hn hnot

/-- The records after an event: a login sets the status of its user. -/
theorem store_step {w w' : World} {e : Event} (he : ComesOrGoes env w e) (hstep : step env w e = .ok w') :
    w'.store = w.store ∨ ∃ p, w'.store.users = w.store.users.modify p (fun u => { u with status := 1 })
      fun _ => rfl := by
  cases e with
  | malformed n => exact absurd he id
  | agentDone k rpc => exact absurd he id
  | connect addr =>
      left
      rcases step_connect hstep with ⟨_, rfl⟩ | ⟨_, rfl⟩ <;> rfl
  | close n =>
      left
      rcases step_close hstep with ⟨_, rfl⟩ | ⟨_, rfl⟩ <;> rfl
  | recv n msg =>
      obtain ⟨hn, hlogin, hzero⟩ := he
      obtain ⟨p, hcode⟩ := @found_of_code_zero env _ _ hzero
      exact .inr ⟨p, users_login hn hlogin hcode hstep⟩

theorem statusBit_step {w w' : World} {e : Event} (hbit : StatusBit w) (he : ComesOrGoes env w e)
    (hstep : step env w e = .ok w') : StatusBit w' := by
  unfold StatusBit World.record at hbit ⊢
  -- the only write is a login's
  rcases store_step he hstep with hsame | ⟨p, hset⟩
  · rw [hsame]
    exact hbit
  · rw [hset]
    intro q hq
    show (if q = p then _ else _ : User).status = 0 ∨ (if q = p then _ else _ : User).status = 1
    split_ifs
    · exact .inr rfl
    · exact hbit q hq

/-! ## Who is online after an event -/

/-- Who is online after an event. -/
theorem online_iff {w w' : World} {e : Event} (heffect : Effect env w e w') (p : UserPtr) :
    Online w' p ↔ ∃ m, (imAfter w e).Live m ∧ (sessionAfter env w m e).user = some p := by
  unfold Online
  rw [heffect.im]
  exact exists_congr fun m => by rw [(heffect.session m).1]

/-- A user is online in this session or in another one. -/
theorem online_split (w : World) (n : Nat) (p : UserPtr) :
    Online w p ↔ (w.im.Live n ∧ (w.session n).user = some p) ∨
      ∃ m, m ≠ n ∧ w.im.Live m ∧ (w.session m).user = some p := by
  constructor
  · rintro ⟨m, hlive, huser⟩
    by_cases hm : m = n
    · subst hm
      exact .inl ⟨hlive, huser⟩
    · exact .inr ⟨m, hm, hlive, huser⟩
  · rintro (⟨hlive, huser⟩ | ⟨m, -, hlive, huser⟩)
    · exact ⟨n, hlive, huser⟩
    · exact ⟨m, hlive, huser⟩

/-- A new connection takes nobody on- or offline. -/
theorem online_connect {w w' : World} {addr : Nat} (heffect : Effect env w (.connect addr) w') (p : UserPtr) :
    Online w' p ↔ Online w p := by
  rw [online_iff heffect]
  constructor
  · rintro ⟨m, hlive, huser⟩
    rcases @live_imAfter env w _ m hlive with hold | hnone
    · rw [sessionAfter_connect, if_neg fun h => absurd h.2.2 (Nat.ne_of_lt hold.1)] at huser
      exact ⟨m, hold, huser⟩
    · -- the new session has no user
      rw [hnone] at huser
      cases huser
  · rintro ⟨m, hlive, huser⟩
    refine ⟨m, ?_, ?_⟩
    · rw [imAfter_connect]
      split_ifs
      · exact (IMSer.live_onConnection ..).2 (.inr hlive)
      · exact hlive
    · rw [sessionAfter_connect, if_neg fun h => absurd h.2.2 (Nat.ne_of_lt hlive.1)]
      exact huser

/-- After a close those are online who are in another session. -/
theorem online_close {w w' : World} {n : Nat} (heffect : Effect env w (.close n) w') (hn : w.im.Live n)
    (p : UserPtr) : Online w' p ↔ ∃ m, m ≠ n ∧ w.im.Live m ∧ (w.session m).user = some p := by
  rw [online_iff heffect, imAfter_close, dif_pos hn]
  exact exists_congr fun m => by rw [IMSer.live_onClose, and_assoc]; rfl

/-- After a login its user is online, and those who are in another session. -/
theorem online_login {w w' : World} {n : Nat} {msg : MessageContainer} {p : UserPtr}
    (heffect : Effect env w (.recv n msg) w') (hn : w.im.Connected n)
    (hnames : Names env w.store.users msg p) (q : UserPtr) :
    Online w' q ↔ q = p ∨ ∃ m, m ≠ n ∧ w.im.Live m ∧ (w.session m).user = some q := by
  rw [online_iff heffect]
  constructor
  · rintro ⟨m, hlive, huser⟩
    by_cases hm : m = n
    · subst hm
      rw [user_of_names hn hnames] at huser
      exact .inl (Option.some.inj huser).symm
    · rw [sessionAfter_recv, if_neg fun h => hm h.2] at huser
      exact .inr ⟨m, hm, hlive, huser⟩
  · rintro (rfl | ⟨m, hm, hlive, huser⟩)
    · exact ⟨n, hn.live, user_of_names hn hnames⟩
    · refine ⟨m, hlive, ?_⟩
      rw [sessionAfter_recv, if_neg fun h => hm h.2]
      exact huser

/-- The status of every user is whether the user is online. -/
def StatusOnline (w : World) : Prop := ∀ p < w.store.users.fresh, ((w.record p).status = 1 ↔ Online w p)

/-- A close changes no status, so the user it takes a session from needs another one. -/
theorem statusOnline_close {w w' : World} {n : Nat} (hmade : w.Made) (hacc : StatusOnline w)
    (hstep : step env w (.close n) = .ok w') : StatusOnline w' ↔ KeepsPresence env w (.close n) := by
  have heffect := step_effect hmade hstep
  have hstore : w'.store = w.store := by
    rcases step_close hstep with ⟨_, rfl⟩ | ⟨_, rfl⟩ <;> rfl
  unfold StatusOnline World.record at hacc ⊢
  rw [hstore]
  by_cases hn : w.im.Live n
  · constructor
    · intro h _ p huser
      have hp := hmade n p huser
      exact (online_close heffect hn p).1 ((h p hp).1 ((hacc p hp).2 ⟨n, hn, huser⟩))
    · intro h p hp
      rw [hacc p hp, online_close heffect hn, online_split w n]
      exact or_iff_right_of_imp fun hself => h hn p hself.2
  · refine iff_of_true (fun p hp => ?_) fun h => absurd h hn
    rw [online_iff heffect, imAfter_close, dif_neg hn]
    exact hacc p hp

/-- A login sets the status of its user, so the user whose session it takes over needs another one. -/
theorem statusOnline_login {w w' : World} {n : Nat} {msg : MessageContainer} {p : UserPtr} (hmade : w.Made)
    (hacc : StatusOnline w) (hn : w.im.Connected n) (hlogin : msg.cmd = msg_type_login)
    (hcode : loginCode env msg.payload w.store.users = (0, some p))
    (hstep : step env w (.recv n msg) = .ok w') : StatusOnline w' ↔ KeepsPresence env w (.recv n msg) := by
  have husers := users_login hn hlogin hcode hstep
  have honline := online_login (step_effect hmade hstep) hn ⟨hlogin, by rw [hcode]⟩
  have hrecord : ∀ q, w'.record q = if q = p then { w.record q with status := 1 } else w.record q := by
    intro q
    unfold World.record
    rw [husers]
    rfl
  have hfresh : w'.store.users.fresh = w.store.users.fresh := by
    rw [husers]
    rfl
  unfold StatusOnline
  rw [hfresh]
  constructor
  · intro h hlive q huser hother
    -- the session is taken from q, whose status stays 1
    have hqp : q ≠ p := fun h => hother (by rw [hcode, h])
    have hq := hmade n q huser
    have hstatus : (w'.record q).status = 1 := by
      rw [hrecord, if_neg hqp]
      exact (hacc q hq).2 ⟨n, hlive, huser⟩
    exact ((honline q).1 ((h q hq).1 hstatus)).resolve_left hqp
  · intro h q hq
    rw [hrecord, honline]
    by_cases hqp : q = p
    · rw [if_pos hqp]
      exact iff_of_true rfl (.inl hqp)
    · rw [if_neg hqp, hacc q hq, or_iff_right hqp, online_split w n]
      refine or_iff_right_of_imp fun hself => h hself.1 q hself.2 fun heq => hqp ?_
      rw [hcode] at heq
      exact (Option.some.inj heq).symm

/-- An event keeps the statuses accurate exactly when it leaves every user who is online a session. -/
theorem statusAccurate_step {w w' : World} {e : Event} (hw : Inv w) (hbit : StatusBit w)
    (hacc : StatusAccurate w) (he : ComesOrGoes env w e) (hstep : step env w e = .ok w') :
    StatusAccurate w' ↔ KeepsPresence env w e := by
  rw [statusAccurate_iff (statusBit_step hbit he hstep)]
  rw [statusAccurate_iff hbit] at hacc
  cases e with
  | malformed n => exact absurd he id
  | agentDone k rpc => exact absurd he id
  | connect addr =>
      have hstore : w'.store = w.store := by
        rcases step_connect hstep with ⟨_, rfl⟩ | ⟨_, rfl⟩ <;> rfl
      refine iff_of_true (fun p hp => ?_) trivial
      rw [online_connect (step_effect hw.made hstep)]
      unfold World.record
      rw [hstore] at hp ⊢
      exact hacc p hp
  | close n => exact statusOnline_close hw.made hacc hstep
  | recv n msg =>
      obtain ⟨hn, hlogin, hzero⟩ := he
      obtain ⟨p, hcode⟩ := @found_of_code_zero env _ _ hzero
      exact statusOnline_login hw.made hacc hn hlogin hcode hstep

/-- None of these events ends the process. -/
theorem step_of_comesOrGoes {w : World} {e : Event} (hw : Inv w) (he : ComesOrGoes env w e) :
    ∃ w', step env w e = .ok w' := by
  cases e with
  | malformed n => exact absurd he id
  | agentDone k rpc => exact absurd he id
  | connect addr =>
      by_cases hfree : addr ≠ 0 ∧ w.im.Free addr
      · exact ⟨_, dif_pos hfree⟩
      · exact ⟨_, dif_neg hfree⟩
  | close n =>
      by_cases hn : w.im.Live n
      · exact ⟨_, dif_pos hn⟩
      · exact ⟨_, dif_neg hn⟩
  | recv n msg =>
      obtain ⟨-, hlogin, hzero⟩ := he
      obtain ⟨p, hcode⟩ := @found_of_code_zero env _ _ hzero
      exact step_of_names hw.made ⟨hlogin, by rw [hcode]⟩

/-- Nobody is online in a store, as it is after it was loaded. -/
def NobodyOnline (st : Store) : Prop := ∀ p < st.users.fresh, (st.users.heap p).status = 0

instance (st : Store) : Decidable (NobodyOnline st) :=
  inferInstanceAs (Decidable (∀ p < st.users.fresh, (st.users.heap p).status = 0))

/-- **Presence.** In a run of connections, logins and closes from a store where nobody is online, the
statuses are accurate in every state and the last close of each user is told to the friends exactly when no
close and no login as another user takes the last session of a user away. -/
theorem presence_iff {st : Store} (hst : NobodyOnline st) {es : List Event}
    (hes : Run.Always (step env) (ComesOrGoes env) (World.init st) es) :
    ((∀ pre w, pre <+: es → Run.run (step env) (World.init st) pre = .ok w → StatusAccurate w) ∧
        Run.Always (step env) (LastCloseNotifies env) (World.init st) es) ↔
      Run.Always (step env) (KeepsPresence env) (World.init st) es := by
  have hbit : StatusBit (World.init st) := fun p hp => .inl (hst p hp)
  have hacc : StatusAccurate (World.init st) := by
    rw [statusAccurate_iff hbit]
    intro p hp
    have hzero : ((World.init st).record p).status = 0 := hst p hp
    rw [hzero]
    refine iff_of_false (by decide) ?_
    rintro ⟨m, hlive, -⟩
    exact Nat.not_lt_zero m hlive.1
  have hexact := Run.forall_prefix_iff_always (I := fun w => Inv w ∧ StatusBit w)
    (Q := StatusAccurate) (H := ComesOrGoes env) (P := KeepsPresence env)
    (fun s e s' hs he (hstep : step env s e = .ok s') =>
      ⟨inv_step s e s' hs.1 hstep, statusBit_step hs.2 he hstep⟩)
    (fun s e s' hs hQ he hstep => statusAccurate_step hs.1 hs.2 hQ he hstep)
    (fun s e f hs _ he hstep => by
      obtain ⟨s', hok⟩ := step_of_comesOrGoes hs.1 he
      rw [hstep] at hok
      cases hok)
    ⟨inv_init st, hbit⟩ hacc hes
  rw [hexact]
  -- while every user keeps a session, no close is a last one
  refine and_iff_left_of_imp fun h => ?_
  refine h.mono fun w e hkeeps => ?_
  cases e with
  | connect addr => trivial
  | recv n msg => trivial
  | malformed n => trivial
  | agentDone k rpc => trivial
  | close n =>
      intro p hn huser hlast
      obtain ⟨m, hm, hlive, hother⟩ := hkeeps hn p huser
      exact absurd (hlast m hlive hother) hm

/-- A user logs in. -/
def loginA : List Event := [.connect 1, .recv 0 (loginMessage (str "a") (str "p"))]

/-- And on a second session, before the first one is closed. -/
def loginTwice : List Event :=
  loginA ++ [.connect 2, .recv 1 (loginMessage (str "a") (str "p")), .close 0]

theorem presence_iff_loginTwice :
    ((∀ pre w, pre <+: loginTwice →
          Run.run (step (Env.ideal none)) (World.init UserManager.oneUser) pre = .ok w → StatusAccurate w) ∧
        Run.Always (step (Env.ideal none)) (LastCloseNotifies (Env.ideal none))
          (World.init UserManager.oneUser) loginTwice) ↔
      Run.Always (step (Env.ideal none)) (KeepsPresence (Env.ideal none))
        (World.init UserManager.oneUser) loginTwice :=
  presence_iff (by decide +kernel) (by decide +kernel)

/-- The user leaves, and stays online. -/
theorem online_after_close :
    ¬ ((∀ pre w, pre <+: loginA ++ [.close 0] →
          Run.run (step (Env.ideal none)) (World.init UserManager.oneUser) pre = .ok w → StatusAccurate w) ∧
        Run.Always (step (Env.ideal none)) (LastCloseNotifies (Env.ideal none))
          (World.init UserManager.oneUser) (loginA ++ [.close 0])) := by
  rintro ⟨h, -⟩
  obtain ⟨w, hrun, hp, hstatus, hfresh, hclosed⟩ := @Run.exists_of_eval _ _
    (Run.run (step (Env.ideal none)) (World.init UserManager.oneUser) (loginA ++ [.close 0]))
    (fun w => 0 < w.store.users.fresh ∧ (w.record 0).status = 1 ∧ w.im.fresh = 1 ∧ ¬ w.im.Live 0) _
    (by decide +kernel)
  obtain ⟨m, hlive, -⟩ := ((h _ w List.prefix_rfl hrun 0 hp).1).1 hstatus
  -- session 0 is the only one there was
  have hm : m = 0 := by
    have hlt := hlive.1
    omega
  rw [hm] at hlive
  exact hclosed hlive

end AimChat
