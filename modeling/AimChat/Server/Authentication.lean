import AimChat.Server.Effect
import AimChat.Store.LoginIdentity

/-! # Who a session acts as

`OnLoginResponse` lets `GetUserInfoUsername` write to `m_user` and looks at the password afterwards, so a
refused login leaves the session bound to the record it named. Runs without that keep the sessions
authentic: each acts as a user it has logged in as. -/

namespace AimChat

open ClientSession

variable (env : Env)

/-- In the run of these events, session `n` sent a login that named `p`'s username, carried the password
`p` had at that moment, and was answered with code 0. -/
def LoggedIn (st : Store) (es : List Event) (n : Nat) (p : UserPtr) : Prop :=
  ∃ pre msg post v req, es = pre ++ .recv n msg :: post ∧
    Run.run (step env) (World.init st) pre = .ok v ∧ v.im.Connected n ∧ msg.cmd = msg_type_login ∧
    env.pb.loginReq.parse msg.payload = some req ∧ req.username = (v.record p).username ∧
    req.password = (v.record p).password ∧ loginCode env msg.payload v.store.users = (0, some p)

/-- Every session that has a user has logged in as it, and `GetSessionByID` finds a session that has
logged in as the user it looks for (-1 is no user). -/
def Authentic (st : Store) (es : List Event) (w : World) : Prop :=
  (∀ n p, (w.session n).user = some p → LoggedIn env st es n p) ∧
    ∀ userid n, w.getSessionByID userid = some n →
      (∃ p, (w.session n).user = some p ∧ (w.record p).userid = userid ∧ LoggedIn env st es n p) ∨
        (w.session n).user = none ∧ userid = -1

/-- A login answered with another code than 0 leaves the session the user it acts as. -/
def RefusalKeepsUser (w : World) : Event → Prop
  | .recv n msg => w.im.Connected n → msg.cmd = msg_type_login →
      (loginCode env msg.payload w.store.users).1 ≠ 0 → ∀ w', step env w (.recv n msg) = .ok w' →
        (w'.session n).user = (w.session n).user ∧ w'.userID n = w.userID n
  | _ => True

/-- A login with all its fields that names a record carries the record's password, or names the one the
session acts as. -/
def RightPassword (w : World) : Event → Prop
  | .recv n msg => w.im.Connected n → msg.cmd = msg_type_login → ∀ req p,
      env.pb.loginReq.parse msg.payload = some req → req.username ≠ [] → req.password ≠ [] →
      w.store.users.getUserInfoUsername req.username = some p →
        req.password = (w.record p).password ∨ (w.session n).user = some p
  | _ => True

variable {env}

theorem LoggedIn.append {st : Store} {es fs : List Event} {n : Nat} {p : UserPtr}
    (h : LoggedIn env st es n p) : LoggedIn env st (es ++ fs) n p := by
  obtain ⟨pre, msg, post, v, req, rfl, hrest⟩ := h
  exact ⟨pre, msg, post ++ fs, v, req, by rw [List.append_assoc, List.cons_append], hrest⟩

/-- The second half of `Authentic` is about the first one's sessions. -/
theorem authentic_iff {st : Store} {es : List Event} {w : World} :
    Authentic env st es w ↔ ∀ n p, (w.session n).user = some p → LoggedIn env st es n p := by
  refine ⟨fun h => h.1, fun h => ⟨h, fun userid n hfound => ?_⟩⟩
  have hid : w.userID n = userid := by simpa using List.find?_some hfound
  unfold World.userID at hid
  cases huser : (w.session n).user with
  | none =>
      rw [huser] at hid
      exact .inr ⟨rfl, hid.symm⟩
  | some p =>
      rw [huser] at hid
      exact .inl ⟨p, rfl, hid, h n p huser⟩

/-- A refused login keeps the session's user exactly when it is no wrong password for another record. -/
theorem refusalKeepsUser_iff {w : World} (hw : Inv w) (e : Event) :
    RefusalKeepsUser env w e ↔ RightPassword env w e := by
  cases e with
  | connect addr => exact Iff.rfl
  | malformed n => exact Iff.rfl
  | close n => exact Iff.rfl
  | agentDone k rpc => exact Iff.rfl
  | recv n msg =>
      constructor
      · intro h hn hlogin req p hparse hname hpassword hfound
        by_contra hwrong
        obtain ⟨hpw, huser⟩ := not_or.1 hwrong
        -- a wrong password for another record: refused, and the session is bound to it
        have hcode : loginCode env msg.payload w.store.users = (104, some p) := by
          unfold loginCode UserManager.checkLogin
          rw [hparse]
          dsimp only
          rw [if_neg (not_or.2 ⟨hname, hpassword⟩), hfound]
          exact if_pos hpw
        have hnames : Names env w.store.users msg p := ⟨hlogin, by rw [hcode]⟩
        obtain ⟨w', hstep⟩ := step_of_names (m := n) hw.made hnames
        have hkept := (h hn hlogin (by rw [hcode]; exact (by decide : (104 : Int) ≠ 0)) w' hstep).1
        rw [((step_effect hw.made hstep).session n).1, user_of_names hn hnames] at hkept
        exact huser hkept.symm
      · intro h hn hlogin hrefused w' hstep
        have heffect := step_effect hw.made hstep
        have huser : (w'.session n).user = (w.session n).user := by
          rw [(heffect.session n).1]
          cases hcode : loginCode env msg.payload w.store.users with
          | mk code found =>
              cases found with
              | none =>
                  refine user_of_not_names fun p hp => ?_
                  have hfound := hp.2
                  rw [hcode] at hfound
                  cases hfound
              | some p =>
                  obtain ⟨req, hparse, hname, hpassword, hfound, rfl⟩ := loginCode_eq_some env hcode
                  rw [hcode] at hrefused
                  rw [user_of_names hn ⟨hlogin, by rw [hcode]⟩]
                  rcases h hn hlogin req p hparse hname hpassword hfound with hright | hsame
                  · exact absurd (if_pos hright) hrefused
                  · exact hsame.symm
        exact ⟨huser, userID_eq hw.made heffect.users huser⟩

/-- **Authentication.** From any store, the sessions are authentic in every state a run passes through
and no refused login changes the user of one exactly when each login that names a record carries its
password or names the record the session acts as. -/
theorem authentication_iff (st : Store) (es : List Event) :
    ((∀ pre w, pre <+: es → Run.run (step env) (World.init st) pre = .ok w → Authentic env st pre w) ∧
        Run.Always (step env) (RefusalKeepsUser env) (World.init st) es) ↔
      Run.Always (step env) (RightPassword env) (World.init st) es := by
  have hcongr : Run.Always (step env) (RefusalKeepsUser env) (World.init st) es ↔
      Run.Always (step env) (RightPassword env) (World.init st) es :=
    Run.always_congr inv_step (fun w e hw => refusalKeepsUser_iff hw e) (inv_init st)
  rw [hcongr]
  refine ⟨fun h => h.2, fun h => ⟨fun pre w hpre hrun => authentic_iff.2 ?_, h⟩⟩
  obtain ⟨post, rfl⟩ := hpre
  -- a user is set by a login only, and under the condition only by one with the right password
  refine Run.run_history (J := fun es w => ∀ n p, (w.session n).user = some p → LoggedIn env st es n p)
    (fun n p hp => by cases hp) (fun es w e w' hes hJ hright hstep n p hp => ?_) h.left hrun
  have hw := inv_run (inv_init st) hes
  rw [((step_effect hw.made hstep).session n).1] at hp
  rcases user_cases hp with hp | ⟨msg, rfl, hn, hlogin, hfound⟩
  · exact (hJ n p hp).append
  · obtain ⟨req, hparse, hname, hpassword, hfound', hcode⟩ := loginCode_eq_some env (Prod.ext rfl hfound)
    rcases hright hn hlogin req p hparse hname hpassword hfound' with hpw | hsame
    · have husername : (w.store.users.heap p).username = req.username := by
        simpa using List.find?_some hfound'
      rw [if_pos (show req.password = (w.store.users.heap p).password from hpw)] at hcode
      exact ⟨es, msg, [], w, req, rfl, hes, hn, hlogin, hparse, husername.symm, hpw,
        Prod.ext hcode hfound⟩
    · exact (hJ n p hsame).append

/-! ## A wrong password -/

/-- A message with a `LoginReq`. -/
def loginMessage (username password : Bytes) : MessageContainer :=
  { cmd := msg_type_login, seq := 1
    payload := Protobuf.wire.loginReq.serialize { username := username, password := password } }

/-- The user of `oneUser` and a second one, `b`. -/
def twoUsers : Store :=
  (UserManager.addUser SqlEnv.ideal { username := str "b", password := str "q" } UserManager.oneUser).2

/-- A client connects and tries a wrong password: the session acts as the user it has not logged in
as. -/
theorem wrong_password_binds :
    ¬ ((∀ pre w, pre <+: [Event.connect 1, .recv 0 (loginMessage (str "a") (str "x"))] →
        Run.run (step (Env.ideal none)) (World.init UserManager.oneUser) pre = .ok w →
          Authentic (Env.ideal none) UserManager.oneUser pre w) ∧
      Run.Always (step (Env.ideal none)) (RefusalKeepsUser (Env.ideal none))
        (World.init UserManager.oneUser) [.connect 1, .recv 0 (loginMessage (str "a") (str "x"))]) := by
  rintro ⟨-, h⟩
  have hlogin := (h.2 _ (step_connect_init _)).1
  rw [refusalKeepsUser_iff (inv_step _ _ _ (inv_init _) (@step_connect_init (Env.ideal none) _))] at hlogin
  have hparse : Protobuf.wire.loginReq.parse (loginMessage (str "a") (str "x")).payload =
      some { username := str "a", password := str "x" } := by decide +kernel
  have hfound : UserManager.oneUser.users.getUserInfoUsername (str "a") = some 0 := by decide +kernel
  rcases hlogin ⟨Nat.one_pos, rfl⟩ rfl _ 0 hparse (by decide +kernel) (by decide +kernel) hfound with
    hpw | huser
  · have hother : (str "x") ≠ (UserManager.oneUser.users.heap 0).password := by decide +kernel
    exact hother hpw
  · cases huser

end AimChat
