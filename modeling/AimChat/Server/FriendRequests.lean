import AimChat.Server.Authentication
import AimChat.Server.ChatDelivery
import AimChat.Server.StoreMoves

/-! # Deleting a friend

`DeleteFriend` tells the other side when its `DELETE` was carried out, which it is when it matches no row.
Who is told is the session `GetSessionByID` finds for the id of the request, whatever that is: -1 is the id
of every session without a user, and a session whose login was refused has the id it was refused.
`delete_tells_former_friends_iff` says when the notifications go to former friends only. -/

namespace AimChat

open ClientSession

variable {env : Env}

/-- In `w` the event is a request of session `n`, which acts as the record `p`, to delete a friend. -/
def Deletes (env : Env) (w : World) (n : Nat) (p : UserPtr) (friendid : Int) (e : Event) : Prop :=
  ∃ msg, e = .recv n msg ∧ w.im.Connected n ∧ msg.cmd = msg_type_operatefriend ∧
    (w.session n).user = some p ∧
    env.pb.operateFriendReq.parse msg.payload = some { type := 2, friendid := friendid }

/-- A status change of type 3 was sent. -/
def Sent.TellsDeletion (env : Env) (x : Sent) : Prop :=
  x.msg.cmd = msg_type_userstatuschange ∧
    ∃ notify : UserStatusChangeNotify, notify.type = 3 ∧
      x.msg.payload = env.pb.userStatusChangeNotify.serialize notify

/-- The session acts as a user with this id, and has logged in as it. -/
def LoggedInAs (env : Env) (st : Store) (es : List Event) (w : World) (n : Nat) (userid : Int) : Prop :=
  ∃ q, (w.session n).user = some q ∧ (w.record q).userid = userid ∧ LoggedIn env st es n q

/-- When the event behind `es` is a request to delete a friend, of a session that has logged in, what tells of a
deletion is sent to sessions logged in as the friend only, and only if the other was a friend. -/
def TellsFormerFriends (env : Env) (st : Store) (es : List Event) (w : World) (e : Event) : Prop :=
  ∀ n p friendid, Deletes env w n p friendid e → LoggedIn env st es n p → ∀ w', step env w e = .ok w' →
    ∀ x ∈ w'.sent.drop w.sent.length, x.TellsDeletion env →
      LoggedInAs env st es w x.conn friendid ∧ friendid ∈ (w.record p).friends

/-- The statement of the request is carried out. -/
def DeleteCarriedOut (env : Env) (w : World) (p : UserPtr) (friendid : Int) : Prop :=
  (MySql.execute env.sql (UserManager.deleteFriendStmt (min (w.record p).userid friendid)
    (max (w.record p).userid friendid)) w.store.sql).1 = true

instance (env : Env) (w : World) (p : UserPtr) (friendid : Int) :
    Decidable (DeleteCarriedOut env w p friendid) := inferInstanceAs (Decidable (_ = _))

/-- When the event behind `es` is such a request that is carried out, and a session has the friend's id, then the
friend is one, and the session has logged in as the user it acts as. -/
def DeletesAFriend (env : Env) (st : Store) (es : List Event) (w : World) (e : Event) : Prop :=
  ∀ n p friendid, Deletes env w n p friendid e → LoggedIn env st es n p → DeleteCarriedOut env w p friendid →
    ∀ t, w.getSessionByID friendid = some t →
      (∃ q, (w.session t).user = some q ∧ LoggedIn env st es t q) ∧ friendid ∈ (w.record p).friends

/-! ## What a deletion sends -/

/-- The notification of a deletion: to the session of the friend, if there is one. -/
def deletionTold (env : Env) (w : World) (p : UserPtr) (friendid : Int) : List Sent :=
  match w.getSessionByID friendid with
  | none => []
  | some t => [⟨t, w.im.state t, w.userID t, .notify,
      { cmd := msg_type_userstatuschange, seq := 0
        payload := env.pb.userStatusChangeNotify.serialize
          { type := 3, userid := (w.record p).userid, customface := [] } }⟩]

/-- A store whose records keep their ids routes as before. -/
theorem userID_withStore {w : World} {st : Store}
    (h : ∀ q, (st.users.heap q).userid = (w.store.users.heap q).userid) (m : Nat) :
    (w.withStore st).userID m = w.userID m := by
  have hsession : (w.withStore st).session m = w.session m := rfl
  unfold World.userID
  rw [hsession]
  cases (w.session m).user with
  | none => rfl
  | some q => exact h q

theorem getSessionByID_withStore {w : World} {st : Store}
    (h : ∀ q, (st.users.heap q).userid = (w.store.users.heap q).userid) (userid : Int) :
    (w.withStore st).getSessionByID userid = w.getSessionByID userid := by
  unfold World.getSessionByID
  simp only [userID_withStore h]
  rfl

/-- What `notify` sends. -/
theorem sent_notify (env : Env) (target userid type : Int) (customface : Bytes) (w : World) :
    (notify env target userid type customface w).sent =
      w.sent ++ match w.getSessionByID target with
        | none => []
        | some t => [⟨t, w.im.state t, w.userID t, .notify,
            { cmd := msg_type_userstatuschange, seq := 0
              payload := env.pb.userStatusChangeNotify.serialize
                { type := type, userid := userid, customface := customface } }⟩] := by
  unfold notify
  cases w.getSessionByID target with
  | none => exact (List.append_nil _).symm
  | some t => rfl

/-- The answer to a request to delete a friend, of a session with a user. -/
theorem deleteFriendRsp_eq (env : Env) {w : World} {n : Nat} {p : UserPtr} (huser : (w.session n).user = some p)
    (friendid : Int) :
    ∃ rsp st, deleteFriendRsp env n w friendid = .ok (rsp,
        if DeleteCarriedOut env w p friendid then
          notify env friendid (w.record p).userid 3 [] (w.withStore st)
        else w.withStore st) ∧
      ∀ q, (st.users.heap q).userid = (w.store.users.heap q).userid := by
  have hids : ∀ q, ((UserManager.unlinked (w.record p).userid friendid w.store.users).heap q).userid =
      (w.store.users.heap q).userid := by
    intro q
    exact (UserManager.userid_modifyById ..).trans (UserManager.userid_modifyById ..)
  unfold deleteFriendRsp
  rw [World.theUser_of_user huser]
  rcases hexecute : MySql.execute env.sql (UserManager.deleteFriendStmt (min (w.record p).userid friendid)
      (max (w.record p).userid friendid)) w.store.sql with ⟨_ | _, sql⟩
  · have hrefused : ¬ DeleteCarriedOut env w p friendid := by
      unfold DeleteCarriedOut
      rw [hexecute]
      exact Bool.false_ne_true
    refine ⟨⟨100, str "delete friend failed!"⟩, ⟨sql, w.store.users⟩, ?_, fun _ => rfl⟩
    simp only [bind, Except.bind, pure, Except.pure, UserManager.deleteFriendToUser_of_refused env.sql hexecute,
      if_neg hrefused]
  · have hcarried : DeleteCarriedOut env w p friendid := by
      unfold DeleteCarriedOut
      rw [hexecute]
    refine ⟨⟨0, str "ok"⟩, ⟨sql, UserManager.unlinked (w.record p).userid friendid w.store.users⟩, ?_, hids⟩
    have hid : ((w.withStore ⟨sql, UserManager.unlinked (w.record p).userid friendid w.store.users⟩).record
        p).userid = (w.record p).userid := hids p
    simp only [bind, Except.bind, pure, Except.pure, UserManager.deleteFriendToUser_of_deleted env.sql hexecute, hid,
      if_pos hcarried]

/-- Deleting tells the friend when the statement is carried out, and nobody otherwise. -/
theorem sent_deleteFriendRsp (env : Env) {w : World} {n : Nat} {p : UserPtr} (huser : (w.session n).user = some p)
    (friendid : Int) :
    ∃ rsp v, deleteFriendRsp env n w friendid = .ok (rsp, v) ∧
      v.sent = w.sent ++ if DeleteCarriedOut env w p friendid then deletionTold env w p friendid else [] := by
  obtain ⟨rsp, st, hrsp, hids⟩ := deleteFriendRsp_eq env huser friendid
  refine ⟨rsp, _, hrsp, ?_⟩
  split_ifs with hcarried
  · -- the friend is looked up when the records have changed, their ids excepted
    rw [sent_notify, getSessionByID_withStore hids]
    unfold deletionTold
    cases w.getSessionByID friendid with
    | none => rfl
    | some t =>
        simp only [userID_withStore hids]
        rfl
  · exact (List.append_nil _).symm

/-- What is told does not depend on `m_seq`. -/
theorem deletionTold_setSeq (env : Env) (n : Nat) (w : World) (seq : Int) (p : UserPtr) (friendid : Int) :
    deletionTold env (w.setSession n fun s => { s with seq := seq }) p friendid = deletionTold env w p friendid := by
  have hrouting := SameRouting.setSession (f := fun s => { s with seq := seq }) n (fun _ => rfl) w
  unfold deletionTold
  simp only [hrouting.getSessionByID, hrouting.im, hrouting.userID, hrouting.record]

/-- A request to delete a friend sends the notification when its statement is carried out, and then its
answer. -/
theorem sent_deletes {w : World} {n : Nat} {p : UserPtr} {friendid : Int} {e : Event}
    (h : Deletes env w n p friendid e) :
    ∃ w' answer, step env w e = .ok w' ∧ answer.msg.cmd = msg_type_operatefriend ∧
      w'.sent = w.sent ++
        ((if DeleteCarriedOut env w p friendid then deletionTold env w p friendid else []) ++ [answer]) := by
  obtain ⟨msg, rfl, hn, hcmd, huser, hparse⟩ := h
  have huser₀ : ((w.setSession n fun s => { s with seq := msg.seq }).session n).user = some p :=
    (World.user_setSeq n w msg.seq).trans huser
  obtain ⟨rsp, v, hrsp, hsent⟩ := sent_deleteFriendRsp env huser₀ friendid
  rw [deletionTold_setSeq] at hsent
  have hsent' : v.sent = w.sent ++
      if DeleteCarriedOut env w p friendid then deletionTold env w p friendid else [] := hsent
  have hanswer : operateFriendRsp env n msg (w.setSession n fun s => { s with seq := msg.seq }) =
      .ok (rsp, v) := by
    unfold operateFriendRsp
    rw [hparse]
    exact hrsp
  refine ⟨v.respond n msg_type_operatefriend (env.pb.commonRsp.serialize rsp),
    ⟨n, v.im.state n, v.userID n, .answer, { cmd := msg_type_operatefriend, seq := (v.session n).seq
                                             payload := env.pb.commonRsp.serialize rsp }⟩, ?_, rfl, ?_⟩
  · rw [step_operatefriend hn hcmd, onOperateFriendResponse, hanswer]
    rfl
  · rw [← List.append_assoc, ← hsent']
    rfl

/-- For one event: the notifications go to former friends only when the friend whose deletion is carried
out, and to whom a session belongs, is one, and the session has logged in. -/
theorem tellsFormerFriends_iff (st : Store) (es : List Event) (w : World) (e : Event) :
    TellsFormerFriends env st es w e ↔ DeletesAFriend env st es w e := by
  constructor
  · intro h n p friendid hdeletes hlogin hcarried t ht
    obtain ⟨w', answer, hstep, -, hsent⟩ := sent_deletes hdeletes
    rw [if_pos hcarried] at hsent
    obtain ⟨x, hx, hconn, htells⟩ : ∃ x, x ∈ deletionTold env w p friendid ∧ x.conn = t ∧
        x.TellsDeletion env := by
      unfold deletionTold
      rw [ht]
      exact ⟨_, List.mem_singleton_self _, rfl, rfl, _, rfl, rfl⟩
    have hmem : x ∈ w'.sent.drop w.sent.length := by
      rw [hsent, List.drop_left]
      exact List.mem_append_left _ hx
    obtain ⟨⟨q, hq, -, hlogged⟩, hfriend⟩ := h n p friendid hdeletes hlogin w' hstep x hmem htells
    rw [hconn] at hq hlogged
    exact ⟨⟨q, hq, hlogged⟩, hfriend⟩
  · intro h n p friendid hdeletes hlogin w' hstep x hx htells
    obtain ⟨v, answer, hv, hanswer, hsent⟩ := sent_deletes hdeletes
    obtain rfl := Except.ok.inj (hv.symm.trans hstep)
    rw [hsent, List.drop_left] at hx
    rcases List.mem_append.1 hx with hx | hx
    · split_ifs at hx with hcarried
      · unfold deletionTold at hx
        cases ht : w.getSessionByID friendid with
        | none =>
            rw [ht] at hx
            cases hx
        | some t =>
            rw [ht] at hx
            obtain rfl := List.mem_singleton.1 hx
            obtain ⟨⟨q, hq, hlogged⟩, hfriend⟩ := h n p friendid hdeletes hlogin hcarried t ht
            refine ⟨⟨q, hq, ?_, hlogged⟩, hfriend⟩
            -- the session was found by its `UserID()`
            have hid : w.userID t = friendid := by simpa using List.find?_some ht
            unfold World.userID at hid
            rw [hq] at hid
            exact hid
      · cases hx
    · -- the answer has a command of its own
      obtain rfl := List.mem_singleton.1 hx
      rw [htells.1] at hanswer
      exact absurd hanswer (by decide)

/-- `a` and `b`, who are no friends, log in. -/
def strangers : List Event :=
  [.connect 1, .recv 0 (loginMessage (str "a") (str "p")), .connect 2,
    .recv 1 (loginMessage (str "b") (str "q"))]

/-- A request to delete `b`, who has id 2. -/
def deleteMessage : MessageContainer :=
  { cmd := msg_type_operatefriend, seq := 2
    payload := Protobuf.wire.operateFriendReq.serialize { type := 2, friendid := 2 } }

/-- `a` has logged in. -/
theorem loggedIn_strangers : LoggedIn (Env.ideal none) twoUsers strangers 0 0 := by
  obtain ⟨v, hrun, hn, hname, hpassword, hcode⟩ := @Run.exists_of_eval _ _
    (Run.run (step (Env.ideal none)) (World.init twoUsers) [.connect 1])
    (fun v => v.im.Connected 0 ∧ str "a" = (v.record 0).username ∧ str "p" = (v.record 0).password ∧
      loginCode (Env.ideal none) (loginMessage (str "a") (str "p")).payload v.store.users = (0, some 0)) _
    (by decide +kernel)
  have hparse : Protobuf.wire.loginReq.parse (loginMessage (str "a") (str "p")).payload =
      some { username := str "a", password := str "p" } := by decide +kernel
  exact ⟨[.connect 1], loginMessage (str "a") (str "p"), _, v, _, rfl, hrun, hn, rfl, hparse, hname, hpassword,
    hcode⟩

end AimChat
