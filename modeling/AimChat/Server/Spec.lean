import AimChat.Server.Served

/-! # What the handlers do

One lemma for each handler: what it leaves alone, and when it dereferences a null `m_user`. They are put
together in `served_onMessageReceived`, and nothing later unfolds a handler to find that out again. -/

namespace AimChat

namespace ClientSession

variable (env : Env) (n : Nat) (msg : MessageContainer) (w : World)

theorem kept_notify (target userid type : Int) (customface : Bytes) :
    Kept Sent.IsNotify w (notify env target userid type customface w) := by
  unfold notify
  cases w.getSessionByID target with
  | none => exact Kept.refl w
  | some targetSession => exact Kept.send ⟨rfl, rfl⟩

theorem kept_notifyAll (friends : List UserPtr) (userid type : Int) (customface : Bytes) :
    Kept Sent.IsNotify w (notifyAll env friends userid type customface w) :=
  Kept.foldl (fun w p => kept_notify env w (w.record p).userid userid type customface) friends w

theorem kept_makeFriends (a b : Int) : Kept Sent.IsNotify w (w.withStore (makeFriends env w a b).2) :=
  Kept.withStore (UserManager.extends_makeFriendRelationship ..)

theorem answers_onHeartbeatResponse : Answers n msg_type_heartbeart w (onHeartbeatResponse n w) :=
  .of_kept (Kept.refl w)

theorem kept_registerRsp : Kept Sent.IsNotify w (registerRsp env msg w).2 := by
  unfold registerRsp
  cases env.pb.registerReq.parse msg.payload with
  | none => exact Kept.refl w
  | some req =>
      dsimp only
      split_ifs
      · exact Kept.refl w
      · cases env.grpc with
        | none => exact Kept.refl w
        | some grpc =>
            dsimp only
            cases grpc.mail with
            | none => exact Kept.refl w
            | some mail =>
                dsimp only
                by_cases hok : (mail.verifyCode w.calls req.email req.code).ok
                · rw [if_pos hok]
                  have hadd := UserManager.extends_addUser env.sql
                    { username := req.username, nickname := req.nickname, password := req.password,
                      mail := req.email } w.called.store
                  revert hadd
                  cases UserManager.addUser env.sql _ w.called.store with
                  | mk added st =>
                      intro hadd
                      cases added <;> exact (Kept.called w).trans (Kept.withStore hadd)
                · rw [if_neg hok]
                  exact Kept.called w

theorem answers_onRegisterResponse :
    Answers n msg_type_register w (onRegisterResponse env n msg w) :=
  .of_kept (kept_registerRsp env msg w)

/-- `OnGetFriendListResponse` reads `m_user`. -/
theorem served_onGetFriendListResponse :
    Served (w.session n).user True False (Answers n msg_type_getofriendlist w)
      (onGetFriendListResponse env n w) :=
  (Served.theUser trivial rfl).bind fun _ _ hreads => .ok (.of_kept (Kept.refl w)) hreads

/-- `std::stoi` throws on the keyword of a search by id. -/
def StoiThrows : Prop :=
  ∃ req, env.pb.findUserReq.parse msg.payload = some req ∧ req.type = str "userid" ∧
    stoi req.keyword = none

/-- `OnFindUserResponse` reads no `m_user`, but `std::stoi` can throw. -/
theorem served_onFindUserResponse :
    Served (w.session n).user False (StoiThrows env msg) (Answers n msg_type_finduser w)
      (onFindUserResponse env n msg w) := by
  suffices hrsp : Served (w.session n).user False (StoiThrows env msg) (fun _ => True)
      (findUserRsp env msg w) from
    hrsp.bind fun rsp _ hreads => .ok (.of_kept (Kept.refl w)) hreads
  unfold findUserRsp
  cases hparse : env.pb.findUserReq.parse msg.payload with
  | none => exact .ok trivial fun _ => id
  | some req =>
      have hfind : Served (w.session n).user False (StoiThrows env msg) (fun _ => True)
          (findUser w req) := by
        unfold findUser
        refine .ite (fun _ => .ok trivial fun _ => id) fun _ => .ite (fun huserid => ?_) fun _ =>
          .ok trivial fun _ => id
        cases hstoi : stoi req.keyword with
        | none => exact .uncaught ⟨req, hparse, huserid, hstoi⟩ fun _ => id
        | some userid => exact .ok trivial fun _ => id
      refine hfind.bind fun found _ hreads => ?_
      cases found with
      | none => exact .ok trivial hreads
      | some p => exact .ite (fun _ => .ok trivial hreads) fun _ => .ok trivial hreads

/-- Adding a friend reads `m_user` unless the id is a group's, deleting one always does. -/
theorem served_onOperateFriendResponse :
    Served (w.session n).user
      (∃ req, env.pb.operateFriendReq.parse msg.payload = some req ∧
        (req.type = 1 ∧ req.friendid < GROUPID_BOUNDARY ∨ req.type = 2))
      False (Answers n msg_type_operatefriend w) (onOperateFriendResponse env n msg w) := by
  suffices hrsp : Served (w.session n).user _ False (fun a => Kept Sent.IsNotify w a.2)
      (operateFriendRsp env n msg w) from
    hrsp.bind fun a ha hreads => .ok (.of_kept ha) hreads
  unfold operateFriendRsp
  cases env.pb.operateFriendReq.parse msg.payload with
  | none => exact .ok (Kept.refl w) fun _ h => by simp at h
  | some req =>
      simp only [Option.some.injEq, exists_eq_left']
      split_ifs with h1 h2 h3
      · unfold addFriendRsp
        split_ifs with hgroup
        · exact .ok (Kept.refl w) fun _ h => by omega
        · refine (Served.theUser (.inl ⟨h1, not_le.1 hgroup⟩) rfl).bind fun p _ hreads => ?_
          have hkept := kept_makeFriends env w (w.record p).userid req.friendid
          revert hkept
          cases makeFriends env w (w.record p).userid req.friendid with
          | mk made st =>
              intro hkept
              cases made with
              | true => exact .ok (hkept.trans (kept_notify ..)) hreads
              | false => exact .ok hkept hreads
      · refine (Served.theUser (.inr h2) rfl).bind fun p _ hreads => ?_
        have hext := UserManager.extends_deleteFriendToUser env.sql (w.record p).userid req.friendid w.store
        revert hext
        cases UserManager.deleteFriendToUser env.sql (w.record p).userid req.friendid w.store with
        | mk deleted st =>
            intro hext
            cases deleted with
            | true => exact .ok ((Kept.withStore hext).trans (kept_notify ..)) hreads
            | false => exact .ok (Kept.withStore hext) hreads
      · refine .ok ?_ fun _ h => by omega
        unfold inviteRsp
        split_ifs
        · have hkept := kept_makeFriends env w req.friendid msg.targetId
          revert hkept
          cases makeFriends env w req.friendid msg.targetId with
          | mk made st => intro hkept; cases made <;> exact hkept
        · exact Kept.refl w
      · exact .ok (Kept.refl w) fun _ h => by omega

/-- `OnUpdateUserInfoResponse` reads `m_user` once the request parses. -/
theorem served_onUpdateUserInfoResponse :
    Served (w.session n).user (∃ req, env.pb.updateUserInfoReq.parse msg.payload = some req)
      False (Answers n msg_type_updateuserinfo w) (onUpdateUserInfoResponse env n msg w) := by
  suffices hrsp : Served (w.session n).user _ False (fun a => Kept Sent.IsNotify w a.2)
      (updateUserInfoRsp env n msg w) from
    hrsp.bind fun a ha hreads => .ok (.of_kept ha) hreads
  unfold updateUserInfoRsp
  cases env.pb.updateUserInfoReq.parse msg.payload with
  | none => exact .ok (Kept.refl w) fun _ h => by simp at h
  | some req =>
      refine (Served.theUser ⟨req, rfl⟩ rfl).bind fun p _ hreads => ?_
      have hext := UserManager.extends_updateUserInfo env.sql (w.record p).userid
        (newinfo req (w.record p)) w.store
      revert hext
      dsimp only
      cases UserManager.updateUserInfo env.sql (w.record p).userid (newinfo req (w.record p)) w.store with
      | mk updated st =>
          intro hext
          cases updated with
          | true => exact .ok ((Kept.withStore hext).trans (Kept.setRecord ..)) hreads
          | false => exact .ok (Kept.withStore hext) hreads

/-- `OnModifyPasswordResponse` reads `m_user` once the request parses with both fields set. -/
theorem served_onModifyPasswordResponse :
    Served (w.session n).user
      (∃ req, env.pb.modifyPasswordReq.parse msg.payload = some req ∧ req.oldpassword ≠ [] ∧
        req.newpassword ≠ [])
      False (Answers n msg_type_modifypassword w) (onModifyPasswordResponse env n msg w) := by
  suffices hrsp : Served (w.session n).user _ False (fun a => Kept Sent.IsNotify w a.2)
      (modifyPasswordRsp env n msg w) from
    hrsp.bind fun a ha hreads => .ok (.of_kept ha) hreads
  unfold modifyPasswordRsp
  cases env.pb.modifyPasswordReq.parse msg.payload with
  | none => exact .ok (Kept.refl w) fun _ h => by simp at h
  | some req =>
      simp only [Option.some.injEq, exists_eq_left']
      split_ifs with hempty
      · refine .ok (Kept.refl w) fun _ h => ?_
        rcases hempty with hempty | hempty
        · exact h.1 hempty
        · exact h.2 hempty
      · refine (Served.theUser (not_or.1 hempty) rfl).bind fun p _ hreads => ?_
        by_cases hold : req.oldpassword ≠ (w.record p).password
        · rw [if_pos hold]
          exact .ok (Kept.refl w) hreads
        · rw [if_neg hold]
          have hext := UserManager.extends_modifyUserPassword env.sql (w.record p).userid
            req.newpassword w.store
          revert hext
          cases UserManager.modifyUserPassword env.sql (w.record p).userid req.newpassword w.store with
          | mk modified st =>
              intro hext
              cases modified with
              | true => exact .ok ((Kept.withStore hext).trans (Kept.setRecord ..)) hreads
              | false => exact .ok (Kept.withStore hext) hreads

/-- `OnCreateGroupResponse` reads `m_user` once the request parses with a name. -/
theorem served_onCreateGroupResponse :
    Served (w.session n).user
      (∃ req, env.pb.createGroupReq.parse msg.payload = some req ∧ req.groupname ≠ [])
      False (Answers n msg_type_creategroup w) (onCreateGroupResponse env n msg w) := by
  suffices hrsp : Served (w.session n).user _ False (fun a => Kept Sent.IsNotify w a.2)
      (createGroupRsp env n msg w) from
    hrsp.bind fun a ha hreads => .ok (.of_kept ha) hreads
  unfold createGroupRsp
  cases env.pb.createGroupReq.parse msg.payload with
  | none => exact .ok (Kept.refl w) fun _ h => by simp at h
  | some req =>
      simp only [Option.some.injEq, exists_eq_left']
      split_ifs with hempty
      · exact .ok (Kept.refl w) fun _ h => h hempty
      · refine (Served.theUser hempty rfl).bind fun p _ hreads => ?_
        have hext := UserManager.extends_addGroup env.sql req.groupname (w.record p).userid w.store
        revert hext
        cases UserManager.addGroup env.sql req.groupname (w.record p).userid w.store with
        | mk added rest =>
            intro hext
            cases added with
            | true => exact .ok ((Kept.withStore hext).trans (kept_makeFriends ..)) hreads
            | false => exact .ok (Kept.withStore hext) hreads

theorem answers_onGetGroupMembersResponse :
    Answers n msg_type_getgroupmembers w (onGetGroupMembersResponse env n msg w) :=
  .of_kept (Kept.refl w)

/-- `OnGetChatHistoryResponse` reads `m_user`, at the latest in its last line. -/
theorem served_onGetChatHistoryResponse :
    Served (w.session n).user True False (Answers n msg_type_getchathistory w)
      (onGetChatHistoryResponse env n msg w) := by
  have hlast : ∀ a : ChatHistoryRsp × World, Kept Sent.IsNotify w a.2 →
      Served (w.session n).user True False (Answers n msg_type_getchathistory w) (do
        let w := a.2.respond n msg_type_getchathistory (env.pb.chatHistoryRsp.serialize a.1)
        let _ ← w.theUser n
        return w) := by
    intro a ha
    have hsession : (a.2.respond n msg_type_getchathistory
        (env.pb.chatHistoryRsp.serialize a.1)).session = w.session := ha.session
    exact (Served.theUser trivial (by rw [hsession])).bind fun _ _ hreads => .ok (.of_kept ha) hreads
  cases hparse : env.pb.chatHistoryReq.parse msg.payload with
  | none =>
      have hrsp : getChatHistoryRsp env n msg w =
          .ok ({ code := 101, msg := str "protobuf parse failed!" }, w) := by
        unfold getChatHistoryRsp
        rw [hparse]
        rfl
      unfold onGetChatHistoryResponse
      rw [hrsp]
      exact hlast (_, w) (Kept.refl w)
  | some req =>
      refine Served.bind ?_ fun a ha _ => hlast a ha
      unfold getChatHistoryRsp
      rw [hparse]
      refine (Served.theUser trivial rfl).bind fun p _ hreads => ?_
      have hext := UserManager.extends_getChatHistory env.sql (w.record p).userid req.targetid 50 w.store
      revert hext
      cases UserManager.getChatHistory env.sql (w.record p).userid req.targetid 50 w.store with
      | mk found st =>
          intro hext
          cases found <;> exact .ok (Kept.withStore hext) hreads

theorem kept_avatarChanged (p : UserPtr) (url : Bytes) : Kept Sent.IsNotify w (avatarChanged env p url w) := by
  unfold avatarChanged
  refine (Kept.setRecord ..).trans ((Kept.withStore ?_).trans (kept_notifyAll ..))
  exact UserManager.extends_updateUserInfo ..

/-- `OnAvatarUploadResponse` reads `m_user` once the request parses and there is a client. -/
theorem served_onAvatarUploadResponse :
    Served (w.session n).user
      ((∃ req, env.pb.avatarUploadReq.parse msg.payload = some req) ∧
        ∃ grpc, env.grpc = some grpc ∧ grpc.avatar.isSome)
      False (Answers n msg_type_avatarupload w) (onAvatarUploadResponse env n msg w) := by
  suffices hrsp : Served (w.session n).user _ False (fun a => Kept Sent.IsNotify w a.2)
      (avatarUploadRsp env n msg w) from
    hrsp.bind fun a ha hreads => .ok (.of_kept ha) hreads
  unfold avatarUploadRsp
  cases env.pb.avatarUploadReq.parse msg.payload with
  | none => exact .ok (Kept.refl w) fun _ h => by simp at h
  | some req =>
      cases env.grpc with
      | none => exact .ok (Kept.refl w) fun _ h => by simp at h
      | some grpc =>
          dsimp only
          cases havatar : grpc.avatar with
          | none => exact .ok (Kept.refl w) fun _ h => by simp [havatar] at h
          | some avatar =>
              refine (Served.theUser ⟨⟨req, rfl⟩, grpc, rfl, by rw [havatar]; rfl⟩ rfl).bind
                fun p _ hreads => ?_
              split_ifs
              · exact .ok ((Kept.called w).trans (kept_avatarChanged ..)) hreads
              · exact .ok (Kept.called w) hreads

theorem answers_onSendEmailCodeResponse :
    Answers n msg_type_sendemailcode w (onSendEmailCodeResponse env n msg w) := by
  have hrsp : Kept Sent.IsNotify w (sendEmailCodeRsp env msg w).2 := by
    unfold sendEmailCodeRsp
    cases env.pb.sendEmailCodeReq.parse msg.payload with
    | none => exact Kept.refl w
    | some req =>
        dsimp only
        split_ifs
        · exact Kept.refl w
        · cases env.grpc with
          | none => exact Kept.refl w
          | some grpc =>
              dsimp only
              cases grpc.mail with
              | none => exact Kept.refl w
              | some mail => exact Kept.called w
  exact .of_kept hrsp

/-! ## Login -/

theorem acted_setSession (f : Session → Session)
    (hf : ∀ s, (f s).user = s.user ∧ (f s).seq = s.seq) : Acted n w (w.setSession n f) := by
  refine Acted.of_eq rfl (fun m => ?_) (UserManager.Extends.refl _) rfl
  show (if m = n then f (w.session m) else w.session m).user = _ ∧ _
  unfold World.setSession
  dsimp only
  split_ifs
  · exact hf _
  · exact ⟨rfl, rfl⟩

theorem kept_sendRaw (data : Bytes) :
    Kept (fun x => x.path = .chat ∧ x.conn = n ∧ env.pb.container.parse data = some x.msg) w
      (sendRaw env n data w) := by
  unfold sendRaw
  cases hdata : IMCodec.sendRaw env.lib data with
  | none => exact Kept.refl w
  | some container => exact Kept.send ⟨rfl, rfl, hdata⟩

theorem acted_sendCached (userid : Int) : Acted n w (sendCached env n userid w) := by
  have htaken : Acted n w (w.getChatMsgCache userid).2 :=
    Acted.of_same rfl rfl rfl rfl
  exact htaken.then_kept (Kept.foldl (fun w (cached : ChatMsgCache) =>
    (kept_sendRaw env n w cached.chatmsg).mono fun x hx => hx.1) _ _)

theorem acted_loggedIn (p : UserPtr) (hw : w.Made) : Acted n w (loggedIn env n p w) := by
  have hsent : Answers n msg_type_login w ((w.setRecord p (fun u => { u with status := 1 })
      fun _ => rfl).respond n msg_type_login (env.pb.loginRsp.serialize
        { code := 0, msg := loginMsg 0, user := some (userInfo (w.record p)) })) :=
    .of_kept (Kept.setRecord ..)
  exact ((Acted.of_answers hsent).trans hw (acted_sendCached ..)).then_kept (kept_notifyAll ..)

/-- A login that is refused reads `m_user` in its last line. -/
theorem loginFailed_eq (code : Int) :
    loginFailed env n code w =
      match (w.session n).user with
      | none => .error .nullUser
      | some _ => .ok (w.respond n msg_type_login
          (env.pb.loginRsp.serialize { code := code, msg := loginMsg code })) := by
  unfold loginFailed World.theUser
  show (match (w.session n).user with
    | none => Except.error Fault.nullUser
    | some p => .ok p) >>= _ = _
  cases (w.session n).user <;> rfl

variable {env n w} in
/-- When it answers, there was a user. -/
theorem loginFailed_eq_ok {code : Int} {w' : World} (h : loginFailed env n code w = .ok w') :
    w' = w.respond n msg_type_login (env.pb.loginRsp.serialize { code := code, msg := loginMsg code }) := by
  rw [loginFailed_eq] at h
  cases huser : (w.session n).user with
  | none =>
      rw [huser] at h
      cases h
  | some p =>
      rw [huser] at h
      exact (Except.ok.inj h).symm

/-- The session once `GetUserInfoUsername` has looked for the user: `m_user` is assigned when there is
one. -/
def assigned (found : Option UserPtr) (s : Session) : Session :=
  match found with
  | none => s
  | some p => { s with user := some p }

/-- A request that names a record is complete, and its answer is 0 when it carries the record's
password. -/
theorem loginCode_eq_some {payload : Bytes} {um : UserManager} {code : Int} {p : UserPtr}
    (h : loginCode env payload um = (code, some p)) :
    ∃ req, env.pb.loginReq.parse payload = some req ∧ req.username ≠ [] ∧ req.password ≠ [] ∧
      um.getUserInfoUsername req.username = some p ∧
      code = if req.password = (um.heap p).password then 0 else 104 := by
  unfold loginCode at h
  cases hparse : env.pb.loginReq.parse payload with
  | none => rw [hparse] at h; cases h
  | some req =>
      rw [hparse] at h
      dsimp only at h
      unfold UserManager.checkLogin at h
      split_ifs at h with hempty
      · cases h
      · obtain ⟨hname, hpassword⟩ := not_or.1 hempty
        cases hfound : um.getUserInfoUsername req.username with
        | none => rw [hfound] at h; cases h
        | some q =>
            rw [hfound] at h
            dsimp only at h
            by_cases hright : req.password = (um.heap q).password
            · rw [if_neg (not_not.2 hright)] at h
              cases h
              exact ⟨req, rfl, hname, hpassword, hfound, by rw [if_pos hright]⟩
            · rw [if_pos hright] at h
              cases h
              exact ⟨req, rfl, hname, hpassword, hfound, by rw [if_neg hright]⟩

/-- Assigning a found record keeps every session on records that have been made. -/
theorem made_assigned (hw : w.Made) :
    (w.setSession n (assigned (loginCode env msg.payload w.store.users).2)).Made := by
  intro m p hp
  cases hcode : loginCode env msg.payload w.store.users with
  | mk code found =>
      rw [hcode, World.session_setSession] at hp
      split_ifs at hp with hm
      · cases found with
        | none => exact hw m p hp
        | some q =>
            cases hp
            obtain ⟨req, -, -, -, hfound, -⟩ := loginCode_eq_some env hcode
            exact w.store.users.cached_lt _ (List.mem_of_find?_eq_some hfound)
      · exact hw m p hp

/-- `OnLoginResponse` reads `m_user`; it is null when it was and no record was found. -/
theorem served_onLoginResponse (hw : w.Made) :
    Served (w.session n).user ((loginCode env msg.payload w.store.users).2 = none) False
      (Acted n (w.setSession n (assigned (loginCode env msg.payload w.store.users).2)))
      (onLoginResponse env n msg w) := by
  have hmade := made_assigned env n msg w hw
  revert hmade
  unfold onLoginResponse
  cases loginCode env msg.payload w.store.users with
  | mk code found =>
      intro hmade
      cases found with
      | none =>
          -- nothing was found, so the session is the one before; the last line reads its user
          have hsame : w.setSession n (assigned none) = w := by
            have hsession : (w.setSession n (assigned none)).session = w.session :=
              funext fun m => by rw [World.session_setSession]; split_ifs <;> rfl
            exact congrArg (fun s => { w with session := s }) hsession
          show Served _ _ _ _ (loginFailed env n code w)
          rw [loginFailed_eq, hsame]
          cases huser : (w.session n).user with
          | none => exact .nullUser rfl rfl
          | some p => exact .ok (Acted.send ..) fun h => by cases h
      | some p =>
          show Served _ _ _ _ (if code = 0 then .ok (loggedIn env n p (w.setSession n (assigned (some p))))
            else loginFailed env n code (w.setSession n (assigned (some p))))
          split_ifs
          · exact .ok (acted_loggedIn env n _ p hmade) fun _ h => by cases h
          · have huser : ((w.setSession n (assigned (some p))).session n).user = some p := by
              rw [World.session_setSession, if_pos rfl]
              rfl
            rw [loginFailed_eq, huser]
            exact .ok (Acted.send ..) fun _ h => by cases h

/-! ## Chat -/

theorem acted_deliver (forwardMsg : MessageContainer) (userid : Int) :
    Acted n w (deliver env forwardMsg userid w) := by
  unfold deliver
  cases w.getSessionByID userid with
  | none => exact Acted.of_same rfl rfl rfl rfl
  | some targetSession => exact Acted.send ..

theorem acted_forward (userid : Int) (forwardMsg : MessageContainer) (content : Bytes) (hw : w.Made) :
    Acted n w (forward env userid forwardMsg content w) := by
  have hsaved : Acted n w (w.withStore (UserManager.saveChatMsgToDb env.sql userid forwardMsg.targetId
      content w.store).2) :=
    Acted.of_same rfl rfl rfl rfl
  unfold forward
  dsimp only
  split_ifs
  · exact hsaved.trans hw (acted_deliver ..)
  · refine hsaved.trans hw (Acted.foldl (fun w q => ?_) _ (hsaved.made hw))
    split_ifs
    · exact Acted.refl w
    · exact acted_deliver ..

theorem acted_askAgent (forwardMsg : MessageContainer) (content : Bytes) {p : UserPtr}
    (hp : (w.session n).user = some p) :
    Acted n w (askAgent env n (w.record p).userid forwardMsg content w) := by
  unfold askAgent
  cases env.grpc with
  | none => exact Acted.of_same rfl rfl rfl rfl
  | some grpc =>
      dsimp only
      split_ifs
      -- the call keeps the number and the user of the request
      · refine ⟨rfl, fun _ => ⟨rfl, rfl⟩, UserManager.Extends.refl _, _, rfl, fun call hcall => ?_⟩
        rw [List.mem_singleton.1 hcall]
        exact ⟨rfl, rfl, p, hp, rfl⟩
      · exact Acted.refl w

/-- `OnChatResponse` reads `m_user`. -/
theorem served_onChatResponse (hw : w.Made) :
    Served (w.session n).user True False (Acted n w) (onChatResponse env n msg w) := by
  have hset : Acted n w (w.setSession n fun s => { s with target := msg.targetId }) :=
    acted_setSession n w _ fun _ => ⟨rfl, rfl⟩
  refine (Served.theUser trivial (hset.session n).1).bind fun p hp hreads => ?_
  have huser : ((w.setSession n fun s => { s with target := msg.targetId }).session n).user = some p :=
    (hset.session n).1.trans hp
  dsimp only
  split_ifs
  · exact .ok (hset.trans hw (acted_askAgent env n _ _ _ huser)) hreads
  · exact .ok (hset.trans hw (acted_forward env n _ _ _ _ (hset.made hw))) hreads

theorem served_chatTo (content : Bytes) (target : Int) (hw : w.Made) :
    Served (w.session n).user True False (Acted n w) (chatTo env n content w target) := by
  have hset : Acted n w (w.setSession n fun s => { s with target := target }) :=
    acted_setSession n w _ fun _ => ⟨rfl, rfl⟩
  have hchat := served_onChatResponse env n
    { cmd := msg_type_chat, seq := ((w.setSession n fun s => { s with target := target }).session n).seq,
      targetId := target, payload := content } _ (hset.made hw)
  rw [(hset.session n).1] at hchat
  exact hchat.mono fun w' h => hset.trans hw h

/-- The loop of `OnMultiChatResponse`, for a session that has a user. -/
theorem served_targets {p : UserPtr} (content : Bytes) (targets : List Int) {v : World} (hw : w.Made)
    (huser : (w.session n).user = some p) (hacted : Acted n w v) :
    Served (some p) True False (Acted n w) (targets.foldlM (chatTo env n content) v) := by
  induction targets generalizing v with
  | nil => exact .ok hacted fun h => by cases h
  | cons target targets ih =>
      have hchat := served_chatTo env n v content target (hacted.made hw)
      rw [(hacted.session n).1, huser] at hchat
      rw [List.foldlM_cons]
      exact hchat.bind fun v' h _ => ih (hacted.trans hw h)

/-- `OnMultiChatResponse` reads `m_user`, at the latest in the log line at its end. -/
theorem served_onMultiChatResponse (hw : w.Made) :
    Served (w.session n).user True False (Acted n w) (onMultiChatResponse env n msg w) := by
  have hset : Acted n w (w.setSession n fun s => { s with targets := msg.targets }) :=
    acted_setSession n w _ fun _ => ⟨rfl, rfl⟩
  have hlast : ∀ v, Acted n w v → Served (w.session n).user True False (Acted n w) (do
      let _ ← v.theUser n
      return v) := fun v hv =>
    (Served.theUser trivial (hv.session n).1).bind fun _ _ hreads => .ok hv hreads
  unfold onMultiChatResponse
  dsimp only
  cases env.pb.multiChatTargets.parse msg.payload with
  | none => exact hlast _ hset
  | some multiTargets =>
      dsimp only
      cases huser : (w.session n).user with
      | some p =>
          rw [huser] at hlast
          exact (served_targets env n w multiTargets.content multiTargets.targets hw huser hset).bind
            fun v hv _ => hlast v hv
      | none =>
          rw [huser] at hlast
          -- the first target faults, and without a target the log line does
          cases multiTargets.targets with
          | nil => exact hlast _ hset
          | cons target targets =>
              have hchat := served_chatTo env n _ multiTargets.content target (hset.made hw)
              rw [(hset.session n).1, huser] at hchat
              rw [List.foldlM_cons, hchat.nullUser_iff.2 ⟨rfl, trivial⟩]
              exact .nullUser rfl trivial

/-! ## Dispatch -/

/-- The handler of this message reads `m_user` while it is null, in a session whose `m_user` is null when
the message arrives: the friend list, the chat history and the chats always; a login that names no
record; adding a friend that is no group, and deleting one; a request to change the profile, the password
or a group's name that gets as far as doing it; an avatar that gets as far as being uploaded. -/
def ReadsUser (um : UserManager) : Prop :=
  (msg.cmd = msg_type_login ∧ (loginCode env msg.payload um).2 = none) ∨
    msg.cmd = msg_type_getofriendlist ∨
    (msg.cmd = msg_type_operatefriend ∧ ∃ req, env.pb.operateFriendReq.parse msg.payload = some req ∧
      (req.type = 1 ∧ req.friendid < GROUPID_BOUNDARY ∨ req.type = 2)) ∨
    (msg.cmd = msg_type_updateuserinfo ∧ ∃ req, env.pb.updateUserInfoReq.parse msg.payload = some req) ∨
    (msg.cmd = msg_type_modifypassword ∧ ∃ req, env.pb.modifyPasswordReq.parse msg.payload = some req ∧
      req.oldpassword ≠ [] ∧ req.newpassword ≠ []) ∨
    (msg.cmd = msg_type_creategroup ∧
      ∃ req, env.pb.createGroupReq.parse msg.payload = some req ∧ req.groupname ≠ []) ∨
    msg.cmd = msg_type_getchathistory ∨
    (msg.cmd = msg_type_avatarupload ∧ (∃ req, env.pb.avatarUploadReq.parse msg.payload = some req) ∧
      ∃ grpc, env.grpc = some grpc ∧ grpc.avatar.isSome) ∨
    msg.cmd = msg_type_chat ∨ msg.cmd = msg_type_multichat

/-- The session once a message of its own has come in: `m_seq`, and `m_user` when the message is a login
that names a record. -/
def received (um : UserManager) (s : Session) : Session :=
  assigned (if msg.cmd = msg_type_login then (loginCode env msg.payload um).2 else none)
    { s with seq := msg.seq }

/-- The handler of this message throws. -/
def Throws : Prop := msg.cmd = msg_type_finduser ∧ StoiThrows env msg

/-- A search by an id that `std::stoi` throws on ends in the exception. -/
theorem dispatch_throws (h : Throws env msg) : dispatch env n msg w = .error .uncaught := by
  obtain ⟨hfind, req, hparse, hid, hstoi⟩ := h
  have hname : req.type ≠ str "username" := by
    rw [hid]
    decide +kernel
  have hfound : findUser w req = .error .uncaught := by
    unfold findUser
    rw [if_neg hname, if_pos hid, hstoi]
  have hrsp : findUserRsp env msg w = .error .uncaught := by
    unfold findUserRsp
    rw [hparse]
    dsimp only
    rw [hfound]
    rfl
  have hdispatch : dispatch env n msg w = onFindUserResponse env n msg w := by
    unfold dispatch
    simp [hfind]
  rw [hdispatch]
  unfold onFindUserResponse
  rw [hrsp]
  rfl

/-- The commands a client sends and gets an answer to. -/
def IsRequest (cmd : Int) : Prop :=
  msg_type_heartbeart ≤ cmd ∧ cmd ≤ msg_type_sendemailcode ∧ cmd ≠ msg_type_userstatuschange

instance (cmd : Int) : Decidable (IsRequest cmd) := inferInstanceAs (Decidable (_ ∧ _ ∧ _))

theorem dispatch_login (hlogin : msg.cmd = msg_type_login) :
    dispatch env n msg w = onLoginResponse env n msg w := by
  unfold dispatch
  simp [hlogin]

theorem dispatch_chat (hchat : msg.cmd = msg_type_chat) :
    dispatch env n msg w = onChatResponse env n msg w := by
  unfold dispatch
  simp [hchat]

theorem dispatch_multichat (hmulti : msg.cmd = msg_type_multichat) :
    dispatch env n msg w = onMultiChatResponse env n msg w := by
  unfold dispatch
  simp [hmulti]

/-- The handlers that answer a request, the login's excepted; an unknown command is only logged. -/
theorem served_request (hlogin : msg.cmd ≠ msg_type_login) (hchat : msg.cmd ≠ msg_type_chat)
    (hmulti : msg.cmd ≠ msg_type_multichat) :
    Served (w.session n).user (ReadsUser env msg w.store.users) (Throws env msg)
      (fun w' => Answers n msg.cmd w w' ∨ ¬ IsRequest msg.cmd ∧ w' = w)
      (dispatch env n msg w) := by
  unfold dispatch
  rw [if_neg hlogin]
  -- one case for each command, in the order of the switch
  refine .ite (fun h1 => ?_) fun n1 => .ite (fun h2 => ?_) fun n2 => .ite (fun h4 => ?_) fun n4 =>
    .ite (fun h5 => ?_) fun n5 => .ite (fun h6 => ?_) fun n6 => .ite (fun h8 => ?_) fun n8 =>
    .ite (fun h9 => ?_) fun n9 => .ite (fun h10 => ?_) fun n10 => .ite (fun h11 => ?_) fun n11 =>
    .ite (fun h12 => ?_) fun n12 => .ite (fun h13 => ?_) fun n13 => .ite (fun h14 => ?_) fun n14 =>
    .ite (fun h15 => absurd h15 hchat) fun _ => .ite (fun h16 => absurd h16 hmulti) fun _ => ?_
  · refine .ok (.inl ?_) fun _ h => by simp [ReadsUser, h1] at h
    rw [h1]
    exact answers_onHeartbeatResponse n w
  · refine .ok (.inl ?_) fun _ h => by simp [ReadsUser, h2] at h
    rw [h2]
    exact answers_onRegisterResponse env n msg w
  · exact (served_onGetFriendListResponse env n w).adapt (by simp [ReadsUser, h4]) False.elim
      fun w' h => .inl (by rwa [h4])
  · exact (served_onFindUserResponse env n msg w).adapt (by simp [ReadsUser, h5]) (fun h => ⟨h5, h⟩)
      fun w' h => .inl (by rwa [h5])
  · exact (served_onOperateFriendResponse env n msg w).adapt (by simp [ReadsUser, h6]) False.elim
      fun w' h => .inl (by rwa [h6])
  · exact (served_onUpdateUserInfoResponse env n msg w).adapt (by simp [ReadsUser, h8]) False.elim
      fun w' h => .inl (by rwa [h8])
  · exact (served_onModifyPasswordResponse env n msg w).adapt (by simp [ReadsUser, h9]) False.elim
      fun w' h => .inl (by rwa [h9])
  · exact (served_onCreateGroupResponse env n msg w).adapt (by simp [ReadsUser, h10]) False.elim
      fun w' h => .inl (by rwa [h10])
  · refine .ok (.inl ?_) fun _ h => by simp [ReadsUser, h11] at h
    rw [h11]
    exact answers_onGetGroupMembersResponse env n msg w
  · exact (served_onGetChatHistoryResponse env n msg w).adapt (by simp [ReadsUser, h12]) False.elim
      fun w' h => .inl (by rwa [h12])
  · exact (served_onAvatarUploadResponse env n msg w).adapt (by simp [ReadsUser, h13]) False.elim
      fun w' h => .inl (by rwa [h13])
  · refine .ok (.inl ?_) fun _ h => by simp [ReadsUser, h14] at h
    rw [h14]
    exact answers_onSendEmailCodeResponse env n msg w
  -- the default: no command of a request is left
  · refine .ok (.inr ⟨fun h => ?_, rfl⟩) fun _ h => by
      simp only [ReadsUser, hlogin, hchat, hmulti, n4, n6, n8, n9, n10, n12, n13, false_and, or_self] at h
    simp only [IsRequest, msg_type_heartbeart, msg_type_sendemailcode, msg_type_userstatuschange] at h
    simp only [msg_type_heartbeart, msg_type_register, msg_type_login, msg_type_getofriendlist,
      msg_type_finduser, msg_type_operatefriend, msg_type_updateuserinfo, msg_type_modifypassword,
      msg_type_creategroup, msg_type_getgroupmembers, msg_type_getchathistory, msg_type_avatarupload,
      msg_type_sendemailcode] at *
    omega

/-- A request acts as the session. -/
theorem served_dispatch (hw : w.Made) (hlogin : msg.cmd ≠ msg_type_login) :
    Served (w.session n).user (ReadsUser env msg w.store.users) (Throws env msg) (Acted n w)
      (dispatch env n msg w) := by
  by_cases hchat : msg.cmd = msg_type_chat
  · rw [dispatch_chat env n msg w hchat]
    exact (served_onChatResponse env n msg w hw).adapt (by simp [ReadsUser, hchat]) False.elim
      fun _ => id
  · by_cases hmulti : msg.cmd = msg_type_multichat
    · rw [dispatch_multichat env n msg w hmulti]
      exact (served_onMultiChatResponse env n msg w hw).adapt (by simp [ReadsUser, hmulti])
        False.elim fun _ => id
    · refine (served_request env n msg w hlogin hchat hmulti).mono fun w' h => ?_
      rcases h with h | ⟨-, rfl⟩
      · exact Acted.of_answers h
      · exact Acted.refl _

/-- **What `OnMessageReceived` does**: it takes the message's sequence number and, for a login that names
a record, that record, and the rest is done as the session then is. -/
theorem served_onMessageReceived (hw : w.Made) :
    Served (w.session n).user (ReadsUser env msg w.store.users) (Throws env msg)
      (Acted n (w.setSession n (received env msg w.store.users))) (onMessageReceived env n msg w) := by
  have hseq : (w.setSession n fun s => { s with seq := msg.seq }).Made := by
    intro m p hp
    rw [World.session_setSession] at hp
    split_ifs at hp <;> exact hw m p hp
  have huser : ((w.setSession n fun s => { s with seq := msg.seq }).session n).user = (w.session n).user :=
    World.user_setSeq n w msg.seq
  unfold onMessageReceived
  by_cases hlogin : msg.cmd = msg_type_login
  · have hassigned : w.setSession n (received env msg w.store.users) =
        (w.setSession n fun s => { s with seq := msg.seq }).setSession n
          (assigned (loginCode env msg.payload w.store.users).2) := by
      have hsession : (w.setSession n (received env msg w.store.users)).session =
          ((w.setSession n fun s => { s with seq := msg.seq }).setSession n
            (assigned (loginCode env msg.payload w.store.users).2)).session := by
        funext m
        simp only [World.session_setSession, received, if_pos hlogin]
        split_ifs <;> rfl
      exact congrArg (fun s => { w with session := s }) hsession
    rw [dispatch_login env n msg _ hlogin, hassigned, ← huser]
    refine (served_onLoginResponse env n msg _ hseq).adapt ?_ False.elim fun _ => id
    show (loginCode env msg.payload w.store.users).2 = none ↔ _
    simp [ReadsUser, hlogin]
  · have hsame : received env msg w.store.users = fun s => { s with seq := msg.seq } :=
      funext fun s => by unfold received; rw [if_neg hlogin]; rfl
    rw [hsame, ← huser]
    exact served_dispatch env n msg _ hseq hlogin

end ClientSession

end AimChat
