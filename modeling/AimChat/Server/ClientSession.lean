import AimChat.Server.World

/-! # The handlers of a session

`ClientSession`: one function for each handler, in the order of the source. Session `n` is the session
of connection `n`. A handler that cannot end the process gives the next state, the others give it or a
`Fault`. Where a handler fills its answer branch by branch and then sends it, the answer is a function of
its own (`registerRsp`, …). -/

namespace AimChat

/-- `GROUPID_BOUNDARY` -/
def GROUPID_BOUNDARY : Int := 0xFFFFFFF

/-! ## Commands

They unfold to their numbers, so that `simp` tells them apart. -/

@[simp] def msg_type_heartbeart : Int := 1000
@[simp] def msg_type_register : Int := 1001
@[simp] def msg_type_login : Int := 1002
@[simp] def msg_type_getofriendlist : Int := 1003
@[simp] def msg_type_finduser : Int := 1004
@[simp] def msg_type_operatefriend : Int := 1005
@[simp] def msg_type_userstatuschange : Int := 1006
@[simp] def msg_type_updateuserinfo : Int := 1007
@[simp] def msg_type_modifypassword : Int := 1008
@[simp] def msg_type_creategroup : Int := 1009
@[simp] def msg_type_getgroupmembers : Int := 1010
@[simp] def msg_type_getchathistory : Int := 1011
@[simp] def msg_type_avatarupload : Int := 1012
@[simp] def msg_type_sendemailcode : Int := 1013
@[simp] def msg_type_chat : Int := 1100
@[simp] def msg_type_multichat : Int := 1101

/-- The `UserInfo` fields the answers take from a record. -/
def userInfo (u : User) : UserInfo :=
  { userid := u.userid, username := u.username, nickname := u.nickname, facetype := u.facetype,
    customface := u.customface, gender := u.gender, birthday := u.birthday, signature := u.signature,
    address := u.address, phonenumber := u.phonenumber, mail := u.mail }

/-- What a friend list says of a record. -/
def friendInfo (u : User) : UserInfo :=
  { userInfo u with clienttype := 1, status := if u.status ≠ 0 then 1 else 0 }

/-- What a list of group members, or a search, says of a record. -/
def memberInfo (u : User) : UserInfo := { userInfo u with status := u.status }

namespace ClientSession

variable (env : Env) (n : Nat) (msg : MessageContainer) (w : World)

/-- `SendUserStatusChangeMsg(userid, type, customface)` of session `n`. -/
def sendUserStatusChangeMsg (userid type : Int) (customface : Bytes) : World :=
  let notify : UserStatusChangeNotify := { type := type, userid := userid, customface := customface }
  w.send n .notify
    { cmd := msg_type_userstatuschange, seq := 0
      payload := env.pb.userStatusChangeNotify.serialize notify }

/-- Send a status change to the session of a user, if there is one. -/
def notify (target userid type : Int) (customface : Bytes) (w : World) : World :=
  match w.getSessionByID target with
  | none => w
  | some targetSession => sendUserStatusChangeMsg env targetSession w userid type customface

/-- Send a status change to the sessions of these users. -/
def notifyAll (friends : List UserPtr) (userid type : Int) (customface : Bytes) (w : World) : World :=
  friends.foldl (fun w p => notify env (w.record p).userid userid type customface w) w

/-! ## Heartbeat (1000) -/

/-- `OnHeartbeatResponse` -/
def onHeartbeatResponse : World := w.respond n msg_type_heartbeart []

/-! ## Registration (1001) -/

/-- The answer to a `RegisterReq`. -/
def registerRsp : CommonRsp × World :=
  match env.pb.registerReq.parse msg.payload with
  | none => (⟨101, str "protobuf parse failed!"⟩, w)
  | some req =>
      if req.username = [] ∨ req.nickname = [] ∨ req.password = [] ∨ req.email = [] ∨ req.code = [] then
        (⟨102, str "data field missing!"⟩, w)
      else
        match env.grpc with
        | none => (⟨104, str "邮件服务未编译 (需gRPC)"⟩, w)
        | some grpc =>
            match grpc.mail with
            | none => (⟨104, str "邮件服务未配置"⟩, w)
            | some mail =>
                let result := mail.verifyCode w.calls req.email req.code
                let w := w.called
                if result.ok then
                  let user : User := { username := req.username, nickname := req.nickname,
                                       password := req.password, mail := req.email }
                  match UserManager.addUser env.sql user w.store with
                  | (false, st) => (⟨100, str "register failed!"⟩, w.withStore st)
                  | (true, st) => (⟨0, str "ok"⟩, w.withStore st)
                else
                  (⟨104, if result.msg = [] then str "验证码错误或已过期" else result.msg⟩, w)

/-- `OnRegisterResponse` -/
def onRegisterResponse : World :=
  let (rsp, w) := registerRsp env msg w
  w.respond n msg_type_register (env.pb.commonRsp.serialize rsp)

/-! ## Login (1002) -/

/-- The code of the answer to a `LoginReq`, and the record `m_user` is set to before the password is
looked at. -/
def loginCode (payload : Bytes) (um : UserManager) : Int × Option UserPtr :=
  match env.pb.loginReq.parse payload with
  | none => (101, none)
  -- the out-parameter of GetUserInfoUsername is m_user itself
  | some req => um.checkLogin req.username req.password

/-- The `msg` of the answer to a `LoginReq`. -/
def loginMsg (code : Int) : Bytes :=
  if code = 0 then str "ok"
  else if code = 101 then str "protobuf parse failed!"
  else if code = 102 then str "data field missing!"
  else str "user is not exist or password is incorrect!"

/-- `m_codec->sendRaw(conn, data)` -/
def sendRaw (data : Bytes) (w : World) : World :=
  match IMCodec.sendRaw env.lib data with
  | none => w
  | some container => w.send n .chat container

/-- The offline messages of a user, sent as they leave the cache. -/
def sendCached (userid : Int) (w : World) : World :=
  -- nothing ever fills the cache of notifications, which is sent before this one
  let (listChatCache, w) := w.getChatMsgCache userid
  listChatCache.foldl (fun w cached => sendRaw env n cached.chatmsg w) w

/-- `OnLoginResponse` once `m_user` is set to a record whose password the request carries. -/
def loggedIn (p : UserPtr) (w : World) : World :=
  let rsp : LoginRsp := { code := 0, msg := loginMsg 0, user := some (userInfo (w.record p)) }
  -- every session with this record sees the status
  let w := w.setRecord p (fun u => { u with status := 1 }) fun _ => rfl
  let w := w.respond n msg_type_login (env.pb.loginRsp.serialize rsp)
  let userid := (w.record p).userid
  let w := sendCached env n userid w
  notifyAll env (w.friendsOf userid) userid 1 [] w

/-- `OnLoginResponse` when the answer is not 0; the last `printf` reads `m_user` all the same. -/
def loginFailed (code : Int) (w : World) : Except Fault World := do
  let rsp : LoginRsp := { code := code, msg := loginMsg code }
  let w := w.respond n msg_type_login (env.pb.loginRsp.serialize rsp)
  let _ ← w.theUser n
  return w

/-- `OnLoginResponse` -/
def onLoginResponse : Except Fault World :=
  match loginCode env msg.payload w.store.users with
  | (code, none) => loginFailed env n code w
  | (code, some p) =>
      -- bound before the password has been compared
      let w := w.setSession n fun s => { s with user := some p }
      if code = 0 then .ok (loggedIn env n p w) else loginFailed env n code w

/-! ## Friend list (1003) -/

/-- `OnGetFriendListResponse` -/
def onGetFriendListResponse : Except Fault World := do
  let p ← w.theUser n
  let rsp : FriendListRsp :=
    { code := 0, msg := str "ok"
      friends := (w.friendsOf (w.record p).userid).map fun q => friendInfo (w.record q) }
  return w.respond n msg_type_getofriendlist (env.pb.friendListRsp.serialize rsp)

/-! ## Finding a user (1004) -/

/-- The record a `FindUserReq` finds. -/
def findUser (req : FindUserReq) : Except Fault (Option UserPtr) :=
  if req.type = str "username" then .ok (w.store.users.getUserInfoUsername req.keyword)
  else if req.type = str "userid" then
    -- std::stoi throws on a keyword that is no int, and no handler catches it
    match stoi req.keyword with
    | none => .error .uncaught
    | some userid => .ok (w.store.users.getUserByID userid)
  else .ok none

/-- The answer to a `FindUserReq`. -/
def findUserRsp : Except Fault FindUserRsp := do
  match env.pb.findUserReq.parse msg.payload with
  | none => return { code := 101, msg := str "protobuf parse failed!" }
  | some req =>
      match ← findUser w req with
      | none => return { code := 103, msg := str "user not found!" }
      | some p =>
          if (w.record p).userid ≥ GROUPID_BOUNDARY then
            return { code := 105, msg := str "cannot search for group!" }
          else
            return { code := 0, msg := str "ok"
                     user := some (memberInfo (w.record p)) }

/-- `OnFindUserResponse` -/
def onFindUserResponse : Except Fault World := do
  let rsp ← findUserRsp env msg w
  return w.respond n msg_type_finduser (env.pb.findUserRsp.serialize rsp)

/-! ## Friends (1005) -/

/-- The smaller and the greater of two ids, as `MakeFriendRelationship` takes them. -/
def makeFriends (a b : Int) : Bool × Store :=
  UserManager.makeFriendRelationship env.sql (if a < b then a else b) (if a < b then b else a) w.store

/-- Adding a friend: type 1. -/
def addFriendRsp (friendid : Int) : Except Fault (CommonRsp × World) := do
  if friendid ≥ GROUPID_BOUNDARY then
    return (⟨106, str "cannot add group as friend!"⟩, w)
  else
    let p ← w.theUser n
    match makeFriends env w (w.record p).userid friendid with
    | (true, st) =>
        let w := w.withStore st
        return (⟨0, str "ok"⟩, notify env friendid (w.record p).userid 4 [] w)
    | (false, st) => return (⟨100, str "add friend failed!"⟩, w.withStore st)

/-- Deleting a friend, and `DeleteFriend`: type 2. -/
def deleteFriendRsp (friendid : Int) : Except Fault (CommonRsp × World) := do
  let p ← w.theUser n
  match UserManager.deleteFriendToUser env.sql (w.record p).userid friendid w.store with
  | (true, st) =>
      let w := w.withStore st
      return (⟨0, str "ok"⟩, notify env friendid (w.record p).userid 3 [] w)
  | (false, st) => return (⟨100, str "delete friend failed!"⟩, w.withStore st)

/-- Inviting into a group: type 3. -/
def inviteRsp (friendid groupid : Int) : CommonRsp × World :=
  -- the group is the container's target_id, the request names none
  if groupid ≥ GROUPID_BOUNDARY then
    match makeFriends env w friendid groupid with
    | (true, st) => (⟨0, str "ok"⟩, w.withStore st)
    | (false, st) => (⟨100, str "invite to group failed!"⟩, w.withStore st)
  else
    (⟨104, str "invalid group id!"⟩, w)

/-- The answer to an `OperateFriendReq`. -/
def operateFriendRsp : Except Fault (CommonRsp × World) :=
  match env.pb.operateFriendReq.parse msg.payload with
  | none => .ok (⟨101, str "protobuf parse failed!"⟩, w)
  | some req =>
      if req.type = 1 then addFriendRsp env n w req.friendid
      else if req.type = 2 then deleteFriendRsp env n w req.friendid
      else if req.type = 3 then .ok (inviteRsp env w req.friendid msg.targetId)
      else .ok (⟨103, str "unknown operation type!"⟩, w)

/-- `OnOperateFriendResponse` -/
def onOperateFriendResponse : Except Fault World := do
  let (rsp, w) ← operateFriendRsp env n msg w
  return w.respond n msg_type_operatefriend (env.pb.commonRsp.serialize rsp)

/-! ## Profile (1007) -/

/-- The record `UpdateUserInfo` gets: the request where it is set, the session's user elsewhere. -/
def newinfo (req : UpdateUserInfoReq) (u : User) : User :=
  { nickname := if req.nickname = [] then u.nickname else req.nickname
    facetype := if req.facetype ≠ 0 then req.facetype else u.facetype
    customface := if req.customface = [] then u.customface else req.customface
    gender := if req.gender ≠ 0 then req.gender else u.gender
    birthday := if req.birthday ≠ 0 then req.birthday else u.birthday
    signature := if req.signature = [] then u.signature else req.signature
    address := if req.address = [] then u.address else req.address
    phonenumber := if req.phonenumber = [] then u.phonenumber else req.phonenumber
    mail := if req.mail = [] then u.mail else req.mail }

/-- The answer to an `UpdateUserInfoReq`. -/
def updateUserInfoRsp : Except Fault (CommonRsp × World) := do
  match env.pb.updateUserInfoReq.parse msg.payload with
  | none => return (⟨101, str "protobuf parse failed!"⟩, w)
  | some req =>
      let p ← w.theUser n
      let newinfo := newinfo req (w.record p)
      match UserManager.updateUserInfo env.sql (w.record p).userid newinfo w.store with
      | (true, st) =>
          return (⟨0, str "ok"⟩,
            (w.withStore st).setRecord p (UserManager.copyProfile newinfo) fun _ => rfl)
      | (false, st) => return (⟨100, str "update user info failed!"⟩, w.withStore st)

/-- `OnUpdateUserInfoResponse` -/
def onUpdateUserInfoResponse : Except Fault World := do
  let (rsp, w) ← updateUserInfoRsp env n msg w
  return w.respond n msg_type_updateuserinfo (env.pb.commonRsp.serialize rsp)

/-! ## Password (1008) -/

/-- The answer to a `ModifyPasswordReq`. -/
def modifyPasswordRsp : Except Fault (CommonRsp × World) := do
  match env.pb.modifyPasswordReq.parse msg.payload with
  | none => return (⟨101, str "protobuf parse failed!"⟩, w)
  | some req =>
      if req.oldpassword = [] ∨ req.newpassword = [] then
        return (⟨102, str "invalid parameter!"⟩, w)
      else
        let p ← w.theUser n
        if req.oldpassword ≠ (w.record p).password then
          return (⟨103, str "old password is incorrect!"⟩, w)
        else
          match UserManager.modifyUserPassword env.sql (w.record p).userid req.newpassword w.store with
          | (true, st) =>
              return (⟨0, str "ok"⟩,
                -- ModifyUserPassword has set it in the map's record, here it is the session's
                (w.withStore st).setRecord p (UserManager.withPassword req.newpassword) fun _ => rfl)
          | (false, st) => return (⟨100, str "modify password failed!"⟩, w.withStore st)

/-- `OnModifyPasswordResponse` -/
def onModifyPasswordResponse : Except Fault World := do
  let (rsp, w) ← modifyPasswordRsp env n msg w
  return w.respond n msg_type_modifypassword (env.pb.commonRsp.serialize rsp)

/-! ## Groups (1009, 1010) -/

/-- `OnAddGroupResponse(conn, groupid)`: the owner becomes a member, its result not looked at. -/
def onAddGroupResponse (p : UserPtr) (groupid : Int) (w : World) : World :=
  w.withStore (makeFriends env w (w.record p).userid groupid).2

/-- The answer to a `CreateGroupReq`. -/
def createGroupRsp : Except Fault (CreateGroupRsp × World) := do
  match env.pb.createGroupReq.parse msg.payload with
  | none => return ({ code := 101, msg := str "protobuf parse failed!" }, w)
  | some req =>
      if req.groupname = [] then
        return ({ code := 102, msg := str "invalid parameter!" }, w)
      else
        let p ← w.theUser n
        -- the name goes in as a C string, the answer has it in full
        match UserManager.addGroup env.sql req.groupname (w.record p).userid w.store with
        | (true, groupid, st) =>
            return ({ code := 0, msg := str "ok", groupid := groupid, groupname := req.groupname },
              onAddGroupResponse env p groupid (w.withStore st))
        | (false, _, st) => return ({ code := 100, msg := str "create group failed!" }, w.withStore st)

/-- `OnCreateGroupResponse` -/
def onCreateGroupResponse : Except Fault World := do
  let (rsp, w) ← createGroupRsp env n msg w
  return w.respond n msg_type_creategroup (env.pb.createGroupRsp.serialize rsp)

/-- The answer to a `GetGroupMembersReq`. -/
def getGroupMembersRsp : GetGroupMembersRsp :=
  match env.pb.getGroupMembersReq.parse msg.payload with
  | none => { code := 101, msg := str "protobuf parse failed!" }
  | some req =>
      match w.store.users.getFriendInfoByUserID req.groupid with
      | some members =>
          { code := 0, msg := str "ok", members := members.map fun q => memberInfo (w.record q) }
      | none => { code := 100, msg := str "get group members failed!" }

/-- `OnGetGroupMembersResponse` -/
def onGetGroupMembersResponse : World :=
  w.respond n msg_type_getgroupmembers (env.pb.getGroupMembersRsp.serialize (getGroupMembersRsp env msg w))

/-! ## Chat history (1011) -/

/-- The answer to a `ChatHistoryReq`. -/
def getChatHistoryRsp : Except Fault (ChatHistoryRsp × World) := do
  match env.pb.chatHistoryReq.parse msg.payload with
  | none => return ({ code := 101, msg := str "protobuf parse failed!" }, w)
  | some req =>
      let p ← w.theUser n
      match UserManager.getChatHistory env.sql (w.record p).userid req.targetid 50 w.store with
      | (some messages, st) =>
          return ({ code := 0, msg := str "ok", targetid := req.targetid, messages := messages },
            w.withStore st)
      | (none, st) => return ({ code := 100, msg := str "get chat history failed!" }, w.withStore st)

/-- `OnGetChatHistoryResponse`; the last `printf` reads `m_user`. -/
def onGetChatHistoryResponse : Except Fault World := do
  let (rsp, w) ← getChatHistoryRsp env n msg w
  let w := w.respond n msg_type_getchathistory (env.pb.chatHistoryRsp.serialize rsp)
  let _ ← w.theUser n
  return w

/-! ## Chat (1100, 1101) -/

/-- The target of messages to the assistant. -/
def AGENT_USERID : Int := -1

/-- The message `OnChatResponse` forwards or caches. -/
def forwardMsg : MessageContainer :=
  { cmd := msg_type_chat, seq := (w.session n).seq, targetId := msg.targetId, payload := msg.payload }

/-- The assistant's branch of `OnChatResponse`: the call goes to a thread of its own. -/
def askAgent (userid : Int) (forwardMsg : MessageContainer) (content : Bytes) (w : World) : World :=
  match env.grpc with
  | some grpc =>
      if grpc.agent then
        { w with agentCalls := w.agentCalls ++ [⟨n, (w.session n).seq, userid, content⟩] }
      else w
  | none =>
      let agentReply : ChatMsg :=
        { senderid := -1, targetid := userid
          content := str "[Agent未配置]\ngRPC client not built. Install libgrpc++-dev and rebuild IMServer."
          timestamp := env.time w.calls }
      w.called.send n .agent { forwardMsg with payload := env.pb.chatMsg.serialize agentReply }

/-- The container the callback of a call to the assistant makes, with `m_user` and `m_seq` as they are
when it runs. -/
def agentContainer (ok : Bool) (reply : Bytes) (p : UserPtr) (w : World) : MessageContainer :=
  let agentReply : ChatMsg :=
    { senderid := -1, targetid := (w.record p).userid
      content := if ok then reply else str "[Agent不可用] " ++ reply
      timestamp := env.time w.calls }
  { cmd := msg_type_chat, targetId := (w.record p).userid, seq := (w.session n).seq
    payload := env.pb.chatMsg.serialize agentReply }

/-- The callback of a call to the assistant. -/
def agentReplied (ok : Bool) (reply : Bytes) (w : World) : Except Fault World := do
  let p ← w.theUser n
  return w.called.send n .agent (agentContainer env n ok reply p w)

/-- Forward a message to a user: to the session that acts as the user, or into the cache. -/
def deliver (forwardMsg : MessageContainer) (userid : Int) (w : World) : World :=
  match w.getSessionByID userid with
  | none => w.addChatMsgCache userid (env.pb.container.serialize forwardMsg)
  | some targetSession => w.send targetSession .chat forwardMsg

/-- Forward a message to the members of a group, the sender excepted. -/
def deliverToGroup (forwardMsg : MessageContainer) (sender : Int) (friends : List UserPtr) (w : World) :
    World :=
  friends.foldl
    (fun w q =>
      if (w.record q).userid = sender then w else deliver env forwardMsg (w.record q).userid w) w

/-- `OnChatResponse` of a message that is not for the assistant. -/
def forward (userid : Int) (forwardMsg : MessageContainer) (content : Bytes) (w : World) : World :=
  let target := forwardMsg.targetId
  -- a save that fails is logged, and the message goes out all the same
  let w := w.withStore (UserManager.saveChatMsgToDb env.sql userid target content w.store).2
  if target < GROUPID_BOUNDARY then deliver env forwardMsg target w
  else deliverToGroup env forwardMsg userid (w.friendsOf target) w

/-- `OnChatResponse` -/
def onChatResponse : Except Fault World := do
  let w := w.setSession n fun s => { s with target := msg.targetId }
  let forwardMsg := forwardMsg n msg w
  -- the result of the parse is not looked at: fields read so far stand, the others are empty
  let chatMsg := env.pb.chatMsgFields msg.payload
  let p ← w.theUser n
  let userid := (w.record p).userid
  if msg.targetId = AGENT_USERID then return askAgent env n userid forwardMsg chatMsg.content w
  else return forward env userid forwardMsg chatMsg.content w

/-- One target of `OnMultiChatResponse`. -/
def chatTo (content : Bytes) (w : World) (target : Int) : Except Fault World :=
  let w := w.setSession n fun s => { s with target := target }
  let forwardMsg : MessageContainer :=
    { cmd := msg_type_chat, seq := (w.session n).seq, targetId := target, payload := content }
  onChatResponse env n forwardMsg w

/-- `OnMultiChatResponse`; the log line at its end reads `m_user`, and so does the one about a parse
error. -/
def onMultiChatResponse : Except Fault World := do
  let w := w.setSession n fun s => { s with targets := msg.targets }
  match env.pb.multiChatTargets.parse msg.payload with
  | none =>
      let _ ← w.theUser n
      return w
  | some multiTargets =>
      let w ← multiTargets.targets.foldlM (chatTo env n multiTargets.content) w
      let _ ← w.theUser n
      return w

/-! ## Avatar (1012) -/

/-- The upload of an avatar succeeded: the record, the store and the friends' sessions. -/
def avatarChanged (p : UserPtr) (url : Bytes) (w : World) : World :=
  let w := w.setRecord p (fun u => { u with customface := url }) fun _ => rfl
  let userid := (w.record p).userid
  let w := w.withStore (UserManager.updateUserInfo env.sql userid (w.record p) w.store).2
  notifyAll env (w.friendsOf userid) userid 5 url w

/-- The answer to an `AvatarUploadReq`. -/
def avatarUploadRsp : Except Fault (AvatarUploadRsp × World) := do
  match env.pb.avatarUploadReq.parse msg.payload with
  | none => return ({ code := 1, msg := str "解析请求失败" }, w)
  | some req =>
      match env.grpc with
      | none => return ({ code := 3, msg := str "Avatar服务未编译 (需gRPC)" }, w)
      | some grpc =>
          match grpc.avatar with
          | none => return ({ code := 3, msg := str "Avatar服务未配置" }, w)
          | some avatar =>
              let p ← w.theUser n
              let result := avatar.upload w.calls (w.record p).userid req.imageData req.format
              let w := w.called
              if result.ok then
                return ({ code := 0, msg := str "上传成功", url := result.url },
                  avatarChanged env p result.url w)
              else return ({ code := 2, msg := result.errMsg }, w)

/-- `OnAvatarUploadResponse` -/
def onAvatarUploadResponse : Except Fault World := do
  let (rsp, w) ← avatarUploadRsp env n msg w
  return w.respond n msg_type_avatarupload (env.pb.avatarUploadRsp.serialize rsp)

/-! ## Mail codes (1013) -/

/-- The answer to a `SendEmailCodeReq`. -/
def sendEmailCodeRsp : SendEmailCodeRsp × World :=
  match env.pb.sendEmailCodeReq.parse msg.payload with
  | none => ({ code := 3, msg := str "解析请求失败" }, w)
  | some req =>
      if req.email = [] ∨ 64 ∉ req.email ∨ 46 ∉ req.email then
        ({ code := 2, msg := str "邮箱格式错误" }, w)
      else
        match env.grpc with
        | none => ({ code := 3, msg := str "邮件服务未编译 (需gRPC)" }, w)
        | some grpc =>
            match grpc.mail with
            | none => ({ code := 3, msg := str "邮件服务未配置" }, w)
            | some mail =>
                let result := mail.sendCode w.calls req.email
                ({ code := result.code, msg := result.msg, cooldownSeconds := result.cooldownSeconds },
                  w.called)

/-- `OnSendEmailCodeResponse` -/
def onSendEmailCodeResponse : World :=
  let (rsp, w) := sendEmailCodeRsp env msg w
  w.respond n msg_type_sendemailcode (env.pb.sendEmailCodeRsp.serialize rsp)

/-! ## Dispatch -/

/-- The handler `OnMessageReceived` chooses. -/
def dispatch : Except Fault World :=
  if msg.cmd = msg_type_heartbeart then .ok (onHeartbeatResponse n w)
  else if msg.cmd = msg_type_register then .ok (onRegisterResponse env n msg w)
  else if msg.cmd = msg_type_login then onLoginResponse env n msg w
  else if msg.cmd = msg_type_getofriendlist then onGetFriendListResponse env n w
  else if msg.cmd = msg_type_finduser then onFindUserResponse env n msg w
  else if msg.cmd = msg_type_operatefriend then onOperateFriendResponse env n msg w
  else if msg.cmd = msg_type_updateuserinfo then onUpdateUserInfoResponse env n msg w
  else if msg.cmd = msg_type_modifypassword then onModifyPasswordResponse env n msg w
  else if msg.cmd = msg_type_creategroup then onCreateGroupResponse env n msg w
  else if msg.cmd = msg_type_getgroupmembers then .ok (onGetGroupMembersResponse env n msg w)
  else if msg.cmd = msg_type_getchathistory then onGetChatHistoryResponse env n msg w
  else if msg.cmd = msg_type_avatarupload then onAvatarUploadResponse env n msg w
  else if msg.cmd = msg_type_sendemailcode then .ok (onSendEmailCodeResponse env n msg w)
  else if msg.cmd = msg_type_chat then onChatResponse env n msg w
  else if msg.cmd = msg_type_multichat then onMultiChatResponse env n msg w
  else .ok w

/-- `OnMessageReceived` -/
def onMessageReceived : Except Fault World :=
  dispatch env n msg (w.setSession n fun s => { s with seq := msg.seq })

end ClientSession

end AimChat
