import AimChat.Base.Bytes

/-! # The messages of `im.proto`

Each message is a structure with the fields of its declaration; a field that is not set has its
proto3 default. What `protoc` generates from the file is a parameter: `Protobuf` holds the
`ParseFromString` and `SerializeAsString` the server calls, as functions of the bytes and of the
message. -/

namespace AimChat

/-- `im::MessageContainer` -/
structure MessageContainer where
  cmd : Int := 0
  seq : Int := 0
  targetId : Int := 0
  targets : Bytes := []
  payload : Bytes := []
  deriving DecidableEq, Repr

/-- `im::CommonRsp` -/
structure CommonRsp where
  code : Int := 0
  msg : Bytes := []
  deriving DecidableEq, Repr

/-- `im::UserInfo` -/
structure UserInfo where
  userid : Int := 0
  username : Bytes := []
  nickname : Bytes := []
  facetype : Int := 0
  customface : Bytes := []
  gender : Int := 0
  birthday : Int := 0
  signature : Bytes := []
  address : Bytes := []
  phonenumber : Bytes := []
  mail : Bytes := []
  status : Int := 0
  clienttype : Int := 0
  deriving DecidableEq, Repr

/-- `im::RegisterReq` -/
structure RegisterReq where
  username : Bytes := []
  nickname : Bytes := []
  password : Bytes := []
  email : Bytes := []
  code : Bytes := []
  deriving DecidableEq, Repr

/-- `im::SendEmailCodeReq` -/
structure SendEmailCodeReq where
  email : Bytes := []
  deriving DecidableEq, Repr

/-- `im::SendEmailCodeRsp` -/
structure SendEmailCodeRsp where
  code : Int := 0
  msg : Bytes := []
  cooldownSeconds : Int := 0
  deriving DecidableEq, Repr

/-- `im::LoginReq` -/
structure LoginReq where
  username : Bytes := []
  password : Bytes := []
  clienttype : Int := 0
  status : Int := 0
  deriving DecidableEq, Repr

/-- `im::LoginRsp` -/
structure LoginRsp where
  code : Int := 0
  msg : Bytes := []
  user : Option UserInfo := none
  deriving DecidableEq, Repr

/-- `im::FriendListRsp` -/
structure FriendListRsp where
  code : Int := 0
  msg : Bytes := []
  friends : List UserInfo := []
  deriving DecidableEq, Repr

/-- `im::FindUserReq` -/
structure FindUserReq where
  type : Bytes := []
  keyword : Bytes := []
  deriving DecidableEq, Repr

/-- `im::FindUserRsp` -/
structure FindUserRsp where
  code : Int := 0
  msg : Bytes := []
  user : Option UserInfo := none
  deriving DecidableEq, Repr

/-- `im::OperateFriendReq` -/
structure OperateFriendReq where
  type : Int := 0
  friendid : Int := 0
  deriving DecidableEq, Repr

/-- `im::UserStatusChangeNotify` -/
structure UserStatusChangeNotify where
  type : Int := 0
  userid : Int := 0
  customface : Bytes := []
  deriving DecidableEq, Repr

/-- `im::UpdateUserInfoReq` -/
structure UpdateUserInfoReq where
  nickname : Bytes := []
  facetype : Int := 0
  customface : Bytes := []
  gender : Int := 0
  birthday : Int := 0
  signature : Bytes := []
  address : Bytes := []
  phonenumber : Bytes := []
  mail : Bytes := []
  deriving DecidableEq, Repr

/-- `im::ModifyPasswordReq` -/
structure ModifyPasswordReq where
  oldpassword : Bytes := []
  newpassword : Bytes := []
  deriving DecidableEq, Repr

/-- `im::CreateGroupReq` -/
structure CreateGroupReq where
  groupname : Bytes := []
  deriving DecidableEq, Repr

/-- `im::CreateGroupRsp` -/
structure CreateGroupRsp where
  code : Int := 0
  msg : Bytes := []
  groupid : Int := 0
  groupname : Bytes := []
  deriving DecidableEq, Repr

/-- `im::GetGroupMembersReq` -/
structure GetGroupMembersReq where
  groupid : Int := 0
  deriving DecidableEq, Repr

/-- `im::GetGroupMembersRsp` -/
structure GetGroupMembersRsp where
  code : Int := 0
  msg : Bytes := []
  members : List UserInfo := []
  deriving DecidableEq, Repr

/-- `im::ChatMsg` -/
structure ChatMsg where
  senderid : Int := 0
  targetid : Int := 0
  content : Bytes := []
  timestamp : Int := 0
  deriving DecidableEq, Repr

/-- `im::MultiChatTargets` -/
structure MultiChatTargets where
  targets : List Int := []
  content : Bytes := []
  deriving DecidableEq, Repr

/-- `im::AvatarUploadReq` -/
structure AvatarUploadReq where
  imageData : Bytes := []
  format : Bytes := []
  deriving DecidableEq, Repr

/-- `im::AvatarUploadRsp` -/
structure AvatarUploadRsp where
  code : Int := 0
  msg : Bytes := []
  url : Bytes := []
  deriving DecidableEq, Repr

/-- `im::ChatHistoryReq` -/
structure ChatHistoryReq where
  targetid : Int := 0
  deriving DecidableEq, Repr

/-- `im::ChatHistoryRsp` -/
structure ChatHistoryRsp where
  code : Int := 0
  msg : Bytes := []
  targetid : Int := 0
  messages : List ChatMsg := []
  deriving DecidableEq, Repr

/-- What the generated code does with one message type. -/
structure Codec (α : Type) where
  /-- `ParseFromString`; `none` when it returns false. -/
  parse : Bytes → Option α
  /-- `SerializeAsString` -/
  serialize : α → Bytes

/-- The generated code of `im.proto`, for the messages the server parses or serializes. -/
structure Protobuf where
  container : Codec MessageContainer
  commonRsp : Codec CommonRsp
  registerReq : Codec RegisterReq
  sendEmailCodeReq : Codec SendEmailCodeReq
  sendEmailCodeRsp : Codec SendEmailCodeRsp
  loginReq : Codec LoginReq
  loginRsp : Codec LoginRsp
  friendListRsp : Codec FriendListRsp
  findUserReq : Codec FindUserReq
  findUserRsp : Codec FindUserRsp
  operateFriendReq : Codec OperateFriendReq
  userStatusChangeNotify : Codec UserStatusChangeNotify
  updateUserInfoReq : Codec UpdateUserInfoReq
  modifyPasswordReq : Codec ModifyPasswordReq
  createGroupReq : Codec CreateGroupReq
  createGroupRsp : Codec CreateGroupRsp
  getGroupMembersReq : Codec GetGroupMembersReq
  getGroupMembersRsp : Codec GetGroupMembersRsp
  chatMsg : Codec ChatMsg
  multiChatTargets : Codec MultiChatTargets
  avatarUploadReq : Codec AvatarUploadReq
  avatarUploadRsp : Codec AvatarUploadRsp
  chatHistoryReq : Codec ChatHistoryReq
  chatHistoryRsp : Codec ChatHistoryRsp
  /-- What a `ChatMsg` holds after a `ParseFromString` whose result is not looked at: the message, or
  the fields read before the parse failed. -/
  chatMsgFields : Bytes → ChatMsg
  chatMsgFields_eq : ∀ {b m}, chatMsg.parse b = some m → chatMsgFields b = m

end AimChat
