import AimChat.Base.Bytes

/-! # The clients of the other services

`MailGrpcClient`, `AvatarGrpcClient` and `AgentGrpcClient`. The stubs are outside: a call ends with the
reply the service sent or with the error message of a status that is not OK, and which of the two is a
parameter, as a function of the number of the call and of the request. -/

namespace AimChat

/-- What a blocking stub call ends with: the reply, or `status.error_message()`. -/
abbrev RpcResult (α : Type) := Except Bytes α

/-- `mail::SendCodeRsp` -/
structure Mail.SendCodeRsp where
  code : Int := 0
  msg : Bytes := []
  cooldownSeconds : Int := 0

/-- `mail::VerifyCodeRsp` -/
structure Mail.VerifyCodeRsp where
  code : Int := 0
  msg : Bytes := []

/-- `avatar::UploadRsp` -/
structure Avatar.UploadRsp where
  code : Int := 0
  msg : Bytes := []
  url : Bytes := []

/-- `agent::ProcessMessageRsp` -/
structure Agent.ProcessMessageRsp where
  code : Int := 0
  msg : Bytes := []
  reply : Bytes := []

/-- A `MailGrpcClient`: its stub. -/
structure MailGrpcClient where
  /-- `stub->SendCode` of an address -/
  sendCodeRpc : Nat → Bytes → RpcResult Mail.SendCodeRsp
  /-- `stub->VerifyCode` of an address and a code -/
  verifyCodeRpc : Nat → Bytes → Bytes → RpcResult Mail.VerifyCodeRsp

namespace MailGrpcClient

/-- `SendCodeResult` -/
structure SendCodeResult where
  ok : Bool := false
  msg : Bytes := []
  cooldownSeconds : Int := 0
  code : Int := 3

/-- `VerifyResult` -/
structure VerifyResult where
  ok : Bool := false
  msg : Bytes := []

/-- `SendCode(email)`, as call number `k`. -/
def sendCode (mail : MailGrpcClient) (k : Nat) (email : Bytes) : SendCodeResult :=
  match mail.sendCodeRpc k email with
  | .error message => { code := 3, msg := str "gRPC error: " ++ message }
  | .ok rsp =>
      { code := rsp.code, msg := rsp.msg, cooldownSeconds := rsp.cooldownSeconds, ok := rsp.code = 0 }

/-- `VerifyCode(email, code)`, as call number `k`. -/
def verifyCode (mail : MailGrpcClient) (k : Nat) (email code : Bytes) : VerifyResult :=
  match mail.verifyCodeRpc k email code with
  | .error message => { msg := str "gRPC error: " ++ message }
  | .ok rsp => { ok := rsp.code = 0, msg := rsp.msg }

end MailGrpcClient

/-- An `AvatarGrpcClient`: its stub. -/
structure AvatarGrpcClient where
  /-- `stub->Upload` of a user, an image and its format -/
  uploadRpc : Nat → Int → Bytes → Bytes → RpcResult Avatar.UploadRsp

namespace AvatarGrpcClient

/-- `UploadResult` -/
structure UploadResult where
  ok : Bool := false
  url : Bytes := []
  errMsg : Bytes := []

/-- `Upload(userId, imgData, format)`, as call number `k`. -/
def upload (avatar : AvatarGrpcClient) (k : Nat) (userId : Int) (imgData format : Bytes) :
    UploadResult :=
  match avatar.uploadRpc k userId imgData format with
  | .error message => { errMsg := str "gRPC error: " ++ message }
  | .ok rsp => if rsp.code ≠ 0 then { errMsg := rsp.msg } else { ok := true, url := rsp.url }

end AvatarGrpcClient

/-- `AgentGrpcClient::processMessageSync` once its stub call has ended: what the callback gets as `ok`
and `reply`. -/
def AgentGrpcClient.processMessageSync (rpc : RpcResult Agent.ProcessMessageRsp) : Bool × Bytes :=
  match rpc with
  | .error message => (false, str "Agent 服务不可用: " ++ message)
  | .ok rsp => if rsp.code ≠ 0 then (false, rsp.msg) else (true, rsp.reply)

/-- The clients of a server built with `HAVE_AGENT_GRPC`; null ones are `none`. The agent's stub is
called on a thread of its own, so its result comes as an event. -/
structure GrpcClients where
  /-- `GetAgentClient()` is not null. -/
  agent : Bool
  /-- `GetAvatarClient()` -/
  avatar : Option AvatarGrpcClient
  /-- `GetMailClient()` -/
  mail : Option MailGrpcClient

end AimChat
