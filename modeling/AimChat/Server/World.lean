import AimChat.Net.IMCodec
import AimChat.Server.GrpcClients
import AimChat.Server.IMSer
import AimChat.Store.Operations

/-! # The state of the server

What the handlers of a session read and write: the user store, the offline cache, the sessions and
their connections, the calls to the assistant that are under way, and what was handed to the codecs. -/

namespace AimChat

/-- What the server is given: the generated code, zlib, the database, the clock, and the clients of the
other services (`none` when built without `HAVE_AGENT_GRPC`). A call to one of them is told the number
of calls made before it. -/
structure Env where
  pb : Protobuf
  adler32 : Bytes → UInt32
  sql : SqlEnv
  /-- `time(nullptr)` -/
  time : Nat → Int
  grpc : Option GrpcClients

/-- What the sessions' codecs are given. -/
def Env.lib (env : Env) : CodecLib := ⟨env.pb.container, env.adler32⟩

/-- An environment with the wire format and a database that carries out everything. -/
def Env.ideal (grpc : Option GrpcClients) : Env :=
  ⟨Protobuf.wire, AimChat.adler32, SqlEnv.ideal, fun _ => 0, grpc⟩

/-- How a handler can end the process. -/
inductive Fault
  /-- A null `m_user` is dereferenced. -/
  | nullUser
  /-- An exception nobody catches: `std::stoi`. -/
  | uncaught
  /-- A member of a session that was destroyed is used. -/
  | dangling
  deriving DecidableEq, Repr

/-- The members of `ClientSession` that change. `m_conn` is the connection of the same number. -/
structure Session where
  /-- `m_seq` -/
  seq : Int := 0
  /-- `m_user` -/
  user : Option UserPtr := none
  /-- `m_target` -/
  target : Int := 0
  /-- `m_targets` -/
  targets : Bytes := []
  deriving DecidableEq, Repr

/-- `ChatMsgCache` -/
structure ChatMsgCache where
  userid : Int
  chatmsg : Bytes
  deriving DecidableEq, Repr

/-- A call of `AgentGrpcClient::sendMessage` that has not ended. Its callback holds the session and
nothing of the request; `seq` is the request's. -/
structure AgentCall where
  session : Nat
  seq : Int
  userid : Int
  content : Bytes
  deriving DecidableEq, Repr

/-- Which part of the code handed a message to a codec. -/
inductive Path
  /-- The response to a request. -/
  | answer
  /-- `SendUserStatusChangeMsg` -/
  | notify
  /-- A chat message, forwarded live or from the offline cache. -/
  | chat
  /-- A message that speaks for the assistant. -/
  | agent
  deriving DecidableEq, Repr

/-- A message handed to the codec of a session: the state of the connection and the `UserID()` of the
session then. The connection takes the frame in state `kConnected` and drops it otherwise. -/
structure Sent where
  conn : Nat
  state : ConnState
  userid : Int
  path : Path
  msg : MessageContainer
  deriving DecidableEq, Repr

/-- The state of the server. -/
structure World where
  store : Store
  im : IMSer
  session : Nat → Session
  /-- `m_listChatMsgCache` -/
  chatMsgCache : List ChatMsgCache
  agentCalls : List AgentCall
  /-- The number of calls out of the process. -/
  calls : Nat
  /-- What was handed to the codecs, oldest first. -/
  sent : List Sent

/-- The server on a store, before the first connection. -/
def World.init (st : Store) : World where
  store := st
  im := IMSer.init
  session := fun _ => {}
  chatMsgCache := []
  agentCalls := []
  calls := 0
  sent := []

namespace World

variable (n : Nat) (w : World)

/-! ## Reading -/

/-- The record a pointer points at. -/
def record (p : UserPtr) : User := w.store.users.heap p

/-- `ClientSession::UserID()` -/
def userID : Int :=
  match (w.session n).user with
  | none => -1
  | some p => (w.record p).userid

/-- `*m_user` -/
def theUser : Except Fault UserPtr :=
  match (w.session n).user with
  | none => .error .nullUser
  | some p => .ok p

/-- `IMSer::GetSessionByID(userid)`: the first session in `m_mapclient` with that `UserID()`. -/
def getSessionByID (userid : Int) : Option Nat :=
  w.im.mapclient.values.find? fun n => w.userID n = userid

/-- `GetFriendInfoByUserID(userid, friends)` into an empty list, its result not looked at. -/
def friendsOf (userid : Int) : List UserPtr :=
  (w.store.users.getFriendInfoByUserID userid).getD []

/-! ## Writing -/

/-- `m_codec->send(m_conn, msg)` of session `n`. -/
def send (path : Path) (msg : MessageContainer) : World :=
  -- what the connection does with it depends on its state, which is recorded
  { w with sent := w.sent ++ [⟨n, w.im.state n, w.userID n, path, msg⟩] }

/-- A response with the command of its request and the session's `m_seq`. -/
def respond (cmd : Int) (payload : Bytes) : World :=
  w.send n .answer { cmd := cmd, seq := (w.session n).seq, payload := payload }

/-- Change a session's members. -/
def setSession (f : Session → Session) : World :=
  { w with session := fun m => if m = n then f (w.session m) else w.session m }

/-- Change the record a pointer points at, its `userid` excepted. -/
def setRecord (p : UserPtr) (f : User → User) (hf : ∀ u, (f u).userid = u.userid) : World :=
  { w with store := ⟨w.store.sql, w.store.users.modify p f hf⟩ }

/-- The store an operation of `UserManager` leaves. -/
def withStore (st : Store) : World := { w with store := st }

/-- One more call out of the process was made. -/
def called : World := { w with calls := w.calls + 1 }

/-- `AddChatMsgCache(userid, cache)` -/
def addChatMsgCache (userid : Int) (cache : Bytes) : World :=
  { w with chatMsgCache := w.chatMsgCache ++ [⟨userid, cache⟩] }

/-- `GetChatMsgCache(userid, cached)`: the entries of a user, which leave the cache. -/
def getChatMsgCache (userid : Int) : List ChatMsgCache × World :=
  (w.chatMsgCache.filter (·.userid = userid),
    { w with chatMsgCache := w.chatMsgCache.filter (·.userid ≠ userid) })

theorem theUser_of_user {n : Nat} {w : World} {p : UserPtr} (h : (w.session n).user = some p) :
    w.theUser n = .ok p := by
  unfold theUser
  rw [h]

@[simp] theorem session_setSession (f : Session → Session) (m : Nat) :
    (w.setSession n f).session m = if m = n then f (w.session m) else w.session m := rfl

/-- Setting `m_seq` leaves the user. -/
theorem user_setSeq (n : Nat) (w : World) (seq : Int) :
    ((w.setSession n fun s => { s with seq := seq }).session n).user = (w.session n).user := by
  rw [session_setSession, if_pos rfl]

end World

end AimChat
