import AimChat.Lib.Outbox
import AimChat.Net.Buffer
import AimChat.Net.Channel

/-! # TCP connections

`TcpConnection` in its loop: what `send` cannot write at once waits in the output buffer until the channel
is writable, `shutdown` waits for the output buffer, `forceClose` for the queue of the loop, and every call
from another thread for the queue too. The machine takes any calls, any events of the poller and any results
of `read` and `write`; what the application does in the message callback is a parameter. The asserts of
the source are faults. -/

namespace AimChat

namespace Net

/-- `TcpConnection::StateE`; `kConnecting` ends before the connection is handed to anyone. -/
inductive StateE
  | kDisconnected
  | kConnected
  | kDisconnecting
  deriving DecidableEq, Repr

/-- The values of `errno` that `sendInLoop` tells apart. -/
inductive Errno
  | EWOULDBLOCK
  | EPIPE
  | ECONNRESET
  | other
  deriving DecidableEq, Repr

/-- What `write` returns. -/
abbrev Written := Outbox.Answer Errno

/-- What `readv` finds: the bytes that wait, none at the end of the stream. -/
inductive Incoming
  | bytes (waiting : Bytes)
  | failed

/-- The errors of `write` for which `sendInLoop` gives a message up. -/
def Errno.isFault : Errno → Bool
  | .EPIPE => true
  | .ECONNRESET => true
  | .EWOULDBLOCK => false
  | .other => false

/-- A connected socket as its owner sees it. -/
structure Socket where
  /-- How often `write` was called. -/
  writes : Nat := 0
  /-- The bytes the kernel took. -/
  wire : Bytes := []
  /-- `shutdownWrite()` was called when the kernel had taken this many bytes. -/
  fin : Option Nat := none

/-- A call of the application on a connection. -/
inductive Action
  | send (data : Bytes)
  | shutdown
  | forceClose
  | forceCloseWithDelay
  | startRead
  | stopRead
  deriving DecidableEq

/-- A functor in the queue of the loop that is bound to the connection. -/
inductive Functor
  | sendInLoop (data : Bytes)
  | shutdownInLoop
  | forceCloseInLoop
  | startReadInLoop
  | stopReadInLoop
  | writeCompleteCallback
  | highWaterMarkCallback (size : Nat)
  | connectDestroyed
  deriving DecidableEq

/-- A callback that was run. -/
inductive Callback
  /-- `connectionCallback_` of a connected connection. -/
  | up
  | message
  | writeComplete
  | highWaterMark (size : Nat)
  /-- `connectionCallback_` of a disconnected connection. -/
  | down
  | close
  deriving DecidableEq, Repr

/-- The callbacks of a connection and `highWaterMark_`. -/
structure App (σ : Type) where
  /-- `messageCallback_`: what it makes of the input buffer, and the calls it makes. -/
  messageCallback : σ → Buffer → σ × Buffer × List Action
  /-- `writeCompleteCallback_` is set. -/
  writeCompleteCallback : Bool := false
  /-- `highWaterMarkCallback_` is set. -/
  highWaterMarkCallback : Bool := false
  highWaterMark : Nat := 64 * 1024 * 1024

/-- A `TcpConnection`, with its application's state and what it has done so far. -/
structure TcpConnection (σ : Type) where
  state : StateE
  reading : Bool
  channel : Channel
  inputBuffer : Buffer
  outputBuffer : Buffer
  /-- The functors of this connection in `pendingFunctors_`. -/
  pending : List Functor
  /-- The timers of `forceCloseWithDelay`. -/
  delayed : Nat
  socket : Socket
  app : σ
  /-- Every byte that `sendInLoop` was given before the connection was disconnected. -/
  given : Bytes
  /-- Every byte that `readFd` put into the input buffer. -/
  received : Bytes
  /-- The callbacks run, in order. -/
  calls : List Callback

/-- The assert that fails. -/
inductive Fault
  /-- `assert(state_ == kConnected || state_ == kDisconnecting)` of `handleClose` -/
  | handleClose
  /-- `assert(isNoneEvent())` of `Channel::remove` -/
  | remove
  deriving DecidableEq, Repr

namespace TcpConnection

variable {σ : Type} (app : App σ) (kernel : Nat → Written) (conn : TcpConnection σ)

/-- `write` of these bytes: the kernel takes no more than there are. -/
def write (data : Bytes) : Written × TcpConnection σ :=
  let socket := { conn.socket with writes := conn.socket.writes + 1 }
  match kernel conn.socket.writes with
  | .took n =>
      (.took (min n data.length),
        { conn with socket := { socket with wire := conn.socket.wire ++ data.take n } })
  | .failed e => (.failed e, { conn with socket := socket })

/-- `loop_->queueInLoop(functor)` -/
def queueInLoop (f : Functor) : TcpConnection σ := { conn with pending := conn.pending ++ [f] }

/-- `queueInLoop` where a condition holds. -/
def queueIf (p : Prop) [Decidable p] (f : Functor) : TcpConnection σ :=
  { conn with pending := conn.pending ++ if p then [f] else [] }

/-- A callback is run. -/
def callback (c : Callback) : TcpConnection σ := { conn with calls := conn.calls ++ [c] }

/-- The bytes behind the first `nwrote`, put behind the output buffer: the last part of `sendInLoop`. -/
def keepRemaining (data : Bytes) (nwrote : Nat) : TcpConnection σ :=
  let remaining := data.length - nwrote
  if 0 < remaining then
    let oldLen := conn.outputBuffer.readableBytes
    let conn := conn.queueIf
      (oldLen + remaining ≥ app.highWaterMark ∧ oldLen < app.highWaterMark ∧ app.highWaterMarkCallback)
      (.highWaterMarkCallback (oldLen + remaining))
    { conn with
      outputBuffer := conn.outputBuffer.append (data.drop nwrote)
      channel := conn.channel.ensureWriting }
  else conn

/-- The part of `sendInLoop` for an idle connection: `write`, and keep what was not taken. -/
def writeThrough (data : Bytes) : TcpConnection σ :=
  match conn.write kernel data with
  | (.took n, conn) =>
      let conn := conn.queueIf (data.length - n = 0 ∧ app.writeCompleteCallback) .writeCompleteCallback
      conn.keepRemaining app data n
  | (.failed e, conn) => if e.isFault then conn else conn.keepRemaining app data 0

/-- `sendInLoop(data, len)` -/
def sendInLoop (data : Bytes) : TcpConnection σ :=
  if conn.state = .kDisconnected then conn
  else
    let conn := { conn with given := conn.given ++ data }
    if !conn.channel.writing && conn.outputBuffer.readableBytes == 0 then
      conn.writeThrough app kernel data
    else conn.keepRemaining app data 0

/-- `shutdownInLoop()` -/
def shutdownInLoop : TcpConnection σ :=
  if conn.channel.writing then conn
  else { conn with socket := { conn.socket with fin := some conn.socket.wire.length } }

/-- `startReadInLoop()` -/
def startReadInLoop : TcpConnection σ :=
  if !conn.reading || !conn.channel.reading then
    { conn with channel := conn.channel.enableReading, reading := true }
  else conn

/-- `stopReadInLoop()` -/
def stopReadInLoop : TcpConnection σ :=
  if conn.reading || conn.channel.reading then
    { conn with channel := conn.channel.disableReading, reading := false }
  else conn

/-- `forceClose()` -/
def forceClose : TcpConnection σ :=
  if conn.state = .kConnected ∨ conn.state = .kDisconnecting then
    queueInLoop { conn with state := .kDisconnecting } .forceCloseInLoop
  else conn

/-- A call made in the thread of the loop, where `runInLoop` runs what it is given. -/
def perform : Action → TcpConnection σ
  | .send data => if conn.state = .kConnected then conn.sendInLoop app kernel data else conn
  | .shutdown =>
      if conn.state = .kConnected then shutdownInLoop { conn with state := .kDisconnecting } else conn
  | .forceClose => conn.forceClose
  | .forceCloseWithDelay =>
      if conn.state = .kConnected ∨ conn.state = .kDisconnecting then
        { conn with state := .kDisconnecting, delayed := conn.delayed + 1 }
      else conn
  | .startRead => conn.startReadInLoop
  | .stopRead => conn.stopReadInLoop

/-- A call made in another thread, where `runInLoop` puts what it is given into the queue. -/
def post : Action → TcpConnection σ
  | .send data => if conn.state = .kConnected then conn.queueInLoop (.sendInLoop data) else conn
  | .shutdown =>
      if conn.state = .kConnected then queueInLoop { conn with state := .kDisconnecting } .shutdownInLoop
      else conn
  | .forceClose => conn.forceClose
  | .forceCloseWithDelay =>
      if conn.state = .kConnected ∨ conn.state = .kDisconnecting then
        { conn with state := .kDisconnecting, delayed := conn.delayed + 1 }
      else conn
  | .startRead => conn.queueInLoop .startReadInLoop
  | .stopRead => conn.queueInLoop .stopReadInLoop

/-- `handleClose()`; `closeCallback_` is `TcpServer::removeConnection`, which queues `connectDestroyed`. -/
def handleClose : Except Fault (TcpConnection σ) :=
  if conn.state = .kDisconnected then .error .handleClose
  else
    let conn := { conn with state := .kDisconnected, channel := conn.channel.disableAll }
    .ok (((conn.callback .down).callback .close).queueInLoop .connectDestroyed)

/-- `forceCloseInLoop()` -/
def forceCloseInLoop : Except Fault (TcpConnection σ) :=
  if conn.state = .kDisconnected then .ok conn else conn.handleClose

/-- `channel_->remove()` -/
def removeChannel : Except Fault (TcpConnection σ) :=
  match conn.channel.remove with
  | some channel => .ok { conn with channel := channel }
  | none => .error .remove

/-- `connectDestroyed()` -/
def connectDestroyed : Except Fault (TcpConnection σ) :=
  if conn.state = .kConnected then
    let conn := { conn with state := .kDisconnected, channel := conn.channel.disableAll }
    (conn.callback .down).removeChannel
  else conn.removeChannel

/-- `handleRead(receiveTime)` -/
def handleRead : Incoming → Except Fault (TcpConnection σ)
  | .bytes waiting =>
      if waiting = [] then conn.handleClose
      else
        let data := waiting.take conn.inputBuffer.readvRoom
        let (s, inputBuffer, actions) := app.messageCallback conn.app (conn.inputBuffer.readFd data)
        let conn := { conn with app := s, inputBuffer := inputBuffer, received := conn.received ++ data }
        let conn := conn.callback .message
        .ok (actions.foldl (fun conn a => conn.perform app kernel a) conn)
  | .failed => .ok conn

/-- The part of `handleWrite` for an output buffer that is empty now. -/
def drained : TcpConnection σ :=
  let conn := { conn with channel := conn.channel.disableWriting }
  let conn := conn.queueIf app.writeCompleteCallback .writeCompleteCallback
  if conn.state = .kDisconnecting then conn.shutdownInLoop else conn

/-- The part of `handleWrite` for `n` bytes written. -/
def hasWritten (n : Nat) : TcpConnection σ :=
  if 0 < n then
    let conn := { conn with outputBuffer := conn.outputBuffer.retrieve n }
    if conn.outputBuffer.readableBytes = 0 then conn.drained app else conn
  else conn

/-- `handleWrite()` -/
def handleWrite : TcpConnection σ :=
  if conn.channel.writing then
    match conn.write kernel conn.outputBuffer.contents with
    | (.took n, conn) => conn.hasWritten app n
    | (.failed _, conn) => conn
  else conn

/-- `Channel::handleEventWithGuard(receiveTime)`; `handleError` only reads the error of the socket. -/
def handleEvent (revents : Revents) (incoming : Incoming) : Except Fault (TcpConnection σ) :=
  (if revents.pollhup && !revents.pollin then conn.handleClose else .ok conn) >>= fun conn =>
  (if revents.pollin || revents.pollpri || revents.pollrdhup then conn.handleRead app kernel incoming
    else .ok conn) >>= fun conn =>
  .ok (if revents.pollout then conn.handleWrite app kernel else conn)

/-- The loop runs a functor of the connection. -/
def runFunctor : Functor → Except Fault (TcpConnection σ)
  | .sendInLoop data => .ok (conn.sendInLoop app kernel data)
  | .shutdownInLoop => .ok conn.shutdownInLoop
  | .forceCloseInLoop => conn.forceCloseInLoop
  | .startReadInLoop => .ok conn.startReadInLoop
  | .stopReadInLoop => .ok conn.stopReadInLoop
  | .writeCompleteCallback => .ok (conn.callback .writeComplete)
  | .highWaterMarkCallback size => .ok (conn.callback (.highWaterMark size))
  | .connectDestroyed => conn.connectDestroyed

/-- What can happen to a connection. -/
inductive Event
  /-- A call in the thread of the loop. -/
  | perform (a : Action)
  /-- A call in another thread. -/
  | post (a : Action)
  /-- The poller reports events on the descriptor. -/
  | handleEvent (revents : Revents) (incoming : Incoming)
  /-- The loop runs the next functor of the connection. -/
  | doPendingFunctor
  /-- A timer of `forceCloseWithDelay` expires. -/
  | delayElapsed

/-- One event. Nothing is reported on a descriptor that is not watched. -/
def step (conn : TcpConnection σ) : Event → Except Fault (TcpConnection σ)
  | .perform a => .ok (conn.perform app kernel a)
  | .post a => .ok (conn.post a)
  | .handleEvent revents incoming =>
      if conn.channel.Watched then conn.handleEvent app kernel revents incoming else .ok conn
  | .doPendingFunctor =>
      match conn.pending with
      | [] => .ok conn
      | f :: fs => runFunctor app kernel { conn with pending := fs } f
  | .delayElapsed =>
      if 0 < conn.delayed then .ok (forceClose { conn with delayed := conn.delayed - 1 }) else .ok conn

/-- The connection after `connectEstablished()`. -/
def established (s : σ) : TcpConnection σ where
  state := .kConnected
  reading := true
  channel := Channel.new.enableReading
  inputBuffer := .empty
  outputBuffer := .empty
  pending := []
  delayed := 0
  socket := {}
  app := s
  given := []
  received := []
  calls := [.up]

/-! ## The state after an operation -/

variable {app kernel conn}

theorem ne_kDisconnected_of_kConnected (h : conn.state = .kConnected) : conn.state ≠ .kDisconnected := by
  rw [h]
  decide

theorem ne_kDisconnected_of_or (h : conn.state = .kConnected ∨ conn.state = .kDisconnecting) :
    conn.state ≠ .kDisconnected := by
  rcases h with h | h <;> rw [h] <;> decide

@[simp] theorem keepRemaining_state (data : Bytes) (n : Nat) :
    (conn.keepRemaining app data n).state = conn.state := by
  unfold keepRemaining
  dsimp only
  split_ifs <;> rfl

@[simp] theorem writeThrough_state (data : Bytes) : (conn.writeThrough app kernel data).state = conn.state := by
  unfold writeThrough write
  cases kernel conn.socket.writes with
  | took n => exact keepRemaining_state _ _
  | failed e =>
      dsimp only
      split_ifs
      · rfl
      · exact keepRemaining_state _ _

@[simp] theorem sendInLoop_state (data : Bytes) : (conn.sendInLoop app kernel data).state = conn.state := by
  unfold sendInLoop
  dsimp only
  split_ifs
  · rfl
  · exact writeThrough_state _
  · exact keepRemaining_state _ _

@[simp] theorem shutdownInLoop_state : conn.shutdownInLoop.state = conn.state := by
  unfold shutdownInLoop
  split_ifs <;> rfl

@[simp] theorem startReadInLoop_state : conn.startReadInLoop.state = conn.state := by
  unfold startReadInLoop
  split_ifs <;> rfl

@[simp] theorem stopReadInLoop_state : conn.stopReadInLoop.state = conn.state := by
  unfold stopReadInLoop
  split_ifs <;> rfl

theorem forceClose_state_ne : conn.forceClose.state ≠ .kConnected := by
  unfold forceClose
  split_ifs with h
  · exact fun hstate => nomatch hstate
  · exact fun hstate => h (.inl hstate)

@[simp] theorem handleWrite_state : (conn.handleWrite app kernel).state = conn.state := by
  unfold handleWrite write
  split_ifs
  · cases kernel conn.socket.writes with
    | took n =>
        dsimp only [hasWritten, drained]
        split_ifs
        · exact shutdownInLoop_state
        · rfl
        · rfl
        · rfl
    | failed e => rfl
  · rfl

/-- What removing the channel leaves. -/
theorem removeChannel_eq_ok {conn' : TcpConnection σ} :
    conn.removeChannel = .ok conn' ↔
      conn.channel.isNoneEvent = true ∧ { conn with channel := { conn.channel with index := .kNew } } = conn' := by
  rw [removeChannel, Channel.remove]
  by_cases h : conn.channel.isNoneEvent = true
  · simp [h]
  · simp [h]

end TcpConnection

end Net

end AimChat
