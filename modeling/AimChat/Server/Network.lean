import AimChat.Net.Delivery
import AimChat.Net.Lifecycle
import AimChat.Server.Effect

/-! # The server on its connections

The machine of the server takes decoded messages and only notes what it hands to the codecs. `Network` is the
same server with a `TcpConnection` for every session: bytes come in as the poller reports them, `IMCodec` reads
frames out of the input buffer and calls the handlers, and what these send goes out as frames through the output
buffer, from the loop's thread or, for a reply of the assistant, through the queue of the loop. No assert of a
connection, a channel or a buffer fails; a run of it is a run of the server on the messages in the bytes, and
the bytes it writes are the frames of the messages that run hands over (`refines_of_run`, in
`AimChat.Server.NetworkRuns`). Here are the machine and what the operations of a connection make of the messages
it is handed. -/

namespace AimChat

open Net (Action App Functor Incoming Revents TcpConnection Written)

/-- How the server can end. -/
inductive NetFault
  /-- In a handler. -/
  | handler (f : Fault)
  /-- At an assert of a connection. -/
  | connection (f : Net.Fault)
  /-- At an assert of an input buffer. -/
  | buffer (a : Net.Buffer.Assert)

/-- The server and the connection of each session. -/
structure Network where
  world : World
  conn : Nat → TcpConnection Unit

/-- The message comes out of the thread of a call to the assistant, not out of the thread of the loop. -/
def Sent.posted (env : Env) (m : Sent) : Bool := decide (m.path = .agent) && env.grpc.isSome

namespace Network

variable (env : Env) (kernel : Nat → Nat → Written)

/-- `TcpServer` sets neither of the other callbacks, and what `ClientSession::OnRead` does is `onRead`. -/
def callbacks : App Unit where
  messageCallback s buf := (s, buf, [])

/-- `m_codec->send(m_conn, msg)` -/
def hand (kernel : Nat → Written) (conn : TcpConnection Unit) (m : Sent) : TcpConnection Unit :=
  let frame := IMCodec.send env.lib m.msg
  if m.posted env then conn.post (.send frame) else conn.perform callbacks kernel (.send frame)

/-- A message goes to the connection of its session. -/
def send (net : Network) (m : Sent) : Network :=
  { net with conn := Function.update net.conn m.conn (hand env (kernel m.conn) (net.conn m.conn) m) }

/-- The server handles an event. The messages go out as they are made, which no handler waits for. -/
def serve (net : Network) (e : Event) : Except NetFault Network :=
  (step env net.world e).mapError .handler >>= fun world =>
  .ok ((world.sent.drop net.world.sent.length).foldl (send env kernel) { net with world := world })

/-- A connection goes on. `connectionCallback_` of one that was disconnected is `IMSer::OnClose`. -/
def advance (net : Network) (n : Nat) (x : Except Net.Fault (TcpConnection Unit)) : Except NetFault Network :=
  x.mapError .connection >>= fun conn =>
  (if conn.state = .kDisconnected ∧ (net.conn n).state ≠ .kDisconnected then
    (step env net.world (.close n)).mapError .handler else .ok net.world) >>= fun world =>
  .ok ⟨world, Function.update net.conn n conn⟩

/-- `defaultErrorCallback` -/
def onError (net : Network) (n : Nat) : Except NetFault Network :=
  (step env net.world (.malformed n)).mapError .handler >>= fun world =>
  .ok ⟨world, Function.update net.conn n ((net.conn n).perform callbacks (kernel n) .shutdown)⟩

/-- `ClientSession::OnRead`, with the bytes that `readFd` read. A handler that throws ends the process. -/
def onRead (net : Network) (n : Nat) (data : Bytes) : Except NetFault Network :=
  (Net.BufferCodec.onMessage (IMCodec env.lib) (fun msg r => r >>= fun net => net.serve env kernel (.recv n msg))
    (fun _ r => r >>= fun net => net.onError env kernel n) ((net.conn n).inputBuffer.readFd data)
    (.ok net : Except NetFault Network)).mapError .buffer >>= fun (buf, r) =>
  r >>= fun net =>
  .ok { net with
    conn := Function.update net.conn n
      (TcpConnection.callback
        { net.conn n with inputBuffer := buf, received := (net.conn n).received ++ data } .message) }

/-- `TcpConnection::handleRead` -/
def handleRead (net : Network) (n : Nat) : Incoming → Except NetFault Network
  | .bytes waiting =>
      if waiting = [] then net.advance env n (net.conn n).handleClose
      else net.onRead env kernel n (waiting.take (net.conn n).inputBuffer.readvRoom)
  | .failed => .ok net

/-- `Channel::handleEventWithGuard` -/
def handleEvent (net : Network) (n : Nat) (revents : Revents) (incoming : Incoming) : Except NetFault Network :=
  (if revents.pollhup && !revents.pollin then net.advance env n (net.conn n).handleClose
    else .ok net) >>= fun net =>
  (if revents.pollin || revents.pollpri || revents.pollrdhup then net.handleRead env kernel n incoming
    else .ok net) >>= fun net =>
  if revents.pollout then net.advance env n (.ok ((net.conn n).handleWrite callbacks (kernel n))) else .ok net

/-- `TcpServer::newConnection`: the numbers from here on stand for connections that are yet to be made. -/
def newConnection (net : Network) (addr : Nat) : Except NetFault Network :=
  (step env net.world (.connect addr)).mapError .handler >>= fun world =>
  .ok ⟨world, fun n => if n < net.world.im.fresh then net.conn n else TcpConnection.established ()⟩

/-- What the server on its connections reacts to. -/
inductive Event
  /-- A connection is accepted; its `TcpConnection` is at this address. -/
  | newConnection (addr : Nat)
  /-- The poller reports events on the descriptor of a connection. -/
  | handleEvent (n : Nat) (revents : Revents) (incoming : Incoming)
  /-- The loop runs the next functor of a connection. -/
  | doPendingFunctor (n : Nat)
  /-- The stub call of a call to the assistant has ended. -/
  | agentDone (k : Nat) (rpc : RpcResult Agent.ProcessMessageRsp)

/-- One event. -/
def step (net : Network) : Event → Except NetFault Network
  | .newConnection addr => net.newConnection env addr
  | .handleEvent n revents incoming =>
      if n < net.world.im.fresh ∧ (net.conn n).channel.Watched then net.handleEvent env kernel n revents incoming
      else .ok net
  | .doPendingFunctor n =>
      if n < net.world.im.fresh then
        net.advance env n ((net.conn n).step callbacks (kernel n) .doPendingFunctor)
      else .ok net
  | .agentDone k rpc => net.serve env kernel (.agentDone k rpc)

/-- The server on a store, before the first connection. -/
def start (st : Store) : Network := ⟨World.init st, fun _ => TcpConnection.established ()⟩

/-! ## What a run of the server says of a connection -/

/-- The message of an event on a connection. -/
def received (n : Nat) : AimChat.Event → Option MessageContainer
  | .recv m msg => if m = n then some msg else none
  | .connect _ => none
  | .malformed _ => none
  | .close _ => none
  | .agentDone _ _ => none

/-- The messages that were decoded on a connection. -/
def recvs (n : Nat) (es : List AimChat.Event) : List MessageContainer := es.filterMap (received n)

/-- The messages an event hands to the codec of a connected connection. -/
def handedBy (n : Nat) (w : World) (e : AimChat.Event) : List Sent :=
  match AimChat.step env w e with
  | .ok w' => if w.im.Connected n then (w'.sent.drop w.sent.length).filter (·.conn = n) else []
  | .error _ => []

/-- The messages a run hands to the codec of a connection while it is connected. -/
def handed (n : Nat) (w : World) (es : List AimChat.Event) : List Sent :=
  Run.log (AimChat.step env) (handedBy env n) w es

/-- `state_` as the table of the sessions has it. -/
def connState : Net.StateE → ConnState
  | .kDisconnected => .kDisconnected
  | .kConnected => .kConnected
  | .kDisconnecting => .kDisconnecting

/-! ## The sending side of one connection -/

/-- The bytes of a message in the queue of the loop. -/
def queuedMessage : Functor → Option Bytes
  | .sendInLoop data => some data
  | .shutdownInLoop => none
  | .forceCloseInLoop => none
  | .startReadInLoop => none
  | .stopReadInLoop => none
  | .writeCompleteCallback => none
  | .highWaterMarkCallback _ => none
  | .connectDestroyed => none

/-- What a connection has made of the messages it was handed: those of the loop's thread were given to
`sendInLoop` at once, those of other threads are given to it in their turn, and once the connection is
disconnected they are dropped. -/
def Sends (hs : List Sent) (conn : TcpConnection Unit) : Prop :=
  ∃ taken dropped queued : List Sent,
    conn.given = IMCodec.stream env.lib (taken.map Sent.msg) ∧
      conn.pending.filterMap queuedMessage = queued.map (fun m => IMCodec.send env.lib m.msg) ∧
      taken.filter (fun m => !m.posted env) = hs.filter (fun m => !m.posted env) ∧
      taken.filter (Sent.posted env) ++ dropped ++ queued = hs.filter (Sent.posted env) ∧
      (conn.state ≠ .kDisconnected → dropped = [])

variable {env} {k : Nat → Written} {conn conn' : TcpConnection Unit} {hs : List Sent}

theorem queuedMessage_of_own {f : Functor} (hf : f.Own) : queuedMessage f = none := by
  cases f with
  | sendInLoop data => exact hf.elim
  | shutdownInLoop => rfl
  | forceCloseInLoop => rfl
  | startReadInLoop => rfl
  | stopReadInLoop => rfl
  | writeCompleteCallback => rfl
  | highWaterMarkCallback size => rfl
  | connectDestroyed => rfl

theorem messages_of_queues (h : TcpConnection.Queues conn conn') :
    conn'.pending.filterMap queuedMessage = conn.pending.filterMap queuedMessage := by
  obtain ⟨fs, hfs, hpending⟩ := h
  rw [hpending, List.filterMap_append,
    List.filterMap_eq_nil_iff.2 fun f hf => queuedMessage_of_own (hfs f hf), List.append_nil]

/-- An operation that gives nothing and queues no message. -/
theorem Sends.of_eq (h : Sends env hs conn) (hgiven : conn'.given = conn.given)
    (hqueued : conn'.pending.filterMap queuedMessage = conn.pending.filterMap queuedMessage)
    (hstate : conn'.state ≠ .kDisconnected → conn.state ≠ .kDisconnected) : Sends env hs conn' := by
  obtain ⟨taken, dropped, queued, htaken, hpending, hdirect, hposted, hdropped⟩ := h
  exact ⟨taken, dropped, queued, hgiven.trans htaken, hqueued.trans hpending, hdirect, hposted,
    fun hopen => hdropped (hstate hopen)⟩

theorem stream_snoc (lib : CodecLib) (msgs : List MessageContainer) (msg : MessageContainer) :
    IMCodec.stream lib (msgs ++ [msg]) = IMCodec.stream lib msgs ++ IMCodec.send lib msg := by
  simp [IMCodec.stream]

theorem sendInLoop_given {data : Bytes} (hopen : conn.state ≠ .kDisconnected) :
    (conn.sendInLoop callbacks k data).given = conn.given ++ data := by
  have hclosed : ¬ conn.outbox.closed = true := by rwa [TcpConnection.outbox, decide_eq_true_eq]
  have houtbox : (conn.sendInLoop callbacks k data).outbox =
      Outbox.step k Net.Errno.isFault conn.outbox (.give data) := TcpConnection.outbox_sendInLoop data
  rw [Outbox.step, if_neg hclosed] at houtbox
  exact (congrArg Outbox.given houtbox).trans (Outbox.give_given data)

/-- A connection that is not connected takes no message. -/
theorem hand_of_not_connected (h : conn.state ≠ .kConnected) (m : Sent) : hand env k conn m = conn := by
  unfold hand TcpConnection.post TcpConnection.perform
  dsimp only
  split_ifs <;> rfl

@[simp] theorem hand_state (m : Sent) : (hand env k conn m).state = conn.state := by
  unfold hand TcpConnection.post TcpConnection.perform
  dsimp only
  split_ifs
  · rfl
  · rfl
  · exact TcpConnection.sendInLoop_state _
  · rfl

theorem hand_input (m : Sent) : (hand env k conn m).input = conn.input := by
  unfold hand
  dsimp only
  split_ifs
  · exact TcpConnection.input_post _
  · exact TcpConnection.input_perform _

/-- A connected connection takes a message, or has it queued. -/
theorem Sends.hand (h : Sends env hs conn) (hstate : conn.state = .kConnected) (m : Sent) :
    Sends env (hs ++ [m]) (Network.hand env k conn m) := by
  obtain ⟨taken, dropped, queued, hgiven, hpending, hdirect, hposted, hdropped⟩ := h
  have hopen := TcpConnection.ne_kDisconnected_of_kConnected hstate
  rw [hdropped hopen, List.append_nil] at hposted
  unfold Network.hand
  dsimp only
  by_cases hm : m.posted env = true
  · rw [if_pos hm, TcpConnection.post, if_pos hstate]
    refine ⟨taken, [], queued ++ [m], hgiven, ?_, ?_, ?_, fun _ => rfl⟩
    · rw [TcpConnection.queueInLoop, List.filterMap_append, hpending, List.map_append]
      rfl
    · rw [List.filter_append, hdirect]
      simp [hm]
    · rw [List.filter_append, ← hposted]
      simp [hm]
  · rw [if_neg hm, TcpConnection.perform, if_pos hstate]
    refine ⟨taken ++ [m], [], queued, ?_, ?_, ?_, ?_, fun _ => rfl⟩
    · rw [sendInLoop_given hopen, hgiven, List.map_append]
      exact (stream_snoc _ _ _).symm
    · rw [messages_of_queues (TcpConnection.queues_sendInLoop conn _), hpending]
    · rw [List.filter_append, List.filter_append, hdirect]
    · rw [List.filter_append, List.filter_append, ← hposted]
      simp [hm]

/-- It takes all that an event hands to it. -/
theorem Sends.foldl_hand (h : Sends env hs conn) (hstate : conn.state = .kConnected) (ms : List Sent) :
    Sends env (hs ++ ms) (ms.foldl (Network.hand env k) conn) := by
  induction ms generalizing hs conn with
  | nil => rwa [List.append_nil]
  | cons m ms ih =>
      have hnext := ih (h.hand (k := k) hstate m) (by rw [hand_state, hstate])
      rwa [List.append_assoc] at hnext

theorem foldl_hand_of_not_connected (h : conn.state ≠ .kConnected) (ms : List Sent) :
    ms.foldl (Network.hand env k) conn = conn := by
  induction ms with
  | nil => rfl
  | cons m ms ih => rw [List.foldl_cons, hand_of_not_connected h, ih]

@[simp] theorem foldl_hand_state (ms : List Sent) : (ms.foldl (hand env k) conn).state = conn.state := by
  induction ms generalizing conn with
  | nil => rfl
  | cons m ms ih => rw [List.foldl_cons, ih, hand_state]

theorem foldl_hand_input (ms : List Sent) : (ms.foldl (hand env k) conn).input = conn.input := by
  induction ms generalizing conn with
  | nil => rfl
  | cons m ms ih => rw [List.foldl_cons, ih, hand_input]

/-! ## What the other operations give -/

theorem given_shutdown : (conn.perform callbacks k .shutdown).given = conn.given := by
  rw [TcpConnection.perform]
  split_ifs
  · unfold TcpConnection.shutdownInLoop
    split_ifs <;> rfl
  · rfl

theorem given_handleWrite : (conn.handleWrite callbacks k).given = conn.given := by
  rcases TcpConnection.outbox_handleWrite callbacks k conn with h | ⟨-, h⟩
  · rw [Outbox.step] at h
    exact (congrArg Outbox.given h).trans Outbox.flush_given
  · rw [Outbox.step, Outbox.step] at h
    exact (congrArg Outbox.given h).trans (Outbox.finish_given.trans Outbox.flush_given)

/-- A connection that closes gives nothing. -/
theorem Sends.handleClose (h : Sends env hs conn) (hclose : conn.handleClose = .ok conn') :
    Sends env hs conn' := by
  rw [TcpConnection.handleClose] at hclose
  split_ifs at hclose
  cases hclose
  refine h.of_eq rfl ?_ fun hstate => absurd rfl hstate
  simp [TcpConnection.queueInLoop, TcpConnection.callback, queuedMessage]

theorem Sends.shutdown (h : Sends env hs conn) : Sends env hs (conn.perform callbacks k .shutdown) := by
  refine h.of_eq given_shutdown (messages_of_queues (TcpConnection.queues_perform conn .shutdown)) fun hstate => ?_
  have hplain : Action.Plain .shutdown := trivial
  exact fun hclosed => hstate ((TcpConnection.stays_perform hplain).state.2 hclosed)

theorem Sends.handleWrite (h : Sends env hs conn) : Sends env hs (conn.handleWrite callbacks k) :=
  h.of_eq given_handleWrite (messages_of_queues (TcpConnection.queues_handleWrite conn))
    fun hstate => by rwa [TcpConnection.handleWrite_state] at hstate

theorem Sends.removeChannel (h : Sends env hs conn) (hremove : conn.removeChannel = .ok conn') :
    Sends env hs conn' := by
  obtain ⟨-, rfl⟩ := TcpConnection.removeChannel_eq_ok.1 hremove
  exact h.of_eq rfl rfl id

theorem Sends.connectDestroyed (h : Sends env hs conn) (hdestroyed : conn.connectDestroyed = .ok conn') :
    Sends env hs conn' := by
  rw [TcpConnection.connectDestroyed] at hdestroyed
  split_ifs at hdestroyed
  · refine Sends.removeChannel ?_ hdestroyed
    exact h.of_eq rfl rfl fun hstate => absurd rfl hstate
  · exact h.removeChannel hdestroyed

/-- The turn of a functor that is no message. -/
theorem Sends.runFunctor (h : Sends env hs conn) {f : Functor} (hf : queuedMessage f = none)
    (hrun : conn.runFunctor callbacks k f = .ok conn') : Sends env hs conn' := by
  cases f with
  | sendInLoop data => cases hf
  | shutdownInLoop =>
      cases hrun
      refine h.of_eq ?_ (congrArg _ TcpConnection.pending_shutdownInLoop) fun hstate => ?_
      · exact (congrArg Outbox.given TcpConnection.outbox_shutdownInLoop).trans Outbox.finish_given
      · rwa [TcpConnection.shutdownInLoop_state] at hstate
  | forceCloseInLoop =>
      rw [TcpConnection.runFunctor, TcpConnection.forceCloseInLoop] at hrun
      split_ifs at hrun
      · cases hrun
        exact h
      · exact h.handleClose hrun
  | startReadInLoop =>
      cases hrun
      refine h.of_eq ?_ (congrArg _ TcpConnection.pending_startReadInLoop) fun hstate => ?_
      · exact congrArg Outbox.given TcpConnection.outbox_startReadInLoop
      · rwa [TcpConnection.startReadInLoop_state] at hstate
  | stopReadInLoop =>
      cases hrun
      refine h.of_eq ?_ (congrArg _ TcpConnection.pending_stopReadInLoop) fun hstate => ?_
      · exact congrArg Outbox.given TcpConnection.outbox_stopReadInLoop
      · rwa [TcpConnection.stopReadInLoop_state] at hstate
  | writeCompleteCallback =>
      cases hrun
      exact h.of_eq rfl rfl id
  | highWaterMarkCallback size =>
      cases hrun
      exact h.of_eq rfl rfl id
  | connectDestroyed => exact h.connectDestroyed hrun

/-- The turn of a message. -/
theorem Sends.sendInLoop (h : Sends env hs conn) {data : Bytes} {fs : List Functor}
    (hpending : conn.pending = .sendInLoop data :: fs) :
    Sends env hs (TcpConnection.sendInLoop callbacks k { conn with pending := fs } data) := by
  obtain ⟨taken, dropped, queued, hgiven, hqueued, hdirect, hposted, hdropped⟩ := h
  have hhead : queuedMessage (.sendInLoop data) = some data := rfl
  rw [hpending, List.filterMap_cons_some hhead] at hqueued
  -- the message is the first of those that were queued
  obtain ⟨m, ms, rfl, hdata, hms⟩ := List.map_eq_cons_iff.1 hqueued.symm
  have hm : m.posted env = true := by
    have hmem : m ∈ hs.filter (Sent.posted env) := by
      rw [← hposted]
      simp
    exact (List.mem_filter.1 hmem).2
  have hrest : (TcpConnection.sendInLoop callbacks k { conn with pending := fs } data).pending.filterMap
      queuedMessage = ms.map fun m => IMCodec.send env.lib m.msg := by
    rw [messages_of_queues (TcpConnection.queues_sendInLoop _ _)]
    exact hms.symm
  by_cases hstate : conn.state = .kDisconnected
  · refine ⟨taken, dropped ++ [m], ms, ?_, hrest, hdirect, ?_, fun hopen => ?_⟩
    · rw [TcpConnection.sendInLoop, if_pos hstate]
      exact hgiven
    · rw [← hposted]
      simp
    · rw [TcpConnection.sendInLoop_state] at hopen
      exact absurd hstate hopen
  · refine ⟨taken ++ [m], [], ms, ?_, hrest, ?_, ?_, fun _ => rfl⟩
    · have hopen : ({ conn with pending := fs } : TcpConnection Unit).state ≠ .kDisconnected := hstate
      rw [sendInLoop_given hopen, List.map_append]
      refine Eq.trans ?_ (stream_snoc _ _ _).symm
      rw [hdata, ← hgiven]
    · rw [List.filter_append, hdirect]
      simp [hm]
    · rw [← hposted, hdropped hstate, List.filter_append]
      simp [hm]

/-- A functor leaves the state as it is or disconnects the connection. -/
theorem runFunctor_state {f : Functor} (hrun : conn.runFunctor callbacks k f = .ok conn') :
    conn'.state = conn.state ∨ conn'.state = .kDisconnected := by
  have hclose : conn.handleClose = .ok conn' → conn'.state = .kDisconnected := fun h => by
    rw [TcpConnection.handleClose] at h
    split_ifs at h
    cases h
    rfl
  cases f with
  | sendInLoop data =>
      cases hrun
      exact .inl (TcpConnection.sendInLoop_state data)
  | shutdownInLoop =>
      cases hrun
      exact .inl TcpConnection.shutdownInLoop_state
  | forceCloseInLoop =>
      rw [TcpConnection.runFunctor, TcpConnection.forceCloseInLoop] at hrun
      split_ifs at hrun
      · cases hrun
        exact .inl rfl
      · exact .inr (hclose hrun)
  | startReadInLoop =>
      cases hrun
      exact .inl TcpConnection.startReadInLoop_state
  | stopReadInLoop =>
      cases hrun
      exact .inl TcpConnection.stopReadInLoop_state
  | writeCompleteCallback =>
      cases hrun
      exact .inl rfl
  | highWaterMarkCallback size =>
      cases hrun
      exact .inl rfl
  | connectDestroyed =>
      rw [TcpConnection.runFunctor, TcpConnection.connectDestroyed] at hrun
      split_ifs at hrun
      · obtain ⟨-, rfl⟩ := TcpConnection.removeChannel_eq_ok.1 hrun
        exact .inr rfl
      · obtain ⟨-, rfl⟩ := TcpConnection.removeChannel_eq_ok.1 hrun
        exact .inl rfl

variable (env) in
/-- The turn of a functor. -/
theorem turn_doPendingFunctor (hstep : conn.step callbacks k .doPendingFunctor = .ok conn') :
    (∀ hs, Sends env hs conn → Sends env hs conn') ∧
      (conn'.state = conn.state ∨ conn'.state = .kDisconnected) := by
  rw [TcpConnection.step] at hstep
  cases hpending : conn.pending with
  | nil =>
      rw [hpending] at hstep
      cases hstep
      exact ⟨fun _ h => h, .inl rfl⟩
  | cons f fs =>
      rw [hpending] at hstep
      have hrun : TcpConnection.runFunctor callbacks k { conn with pending := fs } f = .ok conn' := hstep
      have hstate := runFunctor_state hrun
      refine ⟨fun hs h => ?_, hstate⟩
      cases hf : queuedMessage f with
      | none =>
          have hpopped : Sends env hs { conn with pending := fs } := by
            refine h.of_eq rfl ?_ id
            rw [hpending, List.filterMap_cons_none hf]
          exact hpopped.runFunctor hf hrun
      | some data =>
          have hsend : f = .sendInLoop data := by
            cases f <;> simp [queuedMessage] at hf
            rw [hf]
          subst hsend
          cases hrun
          exact h.sendInLoop hpending

end Network

end AimChat
