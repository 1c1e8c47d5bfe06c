import AimChat.Net.BufferCodec
import AimChat.Net.IMCodec
import AimChat.Net.Sending

/-! # Messages from one connection to another

Two connections with the network between them: one sends frames of the codec, the other gives its input
buffer to the codec, as `ClientSession` does. `dispatched_of_run` is about the second alone: what it
dispatches depends on the bytes that were read and on nothing else. `delivered_of_run` is about both: the
messages dispatched are the first of those that were sent, whole and in order, in every interleaving of the
calls, the writes, the reads and the queues of the two. -/

namespace AimChat

namespace Net

/-! ## The reading side of a connection -/

namespace TcpConnection

variable {σ : Type} {app : App σ} {kernel : Nat → Written} {conn conn' : TcpConnection σ}

/-- What only a read changes: the input buffer, the state of the application and what was read. -/
def input (conn : TcpConnection σ) : Buffer × σ × Bytes := (conn.inputBuffer, conn.app, conn.received)

/-- What a read does to these: the application is given the buffer with the new bytes. -/
def readInput (app : App σ) (i : Buffer × σ × Bytes) (data : Bytes) : Buffer × σ × Bytes :=
  let (s, buf, _) := app.messageCallback i.2.1 (i.1.readFd data)
  (buf, s, i.2.2 ++ data)

@[simp] theorem input_keepRemaining (data : Bytes) (n : Nat) :
    (conn.keepRemaining app data n).input = conn.input := by
  unfold keepRemaining
  dsimp only
  split_ifs <;> rfl

@[simp] theorem input_sendInLoop (data : Bytes) : (conn.sendInLoop app kernel data).input = conn.input := by
  unfold sendInLoop writeThrough write
  dsimp only
  split_ifs
  · rfl
  · cases kernel conn.socket.writes with
    | took n => exact input_keepRemaining _ _
    | failed e =>
        dsimp only
        split_ifs
        · rfl
        · exact input_keepRemaining _ _
  · exact input_keepRemaining _ _

@[simp] theorem input_shutdownInLoop : conn.shutdownInLoop.input = conn.input := by
  unfold shutdownInLoop
  split_ifs <;> rfl

@[simp] theorem input_startReadInLoop : conn.startReadInLoop.input = conn.input := by
  unfold startReadInLoop
  split_ifs <;> rfl

@[simp] theorem input_stopReadInLoop : conn.stopReadInLoop.input = conn.input := by
  unfold stopReadInLoop
  split_ifs <;> rfl

@[simp] theorem input_forceClose : conn.forceClose.input = conn.input := by
  unfold forceClose
  split_ifs <;> rfl

theorem input_perform (a : Action) : (conn.perform app kernel a).input = conn.input := by
  cases a with
  | send data =>
      rw [perform]
      split_ifs
      · exact input_sendInLoop data
      · rfl
  | shutdown =>
      rw [perform]
      split_ifs
      · exact input_shutdownInLoop
      · rfl
  | forceClose => exact input_forceClose
  | forceCloseWithDelay =>
      rw [perform]
      split_ifs <;> rfl
  | startRead => exact input_startReadInLoop
  | stopRead => exact input_stopReadInLoop

theorem input_post (a : Action) : (conn.post a).input = conn.input := by
  cases a with
  | send data =>
      rw [post]
      split_ifs <;> rfl
  | shutdown =>
      rw [post]
      split_ifs <;> rfl
  | forceClose => exact input_forceClose
  | forceCloseWithDelay =>
      rw [post]
      split_ifs <;> rfl
  | startRead => rfl
  | stopRead => rfl

theorem input_foldl_perform (actions : List Action) (conn : TcpConnection σ) :
    (actions.foldl (fun conn a => conn.perform app kernel a) conn).input = conn.input := by
  induction actions generalizing conn with
  | nil => rfl
  | cons a actions ih => exact (ih _).trans (input_perform a)

theorem input_handleWrite : (conn.handleWrite app kernel).input = conn.input := by
  unfold handleWrite write
  split_ifs
  · cases kernel conn.socket.writes with
    | took n =>
        dsimp only [hasWritten, drained]
        split_ifs
        · exact input_shutdownInLoop
        · rfl
        · rfl
        · rfl
    | failed e => rfl
  · rfl

theorem input_handleClose (h : conn.handleClose = .ok conn') : conn'.input = conn.input := by
  rw [handleClose] at h
  split_ifs at h
  cases h
  rfl

/-- A read of bytes is the application's, and every other read leaves these as they are. -/
theorem input_handleRead {incoming : Incoming} (h : conn.handleRead app kernel incoming = .ok conn') :
    conn'.input = conn.input ∨ ∃ waiting, incoming = .bytes waiting ∧
      conn'.input = readInput app conn.input (waiting.take conn.inputBuffer.readvRoom) := by
  cases incoming with
  | failed =>
      cases h
      exact .inl rfl
  | bytes waiting =>
      rw [handleRead] at h
      split_ifs at h
      · exact .inl (input_handleClose h)
      · cases h
        exact .inr ⟨waiting, rfl, input_foldl_perform _ _⟩

theorem input_connectDestroyed (h : conn.connectDestroyed = .ok conn') : conn'.input = conn.input := by
  rw [connectDestroyed] at h
  split_ifs at h
  · obtain ⟨-, rfl⟩ := removeChannel_eq_ok.1 h
    rfl
  · obtain ⟨-, rfl⟩ := removeChannel_eq_ok.1 h
    rfl

theorem input_runFunctor {f : Functor} (h : runFunctor app kernel conn f = .ok conn') :
    conn'.input = conn.input := by
  cases f with
  | sendInLoop data =>
      cases h
      exact input_sendInLoop data
  | shutdownInLoop =>
      cases h
      exact input_shutdownInLoop
  | forceCloseInLoop =>
      rw [runFunctor, forceCloseInLoop] at h
      split_ifs at h
      · cases h
        rfl
      · exact input_handleClose h
  | startReadInLoop =>
      cases h
      exact input_startReadInLoop
  | stopReadInLoop =>
      cases h
      exact input_stopReadInLoop
  | writeCompleteCallback =>
      cases h
      rfl
  | highWaterMarkCallback size =>
      cases h
      rfl
  | connectDestroyed => exact input_connectDestroyed h

theorem input_ite {p : Prop} [Decidable p] {x : Except Fault (TcpConnection σ)}
    (hx : ∀ conn'', x = .ok conn'' → conn''.input = conn.input) (h : (if p then x else .ok conn) = .ok conn') :
    conn'.input = conn.input := by
  split_ifs at h
  · exact hx _ h
  · cases h
    rfl

theorem input_handleEvent {revents : Revents} {incoming : Incoming}
    (h : conn.handleEvent app kernel revents incoming = .ok conn') :
    conn'.input = conn.input ∨ ∃ waiting, incoming = .bytes waiting ∧
      conn'.input = readInput app conn.input (waiting.take conn.inputBuffer.readvRoom) := by
  rw [handleEvent] at h
  obtain ⟨conn₁, hclose, h⟩ := Run.bind_eq_ok.1 h
  obtain ⟨conn₂, hread, h⟩ := Run.bind_eq_ok.1 h
  have h₁ : conn₁.input = conn.input := input_ite (fun _ => input_handleClose) hclose
  have h₃ : conn'.input = conn₂.input := by
    cases h
    split_ifs
    · exact input_handleWrite
    · rfl
  rw [h₃]
  have hbuf : conn₁.inputBuffer = conn.inputBuffer := congrArg Prod.fst h₁
  split_ifs at hread
  · rcases input_handleRead hread with h₂ | ⟨waiting, hw, h₂⟩
    · exact .inl (h₂.trans h₁)
    · rw [h₁, hbuf] at h₂
      exact .inr ⟨waiting, hw, h₂⟩
  · cases hread
    exact .inl h₁

/-- **What an event reads**: nothing, or a part of the bytes that wait, which the application is given. -/
theorem input_step {e : Event} (h : step app kernel conn e = .ok conn') :
    conn'.input = conn.input ∨ ∃ revents waiting, e = .handleEvent revents (.bytes waiting) ∧
      conn'.input = readInput app conn.input (waiting.take conn.inputBuffer.readvRoom) := by
  cases e with
  | perform a =>
      cases h
      exact .inl (input_perform a)
  | post a =>
      cases h
      exact .inl (input_post a)
  | handleEvent revents incoming =>
      rw [step] at h
      split_ifs at h
      · rcases input_handleEvent h with hsame | ⟨waiting, rfl, hread⟩
        · exact .inl hsame
        · exact .inr ⟨revents, waiting, rfl, hread⟩
      · cases h
        exact .inl rfl
  | doPendingFunctor =>
      rw [step] at h
      cases hpending : conn.pending with
      | nil =>
          rw [hpending] at h
          cases h
          exact .inl rfl
      | cons f fs =>
          rw [hpending] at h
          have hrun : conn'.input = input { conn with pending := fs } := input_runFunctor h
          exact .inl hrun
  | delayElapsed =>
      rw [step] at h
      split_ifs at h
      · cases h
        exact .inl input_forceClose
      · cases h
        exact .inl rfl

end TcpConnection

/-! ## A session -/

/-- A session of the codec on its connection: what was dispatched and reported so far, what the handlers
keep, and the calls they made on the connection during this read. -/
structure Session (τ : Type) where
  dispatched : List MessageContainer
  errors : List ErrorCode
  state : τ
  actions : List Action

namespace Session

variable {τ : Type} (lib : CodecLib) (handler : MessageContainer → τ → τ × List Action)

/-- A session to which nothing was sent. -/
def new (state : τ) : Session τ := ⟨[], [], state, []⟩

/-- `messageCallback_` -/
def onMessage (msg : MessageContainer) (s : Session τ) : Session τ :=
  let (state, actions) := handler msg s.state
  ⟨s.dispatched ++ [msg], s.errors, state, s.actions ++ actions⟩

/-- `defaultErrorCallback`: the connection is shut down. -/
def onError (e : ErrorCode) (s : Session τ) : Session τ :=
  { s with errors := s.errors ++ [e], actions := s.actions ++ [.shutdown] }

/-- `IMCodec::onMessage` as the message callback of a connection. -/
def app : App (Session τ) where
  messageCallback s buf :=
    match BufferCodec.onMessage (IMCodec lib) (onMessage handler) onError buf { s with actions := [] } with
    | .ok (buf, s) => (s, buf, s.actions)
    -- no assert fails
    | .error _ => (s, buf, [])

variable {lib handler}

theorem foldl_onMessage (handler : MessageContainer → τ → τ × List Action) (msgs : List MessageContainer)
    (s : Session τ) :
    (msgs.foldl (fun s m => onMessage handler m s) s).dispatched = s.dispatched ++ msgs ∧
      (msgs.foldl (fun s m => onMessage handler m s) s).errors = s.errors := by
  induction msgs generalizing s with
  | nil => exact ⟨(List.append_nil _).symm, rfl⟩
  | cons m msgs ih =>
      obtain ⟨hdispatched, herrors⟩ := ih (onMessage handler m s)
      refine ⟨hdispatched.trans ?_, herrors⟩
      rw [onMessage, List.append_assoc]
      rfl

/-- What the session does with its buffer: the messages of the drained bytes are dispatched. -/
theorem app_messageCallback (lib : CodecLib) (handler : MessageContainer → τ → τ × List Action)
    (s : Session τ) (buf : Buffer) :
    ((app lib handler).messageCallback s buf).2.1.contents = ((IMCodec lib).framer.decode buf.contents).rest ∧
      ((app lib handler).messageCallback s buf).1.dispatched =
        s.dispatched ++ ((IMCodec lib).framer.decode buf.contents).out ∧
      ((app lib handler).messageCallback s buf).1.errors =
        s.errors ++ ((IMCodec lib).framer.decode buf.contents).err.toList := by
  obtain ⟨buf', hcontents, hloop⟩ := BufferCodec.onMessage_decode (IMCodec lib) (onMessage handler) onError buf
    { s with actions := [] }
  obtain ⟨hdispatched, herrors⟩ := foldl_onMessage handler
    ((IMCodec lib).framer.decode buf.contents).out { s with actions := [] }
  rw [app]
  dsimp only
  rw [hloop]
  refine ⟨hcontents, ?_, ?_⟩
  · cases ((IMCodec lib).framer.decode buf.contents).err <;> exact hdispatched
  · cases ((IMCodec lib).framer.decode buf.contents).err with
    | none => exact herrors.trans (List.append_nil _).symm
    | some e => exact congrArg (· ++ [e]) herrors

/-- The session has dispatched the bytes that were read, as far as they are whole frames. -/
structure Drains (lib : CodecLib) (i : Buffer × Session τ × Bytes) : Prop where
  rest : i.1.contents = ((IMCodec lib).framer.decode i.2.2).rest
  dispatched : i.2.1.dispatched = ((IMCodec lib).framer.decode i.2.2).out
  errors : ((IMCodec lib).framer.decode i.2.2).err = none → i.2.1.errors = []

theorem drains_new (state : τ) : Drains lib (Buffer.empty, new state, []) where
  rest := by rw [IMCodec.decode_nil, Buffer.contents_empty]
  dispatched := by rw [IMCodec.decode_nil]; rfl
  errors _ := rfl

/-- One read: draining commutes with appending. -/
theorem Drains.read {i : Buffer × Session τ × Bytes} (h : Drains lib i) (data : Bytes) :
    Drains lib (TcpConnection.readInput (app lib handler) i data) := by
  obtain ⟨hrest, hdispatched, herrors⟩ :=
    app_messageCallback lib handler i.2.1 (i.1.readFd data)
  rw [Buffer.contents_readFd, h.rest] at hrest hdispatched herrors
  have happend := Framing.Framer.decode_append (F := (IMCodec lib).framer) i.2.2 data
  refine ⟨?_, ?_, fun hnone => ?_⟩
  · exact hrest.trans (congrArg Framing.Outcome.rest happend).symm
  · refine hdispatched.trans ?_
    rw [h.dispatched]
    exact (congrArg Framing.Outcome.out happend).symm
  · refine herrors.trans ?_
    have hlast : ((IMCodec lib).framer.decode (((IMCodec lib).framer.decode i.2.2).rest ++ data)).err = none :=
      (congrArg Framing.Outcome.err happend).symm.trans hnone
    rw [h.errors (Framing.Framer.err_eq_none_of_append hnone), hlast]
    rfl

end Session

namespace TcpConnection

variable {τ : Type} {lib : CodecLib} {handler : MessageContainer → τ → τ × List Action}
  {kernel : Nat → Written} {conn : TcpConnection (Session τ)}

theorem drains_of_run {state : τ} {es : List Event}
    (hrun : Run.run (step (Session.app lib handler) kernel) (established (.new state)) es = .ok conn) :
    Session.Drains lib conn.input := by
  refine Run.run_invariant (I := fun conn : TcpConnection (Session τ) => Session.Drains lib conn.input)
    (fun conn e conn' h _ hstep => ?_) (Session.drains_new state) (Run.always_of_forall (fun _ _ => trivial) _ es)
    hrun
  rcases input_step hstep with hsame | ⟨revents, waiting, -, hread⟩
  · rwa [hsame]
  · rw [hread]
    exact h.read _

/-- Draining takes whole frames off the stream. -/
theorem frames_decode (stream : Bytes) :
    ∃ frames, stream = List.flatten frames ++ ((IMCodec lib).framer.decode stream).rest ∧
      List.Forall₂ (IMCodec.Framed lib) frames ((IMCodec lib).framer.decode stream).out := by
  induction stream using Framing.Framer.decode.induct (IMCodec lib).framer with
  | case1 b h =>
      rw [Framing.Framer.decode_more h]
      exact ⟨[], rfl, .nil⟩
  | case2 b e h =>
      rw [Framing.Framer.decode_bad h]
      exact ⟨[], rfl, .nil⟩
  | case3 b n ms h ih =>
      obtain ⟨msg, rfl, -, hn, hframed⟩ := IMCodec.framed_of_front h
      obtain ⟨frames, hstream, hframes⟩ := ih
      rw [Framing.Framer.decode_unit h]
      refine ⟨b.take n :: frames, ?_, .cons hframed hframes⟩
      rw [List.flatten_cons, List.append_assoc, ← hstream, List.take_append_drop]

/-- What draining leaves begins with no whole frame. -/
theorem not_framed_rest {frame : Bytes} {msg : MessageContainer} (hframed : IMCodec.Framed lib frame msg)
    (stream : Bytes) : ¬ frame <+: ((IMCodec lib).framer.decode stream).rest := by
  refine IMCodec.not_prefix_of_front (fun n msgs hunit => ?_) hframed
  have hhead := Framing.Framer.head_rest (F := (IMCodec lib).framer) stream
  rw [hunit] at hhead
  cases herr : ((IMCodec lib).framer.decode stream).err <;> rw [herr] at hhead <;> cases hhead

/-- A front that is an error is a malformed frame. -/
theorem malformed_of_front {buf : Bytes} {e : ErrorCode} (h : (IMCodec lib).front buf = .bad e) :
    IMCodec.Malformed lib buf := by
  have hframed : ∀ n msg, IMCodec.Framed lib (buf.take n) msg → False := by
    intro n msg hframed
    have hunit := IMCodec.isUnit_of_framed hframed (buf.drop n)
    rw [List.take_append_drop] at hunit
    have hhead : (IMCodec lib).framer.head buf = .bad e := h
    rw [hhead] at hunit
    cases hunit
  rw [IMCodec.front_eq] at h
  split_ifs at h with hmin hrange hall
  · exact ⟨by omega, by omega⟩
  · exact ⟨by omega, .inr (.inr ⟨hall, fun msg => hframed _ msg⟩)⟩

/-- **What a session dispatches.** In every run of a connection whose message callback is the codec's, in
whatever pieces the bytes are read and whatever else happens between: the bytes read are whole well-formed
frames, whose messages are those dispatched, in order, followed by the input buffer, which begins with no
whole frame; and unless it begins with a malformed one no error was reported. -/
theorem dispatched_of_run (lib : CodecLib) (handler : MessageContainer → τ → τ × List Action)
    (kernel : Nat → Written) (state : τ) (es : List Event) (conn : TcpConnection (Session τ))
    (hrun : Run.run (step (Session.app lib handler) kernel) (established (.new state)) es = .ok conn) :
    (∃ frames, conn.received = List.flatten frames ++ conn.inputBuffer.contents ∧
        List.Forall₂ (IMCodec.Framed lib) frames conn.app.dispatched) ∧
      (∀ frame msg, IMCodec.Framed lib frame msg → ¬ frame <+: conn.inputBuffer.contents) ∧
      (¬ IMCodec.Malformed lib conn.inputBuffer.contents → conn.app.errors = []) := by
  obtain ⟨hrest, hdispatched, herrors⟩ := drains_of_run hrun
  have hcontents : conn.inputBuffer.contents = ((IMCodec lib).framer.decode conn.received).rest := hrest
  have happ : conn.app.dispatched = ((IMCodec lib).framer.decode conn.received).out := hdispatched
  rw [hcontents, happ]
  refine ⟨frames_decode conn.received, fun frame msg hframed => not_framed_rest hframed _, fun hfine => herrors ?_⟩
  have hhead := Framing.Framer.head_rest (F := (IMCodec lib).framer) conn.received
  cases herr : ((IMCodec lib).framer.decode conn.received).err with
  | none => exact herr
  | some e =>
      rw [herr] at hhead
      exact absurd (malformed_of_front hhead) hfine

/-- A read of a whole frame. -/
theorem dispatched_of_run_one :
    ∃ conn : TcpConnection (Session Unit),
      Run.run (step (Session.app IMCodec.wireLib fun _ s => (s, [])) fun _ => .took 1) (established (.new ()))
          [.handleEvent { pollin := true } (.bytes (IMCodec.send IMCodec.wireLib { cmd := 1000, seq := 7 }))] =
            .ok conn ∧
        (∃ frames, conn.received = List.flatten frames ++ conn.inputBuffer.contents ∧
            List.Forall₂ (IMCodec.Framed IMCodec.wireLib) frames conn.app.dispatched) ∧
          (∀ frame msg, IMCodec.Framed IMCodec.wireLib frame msg →
            ¬ frame <+: conn.inputBuffer.contents) ∧
          (¬ IMCodec.Malformed IMCodec.wireLib conn.inputBuffer.contents → conn.app.errors = []) :=
  ⟨_, rfl, dispatched_of_run IMCodec.wireLib (fun _ s => (s, [])) (fun _ => .took 1) ()
    [.handleEvent { pollin := true } (.bytes (IMCodec.send IMCodec.wireLib { cmd := 1000, seq := 7 }))] _ rfl⟩

end TcpConnection

/-! ## Two connections and the network between them -/

/-- A connection that sends, and the session that its messages go to. -/
structure Link (σ τ : Type) where
  conn : TcpConnection σ
  peer : TcpConnection (Session τ)

/-- An event whose read, if it is one, finds these bytes. -/
def TcpConnection.Event.reading (incoming : Incoming) : TcpConnection.Event → TcpConnection.Event
  | .handleEvent revents _ => .handleEvent revents incoming
  | .perform a => .perform a
  | .post a => .post a
  | .doPendingFunctor => .doPendingFunctor
  | .delayElapsed => .delayElapsed

namespace Link

/-- An event of one of the two; by then the peer's socket holds so many bytes that it has not read. -/
inductive Event
  | conn (e : TcpConnection.Event)
  | peer (e : TcpConnection.Event) (arrived : Nat)

variable {σ τ : Type} (app : App σ) (kernel peerKernel : Nat → Written) (lib : CodecLib)
  (handler : MessageContainer → τ → τ × List Action)

/-- What the peer's socket holds when so many of the bytes on the way have arrived: the end of the stream
behind the last one. -/
def incoming (link : Link σ τ) (arrived : Nat) : Incoming :=
  let waiting := (link.conn.socket.wire.drop link.peer.received.length).take arrived
  if waiting = [] then
    if link.conn.socket.fin ≠ none ∧ link.conn.socket.wire.length ≤ link.peer.received.length then .bytes []
    else .failed
  else .bytes waiting

/-- One event. -/
def step (link : Link σ τ) : Event → Except Fault (Link σ τ)
  | .conn e => (TcpConnection.step app kernel link.conn e).map fun conn => { link with conn := conn }
  | .peer e arrived =>
      (TcpConnection.step (Session.app lib handler) peerKernel link.peer
        (e.reading (link.incoming arrived))).map fun peer => { link with peer := peer }

/-- Both ends have just been established. -/
def established (s : σ) (state : τ) : Link σ τ := ⟨.established s, .established (.new state)⟩

/-- A message that the codec can send: it parses back, and its frame is not too long. -/
def Sendable (msg : MessageContainer) : Prop :=
  (lib.container.serialize msg).length ≤ 64 * 1024 * 1024 - 8 ∧
    lib.container.parse (lib.container.serialize msg) = some msg

/-- The bytes `IMCodec::send` gives to the connection. -/
def Frame (data : Bytes) : Prop := ∃ msg, Sendable lib msg ∧ data = IMCodec.send lib msg

/-- An event at which the connection sends nothing but messages. -/
def Event.Sends (Q : Bytes → Prop) : Event → Prop
  | .conn e => e.Sends Q
  | .peer _ _ => True

variable {app kernel peerKernel lib handler}

/-- What a run of both keeps: each end is in a run of its own, and the peer has read a beginning of what is on
the wire. -/
structure Runs (app : App σ) (kernel peerKernel : Nat → Written) (lib : CodecLib)
    (handler : MessageContainer → τ → τ × List Action) (s : σ) (state : τ) (Q : Bytes → Prop)
    (link : Link σ τ) : Prop where
  conn : ∃ es, (∀ e ∈ es, TcpConnection.Event.Sends Q e) ∧
    Run.run (TcpConnection.step app kernel) (.established s) es = .ok link.conn
  peer : ∃ es, Run.run (TcpConnection.step (Session.app lib handler) peerKernel)
    (.established (.new state)) es = .ok link.peer
  received : link.peer.received <+: link.conn.socket.wire

theorem incoming_eq_bytes {link : Link σ τ} {arrived : Nat} {waiting : Bytes}
    (h : link.incoming arrived = .bytes waiting) :
    waiting <+: link.conn.socket.wire.drop link.peer.received.length := by
  rw [incoming] at h
  split_ifs at h
  · cases h
    exact List.nil_prefix
  · cases h
    exact List.take_prefix _ _

/-- An event of the peer that reads reads what waits for it. -/
theorem reading_eq_handleEvent {e : TcpConnection.Event} {incoming : Incoming} {revents : Revents}
    {waiting : Bytes} (h : e.reading incoming = .handleEvent revents (.bytes waiting)) :
    incoming = .bytes waiting := by
  cases e with
  | perform a => cases h
  | post a => cases h
  | handleEvent revents' incoming' =>
      cases h
      rfl
  | doPendingFunctor => cases h
  | delayElapsed => cases h

/-- The peer reads the next bytes of the wire. -/
theorem received_step {link : Link σ τ} {peer' : TcpConnection (Session τ)} {e : TcpConnection.Event}
    {arrived : Nat} (h : link.peer.received <+: link.conn.socket.wire)
    (hstep : TcpConnection.step (Session.app lib handler) peerKernel link.peer
      (e.reading (link.incoming arrived)) = .ok peer') : peer'.received <+: link.conn.socket.wire := by
  rcases TcpConnection.input_step hstep with hsame | ⟨revents, waiting, hread, hinput⟩
  · have hreceived : peer'.received = link.peer.received := congrArg (fun i => i.2.2) hsame
    rwa [hreceived]
  · have hreceived : peer'.received =
        link.peer.received ++ waiting.take link.peer.inputBuffer.readvRoom := congrArg (fun i => i.2.2) hinput
    have hwaiting := incoming_eq_bytes (reading_eq_handleEvent hread)
    rw [hreceived]
    obtain ⟨rest, hrest⟩ := (List.take_prefix link.peer.inputBuffer.readvRoom waiting).trans hwaiting
    obtain ⟨tail, htail⟩ := h
    rw [← htail, List.drop_left] at hrest
    exact ⟨rest, by rw [List.append_assoc, hrest, htail]⟩

theorem Runs.step {s : σ} {state : τ} {Q : Bytes → Prop} {link link' : Link σ τ} {e : Event}
    (h : Runs app kernel peerKernel lib handler s state Q link) (he : e.Sends Q)
    (hstep : link.step app kernel peerKernel lib handler e = .ok link') :
    Runs app kernel peerKernel lib handler s state Q link' := by
  cases e with
  | conn e =>
      rw [Link.step] at hstep
      cases hconn : TcpConnection.step app kernel link.conn e with
      | error f => rw [hconn] at hstep; cases hstep
      | ok conn' =>
          rw [hconn] at hstep
          cases hstep
          obtain ⟨es, hes, hrun⟩ := h.conn
          refine ⟨⟨es ++ [e], fun e' he' => ?_, Run.run_snoc_eq_ok.2 ⟨link.conn, hrun, hconn⟩⟩, h.peer,
            h.received.trans (TcpConnection.wire_step hconn)⟩
          rcases List.mem_append.1 he' with he' | he'
          · exact hes e' he'
          · rw [List.mem_singleton.1 he']
            exact he
  | peer e arrived =>
      rw [Link.step] at hstep
      cases hpeer : TcpConnection.step (Session.app lib handler) peerKernel link.peer
          (e.reading (link.incoming arrived)) with
      | error f => rw [hpeer] at hstep; cases hstep
      | ok peer' =>
          rw [hpeer] at hstep
          cases hstep
          obtain ⟨es, hrun⟩ := h.peer
          have hreceived : peer'.received <+: link.conn.socket.wire := received_step h.received hpeer
          exact ⟨h.conn, ⟨es ++ [e.reading (link.incoming arrived)],
            Run.run_snoc_eq_ok.2 ⟨link.peer, hrun, hpeer⟩⟩, hreceived⟩

/-- Messages whose frames these are. -/
theorem exists_messages {gs : List Bytes} (h : ∀ data ∈ gs, Frame lib data) :
    ∃ msgs, (∀ msg ∈ msgs, Sendable lib msg) ∧ gs = List.map (IMCodec.send lib) msgs := by
  induction gs with
  | nil => exact ⟨[], by simp, rfl⟩
  | cons data gs ih =>
      obtain ⟨msg, hmsg, rfl⟩ := h data List.mem_cons_self
      obtain ⟨msgs, hmsgs, rfl⟩ := ih fun data hdata => h data (List.mem_cons_of_mem _ hdata)
      refine ⟨msg :: msgs, fun msg' hmsg' => ?_, rfl⟩
      rcases List.mem_cons.1 hmsg' with rfl | hmsg'
      · exact hmsg
      · exact hmsgs msg' hmsg'

/-- What a connection that sends frames was given, and what of it went out, are messages. -/
theorem sent_of_run {conn : TcpConnection σ} {s : σ} {es : List TcpConnection.Event}
    (happ : app.Sends (Frame lib)) (hes : ∀ e ∈ es, TcpConnection.Event.Sends (Frame lib) e)
    (hrun : Run.run (TcpConnection.step app kernel) (.established s) es = .ok conn) :
    ∃ msgs kept, kept.Sublist msgs ∧ (∀ msg ∈ msgs, Sendable lib msg) ∧
      conn.given = IMCodec.stream lib msgs ∧
      conn.socket.wire ++ conn.outputBuffer.contents = IMCodec.stream lib kept ∧
      (¬ TcpConnection.GaveUp kernel conn → kept = msgs) := by
  have hmoves := TcpConnection.run_moves happ hes (fun _ hf => absurd hf List.not_mem_nil) hrun
  have hgives : ∀ xs, TcpConnection.Gives (Frame lib) (.give xs) → Frame lib xs := by
    rintro xs (hquiet | ⟨data, hdata, heq⟩)
    · exact hquiet.elim
    · cases heq
      exact hdata
  obtain ⟨gs, keptBytes, hgs, hbatched⟩ := hmoves.batched hgives rfl Buffer.contents_empty rfl
  obtain ⟨msgs, hmsgs, rfl⟩ := exists_messages hgs
  obtain ⟨kept, hkept, rfl⟩ := List.sublist_map_iff.1 hbatched.sublist
  refine ⟨msgs, kept, hkept, hmsgs, hbatched.given, hbatched.stream, fun hgave => ?_⟩
  have hall := hbatched.lossless fun i hi hdrops => hgave ⟨i, hi, hdrops⟩
  have hlen : kept.length = msgs.length := by
    have := congrArg List.length hall
    rwa [List.length_map, List.length_map] at this
  exact hkept.eq_of_length hlen

/-- **What is sent is dispatched.** Two connections, one of which sends messages of the codec, from whichever
thread, while the other reads what of it has arrived, in whatever pieces, through whatever buffers, with both
doing anything else between. The bytes that went out or wait are whole messages, some of those that were
sent, in order, and all of them until a write fails with `EPIPE` or `ECONNRESET`; the peer has dispatched
exactly those of them whose frames it has read to the end, in order, and no error; and when it has read
everything and nothing waits, it has dispatched all of them. -/
theorem delivered_of_run (app : App σ) (kernel peerKernel : Nat → Written) (lib : CodecLib)
    (handler : MessageContainer → τ → τ × List Action) (s : σ) (state : τ) (es : List Event)
    (link : Link σ τ) (happ : app.Sends (Frame lib)) (hes : ∀ e ∈ es, Event.Sends (Frame lib) e)
    (hrun : Run.run (step app kernel peerKernel lib handler) (established s state) es = .ok link) :
    ∃ msgs kept, kept.Sublist msgs ∧ link.conn.given = IMCodec.stream lib msgs ∧
      link.conn.socket.wire ++ link.conn.outputBuffer.contents = IMCodec.stream lib kept ∧
      (¬ TcpConnection.GaveUp kernel link.conn → kept = msgs) ∧
      link.peer.app.dispatched = IMCodec.completeFrames lib kept link.peer.received.length ∧
      link.peer.app.errors = [] ∧
      (link.peer.received = link.conn.socket.wire → link.conn.outputBuffer.readableBytes = 0 →
        link.peer.app.dispatched = kept) := by
  have hruns : Runs app kernel peerKernel lib handler s state (Frame lib) link :=
    Run.run_invariant (fun _ _ _ h he hstep => h.step he hstep)
      ⟨⟨[], by simp, rfl⟩, ⟨[], rfl⟩, List.prefix_rfl⟩ (Run.always_of_forall_mem hes) hrun
  obtain ⟨ds, hds, hconn⟩ := hruns.conn
  obtain ⟨ds', hpeer⟩ := hruns.peer
  obtain ⟨msgs, kept, hkept, hmsgs, hgiven, hstream, hlossless⟩ := sent_of_run happ hds hconn
  have hframed : ∀ msg ∈ kept, IMCodec.Framed lib (IMCodec.send lib msg) msg := fun msg hmsg => by
    obtain ⟨hsize, hparse⟩ := hmsgs msg (hkept.subset hmsg)
    exact IMCodec.framed_send hsize hparse
  -- the peer has read a beginning of the stream of the messages that were kept
  obtain ⟨rest, hrest⟩ := hruns.received.trans (List.prefix_append _ link.conn.outputBuffer.contents)
  rw [hstream] at hrest
  obtain ⟨-, hdispatched, herrors⟩ := TcpConnection.drains_of_run hpeer
  have hread : link.peer.received = (IMCodec.stream lib kept).take link.peer.received.length := by
    rw [← hrest, List.take_left]
  refine ⟨msgs, kept, hkept, hgiven, hstream, hlossless, ?_, ?_, fun hall hempty => ?_⟩
  · refine hdispatched.trans ?_
    change ((IMCodec lib).framer.decode link.peer.received).out = _
    rw [hread, IMCodec.decode_take_stream hframed, ← hread]
  · refine herrors (Framing.Framer.err_eq_none_of_append (c := rest) ?_)
    change ((IMCodec lib).framer.decode (link.peer.received ++ rest)).err = none
    rw [hrest, IMCodec.decode_stream hframed]
  · have hdone : link.peer.received = IMCodec.stream lib kept := by
      rw [hall, ← hstream, (Buffer.contents_eq_nil_iff _).2 hempty, List.append_nil]
    refine hdispatched.trans ?_
    change ((IMCodec lib).framer.decode link.peer.received).out = _
    rw [hdone, IMCodec.decode_stream hframed]

/-- A message of which the kernel takes twenty bytes, and the peer reads three. -/
theorem delivered_of_run_one :
    let frame := IMCodec.send IMCodec.wireLib { cmd := 1000, seq := 7 }
    let app : App Unit := ⟨fun s buf => (s, buf, []), false, false, 64⟩
    let es : List Event := [.conn (.perform (.send frame)), .peer (.handleEvent { pollin := true } .failed) 3]
    ∃ link : Link Unit Unit,
      Run.run (step app (fun _ => .took 20) (fun _ => .took 1) IMCodec.wireLib fun _ s => (s, []))
          (established () ()) es = .ok link ∧
        ∃ msgs kept, kept.Sublist msgs ∧ link.conn.given = IMCodec.stream IMCodec.wireLib msgs ∧
          link.conn.socket.wire ++ link.conn.outputBuffer.contents =
            IMCodec.stream IMCodec.wireLib kept ∧
          (¬ TcpConnection.GaveUp (fun _ => .took 20) link.conn → kept = msgs) ∧
          link.peer.app.dispatched =
            IMCodec.completeFrames IMCodec.wireLib kept link.peer.received.length ∧
          link.peer.app.errors = [] ∧
          (link.peer.received = link.conn.socket.wire → link.conn.outputBuffer.readableBytes = 0 →
            link.peer.app.dispatched = kept) := by
  intro frame app es
  have hsendable : Sendable IMCodec.wireLib { cmd := 1000, seq := 7 } :=
    ⟨by decide, Protobuf.wire_container (by decide)⟩
  have hes : ∀ e ∈ es, Event.Sends (Frame IMCodec.wireLib) e := by
    intro e he
    rcases List.mem_cons.1 he with rfl | he
    · exact ⟨_, hsendable, rfl⟩
    · rw [List.mem_singleton.1 he]
      trivial
  exact ⟨_, rfl, delivered_of_run app (fun _ => .took 20) (fun _ => .took 1) IMCodec.wireLib
    (fun _ s => (s, [])) () () es _ (fun _ _ _ ha => absurd ha List.not_mem_nil) hes rfl⟩

end Link

end Net

end AimChat
