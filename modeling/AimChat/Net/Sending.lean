import AimChat.Net.Queued

/-! # The sending side of a connection

A connection is a sender whose channel is the socket: what `write` does not take waits in the output buffer.
`Moves` says what an operation does to the sender; from it the bytes on the wire are, in every run, those that
`sendInLoop` was given (`wire_of_run`). -/

namespace AimChat

namespace Net

namespace TcpConnection

variable {σ : Type} {app : App σ} {kernel : Nat → Written} {conn : TcpConnection σ}

/-- The connection as a sender. -/
def outbox (conn : TcpConnection σ) : Outbox UInt8 where
  offers := conn.socket.writes
  wire := conn.socket.wire
  waiting := conn.outputBuffer.contents
  armed := conn.channel.writing
  given := conn.given
  fin := conn.socket.fin
  closed := conn.state = .kDisconnected

@[simp] theorem outbox_queueInLoop (f : Functor) : (conn.queueInLoop f).outbox = conn.outbox := rfl

@[simp] theorem outbox_queueIf (p : Prop) [Decidable p] (f : Functor) :
    (conn.queueIf p f).outbox = conn.outbox := rfl

@[simp] theorem outbox_callback (c : Callback) : (conn.callback c).outbox = conn.outbox := rfl

theorem outbox_keepRemaining (data : Bytes) (n : Nat) :
    (conn.keepRemaining app data n).outbox = conn.outbox.keep (data.drop n) := by
  unfold keepRemaining Outbox.keep
  rw [List.length_drop]
  by_cases hrem : 0 < data.length - n
  · rw [if_pos hrem, if_pos hrem]
    simp only [outbox, queueIf, Buffer.contents_append, Channel.ensureWriting_writing]
    rfl
  · rw [if_neg hrem, if_neg hrem]

theorem outbox_writeThrough (data : Bytes) :
    (conn.writeThrough app kernel data).outbox = conn.outbox.offer kernel Errno.isFault data := by
  have hoffers : conn.outbox.offers = conn.socket.writes := rfl
  unfold writeThrough write Outbox.offer
  rw [hoffers]
  cases kernel conn.socket.writes with
  | took n =>
      dsimp only
      rw [outbox_keepRemaining, outbox_queueIf]
      -- of more than there is the kernel takes what there is
      rcases Nat.le_total n data.length with hn | hn
      · rw [Nat.min_eq_left hn]
        rfl
      · rw [Nat.min_eq_right hn, List.drop_length, List.drop_of_length_le hn]
        rfl
  | failed e =>
      dsimp only
      split_ifs
      · rfl
      · exact outbox_keepRemaining data 0

/-- `sendInLoop` gives the message to the sender. -/
theorem outbox_sendInLoop (data : Bytes) :
    (conn.sendInLoop app kernel data).outbox =
      Outbox.step kernel Errno.isFault conn.outbox (.give data) := by
  have hidle : (!conn.outbox.armed && conn.outbox.waiting.length == 0) =
      (!conn.channel.writing && conn.outputBuffer.readableBytes == 0) := by
    rw [outbox, Buffer.length_contents]
  by_cases hstate : conn.state = .kDisconnected
  · have hclosed : conn.outbox.closed = true := decide_eq_true hstate
    rw [sendInLoop, if_pos hstate, Outbox.step, if_pos hclosed]
  · have hclosed : ¬ conn.outbox.closed = true := by rwa [outbox, decide_eq_true_eq]
    rw [sendInLoop, if_neg hstate, Outbox.step, if_neg hclosed, Outbox.give]
    dsimp only
    rw [hidle]
    split_ifs
    · exact outbox_writeThrough data
    · exact outbox_keepRemaining data 0

theorem outbox_shutdownInLoop : conn.shutdownInLoop.outbox = conn.outbox.finish := by
  have harmed : conn.outbox.armed = conn.channel.writing := rfl
  rw [shutdownInLoop, Outbox.finish, harmed]
  split_ifs <;> rfl

@[simp] theorem outbox_startReadInLoop : conn.startReadInLoop.outbox = conn.outbox := by
  unfold startReadInLoop
  split_ifs
  · rw [outbox, outbox, Channel.enableReading_writing]
  · rfl

@[simp] theorem outbox_stopReadInLoop : conn.stopReadInLoop.outbox = conn.outbox := by
  unfold stopReadInLoop
  split_ifs
  · rw [outbox, outbox, Channel.disableReading_writing]
  · rfl

/-- A connection that begins to disconnect is the same sender. -/
theorem outbox_disconnecting (h : conn.state ≠ .kDisconnected) :
    outbox { conn with state := .kDisconnecting } = conn.outbox := by
  unfold outbox
  simp [h]

/-- A connection that is disconnected is a closed sender. -/
theorem outbox_disconnected :
    outbox { conn with state := .kDisconnected, channel := conn.channel.disableAll } =
      { conn.outbox with armed := false, closed := true } := by
  simp [outbox]

@[simp] theorem outbox_forceClose : conn.forceClose.outbox = conn.outbox := by
  unfold forceClose
  split_ifs with h
  · exact outbox_disconnecting (ne_kDisconnected_of_or h)
  · rfl

/-- A drained connection is no longer armed, and has announced the end if it is disconnecting. -/
theorem outbox_drained (app : App σ) (kernel : Nat → Written) (conn : TcpConnection σ) :
    (conn.drained app).outbox = { conn.outbox with armed := false } ∨
      conn.state = .kDisconnecting ∧
        (conn.drained app).outbox =
          Outbox.step kernel Errno.isFault { conn.outbox with armed := false } .finish := by
  have hcore : outbox { conn with channel := conn.channel.disableWriting } =
      { conn.outbox with armed := false } := by
    rw [outbox, outbox, Channel.disableWriting_writing]
  unfold drained
  dsimp only
  split_ifs with hstate
  · refine .inr ⟨hstate, ?_⟩
    rw [outbox_shutdownInLoop, outbox_queueIf, hcore]
    rfl
  · refine .inl ?_
    rw [outbox_queueIf, hcore]

theorem outbox_hasWritten (app : App σ) (kernel : Nat → Written) (conn : TcpConnection σ) (n : Nat)
    (hwriting : conn.channel.writing = true) :
    (conn.hasWritten app n).outbox =
        { conn.outbox with
          waiting := conn.outbox.waiting.drop n
          armed := !decide (0 < n ∧ (conn.outbox.waiting.drop n).length = 0) } ∨
      conn.state = .kDisconnecting ∧
        (conn.hasWritten app n).outbox =
          Outbox.step kernel Errno.isFault
            { conn.outbox with
              waiting := conn.outbox.waiting.drop n
              armed := !decide (0 < n ∧ (conn.outbox.waiting.drop n).length = 0) } .finish := by
  have hlen : (conn.outbox.waiting.drop n).length = (conn.outputBuffer.retrieve n).readableBytes := by
    rw [← Buffer.length_contents, Buffer.contents_retrieve]
    rfl
  have hcore : outbox { conn with outputBuffer := conn.outputBuffer.retrieve n } =
      { conn.outbox with waiting := conn.outbox.waiting.drop n } := by
    rw [outbox, outbox, Buffer.contents_retrieve]
  unfold hasWritten
  dsimp only
  rw [hlen]
  split_ifs with hn hempty
  · have hdrained := outbox_drained app kernel { conn with outputBuffer := conn.outputBuffer.retrieve n }
    rw [hcore] at hdrained
    simpa only [hn, hempty, and_self, decide_true, Bool.not_true] using hdrained
  · refine .inl ?_
    rw [hcore]
    simp only [hempty, and_false, decide_false, Bool.not_false]
    rw [← hwriting]
    rfl
  · refine .inl ?_
    have hzero : n = 0 := by omega
    simp only [hzero, Nat.lt_irrefl, false_and, decide_false, Bool.not_false, List.drop_zero]
    rw [← hwriting]
    rfl

/-- A flush of the sender, and the end if the connection is disconnecting and drained. -/
theorem outbox_handleWrite (app : App σ) (kernel : Nat → Written) (conn : TcpConnection σ) :
    (conn.handleWrite app kernel).outbox = Outbox.step kernel Errno.isFault conn.outbox .flush ∨
      conn.state = .kDisconnecting ∧
        (conn.handleWrite app kernel).outbox =
          Outbox.step kernel Errno.isFault (Outbox.step kernel Errno.isFault conn.outbox .flush)
            .finish := by
  have harmed : conn.outbox.armed = conn.channel.writing := rfl
  have hoffers : conn.outbox.offers = conn.socket.writes := rfl
  have hwaiting : conn.outbox.waiting = conn.outputBuffer.contents := rfl
  have hdrop : ∀ n, conn.outputBuffer.contents.drop (min n conn.outputBuffer.contents.length) =
      conn.outputBuffer.contents.drop n := by
    intro n
    rcases Nat.le_total n conn.outputBuffer.contents.length with hn | hn
    · rw [Nat.min_eq_left hn]
    · rw [Nat.min_eq_right hn, List.drop_length, List.drop_of_length_le hn]
  simp only [handleWrite, Outbox.step, Outbox.flush, harmed, hoffers, hwaiting]
  split_ifs with hwriting
  · rw [write]
    cases kernel conn.socket.writes with
    | failed e => exact .inl rfl
    | took n =>
        let socket : Socket :=
          { conn.socket with
            writes := conn.socket.writes + 1
            wire := conn.socket.wire ++ conn.outputBuffer.contents.take n }
        have hwritten := outbox_hasWritten app kernel { conn with socket := socket }
          (min n conn.outputBuffer.contents.length) hwriting
        simp only [outbox, hdrop] at hwritten
        exact hwritten
  · exact .inl rfl

/-- Nothing is given but messages that meet `Q`. -/
def Gives (Q : Bytes → Prop) (e : Outbox.Event UInt8) : Prop := e.Quiet ∨ ∃ data, Q data ∧ e = .give data

/-- Only a connected connection is given anything. -/
def Allowed (Q : Bytes → Prop) (conn : TcpConnection σ) (e : Outbox.Event UInt8) : Prop :=
  e.Quiet ∨ conn.state = .kConnected ∧ Gives Q e

/-- What an operation does to the sender. -/
def Moves (kernel : Nat → Written) (Q : Bytes → Prop) (conn conn' : TcpConnection σ) : Prop :=
  Outbox.Moves kernel Errno.isFault (Allowed Q conn) conn.outbox conn'.outbox ∧
    (conn'.state = .kConnected → conn.state = .kConnected)

variable {Q : Bytes → Prop}

theorem Moves.refl : Moves kernel Q conn conn := ⟨Outbox.Moves.refl, id⟩

theorem Moves.trans {conn' conn'' : TcpConnection σ} (h : Moves kernel Q conn conn')
    (h' : Moves kernel Q conn' conn'') : Moves kernel Q conn conn'' :=
  ⟨h.1.trans (h'.1.mono fun _ he => he.imp_right fun he => ⟨h.2 he.1, he.2⟩),
    fun hstate => h.2 (h'.2 hstate)⟩

theorem Moves.of_eq {conn' : TcpConnection σ} (h : conn'.outbox = conn.outbox)
    (hstate : conn'.state = .kConnected → conn.state = .kConnected) : Moves kernel Q conn conn' :=
  ⟨h ▸ Outbox.Moves.refl, hstate⟩

theorem Moves.of_quiet {conn' : TcpConnection σ} {e : Outbox.Event UInt8} (he : e.Quiet)
    (h : conn'.outbox = Outbox.step kernel Errno.isFault conn.outbox e)
    (hstate : conn'.state = .kConnected → conn.state = .kConnected) : Moves kernel Q conn conn' :=
  ⟨h ▸ Outbox.Moves.single (.inl he), hstate⟩

theorem moves_perform {a : Action} (ha : a.Sends Q) : Moves kernel Q conn (conn.perform app kernel a) := by
  cases a with
  | send data =>
      rw [perform]
      split_ifs with h
      · refine ⟨?_, fun _ => h⟩
        rw [outbox_sendInLoop]
        exact Outbox.Moves.single (.inr ⟨h, .inr ⟨data, ha, rfl⟩⟩)
      · exact Moves.refl
  | shutdown =>
      rw [perform]
      split_ifs with h
      · refine Moves.of_quiet (e := .finish) trivial ?_ fun _ => h
        rw [outbox_shutdownInLoop, outbox_disconnecting (ne_kDisconnected_of_kConnected h)]
        rfl
      · exact Moves.refl
  | forceClose => exact Moves.of_eq outbox_forceClose fun h => absurd h forceClose_state_ne
  | forceCloseWithDelay =>
      rw [perform]
      split_ifs with h
      · exact Moves.of_eq (outbox_disconnecting (ne_kDisconnected_of_or h)) fun hstate => by cases hstate
      · exact Moves.refl
  | startRead => exact Moves.of_eq outbox_startReadInLoop fun h => by rwa [perform, startReadInLoop_state] at h
  | stopRead => exact Moves.of_eq outbox_stopReadInLoop fun h => by rwa [perform, stopReadInLoop_state] at h

theorem moves_foldl_perform {actions : List Action} (hactions : ∀ a ∈ actions, Action.Sends Q a)
    (conn : TcpConnection σ) :
    Moves kernel Q conn (actions.foldl (fun conn a => conn.perform app kernel a) conn) := by
  induction actions generalizing conn with
  | nil => exact Moves.refl
  | cons a actions ih =>
      exact (moves_perform (hactions a List.mem_cons_self)).trans
        (ih (fun b hb => hactions b (List.mem_cons_of_mem a hb)) _)

theorem moves_handleClose {conn' : TcpConnection σ} (h : conn.handleClose = .ok conn') :
    Moves kernel Q conn conn' := by
  rw [handleClose] at h
  split_ifs at h
  cases h
  refine Moves.of_quiet (e := .close) trivial ?_ fun hstate => by cases hstate
  rw [outbox_queueInLoop, outbox_callback, outbox_callback]
  exact outbox_disconnected

theorem moves_handleRead (happ : app.Sends Q) {conn' : TcpConnection σ} {incoming : Incoming}
    (h : conn.handleRead app kernel incoming = .ok conn') : Moves kernel Q conn conn' := by
  cases incoming with
  | failed =>
      cases h
      exact Moves.refl
  | bytes waiting =>
      rw [handleRead] at h
      split_ifs at h
      · exact moves_handleClose h
      · cases h
        refine Moves.trans ?_ (moves_foldl_perform (happ _ _) _)
        exact Moves.of_eq rfl id

theorem moves_handleWrite : Moves kernel Q conn (conn.handleWrite app kernel) := by
  refine ⟨?_, fun hstate => by rwa [handleWrite_state] at hstate⟩
  rcases outbox_handleWrite app kernel conn with h | ⟨-, h⟩
  · rw [h]
    exact Outbox.Moves.single (.inl trivial)
  · rw [h]
    exact (Outbox.Moves.single (.inl trivial)).trans (Outbox.Moves.single (.inl trivial))

/-- What an event does that may be left out. -/
theorem moves_ite {p : Prop} [Decidable p] {x : Except Fault (TcpConnection σ)} {conn' : TcpConnection σ}
    (hx : ∀ conn'', x = .ok conn'' → Moves kernel Q conn conn'') (h : (if p then x else .ok conn) = .ok conn') :
    Moves kernel Q conn conn' := by
  split_ifs at h
  · exact hx _ h
  · cases h
    exact Moves.refl

theorem moves_handleEvent (happ : app.Sends Q) {conn' : TcpConnection σ} {revents : Revents} {incoming : Incoming}
    (h : conn.handleEvent app kernel revents incoming = .ok conn') : Moves kernel Q conn conn' := by
  rw [handleEvent] at h
  obtain ⟨conn₁, hclose, h⟩ := Run.bind_eq_ok.1 h
  obtain ⟨conn₂, hread, h⟩ := Run.bind_eq_ok.1 h
  have h₁ : Moves kernel Q conn conn₁ := moves_ite (fun _ => moves_handleClose) hclose
  have h₂ : Moves kernel Q conn₁ conn₂ := moves_ite (fun _ => moves_handleRead happ) hread
  have h₃ : (if revents.pollout then conn₂.handleWrite app kernel else conn₂) = conn' := Except.ok.inj h
  rw [← h₃]
  split_ifs
  · exact (h₁.trans h₂).trans moves_handleWrite
  · exact h₁.trans h₂

theorem moves_forceCloseInLoop {conn' : TcpConnection σ} (h : conn.forceCloseInLoop = .ok conn') :
    Moves kernel Q conn conn' := by
  rw [forceCloseInLoop] at h
  split_ifs at h
  · cases h
    exact Moves.refl
  · exact moves_handleClose h

theorem moves_removeChannel {conn' : TcpConnection σ} (h : conn.removeChannel = .ok conn') :
    Moves kernel Q conn conn' := by
  obtain ⟨-, rfl⟩ := removeChannel_eq_ok.1 h
  exact Moves.of_eq rfl id

theorem moves_connectDestroyed {conn' : TcpConnection σ} (h : conn.connectDestroyed = .ok conn') :
    Moves kernel Q conn conn' := by
  rw [connectDestroyed] at h
  split_ifs at h with hstate
  · refine Moves.trans ?_ (moves_removeChannel h)
    refine Moves.of_quiet (e := .close) trivial ?_ fun _ => hstate
    rw [outbox_callback]
    exact outbox_disconnected
  · exact moves_removeChannel h

/-- A functor gives nothing unless it is a queued message. -/
theorem moves_runFunctor {conn' : TcpConnection σ} {f : Functor} (hf : ∀ data, f ≠ .sendInLoop data)
    (h : runFunctor app kernel conn f = .ok conn') : Moves kernel Q conn conn' := by
  cases f with
  | sendInLoop data => exact absurd rfl (hf data)
  | shutdownInLoop =>
      cases h
      exact Moves.of_quiet (e := .finish) trivial outbox_shutdownInLoop (by simp)
  | forceCloseInLoop => exact moves_forceCloseInLoop h
  | startReadInLoop =>
      cases h
      exact Moves.of_eq outbox_startReadInLoop (by simp)
  | stopReadInLoop =>
      cases h
      exact Moves.of_eq outbox_stopReadInLoop (by simp)
  | writeCompleteCallback =>
      cases h
      exact Moves.of_eq rfl id
  | highWaterMarkCallback size =>
      cases h
      exact Moves.of_eq rfl id
  | connectDestroyed => exact moves_connectDestroyed h

/-- A call in another thread gives nothing yet. -/
theorem moves_post (a : Action) : Moves kernel Q conn (conn.post a) := by
  cases a with
  | send data =>
      rw [post]
      split_ifs with h
      · exact Moves.of_eq rfl id
      · exact Moves.refl
  | shutdown =>
      rw [post]
      split_ifs with h
      · exact Moves.of_eq (outbox_disconnecting (ne_kDisconnected_of_kConnected h)) fun _ => h
      · exact Moves.refl
  | forceClose => exact Moves.of_eq outbox_forceClose fun h => absurd h forceClose_state_ne
  | forceCloseWithDelay =>
      rw [post]
      split_ifs with h
      · exact Moves.of_eq (outbox_disconnecting (ne_kDisconnected_of_or h)) fun hstate => by cases hstate
      · exact Moves.refl
  | startRead => exact Moves.of_eq rfl id
  | stopRead => exact Moves.of_eq rfl id

/-- An event gives nothing but what the connected connection is given, unless it is the turn of a queued
message. -/
theorem moves_step (happ : app.Sends Q) {conn' : TcpConnection σ} {e : Event} (he : e.Sends Q)
    (hqueued : e = .doPendingFunctor → ∀ data, conn.pending.head? ≠ some (.sendInLoop data))
    (h : step app kernel conn e = .ok conn') : Moves kernel Q conn conn' := by
  cases e with
  | perform a =>
      cases h
      exact moves_perform he
  | post a =>
      cases h
      exact moves_post a
  | handleEvent revents incoming =>
      rw [step] at h
      exact moves_ite (fun _ => moves_handleEvent happ) h
  | doPendingFunctor =>
      rw [step] at h
      cases hpending : conn.pending with
      | nil =>
          rw [hpending] at h
          cases h
          exact Moves.refl
      | cons f fs =>
          rw [hpending] at h
          have hf : ∀ data, f ≠ .sendInLoop data := fun data hdata =>
            hqueued rfl data (by rw [hpending, hdata]; rfl)
          refine Moves.trans ?_ (moves_runFunctor hf h)
          exact Moves.of_eq rfl id
  | delayElapsed =>
      rw [step] at h
      split_ifs at h
      · cases h
        exact Moves.of_eq outbox_forceClose fun hstate => absurd hstate forceClose_state_ne
      · cases h
        exact Moves.refl

/-- **The connection is a sender.** Whatever happens to a connection happens to the sender too. -/
theorem step_moves (happ : app.Sends Q) {conn' : TcpConnection σ} {e : Event} (he : e.Sends Q)
    (hpending : ∀ f ∈ conn.pending, Functor.Sends Q f) (h : step app kernel conn e = .ok conn') :
    Outbox.Moves kernel Errno.isFault (Gives Q) conn.outbox conn'.outbox := by
  by_cases hturn : ∃ data fs, e = .doPendingFunctor ∧ conn.pending = .sendInLoop data :: fs
  · obtain ⟨data, fs, rfl, hqueue⟩ := hturn
    have hdata : Q data := hpending (.sendInLoop data) (by rw [hqueue]; exact List.mem_cons_self)
    rw [step, hqueue] at h
    cases h
    rw [outbox_sendInLoop]
    exact Outbox.Moves.single (.inr ⟨data, hdata, rfl⟩)
  · refine (moves_step happ he (fun hturn' data hhead => hturn ?_) h).1.mono fun _ hallowed => ?_
    · obtain ⟨fs, hfs⟩ := List.head?_eq_some_iff.1 hhead
      exact ⟨data, fs, hturn', hfs⟩
    · exact hallowed.elim .inl And.right

/-- What the kernel took stays taken. -/
theorem wire_step {conn' : TcpConnection σ} {e : Event} (h : step app kernel conn e = .ok conn') :
    conn.socket.wire <+: conn'.socket.wire := by
  have hmoves : Outbox.Moves kernel Errno.isFault (Gives fun _ => True) conn.outbox conn'.outbox :=
    step_moves (fun _ _ a _ => a.sends_true) e.sends_true (fun f _ => f.sends_true) h
  exact hmoves.wire_mono

/-- A step queues no message but those that meet `Q`. -/
theorem sends_pending_step {conn' : TcpConnection σ} {e : Event} (he : e.Sends Q)
    (hpending : ∀ f ∈ conn.pending, Functor.Sends Q f) (h : step app kernel conn e = .ok conn') :
    ∀ f ∈ conn'.pending, Functor.Sends Q f := by
  intro f hf
  rcases queued_step h f hf with hf | hf | rfl | ⟨a, rfl, hf⟩
  · exact hpending f hf
  · exact hf.sends
  · trivial
  · exact Action.Sends.posted he hf

/-- Whatever happens in a run happens to the sender too. -/
theorem run_moves (happ : app.Sends Q) {conn' : TcpConnection σ} {es : List Event}
    (hes : ∀ e ∈ es, Event.Sends Q e) (hpending : ∀ f ∈ conn.pending, Functor.Sends Q f)
    (hrun : Run.run (step app kernel) conn es = .ok conn') :
    Outbox.Moves kernel Errno.isFault (Gives Q) conn.outbox conn'.outbox := by
  induction es generalizing conn with
  | nil =>
      cases hrun
      exact Outbox.Moves.refl
  | cons e es ih =>
      obtain ⟨conn'', hstep, hrest⟩ := Run.run_cons_eq_ok.1 hrun
      have he := hes e List.mem_cons_self
      exact (step_moves happ he hpending hstep).trans
        (ih (fun e' he' => hes e' (List.mem_cons_of_mem e he')) (sends_pending_step he hpending hstep) hrest)

/-- A run from a new connection, whatever is sent. -/
theorem run_moves_established {s : σ} {es : List Event} {conn : TcpConnection σ}
    (hrun : Run.run (step app kernel) (established s) es = .ok conn) :
    Outbox.Moves kernel Errno.isFault (Gives fun _ => True) (established s).outbox conn.outbox :=
  run_moves (fun _ _ a _ => a.sends_true) (fun e _ => e.sends_true) (fun _ hf => nomatch hf) hrun

/-- A write failed for which `sendInLoop` gives a message up. -/
def GaveUp (kernel : Nat → Written) (conn : TcpConnection σ) : Prop :=
  ∃ i < conn.socket.writes, Outbox.DropsAt kernel Errno.isFault i

/-- A new connection has nothing to write. -/
theorem armed_established (s : σ) : (established s).outbox.Armed := by
  have hopen : (established s).outbox.closed = false := rfl
  have hidle : (established s).outbox.armed = false := rfl
  rw [Outbox.Armed, hopen, hidle, if_neg (by decide)]
  exact iff_of_false (by decide) (fun h => h Buffer.contents_empty)

/-- Until a message is given up, nothing is lost or reordered. -/
theorem wire_append_contents {s : σ} {es : List Event} {conn : TcpConnection σ}
    (hrun : Run.run (step app kernel) (established s) es = .ok conn) (hgave : ¬ GaveUp kernel conn) :
    conn.socket.wire ++ conn.outputBuffer.contents = conn.given :=
  (run_moves_established hrun).kept (fun _ => Buffer.contents_empty) fun i hi hdrops => hgave ⟨i, hi, hdrops⟩

/-- A connection that is not disconnected waits for the socket exactly when there is something to write. -/
theorem writing_iff_of_run {s : σ} {es : List Event} {conn : TcpConnection σ}
    (hrun : Run.run (step app kernel) (established s) es = .ok conn) (hstate : conn.state ≠ .kDisconnected) :
    conn.channel.writing = true ↔ conn.outputBuffer.readableBytes ≠ 0 := by
  have harmed := (run_moves_established hrun).armed (armed_established s)
  rw [Outbox.Armed, if_neg (by simpa [outbox] using hstate)] at harmed
  rw [← Buffer.length_contents, ne_eq, List.length_eq_zero_iff]
  exact harmed

/-- **What is sent arrives.** In every run of a connection, whatever the poller reports, however little each
`write` takes and whichever threads the calls come out of: until a write fails with `EPIPE` or `ECONNRESET`
the bytes the kernel took, followed by the output buffer, are the bytes given to `sendInLoop`, in order; with
a socket that takes nothing after such an error the kernel has a beginning of them in any case; and as long
as the connection is not disconnected it waits for the socket exactly when there is something to write. -/
theorem wire_of_run (app : App σ) (kernel : Nat → Written) (s : σ) (es : List Event) (conn : TcpConnection σ)
    (hrun : Run.run (step app kernel) (established s) es = .ok conn) :
    (¬ GaveUp kernel conn → conn.socket.wire ++ conn.outputBuffer.contents = conn.given) ∧
      (Outbox.Sticky kernel Errno.isFault → conn.socket.wire <+: conn.given) ∧
      (conn.state ≠ .kDisconnected →
        (conn.channel.writing = true ↔ conn.outputBuffer.readableBytes ≠ 0)) := by
  refine ⟨wire_append_contents hrun, fun hsticky => ?_, writing_iff_of_run hrun⟩
  exact (run_moves_established hrun).wire_prefix_given hsticky (fun _ => Buffer.contents_empty) List.prefix_rfl

/-- Two messages of which the kernel takes a byte at a time, and the end. -/
theorem wire_of_run_two :
    ∃ conn : TcpConnection Unit,
      Run.run (step ⟨fun s buf => (s, buf, []), false, false, 64⟩ fun _ => .took 1) (established ())
          [.perform (.send [1, 2]), .perform (.send [3]), .perform .shutdown] = .ok conn ∧
        (¬ GaveUp (fun _ => .took 1) conn → conn.socket.wire ++ conn.outputBuffer.contents = conn.given) ∧
          (Outbox.Sticky (fun _ => .took 1) Errno.isFault → conn.socket.wire <+: conn.given) ∧
          (conn.state ≠ .kDisconnected →
            (conn.channel.writing = true ↔ conn.outputBuffer.readableBytes ≠ 0)) :=
  ⟨_, rfl, wire_of_run ⟨fun s buf => (s, buf, []), false, false, 64⟩ (fun _ => .took 1) ()
    [.perform (.send [1, 2]), .perform (.send [3]), .perform .shutdown] _ rfl⟩

end TcpConnection

end Net

end AimChat
