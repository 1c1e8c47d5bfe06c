import AimChat.Net.GracefulClose

/-! # The life of a connection

An application that never stops reading, as every one in this repository, and a poller that reports the end
of the stream as readable: then no assert fails, the application hears of the connection first and of its
end last, and the channel is taken out of the poller once (`life_of_run`). -/

namespace AimChat

namespace Net

/-- A channel that reads and is watched. -/
def Channel.Live (ch : Channel) : Prop := ch.reading = true ∧ ch.index = .kAdded

namespace Channel.Live

variable {ch : Channel}

theorem update (h : ch.Live) : ch.update = ch := by
  obtain ⟨hreading, hindex⟩ := h
  rw [Channel.update, hindex]
  dsimp only
  rw [isNoneEvent, hreading, if_neg (by simp)]

theorem ensureWriting (h : ch.Live) : ch.ensureWriting.Live := by
  unfold Channel.ensureWriting
  split_ifs
  · exact h
  · have hwriting : Live { ch with writing := true } := h
    rwa [enableWriting, hwriting.update]

theorem disableWriting (h : ch.Live) : ch.disableWriting.Live := by
  have hidle : Live { ch with writing := false } := h
  rwa [Channel.disableWriting, hidle.update]

/-- It is deleted when it asks for nothing any more. -/
theorem disableAll (h : ch.Live) : ch.disableAll = ⟨false, false, .kDeleted⟩ := by
  rw [Channel.disableAll, Channel.update, h.2]
  rfl

end Channel.Live

/-- A call other than `startRead` and `stopRead`. -/
def Action.Plain : Action → Prop
  | .send _ => True
  | .shutdown => True
  | .forceClose => True
  | .forceCloseWithDelay => True
  | .startRead => False
  | .stopRead => False

/-- A functor that neither reads nor destroys. -/
def Functor.Plain : Functor → Prop
  | .sendInLoop _ => True
  | .shutdownInLoop => True
  | .forceCloseInLoop => True
  | .writeCompleteCallback => True
  | .highWaterMarkCallback _ => True
  | .startReadInLoop => False
  | .stopReadInLoop => False
  | .connectDestroyed => False

/-- A callback that a connection may run while it is open. -/
def Callback.WhileOpen : Callback → Prop
  | .message => True
  | .writeComplete => True
  | .highWaterMark _ => True
  | .up => False
  | .down => False
  | .close => False

/-- A callback that was still in the queue when the connection was disconnected. -/
def Callback.Late : Callback → Prop
  | .writeComplete => True
  | .highWaterMark _ => True
  | .message => False
  | .up => False
  | .down => False
  | .close => False

/-- The end of the stream is reported as readable too. -/
def Revents.Plain (revents : Revents) : Prop :=
  revents.pollhup = true → revents.pollin = false → revents.pollpri = false ∧ revents.pollrdhup = false

theorem Functor.Own.plain {f : Functor} (h : f.Own) : f.Plain := by
  cases f with
  | sendInLoop data => exact h.elim
  | shutdownInLoop => exact h.elim
  | startReadInLoop => exact h.elim
  | stopReadInLoop => exact h.elim
  | connectDestroyed => exact h.elim
  | forceCloseInLoop => trivial
  | writeCompleteCallback => trivial
  | highWaterMarkCallback size => trivial

theorem Callback.Late.whileOpen {c : Callback} (h : c.Late) : c.WhileOpen := by
  cases c with
  | up => exact h.elim
  | message => exact h.elim
  | down => exact h.elim
  | close => exact h.elim
  | writeComplete => trivial
  | highWaterMark size => trivial

/-- The application makes plain calls only. -/
def App.Plain {σ : Type} (app : App σ) : Prop :=
  ∀ s buf, ∀ a ∈ (app.messageCallback s buf).2.2, Action.Plain a

namespace TcpConnection

variable {σ : Type} {app : App σ} {kernel : Nat → Written} {conn conn' : TcpConnection σ}

/-! ## Operations that neither open nor close -/

/-- An operation that neither opens nor closes the connection, runs no callback and leaves a live channel
live. -/
structure Stays (conn conn' : TcpConnection σ) : Prop where
  state : conn'.state = .kDisconnected ↔ conn.state = .kDisconnected
  calls : conn'.calls = conn.calls
  live : conn.channel.Live → conn'.channel.Live
  channel : conn.state = .kDisconnected → conn'.channel = conn.channel
  pending : ∃ fs, (∀ f ∈ fs, Functor.Plain f) ∧ conn'.pending = conn.pending ++ fs

theorem Stays.refl : Stays conn conn := ⟨Iff.rfl, rfl, id, fun _ => rfl, [], by simp, by simp⟩

theorem Stays.trans {conn'' : TcpConnection σ} (h : Stays conn conn') (h' : Stays conn' conn'') :
    Stays conn conn'' where
  state := h'.state.trans h.state
  calls := h'.calls.trans h.calls
  live hlive := h'.live (h.live hlive)
  channel hstate := (h'.channel (h.state.2 hstate)).trans (h.channel hstate)
  pending := by
    obtain ⟨fs, hfs, hpending⟩ := h.pending
    obtain ⟨gs, hgs, hpending'⟩ := h'.pending
    refine ⟨fs ++ gs, fun f hf => ?_, by rw [hpending', hpending, List.append_assoc]⟩
    rcases List.mem_append.1 hf with hf | hf
    · exact hfs f hf
    · exact hgs f hf

theorem Queues.plain (h : Queues conn conn') :
    ∃ fs, (∀ f ∈ fs, Functor.Plain f) ∧ conn'.pending = conn.pending ++ fs := by
  obtain ⟨fs, hfs, hpending⟩ := h
  exact ⟨fs, fun f hf => (hfs f hf).plain, hpending⟩

/-- An operation on an open connection. -/
theorem Stays.of_open (hopen : conn.state ≠ .kDisconnected) (hopen' : conn'.state ≠ .kDisconnected)
    (hcalls : conn'.calls = conn.calls) (hlive : conn.channel.Live → conn'.channel.Live)
    (hqueues : Queues conn conn') : Stays conn conn' :=
  ⟨iff_of_false hopen' hopen, hcalls, hlive, fun hstate => absurd hstate hopen, hqueues.plain⟩

@[simp] theorem keepRemaining_calls (data : Bytes) (n : Nat) :
    (conn.keepRemaining app data n).calls = conn.calls := by
  unfold keepRemaining
  dsimp only
  split_ifs <;> rfl

theorem live_keepRemaining (data : Bytes) (n : Nat) (h : conn.channel.Live) :
    (conn.keepRemaining app data n).channel.Live := by
  unfold keepRemaining
  dsimp only
  split_ifs
  · exact h.ensureWriting
  · exact h

theorem sendInLoop_calls (data : Bytes) : (conn.sendInLoop app kernel data).calls = conn.calls := by
  unfold sendInLoop writeThrough write
  dsimp only
  split_ifs
  · rfl
  · cases kernel conn.socket.writes with
    | took n => exact keepRemaining_calls _ _
    | failed e =>
        dsimp only
        split_ifs
        · rfl
        · exact keepRemaining_calls _ _
  · exact keepRemaining_calls _ _

theorem live_sendInLoop (data : Bytes) (h : conn.channel.Live) :
    (conn.sendInLoop app kernel data).channel.Live := by
  unfold sendInLoop writeThrough write
  dsimp only
  split_ifs
  · exact h
  · cases kernel conn.socket.writes with
    | took n => exact live_keepRemaining _ _ h
    | failed e =>
        dsimp only
        split_ifs
        · exact h
        · exact live_keepRemaining _ _ h
  · exact live_keepRemaining _ _ h

theorem stays_sendInLoop (data : Bytes) : Stays conn (conn.sendInLoop app kernel data) := by
  by_cases hstate : conn.state = .kDisconnected
  · rw [sendInLoop, if_pos hstate]
    exact .refl
  · refine .of_open hstate ?_ (sendInLoop_calls data) (live_sendInLoop data) (queues_sendInLoop conn data)
    rwa [sendInLoop_state]

theorem stays_shutdownInLoop : Stays conn conn.shutdownInLoop := by
  unfold shutdownInLoop
  split_ifs
  · exact .refl
  · exact ⟨Iff.rfl, rfl, id, fun _ => rfl, [], by simp, by simp⟩

theorem stays_disconnecting (h : conn.state ≠ .kDisconnected) (delayed : Nat) :
    Stays conn { conn with state := .kDisconnecting, delayed := delayed } :=
  .of_open h (by simp) rfl id (.of_eq rfl)

theorem stays_queueInLoop {f : Functor} (hf : f.Plain) : Stays conn (conn.queueInLoop f) :=
  ⟨Iff.rfl, rfl, id, fun _ => rfl, [f], by simpa using hf, rfl⟩

theorem stays_forceClose : Stays conn conn.forceClose := by
  unfold forceClose
  split_ifs with h
  · refine (stays_disconnecting (ne_kDisconnected_of_or h) conn.delayed).trans (stays_queueInLoop ?_)
    trivial
  · exact .refl

theorem stays_perform {a : Action} (ha : a.Plain) : Stays conn (conn.perform app kernel a) := by
  cases a with
  | send data =>
      rw [perform]
      split_ifs
      · exact stays_sendInLoop data
      · exact .refl
  | shutdown =>
      rw [perform]
      split_ifs with h
      · exact (stays_disconnecting (ne_kDisconnected_of_kConnected h) conn.delayed).trans stays_shutdownInLoop
      · exact .refl
  | forceClose => exact stays_forceClose
  | forceCloseWithDelay =>
      rw [perform]
      split_ifs with h
      · exact stays_disconnecting (ne_kDisconnected_of_or h) _
      · exact .refl
  | startRead => exact ha.elim
  | stopRead => exact ha.elim

theorem stays_foldl_perform {actions : List Action} (hactions : ∀ a ∈ actions, Action.Plain a)
    (conn : TcpConnection σ) :
    Stays conn (actions.foldl (fun conn a => conn.perform app kernel a) conn) := by
  induction actions generalizing conn with
  | nil => exact .refl
  | cons a actions ih =>
      exact (stays_perform (hactions a List.mem_cons_self)).trans
        (ih (fun b hb => hactions b (List.mem_cons_of_mem a hb)) _)

theorem stays_post {a : Action} (ha : a.Plain) : Stays conn (conn.post a) := by
  cases a with
  | send data =>
      rw [post]
      split_ifs
      · exact stays_queueInLoop trivial
      · exact .refl
  | shutdown =>
      rw [post]
      split_ifs with h
      · refine (stays_disconnecting (ne_kDisconnected_of_kConnected h) conn.delayed).trans
          (stays_queueInLoop ?_)
        trivial
      · exact .refl
  | forceClose => exact stays_forceClose
  | forceCloseWithDelay =>
      rw [post]
      split_ifs with h
      · exact stays_disconnecting (ne_kDisconnected_of_or h) _
      · exact .refl
  | startRead => exact ha.elim
  | stopRead => exact ha.elim

theorem handleWrite_calls : (conn.handleWrite app kernel).calls = conn.calls := by
  unfold handleWrite write
  split_ifs
  · cases kernel conn.socket.writes with
    | took n =>
        dsimp only [hasWritten, drained]
        split_ifs
        · exact stays_shutdownInLoop.calls
        · rfl
        · rfl
        · rfl
    | failed e => rfl
  · rfl

theorem live_handleWrite (h : conn.channel.Live) : (conn.handleWrite app kernel).channel.Live := by
  unfold handleWrite write
  split_ifs
  · cases kernel conn.socket.writes with
    | took n =>
        dsimp only [hasWritten, drained]
        split_ifs
        · exact stays_shutdownInLoop.live h.disableWriting
        · exact h.disableWriting
        · exact h
        · exact h
    | failed e => exact h
  · exact h

theorem stays_handleWrite (h : conn.state ≠ .kDisconnected) : Stays conn (conn.handleWrite app kernel) := by
  refine .of_open h ?_ handleWrite_calls live_handleWrite (queues_handleWrite conn)
  rwa [handleWrite_state]

/-! ## The order of the callbacks -/

/-- The callbacks are in order, and the poller and the queue agree with the state. -/
structure Orderly (conn : TcpConnection σ) : Prop where
  pending : ∀ f ∈ conn.pending, f = .connectDestroyed ∨ f.Plain
  opened : conn.state ≠ .kDisconnected →
    conn.channel.Live ∧ .connectDestroyed ∉ conn.pending ∧
      ∃ before, (∀ c ∈ before, Callback.WhileOpen c) ∧ conn.calls = .up :: before
  closed : conn.state = .kDisconnected →
    conn.channel.isNoneEvent = true ∧ ¬ conn.channel.Watched ∧
      conn.pending.count .connectDestroyed = (if conn.channel.index = .kNew then 0 else 1) ∧
      ∃ before after, (∀ c ∈ before, Callback.WhileOpen c) ∧ (∀ c ∈ after, Callback.Late c) ∧
        conn.calls = .up :: before ++ .down :: .close :: after

/-- An operation leaves a connection that is in order. -/
def Goes (x : Except Fault (TcpConnection σ)) : Prop := ∃ conn, x = .ok conn ∧ Orderly conn

namespace Orderly

theorem not_plain_connectDestroyed {fs : List Functor} (hfs : ∀ f ∈ fs, Functor.Plain f) :
    .connectDestroyed ∉ fs := fun hmem => (hfs _ hmem).elim

theorem stays (h : Orderly conn) (hstays : Stays conn conn') : Orderly conn' := by
  obtain ⟨fs, hfs, hpending⟩ := hstays.pending
  refine ⟨fun f hf => ?_, fun hopen => ?_, fun hclosed => ?_⟩
  · rw [hpending] at hf
    rcases List.mem_append.1 hf with hf | hf
    · exact h.pending f hf
    · exact .inr (hfs f hf)
  · obtain ⟨hlive, hmem, before, hbefore, hcalls⟩ := h.opened fun hstate => hopen (hstays.state.2 hstate)
    refine ⟨hstays.live hlive, fun hmem' => ?_, before, hbefore, hstays.calls.trans hcalls⟩
    rw [hpending] at hmem'
    rcases List.mem_append.1 hmem' with hmem' | hmem'
    · exact hmem hmem'
    · exact not_plain_connectDestroyed hfs hmem'
  · have hstate := hstays.state.1 hclosed
    obtain ⟨hnone, hwatched, hcount, before, after, hbefore, hafter, hcalls⟩ := h.closed hstate
    rw [← hstays.channel hstate] at hnone hwatched hcount
    refine ⟨hnone, hwatched, ?_, before, after, hbefore, hafter, hstays.calls.trans hcalls⟩
    rw [hpending, List.count_append, hcount, List.count_eq_zero.2 (not_plain_connectDestroyed hfs),
      Nat.add_zero]

/-- Nothing is reported on a connection that is disconnected. -/
theorem open_of_watched (h : Orderly conn) (hwatched : conn.channel.Watched) :
    conn.state ≠ .kDisconnected := fun hstate => (h.closed hstate).2.1 hwatched

theorem handleClose (h : Orderly conn) (hopen : conn.state ≠ .kDisconnected) :
    ∃ conn', conn.handleClose = .ok conn' ∧ conn'.state = .kDisconnected ∧ Orderly conn' := by
  obtain ⟨hlive, hmem, before, hbefore, hcalls⟩ := h.opened hopen
  refine ⟨_, by rw [TcpConnection.handleClose, if_neg hopen], rfl, fun f hf => ?_, fun hc => absurd rfl hc,
    fun _ => ⟨?_, ?_, ?_, before, [], hbefore, by simp, ?_⟩⟩
  · rcases List.mem_append.1 hf with hf | hf
    · exact h.pending f hf
    · exact .inl (List.mem_singleton.1 hf)
  · simp [queueInLoop, callback, hlive.disableAll, Channel.isNoneEvent]
  · simp [queueInLoop, callback, hlive.disableAll, Channel.Watched]
  · simp [queueInLoop, callback, hlive.disableAll, List.count_eq_zero.2 hmem]
  · simp [queueInLoop, callback, hcalls]

/-- The connection runs one more callback. -/
theorem callback (h : Orderly conn) {c : Callback} (hc : c.Late) : Orderly (conn.callback c) where
  pending := h.pending
  opened hopen := by
    obtain ⟨hlive, hmem, before, hbefore, hcalls⟩ := h.opened hopen
    refine ⟨hlive, hmem, before ++ [c], fun d hd => ?_, ?_⟩
    · rcases List.mem_append.1 hd with hd | hd
      · exact hbefore d hd
      · rw [List.mem_singleton.1 hd]
        exact hc.whileOpen
    · rw [TcpConnection.callback, hcalls]
      rfl
  closed hclosed := by
    obtain ⟨hnone, hwatched, hcount, before, after, hbefore, hafter, hcalls⟩ := h.closed hclosed
    refine ⟨hnone, hwatched, hcount, before, after ++ [c], hbefore, fun d hd => ?_, ?_⟩
    · rcases List.mem_append.1 hd with hd | hd
      · exact hafter d hd
      · rw [List.mem_singleton.1 hd]
        exact hc
    · rw [TcpConnection.callback, hcalls]
      simp

/-- A message arrives: the connection is open, whatever the application makes of its buffer. -/
theorem message (h : Orderly conn) (hopen : conn.state ≠ .kDisconnected) (s : σ) (buf : Buffer)
    (received : Bytes) :
    Orderly (TcpConnection.callback { conn with app := s, inputBuffer := buf, received := received }
      .message) where
  pending := h.pending
  opened _ := by
    obtain ⟨hlive, hmem, before, hbefore, hcalls⟩ := h.opened hopen
    refine ⟨hlive, hmem, before ++ [.message], fun d hd => ?_, ?_⟩
    · rcases List.mem_append.1 hd with hd | hd
      · exact hbefore d hd
      · rw [List.mem_singleton.1 hd]
        trivial
    · rw [TcpConnection.callback, hcalls]
      rfl
  closed hclosed := absurd hclosed hopen

theorem handleRead (happ : app.Plain) (h : Orderly conn) (hopen : conn.state ≠ .kDisconnected)
    (incoming : Incoming) : Goes (conn.handleRead app kernel incoming) := by
  cases incoming with
  | failed => exact ⟨conn, rfl, h⟩
  | bytes waiting =>
      rw [TcpConnection.handleRead]
      split_ifs
      · obtain ⟨conn', hok, -, horderly⟩ := h.handleClose hopen
        exact ⟨conn', hok, horderly⟩
      · exact ⟨_, rfl, (h.message hopen _ _ _).stays (stays_foldl_perform (happ _ _) _)⟩

/-- A write is no matter for a connection that is disconnected: its channel asks for nothing. -/
theorem handleWrite (h : Orderly conn) : Orderly (conn.handleWrite app kernel) := by
  by_cases hstate : conn.state = .kDisconnected
  · have hwriting : conn.channel.writing = false := by
      have hnone := (h.closed hstate).1
      simp only [Channel.isNoneEvent, Bool.and_eq_true, Bool.not_eq_true'] at hnone
      exact hnone.2
    rwa [TcpConnection.handleWrite, hwriting, if_neg (by decide)]
  · exact h.stays (stays_handleWrite hstate)

theorem handleEvent (happ : app.Plain) {revents : Revents} (hrevents : revents.Plain) (h : Orderly conn)
    (hwatched : conn.channel.Watched) (incoming : Incoming) :
    Goes (conn.handleEvent app kernel revents incoming) := by
  have hopen := h.open_of_watched hwatched
  have hread : ∃ conn₁, (if revents.pollhup && !revents.pollin then conn.handleClose else .ok conn) =
        .ok conn₁ ∧ Goes (if revents.pollin || revents.pollpri || revents.pollrdhup then
          conn₁.handleRead app kernel incoming else .ok conn₁) := by
    by_cases hclose : (revents.pollhup && !revents.pollin) = true
    · obtain ⟨conn₁, hok, -, horderly⟩ := h.handleClose hopen
      refine ⟨conn₁, by rw [if_pos hclose, hok], conn₁, if_neg ?_, horderly⟩
      -- a hangup that is not readable reports nothing to read
      simp only [Bool.and_eq_true, Bool.not_eq_true'] at hclose
      obtain ⟨hpri, hrdhup⟩ := hrevents hclose.1 hclose.2
      rw [hclose.2, hpri, hrdhup]
      decide
    · refine ⟨conn, if_neg hclose, ?_⟩
      split_ifs
      · exact h.handleRead happ hopen incoming
      · exact ⟨conn, rfl, h⟩
  obtain ⟨conn₁, hclosed, conn₂, hok, horderly⟩ := hread
  refine ⟨if revents.pollout then conn₂.handleWrite app kernel else conn₂, ?_, ?_⟩
  · exact Run.bind_eq_ok.2 ⟨conn₁, hclosed, Run.bind_eq_ok.2 ⟨conn₂, hok, rfl⟩⟩
  · split_ifs
    · exact horderly.handleWrite
    · exact horderly

/-- The queue without its first functor, when that is not the last one of the connection. -/
theorem popped {f : Functor} {fs : List Functor} (h : Orderly conn) (hpending : conn.pending = f :: fs)
    (hf : f ≠ .connectDestroyed) : Orderly { conn with pending := fs } where
  pending g hg := h.pending g (by rw [hpending]; exact List.mem_cons_of_mem f hg)
  opened hopen := by
    obtain ⟨hlive, hmem, hcalls⟩ := h.opened hopen
    rw [hpending, List.mem_cons, not_or] at hmem
    exact ⟨hlive, hmem.2, hcalls⟩
  closed hclosed := by
    obtain ⟨hnone, hwatched, hcount, hcalls⟩ := h.closed hclosed
    rw [hpending, List.count_cons_of_ne hf] at hcount
    exact ⟨hnone, hwatched, hcount, hcalls⟩

/-- The channel is taken out of the poller by the one `connectDestroyed`. -/
theorem connectDestroyed {fs : List Functor} (h : Orderly conn)
    (hpending : conn.pending = .connectDestroyed :: fs) :
    Goes (TcpConnection.connectDestroyed { conn with pending := fs }) := by
  have hstate : conn.state = .kDisconnected := by
    by_contra hopen
    exact (h.opened hopen).2.1 (by rw [hpending]; exact List.mem_cons_self)
  obtain ⟨hnone, hwatched, hcount, hcalls⟩ := h.closed hstate
  have hzero : fs.count .connectDestroyed = 0 := by
    rw [hpending, List.count_cons_self] at hcount
    split_ifs at hcount
    omega
  refine ⟨{ conn with pending := fs, channel := { conn.channel with index := .kNew } }, ?_, ?_, ?_, ?_⟩
  · rw [TcpConnection.connectDestroyed, if_neg (by simp [hstate])]
    exact removeChannel_eq_ok.2 ⟨hnone, rfl⟩
  · exact fun f hf => h.pending f (by rw [hpending]; exact List.mem_cons_of_mem _ hf)
  · exact fun hopen => absurd hstate hopen
  · exact fun _ => ⟨hnone, by simp [Channel.Watched], by simpa using hzero, hcalls⟩

theorem runFunctor {f : Functor} {fs : List Functor} (h : Orderly conn) (hpending : conn.pending = f :: fs) :
    Goes (runFunctor app kernel { conn with pending := fs } f) := by
  have hplain : f = .connectDestroyed ∨ f.Plain := h.pending f (by rw [hpending]; exact List.mem_cons_self)
  cases f with
  | sendInLoop data => exact ⟨_, rfl, (h.popped hpending (by simp)).stays (stays_sendInLoop data)⟩
  | shutdownInLoop => exact ⟨_, rfl, (h.popped hpending (by simp)).stays stays_shutdownInLoop⟩
  | forceCloseInLoop =>
      rw [TcpConnection.runFunctor, forceCloseInLoop]
      split_ifs with hstate
      · exact ⟨_, rfl, h.popped hpending (by simp)⟩
      · obtain ⟨conn', hok, -, horderly⟩ := (h.popped hpending (by simp)).handleClose hstate
        exact ⟨conn', hok, horderly⟩
  | startReadInLoop => exact (hplain.resolve_left (by simp)).elim
  | stopReadInLoop => exact (hplain.resolve_left (by simp)).elim
  | writeCompleteCallback => exact ⟨_, rfl, (h.popped hpending (by simp)).callback trivial⟩
  | highWaterMarkCallback size => exact ⟨_, rfl, (h.popped hpending (by simp)).callback trivial⟩
  | connectDestroyed => exact h.connectDestroyed hpending

end Orderly

/-- An event without `startRead`, `stopRead` or an end of the stream that is not readable. -/
def Event.Plain : Event → Prop
  | .perform a => a.Plain
  | .post a => a.Plain
  | .handleEvent revents _ => revents.Plain
  | .doPendingFunctor => True
  | .delayElapsed => True

theorem Orderly.step (kernel : Nat → Written) (happ : app.Plain) {e : Event} (he : e.Plain)
    (h : Orderly conn) : Goes (step app kernel conn e) := by
  cases e with
  | perform a => exact ⟨_, rfl, h.stays (stays_perform he)⟩
  | post a => exact ⟨_, rfl, h.stays (stays_post he)⟩
  | handleEvent revents incoming =>
      rw [TcpConnection.step]
      split_ifs with hwatched
      · exact h.handleEvent happ he hwatched incoming
      · exact ⟨conn, rfl, h⟩
  | doPendingFunctor =>
      rw [TcpConnection.step]
      cases hpending : conn.pending with
      | nil => exact ⟨conn, rfl, h⟩
      | cons f fs => exact h.runFunctor hpending
  | delayElapsed =>
      rw [TcpConnection.step]
      split_ifs
      · refine ⟨_, rfl, h.stays (Stays.trans ?_ stays_forceClose)⟩
        exact ⟨Iff.rfl, rfl, id, fun _ => rfl, [], by simp, by simp⟩
      · exact ⟨conn, rfl, h⟩

theorem orderly_established (s : σ) : Orderly (established s) where
  pending _ hf := nomatch hf
  opened _ := ⟨⟨rfl, rfl⟩, by simp [established], [], by simp, rfl⟩
  closed hclosed := nomatch hclosed

theorem goes_run (kernel : Nat → Written) (happ : app.Plain) {es : List Event}
    (hes : ∀ e ∈ es, Event.Plain e) (h : Orderly conn) :
    Goes (Run.run (TcpConnection.step app kernel) conn es) := by
  induction es generalizing conn with
  | nil => exact ⟨conn, rfl, h⟩
  | cons e es ih =>
      obtain ⟨conn', hok, horderly⟩ := h.step kernel happ (hes e List.mem_cons_self)
      obtain ⟨last, hrun, hlast⟩ := ih (fun e' he' => hes e' (List.mem_cons_of_mem e he')) horderly
      exact ⟨last, Run.run_cons_eq_ok.2 ⟨conn', hok, hrun⟩, hlast⟩

/-- **The life of a connection.** Whatever a plain application does, whatever `write` returns and whatever
happens in whichever order, no assert fails. The callbacks begin with the one for the new connection; while
the connection is open only messages, completed writes and full buffers follow; then come `down` and `close`,
once, and after them only what was in the queue already. A connection that is disconnected asks the poller
for nothing, and its channel was taken out or `connectDestroyed` is in the queue, once, to do it. -/
theorem life_of_run (app : App σ) (happ : app.Plain) (kernel : Nat → Written) (s : σ) (es : List Event)
    (hes : ∀ e ∈ es, Event.Plain e) :
    ∃ conn, Run.run (step app kernel) (established s) es = .ok conn ∧
      (conn.state ≠ .kDisconnected →
        ∃ before, (∀ c ∈ before, Callback.WhileOpen c) ∧ conn.calls = .up :: before) ∧
      (conn.state = .kDisconnected →
        (∃ before after, (∀ c ∈ before, Callback.WhileOpen c) ∧ (∀ c ∈ after, Callback.Late c) ∧
          conn.calls = .up :: before ++ .down :: .close :: after) ∧
        conn.channel.isNoneEvent = true ∧ ¬ conn.channel.Watched ∧
        conn.pending.count .connectDestroyed = if conn.channel.index = .kNew then 0 else 1) := by
  obtain ⟨conn, hrun, horderly⟩ := goes_run kernel happ hes (orderly_established s)
  refine ⟨conn, hrun, fun hopen => (horderly.opened hopen).2.2, fun hclosed => ?_⟩
  obtain ⟨hnone, hwatched, hcount, hcalls⟩ := horderly.closed hclosed
  exact ⟨hcalls, hnone, hwatched, hcount⟩

/-- An application that answers what it reads, closed by the other side. -/
theorem life_of_run_echo :
    let app : App Unit := ⟨fun s buf => (s, buf, [.send buf.contents]), true, false, 64⟩
    let es : List Event := [.handleEvent { pollin := true } (.bytes [1, 2]), .doPendingFunctor,
      .handleEvent { pollin := true } (.bytes []), .doPendingFunctor]
    (∀ s buf, ∀ a ∈ (app.messageCallback s buf).2.2, Action.Plain a) ∧ (∀ e ∈ es, Event.Plain e) ∧
      ∃ conn, Run.run (step app fun _ => .took 2) (established ()) es = .ok conn ∧
        (conn.state ≠ .kDisconnected →
          ∃ before, (∀ c ∈ before, Callback.WhileOpen c) ∧ conn.calls = .up :: before) ∧
        (conn.state = .kDisconnected →
          (∃ before after, (∀ c ∈ before, Callback.WhileOpen c) ∧ (∀ c ∈ after, Callback.Late c) ∧
            conn.calls = .up :: before ++ .down :: .close :: after) ∧
          conn.channel.isNoneEvent = true ∧ ¬ conn.channel.Watched ∧
          conn.pending.count .connectDestroyed = if conn.channel.index = .kNew then 0 else 1) := by
  intro app es
  have happ : app.Plain := by
    intro s buf a ha
    rw [List.mem_singleton.1 ha]
    trivial
  have hes : ∀ e ∈ es, Event.Plain e := by
    intro e he
    simp only [es, List.mem_cons, List.not_mem_nil, or_false] at he
    rcases he with rfl | rfl | rfl | rfl
    · exact fun hhup => nomatch hhup
    · trivial
    · exact fun hhup => nomatch hhup
    · trivial
  exact ⟨happ, hes, life_of_run app happ (fun _ => .took 2) () es hes⟩

end TcpConnection

end Net

end AimChat
