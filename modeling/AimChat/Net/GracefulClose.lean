import AimChat.Net.Sending

/-! # Closing a connection

`shutdown` sends the end of the stream only once the output buffer is empty. When every call is made in
the thread of the loop that end stands behind everything that was given, and nothing is written after it
(`shutdown_of_run`); a connection that is disconnecting always has something left that will end it
(`closing_of_run`). -/

namespace AimChat

namespace Net

/-- The functors that do not come out of another thread. -/
def Functor.InLoop : Functor → Prop
  | .writeCompleteCallback => True
  | .highWaterMarkCallback _ => True
  | .forceCloseInLoop => True
  | .connectDestroyed => True
  | .sendInLoop _ => False
  | .shutdownInLoop => False
  | .startReadInLoop => False
  | .stopReadInLoop => False

theorem Functor.Own.inLoop {f : Functor} (h : f.Own) : f.InLoop := by
  cases f <;> trivial

namespace TcpConnection

variable {σ : Type} {app : App σ} {kernel : Nat → Written} {conn conn' : TcpConnection σ}

/-! ## The end stands behind everything -/

/-- Nothing came out of another thread, and where the end was sent nothing waits and nothing can be given
any more. -/
structure Graceful (conn : TcpConnection σ) : Prop where
  pending : ∀ f ∈ conn.pending, Functor.InLoop f
  armed : conn.outbox.Armed
  fin : conn.socket.fin ≠ none →
    conn.state ≠ .kConnected ∧ conn.outbox.Finished ∧ conn.outbox.waiting = []

namespace Graceful

theorem of_queues (h : Graceful conn) (hqueues : Queues conn conn') :
    ∀ f ∈ conn'.pending, Functor.InLoop f := by
  obtain ⟨fs, hfs, hpending⟩ := hqueues
  intro f hf
  rw [hpending] at hf
  rcases List.mem_append.1 hf with hf | hf
  · exact h.pending f hf
  · exact (hfs f hf).inLoop

theorem fin_eq_none (h : Graceful conn) (hstate : conn.state = .kConnected) : conn.socket.fin = none := by
  by_contra hfin
  exact (h.fin hfin).1 hstate

/-- An operation that leaves the sender as it is. -/
theorem of_eq (h : Graceful conn) (hqueues : Queues conn conn') (houtbox : conn'.outbox = conn.outbox)
    (hstate : conn'.state = .kConnected → conn.state = .kConnected) : Graceful conn' where
  pending := h.of_queues hqueues
  armed := houtbox ▸ h.armed
  fin hfin := by
    have hsame : conn'.socket.fin = conn.socket.fin := congrArg Outbox.fin houtbox
    obtain ⟨hne, hfinished, hwaiting⟩ := h.fin (hsame ▸ hfin)
    exact ⟨fun hc => hne (hstate hc), houtbox ▸ hfinished, houtbox ▸ hwaiting⟩

/-- The end is sent by a connection that is open. -/
theorem finish (h : Graceful conn) (hqueues : Queues conn conn') (hopen : conn.state ≠ .kDisconnected)
    (houtbox : conn'.outbox = conn.outbox.finish) (hstate : conn'.state ≠ .kConnected) : Graceful conn' where
  pending := h.of_queues hqueues
  armed := by
    have harmed : conn.outbox.finish.Armed := Outbox.armed_finish h.armed
    rwa [houtbox]
  fin hfin := by
    have hclosed : conn.outbox.closed = false := by simpa [outbox] using hopen
    have hsame : conn'.socket.fin = conn.outbox.finish.fin := congrArg Outbox.fin houtbox
    rw [houtbox]
    exact ⟨hstate, Outbox.finished_finish h.armed hclosed (fun h' => (h.fin h').2) (hsame ▸ hfin)⟩

theorem sendInLoop (h : Graceful conn) (hstate : conn.state = .kConnected) (data : Bytes) :
    Graceful (conn.sendInLoop app kernel data) where
  pending := h.of_queues (queues_sendInLoop conn data)
  armed := by
    rw [outbox_sendInLoop]
    exact Outbox.armed_step h.armed _
  fin hfin := by
    have hsame : (conn.sendInLoop app kernel data).socket.fin = conn.socket.fin := by
      have hsend : (conn.sendInLoop app kernel data).outbox =
          Outbox.step kernel Errno.isFault conn.outbox (.give data) := outbox_sendInLoop data
      exact (congrArg Outbox.fin hsend).trans (Outbox.fin_give data)
    exact absurd (hsame.trans (h.fin_eq_none hstate)) hfin

theorem shutdown (h : Graceful conn) (hstate : conn.state = .kConnected) :
    Graceful (shutdownInLoop { conn with state := .kDisconnecting }) := by
  have houtbox : outbox { conn with state := .kDisconnecting } = conn.outbox :=
    outbox_disconnecting (ne_kDisconnected_of_kConnected hstate)
  have hbegun : Graceful { conn with state := .kDisconnecting } :=
    h.of_eq (.of_eq rfl) houtbox (fun hc => by cases hc)
  exact hbegun.finish (.of_eq pending_shutdownInLoop) (by simp) outbox_shutdownInLoop (by simp)

theorem perform (h : Graceful conn) (a : Action) : Graceful (conn.perform app kernel a) := by
  cases a with
  | send data =>
      rw [TcpConnection.perform]
      split_ifs with hstate
      · exact h.sendInLoop hstate data
      · exact h
  | shutdown =>
      rw [TcpConnection.perform]
      split_ifs with hstate
      · exact h.shutdown hstate
      · exact h
  | forceClose =>
      exact h.of_eq (queues_forceClose conn) outbox_forceClose fun hc => absurd hc forceClose_state_ne
  | forceCloseWithDelay =>
      rw [TcpConnection.perform]
      split_ifs with hstate
      · exact h.of_eq (.of_eq rfl) (outbox_disconnecting (ne_kDisconnected_of_or hstate)) fun hc => by cases hc
      · exact h
  | startRead =>
      exact h.of_eq (.of_eq pending_startReadInLoop) outbox_startReadInLoop fun hc => by
        rwa [TcpConnection.perform, startReadInLoop_state] at hc
  | stopRead =>
      exact h.of_eq (.of_eq pending_stopReadInLoop) outbox_stopReadInLoop fun hc => by
        rwa [TcpConnection.perform, stopReadInLoop_state] at hc

theorem foldl_perform (actions : List Action) (h : Graceful conn) :
    Graceful (actions.foldl (fun conn a => conn.perform app kernel a) conn) := by
  induction actions generalizing conn with
  | nil => exact h
  | cons a actions ih => exact ih (h.perform a)

/-- A connection that is disconnected, whatever of its own it queues. -/
theorem close (h : Graceful conn) (hpending : ∀ f ∈ conn'.pending, Functor.InLoop f)
    (houtbox : conn'.outbox = { conn.outbox with armed := false, closed := true })
    (hstate : conn'.state = .kDisconnected) : Graceful conn' where
  pending := hpending
  armed := by
    rw [houtbox, Outbox.Armed, if_pos rfl]
  fin hfin := by
    have hsame : conn'.socket.fin = conn.socket.fin := congrArg Outbox.fin houtbox
    obtain ⟨-, hfinished, hwaiting⟩ := h.fin (hsame ▸ hfin)
    refine ⟨by rw [hstate]; decide, ?_, ?_⟩
    · rw [houtbox]
      exact ⟨hfinished.1, rfl⟩
    · rw [houtbox]
      exact hwaiting

theorem handleClose (h : Graceful conn) (hstep : conn.handleClose = .ok conn') : Graceful conn' := by
  rw [TcpConnection.handleClose] at hstep
  split_ifs at hstep
  cases hstep
  refine h.close (fun f hf => ?_) ?_ rfl
  · rcases List.mem_append.1 hf with hf | hf
    · exact h.pending f hf
    · rw [List.mem_singleton.1 hf]
      trivial
  · rw [outbox_queueInLoop, outbox_callback, outbox_callback]
    exact outbox_disconnected

theorem handleRead {incoming : Incoming} (h : Graceful conn)
    (hstep : conn.handleRead app kernel incoming = .ok conn') : Graceful conn' := by
  cases incoming with
  | failed =>
      cases hstep
      exact h
  | bytes waiting =>
      rw [TcpConnection.handleRead] at hstep
      split_ifs at hstep
      · exact h.handleClose hstep
      · cases hstep
        refine foldl_perform _ ?_
        exact h.of_eq (.of_eq rfl) rfl id

theorem handleWrite (h : Graceful conn) : Graceful (conn.handleWrite app kernel) := by
  by_cases hwriting : conn.channel.writing = true
  · have hfin : conn.socket.fin = none := by
      by_contra hfin
      have harmed : conn.outbox.armed = false := (h.fin hfin).2.1.2
      rw [outbox, hwriting] at harmed
      cases harmed
    have hflushed : (Outbox.step kernel Errno.isFault conn.outbox .flush).fin = none :=
      Outbox.fin_flush.trans hfin
    rcases outbox_handleWrite app kernel conn with houtbox | ⟨hstate, houtbox⟩
    · refine ⟨h.of_queues (queues_handleWrite conn), ?_, fun hsome => ?_⟩
      · rw [houtbox]
        exact Outbox.armed_step h.armed .flush
      · exact absurd ((congrArg Outbox.fin houtbox).trans hflushed) hsome
    · have hopen : (Outbox.step kernel Errno.isFault conn.outbox .flush).closed = false := by
        rw [Outbox.step, Outbox.flush_closed]
        simp [outbox, hstate]
      have harmed : (Outbox.step kernel Errno.isFault conn.outbox .flush).Armed :=
        Outbox.armed_step h.armed .flush
      refine ⟨h.of_queues (queues_handleWrite conn), ?_, fun hsome => ?_⟩
      · rw [houtbox]
        exact Outbox.armed_finish harmed
      · rw [handleWrite_state, hstate, houtbox]
        refine ⟨by decide, Outbox.finished_finish harmed hopen (fun hne => absurd hflushed hne) ?_⟩
        exact fun hnone => hsome ((congrArg Outbox.fin houtbox).trans hnone)
  · rwa [TcpConnection.handleWrite, if_neg hwriting]

theorem ite {p : Prop} [Decidable p] {x : Except Fault (TcpConnection σ)} (h : Graceful conn)
    (hx : ∀ conn'', x = .ok conn'' → Graceful conn'') (hstep : (if p then x else .ok conn) = .ok conn') :
    Graceful conn' := by
  split_ifs at hstep
  · exact hx _ hstep
  · cases hstep
    exact h

theorem handleEvent {revents : Revents} {incoming : Incoming} (h : Graceful conn)
    (hstep : conn.handleEvent app kernel revents incoming = .ok conn') : Graceful conn' := by
  rw [TcpConnection.handleEvent] at hstep
  obtain ⟨conn₁, hclose, hstep⟩ := Run.bind_eq_ok.1 hstep
  obtain ⟨conn₂, hread, hstep⟩ := Run.bind_eq_ok.1 hstep
  have h₁ : Graceful conn₁ := h.ite (fun _ => h.handleClose) hclose
  have h₂ : Graceful conn₂ := h₁.ite (fun _ => h₁.handleRead) hread
  cases hstep
  split_ifs
  · exact h₂.handleWrite
  · exact h₂

theorem removeChannel (h : Graceful conn) (hstep : conn.removeChannel = .ok conn') : Graceful conn' := by
  obtain ⟨-, rfl⟩ := removeChannel_eq_ok.1 hstep
  exact h.of_eq (.of_eq rfl) rfl id

theorem connectDestroyed (h : Graceful conn) (hstep : conn.connectDestroyed = .ok conn') :
    Graceful conn' := by
  rw [TcpConnection.connectDestroyed] at hstep
  split_ifs at hstep
  · refine Graceful.removeChannel ?_ hstep
    refine h.close h.pending ?_ rfl
    rw [outbox_callback]
    exact outbox_disconnected
  · exact h.removeChannel hstep

theorem runFunctor {f : Functor} (h : Graceful conn) (hf : f.InLoop)
    (hstep : runFunctor app kernel conn f = .ok conn') : Graceful conn' := by
  cases f with
  | sendInLoop data => exact hf.elim
  | shutdownInLoop => exact hf.elim
  | startReadInLoop => exact hf.elim
  | stopReadInLoop => exact hf.elim
  | forceCloseInLoop =>
      rw [TcpConnection.runFunctor, forceCloseInLoop] at hstep
      split_ifs at hstep
      · cases hstep
        exact h
      · exact h.handleClose hstep
  | writeCompleteCallback =>
      cases hstep
      exact h.of_eq (.of_eq rfl) rfl id
  | highWaterMarkCallback size =>
      cases hstep
      exact h.of_eq (.of_eq rfl) rfl id
  | connectDestroyed => exact h.connectDestroyed hstep

/-- One event that is no call of another thread. -/
theorem step {e : Event} (h : Graceful conn) (he : ∀ a, e ≠ .post a)
    (hstep : step app kernel conn e = .ok conn') : Graceful conn' := by
  cases e with
  | perform a =>
      cases hstep
      exact h.perform a
  | post a => exact absurd rfl (he a)
  | handleEvent revents incoming =>
      rw [TcpConnection.step] at hstep
      exact h.ite (fun _ => h.handleEvent) hstep
  | doPendingFunctor =>
      rw [TcpConnection.step] at hstep
      cases hpending : conn.pending with
      | nil =>
          rw [hpending] at hstep
          cases hstep
          exact h
      | cons f fs =>
          rw [hpending] at hstep
          have hall : ∀ g ∈ f :: fs, g.InLoop := hpending ▸ h.pending
          have hpopped : Graceful { conn with pending := fs } :=
            ⟨fun g hg => hall g (List.mem_cons_of_mem f hg), h.armed, h.fin⟩
          exact hpopped.runFunctor (hall f List.mem_cons_self) hstep
  | delayElapsed =>
      rw [TcpConnection.step] at hstep
      split_ifs at hstep
      · cases hstep
        exact h.of_eq (Queues.trans (.of_eq rfl) (queues_forceClose _)) outbox_forceClose
          fun hc => absurd hc forceClose_state_ne
      · cases hstep
        exact h

/-- Once the end is sent nothing more goes out, in the thread of the loop. -/
theorem finished_run {es : List Event} (h : Graceful conn) (hes : ∀ e ∈ es, ∀ a, e ≠ .post a)
    (hfin : conn.socket.fin ≠ none) (hrun : Run.run (TcpConnection.step app kernel) conn es = .ok conn') :
    conn'.socket.fin = conn.socket.fin ∧ conn'.socket.wire = conn.socket.wire := by
  induction es generalizing conn with
  | nil =>
      cases hrun
      exact ⟨rfl, rfl⟩
  | cons e es ih =>
      obtain ⟨conn'', hstep, hrest⟩ := Run.run_cons_eq_ok.1 hrun
      obtain ⟨hstate, hfinished, -⟩ := h.fin hfin
      have hnosend : e = .doPendingFunctor → ∀ data, conn.pending.head? ≠ some (.sendInLoop data) :=
        fun _ data hhead => h.pending _ (List.mem_of_head? hhead)
      have hmoves : Moves kernel (fun _ => True) conn conn'' :=
        moves_step (fun _ _ a _ => a.sends_true) e.sends_true hnosend hstep
      have hquiet : Outbox.Moves kernel Errno.isFault Outbox.Event.Quiet conn.outbox conn''.outbox :=
        hmoves.1.mono fun _ hallowed => hallowed.resolve_right fun hgives => hstate hgives.1
      obtain ⟨⟨hfin'', -⟩, hwire, -, -⟩ := hquiet.finished hfinished
      have hsame : conn''.socket.fin = conn.socket.fin := by
        have hboth : conn''.outbox.fin = conn.outbox.fin := by rw [hfin'', hfinished.1, hwire]
        exact hboth
      obtain ⟨hfinal, hwire'⟩ := ih (h.step (hes e List.mem_cons_self) hstep)
        (fun e' he' => hes e' (List.mem_cons_of_mem e he')) (hsame ▸ hfin) hrest
      exact ⟨hfinal.trans hsame, hwire'.trans hwire⟩

end Graceful

/-- A new connection. -/
theorem graceful_established (s : σ) : Graceful (established s) where
  pending _ hf := nomatch hf
  armed := armed_established s
  fin hfin := absurd rfl hfin

/-- **A graceful close loses nothing.** In every run in which the calls are made in the thread of the loop:
where the end of the stream was sent the kernel has everything that was given to `sendInLoop`, unless a write
failed for which a message was given up, and nothing waits; and whatever happens afterwards, nothing more is
written. -/
theorem shutdown_of_run (app : App σ) (kernel : Nat → Written) (s : σ) (es later : List Event)
    (conn last : TcpConnection σ) (hes : ∀ e ∈ es ++ later, ∀ a, e ≠ .post a)
    (hrun : Run.run (step app kernel) (established s) es = .ok conn)
    (hlater : Run.run (step app kernel) conn later = .ok last) (hfin : conn.socket.fin ≠ none) :
    conn.socket.fin = some conn.socket.wire.length ∧ conn.outputBuffer.readableBytes = 0 ∧
      (¬ GaveUp kernel conn → conn.socket.wire = conn.given) ∧
      last.socket.fin = conn.socket.fin ∧ last.socket.wire = conn.socket.wire := by
  have hgraceful : Graceful conn :=
    Run.run_invariant (fun _ _ _ h he hstep => h.step he hstep) (graceful_established s)
      (Run.always_of_forall_mem fun e he => hes e (List.mem_append_left later he)) hrun
  obtain ⟨-, hfinished, hwaiting⟩ := hgraceful.fin hfin
  have hempty : conn.outputBuffer.contents = [] := hwaiting
  refine ⟨hfinished.1, Buffer.contents_eq_nil_iff conn.outputBuffer |>.1 hempty, fun hgave => ?_, ?_⟩
  · have hwire := wire_append_contents hrun hgave
    rwa [hempty, List.append_nil] at hwire
  · exact hgraceful.finished_run (fun e he => hes e (List.mem_append_right es he)) hfin hlater

/-- A message, the end, and a message too late. -/
theorem shutdown_of_run_two :
    ∃ conn last : TcpConnection Unit,
      Run.run (step ⟨fun s buf => (s, buf, []), false, false, 64⟩ fun _ => .took 2) (established ())
          [.perform (.send [1, 2]), .perform .shutdown] = .ok conn ∧
        Run.run (step ⟨fun s buf => (s, buf, []), false, false, 64⟩ fun _ => .took 2) conn
          [.perform (.send [3])] = .ok last ∧
        conn.socket.fin = some conn.socket.wire.length ∧ conn.outputBuffer.readableBytes = 0 ∧
          (¬ GaveUp (fun _ => .took 2) conn → conn.socket.wire = conn.given) ∧
          last.socket.fin = conn.socket.fin ∧ last.socket.wire = conn.socket.wire :=
  ⟨_, _, rfl, rfl, shutdown_of_run ⟨fun s buf => (s, buf, []), false, false, 64⟩ (fun _ => .took 2) ()
    [.perform (.send [1, 2]), .perform .shutdown] [.perform (.send [3])] _ _
    (by simp) rfl rfl (fun h => nomatch h)⟩

/-! ## Something is left that ends it -/

/-- The end was sent, or something is left that will send it or close the connection. -/
def Ending (conn : TcpConnection σ) : Prop :=
  conn.channel.writing = true ∨ conn.socket.fin ≠ none ∨ .forceCloseInLoop ∈ conn.pending ∨
    .shutdownInLoop ∈ conn.pending ∨ 0 < conn.delayed

/-- A connection that is disconnecting has something left that ends it. -/
def Closing (conn : TcpConnection σ) : Prop := conn.state = .kDisconnecting → conn.Ending

/-- An operation takes nothing away of what will end a connection. -/
structure Extends (conn conn' : TcpConnection σ) : Prop where
  writing : conn.channel.writing = true → conn'.channel.writing = true
  fin : conn.socket.fin ≠ none → conn'.socket.fin ≠ none
  pending : conn.pending ⊆ conn'.pending
  delayed : conn.delayed ≤ conn'.delayed

theorem Queues.subset (h : Queues conn conn') : conn.pending ⊆ conn'.pending := by
  obtain ⟨fs, -, hpending⟩ := h
  rw [hpending]
  exact List.subset_append_left conn.pending fs

theorem Ending.extend (h : conn.Ending) (hextends : Extends conn conn') : conn'.Ending := by
  rcases h with h | h | h | h | h
  · exact .inl (hextends.writing h)
  · exact .inr (.inl (hextends.fin h))
  · exact .inr (.inr (.inl (hextends.pending h)))
  · exact .inr (.inr (.inr (.inl (hextends.pending h))))
  · exact .inr (.inr (.inr (.inr (Nat.lt_of_lt_of_le h hextends.delayed))))

theorem ending_shutdownInLoop : conn.shutdownInLoop.Ending := by
  unfold shutdownInLoop
  split_ifs with hwriting
  · exact .inl hwriting
  · exact .inr (.inl (Option.some_ne_none _))

@[simp] theorem keepRemaining_delayed (data : Bytes) (n : Nat) :
    (conn.keepRemaining app data n).delayed = conn.delayed := by
  unfold keepRemaining
  dsimp only
  split_ifs <;> rfl

theorem sendInLoop_delayed (data : Bytes) : (conn.sendInLoop app kernel data).delayed = conn.delayed := by
  unfold sendInLoop writeThrough write
  dsimp only
  split_ifs
  · rfl
  · cases kernel conn.socket.writes with
    | took n => exact keepRemaining_delayed _ _
    | failed e =>
        dsimp only
        split_ifs
        · rfl
        · exact keepRemaining_delayed _ _
  · exact keepRemaining_delayed _ _

theorem extends_sendInLoop (data : Bytes) : Extends conn (conn.sendInLoop app kernel data) where
  writing hwriting := by
    have hgive : (conn.sendInLoop app kernel data).outbox.armed = true := by
      rw [outbox_sendInLoop, Outbox.step]
      split_ifs
      · exact hwriting
      · exact Outbox.give_armed hwriting data
    exact hgive
  fin hfin := by
    have hsend : (conn.sendInLoop app kernel data).outbox =
        Outbox.step kernel Errno.isFault conn.outbox (.give data) := outbox_sendInLoop data
    have hsame : (conn.sendInLoop app kernel data).socket.fin = conn.socket.fin :=
      (congrArg Outbox.fin hsend).trans (Outbox.fin_give data)
    rwa [hsame]
  pending := (queues_sendInLoop conn data).subset
  delayed := Nat.le_of_eq (sendInLoop_delayed data).symm

theorem extends_startReadInLoop : Extends conn conn.startReadInLoop := by
  unfold startReadInLoop
  split_ifs
  · exact ⟨fun h => Channel.enableReading_writing.trans h, id, List.Subset.refl _, Nat.le_refl _⟩
  · exact ⟨id, id, List.Subset.refl _, Nat.le_refl _⟩

theorem extends_stopReadInLoop : Extends conn conn.stopReadInLoop := by
  unfold stopReadInLoop
  split_ifs
  · exact ⟨fun h => Channel.disableReading_writing.trans h, id, List.Subset.refl _, Nat.le_refl _⟩
  · exact ⟨id, id, List.Subset.refl _, Nat.le_refl _⟩

namespace Closing

theorem of_extends (h : Closing conn) (hextends : Extends conn conn') (hstate : conn'.state = conn.state) :
    Closing conn' := fun hc => (h (hstate ▸ hc)).extend hextends

theorem of_ending (h : conn.Ending) : Closing conn := fun _ => h

theorem of_disconnected (h : conn.state = .kDisconnected) : Closing conn := by
  intro hc
  rw [h] at hc
  cases hc

theorem forceClose (h : Closing conn) : Closing conn.forceClose := by
  unfold TcpConnection.forceClose
  split_ifs
  · exact of_ending (.inr (.inr (.inl (List.mem_append_right conn.pending List.mem_cons_self))))
  · exact h

theorem perform (h : Closing conn) (a : Action) : Closing (conn.perform app kernel a) := by
  cases a with
  | send data =>
      rw [TcpConnection.perform]
      split_ifs
      · exact h.of_extends (extends_sendInLoop data) (sendInLoop_state data)
      · exact h
  | shutdown =>
      rw [TcpConnection.perform]
      split_ifs
      · exact of_ending ending_shutdownInLoop
      · exact h
  | forceClose => exact h.forceClose
  | forceCloseWithDelay =>
      rw [TcpConnection.perform]
      split_ifs
      · exact of_ending (.inr (.inr (.inr (.inr (Nat.succ_pos conn.delayed)))))
      · exact h
  | startRead => exact h.of_extends extends_startReadInLoop startReadInLoop_state
  | stopRead => exact h.of_extends extends_stopReadInLoop stopReadInLoop_state

theorem foldl_perform (actions : List Action) (h : Closing conn) :
    Closing (actions.foldl (fun conn a => conn.perform app kernel a) conn) := by
  induction actions generalizing conn with
  | nil => exact h
  | cons a actions ih => exact ih (h.perform a)

/-- A call in another thread leaves its functor in the queue. -/
theorem post (h : Closing conn) (a : Action) : Closing (conn.post a) := by
  have hqueue : ∀ f, Closing (conn.queueInLoop f) := fun f =>
    h.of_extends ⟨id, id, List.subset_append_left conn.pending [f], Nat.le_refl _⟩ rfl
  cases a with
  | send data =>
      rw [TcpConnection.post]
      split_ifs
      · exact hqueue _
      · exact h
  | shutdown =>
      rw [TcpConnection.post]
      split_ifs
      · refine of_ending (.inr (.inr (.inr (.inl ?_))))
        exact List.mem_append_right conn.pending List.mem_cons_self
      · exact h
  | forceClose => exact h.forceClose
  | forceCloseWithDelay =>
      rw [TcpConnection.post]
      split_ifs
      · exact of_ending (.inr (.inr (.inr (.inr (Nat.succ_pos conn.delayed)))))
      · exact h
  | startRead => exact hqueue _
  | stopRead => exact hqueue _

theorem handleClose (hstep : conn.handleClose = .ok conn') : Closing conn' := by
  rw [TcpConnection.handleClose] at hstep
  split_ifs at hstep
  cases hstep
  exact of_disconnected rfl

theorem handleRead {incoming : Incoming} (h : Closing conn)
    (hstep : conn.handleRead app kernel incoming = .ok conn') : Closing conn' := by
  cases incoming with
  | failed =>
      cases hstep
      exact h
  | bytes waiting =>
      rw [TcpConnection.handleRead] at hstep
      split_ifs at hstep
      · exact handleClose hstep
      · cases hstep
        refine foldl_perform _ ?_
        exact h.of_extends ⟨id, id, List.Subset.refl _, Nat.le_refl _⟩ rfl

/-- Where the last byte is written the end follows. -/
theorem drained : Closing (conn.drained app) := by
  unfold TcpConnection.drained
  dsimp only
  split_ifs with hstate
  · exact of_ending ending_shutdownInLoop
  · exact fun hc => absurd hc hstate

theorem handleWrite (h : Closing conn) : Closing (conn.handleWrite app kernel) := by
  unfold TcpConnection.handleWrite write
  split_ifs with hwriting
  · cases kernel conn.socket.writes with
    | failed e => exact of_ending (.inl hwriting)
    | took n =>
        dsimp only [hasWritten]
        split_ifs
        · exact drained
        · exact of_ending (.inl hwriting)
        · exact of_ending (.inl hwriting)
  · exact h

theorem ite {p : Prop} [Decidable p] {x : Except Fault (TcpConnection σ)} (h : Closing conn)
    (hx : ∀ conn'', x = .ok conn'' → Closing conn'') (hstep : (if p then x else .ok conn) = .ok conn') :
    Closing conn' := by
  split_ifs at hstep
  · exact hx _ hstep
  · cases hstep
    exact h

theorem handleEvent {revents : Revents} {incoming : Incoming} (h : Closing conn)
    (hstep : conn.handleEvent app kernel revents incoming = .ok conn') : Closing conn' := by
  rw [TcpConnection.handleEvent] at hstep
  obtain ⟨conn₁, hclose, hstep⟩ := Run.bind_eq_ok.1 hstep
  obtain ⟨conn₂, hread, hstep⟩ := Run.bind_eq_ok.1 hstep
  have h₁ : Closing conn₁ := h.ite (fun _ => handleClose) hclose
  have h₂ : Closing conn₂ := h₁.ite (fun _ => h₁.handleRead) hread
  cases hstep
  split_ifs
  · exact h₂.handleWrite
  · exact h₂

theorem removeChannel (h : Closing conn) (hstep : conn.removeChannel = .ok conn') : Closing conn' := by
  obtain ⟨-, rfl⟩ := removeChannel_eq_ok.1 hstep
  exact h.of_extends ⟨id, id, List.Subset.refl _, Nat.le_refl _⟩ rfl

theorem connectDestroyed (h : Closing conn) (hstep : conn.connectDestroyed = .ok conn') : Closing conn' := by
  rw [TcpConnection.connectDestroyed] at hstep
  split_ifs at hstep
  · exact removeChannel (of_disconnected rfl) hstep
  · exact h.removeChannel hstep

/-- The turn of a functor: the two that end the connection do it, the others leave what is left. -/
theorem runFunctor {f : Functor} {fs : List Functor} (h : Closing conn) (hpending : conn.pending = f :: fs)
    (hstep : runFunctor app kernel { conn with pending := fs } f = .ok conn') : Closing conn' := by
  have hrest : f ≠ .forceCloseInLoop → f ≠ .shutdownInLoop → Closing { conn with pending := fs } := by
    intro hforce hshutdown hc
    have hending : conn.Ending := h hc
    rw [Ending, hpending, List.mem_cons, List.mem_cons] at hending
    rcases hending with hleft | hleft | (hleft | hleft) | (hleft | hleft) | hleft
    · exact .inl hleft
    · exact .inr (.inl hleft)
    · exact absurd hleft.symm hforce
    · exact .inr (.inr (.inl hleft))
    · exact absurd hleft.symm hshutdown
    · exact .inr (.inr (.inr (.inl hleft)))
    · exact .inr (.inr (.inr (.inr hleft)))
  cases f with
  | sendInLoop data =>
      cases hstep
      exact (hrest (by simp) (by simp)).of_extends (extends_sendInLoop data) (sendInLoop_state data)
  | shutdownInLoop =>
      cases hstep
      exact of_ending ending_shutdownInLoop
  | forceCloseInLoop =>
      rw [TcpConnection.runFunctor, forceCloseInLoop] at hstep
      split_ifs at hstep with hstate
      · cases hstep
        exact of_disconnected hstate
      · exact handleClose hstep
  | startReadInLoop =>
      cases hstep
      exact (hrest (by simp) (by simp)).of_extends extends_startReadInLoop startReadInLoop_state
  | stopReadInLoop =>
      cases hstep
      exact (hrest (by simp) (by simp)).of_extends extends_stopReadInLoop stopReadInLoop_state
  | writeCompleteCallback =>
      cases hstep
      exact (hrest (by simp) (by simp)).of_extends ⟨id, id, List.Subset.refl _, Nat.le_refl _⟩ rfl
  | highWaterMarkCallback size =>
      cases hstep
      exact (hrest (by simp) (by simp)).of_extends ⟨id, id, List.Subset.refl _, Nat.le_refl _⟩ rfl
  | connectDestroyed => exact (hrest (by simp) (by simp)).connectDestroyed hstep

theorem step {e : Event} (h : Closing conn) (hstep : step app kernel conn e = .ok conn') : Closing conn' := by
  cases e with
  | perform a =>
      cases hstep
      exact h.perform a
  | post a =>
      cases hstep
      exact h.post a
  | handleEvent revents incoming =>
      rw [TcpConnection.step] at hstep
      exact h.ite (fun _ => h.handleEvent) hstep
  | doPendingFunctor =>
      rw [TcpConnection.step] at hstep
      cases hpending : conn.pending with
      | nil =>
          rw [hpending] at hstep
          cases hstep
          exact h
      | cons f fs =>
          rw [hpending] at hstep
          exact h.runFunctor hpending hstep
  | delayElapsed =>
      rw [TcpConnection.step] at hstep
      split_ifs at hstep
      · cases hstep
        unfold TcpConnection.forceClose
        split_ifs with hstate
        · exact of_ending (.inr (.inr (.inl (List.mem_append_right conn.pending List.mem_cons_self))))
        · exact fun hc => absurd (.inr hc) hstate
      · cases hstep
        exact h

end Closing

/-- **A close is never forgotten.** In every run, with calls out of any thread: a connection that is
disconnecting has sent the end of the stream, or waits for the socket to send what is left, or has
`forceCloseInLoop`, `shutdownInLoop` or a timer of `forceCloseWithDelay` still to come. -/
theorem closing_of_run (app : App σ) (kernel : Nat → Written) (s : σ) (es : List Event)
    (conn : TcpConnection σ) (hrun : Run.run (step app kernel) (established s) es = .ok conn)
    (hstate : conn.state = .kDisconnecting) :
    conn.outputBuffer.readableBytes ≠ 0 ∧ conn.channel.writing = true ∨ conn.socket.fin ≠ none ∨
      .forceCloseInLoop ∈ conn.pending ∨ .shutdownInLoop ∈ conn.pending ∨ 0 < conn.delayed := by
  have hestablished : Closing (established s) := by
    intro hc
    cases hc
  have hclosing : Closing conn :=
    Run.run_invariant (fun _ _ _ h _ hstep => h.step hstep) hestablished
      (Run.always_of_forall (fun _ _ => trivial) _ es) hrun
  have hwaits := writing_iff_of_run hrun (by rw [hstate]; decide)
  exact (hclosing hstate).imp_left fun hwriting => ⟨hwaits.1 hwriting, hwriting⟩

/-- A close in another thread while a message waits. -/
theorem closing_of_run_two :
    ∃ conn : TcpConnection Unit,
      Run.run (step ⟨fun s buf => (s, buf, []), false, false, 64⟩ fun _ => .took 1) (established ())
          [.perform (.send [1, 2]), .post .shutdown, .doPendingFunctor] = .ok conn ∧
        conn.state = .kDisconnecting ∧
        (conn.outputBuffer.readableBytes ≠ 0 ∧ conn.channel.writing = true ∨ conn.socket.fin ≠ none ∨
          .forceCloseInLoop ∈ conn.pending ∨ .shutdownInLoop ∈ conn.pending ∨ 0 < conn.delayed) :=
  ⟨_, rfl, rfl, closing_of_run ⟨fun s buf => (s, buf, []), false, false, 64⟩ (fun _ => .took 1) ()
    [.perform (.send [1, 2]), .post .shutdown, .doPendingFunctor] _ rfl rfl⟩

end TcpConnection

end Net

end AimChat
