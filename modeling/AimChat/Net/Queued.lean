import AimChat.Lib.Refinement
import AimChat.Net.TcpConnection

/-! # The functors of a connection

What the operations of a connection put into the queue of the loop: functors of its own, and what another
thread asks for (`queued_step`). -/

namespace AimChat

namespace Net

/-- The functors a connection queues itself. -/
def Functor.Own : Functor → Prop
  | .writeCompleteCallback => True
  | .highWaterMarkCallback _ => True
  | .forceCloseInLoop => True
  | .sendInLoop _ => False
  | .shutdownInLoop => False
  | .startReadInLoop => False
  | .stopReadInLoop => False
  | .connectDestroyed => False

/-- The functor a call in another thread queues. -/
def Action.posted : Action → List Functor
  | .send data => [.sendInLoop data]
  | .shutdown => [.shutdownInLoop]
  | .forceClose => [.forceCloseInLoop]
  | .forceCloseWithDelay => []
  | .startRead => [.startReadInLoop]
  | .stopRead => [.stopReadInLoop]

/-- A call sends a message only if it meets `Q`. -/
def Action.Sends (Q : Bytes → Prop) : Action → Prop
  | .send data => Q data
  | .shutdown => True
  | .forceClose => True
  | .forceCloseWithDelay => True
  | .startRead => True
  | .stopRead => True

/-- A functor sends a message only if it meets `Q`. -/
def Functor.Sends (Q : Bytes → Prop) : Functor → Prop
  | .sendInLoop data => Q data
  | .shutdownInLoop => True
  | .forceCloseInLoop => True
  | .startReadInLoop => True
  | .stopReadInLoop => True
  | .writeCompleteCallback => True
  | .highWaterMarkCallback _ => True
  | .connectDestroyed => True

/-- The application sends messages only if they meet `Q`. -/
def App.Sends {σ : Type} (app : App σ) (Q : Bytes → Prop) : Prop :=
  ∀ s buf, ∀ a ∈ (app.messageCallback s buf).2.2, Action.Sends Q a

theorem Action.sends_true (a : Action) : a.Sends fun _ => True := by
  cases a <;> trivial

theorem Functor.sends_true (f : Functor) : f.Sends fun _ => True := by
  cases f <;> trivial

theorem Functor.Own.sends {Q : Bytes → Prop} {f : Functor} (h : f.Own) : f.Sends Q := by
  cases f with
  | sendInLoop data => exact h.elim
  | shutdownInLoop => trivial
  | forceCloseInLoop => trivial
  | startReadInLoop => trivial
  | stopReadInLoop => trivial
  | writeCompleteCallback => trivial
  | highWaterMarkCallback size => trivial
  | connectDestroyed => trivial

/-- What another thread queues sends what it was asked to. -/
theorem Action.Sends.posted {Q : Bytes → Prop} {a : Action} {f : Functor} (h : a.Sends Q)
    (hf : f ∈ a.posted) : f.Sends Q := by
  cases a with
  | send data =>
      rw [List.mem_singleton.1 hf]
      exact h
  | forceCloseWithDelay => cases hf
  | shutdown => rw [List.mem_singleton.1 hf]; trivial
  | forceClose => rw [List.mem_singleton.1 hf]; trivial
  | startRead => rw [List.mem_singleton.1 hf]; trivial
  | stopRead => rw [List.mem_singleton.1 hf]; trivial

namespace TcpConnection

/-- An event sends a message only if it meets `Q`. -/
def Event.Sends (Q : Bytes → Prop) : Event → Prop
  | .perform a => a.Sends Q
  | .post a => a.Sends Q
  | .handleEvent _ _ => True
  | .doPendingFunctor => True
  | .delayElapsed => True

theorem Event.sends_true (e : Event) : e.Sends fun _ => True := by
  cases e with
  | perform a => exact a.sends_true
  | post a => exact a.sends_true
  | handleEvent revents incoming => trivial
  | doPendingFunctor => trivial
  | delayElapsed => trivial

variable {σ : Type} {app : App σ} {kernel : Nat → Written} {conn conn' : TcpConnection σ}

/-! ## What is queued -/

/-- An operation queues functors of the connection's own, and no other. -/
def Queues (conn conn' : TcpConnection σ) : Prop :=
  ∃ fs, (∀ f ∈ fs, Functor.Own f) ∧ conn'.pending = conn.pending ++ fs

theorem Queues.of_eq (h : conn'.pending = conn.pending) : Queues conn conn' :=
  ⟨[], by simp, by rw [h, List.append_nil]⟩

theorem Queues.trans {conn'' : TcpConnection σ} (h : Queues conn conn') (h' : Queues conn' conn'') :
    Queues conn conn'' := by
  obtain ⟨fs, hfs, hpending⟩ := h
  obtain ⟨gs, hgs, hpending'⟩ := h'
  refine ⟨fs ++ gs, fun f hf => ?_, by rw [hpending', hpending, List.append_assoc]⟩
  rcases List.mem_append.1 hf with hf | hf
  · exact hfs f hf
  · exact hgs f hf

theorem queues_queueIf (conn : TcpConnection σ) (p : Prop) [Decidable p] (f : Functor) (hf : f.Own) :
    Queues conn (conn.queueIf p f) := by
  refine ⟨if p then [f] else [], fun g hg => ?_, rfl⟩
  split_ifs at hg
  · rwa [List.mem_singleton.1 hg]
  · cases hg

theorem queues_keepRemaining (conn : TcpConnection σ) (data : Bytes) (n : Nat) :
    Queues conn (conn.keepRemaining app data n) := by
  unfold keepRemaining
  dsimp only
  split_ifs
  · refine (queues_queueIf conn _ _ ?_).trans (.of_eq rfl)
    trivial
  · exact .of_eq rfl

theorem queues_writeThrough (conn : TcpConnection σ) (data : Bytes) :
    Queues conn (conn.writeThrough app kernel data) := by
  unfold writeThrough write
  cases kernel conn.socket.writes with
  | took n =>
      refine Queues.trans (.of_eq rfl) ((queues_queueIf _ _ _ ?_).trans (queues_keepRemaining _ data _))
      trivial
  | failed e =>
      dsimp only
      split_ifs
      · exact .of_eq rfl
      · exact Queues.trans (.of_eq rfl) (queues_keepRemaining _ data 0)

theorem queues_sendInLoop (conn : TcpConnection σ) (data : Bytes) :
    Queues conn (conn.sendInLoop app kernel data) := by
  unfold sendInLoop
  dsimp only
  split_ifs
  · exact .of_eq rfl
  · exact Queues.trans (.of_eq rfl) (queues_writeThrough _ data)
  · exact Queues.trans (.of_eq rfl) (queues_keepRemaining _ data 0)

theorem pending_shutdownInLoop : conn.shutdownInLoop.pending = conn.pending := by
  unfold shutdownInLoop
  split_ifs <;> rfl

theorem pending_startReadInLoop : conn.startReadInLoop.pending = conn.pending := by
  unfold startReadInLoop
  split_ifs <;> rfl

theorem pending_stopReadInLoop : conn.stopReadInLoop.pending = conn.pending := by
  unfold stopReadInLoop
  split_ifs <;> rfl

theorem queues_forceClose (conn : TcpConnection σ) : Queues conn conn.forceClose := by
  unfold forceClose
  split_ifs
  · exact ⟨[.forceCloseInLoop], by simp [Functor.Own], rfl⟩
  · exact .of_eq rfl

theorem queues_perform (conn : TcpConnection σ) (a : Action) : Queues conn (conn.perform app kernel a) := by
  cases a with
  | send data =>
      rw [perform]
      split_ifs
      · exact queues_sendInLoop conn data
      · exact .of_eq rfl
  | shutdown =>
      rw [perform]
      split_ifs
      · exact .of_eq pending_shutdownInLoop
      · exact .of_eq rfl
  | forceClose => exact queues_forceClose conn
  | forceCloseWithDelay =>
      rw [perform]
      split_ifs <;> exact .of_eq rfl
  | startRead => exact .of_eq pending_startReadInLoop
  | stopRead => exact .of_eq pending_stopReadInLoop

theorem queues_foldl_perform (actions : List Action) (conn : TcpConnection σ) :
    Queues conn (actions.foldl (fun conn a => conn.perform app kernel a) conn) := by
  induction actions generalizing conn with
  | nil => exact .of_eq rfl
  | cons a actions ih => exact (queues_perform conn a).trans (ih _)

theorem queues_drained (conn : TcpConnection σ) : Queues conn (conn.drained app) := by
  unfold drained
  dsimp only
  have hqueue : Queues conn (queueIf { conn with channel := conn.channel.disableWriting }
      app.writeCompleteCallback .writeCompleteCallback) :=
    Queues.trans (.of_eq rfl) (queues_queueIf _ _ .writeCompleteCallback trivial)
  split_ifs
  · exact hqueue.trans (.of_eq pending_shutdownInLoop)
  · exact hqueue

theorem queues_handleWrite (conn : TcpConnection σ) : Queues conn (conn.handleWrite app kernel) := by
  unfold handleWrite write
  split_ifs
  · cases kernel conn.socket.writes with
    | took n =>
        dsimp only [hasWritten]
        split_ifs
        · exact Queues.trans (.of_eq rfl) (queues_drained _)
        · exact .of_eq rfl
        · exact .of_eq rfl
    | failed e => exact .of_eq rfl
  · exact .of_eq rfl

/-! ## One event -/

/-- What stands in the queue afterwards stood there before, or is the connection's own. -/
def Queued (conn conn' : TcpConnection σ) : Prop :=
  ∀ f ∈ conn'.pending, f ∈ conn.pending ∨ f.Own ∨ f = .connectDestroyed

theorem Queues.queued (h : Queues conn conn') : Queued conn conn' := by
  obtain ⟨fs, hfs, hpending⟩ := h
  intro f hf
  rw [hpending] at hf
  exact (List.mem_append.1 hf).imp_right fun hf => .inl (hfs f hf)

theorem Queued.trans {conn'' : TcpConnection σ} (h : Queued conn conn') (h' : Queued conn' conn'') :
    Queued conn conn'' := fun f hf => (h' f hf).elim (h f) .inr

theorem queued_handleClose (h : conn.handleClose = .ok conn') : Queued conn conn' := by
  rw [handleClose] at h
  split_ifs at h
  cases h
  intro f hf
  exact (List.mem_append.1 hf).imp_right fun hf => .inr (List.mem_singleton.1 hf)

theorem queued_handleRead {incoming : Incoming} (h : conn.handleRead app kernel incoming = .ok conn') :
    Queued conn conn' := by
  cases incoming with
  | failed =>
      cases h
      exact fun f hf => .inl hf
  | bytes waiting =>
      rw [handleRead] at h
      split_ifs at h
      · exact queued_handleClose h
      · cases h
        refine (Queues.queued ?_).trans (queues_foldl_perform _ _).queued
        exact .of_eq rfl

theorem queued_ite {p : Prop} [Decidable p] {x : Except Fault (TcpConnection σ)}
    (hx : ∀ conn'', x = .ok conn'' → Queued conn conn'') (h : (if p then x else .ok conn) = .ok conn') :
    Queued conn conn' := by
  split_ifs at h
  · exact hx _ h
  · cases h
    exact fun f hf => .inl hf

theorem queued_handleEvent {revents : Revents} {incoming : Incoming}
    (h : conn.handleEvent app kernel revents incoming = .ok conn') : Queued conn conn' := by
  rw [handleEvent] at h
  obtain ⟨conn₁, hclose, h⟩ := Run.bind_eq_ok.1 h
  obtain ⟨conn₂, hread, h⟩ := Run.bind_eq_ok.1 h
  have h₁ : Queued conn conn₁ := queued_ite (fun _ => queued_handleClose) hclose
  have h₂ : Queued conn₁ conn₂ := queued_ite (fun _ => queued_handleRead) hread
  cases h
  refine (h₁.trans h₂).trans ?_
  split_ifs
  · exact (queues_handleWrite conn₂).queued
  · exact fun f hf => .inl hf

theorem queued_runFunctor {f : Functor} (h : runFunctor app kernel conn f = .ok conn') :
    Queued conn conn' := by
  cases f with
  | sendInLoop data =>
      cases h
      exact (queues_sendInLoop conn data).queued
  | shutdownInLoop =>
      cases h
      exact (Queues.of_eq pending_shutdownInLoop).queued
  | forceCloseInLoop =>
      rw [runFunctor, forceCloseInLoop] at h
      split_ifs at h
      · cases h
        exact fun f hf => .inl hf
      · exact queued_handleClose h
  | startReadInLoop =>
      cases h
      exact (Queues.of_eq pending_startReadInLoop).queued
  | stopReadInLoop =>
      cases h
      exact (Queues.of_eq pending_stopReadInLoop).queued
  | writeCompleteCallback =>
      cases h
      exact fun f hf => .inl hf
  | highWaterMarkCallback size =>
      cases h
      exact fun f hf => .inl hf
  | connectDestroyed =>
      rw [runFunctor, connectDestroyed] at h
      split_ifs at h
      · obtain ⟨-, rfl⟩ := removeChannel_eq_ok.1 h
        exact fun f hf => .inl hf
      · obtain ⟨-, rfl⟩ := removeChannel_eq_ok.1 h
        exact fun f hf => .inl hf

/-- A call in another thread puts its functor into the queue, if anything. -/
theorem mem_post {a : Action} {f : Functor} (hf : f ∈ (conn.post a).pending) :
    f ∈ conn.pending ∨ f ∈ a.posted := by
  cases a with
  | send data =>
      rw [post] at hf
      split_ifs at hf
      · exact List.mem_append.1 hf
      · exact .inl hf
  | shutdown =>
      rw [post] at hf
      split_ifs at hf
      · exact List.mem_append.1 hf
      · exact .inl hf
  | forceClose =>
      rw [post, forceClose] at hf
      split_ifs at hf
      · exact List.mem_append.1 hf
      · exact .inl hf
  | forceCloseWithDelay =>
      rw [post] at hf
      split_ifs at hf <;> exact .inl hf
  | startRead => exact List.mem_append.1 hf
  | stopRead => exact List.mem_append.1 hf

/-- **What an event queues**: functors of the connection's own, `connectDestroyed`, and what a call in another
thread asks for. -/
theorem queued_step {e : Event} (h : step app kernel conn e = .ok conn') :
    ∀ f ∈ conn'.pending,
      f ∈ conn.pending ∨ f.Own ∨ f = .connectDestroyed ∨ ∃ a, e = .post a ∧ f ∈ a.posted := by
  have hqueued : Queued conn conn' → ∀ f ∈ conn'.pending,
      f ∈ conn.pending ∨ f.Own ∨ f = .connectDestroyed ∨ ∃ a, e = .post a ∧ f ∈ a.posted :=
    fun hqueued f hf => (hqueued f hf).imp_right fun hf => hf.imp_right .inl
  cases e with
  | perform a =>
      cases h
      exact hqueued (queues_perform conn a).queued
  | post a =>
      cases h
      intro f hf
      rcases mem_post hf with hf | hf
      · exact .inl hf
      · exact .inr (.inr (.inr ⟨a, rfl, hf⟩))
  | handleEvent revents incoming =>
      rw [step] at h
      exact hqueued (queued_ite (fun _ => queued_handleEvent) h)
  | doPendingFunctor =>
      rw [step] at h
      cases hpending : conn.pending with
      | nil =>
          rw [hpending] at h
          cases h
          exact fun f hf => .inl (hpending ▸ hf)
      | cons g fs =>
          rw [hpending] at h
          refine fun f hf => (queued_runFunctor h f hf).imp (List.mem_cons_of_mem g) fun hf => ?_
          exact hf.imp_right .inl
  | delayElapsed =>
      rw [step] at h
      split_ifs at h
      · cases h
        exact hqueued ((Queues.of_eq rfl).trans (queues_forceClose _)).queued
      · cases h
        exact fun f hf => .inl hf

end TcpConnection

end Net

end AimChat
