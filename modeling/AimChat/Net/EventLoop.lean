import AimChat.Lib.Refinement

/-! # The event loop

`EventLoop::loop` and the queue of functors that it shares with the other threads. An iteration polls, handles
the events, takes the whole queue and runs it; whoever queues a functor while the loop might sleep through it
writes to the `eventfd` the loop polls. Every functor runs once, in the order of the queue
(`functors_of_run`), and the loop never sleeps on a functor that was queued since it began to loop
(`wakeup_of_run`). Pushing under the lock and writing to the `eventfd` are two steps of a thread. -/

namespace AimChat

namespace Net

/-- Where the thread of the loop is. -/
inductive EventLoop.Phase (F : Type)
  | polling
  /-- `eventHandling_`; the `eventfd` was reported, and not read yet. -/
  | eventHandling (woken : Bool)
  /-- `callingPendingFunctors_`, with the functors that were swapped out and have not run yet. -/
  | callingPendingFunctors (functors : List F)
  | stopped

/-- An `EventLoop` with functors of type `F`. -/
structure EventLoop (F : Type) where
  phase : EventLoop.Phase F
  quit : Bool
  pendingFunctors : List F
  /-- The counter of the `eventfd`. -/
  wakeupFd : Nat
  /-- The calls of `wakeup` that other threads are about to make. -/
  wakeups : Nat
  iteration : Nat

namespace EventLoop

/-- What can happen to a loop. -/
inductive Event (F : Type)
  /-- Another thread is in `queueInLoop`, behind its critical section. -/
  | queueInLoop (f : F)
  /-- Another thread is in `quit`. -/
  | quit
  /-- Another thread writes to the `eventfd`. -/
  | wakeup
  /-- `poll` returns, and reports the `eventfd` or not. -/
  | poll (woken : Bool)
  /-- The `eventfd` is read. -/
  | handleRead
  /-- A channel's callback queues a functor. -/
  | queueInCallback (f : F)
  /-- A channel's callback quits. -/
  | quitInCallback
  /-- The events are handled, and the queue is swapped. -/
  | doPendingFunctors
  /-- The next functor runs. -/
  | runFunctor
  /-- The functors are run, and `loop` looks at `quit_`. -/
  | endIteration

/-- What a functor does to the loop when it runs. -/
structure Body (F : Type) where
  /-- The functors it queues, each with a `wakeup`. -/
  queues : F → List F
  quits : F → Bool

/-- The event cannot happen now. -/
inductive Disabled
  | disabled

variable {F : Type} (body : Body F)

/-- One step of the loop or of another thread. -/
def step (l : EventLoop F) : Event F → Except Disabled (EventLoop F)
  | .queueInLoop f => .ok { l with pendingFunctors := l.pendingFunctors ++ [f], wakeups := l.wakeups + 1 }
  | .quit => .ok { l with quit := true, wakeups := l.wakeups + 1 }
  | .wakeup =>
      if 0 < l.wakeups then .ok { l with wakeups := l.wakeups - 1, wakeupFd := l.wakeupFd + 1 }
      else .error .disabled
  | .poll woken =>
      match l.phase with
      | .polling =>
          -- the `eventfd` is readable while its counter is not zero
          if woken && l.wakeupFd == 0 then .error .disabled
          else .ok { l with phase := .eventHandling woken, iteration := l.iteration + 1 }
      | _ => .error .disabled
  | .handleRead =>
      match l.phase with
      | .eventHandling true => .ok { l with phase := .eventHandling false, wakeupFd := 0 }
      | _ => .error .disabled
  | .queueInCallback f =>
      match l.phase with
      | .eventHandling _ => .ok { l with pendingFunctors := l.pendingFunctors ++ [f] }
      | _ => .error .disabled
  | .quitInCallback =>
      match l.phase with
      | .eventHandling _ => .ok { l with quit := true }
      | _ => .error .disabled
  | .doPendingFunctors =>
      match l.phase with
      | .eventHandling false =>
          .ok { l with phase := .callingPendingFunctors l.pendingFunctors, pendingFunctors := [] }
      | _ => .error .disabled
  | .runFunctor =>
      match l.phase with
      | .callingPendingFunctors (f :: functors) =>
          .ok { l with
            phase := .callingPendingFunctors functors
            pendingFunctors := l.pendingFunctors ++ body.queues f
            wakeupFd := l.wakeupFd + (body.queues f).length
            quit := l.quit || body.quits f }
      | _ => .error .disabled
  | .endIteration =>
      match l.phase with
      | .callingPendingFunctors [] => .ok { l with phase := if l.quit then .stopped else .polling }
      | _ => .error .disabled

/-- The loop at its first `poll`, with what its own thread has queued before. -/
def start (before : List F) : EventLoop F where
  phase := .polling
  quit := false
  pendingFunctors := before
  wakeupFd := 0
  wakeups := 0
  iteration := 0

/-! ## The queue -/

/-- The functors swapped out that have not run yet. -/
def Phase.functors : Phase F → List F
  | .callingPendingFunctors functors => functors
  | .polling => []
  | .eventHandling _ => []
  | .stopped => []

/-- The functors that are to run, in order. -/
def waiting (l : EventLoop F) : List F := l.phase.functors ++ l.pendingFunctors

/-- The functor an event runs. -/
def runs (l : EventLoop F) : Event F → List F
  | .runFunctor => l.phase.functors.take 1
  | .queueInLoop _ => []
  | .quit => []
  | .wakeup => []
  | .poll _ => []
  | .handleRead => []
  | .queueInCallback _ => []
  | .quitInCallback => []
  | .doPendingFunctors => []
  | .endIteration => []

/-- The functors an event queues. -/
def queues (l : EventLoop F) : Event F → List F
  | .queueInLoop f => [f]
  | .queueInCallback f => [f]
  | .runFunctor => (l.phase.functors.take 1).flatMap body.queues
  | .quit => []
  | .wakeup => []
  | .poll _ => []
  | .handleRead => []
  | .quitInCallback => []
  | .doPendingFunctors => []
  | .endIteration => []

variable {body} {l l' : EventLoop F}

/-- **The queue is a queue.** An event takes what it runs off the front and puts what it queues at the end. -/
theorem waiting_step {e : Event F} (h : step body l e = .ok l') :
    l.runs e ++ l'.waiting = l.waiting ++ l.queues body e := by
  cases e with
  | queueInLoop f =>
      cases h
      simp [runs, queues, waiting]
  | quit =>
      cases h
      exact (List.append_nil _).symm
  | wakeup =>
      rw [step] at h
      split_ifs at h
      cases h
      exact (List.append_nil _).symm
  | poll woken =>
      rw [step] at h
      cases hphase : l.phase with
      | polling =>
          rw [hphase] at h
          dsimp only at h
          split_ifs at h
          cases h
          simp [runs, queues, waiting, hphase, Phase.functors]
      | eventHandling _ => rw [hphase] at h; cases h
      | callingPendingFunctors _ => rw [hphase] at h; cases h
      | stopped => rw [hphase] at h; cases h
  | handleRead =>
      rw [step] at h
      split at h
      · next hphase =>
        cases h
        simp [runs, queues, waiting, hphase, Phase.functors]
      · cases h
  | queueInCallback f =>
      rw [step] at h
      split at h
      · cases h
        simp [runs, queues, waiting]
      · cases h
  | quitInCallback =>
      rw [step] at h
      split at h
      · cases h
        exact (List.append_nil _).symm
      · cases h
  | doPendingFunctors =>
      rw [step] at h
      split at h
      · next hphase =>
        cases h
        simp [runs, queues, waiting, hphase, Phase.functors]
      · cases h
  | runFunctor =>
      rw [step] at h
      split at h
      · next f functors hphase =>
        cases h
        simp [runs, queues, waiting, hphase, Phase.functors]
      · cases h
  | endIteration =>
      rw [step] at h
      split at h
      · next hphase =>
        cases h
        simp only [runs, queues, waiting, hphase]
        split_ifs <;> simp [Phase.functors]
      · cases h

/-- **Every functor runs once, in order.** Whatever the threads do and whatever the functors queue while they
run: the functors run, followed by those that are to run, are those queued before and those queued since, in
the order of the queue; and while the loop polls all that were swapped out have run. -/
theorem functors_of_run (body : Body F) (before : List F) (es : List (Event F)) (l : EventLoop F)
    (hrun : Run.run (step body) (start before) es = .ok l) :
    Run.log (step body) runs (start before) es ++ l.waiting =
        before ++ Run.log (step body) (queues body) (start before) es ∧
      (l.phase = .polling → l.waiting = l.pendingFunctors) := by
  refine ⟨Run.log_conserved (fun _ _ _ => waiting_step) hrun, fun hphase => ?_⟩
  rw [waiting, hphase]
  rfl

/-- A functor that queues another one. -/
theorem functors_of_run_two :
    ∃ l, Run.run (step ⟨fun n : Nat => if n = 1 then [2] else [], fun _ => false⟩) (start [1])
        [.queueInLoop 3, .wakeup, .poll true, .handleRead, .doPendingFunctors, .runFunctor, .runFunctor,
          .endIteration] = .ok l ∧
      Run.log (step ⟨fun n : Nat => if n = 1 then [2] else [], fun _ => false⟩) runs (start [1])
          [.queueInLoop 3, .wakeup, .poll true, .handleRead, .doPendingFunctors, .runFunctor, .runFunctor,
            .endIteration] ++ l.waiting =
        [1] ++ Run.log (step ⟨fun n : Nat => if n = 1 then [2] else [], fun _ => false⟩)
          (queues ⟨fun n : Nat => if n = 1 then [2] else [], fun _ => false⟩) (start [1])
          [.queueInLoop 3, .wakeup, .poll true, .handleRead, .doPendingFunctors, .runFunctor, .runFunctor,
            .endIteration] ∧
      (l.phase = .polling → l.waiting = l.pendingFunctors) :=
  ⟨_, rfl, functors_of_run _ [1] _ _ rfl⟩

/-! ## No sleep on a queue -/

/-- Somebody has written to the `eventfd`, or is about to. -/
def Announced (l : EventLoop F) : Prop := 0 < l.wakeupFd ∨ 0 < l.wakeups

/-- What the loop may sleep on: nothing, or what its own thread queued before it began. -/
structure Awake (before : List F) (l : EventLoop F) : Prop where
  polling : l.phase = .polling →
    l.Announced ∨ l.quit = false ∧ (l.pendingFunctors = [] ∨ l.iteration = 0 ∧ l.pendingFunctors = before)
  calling : ∀ functors, l.phase = .callingPendingFunctors functors → l.Announced ∨ l.pendingFunctors = []

theorem awake_start (before : List F) : Awake before (start before) where
  polling _ := .inr ⟨rfl, .inr ⟨rfl, rfl⟩⟩
  calling _ h := nomatch h

/-- A loop that is announced may sleep on anything. -/
theorem Awake.of_announced {before : List F} (h : l.Announced) : Awake before l :=
  ⟨fun _ => .inl h, fun _ _ => .inl h⟩

/-- An event while the events are handled: the queue is taken afterwards. -/
theorem Awake.of_eventHandling {before : List F} {woken : Bool} (h : l.phase = .eventHandling woken) :
    Awake before l := by
  refine ⟨fun hphase => ?_, fun _ hphase => ?_⟩
  · rw [h] at hphase
    cases hphase
  · rw [h] at hphase
    cases hphase

theorem Awake.step {before : List F} {e : Event F} (h : Awake before l) (hstep : step body l e = .ok l') :
    Awake before l' := by
  cases e with
  | queueInLoop f =>
      cases hstep
      exact .of_announced (.inr (Nat.succ_pos l.wakeups))
  | quit =>
      cases hstep
      exact .of_announced (.inr (Nat.succ_pos l.wakeups))
  | wakeup =>
      rw [EventLoop.step] at hstep
      split_ifs at hstep
      cases hstep
      exact .of_announced (.inl (Nat.succ_pos l.wakeupFd))
  | poll woken =>
      rw [EventLoop.step] at hstep
      split at hstep
      · split_ifs at hstep
        cases hstep
        exact .of_eventHandling rfl
      · cases hstep
  | handleRead =>
      rw [EventLoop.step] at hstep
      split at hstep
      · cases hstep
        exact .of_eventHandling rfl
      · cases hstep
  | queueInCallback f =>
      rw [EventLoop.step] at hstep
      split at hstep
      · next hphase =>
        cases hstep
        exact .of_eventHandling hphase
      · cases hstep
  | quitInCallback =>
      rw [EventLoop.step] at hstep
      split at hstep
      · next hphase =>
        cases hstep
        exact .of_eventHandling hphase
      · cases hstep
  | doPendingFunctors =>
      rw [EventLoop.step] at hstep
      split at hstep
      · cases hstep
        exact ⟨fun hphase => (nomatch hphase), fun _ _ => .inr rfl⟩
      · cases hstep
  | runFunctor =>
      rw [EventLoop.step] at hstep
      split at hstep
      · next f functors hphase =>
        cases hstep
        refine ⟨fun hphase => (nomatch hphase), fun _ _ => ?_⟩
        -- what the functor queues it announces
        rcases hqueues : body.queues f with _ | ⟨g, gs⟩
        · refine (h.calling _ hphase).imp (fun hannounced => ?_) (fun hempty => ?_)
          · exact hannounced.imp_left fun hfd => Nat.lt_of_lt_of_le hfd (Nat.le_add_right _ _)
          · simp [hempty]
        · refine .inl (.inl ?_)
          change 0 < l.wakeupFd + (g :: gs).length
          exact Nat.lt_of_lt_of_le (Nat.succ_pos gs.length) (Nat.le_add_left _ _)
      · cases hstep
  | endIteration =>
      rw [EventLoop.step] at hstep
      split at hstep
      · next hphase =>
        cases hstep
        refine ⟨fun hpolling => ?_, fun functors hcalling => ?_⟩
        · cases hquit : l.quit with
          | true => simp [hquit] at hpolling
          | false => exact (h.calling _ hphase).imp id fun hempty => ⟨rfl, .inl hempty⟩
        · split_ifs at hcalling
      · cases hstep

/-- **The loop does not oversleep.** Whenever the loop polls, and a functor is in the queue or `quit` was
called, the `eventfd` is readable or a thread is about to write to it; the one exception is the first poll,
with nothing in the queue but what the loop's own thread put there before. -/
theorem wakeup_of_run (body : Body F) (before : List F) (es : List (Event F)) (l : EventLoop F)
    (hrun : Run.run (step body) (start before) es = .ok l) (hphase : l.phase = .polling)
    (hwork : l.pendingFunctors ≠ [] ∨ l.quit = true) :
    0 < l.wakeupFd ∨ 0 < l.wakeups ∨ l.iteration = 0 ∧ l.quit = false ∧ l.pendingFunctors = before := by
  have hawake : Awake before l :=
    Run.run_invariant (fun _ _ _ h _ hstep => h.step hstep) (awake_start before)
      (Run.always_of_forall (fun _ _ => trivial) _ es) hrun
  rcases hawake.polling hphase with (hfd | hwakeups) | ⟨hquit, hempty | ⟨hiteration, hbefore⟩⟩
  · exact .inl hfd
  · exact .inr (.inl hwakeups)
  · exact (hwork.elim (fun hne => absurd hempty hne) (fun hq => by rw [hquit] at hq; cases hq))
  · exact .inr (.inr ⟨hiteration, hquit, hbefore⟩)

/-- A functor that is queued between the swap and the next poll. -/
theorem wakeup_of_run_late :
    ∃ l, Run.run (step ⟨fun _ : Nat => [], fun _ => false⟩) (start [])
        [.poll false, .doPendingFunctors, .queueInLoop 1, .endIteration] = .ok l ∧
      l.phase = .polling ∧ (l.pendingFunctors ≠ [] ∨ l.quit = true) ∧
      (0 < l.wakeupFd ∨ 0 < l.wakeups ∨ l.iteration = 0 ∧ l.quit = false ∧ l.pendingFunctors = []) :=
  ⟨_, rfl, rfl, .inl (by simp), wakeup_of_run ⟨fun _ : Nat => [], fun _ => false⟩ []
    [.poll false, .doPendingFunctors, .queueInLoop 1, .endIteration] _ rfl rfl (.inl (by simp))⟩

end EventLoop

end Net

end AimChat
