import AimChat.Lib.Run

/-! # Refinement between machines

A machine refines another one when every step of it is a list of steps of the other, up to a relation
between their states: `Simulation`. The list may depend on the state (a read takes what there is room
for) and may be empty (a step that only moves memory). The rules turn the fact about one step into one
about whole runs: a run of the refining machine is a run of the other on the events it means
(`Simulation.run`), and what every run of the other guarantees holds of the refining one
(`Simulation.invariant`). `log_conserved` is the rule for what passes through a machine as through a queue. -/

namespace AimChat.Run

universe u v w

variable {σ τ : Type u} {ε δ : Type v} {φ ψ : Type w}

/-- Each step of `c` is the run of `a` on the events `means` gives it, from any related state. -/
structure Simulation (c : σ → ε → Except φ σ) (a : τ → δ → Except ψ τ) (means : σ → ε → List δ)
    (R : σ → τ → Prop) : Prop where
  step : ∀ s t e s', R s t → c s e = .ok s' → ∃ t', Run.run a t (means s e) = .ok t' ∧ R s' t'

namespace Simulation

variable {c : σ → ε → Except φ σ} {a : τ → δ → Except ψ τ} {means : σ → ε → List δ} {R : σ → τ → Prop}

/-- **Refinement of runs.** A run of the refining machine is a run of the other on what its events mean. -/
theorem run (h : Simulation c a means R) {s s' : σ} {t : τ} {es : List ε} (hR : R s t)
    (hrun : Run.run c s es = .ok s') :
    ∃ t', Run.run a t (log c means s es) = .ok t' ∧ R s' t' := by
  induction es generalizing s t with
  | nil =>
      cases hrun
      exact ⟨t, rfl, hR⟩
  | cons e es ih =>
      obtain ⟨r, hr, hrest⟩ := run_cons_eq_ok.1 hrun
      obtain ⟨u, hu, hRu⟩ := h.step s t e r hR hr
      obtain ⟨t', ht', hRt'⟩ := ih hRu hrest
      refine ⟨t', ?_, hRt'⟩
      rw [log, hr, run_append_eq_ok]
      exact ⟨u, hu, ht'⟩

/-- **Transfer of invariants.** What holds after every run of the other machine holds, through the
relation, after every run of the refining one. -/
theorem invariant (h : Simulation c a means R) {s : σ} {t : τ} (hR : R s t) {P : τ → Prop}
    (hP : ∀ ds t', Run.run a t ds = .ok t' → P t') {es : List ε} {s' : σ}
    (hrun : Run.run c s es = .ok s') : ∃ t', R s' t' ∧ P t' := by
  obtain ⟨t', ht', hRt'⟩ := h.run hR hrun
  exact ⟨t', hRt', hP _ _ ht'⟩

end Simulation

/-- A simulation whose relation is the graph of an abstraction function. -/
theorem Simulation.of_abs {c : σ → ε → Except φ σ} {a : τ → δ → Except ψ τ} {means : σ → ε → List δ}
    {abs : σ → τ} (h : ∀ s e s', c s e = .ok s' → Run.run a (abs s) (means s e) = .ok (abs s')) :
    Simulation c a means fun s t => abs s = t where
  step s _ e s' hR hs := ⟨abs s', hR ▸ h s e s' hs, rfl⟩

/-- **First in, first out.** Where each step takes something off the front of a list and puts something at
its end, what a run has taken, followed by what is left, is what was there, followed by what was put. -/
theorem log_conserved {α : Type*} {c : σ → ε → Except φ σ} {abs : σ → List α} {taken put : σ → ε → List α}
    (h : ∀ s e s', c s e = .ok s' → taken s e ++ abs s' = abs s ++ put s e) {s s' : σ} {es : List ε}
    (hrun : Run.run c s es = .ok s') : log c taken s es ++ abs s' = abs s ++ log c put s es := by
  induction es generalizing s with
  | nil =>
      cases hrun
      exact (List.append_nil _).symm
  | cons e es ih =>
      obtain ⟨t, ht, hrest⟩ := run_cons_eq_ok.1 hrun
      rw [log, log, ht]
      dsimp only
      calc taken s e ++ log c taken t es ++ abs s'
          = taken s e ++ (abs t ++ log c put t es) := by rw [List.append_assoc, ih hrest]
        _ = abs s ++ put s e ++ log c put t es := by rw [← List.append_assoc, h s e t ht]
        _ = abs s ++ (put s e ++ log c put t es) := List.append_assoc _ _ _

/-- A run of `es ++ fs` is one of `es`, then of `fs`. -/
theorem run_append {c : σ → ε → Except φ σ} (s : σ) (es fs : List ε) :
    Run.run c s (es ++ fs) = Run.run c s es >>= fun t => Run.run c t fs := by
  induction es generalizing s with
  | nil => rfl
  | cons e es ih =>
      rw [List.cons_append, Run.run, Run.run]
      cases c s e with
      | ok t => exact ih t
      | error f => rfl

/-- A run of one event. -/
theorem run_singleton {c : σ → ε → Except φ σ} (s : σ) (e : ε) : Run.run c s [e] = c s e := by
  rw [Run.run]
  cases c s e <;> rfl

/-- A step made of two goes through when both do. -/
theorem bind_eq_ok {α β : Type u} {x : Except φ α} {f : α → Except φ β} {b : β} :
    (x >>= f) = .ok b ↔ ∃ a, x = .ok a ∧ f a = .ok b := by
  cases x with
  | ok a =>
      constructor
      · exact fun h => ⟨a, rfl, h⟩
      · rintro ⟨_, ⟨⟩, h⟩
        exact h
  | error e =>
      constructor
      · intro h
        cases h
      · rintro ⟨_, ⟨⟩, _⟩

end AimChat.Run
