import Mathlib.Data.List.Induction

/-! # Runs of a machine that can fault

A machine is a step function `σ → ε → Except φ σ`: an event takes a state to the next one or faults.
`run` folds it over a list of events, `Always` says that a relation between state and event holds at
every step a run takes. The rules below turn a fact about one step into a fact about whole runs: an
invariant (`run_invariant`), what one event leaves behind (`run_of_mem`), a fact about the history so far
(`run_history`), a property of every step (`always_of_invariant`), and the exact condition for a property of
every state (`forall_prefix_iff_always`). -/

namespace AimChat.Run

universe u v w

variable {σ : Type u} {ε : Type v} {φ : Type w} (step : σ → ε → Except φ σ)

/-- The state after a list of events, or the first fault. -/
def run : σ → List ε → Except φ σ
  | s, [] => .ok s
  | s, e :: es =>
      match step s e with
      | .ok s' => run s' es
      | .error f => .error f

/-- `P` holds of the state and the event at every step the run takes. A run that faults takes no step
after the fault. -/
def Always (P : σ → ε → Prop) : σ → List ε → Prop
  | _, [] => True
  | s, e :: es => P s e ∧ ∀ s', step s e = .ok s' → Always P s' es

variable {step}

/-- Whether a property holds at every step of a concrete run can be computed. -/
instance decidableAlways {P : σ → ε → Prop} [∀ s e, Decidable (P s e)] :
    ∀ s es, Decidable (Always step P s es)
  | _, [] => .isTrue trivial
  | s, e :: es =>
      have hrest : Decidable (∀ s', step s e = .ok s' → Always step P s' es) :=
        match h : step s e with
        | .ok t => @decidable_of_iff _ _
            ⟨fun ht s' hs' => Except.ok.inj hs' ▸ ht, fun hall => hall t rfl⟩ (decidableAlways t es)
        | .error _ => .isTrue fun _ hs' => by cases hs'
      inferInstanceAs (Decidable (P s e ∧ ∀ s', step s e = .ok s' → Always step P s' es))

@[simp] theorem run_nil (s : σ) : run step s [] = .ok s := rfl

/-- A run takes its first event and goes on from the state that gives. -/
theorem run_cons_eq_ok {s s' : σ} {e : ε} {es : List ε} :
    run step s (e :: es) = .ok s' ↔ ∃ t, step s e = .ok t ∧ run step t es = .ok s' := by
  rw [run]
  cases h : step s e with
  | ok t => simp
  | error f => simp

/-- A run of `es ++ fs` is a run of `es` followed by one of `fs`. -/
theorem run_append_eq_ok {s s' : σ} {es fs : List ε} :
    run step s (es ++ fs) = .ok s' ↔ ∃ t, run step s es = .ok t ∧ run step t fs = .ok s' := by
  induction es generalizing s with
  | nil => simp
  | cons e es ih =>
      simp only [List.cons_append, run_cons_eq_ok, ih]
      constructor
      · rintro ⟨t, hst, r, hr, hrs⟩
        exact ⟨r, ⟨t, hst, hr⟩, hrs⟩
      · rintro ⟨r, ⟨t, hst, hr⟩, hrs⟩
        exact ⟨t, hst, r, hr, hrs⟩

/-- A run whose last event is `e` is a run up to `e` and one step. -/
theorem run_snoc_eq_ok {s s' : σ} {es : List ε} {e : ε} :
    run step s (es ++ [e]) = .ok s' ↔ ∃ t, run step s es = .ok t ∧ step t e = .ok s' := by
  rw [run_append_eq_ok]
  simp [run_cons_eq_ok]

/-- `Always` over `es ++ fs` is `Always` over `es` and, from the state it ends in, over `fs`. -/
theorem always_append {P : σ → ε → Prop} {s : σ} {es fs : List ε} :
    Always step P s (es ++ fs) ↔
      Always step P s es ∧ ∀ t, run step s es = .ok t → Always step P t fs := by
  induction es generalizing s with
  | nil => simp [Always]
  | cons e es ih =>
      simp only [List.cons_append, Always, ih, run_cons_eq_ok]
      constructor
      · rintro ⟨hP, hrest⟩
        refine ⟨⟨hP, fun s' hs' => (hrest s' hs').1⟩, ?_⟩
        rintro t ⟨s', hs', ht⟩
        exact (hrest s' hs').2 t ht
      · rintro ⟨⟨hP, hes⟩, hfs⟩
        exact ⟨hP, fun s' hs' => ⟨hes s' hs', fun t ht => hfs t ⟨s', hs', ht⟩⟩⟩

/-- The first part of a run that always meets `P` does. -/
theorem Always.left {P : σ → ε → Prop} {s : σ} {es fs : List ε}
    (h : Always step P s (es ++ fs)) : Always step P s es :=
  (always_append.mp h).1

/-- In a run that always meets `P`, the event after `es` meets it in the state `es` leads to. -/
theorem Always.at_snoc {P : σ → ε → Prop} {s t : σ} {es fs : List ε} {e : ε}
    (h : Always step P s (es ++ e :: fs)) (ht : run step s es = .ok t) : P t e :=
  ((always_append.mp h).2 t ht).1

/-- What holds after every part of a run, of the state there and the event behind it, holds at every step. -/
theorem always_of_splits {P : σ → ε → Prop} {s : σ} {es : List ε}
    (h : ∀ pre e post t, es = pre ++ e :: post → run step s pre = .ok t → P t e) : Always step P s es := by
  induction es generalizing s with
  | nil => trivial
  | cons e es ih =>
      refine ⟨h [] e es s rfl rfl, fun t ht => ih ?_⟩
      rintro pre e' post r rfl hr
      exact h (e :: pre) e' post r rfl (run_cons_eq_ok.2 ⟨t, ht, hr⟩)

/-- **Invariant rule.** What each step meeting `P` preserves holds after every run that always
meets `P`. -/
theorem run_invariant {P : σ → ε → Prop} {I : σ → Prop}
    (hstep : ∀ s e s', I s → P s e → step s e = .ok s' → I s') {s s' : σ} {es : List ε}
    (hI : I s) (hP : Always step P s es) (hrun : run step s es = .ok s') : I s' := by
  induction es generalizing s with
  | nil => rw [run_nil] at hrun; cases hrun; exact hI
  | cons e es ih =>
      obtain ⟨t, hst, ht⟩ := run_cons_eq_ok.mp hrun
      exact ih (hstep s e t hI hP.1 hst) (hP.2 t hst) ht

/-- **Event rule.** What an event brings about in a state that meets the invariant `J`, and every step keeps, holds
after every run with that event. -/
theorem run_of_mem {P : σ → ε → Prop} {I J : σ → Prop} {e : ε}
    (hinv : ∀ s e s', J s → P s e → step s e = .ok s' → J s')
    (hmakes : ∀ s s', J s → P s e → step s e = .ok s' → I s')
    (hkeeps : ∀ s e s', I s → P s e → step s e = .ok s' → I s') {s s' : σ} {es : List ε}
    (hJ : J s) (hP : Always step P s es) (hrun : run step s es = .ok s') (he : e ∈ es) : I s' := by
  obtain ⟨pre, post, rfl⟩ := List.mem_iff_append.1 he
  obtain ⟨hpre, hrest⟩ := always_append.1 hP
  obtain ⟨t, ht, hrun⟩ := run_append_eq_ok.1 hrun
  obtain ⟨t', hstep, hrun⟩ := run_cons_eq_ok.1 hrun
  obtain ⟨hevent, hpost⟩ := hrest t ht
  exact run_invariant hkeeps (hmakes t t' (run_invariant hinv hJ hpre ht) hevent hstep) (hpost t' hstep) hrun

/-- **History rule.** A relation between the events so far and the state, kept by each step that
meets `P`, holds after every run that always meets `P`. -/
theorem run_history {P : σ → ε → Prop} {s₀ : σ} {J : List ε → σ → Prop} (h₀ : J [] s₀)
    (hstep : ∀ es s e s', run step s₀ es = .ok s → J es s → P s e → step s e = .ok s' →
      J (es ++ [e]) s')
    {es : List ε} {s : σ} (hP : Always step P s₀ es) (hrun : run step s₀ es = .ok s) : J es s := by
  induction es using List.reverseRecOn generalizing s with
  | nil => rw [run_nil] at hrun; cases hrun; exact h₀
  | append_singleton es e ih =>
      obtain ⟨t, ht, hst⟩ := run_snoc_eq_ok.mp hrun
      exact hstep es t e s ht (ih hP.left ht) (hP.at_snoc ht) hst

/-- A property of each step that follows from an invariant holds at every step of a run. -/
theorem always_of_invariant {P Q : σ → ε → Prop} {I : σ → Prop}
    (hstep : ∀ s e s', I s → P s e → step s e = .ok s' → I s')
    (hQ : ∀ s e, I s → P s e → Q s e) {s : σ} {es : List ε}
    (hI : I s) (hP : Always step P s es) : Always step Q s es := by
  induction es generalizing s with
  | nil => trivial
  | cons e es ih =>
      exact ⟨hQ s e hI hP.1, fun s' hs' => ih (hstep s e s' hI hP.1 hs') (hP.2 s' hs')⟩

/-- What holds of every state and event holds at every step. -/
theorem always_of_forall {P : σ → ε → Prop} (h : ∀ s e, P s e) (s : σ) (es : List ε) : Always step P s es := by
  induction es generalizing s with
  | nil => trivial
  | cons e es ih => exact ⟨h s e, fun s' _ => ih s'⟩

/-- A weaker property holds at every step. -/
theorem Always.mono {P Q : σ → ε → Prop} (hPQ : ∀ s e, P s e → Q s e) {s : σ} {es : List ε}
    (h : Always step P s es) : Always step Q s es := by
  induction es generalizing s with
  | nil => trivial
  | cons e es ih => exact ⟨hPQ s e h.1, fun s' hs' => ih (h.2 s' hs')⟩

/-- Relations equal at every state that satisfies an invariant of the machine are equal along runs. -/
theorem always_congr {P Q : σ → ε → Prop} {I : σ → Prop}
    (hstep : ∀ s e s', I s → step s e = .ok s' → I s') (hPQ : ∀ s e, I s → (P s e ↔ Q s e))
    {s : σ} {es : List ε} (hI : I s) : Always step P s es ↔ Always step Q s es := by
  induction es generalizing s with
  | nil => rfl
  | cons e es ih =>
      simp only [Always, hPQ s e hI]
      refine and_congr_right fun _ => forall₂_congr fun s' hs' => ?_
      exact ih (hstep s e s' hI hs')

/-- **Exactness rule.** When a step from a state that meets `Q` leads to one that does exactly when it
meets `P`, then `Q` holds in every state a run passes through exactly when every step of it meets `P`.
`I` is an invariant of the machine under the assumption `H` on its steps. -/
theorem forall_prefix_iff_always {I Q : σ → Prop} {H P : σ → ε → Prop}
    (hinv : ∀ s e s', I s → H s e → step s e = .ok s' → I s')
    (hstep : ∀ s e s', I s → Q s → H s e → step s e = .ok s' → (Q s' ↔ P s e))
    (hfault : ∀ s e f, I s → Q s → H s e → step s e = .error f → P s e)
    {s : σ} {es : List ε} (hI : I s) (hQ : Q s) (hH : Always step H s es) :
    (∀ pre s', pre <+: es → run step s pre = .ok s' → Q s') ↔ Always step P s es := by
  induction es generalizing s with
  | nil =>
      refine iff_of_true (fun pre s' hpre hrun => ?_) trivial
      rw [List.prefix_nil.1 hpre, run_nil] at hrun
      cases hrun
      exact hQ
  | cons e es ih =>
      obtain ⟨hHe, hHes⟩ := hH
      constructor
      · intro h
        -- from the second state on the rest of the run is the shorter run
        have hrest : ∀ t, step s e = .ok t → Q t ∧ Always step P t es := by
          intro t ht
          have hQt : Q t := h [e] t ⟨es, rfl⟩ (run_cons_eq_ok.2 ⟨t, ht, rfl⟩)
          refine ⟨hQt, (ih (hinv s e t hI hHe ht) hQt (hHes t ht)).1 fun pre s' hpre hrun => ?_⟩
          exact h (e :: pre) s' (List.cons_prefix_cons.2 ⟨rfl, hpre⟩)
            (run_cons_eq_ok.2 ⟨t, ht, hrun⟩)
        refine ⟨?_, fun t ht => (hrest t ht).2⟩
        cases ht : step s e with
        | error f => exact hfault s e f hI hQ hHe ht
        | ok t => exact (hstep s e t hI hQ hHe ht).1 (hrest t ht).1
      · rintro ⟨hP, hPes⟩ pre s' hpre hrun
        cases pre with
        | nil =>
            cases hrun
            exact hQ
        | cons e' pre =>
            obtain ⟨rfl, hpre'⟩ := List.cons_prefix_cons.1 hpre
            obtain ⟨t, ht, hrun⟩ := run_cons_eq_ok.1 hrun
            have hQt : Q t := (hstep s e' t hI hQ hHe ht).2 hP
            exact (ih (hinv s e' t hI hHe ht) hQt (hHes t ht)).2 (hPes t ht) pre s' hpre' hrun

/-- A run ends in a fault exactly when one of its steps does. -/
theorem run_ne_error_iff_always {f : φ} {s : σ} {es : List ε} :
    run step s es ≠ .error f ↔ Always step (fun s e => step s e ≠ .error f) s es := by
  induction es generalizing s with
  | nil => simp [Always]
  | cons e es ih =>
      rw [run, Always]
      cases h : step s e with
      | ok s' =>
          simp only [ne_eq, reduceCtorEq, not_false_eq_true, true_and, Except.ok.injEq, forall_eq']
          exact ih
      | error g => simp

/-- Two properties of every step. -/
theorem always_and {P Q : σ → ε → Prop} {s : σ} {es : List ε} :
    Always step (fun s e => P s e ∧ Q s e) s es ↔ Always step P s es ∧ Always step Q s es := by
  induction es generalizing s with
  | nil => exact ⟨fun _ => ⟨trivial, trivial⟩, fun _ => trivial⟩
  | cons e es ih =>
      constructor
      · rintro ⟨⟨hP, hQ⟩, hrest⟩
        exact ⟨⟨hP, fun s' hs' => (ih.1 (hrest s' hs')).1⟩, hQ, fun s' hs' => (ih.1 (hrest s' hs')).2⟩
      · rintro ⟨⟨hP, hPs⟩, hQ, hQs⟩
        exact ⟨⟨hP, hQ⟩, fun s' hs' => ih.2 ⟨hPs s' hs', hQs s' hs'⟩⟩

/-- What holds of every event holds at every step. -/
theorem always_of_forall_mem {P : ε → Prop} {s : σ} {es : List ε} (h : ∀ e ∈ es, P e) :
    Always step (fun _ e => P e) s es := by
  induction es generalizing s with
  | nil => trivial
  | cons e es ih =>
      exact ⟨h e List.mem_cons_self, fun _ _ => ih fun e' he' => h e' (List.mem_cons_of_mem _ he')⟩

/-! ## Steps that map a result -/

theorem map_eq_ok {α β : Type*} {f : α → β} {x : Except φ α} {y : β} :
    x.map f = .ok y ↔ ∃ a, x = .ok a ∧ f a = y := by
  cases x <;> simp [Except.map]

/-! ## Logs -/

/-- What `f` yields at the steps a run takes, in order. -/
def log {α : Type*} (step : σ → ε → Except φ σ) (f : σ → ε → List α) : σ → List ε → List α
  | _, [] => []
  | s, e :: es =>
      f s e ++
        match step s e with
        | .ok s' => log step f s' es
        | .error _ => []

/-- The log of a run and of one that follows it. -/
theorem log_append {α : Type*} (f : σ → ε → List α) {s t : σ} {es : List ε} (h : run step s es = .ok t)
    (fs : List ε) : log step f s (es ++ fs) = log step f s es ++ log step f t fs := by
  induction es generalizing s with
  | nil =>
      cases h
      rfl
  | cons e es ih =>
      obtain ⟨s', hs', hrest⟩ := run_cons_eq_ok.1 h
      rw [List.cons_append, log, log, hs']
      dsimp only
      rw [ih hrest, List.append_assoc]

/-- The log of one more event. -/
theorem log_snoc {α : Type*} (f : σ → ε → List α) {s t : σ} {es : List ε} (h : run step s es = .ok t)
    (e : ε) : log step f s (es ++ [e]) = log step f s es ++ f t e := by
  rw [log_append f h, log]
  cases step t e with
  | ok s' => exact congrArg _ (List.append_nil _)
  | error _ => exact congrArg _ (List.append_nil _)

/-- What is in a log was yielded by an event. -/
theorem exists_of_mem_log {α : Type*} {f : σ → ε → List α} {s : σ} {es : List ε} {x : α}
    (h : x ∈ log step f s es) : ∃ e ∈ es, ∃ t, x ∈ f t e := by
  induction es generalizing s with
  | nil => cases h
  | cons e es ih =>
      rw [log] at h
      rcases List.mem_append.1 h with h | h
      · exact ⟨e, List.mem_cons_self, s, h⟩
      · cases hstep : step s e with
        | ok s' =>
            rw [hstep] at h
            obtain ⟨e', he', t, ht⟩ := ih h
            exact ⟨e', List.mem_cons_of_mem _ he', t, ht⟩
        | error f =>
            rw [hstep] at h
            cases h

/-- A run of a concrete machine, evaluated. -/
theorem exists_of_eval {x : Except φ σ} {Q : σ → Prop} [DecidablePred Q]
    (h : (match x with | .ok s => decide (Q s) | .error _ => false) = true) : ∃ s, x = .ok s ∧ Q s := by
  cases x with
  | ok s => exact ⟨s, rfl, of_decide_eq_true h⟩
  | error f => cases h

end AimChat.Run
