import AimChat.Lib.Run

/-! # Timed calls

A run of calls, each made at a reading of a clock. A machine that never faults is a function
`σ → ε → σ`; `Run.total` makes it a machine of `Run`, and its run is the fold. -/

namespace AimChat

universe u v w

/-- A call and the reading of the clock it is made at. -/
structure Timed (τ : Type u) (κ : Type v) where
  now : τ
  call : κ
  deriving DecidableEq, Repr

/-- The clock does not go back along the calls. -/
def NonDecreasing {τ : Type u} {κ : Type v} [LE τ] (es : List (Timed τ κ)) : Prop :=
  es.Pairwise fun a b => a.now ≤ b.now

section Clock

variable {τ : Type u} {κ : Type v} [LE τ]

instance [DecidableLE τ] (es : List (Timed τ κ)) : Decidable (NonDecreasing es) :=
  inferInstanceAs (Decidable (es.Pairwise _))

theorem NonDecreasing.left {es fs : List (Timed τ κ)} (h : NonDecreasing (es ++ fs)) : NonDecreasing es :=
  (List.pairwise_append.1 h).1

theorem NonDecreasing.right {es fs : List (Timed τ κ)} (h : NonDecreasing (es ++ fs)) : NonDecreasing fs :=
  (List.pairwise_append.1 h).2.1

theorem NonDecreasing.tail {e : Timed τ κ} {es : List (Timed τ κ)} (h : NonDecreasing (e :: es)) :
    NonDecreasing es :=
  (List.pairwise_cons.1 h).2

/-- No call is made later than one behind it. -/
theorem NonDecreasing.le {es fs : List (Timed τ κ)} (h : NonDecreasing (es ++ fs)) {e f : Timed τ κ}
    (he : e ∈ es) (hf : f ∈ fs) : e.now ≤ f.now :=
  (List.pairwise_append.1 h).2.2 e he f hf

/-- No call of a run is made later than the one that follows it. -/
theorem NonDecreasing.le_last {es : List (Timed τ κ)} {e f : Timed τ κ} (h : NonDecreasing (es ++ [f]))
    (he : e ∈ es) : e.now ≤ f.now :=
  h.le he (List.mem_singleton_self f)

end Clock

namespace Run

variable {σ : Type u} {ε : Type v} {φ : Type w}

/-- A machine that never faults. -/
def total (f : σ → ε → σ) : σ → ε → Except φ σ := fun s e => .ok (f s e)

/-- Its run is the fold. -/
theorem run_total (f : σ → ε → σ) (s : σ) (es : List ε) :
    run (total f : σ → ε → Except φ σ) s es = .ok (es.foldl f s) := by
  induction es generalizing s with
  | nil => rfl
  | cons e es ih => exact ih (f s e)

end Run

end AimChat
