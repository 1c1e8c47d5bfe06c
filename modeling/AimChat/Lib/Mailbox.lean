import Mathlib.Data.List.Basic

/-! # Mailboxes in one list

The entries of many owners stand in one list, in the order they came in. An entry is put at the end;
taking an owner's entries hands them out in order and leaves the others. What an owner gets over a whole
history of calls, followed by what still stands for them, is what stood for them before followed by what
was put for them: nothing is lost, doubled or reordered (`taken_append_of_after`). -/

namespace AimChat.Mailbox

universe u v

variable {κ : Type u} {α : Type v} [DecidableEq κ] (key : α → κ)

/-- The entries of an owner, in order. -/
def of (k : κ) (l : List α) : List α := l.filter fun x => key x = k

/-- The entries of everybody else, in order. -/
def without (k : κ) (l : List α) : List α := l.filter fun x => key x ≠ k

section Entries

variable (k j : κ) (l m : List α) (x : α)

@[simp] theorem of_nil : of key k [] = [] := rfl

@[simp] theorem without_nil : without key k [] = [] := rfl

theorem of_append : of key k (l ++ m) = of key k l ++ of key k m := by
  simp [of]

theorem of_cons : of key k (x :: l) = if key x = k then x :: of key k l else of key k l := by
  simp [of, List.filter_cons]

theorem without_cons :
    without key k (x :: l) = if key x = k then without key k l else x :: without key k l := by
  by_cases hx : key x = k
  · simp [without, hx]
  · simp [without, hx]

/-- An owner whose entries were taken has none. -/
@[simp] theorem of_without_self : of key k (without key k l) = [] := by
  simp [of, without]

/-- Nobody else's entries change. -/
theorem of_without_of_ne {k j : κ} (h : j ≠ k) : of key j (without key k l) = of key j l := by
  induction l with
  | nil => rfl
  | cons x l ih =>
      rw [without_cons, of_cons]
      by_cases hk : key x = k
      · have hj : key x ≠ j := fun hj => h (hj.symm.trans hk)
        rw [if_pos hk, if_neg hj, ih]
      · rw [if_neg hk, of_cons, ih]

end Entries

/-- A call: put an entry, or take the entries of an owner. -/
inductive Call (κ : Type u) (α : Type v) where
  | put (x : α)
  | take (k : κ)

variable {key}

/-- The list a call leaves. -/
def Call.apply (key : α → κ) : Call κ α → List α → List α
  | .put x, l => l ++ [x]
  | .take k, l => without key k l

/-- The list a history of calls leaves. -/
def after (key : α → κ) (l : List α) (calls : List (Call κ α)) : List α :=
  calls.foldl (fun l c => c.apply key l) l

/-- What an owner is handed over a history of calls. -/
def taken (key : α → κ) (k : κ) : List α → List (Call κ α) → List α
  | _, [] => []
  | l, .put x :: calls => taken key k (l ++ [x]) calls
  | l, .take j :: calls =>
      (if j = k then of key k l else []) ++ taken key k (without key j l) calls

/-- What is put for an owner over a history of calls. -/
def puts (key : α → κ) (k : κ) : List (Call κ α) → List α
  | [] => []
  | .put x :: calls => if key x = k then x :: puts key k calls else puts key k calls
  | .take _ :: calls => puts key k calls

/-- What an owner is handed, followed by what stands for them in the end, is what stood for them in the
beginning followed by what was put for them. -/
theorem taken_append_of_after (key : α → κ) (k : κ) (l : List α) (calls : List (Call κ α)) :
    taken key k l calls ++ of key k (after key l calls) = of key k l ++ puts key k calls := by
  induction calls generalizing l with
  | nil => simp [taken, puts, after]
  | cons c calls ih =>
      cases c with
      | put x =>
          have hrest := ih (l ++ [x])
          rw [of_append, of_cons, of_nil] at hrest
          simp only [taken, puts, after, List.foldl_cons, Call.apply] at hrest ⊢
          by_cases hx : key x = k
          · rw [if_pos hx] at hrest ⊢
            rw [hrest, List.append_assoc, List.singleton_append]
          · rw [if_neg hx] at hrest ⊢
            rw [hrest, List.append_nil]
      | take j =>
          have hrest := ih (without key j l)
          simp only [taken, puts, after, List.foldl_cons, Call.apply] at hrest ⊢
          by_cases hj : j = k
          · -- the owner's own call: what stood is handed out, nothing of it stays
            subst hj
            rw [of_without_self, List.nil_append] at hrest
            rw [if_pos rfl, List.append_assoc, hrest]
          · rw [of_without_of_ne key l (Ne.symm hj)] at hrest
            rw [if_neg hj, List.nil_append, hrest]

end AimChat.Mailbox
