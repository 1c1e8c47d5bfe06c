import Mathlib.Computability.RegularExpressions
import Mathlib.Data.List.Basic

/-! # Character classes and lines

A character class is the sum of its characters, and a text of one or more of them is matched by the class
repeated (`oneOrMore_oneOf_iff`). Lines joined with a separator of two characters are the lines the text is
split into (`split_join`), provided that the first of the two stands in no line. -/

namespace AimChat.Text

universe u

variable {α : Type u}

/-! ## Character classes -/

section Classes

/-- One of the characters: `[abc]`. -/
def oneOf (cs : List α) : RegularExpression α := cs.foldr (fun c r => .char c + r) 0

/-- `r+` -/
def oneOrMore (r : RegularExpression α) : RegularExpression α := r * r.star

variable [DecidableEq α]

theorem oneOf_iff (cs x : List α) : (oneOf cs).rmatch x ↔ ∃ c ∈ cs, x = [c] := by
  induction cs with
  | nil =>
      rw [oneOf, List.foldr_nil, RegularExpression.zero_rmatch]
      exact iff_of_false Bool.false_ne_true fun ⟨c, hc, _⟩ => absurd hc List.not_mem_nil
  | cons c cs ih =>
      rw [oneOf, List.foldr_cons, RegularExpression.add_rmatch_iff, RegularExpression.char_rmatch_iff,
        List.exists_mem_cons_iff]
      exact or_congr_right ih

/-- A class repeated matches the texts of its characters. -/
theorem star_oneOf_iff (cs x : List α) : (oneOf cs).star.rmatch x ↔ ∀ c ∈ x, c ∈ cs := by
  rw [RegularExpression.star_rmatch_iff]
  constructor
  · rintro ⟨S, rfl, hS⟩ c hc
    obtain ⟨t, ht, hc⟩ := List.mem_flatten.1 hc
    obtain ⟨d, hd, rfl⟩ := (oneOf_iff cs t).1 (hS t ht).2
    rwa [List.mem_singleton.1 hc]
  · intro h
    refine ⟨x.map fun c => [c], by rw [← List.flatMap_def, List.flatMap_singleton'], ?_⟩
    intro t ht
    obtain ⟨c, hc, rfl⟩ := List.mem_map.1 ht
    exact ⟨List.cons_ne_nil _ _, (oneOf_iff cs _).2 ⟨c, h c hc, rfl⟩⟩

/-- So does one repeated once or more, the empty text apart. -/
theorem oneOrMore_oneOf_iff (cs x : List α) :
    (oneOrMore (oneOf cs)).rmatch x ↔ x ≠ [] ∧ ∀ c ∈ x, c ∈ cs := by
  rw [oneOrMore, RegularExpression.mul_rmatch_iff]
  constructor
  · rintro ⟨t, u, rfl, ht, hu⟩
    obtain ⟨c, hc, rfl⟩ := (oneOf_iff cs t).1 ht
    refine ⟨List.cons_ne_nil _ _, fun d hd => ?_⟩
    rcases List.mem_cons.1 hd with rfl | hd
    · exact hc
    · exact (star_oneOf_iff cs u).1 hu d hd
  · rintro ⟨hne, h⟩
    obtain ⟨c, u, rfl⟩ := List.exists_cons_of_ne_nil hne
    exact ⟨[c], u, rfl, (oneOf_iff cs _).2 ⟨c, h c List.mem_cons_self, rfl⟩,
      (star_oneOf_iff cs u).2 fun d hd => h d (List.mem_cons_of_mem _ hd)⟩

end Classes

/-! ## Lines -/

/-- The lines joined with `a` and `b`. -/
def join (a b : α) (ls : List (List α)) : List α := [a, b].intercalate ls

@[simp] theorem join_singleton (a b : α) (l : List α) : join a b [l] = l := List.intercalate_singleton

theorem join_cons_cons (a b : α) (l l' : List α) (ls : List (List α)) :
    join a b (l :: l' :: ls) = l ++ a :: b :: join a b (l' :: ls) := by
  rw [join, List.intercalate_cons_cons]
  simp [join]

variable [DecidableEq α]

/-- The text split wherever `a` and `b` stand side by side. -/
def split (a b : α) : List α → List (List α)
  | [] => [[]]
  | [x] => [[x]]
  | x :: y :: rest =>
      if x = a ∧ y = b then [] :: split a b rest
      else (split a b (y :: rest)).modifyHead (x :: ·)

variable {a b : α}

/-- A character other than the first of the separator belongs to the line it stands in. -/
theorem split_cons_of_ne {x : α} (hx : x ≠ a) (l : List α) :
    split a b (x :: l) = (split a b l).modifyHead (x :: ·) := by
  cases l with
  | nil => rfl
  | cons y rest => rw [split, if_neg fun h => hx h.1]

/-- Up to the first separator there is one line. -/
theorem split_append {l : List α} (hl : a ∉ l) (rest : List α) :
    split a b (l ++ a :: b :: rest) = l :: split a b rest := by
  induction l with
  | nil => rw [List.nil_append, split, if_pos ⟨rfl, rfl⟩]
  | cons x l ih =>
      rw [List.mem_cons, not_or] at hl
      rw [List.cons_append, split_cons_of_ne (Ne.symm hl.1), ih hl.2]
      rfl

/-- Without a separator there is one line. -/
theorem split_of_not_mem {l : List α} (hl : a ∉ l) : split a b l = [l] := by
  induction l with
  | nil => rfl
  | cons x l ih =>
      rw [List.mem_cons, not_or] at hl
      rw [split_cons_of_ne (Ne.symm hl.1), ih hl.2]
      rfl

/-- **Joined lines are the lines the text is split into.** -/
theorem split_join {ls : List (List α)} (hne : ls ≠ []) (hls : ∀ l ∈ ls, a ∉ l) :
    split a b (join a b ls) = ls := by
  induction ls with
  | nil => exact absurd rfl hne
  | cons l ls ih =>
      have hl := hls l List.mem_cons_self
      cases ls with
      | nil => rw [join_singleton, split_of_not_mem hl]
      | cons l' ls =>
          rw [join_cons_cons, split_append hl,
            ih (List.cons_ne_nil _ _) fun l'' hl'' => hls l'' (List.mem_cons_of_mem _ hl'')]

end AimChat.Text
