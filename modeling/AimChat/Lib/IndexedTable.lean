import Mathlib.Data.List.Basic
import Mathlib.Logic.Function.Basic

/-! # A table whose entries know where they stand

A list of keys and, for each key, the place where it stands. Keys are put at the end, and taken out by moving
the last one into the gap. `Inverse` says that the places are right; each operation keeps it, so that every
key in the table is found at its place and no other key has one. -/

namespace AimChat.IndexedTable

universe u

variable {κ : Type u} [DecidableEq κ]

/-- The places are those of the keys in the list. -/
def Inverse (keys : List κ) (place : κ → Option Nat) : Prop := ∀ k i, place k = some i ↔ keys[i]? = some k

variable {keys : List κ} {place : κ → Option Nat} {k : κ} {i : Nat}

omit [DecidableEq κ] in
theorem inverse_nil : Inverse ([] : List κ) fun _ => none := fun _ _ => by simp

namespace Inverse

omit [DecidableEq κ] in
theorem lt_length (h : Inverse keys place) (hk : place k = some i) : i < keys.length :=
  (List.getElem?_eq_some_iff.1 ((h k i).1 hk)).1

omit [DecidableEq κ] in
/-- A key stands at one place only. -/
theorem unique {j : Nat} (h : Inverse keys place) (hi : keys[i]? = some k) (hj : keys[j]? = some k) : i = j :=
  Option.some.inj (((h k i).2 hi).symm.trans ((h k j).2 hj))

omit [DecidableEq κ] in
theorem mem_iff (h : Inverse keys place) : k ∈ keys ↔ place k ≠ none := by
  rw [List.mem_iff_getElem?, Option.ne_none_iff_exists']
  exact ⟨fun ⟨i, hi⟩ => ⟨i, (h k i).2 hi⟩, fun ⟨i, hi⟩ => ⟨i, (h k i).1 hi⟩⟩

/-- A new key at the end. -/
theorem push (h : Inverse keys place) (hk : place k = none) :
    Inverse (keys ++ [k]) (Function.update place k (some keys.length)) := by
  intro k' j
  rcases eq_or_ne k' k with rfl | hne
  · rw [Function.update_self, Option.some.injEq]
    have hnot : ∀ j, keys[j]? ≠ some k' := fun j hj => by
      have := (h k' j).2 hj
      rw [hk] at this
      cases this
    constructor
    · rintro rfl
      exact List.getElem?_concat_length
    · intro hj
      rcases Nat.lt_or_ge j keys.length with hlt | hge
      · rw [List.getElem?_append_left hlt] at hj
        exact absurd hj (hnot j)
      · have hlt := (List.getElem?_eq_some_iff.1 hj).1
        rw [List.length_append, List.length_singleton] at hlt
        omega
  · rw [Function.update_of_ne hne, h k' j]
    rcases Nat.lt_or_ge j keys.length with hlt | hge
    · rw [List.getElem?_append_left hlt]
    · rw [List.getElem?_eq_none hge, List.getElem?_append_right hge]
      refine iff_of_false (by simp) fun hj => ?_
      cases hsub : j - keys.length with
      | zero => rw [hsub] at hj; exact hne (Option.some.inj hj).symm
      | succ m => rw [hsub] at hj; cases hj

/-- The last key is taken out. -/
theorem pop (h : Inverse keys place) (hk : place k = some i) (hlast : i = keys.length - 1) :
    Inverse keys.dropLast (Function.update place k none) := by
  have hlt := h.lt_length hk
  intro k' j
  rw [List.getElem?_dropLast]
  rcases eq_or_ne k' k with rfl | hne
  · rw [Function.update_self]
    refine iff_of_false (by simp) fun hj => ?_
    split_ifs at hj with hj'
    have := h.unique hj ((h k' i).1 hk)
    omega
  · rw [Function.update_of_ne hne, h k' j]
    split_ifs with hj
    · rfl
    · refine iff_of_false (fun hj' => ?_) (by simp)
      have hji : j = i := by
        have := (List.getElem?_eq_some_iff.1 hj').1
        omega
      rw [hji] at hj'
      exact hne (Option.some.inj (hj'.symm.trans ((h k i).1 hk)))

/-- The last key is moved into the gap. -/
theorem swapRemove {l : κ} (h : Inverse keys place) (hk : place k = some i) (hi : i ≠ keys.length - 1)
    (hl : keys[keys.length - 1]? = some l) :
    Inverse (keys.set i l).dropLast (Function.update (Function.update place k none) l (some i)) := by
  have hlt := h.lt_length hk
  have hkl : l ≠ k := by
    rintro rfl
    exact hi (h.unique ((h l i).1 hk) hl)
  intro k' j
  rw [List.getElem?_dropLast, List.length_set, List.getElem?_set]
  rcases eq_or_ne k' l with rfl | hne
  · rw [Function.update_self, Option.some.injEq]
    constructor
    · rintro rfl
      rw [if_pos (by omega), if_pos rfl, if_pos hlt]
    · intro hj
      split_ifs at hj with hj' hij
      · exact hij
      · -- the last key is at no other place before the end
        have := h.unique hj hl
        omega
  · rw [Function.update_of_ne hne]
    rcases eq_or_ne k' k with rfl | hne'
    · rw [Function.update_self]
      refine iff_of_false (by simp) fun hj => ?_
      split_ifs at hj with hj' hij
      · exact hkl (Option.some.inj hj)
      · exact hij (h.unique ((h k' i).1 hk) hj)
    · rw [Function.update_of_ne hne', h k' j]
      split_ifs with hj hij
      · -- the gap was the removed key's
        subst hij
        refine iff_of_false (fun hj' => hne' ?_) (fun hj' => hne (Option.some.inj hj').symm)
        exact Option.some.inj (hj'.symm.trans ((h k i).1 hk))
      · rfl
      · refine iff_of_false (fun hj' => hne ?_) (by simp)
        have hjl : j = keys.length - 1 := by
          have := (List.getElem?_eq_some_iff.1 hj').1
          omega
        rw [hjl] at hj'
        exact Option.some.inj (hj'.symm.trans hl)

end Inverse

end AimChat.IndexedTable
