import Mathlib.Data.List.Basic
import Mathlib.Data.List.Sort
import Mathlib.Order.Defs.LinearOrder

/-! # Ordered maps

A finite map kept as the list of its entries in strictly ascending key order, the way `std::map`
presents itself to an iteration. The order is a field of the structure, so two maps with the same
lookups are the same map (`OrdMap.ext_get?`) and an iteration is a fixed list. `OrdSet` is the map
to `Unit`. -/

namespace AimChat

universe u v

/-- A finite map with its entries in strictly ascending key order. -/
structure OrdMap (κ : Type u) (ν : Type v) [LinearOrder κ] where
  /-- The entries in iteration order. -/
  entries : List (κ × ν)
  /-- The keys ascend strictly. -/
  sorted : entries.Pairwise (fun a b => a.1 < b.1)

namespace OrdMap

variable {κ : Type u} {ν : Type v} [LinearOrder κ]

/-! ## Entry lists -/

/-- The value of the first entry with the given key. -/
def lookup (k : κ) : List (κ × ν) → Option ν
  | [] => none
  | (k', v) :: l => if k = k' then some v else lookup k l

/-- Put `(k, v)` in its place, replacing an entry with the same key. -/
def place (k : κ) (v : ν) : List (κ × ν) → List (κ × ν)
  | [] => [(k, v)]
  | (k', v') :: l =>
      if k < k' then (k, v) :: (k', v') :: l
      else if k = k' then (k, v) :: l
      else (k', v') :: place k v l

theorem mem_place {k : κ} {v : ν} {l : List (κ × ν)} {e : κ × ν} (h : e ∈ place k v l) :
    e = (k, v) ∨ e ∈ l := by
  induction l with
  | nil => simpa [place] using h
  | cons hd tl ih =>
      obtain ⟨k', v'⟩ := hd
      rw [place] at h
      split_ifs at h with h1 h2
      · simpa using h
      · rcases List.mem_cons.mp h with rfl | h
        · exact Or.inl rfl
        · exact Or.inr (List.mem_cons_of_mem _ h)
      · rcases List.mem_cons.mp h with rfl | h
        · exact Or.inr List.mem_cons_self
        · exact (ih h).imp_right (List.mem_cons_of_mem _)

theorem place_sorted (k : κ) (v : ν) {l : List (κ × ν)}
    (h : l.Pairwise (fun a b => a.1 < b.1)) :
    (place k v l).Pairwise (fun a b => a.1 < b.1) := by
  induction l with
  | nil => simp [place]
  | cons hd tl ih =>
      obtain ⟨k', v'⟩ := hd
      obtain ⟨hhd, htl⟩ := List.pairwise_cons.mp h
      rw [place]
      split_ifs with h1 h2
      · refine h.cons fun e he => ?_
        rcases List.mem_cons.mp he with rfl | he
        · exact h1
        · exact h1.trans (hhd e he)
      · subst h2
        exact htl.cons hhd
      · refine (ih htl).cons fun e he => ?_
        rcases mem_place he with rfl | he
        · exact lt_of_le_of_ne (not_lt.mp h1) (Ne.symm h2)
        · exact hhd e he

theorem lookup_place (k k' : κ) (v : ν) (l : List (κ × ν)) :
    lookup k' (place k v l) = if k' = k then some v else lookup k' l := by
  induction l with
  | nil => rfl
  | cons hd tl ih =>
      obtain ⟨k₁, v₁⟩ := hd
      rw [place]
      by_cases h1 : k < k₁
      · rw [if_pos h1, lookup]
      · rw [if_neg h1]
        by_cases h2 : k = k₁
        · subst h2
          rw [if_pos rfl, lookup, lookup]
          split_ifs <;> rfl
        · rw [if_neg h2, lookup, lookup, ih]
          split_ifs with h3 h4
          · exact absurd (h4.symm.trans h3) h2
          · rfl
          · rfl
          · rfl

/-- In a sorted entry list, `lookup` finds exactly the entries. -/
theorem lookup_eq_some_iff {l : List (κ × ν)} (h : l.Pairwise (fun a b => a.1 < b.1))
    {k : κ} {v : ν} : lookup k l = some v ↔ (k, v) ∈ l := by
  induction l with
  | nil => simp [lookup]
  | cons hd tl ih =>
      obtain ⟨k', v'⟩ := hd
      obtain ⟨hhd, htl⟩ := List.pairwise_cons.mp h
      rw [lookup, List.mem_cons]
      split_ifs with hk
      · subst hk
        constructor
        · rintro h; cases h; exact Or.inl rfl
        · rintro (h | h)
          · cases h; rfl
          · exact absurd (hhd _ h) (lt_irrefl _)
      · rw [ih htl]
        refine ⟨Or.inr, fun h => h.resolve_left ?_⟩
        intro h; cases h; exact hk rfl

/-- Removing the entries of a key leaves the other lookups. -/
theorem lookup_filter_ne (k k' : κ) (l : List (κ × ν)) :
    lookup k' (l.filter fun e => e.1 ≠ k) = if k' = k then none else lookup k' l := by
  induction l with
  | nil => simp [lookup]
  | cons hd tl ih =>
      obtain ⟨k₁, v₁⟩ := hd
      by_cases h₁ : k₁ = k
      · subst h₁
        rw [List.filter_cons_of_neg (by simp), ih, lookup]
        split_ifs <;> rfl
      · rw [List.filter_cons_of_pos (by simpa using h₁), lookup, ih, lookup]
        split_ifs with h2 h3 <;> first | rfl | exact absurd (h2.symm.trans h3) h₁

/-! ## Maps -/

/-- The empty map. -/
def empty : OrdMap κ ν := ⟨[], List.Pairwise.nil⟩

instance : EmptyCollection (OrdMap κ ν) := ⟨empty⟩

instance : Inhabited (OrdMap κ ν) := ⟨empty⟩

/-- `find`: the value under a key. -/
def get? (m : OrdMap κ ν) (k : κ) : Option ν := lookup k m.entries

/-- `operator[]=`: put a value under a key, replacing the one there. -/
def set (m : OrdMap κ ν) (k : κ) (v : ν) : OrdMap κ ν := ⟨place k v m.entries, place_sorted k v m.sorted⟩

/-- `insert`: put a value under a key unless the key is taken. -/
def insert (m : OrdMap κ ν) (k : κ) (v : ν) : OrdMap κ ν :=
  match m.get? k with
  | some _ => m
  | none => m.set k v

/-- `erase`: remove a key. -/
def erase (m : OrdMap κ ν) (k : κ) : OrdMap κ ν :=
  ⟨m.entries.filter fun e => e.1 ≠ k, m.sorted.filter _⟩

/-- The values in ascending key order. -/
def values (m : OrdMap κ ν) : List ν := m.entries.map Prod.snd

/-- The keys in ascending order. -/
def keys (m : OrdMap κ ν) : List κ := m.entries.map Prod.fst

@[simp] theorem get?_empty (k : κ) : (∅ : OrdMap κ ν).get? k = none := rfl

@[simp] theorem values_empty : (∅ : OrdMap κ ν).values = [] := rfl

@[simp] theorem keys_empty : (∅ : OrdMap κ ν).keys = [] := rfl

/-- Lookups after `operator[]=`. -/
theorem get?_set (m : OrdMap κ ν) (k k' : κ) (v : ν) :
    (m.set k v).get? k' = if k' = k then some v else m.get? k' :=
  lookup_place k k' v m.entries

/-- Lookups after `erase`. -/
theorem get?_erase (m : OrdMap κ ν) (k k' : κ) :
    (m.erase k).get? k' = if k' = k then none else m.get? k' :=
  lookup_filter_ne k k' m.entries

/-- Lookups after `insert`: a key that is taken keeps its value. -/
theorem get?_insert (m : OrdMap κ ν) (k k' : κ) (v : ν) :
    (m.insert k v).get? k' = if k' = k then some ((m.get? k).getD v) else m.get? k' := by
  unfold insert
  cases h : m.get? k with
  | none => simp [get?_set]
  | some w =>
      simp only [Option.getD_some]
      split_ifs with hk
      · rw [hk, h]
      · rfl

/-- The entries are the lookups. -/
theorem mem_entries_iff {m : OrdMap κ ν} {k : κ} {v : ν} : (k, v) ∈ m.entries ↔ m.get? k = some v :=
  (lookup_eq_some_iff m.sorted).symm

/-- A value occurs iff some key holds it. -/
theorem mem_values_iff {m : OrdMap κ ν} {v : ν} : v ∈ m.values ↔ ∃ k, m.get? k = some v := by
  simp only [values, List.mem_map, ← mem_entries_iff]
  constructor
  · rintro ⟨⟨k, w⟩, h, rfl⟩; exact ⟨k, h⟩
  · rintro ⟨k, h⟩; exact ⟨(k, v), h, rfl⟩

/-- A key occurs iff it holds a value. -/
theorem mem_keys_iff {m : OrdMap κ ν} {k : κ} : k ∈ m.keys ↔ ∃ v, m.get? k = some v := by
  simp only [keys, List.mem_map, ← mem_entries_iff]
  constructor
  · rintro ⟨⟨k', w⟩, h, rfl⟩; exact ⟨w, h⟩
  · rintro ⟨v, h⟩; exact ⟨(k, v), h, rfl⟩

/-- Maps with the same lookups are the same. -/
theorem ext_get? {m n : OrdMap κ ν} (h : ∀ k, m.get? k = n.get? k) : m = n := by
  have hmem : ∀ e, e ∈ m.entries ↔ e ∈ n.entries := by
    rintro ⟨k, v⟩
    rw [mem_entries_iff, mem_entries_iff, h]
  have hperm : m.entries.Perm n.entries :=
    (List.perm_ext_iff_of_nodup (m.sorted.imp fun hlt heq => (ne_of_lt hlt) (congrArg Prod.fst heq))
      (n.sorted.imp fun hlt heq => (ne_of_lt hlt) (congrArg Prod.fst heq))).mpr hmem
  have heq : m.entries = n.entries :=
    hperm.eq_of_pairwise (fun a b _ _ hab hba => absurd hab (not_lt.mpr hba.le)) m.sorted n.sorted
  cases m; cases n; cases heq; rfl

end OrdMap

/-! ## Sets -/

/-- A finite set in strictly ascending order: the map to `Unit`. -/
abbrev OrdSet (κ : Type u) [LinearOrder κ] := OrdMap κ Unit

namespace OrdSet

variable {κ : Type u} [LinearOrder κ]

instance : Membership κ (OrdSet κ) := ⟨fun s k => OrdMap.get? s k = some ()⟩

instance (k : κ) (s : OrdSet κ) : Decidable (k ∈ s) :=
  inferInstanceAs (Decidable (OrdMap.get? s k = some ()))

/-- Add an element. -/
def add (s : OrdSet κ) (k : κ) : OrdSet κ := OrdMap.insert s k ()

/-- Remove an element. -/
def remove (s : OrdSet κ) (k : κ) : OrdSet κ := OrdMap.erase s k

theorem mem_def {s : OrdSet κ} {k : κ} : k ∈ s ↔ OrdMap.get? s k = some () := Iff.rfl

@[simp] theorem not_mem_empty (k : κ) : k ∉ (∅ : OrdSet κ) := by simp [mem_def]

@[simp] theorem mem_add {s : OrdSet κ} {k k' : κ} : k' ∈ add s k ↔ k' = k ∨ k' ∈ s := by
  simp only [mem_def, add, OrdMap.get?_insert]
  split_ifs with h <;> simp [h]

@[simp] theorem mem_remove {s : OrdSet κ} {k k' : κ} : k' ∈ remove s k ↔ k' ≠ k ∧ k' ∈ s := by
  simp only [mem_def, remove, OrdMap.get?_erase]
  split_ifs with h <;> simp [h]

/-- The elements in ascending order. -/
theorem mem_keys {s : OrdSet κ} {k : κ} : k ∈ OrdMap.keys s ↔ k ∈ s := by
  rw [OrdMap.mem_keys_iff, mem_def]
  exact ⟨fun ⟨_, h⟩ => h, fun h => ⟨(), h⟩⟩

/-- They ascend strictly. -/
theorem pairwise_keys (s : OrdSet κ) : (OrdMap.keys s).Pairwise (· < ·) :=
  List.pairwise_map.2 s.sorted

/-- Sets that agree on the elements of a property list the same ones of these. -/
theorem filter_keys_congr {s t : OrdSet κ} {p : κ → Bool} (h : ∀ k, p k = true → (k ∈ s ↔ k ∈ t)) :
    (OrdMap.keys s).filter p = (OrdMap.keys t).filter p := by
  have hsorted : ∀ s : OrdSet κ, ((OrdMap.keys s).filter p).Pairwise (· < ·) := fun s =>
    (pairwise_keys s).filter p
  refine List.Perm.eq_of_pairwise (fun a b _ _ hab hba => absurd hab (lt_asymm hba))
    (hsorted s) (hsorted t) ?_
  refine (List.perm_ext_iff_of_nodup ((hsorted s).imp ne_of_lt) ((hsorted t).imp ne_of_lt)).2 fun k => ?_
  rw [List.mem_filter, List.mem_filter, mem_keys, mem_keys]
  exact and_congr_left (h k)

/-- Sets with the same elements are the same. -/
theorem ext {s t : OrdSet κ} (h : ∀ k, k ∈ s ↔ k ∈ t) : s = t := by
  refine OrdMap.ext_get? fun k => ?_
  have hk := h k
  simp only [mem_def] at hk
  cases hs : OrdMap.get? s k with
  | none =>
      cases ht : OrdMap.get? t k with
      | none => rfl
      | some _ => rw [hs, ht] at hk; exact absurd (hk.mpr rfl) (by simp)
  | some _ => rw [hk.mp hs]

/-- Several elements are removed one after another. -/
theorem mem_foldl_remove {s : OrdSet κ} {l : List κ} {k : κ} : k ∈ l.foldl remove s ↔ k ∉ l ∧ k ∈ s := by
  induction l generalizing s with
  | nil => simp
  | cons a l ih =>
      rw [List.foldl_cons, ih, mem_remove, List.mem_cons, not_or]
      tauto

/-- `begin()` is the least element. -/
theorem le_of_head? {s : OrdSet κ} {k : κ} (h : (OrdMap.keys s).head? = some k) : k ∈ s ∧ ∀ k' ∈ s, k ≤ k' := by
  have hsorted := pairwise_keys s
  have hmem : ∀ k', k' ∈ s ↔ k' ∈ OrdMap.keys s := fun k' => mem_keys.symm
  cases hkeys : OrdMap.keys s with
  | nil => rw [hkeys] at h; cases h
  | cons a l =>
      rw [hkeys] at h hsorted hmem
      cases h
      refine ⟨(hmem k).2 List.mem_cons_self, fun k' hk' => ?_⟩
      rcases List.mem_cons.1 ((hmem k').1 hk') with rfl | hk'
      · exact le_refl k'
      · exact le_of_lt ((List.pairwise_cons.1 hsorted).1 k' hk')

/-- In an ascending list the elements below a bound come first. -/
theorem mem_takeWhile_lt {l : List κ} (h : l.Pairwise (· < ·)) {b k : κ} :
    (k ∈ l.takeWhile (· < b) ↔ k ∈ l ∧ k < b) ∧ (k ∈ l.dropWhile (· < b) ↔ k ∈ l ∧ b ≤ k) := by
  induction l with
  | nil => simp
  | cons a l ih =>
      obtain ⟨ha, hl⟩ := List.pairwise_cons.1 h
      by_cases hab : a < b
      · rw [List.takeWhile_cons_of_pos (by simpa using hab), List.dropWhile_cons_of_pos (by simpa using hab),
          List.mem_cons, List.mem_cons, (ih hl).1, (ih hl).2]
        constructor
        · constructor
          · rintro (rfl | hk)
            · exact ⟨.inl rfl, hab⟩
            · exact ⟨.inr hk.1, hk.2⟩
          · rintro ⟨rfl | hk, hlt⟩
            · exact .inl rfl
            · exact .inr ⟨hk, hlt⟩
        · constructor
          · exact fun hk => ⟨.inr hk.1, hk.2⟩
          · rintro ⟨rfl | hk, hle⟩
            · exact absurd hab (not_lt.2 hle)
            · exact ⟨hk, hle⟩
      · have hle : ∀ k ∈ a :: l, b ≤ k := by
          intro k hk
          rcases List.mem_cons.1 hk with rfl | hk
          · exact not_lt.1 hab
          · exact (not_lt.1 hab).trans (le_of_lt (ha k hk))
        rw [List.takeWhile_cons_of_neg (by simpa using hab), List.dropWhile_cons_of_neg (by simpa using hab)]
        constructor
        · exact iff_of_false List.not_mem_nil fun hk => absurd hk.2 (not_lt.2 (hle k hk.1))
        · exact ⟨fun hk => ⟨hk, hle k hk⟩, And.left⟩

/-- The elements before `lower_bound`. -/
theorem mem_before {s : OrdSet κ} {b k : κ} : k ∈ (OrdMap.keys s).takeWhile (· < b) ↔ k ∈ s ∧ k < b := by
  rw [(mem_takeWhile_lt (pairwise_keys s)).1, mem_keys]

/-- The elements from `lower_bound` on. -/
theorem mem_from {s : OrdSet κ} {b k : κ} : k ∈ (OrdMap.keys s).dropWhile (· < b) ↔ k ∈ s ∧ b ≤ k := by
  rw [(mem_takeWhile_lt (pairwise_keys s)).2, mem_keys]

end OrdSet

end AimChat
