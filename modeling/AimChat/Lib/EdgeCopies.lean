import Mathlib.Order.Lattice
import Mathlib.Order.Defs.LinearOrder

/-! # An undirected graph kept in three copies

An edge between two vertices is kept at each of its ends and once more in a table, under the smaller
end and the greater. Only some vertices are there; updates reach the ends that are. `Agree` says that
the copies agree between vertices that are there. Linking and unlinking keep it whether both ends are
there or not; creating a vertex keeps it exactly when no copy names the vertex already
(`agree_create_iff`). -/

namespace AimChat

universe u

/-- The three copies: which vertices are there, whom a vertex lists, and the rows of the table. -/
@[ext] structure EdgeCopies (α : Type u) where
  here : α → Prop
  lists : α → α → Prop
  row : α → α → Prop

namespace EdgeCopies

variable {α : Type u} [LinearOrder α] {c : EdgeCopies α}

/-- Between vertices that are there, both ends and the table say the same. -/
def Agree (c : EdgeCopies α) : Prop :=
  ∀ a b, c.here a → c.here b →
    (c.lists a b ↔ c.lists b a) ∧ (c.lists a b ↔ c.row (min a b) (max a b))

/-- Link two vertices: a row, and an entry at each end; the greater end is reached only over the
smaller. -/
def link (c : EdgeCopies α) (small great : α) : EdgeCopies α where
  here := c.here
  lists a b := c.lists a b ∨ (c.here small ∧ a = small ∧ b = great) ∨
    (c.here small ∧ c.here great ∧ a = great ∧ b = small)
  row a b := c.row a b ∨ a = small ∧ b = great

/-- Unlink two vertices in every copy. -/
def unlink (c : EdgeCopies α) (x y : α) : EdgeCopies α where
  here := c.here
  lists a b := c.lists a b ∧ ¬ (a = x ∧ b = y) ∧ ¬ (a = y ∧ b = x)
  row a b := c.row a b ∧ ¬ (a = min x y ∧ b = max x y)

/-- Create a vertex that lists nobody. -/
def create (c : EdgeCopies α) (n : α) : EdgeCopies α where
  here a := c.here a ∨ a = n
  lists a b := a ≠ n ∧ c.lists a b
  row := c.row

/-- No copy joins `n` with a vertex that is there. -/
def Unnamed (c : EdgeCopies α) (n : α) : Prop :=
  ¬ c.row n n ∧ ∀ a, c.here a → a ≠ n → ¬ c.lists a n ∧ ¬ c.row (min n a) (max n a)

/-- The pair a row stands for, seen from either end. -/
theorem minmax_eq_iff {a b small great : α} (h : small < great) :
    (min a b = small ∧ max a b = great) ↔
      (a = small ∧ b = great) ∨ (a = great ∧ b = small) := by
  rcases le_total a b with hab | hab
  · rw [min_eq_left hab, max_eq_right hab]
    constructor
    · exact Or.inl
    · rintro (hs | ⟨rfl, rfl⟩)
      · exact hs
      · exact absurd hab (not_le_of_gt h)
  · rw [min_eq_right hab, max_eq_left hab]
    constructor
    · rintro ⟨rfl, rfl⟩
      exact Or.inr ⟨rfl, rfl⟩
    · rintro (⟨rfl, rfl⟩ | ⟨rfl, rfl⟩)
      · exact absurd hab (not_le_of_gt h)
      · exact ⟨rfl, rfl⟩

/-- Two pairs stand for the same edge. -/
theorem minmax_eq_minmax_iff {a b x y : α} :
    (min a b = min x y ∧ max a b = max x y) ↔ (a = x ∧ b = y) ∨ (a = y ∧ b = x) := by
  rcases lt_trichotomy x y with h | rfl | h
  · rw [min_eq_left h.le, max_eq_right h.le, minmax_eq_iff h]
  · rw [min_self, max_self]
    constructor
    · rintro ⟨hmin, hmax⟩
      have ha : x ≤ a := hmin ▸ min_le_left a b
      have hb : x ≤ b := hmin ▸ min_le_right a b
      have ha' : a ≤ x := hmax ▸ le_max_left a b
      have hb' : b ≤ x := hmax ▸ le_max_right a b
      exact Or.inl ⟨le_antisymm ha' ha, le_antisymm hb' hb⟩
    · rintro (⟨rfl, rfl⟩ | ⟨rfl, rfl⟩) <;> exact ⟨min_self _, max_self _⟩
  · rw [min_eq_right h.le, max_eq_left h.le, minmax_eq_iff h]
    exact or_comm

/-- Linking keeps the copies in agreement, whichever ends are there. -/
theorem Agree.link (h : c.Agree) {small great : α} (hlt : small < great) :
    (c.link small great).Agree := by
  intro a b ha hb
  obtain ⟨hsym, hrow⟩ := h a b ha hb
  by_cases hab : (a = small ∧ b = great) ∨ (a = great ∧ b = small)
  · have hends : c.here small ∧ c.here great := by
      rcases hab with ⟨rfl, rfl⟩ | ⟨rfl, rfl⟩
      · exact ⟨ha, hb⟩
      · exact ⟨hb, ha⟩
    have hlists : (c.link small great).lists a b := by
      rcases hab with hab | hab
      · exact Or.inr (Or.inl ⟨hends.1, hab⟩)
      · exact Or.inr (Or.inr ⟨hends.1, hends.2, hab⟩)
    have hlists' : (c.link small great).lists b a := by
      rcases hab with hab | hab
      · exact Or.inr (Or.inr ⟨hends.1, hends.2, hab.2, hab.1⟩)
      · exact Or.inr (Or.inl ⟨hends.1, hab.2, hab.1⟩)
    have hrow' : (c.link small great).row (min a b) (max a b) :=
      Or.inr ((minmax_eq_iff hlt).2 hab)
    exact ⟨iff_of_true hlists hlists', iff_of_true hlists hrow'⟩
  -- another pair: nothing about it changes
  · have hlists : ∀ x y, (x = a ∧ y = b) ∨ (x = b ∧ y = a) →
        ((c.link small great).lists x y ↔ c.lists x y) := by
      intro x y hxy
      refine or_iff_left ?_
      rintro (⟨-, rfl, rfl⟩ | ⟨-, -, rfl, rfl⟩)
      · rcases hxy with ⟨rfl, rfl⟩ | ⟨rfl, rfl⟩
        · exact hab (Or.inl ⟨rfl, rfl⟩)
        · exact hab (Or.inr ⟨rfl, rfl⟩)
      · rcases hxy with ⟨rfl, rfl⟩ | ⟨rfl, rfl⟩
        · exact hab (Or.inr ⟨rfl, rfl⟩)
        · exact hab (Or.inl ⟨rfl, rfl⟩)
    have hrow' : (c.link small great).row (min a b) (max a b) ↔ c.row (min a b) (max a b) :=
      or_iff_left fun hr => hab ((minmax_eq_iff hlt).1 hr)
    rw [hlists a b (Or.inl ⟨rfl, rfl⟩), hlists b a (Or.inr ⟨rfl, rfl⟩), hrow']
    exact ⟨hsym, hrow⟩

/-- Unlinking keeps the copies in agreement. -/
theorem Agree.unlink (h : c.Agree) (x y : α) : (c.unlink x y).Agree := by
  intro a b ha hb
  obtain ⟨hsym, hrow⟩ := h a b ha hb
  constructor
  · change _ ∧ _ ↔ _ ∧ _
    rw [hsym]
    refine and_congr_right fun _ => ?_
    constructor
    · exact fun ⟨h1, h2⟩ => ⟨fun he => h2 he.symm, fun he => h1 he.symm⟩
    · exact fun ⟨h1, h2⟩ => ⟨fun he => h2 he.symm, fun he => h1 he.symm⟩
  · change _ ∧ _ ↔ _ ∧ _
    rw [hrow, minmax_eq_minmax_iff, not_or]

/-- **Creating a vertex keeps the copies in agreement exactly when none names it.** -/
theorem agree_create_iff (h : c.Agree) (n : α) : (c.create n).Agree ↔ c.Unnamed n := by
  constructor
  · intro hc
    refine ⟨fun hrow => ?_, fun a ha hne => ?_⟩
    · have hself := (hc n n (Or.inr rfl) (Or.inr rfl)).2
      rw [min_self, max_self] at hself
      exact (hself.2 hrow).1 rfl
    · obtain ⟨hsym, hrow⟩ := hc n a (Or.inr rfl) (Or.inl ha)
      exact ⟨fun hl => (hsym.2 ⟨hne, hl⟩).1 rfl, fun hr => (hrow.2 hr).1 rfl⟩
  · rintro ⟨hself, hother⟩ a b ha hb
    -- pairs with the new vertex have no copy; the others are as before
    have hnew : ∀ b, (c.create n).here b → ¬ (c.create n).lists b n ∧
        ¬ (c.create n).row (min n b) (max n b) := by
      intro b hb
      by_cases hbn : b = n
      · subst hbn
        rw [min_self, max_self]
        exact ⟨fun hl => hl.1 rfl, hself⟩
      · obtain ⟨hl, hr⟩ := hother b (hb.resolve_right hbn) hbn
        exact ⟨fun hl' => hl hl'.2, hr⟩
    by_cases han : a = n
    · subst han
      obtain ⟨hl, hr⟩ := hnew b hb
      exact ⟨iff_of_false (fun hl' => hl'.1 rfl) hl, iff_of_false (fun hl' => hl'.1 rfl) hr⟩
    · by_cases hbn : b = n
      · subst hbn
        obtain ⟨hl, hr⟩ := hnew a ha
        rw [min_comm, max_comm] at hr
        exact ⟨iff_of_false hl fun hl' => hl'.1 rfl, iff_of_false hl hr⟩
      · obtain ⟨hsym, hrow⟩ := h a b (ha.resolve_right han) (hb.resolve_right hbn)
        exact ⟨by simpa [create, han, hbn] using hsym, by simpa [create, han] using hrow⟩

/-! ## Edges turned on and off

Between two vertices that are there, linking turns the edge on in every copy and unlinking turns it off.
What was done with an edge last is all that counts, and what is done with different edges commutes. -/

/-- `a` and `b` are the ends of the edge between `x` and `y`. -/
def Joins (x y a b : α) : Prop := (a = x ∧ b = y) ∨ (a = y ∧ b = x)

instance (x y a b : α) : Decidable (Joins x y a b) := inferInstanceAs (Decidable (_ ∨ _))

omit [LinearOrder α] in
theorem joins_comm {x y a b : α} : Joins x y a b ↔ Joins y x a b := or_comm

/-- An edge stands for one pair in the table. -/
theorem joins_iff {x y a b : α} : Joins x y a b ↔ min a b = min x y ∧ max a b = max x y :=
  minmax_eq_minmax_iff.symm

theorem joins_min_max {x y a b : α} : Joins (min x y) (max x y) a b ↔ Joins x y a b := by
  rcases le_total x y with h | h
  · rw [min_eq_left h, max_eq_right h]
  · rw [min_eq_right h, max_eq_left h]
    exact joins_comm

/-- Turn an edge on or off. -/
def turn (c : EdgeCopies α) (on : Bool) (x y : α) : EdgeCopies α :=
  if on then c.link (min x y) (max x y) else c.unlink x y

@[simp] theorem here_turn (on : Bool) (x y a : α) : (c.turn on x y).here a ↔ c.here a := by
  unfold turn
  split_ifs <;> exact Iff.rfl

/-- The ends in order are there when the ends are. -/
theorem here_min_max {x y : α} (hx : c.here x) (hy : c.here y) : c.here (min x y) ∧ c.here (max x y) := by
  rcases le_total x y with h | h
  · rw [min_eq_left h, max_eq_right h]
    exact ⟨hx, hy⟩
  · rw [min_eq_right h, max_eq_left h]
    exact ⟨hy, hx⟩

/-- Both ends list each other, or neither the other; whoever else is listed stays. -/
theorem lists_turn {x y : α} (hx : c.here x) (hy : c.here y) (on : Bool) (a b : α) :
    (c.turn on x y).lists a b ↔ if Joins x y a b then on = true else c.lists a b := by
  have hends := here_min_max hx hy
  cases on with
  | true =>
      have hlink : (c.turn true x y).lists a b ↔ c.lists a b ∨ Joins (min x y) (max x y) a b := by
        simp [turn, link, Joins, hends]
      rw [hlink, joins_min_max]
      split_ifs with hjoins <;> simp [hjoins]
  | false =>
      have hunlink : (c.turn false x y).lists a b ↔ c.lists a b ∧ ¬ Joins x y a b := by
        simp [turn, unlink, Joins]
      rw [hunlink]
      split_ifs with hjoins <;> simp [hjoins]

/-- The one pair of the edge is in the table, or is not; other rows stay. -/
theorem row_turn (on : Bool) (x y a b : α) :
    (c.turn on x y).row a b ↔ if a = min x y ∧ b = max x y then on = true else c.row a b := by
  cases on with
  | true =>
      have hlink : (c.turn true x y).row a b ↔ c.row a b ∨ a = min x y ∧ b = max x y := Iff.rfl
      rw [hlink]
      split_ifs with hpair <;> simp [hpair]
  | false =>
      have hunlink : (c.turn false x y).row a b ↔ c.row a b ∧ ¬ (a = min x y ∧ b = max x y) := Iff.rfl
      rw [hunlink]
      split_ifs with hpair <;> simp [hpair]

/-- What was done last counts. -/
theorem turn_turn {x y : α} (hx : c.here x) (hy : c.here y) (on on' : Bool) :
    (c.turn on x y).turn on' x y = c.turn on' x y := by
  ext a b
  · simp only [here_turn]
  · rw [lists_turn ((here_turn ..).2 hx) ((here_turn ..).2 hy), lists_turn hx hy, lists_turn hx hy]
    split_ifs <;> rfl
  · simp only [row_turn]
    split_ifs <;> rfl

/-- **Different edges commute.** -/
theorem turn_comm {x y x' y' : α} (hx : c.here x) (hy : c.here y) (hx' : c.here x') (hy' : c.here y')
    (hother : ¬ Joins x y x' y') (on on' : Bool) :
    (c.turn on x y).turn on' x' y' = (c.turn on' x' y').turn on x y := by
  -- no pair is that of both edges
  have hboth : ∀ a b, Joins x y a b → ¬ Joins x' y' a b := by
    intro a b h h'
    rw [joins_iff] at h h'
    exact hother (joins_iff.2 ⟨h'.1.symm.trans h.1, h'.2.symm.trans h.2⟩)
  ext a b
  · simp only [here_turn]
  · rw [lists_turn ((here_turn ..).2 hx') ((here_turn ..).2 hy'), lists_turn hx hy,
      lists_turn ((here_turn ..).2 hx) ((here_turn ..).2 hy), lists_turn hx' hy']
    split_ifs with h' h
    · exact absurd h' (hboth a b h)
    · rfl
    · rfl
    · rfl
  · simp only [row_turn]
    split_ifs with h' h
    · exact absurd (joins_iff.2 ⟨h'.1.symm.trans h.1, h'.2.symm.trans h.2⟩) hother
    · rfl
    · rfl
    · rfl

/-! ## Copies that name only what is there -/

/-- Rows join two vertices that are there, the smaller first, and only vertices that are there are
listed. -/
structure Closed (c : EdgeCopies α) : Prop where
  row : ∀ a b, c.row a b → a < b ∧ c.here a ∧ c.here b
  lists : ∀ a b, c.lists a b → c.here b

theorem Closed.link (h : c.Closed) {small great : α} (hlt : small < great) (hsmall : c.here small)
    (hgreat : c.here great) : (c.link small great).Closed := by
  constructor
  · rintro a b (hrow | ⟨rfl, rfl⟩)
    · exact h.row a b hrow
    · exact ⟨hlt, hsmall, hgreat⟩
  · rintro a b (hlists | ⟨-, -, rfl⟩ | ⟨-, -, -, rfl⟩)
    · exact h.lists a b hlists
    · exact hgreat
    · exact hsmall

theorem Closed.unlink (h : c.Closed) (x y : α) : (c.unlink x y).Closed :=
  ⟨fun a b hrow => h.row a b hrow.1, fun a b hlists => h.lists a b hlists.1⟩

theorem Closed.create (h : c.Closed) (n : α) : (c.create n).Closed := by
  constructor
  · intro a b hrow
    obtain ⟨hlt, ha, hb⟩ := h.row a b hrow
    exact ⟨hlt, Or.inl ha, Or.inl hb⟩
  · intro a b hlists
    exact Or.inl (h.lists a b hlists.2)

/-- Such copies name no vertex that is not there. -/
theorem Closed.unnamed (h : c.Closed) {n : α} (hn : ¬ c.here n) : c.Unnamed n := by
  refine ⟨fun hrow => hn (h.row n n hrow).2.1, fun a _ _ => ⟨fun hlists => hn (h.lists a n hlists), ?_⟩⟩
  intro hrow
  obtain ⟨-, hmin, hmax⟩ := h.row _ _ hrow
  rcases le_total n a with hna | hna
  · rw [min_eq_left hna] at hmin
    exact hn hmin
  · rw [max_eq_left hna] at hmax
    exact hn hmax

/-- A row between the ordered ends is a row one way or the other. -/
theorem or_of_min_max {r : α → α → Prop} {a b : α} (h : r (min a b) (max a b)) : r a b ∨ r b a := by
  rcases le_total a b with hab | hab
  · rw [min_eq_left hab, max_eq_right hab] at h
    exact .inl h
  · rw [min_eq_right hab, max_eq_left hab] at h
    exact .inr h

/-- In copies that agree, a vertex lists the other ends of the rows that name it. -/
theorem Agree.lists_iff (h : c.Agree) (hc : c.Closed) {a : α} (ha : c.here a) (b : α) :
    c.lists a b ↔ c.row a b ∨ c.row b a := by
  constructor
  · intro hlists
    exact or_of_min_max ((h a b ha (hc.lists a b hlists)).2.1 hlists)
  · rintro (hrow | hrow)
    · obtain ⟨hlt, -, hb⟩ := hc.row a b hrow
      refine (h a b ha hb).2.2 ?_
      rwa [min_eq_left hlt.le, max_eq_right hlt.le]
    · obtain ⟨hlt, hb, -⟩ := hc.row b a hrow
      refine (h a b ha hb).2.2 ?_
      rwa [min_eq_right hlt.le, max_eq_left hlt.le]

end EdgeCopies

end AimChat
