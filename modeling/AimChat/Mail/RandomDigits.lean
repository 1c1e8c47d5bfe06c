import AimChat.Mail.CodeStore
import Mathlib.Probability.Distributions.Uniform

/-! # The codes that can be drawn

`randomDigits` draws below a power of ten that it multiplies together (`randomDigits_eq`) and writes what it drew
with zeros in front. As long as what is drawn is an `int64`, writing a number and reading a text are inverse to each
other between the numbers below the bound and the texts of that many digits (`invOn_randomDigits`); so one code is
as likely as another (`randomDigits_codes`). -/

namespace AimChat.Mail

open Go

/-- The loop of `randomDigits`: `max.Mul(max, 10)`, as often as there are digits to come. -/
def mulTen (digits max : Nat) : Nat :=
  match digits with
  | 0 => max
  | digits + 1 => mulTen digits (max * 10)

/-- `max` behind the loop. -/
def randomMax (digits : Nat) : Nat := mulTen digits 1

theorem mulTen_eq (digits max : Nat) : mulTen digits max = max * 10 ^ digits := by
  induction digits generalizing max with
  | zero => exact (Nat.mul_one max).symm
  | succ digits ih => rw [mulTen, ih, Nat.pow_succ, Nat.mul_assoc, Nat.mul_comm 10]

@[simp] theorem randomMax_eq (digits : Nat) : randomMax digits = 10 ^ digits :=
  (mulTen_eq digits 1).trans (Nat.one_mul _)

/-- `randomDigits` draws below the `max` of the loop. -/
theorem randomDigits_eq (digits : Nat) (rand : Nat → Option Nat) :
    randomDigits digits rand = zeroPadded digits (wrap64 ((rand (randomMax digits)).getD 0 : Nat)) := by
  rw [randomMax_eq]
  unfold randomDigits
  rfl

/-- A reader from which `rand.Int` makes `n`, where `n` is below the bound it is asked for. -/
def drawn (n max : Nat) : Option Nat := if n < max then some n else none

/-- A text of so many decimal digits. -/
def IsCode (d : Nat) (code : Bytes) : Prop := code.length = d ∧ ∀ b ∈ code, isDigit b = true

instance (d : Nat) (code : Bytes) : Decidable (IsCode d code) :=
  @instDecidableAnd _ _ inferInstance (List.decidableBAll _ code)

section Width

variable {d : Nat} (hmax : 10 ^ d ≤ 2 ^ 63)
include hmax

/-- A number below the bound is written whole, with zeros in front. -/
theorem randomDigits_of_lt {rand : Nat → Option Nat} (hlt : (rand (randomMax d)).getD 0 < 10 ^ d) :
    randomDigits d rand = List.replicate (d - (digits ((rand (randomMax d)).getD 0)).length) 48 ++
      digits ((rand (randomMax d)).getD 0) := by
  have hint64 : IsInt64 ((rand (randomMax d)).getD 0 : Nat) := by
    unfold IsInt64
    omega
  rw [randomDigits_eq, wrap64_eq_self hint64, zeroPadded_of_nonneg (Int.natCast_nonneg _), Int.natAbs_natCast]

/-- What is read back is what was drawn. -/
theorem digitsVal_randomDigits {n : Nat} (hn : n < 10 ^ d) : digitsVal (randomDigits d (drawn n)) = n := by
  have hdrawn : (drawn n (randomMax d)).getD 0 = n := by
    rw [randomMax_eq, drawn, if_pos hn, Option.getD_some]
  rw [randomDigits_of_lt hmax (by rwa [hdrawn]), hdrawn, digitsVal_replicate_append, digitsVal_digits]

variable (hd : 1 ≤ d)
include hd

/-- Whatever the reader gives, be it nothing, a code comes of it. -/
theorem isCode_randomDigits {rand : Nat → Option Nat} (hrand : ∀ n, rand (randomMax d) = some n → n < 10 ^ d) :
    IsCode d (randomDigits d rand) := by
  have hlt : (rand (randomMax d)).getD 0 < 10 ^ d := by
    cases hread : rand (randomMax d) with
    | none => exact Nat.pow_pos (by decide)
    | some n => exact hrand n hread
  rw [randomDigits_of_lt hmax hlt]
  constructor
  · have hfits := (length_digits_le_iff hd).2 hlt
    rw [List.length_append, List.length_replicate, Nat.sub_add_cancel hfits]
  · intro b hb
    rcases List.mem_append.1 hb with hb | hb
    · rw [List.eq_of_mem_replicate hb]
      rfl
    · exact isDigit_of_mem_digits hb

theorem isCode_drawn (n : Nat) : IsCode d (randomDigits d (drawn n)) := by
  refine isCode_randomDigits hmax hd fun m hm => ?_
  rw [drawn] at hm
  split_ifs at hm with hn
  cases hm
  rwa [randomMax_eq] at hn

/-- **Writing and reading a code.** Between the numbers below the bound and the codes, writing a number and reading
a code's value are inverse to each other. -/
theorem invOn_randomDigits :
    Set.InvOn digitsVal (fun n => randomDigits d (drawn n)) (Set.Iio (10 ^ d)) {code | IsCode d code} := by
  refine ⟨fun n hn => digitsVal_randomDigits hmax hn, fun code hcode => ?_⟩
  have hlt : digitsVal code < 10 ^ d := hcode.1 ▸ digitsVal_lt hcode.2
  have hagain := isCode_drawn hmax hd (digitsVal code)
  exact eq_of_digitsVal_eq hagain.2 hcode.2 (hagain.1.trans hcode.1.symm) (digitsVal_randomDigits hmax hlt)

theorem bijOn_randomDigits :
    Set.BijOn (fun n => randomDigits d (drawn n)) (Set.Iio (10 ^ d)) {code | IsCode d code} :=
  (invOn_randomDigits hmax hd).bijOn (fun n _ => isCode_drawn hmax hd n)
    fun _ hcode => hcode.1 ▸ digitsVal_lt hcode.2

end Width

/-! ## A uniform draw -/

/-- Where a map takes a finite set to another one to one, it takes a uniform draw from the one to a uniform draw
from the other. -/
theorem map_uniformOfFinset {α β : Type} {s : Finset α} (hs : s.Nonempty) {p : β → Prop} [DecidablePred p]
    {f : α → β} (hf : Set.BijOn f s {b | p b}) (b : β) :
    (PMF.uniformOfFinset s hs).map f b = if p b then (s.card : ENNReal)⁻¹ else 0 := by
  have hout : ∀ a ∉ s, PMF.uniformOfFinset s hs a = 0 := fun a ha => PMF.uniformOfFinset_apply_of_notMem hs ha
  rw [PMF.map_apply]
  split_ifs with hb
  · obtain ⟨a, ha, rfl⟩ := hf.surjOn hb
    rw [tsum_eq_single a, if_pos rfl, PMF.uniformOfFinset_apply_of_mem hs ha]
    intro a' hne
    by_cases ha' : a' ∈ s
    · exact if_neg fun h => hne (hf.injOn ha' ha h.symm)
    · rw [hout a' ha', ite_self]
  · refine ENNReal.tsum_eq_zero.2 fun a => ?_
    by_cases ha : a ∈ s
    · exact if_neg fun h => hb (Eq.subst h.symm (hf.mapsTo ha))
    · rw [hout a ha, ite_self]

theorem nonempty_range_randomMax (d : Nat) : (Finset.range (randomMax d)).Nonempty := by
  rw [Finset.nonempty_range_iff, randomMax_eq]
  exact pow_ne_zero d (by decide)

/-- The code that comes of a number drawn uniformly below `max`. -/
noncomputable def uniformCode (d : Nat) : PMF Bytes :=
  (PMF.uniformOfFinset (Finset.range (randomMax d)) (nonempty_range_randomMax d)).map
    fun n => randomDigits d (drawn n)

/-- **The codes are the texts of `d` digits.** Every number below the bound gives one, different numbers give
different ones, and there are no others; so a number drawn uniformly below the bound of the loop gives each of
them with the same probability, and nothing else. -/
theorem randomDigits_codes {d : Nat} (hd : 1 ≤ d) (hmax : 10 ^ d ≤ 2 ^ 63) :
    Set.BijOn (fun n => randomDigits d (drawn n)) (Set.Iio (10 ^ d)) {code | IsCode d code} ∧
      ∀ code, uniformCode d code = if IsCode d code then ((10 ^ d : Nat) : ENNReal)⁻¹ else 0 := by
  have hcodes := bijOn_randomDigits hmax hd
  refine ⟨hcodes, fun code => ?_⟩
  have hrange : (Finset.range (randomMax d) : Set Nat) = Set.Iio (10 ^ d) := by
    rw [randomMax_eq, Finset.coe_range]
  rw [uniformCode, map_uniformOfFinset _ (hrange ▸ hcodes), Finset.card_range, randomMax_eq]

/-- With three digits 7 is drawn as `007`, and every code with probability 1/1000. -/
theorem randomDigits_codes_three :
    randomDigits 3 (drawn 7) = str "007" ∧ uniformCode 3 (str "007") = ((10 ^ 3 : Nat) : ENNReal)⁻¹ := by
  have hcodes := randomDigits_codes (d := 3) (by decide) (by decide)
  refine ⟨by unfold randomDigits; decide +kernel, ?_⟩
  rw [hcodes.2, if_pos (by decide)]

end AimChat.Mail
