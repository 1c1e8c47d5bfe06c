import Mathlib.Data.Rat.Floor
import Mathlib.Algebra.Order.Floor.Ring
import Mathlib.Tactic.Linarith

/-! # Fitting an image into a box

`resizeToFit` of GoImageServer. The smaller of two quotients scales both sides, and each side is truncated. The
code computes in `float64`, where a product can fall short of an integer (9800x49 becomes 199x0 in a box of
200x200); here the quotients and products are exact rationals. What `draw.ApproxBiLinear.Scale` paints is a
parameter of the model. -/

namespace AimChat.Avatar

/-- `bounds.Dx()` and `bounds.Dy()` -/
structure Size where
  w : Int
  h : Int
  deriving DecidableEq, Repr

/-- `image.Image`: its size and its pixels. -/
structure Image (P : Type) where
  size : Size
  pixel : Int → Int → P

/-- `int(x)`, which truncates toward zero. -/
def truncate (x : ℚ) : Int := x.num.tdiv x.den

/-- `scale` -/
def scale (src : Size) (maxW maxH : Int) : ℚ :=
  let scale := (maxW : ℚ) / src.w
  let hScale := (maxH : ℚ) / src.h
  if hScale < scale then hScale else scale

/-- `resizeToFit(src, maxW, maxH)` -/
def resizeToFit {P : Type} (draw : Image P → Size → Int → Int → P) (src : Image P) (maxW maxH : Int) :
    Image P :=
  if src.size.w ≤ maxW ∧ src.size.h ≤ maxH then src
  else
    let newW := truncate (src.size.w * scale src.size maxW maxH)
    let newH := truncate (src.size.h * scale src.size maxW maxH)
    ⟨⟨newW, newH⟩, draw src ⟨newW, newH⟩⟩

/-- The size is at least one pixel each way and no more than the maximum. -/
def Size.Fits (s : Size) (maxW maxH : Int) : Prop := (1 ≤ s.w ∧ s.w ≤ maxW) ∧ 1 ≤ s.h ∧ s.h ≤ maxH

instance (s : Size) (maxW maxH : Int) : Decidable (s.Fits maxW maxH) := inferInstanceAs (Decidable (_ ∧ _))

/-! ## Truncation -/

/-- Of what is not negative the floor is taken. -/
theorem truncate_of_nonneg {x : ℚ} (hx : 0 ≤ x) : truncate x = ⌊x⌋ := by
  rw [truncate, Rat.floor_def', Int.tdiv_eq_ediv_of_nonneg (Rat.num_nonneg.2 hx)]

theorem le_truncate_iff {x : ℚ} (hx : 0 ≤ x) (n : Int) : n ≤ truncate x ↔ (n : ℚ) ≤ x := by
  rw [truncate_of_nonneg hx, Int.le_floor]

theorem truncate_le {x : ℚ} (hx : 0 ≤ x) {n : Int} (h : x ≤ n) : truncate x ≤ n := by
  have hfloor : (truncate x : ℚ) ≤ n := by
    rw [truncate_of_nonneg hx]
    exact (Int.floor_le x).trans h
  exact_mod_cast hfloor

/-! ## The scaled sides -/

theorem scale_eq_min (src : Size) (maxW maxH : Int) :
    scale src maxW maxH = min ((maxW : ℚ) / src.w) ((maxH : ℚ) / src.h) := by
  rw [scale, min_comm, min_def_lt]

section Side

/-! A side `a` and the other side `b`, with their maxima. -/

variable {a b maxA maxB : Int} (ha : 1 ≤ a) (hb : 1 ≤ b) (hmaxA : 1 ≤ maxA) (hmaxB : 1 ≤ maxB)
include ha hb hmaxA hmaxB

theorem side_nonneg : (0 : ℚ) ≤ a * min ((maxA : ℚ) / a) ((maxB : ℚ) / b) := by
  have ha' : (1 : ℚ) ≤ a := by exact_mod_cast ha
  have hb' : (1 : ℚ) ≤ b := by exact_mod_cast hb
  have hmaxA' : (1 : ℚ) ≤ maxA := by exact_mod_cast hmaxA
  have hmaxB' : (1 : ℚ) ≤ maxB := by exact_mod_cast hmaxB
  refine mul_nonneg (by linarith) (le_min ?_ ?_)
  · exact div_nonneg (by linarith) (by linarith)
  · exact div_nonneg (by linarith) (by linarith)

/-- A scaled side is no longer than its maximum. -/
theorem truncate_side_le : truncate (a * min ((maxA : ℚ) / a) ((maxB : ℚ) / b)) ≤ maxA := by
  have ha' : (1 : ℚ) ≤ a := by exact_mod_cast ha
  refine truncate_le (side_nonneg ha hb hmaxA hmaxB) ?_
  calc (a : ℚ) * min ((maxA : ℚ) / a) ((maxB : ℚ) / b)
      ≤ a * (maxA / a) := mul_le_mul_of_nonneg_left (min_le_left _ _) (by linarith)
    _ = maxA := mul_div_cancel₀ _ (by linarith)

/-- **When a pixel is left of a scaled side**: when the other side is not more than its maximum times as long. -/
theorem one_le_truncate_side_iff :
    1 ≤ truncate (a * min ((maxA : ℚ) / a) ((maxB : ℚ) / b)) ↔ b ≤ a * maxB := by
  have ha' : (0 : ℚ) < a := by exact_mod_cast ha
  have hb' : (0 : ℚ) < b := by exact_mod_cast hb
  have hmaxA' : (1 : ℚ) ≤ maxA := by exact_mod_cast hmaxA
  have hown : (a : ℚ) * (maxA / a) = maxA := mul_div_cancel₀ _ ha'.ne'
  have hother : (a : ℚ) * (maxB / b) = a * maxB / b := mul_div_assoc' _ _ _
  rw [le_truncate_iff (side_nonneg ha hb hmaxA hmaxB), mul_min_of_nonneg _ _ ha'.le, le_min_iff, hown, hother,
    Int.cast_one, le_div_iff₀ hb', one_mul]
  constructor
  · rintro ⟨-, h⟩
    exact_mod_cast h
  · intro h
    exact ⟨hmaxA', by exact_mod_cast h⟩

end Side

/-! ## The resized image -/

section Resized

variable {P : Type} (draw : Image P → Size → Int → Int → P) {src : Image P} {maxW maxH : Int}
  (hw : 1 ≤ src.size.w) (hh : 1 ≤ src.size.h) (hmaxW : 1 ≤ maxW) (hmaxH : 1 ≤ maxH)
include hw hh hmaxW hmaxH

/-- It is not larger than the maximum. -/
theorem resizeToFit_le :
    (resizeToFit draw src maxW maxH).size.w ≤ maxW ∧ (resizeToFit draw src maxW maxH).size.h ≤ maxH := by
  unfold resizeToFit
  split_ifs with hsmall
  · exact hsmall
  · have hleH := truncate_side_le hh hw hmaxH hmaxW
    rw [min_comm] at hleH
    rw [scale_eq_min]
    exact ⟨truncate_side_le hw hh hmaxW hmaxH, hleH⟩

/-- When it has a pixel. -/
theorem one_le_resizeToFit_iff :
    1 ≤ (resizeToFit draw src maxW maxH).size.w ∧ 1 ≤ (resizeToFit draw src maxW maxH).size.h ↔
      src.size.w ≤ src.size.h * maxW ∧ src.size.h ≤ src.size.w * maxH := by
  unfold resizeToFit
  split_ifs with hsmall
  · refine iff_of_true ⟨hw, hh⟩ ⟨?_, ?_⟩
    · exact hsmall.1.trans (le_mul_of_one_le_left (by omega) hh)
    · exact hsmall.2.trans (le_mul_of_one_le_left (by omega) hw)
  · have hH := one_le_truncate_side_iff hh hw hmaxH hmaxW
    rw [min_comm] at hH
    rw [scale_eq_min]
    dsimp only
    rw [one_le_truncate_side_iff hw hh hmaxW hmaxH, hH, and_comm]

/-- **The resized image is non-empty and fits if and only if neither side of the source is more than the maximum
of that side times as long as the other.** A longer one leaves the short side less than a pixel. -/
theorem fits_resizeToFit_iff :
    (resizeToFit draw src maxW maxH).size.Fits maxW maxH ↔
      src.size.w ≤ src.size.h * maxW ∧ src.size.h ≤ src.size.w * maxH := by
  obtain ⟨hleW, hleH⟩ := resizeToFit_le draw hw hh hmaxW hmaxH
  rw [Size.Fits, and_iff_left hleW, and_iff_left hleH, one_le_resizeToFit_iff draw hw hh hmaxW hmaxH]

end Resized

theorem fits_resizeToFit_iff_wide :
    (resizeToFit (fun _ _ _ _ => ()) ⟨⟨400, 2⟩, fun _ _ => ()⟩ 200 200).size.Fits 200 200 ↔
      (400 : Int) ≤ 2 * 200 ∧ (2 : Int) ≤ 400 * 200 :=
  fits_resizeToFit_iff _ (by decide) (by decide) (by decide) (by decide)

/-- Of an image of 401 by 1 nothing is left of the height. -/
theorem not_fits_resizeToFit_line :
    (resizeToFit (fun _ _ _ _ => ()) ⟨⟨401, 1⟩, fun _ _ => ()⟩ 200 200).size = ⟨200, 0⟩ ∧
      ¬ (resizeToFit (fun _ _ _ _ => ()) ⟨⟨401, 1⟩, fun _ _ => ()⟩ 200 200).size.Fits 200 200 := by
  decide +kernel

end AimChat.Avatar
