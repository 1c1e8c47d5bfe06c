import AimChat.Base.Bytes
import Mathlib.Data.Int.Order.Basic
import Mathlib.Data.List.TakeWhile
import Mathlib.Data.Nat.Digits.Defs

/-! # Decimal numbers in text

A number as `<<` and `%d` write it, and the texts `strtol` and `std::stoi` read as a number: those that
start with one (`Numeral`, `strtol_text`, `exists_numeral`). A number is read back as it was written
(`strtol_printInt`), so different numbers are written differently; and among the texts of a given number of
digits no two have one value (`eq_of_digitsVal_eq`). -/

namespace AimChat

/-- The decimal digits of a number. -/
def digits (n : Nat) : Bytes := (Nat.toDigits 10 n).map fun c => UInt8.ofNat c.toNat

/-- `n` in decimal, as `<<` and `%d` write it. -/
def printInt (n : Int) : Bytes :=
  (if n < 0 then [45] else []) ++ (Nat.toDigits 10 n.natAbs).map fun c => UInt8.ofNat c.toNat

/-- A digit of a number as a character. -/
theorem toNat_of_mem_toDigits {n : Nat} {c : Char} (hc : c ∈ Nat.toDigits 10 n) :
    48 ≤ c.toNat ∧ c.toNat ≤ 57 := by
  have hisDigit := Nat.isDigit_of_mem_toDigits (by decide) (by decide) hc
  simpa [Char.isDigit, UInt32.le_iff_toNat_le] using hisDigit

theorem mem_digits {n : Nat} {b : UInt8} (hb : b ∈ digits n) : 48 ≤ b ∧ b ≤ 57 := by
  obtain ⟨c, hc, rfl⟩ := List.mem_map.1 hb
  have hrange := toNat_of_mem_toDigits hc
  rw [UInt8.le_iff_toNat_le, UInt8.le_iff_toNat_le, UInt8.toNat_ofNat', Nat.mod_eq_of_lt (by omega)]
  exact hrange

theorem digits_ne_nil (n : Nat) : digits n ≠ [] := fun h =>
  Nat.toDigits_ne_nil (List.map_eq_nil_iff.1 h)

theorem printInt_of_nonneg {n : Int} (h : 0 ≤ n) : printInt n = digits n.natAbs := by
  rw [printInt, if_neg (not_lt.2 h), List.nil_append, digits]

theorem printInt_of_neg {n : Int} (h : n < 0) : printInt n = 45 :: digits n.natAbs := by
  rw [printInt, if_pos h, List.singleton_append, digits]

/-- A number is written with a sign and digits. -/
theorem mem_printInt {n : Int} {b : UInt8} (hb : b ∈ printInt n) : b = 45 ∨ (48 ≤ b ∧ b ≤ 57) := by
  rcases lt_or_ge n 0 with hneg | hnonneg
  · rw [printInt_of_neg hneg] at hb
    exact (List.mem_cons.1 hb).imp id mem_digits
  · rw [printInt_of_nonneg hnonneg] at hb
    exact .inr (mem_digits hb)

/-! ## Reading back -/

/-- The value of the digits of a number is the number. -/
theorem digitsVal_digits (n : Nat) : digitsVal (digits n) = n := by
  -- the digits are folded from any value on, which the induction needs
  have hfold : ∀ (cs : List Char) (k : Nat), (∀ c ∈ cs, c.toNat < 256) →
      (cs.map fun c => UInt8.ofNat c.toNat).foldl (fun n c => n * 10 + (c.toNat - 48)) k =
        Nat.ofDigitChars 10 cs k := by
    intro cs
    induction cs with
    | nil => intro k _; simp
    | cons c cs ih =>
        intro k hcs
        rw [List.map_cons, List.foldl_cons, ih _ fun d hd => hcs d (List.mem_cons_of_mem _ hd),
          Nat.ofDigitChars_cons, UInt8.toNat_ofNat', Nat.mod_eq_of_lt (hcs c List.mem_cons_self),
          Nat.mul_comm]
        rfl
  rw [digits, digitsVal, hfold, Nat.ofDigitChars_toDigits (by decide) (by decide)]
  intro c hc
  have hrange := toNat_of_mem_toDigits hc
  omega

/-- The bytes of the digits are digits. -/
theorem isDigit_of_mem_digits {n : Nat} {b : UInt8} (hb : b ∈ digits n) : isDigit b = true := by
  simpa [isDigit] using mem_digits hb

/-! ## Texts of one length -/

theorem digitVal_lt {b : UInt8} (hb : isDigit b = true) : b.toNat - 48 < 10 := by
  rw [isDigit, Bool.and_eq_true, decide_eq_true_eq, decide_eq_true_eq] at hb
  have hhigh := UInt8.le_iff_toNat_le.1 hb.2
  simp only [UInt8.reduceToNat] at hhigh
  omega

/-- A digit is known by its value. -/
theorem ofNat_digitVal {b : UInt8} (hb : isDigit b = true) : UInt8.ofNat (b.toNat - 48 + 48) = b := by
  rw [isDigit, Bool.and_eq_true, decide_eq_true_eq, decide_eq_true_eq] at hb
  have hlow := UInt8.le_iff_toNat_le.1 hb.1
  simp only [UInt8.reduceToNat] at hlow
  rw [Nat.sub_add_cancel hlow, UInt8.ofNat_toNat]

/-- The values of the digits, the last one first. -/
def digitVals (ds : Bytes) : List Nat := ds.reverse.map fun b => b.toNat - 48

@[simp] theorem length_digitVals (ds : Bytes) : (digitVals ds).length = ds.length := by
  rw [digitVals, List.length_map, List.length_reverse]

/-- A later digit counts less. -/
theorem digitsVal_eq_ofDigits (ds : Bytes) : digitsVal ds = Nat.ofDigits 10 (digitVals ds) := by
  rw [Nat.ofDigits_eq_foldr, digitVals, List.foldr_map, List.foldr_reverse, digitsVal]
  congr 1
  funext n b
  rw [Nat.cast_id, Nat.add_comm, Nat.mul_comm]

/-- Zeros in front do not count. -/
theorem digitsVal_replicate_append (k : Nat) (ds : Bytes) :
    digitsVal (List.replicate k 48 ++ ds) = digitsVal ds := by
  induction k with
  | zero => rfl
  | succ k ih =>
      rw [List.replicate_succ, List.cons_append, ← ih]
      rfl

section IsDigit

variable {ds es : Bytes} (hds : ∀ b ∈ ds, isDigit b = true)
include hds

theorem lt_of_mem_digitVals : ∀ n ∈ digitVals ds, n < 10 := by
  intro n hn
  obtain ⟨b, hb, rfl⟩ := List.mem_map.1 hn
  exact digitVal_lt (hds b (List.mem_reverse.1 hb))

/-- A text is known by the values of its digits. -/
theorem map_digitVals : (digitVals ds).map (fun n => UInt8.ofNat (n + 48)) = ds.reverse := by
  rw [digitVals, List.map_map]
  refine (List.map_congr_left fun b hb => ?_).trans (List.map_id _)
  exact ofNat_digitVal (hds b (List.mem_reverse.1 hb))

/-- A text of digits stands for a number below the power of ten of its length. -/
theorem digitsVal_lt : digitsVal ds < 10 ^ ds.length := by
  rw [digitsVal_eq_ofDigits, ← length_digitVals]
  exact Nat.ofDigits_lt_base_pow_length (by decide) (lt_of_mem_digitVals hds)

/-- Texts of as many digits with the same value are the same. -/
theorem eq_of_digitsVal_eq (hes : ∀ b ∈ es, isDigit b = true) (hlength : ds.length = es.length)
    (h : digitsVal ds = digitsVal es) : ds = es := by
  rw [digitsVal_eq_ofDigits, digitsVal_eq_ofDigits] at h
  have hvals : digitVals ds = digitVals es :=
    Nat.ofDigits_inj_of_len_eq (by decide) (by rw [length_digitVals, length_digitVals, hlength])
      (lt_of_mem_digitVals hds) (lt_of_mem_digitVals hes) h
  rw [← List.reverse_inj, ← map_digitVals hds, ← map_digitVals hes, hvals]

end IsDigit

/-- How long a number is in decimal. -/
theorem length_digits_le_iff {n k : Nat} (hk : 0 < k) : (digits n).length ≤ k ↔ n < 10 ^ k := by
  rw [digits, List.length_map]
  exact Nat.length_toDigits_le_iff (by decide) hk

/-! ## Numerals -/

/-- A digit is no white space. -/
theorem isSpace_of_isDigit {b : UInt8} (hb : isDigit b = true) : isSpace b = false := by
  unfold isDigit at hb
  unfold isSpace
  rw [Bool.and_eq_true, decide_eq_true_eq, decide_eq_true_eq] at hb
  have hlow := UInt8.le_iff_toNat_le.1 hb.1
  simp only [UInt8.reduceToNat] at hlow
  simp only [Bool.or_eq_false_iff, decide_eq_false_iff_not, Bool.and_eq_false_iff,
    UInt8.le_iff_toNat_le, ← UInt8.toNat_inj, UInt8.reduceToNat]
  omega

/-- A text that starts with a number, taken apart as `strtol` does: white space, an optional sign, as many
digits as there are, and the rest, which it does not look at. -/
structure Numeral where
  blanks : Bytes
  sign : Bytes
  digits : Bytes
  rest : Bytes
  blanks_isSpace : ∀ b ∈ blanks, isSpace b = true
  sign_mem : sign ∈ [[], [43], [45]]
  digits_ne_nil : digits ≠ []
  digits_isDigit : ∀ b ∈ digits, isDigit b = true
  rest_head : ∀ b ∈ rest.head?, isDigit b = false

namespace Numeral

/-- The whole text. -/
def text (x : Numeral) : Bytes := x.blanks ++ (x.sign ++ (x.digits ++ x.rest))

/-- The number. -/
def value (x : Numeral) : Int :=
  if x.sign = [45] then -(digitsVal x.digits : Int) else digitsVal x.digits

/-- The first digit. -/
theorem exists_digits_eq_cons (x : Numeral) :
    ∃ d ds, x.digits = d :: ds ∧ isDigit d = true := by
  obtain ⟨d, ds, hcons⟩ := List.exists_cons_of_ne_nil x.digits_ne_nil
  exact ⟨d, ds, hcons, x.digits_isDigit d (hcons ▸ List.mem_cons_self)⟩

/-- The digits end where the rest begins. -/
theorem takeWhile_isDigit (x : Numeral) : (x.digits ++ x.rest).takeWhile isDigit = x.digits := by
  rw [List.takeWhile_append_of_pos x.digits_isDigit]
  cases hrest : x.rest with
  | nil => rw [List.takeWhile_nil, List.append_nil]
  | cons b bs =>
      have hb : isDigit b = false := x.rest_head b (by rw [hrest]; rfl)
      rw [List.takeWhile_cons_of_neg (by simp [hb]), List.append_nil]

/-- Neither a sign nor a digit is white space. -/
theorem dropWhile_isSpace (x : Numeral) :
    x.text.dropWhile isSpace = x.sign ++ (x.digits ++ x.rest) := by
  obtain ⟨d, ds, hcons, hd⟩ := x.exists_digits_eq_cons
  rw [text, List.dropWhile_append_of_pos x.blanks_isSpace, hcons]
  have hmem := x.sign_mem
  simp only [List.mem_cons, List.not_mem_nil, or_false] at hmem
  rcases hmem with h | h | h <;> rw [h]
  · exact List.dropWhile_cons_of_neg (by simp [isSpace_of_isDigit hd])
  · exact List.dropWhile_cons_of_neg (by decide)
  · exact List.dropWhile_cons_of_neg (by decide)

end Numeral

/-- `strtol` reads the number a text starts with. -/
theorem strtol_text (x : Numeral) : strtol x.text = some x.value := by
  have hmem := x.sign_mem
  simp only [List.mem_cons, List.not_mem_nil, or_false] at hmem
  unfold strtol Numeral.value
  dsimp only
  rw [x.dropWhile_isSpace]
  rcases hmem with h | h | h
  · -- without a sign the first byte is a digit, and no digit is a sign
    obtain ⟨d, ds, hcons, hd⟩ := x.exists_digits_eq_cons
    rw [h, List.nil_append]
    split
    next hplus =>
      rw [hcons] at hplus
      cases hplus
      exact absurd hd (by decide)
    next hminus =>
      rw [hcons] at hminus
      cases hminus
      exact absurd hd (by decide)
    · simp [x.takeWhile_isDigit, x.digits_ne_nil]
  · rw [h]
    simp [x.takeWhile_isDigit, x.digits_ne_nil]
  · rw [h]
    simp [x.takeWhile_isDigit, x.digits_ne_nil]

/-- What `strtol` reads is a number the text starts with. -/
theorem exists_numeral {s : Bytes} {i : Int} (h : strtol s = some i) :
    ∃ x : Numeral, x.text = s ∧ x.value = i := by
  -- behind the white space: a sign or none, and the digits
  have hparts : ∀ (sign t : Bytes), sign ∈ [[], [43], [45]] → s.dropWhile isSpace = sign ++ t →
      t.takeWhile isDigit ≠ [] →
      ∃ x : Numeral, x.text = s ∧ x.sign = sign ∧ x.digits = t.takeWhile isDigit := by
    intro sign t hsign hdrop hne
    refine ⟨⟨s.takeWhile isSpace, sign, t.takeWhile isDigit, t.dropWhile isDigit,
      fun b hb => List.mem_takeWhile_imp hb, hsign, hne, fun b hb => List.mem_takeWhile_imp hb,
      fun b hb => ?_⟩, ?_, rfl, rfl⟩
    · have hhead := List.head?_dropWhile_not isDigit t
      rw [Option.mem_def] at hb
      rw [hb] at hhead
      simpa using hhead
    · rw [Numeral.text, List.takeWhile_append_dropWhile, ← hdrop, List.takeWhile_append_dropWhile]
  unfold strtol at h
  dsimp only at h
  split at h
  next hdrop =>
    dsimp only at h
    rw [if_neg Bool.false_ne_true] at h
    split_ifs at h with hne
    obtain ⟨x, htext, hsign, hdigits⟩ := hparts [43] _ (by simp) hdrop hne
    refine ⟨x, htext, ?_⟩
    rw [Numeral.value, hsign, hdigits, if_neg (by decide)]
    exact Option.some.inj h
  next hdrop =>
    dsimp only at h
    rw [if_pos rfl] at h
    split_ifs at h with hne
    obtain ⟨x, htext, hsign, hdigits⟩ := hparts [45] _ (by simp) hdrop hne
    refine ⟨x, htext, ?_⟩
    rw [Numeral.value, hsign, hdigits, if_pos rfl]
    exact Option.some.inj h
  next =>
    dsimp only at h
    rw [if_neg Bool.false_ne_true] at h
    split_ifs at h with hne
    obtain ⟨x, htext, hsign, hdigits⟩ := hparts [] _ (by simp) rfl hne
    refine ⟨x, htext, ?_⟩
    rw [Numeral.value, hsign, hdigits, if_neg (by decide)]
    exact Option.some.inj h

/-- A number as it is written. -/
def Numeral.ofInt (n : Int) : Numeral where
  blanks := []
  sign := if n < 0 then [45] else []
  digits := AimChat.digits n.natAbs
  rest := []
  blanks_isSpace := by simp
  sign_mem := by split_ifs <;> simp
  digits_ne_nil := AimChat.digits_ne_nil _
  digits_isDigit := fun _ hb => isDigit_of_mem_digits hb
  rest_head := by simp

theorem Numeral.text_ofInt (n : Int) : (Numeral.ofInt n).text = printInt n := by
  simp [text, ofInt, printInt, AimChat.digits]

theorem Numeral.value_ofInt (n : Int) : (Numeral.ofInt n).value = n := by
  show (if (if n < 0 then [45] else []) = ([45] : Bytes) then -(digitsVal (AimChat.digits n.natAbs) : Int)
    else digitsVal (AimChat.digits n.natAbs)) = n
  rw [digitsVal_digits]
  by_cases hn : n < 0
  · simp only [hn, if_true]
    omega
  · simp only [hn, if_false, if_neg (List.cons_ne_nil _ _).symm]
    omega

/-- `strtol` reads a number back as it was written. -/
theorem strtol_printInt (n : Int) : strtol (printInt n) = some n := by
  rw [← Numeral.text_ofInt, strtol_text, Numeral.value_ofInt]

namespace Numeral

/-- The same number with another rest behind it. -/
def withRest (x : Numeral) (rest : Bytes) (h : ∀ b ∈ rest.head?, isDigit b = false) : Numeral :=
  { x with rest := rest, rest_head := h }

theorem text_withRest (x : Numeral) {rest : Bytes} (h : ∀ b ∈ rest.head?, isDigit b = false) :
    (x.withRest rest h).text = x.blanks ++ (x.sign ++ x.digits) ++ rest := by
  simp [text, withRest]

/-- No NUL stands before the rest. -/
theorem ne_zero_of_mem (x : Numeral) {b : UInt8} (hb : b ∈ x.blanks ++ (x.sign ++ x.digits)) : b ≠ 0 := by
  rintro rfl
  have hsign : (0 : UInt8) ∉ x.sign := by
    have hmem := x.sign_mem
    simp only [List.mem_cons, List.not_mem_nil, or_false] at hmem
    rcases hmem with h | h | h <;> simp [h]
  rcases List.mem_append.1 hb with hb | hb
  · exact absurd (x.blanks_isSpace 0 hb) (by decide)
  · rcases List.mem_append.1 hb with hb | hb
    · exact hsign hb
    · exact absurd (x.digits_isDigit 0 hb) (by decide)

/-- A NUL ends what is seen of the rest. -/
theorem cStr_text (x : Numeral) : cStr x.text = x.blanks ++ (x.sign ++ x.digits) ++ cStr x.rest := by
  have htext : x.text = x.blanks ++ (x.sign ++ x.digits) ++ x.rest := by simp [text]
  rw [htext, cStr, List.takeWhile_append_of_pos fun b hb => by simpa using x.ne_zero_of_mem hb, cStr]

end Numeral

theorem head?_cStr {s : Bytes} {b : UInt8} (hb : b ∈ (cStr s).head?) : b ∈ s.head? := by
  cases s with
  | nil => exact hb
  | cons c s =>
      by_cases hc : c = 0
      · rw [cStr, List.takeWhile_cons_of_neg (by simpa using hc)] at hb
        cases hb
      · rw [cStr, List.takeWhile_cons_of_pos (by simpa using hc)] at hb
        exact hb

/-- `std::stoi` reads the texts that start with a number in the range of an `int`. -/
theorem stoi_eq_some {s : Bytes} {i : Int} :
    stoi s = some i ↔ ∃ x : Numeral, x.text = s ∧ x.value = i ∧ IsInt32 i := by
  have hstoi : stoi s = some i ↔ strtol (cStr s) = some i ∧ IsInt32 i := by
    unfold stoi
    cases strtol (cStr s) with
    | none => simp
    | some n =>
        dsimp only
        split_ifs with hn
        · simp only [Option.some.injEq]
          exact ⟨fun h => ⟨h, h ▸ hn⟩, And.left⟩
        · simp only [Option.some.injEq, false_iff]
          rintro ⟨rfl, h⟩
          exact hn h
  rw [hstoi]
  constructor
  · rintro ⟨hread, hi⟩
    obtain ⟨x, htext, hvalue⟩ := exists_numeral hread
    -- the NUL and what follows it belong to the rest
    have hrest : ∀ b ∈ (x.rest ++ s.dropWhile (· ≠ 0)).head?, isDigit b = false := by
      intro b hb
      cases hrest : x.rest with
      | cons c cs => exact x.rest_head b (by rw [hrest] at hb ⊢; exact hb)
      | nil =>
          have hhead := List.head?_dropWhile_not (fun c : UInt8 => decide (c ≠ 0)) s
          rw [hrest, List.nil_append, Option.mem_def] at hb
          rw [hb] at hhead
          have hzero : b = 0 := by simpa using hhead
          rw [hzero]
          decide
    have hwhole : cStr s ++ s.dropWhile (· ≠ 0) = s := List.takeWhile_append_dropWhile
    refine ⟨x.withRest _ hrest, ?_, hvalue, hi⟩
    rw [Numeral.text_withRest]
    conv_rhs => rw [← hwhole, ← htext]
    simp [Numeral.text]
  · rintro ⟨x, rfl, hvalue, hi⟩
    have hrest : ∀ b ∈ (cStr x.rest).head?, isDigit b = false := fun b hb =>
      x.rest_head b (head?_cStr hb)
    refine ⟨?_, hi⟩
    rw [x.cStr_text, ← x.text_withRest hrest, strtol_text]
    exact congrArg some hvalue

/-- Different numbers are written differently. -/
theorem printInt_injective {m n : Int} (h : printInt m = printInt n) : m = n := by
  have hread := congrArg strtol h
  rw [strtol_printInt, strtol_printInt] at hread
  exact Option.some.inj hread

end AimChat
