import Mathlib.Data.List.Basic

/-! # Byte strings and 32-bit integers

`std::string` is a list of bytes, `int32_t` an `Int` that a conversion reduces into
`[-2^31, 2^31)`. The functions of the C and C++ libraries that the server reads numbers and strings
with (`c_str`, `atoi`, `std::stoi`, printing a pointer) are defined here on these. -/

namespace AimChat

/-- A `std::string`: its bytes. -/
abbrev Bytes := List UInt8

/-- The bytes of a text constant of the source. -/
def str (s : String) : Bytes := s.toUTF8.data.toList

/-- Conversion to `int32_t`: reduction modulo `2^32` into `[-2^31, 2^31)`. -/
@[irreducible] def wrap32 (n : Int) : Int := (n + 2147483648) % 4294967296 - 2147483648

/-- The values of `int32_t`. -/
def IsInt32 (n : Int) : Prop := -2147483648 ≤ n ∧ n < 2147483648

instance (n : Int) : Decidable (IsInt32 n) := inferInstanceAs (Decidable (_ ∧ _))

/-- Every conversion lands in `int32_t`. -/
theorem isInt32_wrap32 (n : Int) : IsInt32 (wrap32 n) := by
  unfold IsInt32 wrap32
  omega

/-- A value of `int32_t` is its own conversion. -/
theorem wrap32_eq_self {n : Int} (h : IsInt32 n) : wrap32 n = n := by
  unfold IsInt32 at h
  unfold wrap32
  omega

/-! ## Network byte order -/

/-- `hostToNetwork32`: the four bytes of an `int32_t`, most significant first. -/
def int32Bytes (x : Int) : Bytes :=
  let n := (x % 4294967296).toNat
  [UInt8.ofNat (n / 16777216), UInt8.ofNat (n / 65536), UInt8.ofNat (n / 256), UInt8.ofNat n]

/-- `networkToHost32` of the first four bytes, as an `int32_t`. -/
@[irreducible] def readInt32 : Bytes → Int
  | a :: b :: c :: d :: _ =>
      wrap32 (a.toNat * 16777216 + b.toNat * 65536 + c.toNat * 256 + d.toNat : Nat)
  | _ => 0

@[simp] theorem length_int32Bytes (x : Int) : (int32Bytes x).length = 4 := rfl

/-- Reading an `int32_t` back in network byte order gives it back, whatever follows. -/
theorem readInt32_int32Bytes {x : Int} (h : IsInt32 x) (rest : Bytes) :
    readInt32 (int32Bytes x ++ rest) = x := by
  unfold IsInt32 at h
  unfold readInt32 int32Bytes wrap32
  simp only [List.cons_append, List.nil_append, UInt8.toNat_ofNat']
  omega

/-- What stands behind the first four bytes is not read. -/
theorem readInt32_append {b : Bytes} (h : 4 ≤ b.length) (c : Bytes) :
    readInt32 (b ++ c) = readInt32 b := by
  match b, h with
  | _ :: _ :: _ :: _ :: _, _ => unfold readInt32; rfl

/-! ## Checksums -/

/-- zlib's `adler32(1, buf, len)`. -/
def adler32 (b : Bytes) : UInt32 :=
  let (lo, hi) := b.foldl (fun (lo, hi) c =>
    let lo := (lo + c.toNat) % 65521
    (lo, (hi + lo) % 65521)) (1, 0)
  UInt32.ofNat (hi * 65536 + lo)

/-! ## C strings and numbers in text -/

/-- `c_str()` read as a C string: everything before the first NUL. -/
def cStr (s : Bytes) : Bytes := s.takeWhile (· ≠ 0)

/-- `isspace` in the C locale. -/
def isSpace (c : UInt8) : Bool := c = 32 || (9 ≤ c && c ≤ 13)

/-- `isdigit`. -/
def isDigit (c : UInt8) : Bool := 48 ≤ c && c ≤ 57

/-- The value of a run of decimal digits. -/
def digitsVal (ds : Bytes) : Nat := ds.foldl (fun n c => n * 10 + (c.toNat - 48)) 0

/-- `strtol` in base 10 before any range check: skip white space, take an optional sign and the
longest run of digits. `none` when there is no digit. -/
def strtol (s : Bytes) : Option Int :=
  let s := s.dropWhile isSpace
  let (neg, s) :=
    match s with
    | 43 :: t => (false, t)
    | 45 :: t => (true, t)
    | t => (false, t)
  let ds := s.takeWhile isDigit
  if ds = [] then none
  else if neg then some (-(digitsVal ds : Int)) else some (digitsVal ds : Int)

/-- `atoi`: no digits read as 0, a value out of `long` is clamped, and the result is converted to
`int`. -/
def atoi (s : Bytes) : Int :=
  match strtol (cStr s) with
  | none => 0
  | some n => wrap32 (max (-9223372036854775808) (min n 9223372036854775807))

/-- `std::stoi`: throws (`none`) when there is no number or it does not fit an `int`. What follows the
digits is ignored. -/
def stoi (s : Bytes) : Option Int :=
  match strtol (cStr s) with
  | none => none
  | some n => if IsInt32 n then some n else none

/-- `ss << (void*)p`: the address in lower-case hexadecimal behind `0x`, a null pointer as `0`. -/
def printPtr (p : Nat) : String :=
  if p = 0 then "0" else "0x" ++ String.ofList (Nat.toDigits 16 p)

/-- Different numbers have different hexadecimal digits. -/
theorem toDigits_injective {n m : Nat} (h : Nat.toDigits 16 n = Nat.toDigits 16 m) : n = m := by
  induction n using Nat.strongRecOn generalizing m with
  | ind n ih =>
      -- the digits but the last, and the last
      have hsplit : ∀ k, Nat.toDigits 16 k =
          (if k < 16 then [] else Nat.toDigits 16 (k / 16)) ++ [Nat.digitChar (k % 16)] := by
        intro k
        rw [Nat.toDigits_eq_if (by omega)]
        split_ifs with hk
        · rw [Nat.mod_eq_of_lt hk]; rfl
        · rfl
      have hchar : ∀ i < 16, ∀ j < 16, Nat.digitChar i = Nat.digitChar j → i = j := by decide
      rw [hsplit n, hsplit m] at h
      obtain ⟨hfront, hlast⟩ := List.append_inj' h rfl
      have hmod : n % 16 = m % 16 :=
        hchar _ (Nat.mod_lt _ (by omega)) _ (Nat.mod_lt _ (by omega)) (List.singleton_inj.1 hlast)
      have hdiv : n / 16 = m / 16 := by
        split_ifs at hfront with hn hm hm
        · omega
        · exact absurd hfront.symm Nat.toDigits_ne_nil
        · exact absurd hfront Nat.toDigits_ne_nil
        · exact ih (n / 16) (by omega) hfront
      omega

/-- Different pointers are printed differently. -/
theorem printPtr_injective {p q : Nat} (h : printPtr p = printPtr q) : p = q := by
  have hlist := congrArg String.toList h
  unfold printPtr at hlist
  split_ifs at hlist with hp hq hq
  · rw [hp, hq]
  · simp at hlist
  · simp at hlist
  · rw [String.toList_append, String.toList_append] at hlist
    have hdigits := List.append_cancel_left hlist
    simp only [String.toList_ofList] at hdigits
    exact toDigits_injective hdigits

end AimChat
