import AimChat.Base.Decimal

/-! # What the Go services take from their language

A Go `string` is its bytes. `int64` is an `Int` that an operation reduces into `[-2^63, 2^63)`, a reading
of the clock is its nanoseconds, and the part of `fmt` the services use is defined on these. -/

namespace AimChat.Go

/-! ## `int64` -/

/-- The values of `int64`. -/
def IsInt64 (n : Int) : Prop := -9223372036854775808 ≤ n ∧ n < 9223372036854775808

instance (n : Int) : Decidable (IsInt64 n) := inferInstanceAs (Decidable (_ ∧ _))

/-- The result of an operation on `int64`: reduced modulo `2^64`. -/
def wrap64 (n : Int) : Int := (n + 9223372036854775808) % 18446744073709551616 - 9223372036854775808

/-- Every operation lands in `int64`. -/
theorem isInt64_wrap64 (n : Int) : IsInt64 (wrap64 n) := by
  unfold IsInt64 wrap64
  omega

/-- A value of `int64` is its own reduction. -/
theorem wrap64_eq_self {n : Int} (h : IsInt64 n) : wrap64 n = n := by
  unfold IsInt64 at h
  unfold wrap64
  omega

/-! ## Time

A `time.Time` that `time.Now()` gave, or one computed from it, is the nanoseconds on the clock. -/

/-- `time.Duration`: nanoseconds. -/
structure Duration where
  ns : Int
  isInt64 : IsInt64 ns
  deriving DecidableEq

/-- So many seconds. -/
def Duration.secs (n : Int) (h : IsInt64 (n * 1000000000)) : Duration := ⟨n * 1000000000, h⟩

/-- `a - b` on durations. -/
def Duration.sub (a b : Duration) : Duration := ⟨wrap64 (a.ns - b.ns), isInt64_wrap64 _⟩

/-- `int(d.Seconds())`, the seconds taken exactly. -/
def Duration.seconds (d : Duration) : Int := d.ns.tdiv 1000000000

/-- `t.Add(d)` -/
def Time.add (t : Int) (d : Duration) : Int := t + d.ns

/-- `t.Sub(u)`: the largest or the smallest duration when the difference is none. -/
def Time.sub (t u : Int) : Duration where
  ns := max (-9223372036854775808) (min (t - u) 9223372036854775807)
  isInt64 := by
    unfold IsInt64
    omega

/-- `t.Before(u)` -/
def Time.before (t u : Int) : Bool := t < u

/-- `t.After(u)` -/
def Time.after (t u : Int) : Bool := u < t

@[simp] theorem Time.before_iff {t u : Int} : Time.before t u = true ↔ t < u := decide_eq_true_iff

@[simp] theorem Time.after_iff {t u : Int} : Time.after t u = true ↔ u < t := decide_eq_true_iff

/-- Between two readings of a clock that does not go back, a duration compares with the difference as it
does with the exact one. -/
theorem Time.sub_lt_iff {t u : Int} (h : u ≤ t) (d : Duration) : (Time.sub t u).ns < d.ns ↔ t - u < d.ns := by
  have hd := d.isInt64
  unfold IsInt64 at hd
  unfold Time.sub
  dsimp only
  omega

/-! ## `fmt` -/

/-- `%0*d`: the number with zeros behind its sign, up to a width. -/
def zeroPadded (width : Nat) (n : Int) : Bytes :=
  let pad (width : Nat) (ds : Bytes) := List.replicate (width - ds.length) 48 ++ ds
  if n < 0 then 45 :: pad (width - 1) (digits n.natAbs) else pad width (digits n.natAbs)

theorem zeroPadded_of_nonneg {n : Int} (h : 0 ≤ n) (width : Nat) :
    zeroPadded width n = List.replicate (width - (digits n.natAbs).length) 48 ++ digits n.natAbs :=
  if_neg (not_lt.2 h)

/-- The UTF-8 of the characters that `fmt` takes for blanks, the newline apart. -/
def spaces : List Bytes :=
  [[9], [11], [12], [13], [32], [0xC2, 0x85], [0xC2, 0xA0], [0xE1, 0x9A, 0x80]] ++
    (List.range 11).map (fun k => [0xE2, 0x80, 0x80 + UInt8.ofNat k]) ++
    [[0xE2, 0x80, 0xA8], [0xE2, 0x80, 0xA9], [0xE2, 0x80, 0xAF], [0xE2, 0x81, 0x9F], [0xE3, 0x80, 0x80]]

/-- `SkipSpace()`, with fuel for the blanks there may be. -/
def skipSpace : Nat → Bytes → Bytes
  | 0, s => s
  | fuel + 1, s =>
      match spaces.find? (·.isPrefixOf s) with
      | none => s
      | some space => skipSpace fuel (s.drop space.length)

/-- `fmt.Sscanf(s, "%d", &n)` on an `int64` that is 0: blanks, but no newline, then a number; `n` stays 0
when there is none or it does not fit. -/
def sscanfInt (s : Bytes) : Int :=
  -- a newline ends the line the number has to be on
  let s := skipSpace s.length s
  if s.head? = some 10 then 0
  else
    match strtol s with
    | none => 0
    | some n => if IsInt64 n then n else 0

/-- No blank is skipped in front of a sign or a digit. -/
theorem skipSpace_cons {b : UInt8} (hb : b = 45 ∨ isDigit b = true) (fuel : Nat) (s : Bytes) :
    skipSpace fuel (b :: s) = b :: s := by
  have hnone : spaces.find? (·.isPrefixOf (b :: s)) = none := by
    have hheads : ∀ space ∈ spaces, ∃ c cs, space = c :: cs ∧ c ≠ 45 ∧ isDigit c = false := by
      simp [spaces, isDigit, List.range_succ]
    refine List.find?_eq_none.2 fun space hspace hprefix => ?_
    obtain ⟨c, cs, rfl, hsign, hdigit⟩ := hheads space hspace
    simp only [List.isPrefixOf_cons_cons, Bool.and_eq_true, beq_iff_eq] at hprefix
    obtain rfl := hprefix.1
    rcases hb with hb | hb
    · exact hsign hb
    · exact Bool.false_ne_true (hdigit.symm.trans hb)
  cases fuel with
  | zero => rfl
  | succ fuel => rw [skipSpace, hnone]

/-- A printed `int64` is read back. -/
theorem sscanfInt_printInt {n : Int} (h : IsInt64 n) : sscanfInt (printInt n) = n := by
  have hfirst : ∀ b ∈ printInt n, b = 45 ∨ isDigit b = true := by
    intro b hb
    rcases mem_printInt hb with rfl | hdigit
    · exact .inl rfl
    · exact .inr (by simpa [isDigit] using hdigit)
  -- nothing is skipped in front of the number
  have hskip : skipSpace (printInt n).length (printInt n) = printInt n := by
    cases hn : printInt n with
    | nil => rfl
    | cons b bs => exact skipSpace_cons (hfirst b (by rw [hn]; exact List.mem_cons_self)) _ _
  have hnewline : (printInt n).head? ≠ some 10 := by
    intro hhead
    rcases hfirst 10 (List.mem_of_mem_head? hhead) with hsign | hdigit
    · exact absurd hsign (by decide)
    · exact absurd hdigit (by decide)
  unfold sscanfInt
  dsimp only
  rw [hskip, if_neg hnewline, strtol_printInt]
  exact if_pos h

end AimChat.Go
