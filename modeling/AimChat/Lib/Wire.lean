import Mathlib.Algebra.Group.Nat.Defs
import Mathlib.Data.List.Basic

/-! # Tag-length-value records

The wire format of protocol buffers, for the two wire types their scalar, string and message fields
use: a record is a sequence of fields, each a varint key holding field number and wire type, followed
by a varint or by a length and that many bytes. `decode` undoes `encode` (`decode_encode`). -/

namespace AimChat.Wire

/-- The value of one field on the wire. -/
inductive WireValue
  | varint (n : Nat)
  | len (b : List UInt8)
  deriving DecidableEq, Repr

/-- The fields of a record in the order they stand in. -/
abbrev Fields := List (Nat × WireValue)

/-! ## Varints -/

/-- Base-128 digits of `n`, least significant first, each but the last with its top bit set. At most
`fuel` of them. -/
def putVarint : Nat → Nat → List UInt8
  | 0, _ => []
  | fuel + 1, n =>
      if n < 128 then [UInt8.ofNat n] else UInt8.ofNat (n % 128 + 128) :: putVarint fuel (n / 128)

/-- Read a varint of at most `fuel` bytes off the front. -/
def getVarint : Nat → List UInt8 → Option (Nat × List UInt8)
  | 0, _ => none
  | _ + 1, [] => none
  | fuel + 1, c :: b =>
      if c < 128 then some (c.toNat, b)
      else (getVarint fuel b).map fun (n, rest) => (c.toNat - 128 + 128 * n, rest)

/-- A varint that fits its bytes is read back, whatever follows. -/
theorem getVarint_putVarint {fuel n : Nat} (h : n < 128 ^ fuel) (hf : 0 < fuel)
    (rest : List UInt8) : getVarint fuel (putVarint fuel n ++ rest) = some (n, rest) := by
  induction fuel generalizing n with
  | zero => omega
  | succ fuel ih =>
      unfold putVarint
      split_ifs with hn
      · have hc : UInt8.ofNat n < 128 := by
          rw [UInt8.lt_iff_toNat_lt, UInt8.toNat_ofNat']
          change n % 256 < 128
          omega
        simp only [List.singleton_append, getVarint, if_pos hc, UInt8.toNat_ofNat']
        rw [Nat.mod_eq_of_lt (by omega)]
      · have hc : ¬ UInt8.ofNat (n % 128 + 128) < 128 := by
          rw [UInt8.lt_iff_toNat_lt, UInt8.toNat_ofNat']
          change ¬ (n % 128 + 128) % 256 < 128
          omega
        have hlt : n / 128 < 128 ^ fuel := by
          rw [Nat.pow_succ] at h
          omega
        have hpos : 0 < fuel := by
          rcases Nat.eq_zero_or_pos fuel with rfl | hp
          · omega
          · exact hp
        simp only [List.cons_append, getVarint, if_neg hc, ih hlt hpos, Option.map_some,
          UInt8.toNat_ofNat']
        congr 2
        omega

/-! ## Records -/

/-- The bytes of one field. -/
def encodeField : Nat × WireValue → List UInt8
  | (k, .varint n) => putVarint 10 (8 * k) ++ putVarint 10 n
  | (k, .len b) => putVarint 10 (8 * k + 2) ++ (putVarint 10 b.length ++ b)

/-- The bytes of a record. -/
def encode (fs : Fields) : List UInt8 := (fs.map encodeField).flatten

/-- Read one field off the front; wire types other than the two are refused. -/
def getField (b : List UInt8) : Option ((Nat × WireValue) × List UInt8) :=
  match getVarint 10 b with
  | none => none
  | some (key, b) =>
      if key % 8 = 0 then (getVarint 10 b).map fun (n, rest) => ((key / 8, .varint n), rest)
      else if key % 8 = 2 then
        match getVarint 10 b with
        | none => none
        | some (n, b) => if n ≤ b.length then some ((key / 8, .len (b.take n)), b.drop n) else none
      else none

/-- Read fields until the bytes are used up; every field takes at least one, so their number bounds
the fields. -/
def decodeFuel : Nat → List UInt8 → Option Fields
  | _, [] => some []
  | 0, _ :: _ => none
  | fuel + 1, b =>
      match getField b with
      | none => none
      | some (f, rest) => (decodeFuel fuel rest).map (f :: ·)

/-- The fields of a record. -/
def decode (b : List UInt8) : Option Fields := decodeFuel b.length b

/-- What a field must fit into to survive the wire: 64 bits for a varint, key and length included. -/
def Fits : Nat × WireValue → Prop
  | (k, .varint n) => 8 * k < 2 ^ 64 ∧ n < 2 ^ 64
  | (k, .len b) => 8 * k + 2 < 2 ^ 64 ∧ b.length < 2 ^ 64

/-- A field is read back, whatever follows. -/
theorem getField_encodeField {f : Nat × WireValue} (h : Fits f) (rest : List UInt8) :
    getField (encodeField f ++ rest) = some (f, rest) := by
  have hpow : (2 : Nat) ^ 64 ≤ 128 ^ 10 := by decide
  obtain ⟨k, n | b⟩ := f
  · obtain ⟨hk, hn⟩ := h
    rw [encodeField, List.append_assoc, getField,
      getVarint_putVarint (by omega) (by omega)]
    simp only [Nat.mul_mod_right, if_true]
    rw [getVarint_putVarint (by omega) (by omega), Nat.mul_div_cancel_left k (by omega)]
    rfl
  · obtain ⟨hk, hb⟩ := h
    have hmod : (8 * k + 2) % 8 = 2 := by omega
    have hdiv : (8 * k + 2) / 8 = k := by omega
    rw [encodeField, List.append_assoc, List.append_assoc, getField,
      getVarint_putVarint (by omega) (by omega)]
    simp only [hmod, hdiv, getVarint_putVarint (show b.length < 128 ^ 10 by omega)
      (show 0 < 10 by omega)]
    simp

theorem putVarint_ne_nil (fuel n : Nat) : putVarint (fuel + 1) n ≠ [] := by
  unfold putVarint
  split_ifs <;> simp

theorem encodeField_ne_nil (f : Nat × WireValue) : encodeField f ≠ [] := by
  obtain ⟨k, n | b⟩ := f <;> simp [encodeField, putVarint_ne_nil]

/-- **Decoding undoes encoding.** -/
theorem decode_encode {fs : Fields} (h : ∀ f ∈ fs, Fits f) : decode (encode fs) = some fs := by
  suffices hfuel : ∀ fuel, (encode fs).length ≤ fuel → decodeFuel fuel (encode fs) = some fs from
    hfuel _ (Nat.le_refl _)
  induction fs with
  | nil => intro fuel _; cases fuel <;> rfl
  | cons f fs ih =>
      intro fuel hlen
      have hcons : encode (f :: fs) = encodeField f ++ encode fs := rfl
      have hpos : 0 < (encodeField f).length := List.length_pos_iff.2 (encodeField_ne_nil f)
      rw [hcons, List.length_append] at hlen
      obtain ⟨fuel, rfl⟩ : ∃ m, fuel = m + 1 := ⟨fuel - 1, by omega⟩
      rw [hcons, decodeFuel, getField_encodeField (h f List.mem_cons_self)]
      · simp only [ih (fun g hg => h g (List.mem_cons_of_mem _ hg)) fuel (by omega), Option.map_some]
      · intro hnil
        rw [List.append_eq_nil_iff] at hnil
        exact encodeField_ne_nil f hnil.1

/-! ## What a field holds came in -/

/-- A varint takes bytes off the front. -/
theorem length_of_getVarint {fuel n : Nat} {b rest : List UInt8} (h : getVarint fuel b = some (n, rest)) :
    rest.length < b.length := by
  induction fuel generalizing n b rest with
  | zero => simp [getVarint] at h
  | succ fuel ih =>
      cases b with
      | nil => simp [getVarint] at h
      | cons c b =>
          rw [getVarint] at h
          split_ifs at h
          · simp only [Option.some.injEq, Prod.mk.injEq] at h
            obtain ⟨-, rfl⟩ := h
            exact Nat.lt_succ_self _
          · simp only [Option.map_eq_some_iff, Prod.mk.injEq, Prod.exists] at h
            obtain ⟨m, rest', hm, -, rfl⟩ := h
            exact Nat.lt_succ_of_lt (ih hm)

/-- A byte string is a proper part of what its field is read from, and so is the rest. -/
theorem length_of_getField {f : Nat × WireValue} {b rest : List UInt8} (h : getField b = some (f, rest)) :
    rest.length < b.length ∧ ∀ k x, f = (k, .len x) → x.length < b.length := by
  unfold getField at h
  cases hkey : getVarint 10 b with
  | none => rw [hkey] at h; cases h
  | some found =>
      obtain ⟨key, b₁⟩ := found
      have hb₁ := length_of_getVarint hkey
      rw [hkey] at h
      dsimp only at h
      split_ifs at h
      · simp only [Option.map_eq_some_iff, Prod.mk.injEq, Prod.exists] at h
        obtain ⟨n, rest', hn, rfl, rfl⟩ := h
        exact ⟨Nat.lt_trans (length_of_getVarint hn) hb₁, fun k x hx => by cases hx⟩
      · cases hn : getVarint 10 b₁ with
        | none => rw [hn] at h; cases h
        | some found =>
            obtain ⟨n, b₂⟩ := found
            have hb₂ := length_of_getVarint hn
            rw [hn] at h
            dsimp only at h
            split_ifs at h
            cases h
            refine ⟨?_, fun k x hx => ?_⟩
            · rw [List.length_drop]
              omega
            · cases hx
              rw [List.length_take]
              omega

/-- The byte strings of a record are shorter than the record. -/
theorem length_of_decode {b : List UInt8} {fs : Fields} (h : decode b = some fs) {k : Nat}
    {x : List UInt8} (hx : (k, WireValue.len x) ∈ fs) : x.length < b.length := by
  unfold decode at h
  suffices hfuel : ∀ fuel b fs, decodeFuel fuel b = some fs → (k, WireValue.len x) ∈ fs →
      x.length < b.length from hfuel _ b fs h hx
  clear h hx
  intro fuel
  induction fuel with
  | zero =>
      intro b fs h hx
      cases b with
      | nil => cases h; cases hx
      | cons c b => cases h
  | succ fuel ih =>
      intro b fs h hx
      cases b with
      | nil => cases h; cases hx
      | cons c b =>
          rw [decodeFuel] at h
          · cases hfield : getField (c :: b) with
            | none => rw [hfield] at h; cases h
            | some found =>
                obtain ⟨f, rest⟩ := found
                obtain ⟨hrest, hf⟩ := length_of_getField hfield
                rw [hfield] at h
                simp only [Option.map_eq_some_iff] at h
                obtain ⟨gs, hgs, rfl⟩ := h
                rcases List.mem_cons.1 hx with rfl | hx
                · exact hf k x rfl
                · exact Nat.lt_trans (ih _ _ hgs hx) hrest
          · exact List.cons_ne_nil c b

/-! ## Reading fields -/

/-- Take over a varint of field `k`. -/
def stepVarint (k n : Nat) : Nat × WireValue → Nat
  | (j, .varint m) => if j = k then m else n
  | (_, .len _) => n

/-- Take over a byte string of field `k`. -/
def stepLen (k : Nat) (b : List UInt8) : Nat × WireValue → List UInt8
  | (j, .len c) => if j = k then c else b
  | (_, .varint _) => b

/-- The last varint of field `k`; 0 when there is none. -/
def lastVarint (k : Nat) (fs : Fields) : Nat := fs.foldl (stepVarint k) 0

/-- The last byte string of field `k`; empty when there is none. -/
def lastLen (k : Nat) (fs : Fields) : List UInt8 := fs.foldl (stepLen k) []

/-- What holds of the empty string and of the byte strings of a field holds of the last one. -/
theorem lastLen_induct {P : List UInt8 → Prop} {fs : Fields} {k : Nat} (hnil : P [])
    (h : ∀ x, (k, .len x) ∈ fs → P x) : P (lastLen k fs) := by
  suffices hfold : ∀ (fs : Fields) (b : List UInt8), P b → (∀ x, (k, .len x) ∈ fs → P x) →
      P (fs.foldl (stepLen k) b) from hfold fs [] hnil h
  intro fs
  induction fs with
  | nil => exact fun b hb _ => hb
  | cons f fs ih =>
      intro b hb hall
      refine ih _ ?_ fun x hx => hall x (List.mem_cons_of_mem f hx)
      obtain ⟨j, n | c⟩ := f
      · exact hb
      · unfold stepLen
        dsimp only
        split_ifs with hj
        · subst hj
          exact hall c List.mem_cons_self
        · exact hb

/-- The last byte string of a field is no longer than the longest of the record. -/
theorem length_lastLen_le {fs : Fields} {k m : Nat} (h : ∀ x, (k, .len x) ∈ fs → x.length ≤ m) :
    (lastLen k fs).length ≤ m :=
  lastLen_induct (Nat.zero_le m) h

/-- Every byte string of field `k`, in order. -/
def allLen (k : Nat) (fs : Fields) : List (List UInt8) :=
  fs.filterMap fun f => match f with
    | (j, .len c) => if j = k then some c else none
    | _ => none

theorem mem_allLen {k : Nat} {fs : Fields} {x : List UInt8} : x ∈ allLen k fs ↔ (k, .len x) ∈ fs := by
  unfold allLen
  rw [List.mem_filterMap]
  constructor
  · rintro ⟨⟨j, n | c⟩, hf, hx⟩
    · cases hx
    · by_cases hj : j = k
      · rw [← hj, ← Option.some.inj ((if_pos hj).symm.trans hx)]
        exact hf
      · cases (if_neg hj).symm.trans hx
  · exact fun h => ⟨_, h, if_pos rfl⟩

/-- The varints packed into a byte string. -/
def unpackFuel : Nat → List UInt8 → Option (List Nat)
  | _, [] => some []
  | 0, _ :: _ => none
  | fuel + 1, b =>
      match getVarint 10 b with
      | none => none
      | some (n, rest) => (unpackFuel fuel rest).map (n :: ·)

/-- Every varint of a repeated field `k`, packed or not, in order. -/
def allVarint (k : Nat) (fs : Fields) : Option (List Nat) :=
  fs.foldr (fun f acc => match f with
    | (j, .varint n) => if j = k then acc.map (n :: ·) else acc
    | (j, .len b) =>
        if j = k then
          match unpackFuel b.length b, acc with
          | some ns, some ms => some (ns ++ ms)
          | _, _ => none
        else acc) (some [])

end AimChat.Wire
