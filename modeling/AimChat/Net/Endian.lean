import Mathlib.Algebra.GroupWithZero.Nat
import AimChat.Net.Buffer

/-! # Integers in network byte order

`net/Endian.h` and the integer operations of `Buffer`. The four widths do the same: each is `appendInt`,
`peekInt`, `readInt` or `prependInt` at its number of bytes. What was appended is read back in the order
it was appended, whatever the buffer moved or grew in between (`readIntegers_appendIntegers`). -/

namespace AimChat

namespace Net

/-- The last `k` bytes of a number, most significant first: `htobe16`, `htobe32`, `htobe64`. -/
def bigEndian : Nat → Nat → Bytes
  | 0, _ => []
  | k + 1, n => bigEndian k (n / 256) ++ [UInt8.ofNat n]

/-- The number that bytes spell, most significant first: `be16toh`, `be32toh`, `be64toh`. -/
def ofBigEndian (b : Bytes) : Nat := b.foldl (fun n c => 256 * n + c.toNat) 0

@[simp] theorem length_bigEndian (k n : Nat) : (bigEndian k n).length = k := by
  induction k generalizing n with
  | zero => rfl
  | succ k ih => rw [bigEndian, List.length_append, ih, List.length_singleton]

/-- Bytes in network order spell the number they were made of, as far as they hold it. -/
theorem ofBigEndian_bigEndian (k n : Nat) : ofBigEndian (bigEndian k n) = n % 256 ^ k := by
  induction k generalizing n with
  | zero => rw [Nat.pow_zero, Nat.mod_one]; rfl
  | succ k ih =>
      have hlast : (UInt8.ofNat n).toNat = n % 256 := UInt8.toNat_ofNat'
      have happend : ofBigEndian (bigEndian k (n / 256) ++ [UInt8.ofNat n]) =
          256 * ofBigEndian (bigEndian k (n / 256)) + (UInt8.ofNat n).toNat := by
        rw [ofBigEndian, List.foldl_append]
        rfl
      rw [bigEndian, happend, ih, hlast, Nat.pow_succ', Nat.mod_mul, Nat.add_comm]

/-- The four bytes of the frame codec's lengths and checksums. -/
theorem bigEndian_four (x : Int) : bigEndian 4 (x % 4294967296).toNat = int32Bytes x := by
  simp only [bigEndian, int32Bytes, List.nil_append, List.cons_append, Nat.div_div_eq_div_mul, Nat.reduceMul]

namespace Buffer

section Widths

variable (buf : Buffer) (k : Nat)

/-- `appendInt8`, `appendInt16`, `appendInt32`, `appendInt64` -/
def appendInt (x : BitVec (8 * k)) : Buffer := buf.append (bigEndian k x.toNat)

/-- `peekInt8`, `peekInt16`, `peekInt32`, `peekInt64` -/
def peekInt : Except Assert (BitVec (8 * k)) :=
  if k ≤ buf.readableBytes then .ok (BitVec.ofNat _ (ofBigEndian (buf.contents.take k)))
  else .error .retrieve

/-- `readInt8`, `readInt16`, `readInt32`, `readInt64` -/
def readInt : Except Assert (BitVec (8 * k) × Buffer) :=
  (buf.peekInt k).map fun x => (x, buf.retrieve k)

/-- `prependInt8`, `prependInt16`, `prependInt32`, `prependInt64` -/
def prependInt (x : BitVec (8 * k)) : Except Assert Buffer := step buf (.prepend (bigEndian k x.toNat))

end Widths

section Names

variable (buf : Buffer)

def appendInt8 (x : BitVec 8) : Buffer := buf.appendInt 1 x
def appendInt16 (x : BitVec 16) : Buffer := buf.appendInt 2 x
def appendInt32 (x : BitVec 32) : Buffer := buf.appendInt 4 x
def appendInt64 (x : BitVec 64) : Buffer := buf.appendInt 8 x

def readInt8 : Except Assert (BitVec 8 × Buffer) := buf.readInt 1
def readInt16 : Except Assert (BitVec 16 × Buffer) := buf.readInt 2
def readInt32 : Except Assert (BitVec 32 × Buffer) := buf.readInt 4
def readInt64 : Except Assert (BitVec 64 × Buffer) := buf.readInt 8

def prependInt8 (x : BitVec 8) : Except Assert Buffer := buf.prependInt 1 x
def prependInt16 (x : BitVec 16) : Except Assert Buffer := buf.prependInt 2 x
def prependInt32 (x : BitVec 32) : Except Assert Buffer := buf.prependInt 4 x
def prependInt64 (x : BitVec 64) : Except Assert Buffer := buf.prependInt 8 x

end Names

/-! ## Sequences of integers -/

/-- The widths there are operations for. -/
inductive Width
  | int8
  | int16
  | int32
  | int64
  deriving DecidableEq, Repr

/-- `sizeof` -/
def Width.size : Width → Nat
  | .int8 => 1
  | .int16 => 2
  | .int32 => 4
  | .int64 => 8

/-- An integer of one of the widths. -/
structure Integer where
  width : Width
  value : BitVec (8 * width.size)

/-- The append of the integer's width. -/
def appendInteger (buf : Buffer) : Integer → Buffer
  | ⟨.int8, x⟩ => buf.appendInt8 x
  | ⟨.int16, x⟩ => buf.appendInt16 x
  | ⟨.int32, x⟩ => buf.appendInt32 x
  | ⟨.int64, x⟩ => buf.appendInt64 x

/-- The read of a width. -/
def readInteger (buf : Buffer) : Width → Except Assert (Integer × Buffer)
  | .int8 => buf.readInt8.map fun (x, rest) => (⟨.int8, x⟩, rest)
  | .int16 => buf.readInt16.map fun (x, rest) => (⟨.int16, x⟩, rest)
  | .int32 => buf.readInt32.map fun (x, rest) => (⟨.int32, x⟩, rest)
  | .int64 => buf.readInt64.map fun (x, rest) => (⟨.int64, x⟩, rest)

/-- The prepend of the integer's width. -/
def prependInteger (buf : Buffer) : Integer → Except Assert Buffer
  | ⟨.int8, x⟩ => buf.prependInt8 x
  | ⟨.int16, x⟩ => buf.prependInt16 x
  | ⟨.int32, x⟩ => buf.prependInt32 x
  | ⟨.int64, x⟩ => buf.prependInt64 x

/-- Integers appended one after the other. -/
def appendIntegers (buf : Buffer) (xs : List Integer) : Buffer := xs.foldl appendInteger buf

/-- Integers of these widths read one after the other. -/
def readIntegers : List Width → Buffer → Except Assert (List Integer × Buffer)
  | [], buf => .ok ([], buf)
  | w :: ws, buf => do
      let (x, buf) ← buf.readInteger w
      let (xs, buf) ← readIntegers ws buf
      return (x :: xs, buf)

variable {buf : Buffer}

theorem appendInteger_eq (x : Integer) : buf.appendInteger x = buf.appendInt x.width.size x.value := by
  obtain ⟨w, x⟩ := x
  cases w <;> rfl

theorem readInteger_eq (w : Width) :
    buf.readInteger w = (buf.readInt w.size).map fun (x, rest) => (⟨w, x⟩, rest) := by
  cases w <;> rfl

theorem prependInteger_eq (x : Integer) :
    buf.prependInteger x = step buf (.prepend (bigEndian x.width.size x.value.toNat)) := by
  obtain ⟨w, x⟩ := x
  cases w <;> rfl

/-- The bytes of an integer. -/
def Integer.bytes (x : Integer) : Bytes := bigEndian x.width.size x.value.toNat

@[simp] theorem Integer.length_bytes (x : Integer) : x.bytes.length = x.width.size := length_bigEndian _ _

theorem contents_appendInteger (x : Integer) : (buf.appendInteger x).contents = buf.contents ++ x.bytes := by
  rw [appendInteger_eq, appendInt, contents_append, Integer.bytes]

theorem contents_appendIntegers (buf : Buffer) (xs : List Integer) :
    (buf.appendIntegers xs).contents = buf.contents ++ (xs.map Integer.bytes).flatten := by
  induction xs generalizing buf with
  | nil => exact (List.append_nil _).symm
  | cons x xs ih =>
      rw [appendIntegers, List.foldl_cons, ← appendIntegers, ih, contents_appendInteger, List.append_assoc]
      rfl

/-- An integer whose bytes stand in front is what is read, and it is taken off. -/
theorem readInteger_of_contents {x : Integer} {rest : Bytes} (h : buf.contents = x.bytes ++ rest) :
    buf.readInteger x.width = .ok (x, buf.retrieve x.width.size) := by
  have hlen : x.width.size ≤ buf.readableBytes := by
    rw [← length_contents, h, List.length_append, Integer.length_bytes]
    exact Nat.le_add_right _ _
  have hfits : x.value.toNat < 256 ^ x.width.size := by
    have := x.value.isLt
    rwa [Nat.pow_mul] at this
  have hval : BitVec.ofNat (8 * x.width.size) (ofBigEndian (buf.contents.take x.width.size)) = x.value := by
    rw [h, List.take_left' x.length_bytes, Integer.bytes, ofBigEndian_bigEndian, Nat.mod_eq_of_lt hfits,
      BitVec.ofNat_toNat, BitVec.setWidth_eq]
  rw [readInteger_eq, readInt, peekInt, if_pos hlen, hval]
  rfl

/-- Integers whose bytes stand in front are read, one after the other. -/
theorem readIntegers_of_contents {xs : List Integer} {rest : Bytes}
    (h : buf.contents = (xs.map Integer.bytes).flatten ++ rest) :
    ∃ buf', readIntegers (xs.map Integer.width) buf = .ok (xs, buf') ∧ buf'.contents = rest := by
  induction xs generalizing buf with
  | nil => exact ⟨buf, rfl, h⟩
  | cons x xs ih =>
      rw [List.map_cons, List.flatten_cons, List.append_assoc] at h
      have hrest : (buf.retrieve x.width.size).contents = (xs.map Integer.bytes).flatten ++ rest := by
        rw [contents_retrieve, h, List.drop_left' x.length_bytes]
      obtain ⟨buf', hread, hcontents⟩ := ih hrest
      refine ⟨buf', ?_, hcontents⟩
      rw [List.map_cons, readIntegers, readInteger_of_contents h]
      change (readIntegers (xs.map Integer.width) _ >>= fun p => pure (x :: p.1, p.2)) = _
      rw [hread]
      rfl

/-- Reading trips the assert of `peekInt` exactly when the integers need more bytes than there are. -/
theorem readIntegers_eq_error_iff (ws : List Width) (buf : Buffer) :
    readIntegers ws buf = .error .retrieve ↔ buf.readableBytes < (ws.map Width.size).sum := by
  induction ws generalizing buf with
  | nil => exact iff_of_false (by rw [readIntegers]; simp) (Nat.not_lt_zero _)
  | cons w ws ih =>
      rw [readIntegers, readInteger_eq, readInt, peekInt, List.map_cons, List.sum_cons]
      split_ifs with hlen
      · have hread : (buf.retrieve w.size).readableBytes = buf.readableBytes - w.size := by
          rw [← length_contents, contents_retrieve, List.length_drop, length_contents]
        have hiff := ih (buf.retrieve w.size)
        rw [hread] at hiff
        change (readIntegers ws (buf.retrieve w.size) >>= fun p => pure (_ :: p.1, p.2)) = _ ↔ _
        cases hrest : readIntegers ws (buf.retrieve w.size) with
        | ok p =>
            rw [hrest] at hiff
            have hno : ¬ buf.readableBytes - w.size < (ws.map Width.size).sum := fun h =>
              nomatch hiff.2 h
            exact iff_of_false (nomatch ·) (by omega)
        | error f =>
            rw [hrest] at hiff
            exact hiff.trans (by omega)
      · exact iff_of_true rfl (by omega)

/-- **Integers come out as they went in.** Integers of any widths appended behind what a buffer holds, and
followed by other bytes, are read back in order once that is retrieved, with the other bytes left; fewer
bytes than the widths need trip the assert; and an integer prepended is the first one read. -/
theorem readIntegers_appendIntegers (buf : Buffer) (xs : List Integer) (rest : Bytes) :
    (∃ buf', readIntegers (xs.map Integer.width)
          (((buf.appendIntegers xs).append rest).retrieve buf.readableBytes) = .ok (xs, buf') ∧
        buf'.contents = rest) ∧
      (∀ ws, readIntegers ws buf = .error .retrieve ↔ buf.readableBytes < (ws.map Width.size).sum) ∧
      ∀ x buf', buf.prependInteger x = .ok buf' →
        ∃ buf'', buf'.readInteger x.width = .ok (x, buf'') ∧ buf''.contents = buf.contents := by
  refine ⟨readIntegers_of_contents ?_, fun ws => readIntegers_eq_error_iff ws buf, fun x buf' h => ?_⟩
  · rw [contents_retrieve, contents_append, contents_appendIntegers, List.append_assoc,
      List.drop_left' (length_contents _)]
  · rw [prependInteger_eq, step] at h
    split_ifs at h with hlen
    cases h
    have hcontents : (buf.prepend (bigEndian x.width.size x.value.toNat) hlen).contents =
        x.bytes ++ buf.contents := contents_prepend hlen
    refine ⟨_, readInteger_of_contents hcontents, ?_⟩
    rw [contents_retrieve, hcontents, List.drop_left' x.length_bytes]

end Buffer

end Net

end AimChat
