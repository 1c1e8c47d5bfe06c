import AimChat.Base.Bytes
import AimChat.Lib.Deque
import AimChat.Lib.Refinement

/-! # The connection buffer

`muduo::net::Buffer` as it lies in memory: a vector with a reader and a writer index, `kCheapPrepend`
bytes kept free in front. Appending moves the readable bytes to the front or grows the vector, a read
takes bytes into the free tail and the rest through a second area, `prepend` takes the free bytes in
front. `contents` is what the buffer is for, the bytes between the indices; a run of its operations is
a run of the double-ended byte queue `Deque` (`run_refines`). The asserts of the source are faults. -/

namespace AimChat

namespace Net

/-- `kCheapPrepend` -/
def kCheapPrepend : Nat := 8

/-- `kInitialSize` -/
def kInitialSize : Nat := 1024

/-- `std::vector<char>::resize(n)` -/
def resize (v : Bytes) (n : Nat) : Bytes := v.take n ++ List.replicate (n - v.length) 0

/-- `std::copy(data, data+len, begin()+pos)` -/
def copyTo (v : Bytes) (pos : Nat) (data : Bytes) : Bytes :=
  v.take pos ++ (data ++ v.drop (pos + data.length))

theorem length_resize (v : Bytes) (n : Nat) : (resize v n).length = n := by
  simp only [resize, List.length_append, List.length_take, List.length_replicate]
  omega

theorem length_copyTo {v data : Bytes} {pos : Nat} (h : pos + data.length ≤ v.length) :
    (copyTo v pos data).length = v.length := by
  simp only [copyTo, List.length_append, List.length_take, List.length_drop]
  omega

/-- The copied bytes end what stands before their end. -/
theorem take_copyTo_end {v data : Bytes} {pos : Nat} (h : pos ≤ v.length) :
    (copyTo v pos data).take (pos + data.length) = v.take pos ++ data := by
  have hpos : (v.take pos).length = pos := by rw [List.length_take, Nat.min_eq_left h]
  rw [copyTo, ← List.append_assoc, List.take_left' (by rw [List.length_append, hpos])]

/-- From the place of the copy on stand the copied bytes and what stood behind them. -/
theorem drop_copyTo {v data : Bytes} {pos : Nat} (h : pos ≤ v.length) :
    (copyTo v pos data).drop pos = data ++ v.drop (pos + data.length) := by
  rw [copyTo, List.drop_left' (by rw [List.length_take, Nat.min_eq_left h])]

/-- A `Buffer`: `0 <= readerIndex <= writerIndex <= size`. -/
structure Buffer where
  /-- `buffer_` -/
  buffer : Bytes
  /-- `readerIndex_` -/
  readerIndex : Nat
  /-- `writerIndex_` -/
  writerIndex : Nat
  reader_le : readerIndex ≤ writerIndex
  writer_le : writerIndex ≤ buffer.length
  cheap_le : kCheapPrepend ≤ buffer.length
  deriving DecidableEq

namespace Buffer

/-- `Buffer(initialSize)` -/
def ofSize (initialSize : Nat) : Buffer where
  buffer := List.replicate (kCheapPrepend + initialSize) 0
  readerIndex := kCheapPrepend
  writerIndex := kCheapPrepend
  reader_le := Nat.le_refl _
  writer_le := by rw [List.length_replicate]; omega
  cheap_le := by rw [List.length_replicate]; omega

/-- `Buffer()` -/
def empty : Buffer := ofSize kInitialSize

variable (buf : Buffer)

/-- `readableBytes()` -/
def readableBytes : Nat := buf.writerIndex - buf.readerIndex

/-- `writableBytes()` -/
def writableBytes : Nat := buf.buffer.length - buf.writerIndex

/-- `prependableBytes()` -/
def prependableBytes : Nat := buf.readerIndex

/-- The bytes from `peek()` to `beginWrite()`: `toStringPiece()`. -/
def contents : Bytes := (buf.buffer.take buf.writerIndex).drop buf.readerIndex

@[simp] theorem length_contents : buf.contents.length = buf.readableBytes := by
  have := buf.writer_le
  simp only [contents, readableBytes, List.length_drop, List.length_take]
  omega

theorem contents_eq_nil_iff : buf.contents = [] ↔ buf.readableBytes = 0 := by
  rw [← List.length_eq_zero_iff, length_contents]

@[simp] theorem contents_ofSize (n : Nat) : (ofSize n).contents = [] := by
  rw [contents_eq_nil_iff, readableBytes]
  exact Nat.sub_self _

@[simp] theorem contents_empty : empty.contents = [] := contents_ofSize _

/-! ## Taking bytes -/

/-- `retrieveAll()` -/
def retrieveAll : Buffer :=
  { buf with
    readerIndex := kCheapPrepend
    writerIndex := kCheapPrepend
    reader_le := Nat.le_refl _
    writer_le := buf.cheap_le }

/-- `retrieve(len)` -/
def retrieve (len : Nat) : Buffer :=
  if h : len < buf.readableBytes then
    { buf with
      readerIndex := buf.readerIndex + len
      reader_le := by unfold readableBytes at h; omega }
  else buf.retrieveAll

/-- `retrieveAsString(len)`: the bytes, and the buffer without them. -/
def retrieveAsString (len : Nat) : Bytes × Buffer := (buf.contents.take len, buf.retrieve len)

/-- `unwrite(len)` of a length that the buffer holds. -/
def unwrite (len : Nat) (h : len ≤ buf.readableBytes) : Buffer :=
  { buf with
    writerIndex := buf.writerIndex - len
    reader_le := by have := buf.reader_le; unfold readableBytes at h; omega
    writer_le := by have := buf.writer_le; omega }

@[simp] theorem contents_retrieveAll : buf.retrieveAll.contents = [] := by
  rw [contents_eq_nil_iff, readableBytes]
  exact Nat.sub_self _

/-- `retrieve` takes bytes off the front. -/
@[simp] theorem contents_retrieve (len : Nat) : (buf.retrieve len).contents = buf.contents.drop len := by
  unfold retrieve
  split_ifs with h
  · rw [contents, contents, List.drop_drop]
  · rw [contents_retrieveAll, List.drop_of_length_le (by rw [length_contents]; omega)]

/-- `unwrite` takes bytes off the back. -/
@[simp] theorem contents_unwrite (len : Nat) (h : len ≤ buf.readableBytes) :
    (buf.unwrite len h).contents = buf.contents.take (buf.readableBytes - len) := by
  have hle := buf.reader_le
  have hlen : buf.writerIndex - len = buf.readerIndex + (buf.readableBytes - len) := by
    unfold readableBytes at h ⊢
    omega
  rw [contents, contents, List.take_drop, List.take_take]
  change (buf.buffer.take (buf.writerIndex - len)).drop buf.readerIndex = _
  rw [hlen, Nat.min_eq_left (by unfold readableBytes; omega)]

/-! ## Room for bytes -/

/-- `makeSpace(len)` where the tail is too short: grow, or move the readable bytes to the front. -/
def makeSpace (len : Nat) (hshort : buf.writableBytes < len) : Buffer :=
  if h : buf.writableBytes + buf.prependableBytes < len + kCheapPrepend then
    have hgrow : buf.buffer.length ≤ buf.writerIndex + len := by
      unfold writableBytes at hshort
      omega
    { buf with
      buffer := resize buf.buffer (buf.writerIndex + len)
      writer_le := by rw [length_resize]; exact Nat.le_add_right _ _
      cheap_le := by rw [length_resize]; exact Nat.le_trans buf.cheap_le hgrow }
  else
    have hfits : kCheapPrepend + buf.contents.length ≤ buf.buffer.length := by
      have := buf.reader_le
      have := buf.writer_le
      rw [length_contents]
      unfold writableBytes prependableBytes at h
      unfold readableBytes
      omega
    { buffer := copyTo buf.buffer kCheapPrepend buf.contents
      readerIndex := kCheapPrepend
      writerIndex := kCheapPrepend + buf.readableBytes
      reader_le := Nat.le_add_right _ _
      writer_le := by rw [length_copyTo hfits, ← length_contents]; exact hfits
      cheap_le := by rw [length_copyTo hfits]; exact buf.cheap_le }

/-- `ensureWritableBytes(len)` -/
def ensureWritableBytes (len : Nat) : Buffer :=
  if h : buf.writableBytes < len then buf.makeSpace len h else buf

/-- Bytes stored at `beginWrite()`, then `hasWritten(len)`, where there is room for them. -/
def store (data : Bytes) (h : data.length ≤ buf.writableBytes) : Buffer :=
  have hfits : buf.writerIndex + data.length ≤ buf.buffer.length := by
    have := buf.writer_le
    unfold writableBytes at h
    omega
  { buffer := copyTo buf.buffer buf.writerIndex data
    readerIndex := buf.readerIndex
    writerIndex := buf.writerIndex + data.length
    reader_le := Nat.le_trans buf.reader_le (Nat.le_add_right _ _)
    writer_le := by rw [length_copyTo hfits]; exact hfits
    cheap_le := by rw [length_copyTo hfits]; exact buf.cheap_le }

variable {buf}

/-- Where bytes are moved, there is room in front: `assert(kCheapPrepend < readerIndex_)`. -/
theorem kCheapPrepend_lt_readerIndex {len : Nat} (hshort : buf.writableBytes < len)
    (h : ¬ buf.writableBytes + buf.prependableBytes < len + kCheapPrepend) :
    kCheapPrepend < buf.readerIndex := by
  unfold prependableBytes at h
  omega

@[simp] theorem contents_makeSpace {len : Nat} (h : buf.writableBytes < len) :
    (buf.makeSpace len h).contents = buf.contents := by
  unfold makeSpace
  split_ifs with hgrow
  · have hw : buf.writerIndex ≤ buf.writerIndex + len := Nat.le_add_right _ _
    change ((resize buf.buffer _).take buf.writerIndex).drop buf.readerIndex = _
    rw [resize, List.take_append_of_le_length, List.take_take, Nat.min_eq_left hw, contents]
    rw [List.length_take]
    exact Nat.le_min.2 ⟨hw, buf.writer_le⟩
  · change ((copyTo buf.buffer kCheapPrepend buf.contents).take (kCheapPrepend + buf.readableBytes)).drop
      kCheapPrepend = _
    rw [← length_contents, take_copyTo_end buf.cheap_le,
      List.drop_left' (by rw [List.length_take, Nat.min_eq_left buf.cheap_le])]

@[simp] theorem contents_ensureWritableBytes (len : Nat) :
    (buf.ensureWritableBytes len).contents = buf.contents := by
  unfold ensureWritableBytes
  split_ifs with h
  · exact contents_makeSpace h
  · rfl

/-- `assert(writableBytes() >= len)` -/
theorem le_writableBytes_ensureWritableBytes (len : Nat) :
    len ≤ (buf.ensureWritableBytes len).writableBytes := by
  unfold ensureWritableBytes
  split_ifs with h
  · unfold makeSpace
    split_ifs with hgrow
    · change len ≤ (resize buf.buffer _).length - buf.writerIndex
      rw [length_resize]
      omega
    · have hle := buf.reader_le
      have hwle := buf.writer_le
      have hfits : kCheapPrepend + buf.contents.length ≤ buf.buffer.length := by
        rw [length_contents]
        unfold writableBytes prependableBytes at hgrow
        unfold readableBytes
        omega
      change len ≤ (copyTo buf.buffer kCheapPrepend buf.contents).length -
        (kCheapPrepend + buf.readableBytes)
      rw [length_copyTo hfits]
      unfold writableBytes prependableBytes at hgrow
      unfold readableBytes
      omega
  · exact Nat.le_of_not_lt h

@[simp] theorem contents_store (data : Bytes) (h : data.length ≤ buf.writableBytes) :
    (buf.store data h).contents = buf.contents ++ data := by
  change ((copyTo buf.buffer buf.writerIndex data).take (buf.writerIndex + data.length)).drop
    buf.readerIndex = _
  rw [take_copyTo_end buf.writer_le, List.drop_append_of_le_length, contents]
  rw [List.length_take, Nat.min_eq_left buf.writer_le]
  exact buf.reader_le

/-! ## Putting bytes -/

variable (buf)

/-- `append(data, len)` -/
def append (data : Bytes) : Buffer :=
  (buf.ensureWritableBytes data.length).store data (le_writableBytes_ensureWritableBytes _)

/-- `prepend(data, len)` of a length that is free in front. -/
def prepend (data : Bytes) (h : data.length ≤ buf.prependableBytes) : Buffer :=
  have hfits : buf.readerIndex - data.length + data.length ≤ buf.buffer.length := by
    have := buf.reader_le
    have := buf.writer_le
    unfold prependableBytes at h
    omega
  { buffer := copyTo buf.buffer (buf.readerIndex - data.length) data
    readerIndex := buf.readerIndex - data.length
    writerIndex := buf.writerIndex
    reader_le := Nat.le_trans (Nat.sub_le _ _) buf.reader_le
    writer_le := by rw [length_copyTo hfits]; exact buf.writer_le
    cheap_le := by rw [length_copyTo hfits]; exact buf.cheap_le }

/-- `shrink(reserve)` -/
def shrink (reserve : Nat) : Buffer :=
  (empty.ensureWritableBytes (buf.readableBytes + reserve)).append buf.contents

/-- `sizeof extrabuf` -/
def extrabufSize : Nat := 65536

/-- The bytes the vectors handed to `readv` have room for. -/
def readvRoom : Nat :=
  if buf.writableBytes < extrabufSize then buf.writableBytes + extrabufSize else buf.writableBytes

/-- `readFd` when `readv` returns these bytes: what the tail does not hold lies in `extrabuf` and is
appended. -/
def readFd (data : Bytes) : Buffer :=
  if h : data.length ≤ buf.writableBytes then buf.store data h
  else
    (buf.store (data.take buf.writableBytes) (List.length_take_le _ _)).append
      (data.drop buf.writableBytes)

variable {buf}

@[simp] theorem contents_append (data : Bytes) : (buf.append data).contents = buf.contents ++ data := by
  rw [append, contents_store, contents_ensureWritableBytes]

@[simp] theorem contents_prepend {data : Bytes} (h : data.length ≤ buf.prependableBytes) :
    (buf.prepend data h).contents = data ++ buf.contents := by
  have hr := buf.reader_le
  have hw := buf.writer_le
  have hlen : buf.readerIndex - data.length + data.length = buf.readerIndex := Nat.sub_add_cancel h
  change ((copyTo buf.buffer (buf.readerIndex - data.length) data).take buf.writerIndex).drop
    (buf.readerIndex - data.length) = _
  rw [List.drop_take, drop_copyTo (by omega), hlen, List.take_append, contents, List.drop_take]
  congr 1
  · exact List.take_of_length_le (by omega)
  · congr 1
    omega

@[simp] theorem contents_shrink (reserve : Nat) : (buf.shrink reserve).contents = buf.contents := by
  rw [shrink, contents_append, contents_ensureWritableBytes, contents_empty, List.nil_append]

@[simp] theorem contents_readFd (data : Bytes) : (buf.readFd data).contents = buf.contents ++ data := by
  unfold readFd
  split_ifs with h
  · rw [contents_store]
  · rw [contents_append, contents_store, List.append_assoc, List.take_append_drop]

/-! ## Runs of operations -/

/-- A call of an operation of the buffer. -/
inductive Call
  | append (data : Bytes)
  | prepend (data : Bytes)
  | retrieve (len : Nat)
  | retrieveAll
  | ensureWritableBytes (len : Nat)
  /-- Bytes stored at `beginWrite()`, then `hasWritten(len)`. -/
  | store (data : Bytes)
  | unwrite (len : Nat)
  | shrink (reserve : Nat)
  /-- `readFd` on a socket in which these bytes wait. -/
  | readFd (waiting : Bytes)

/-- The operation whose assert fails. -/
inductive Assert
  /-- `assert(len <= prependableBytes())` -/
  | prepend
  /-- `assert(len <= readableBytes())` -/
  | retrieve
  /-- `assert(len <= writableBytes())` -/
  | hasWritten
  /-- `assert(len <= readableBytes())` -/
  | unwrite
  deriving DecidableEq, Repr

/-- One call. -/
def step (buf : Buffer) : Call → Except Assert Buffer
  | .append data => .ok (buf.append data)
  | .prepend data =>
      if h : data.length ≤ buf.prependableBytes then .ok (buf.prepend data h) else .error .prepend
  | .retrieve len => if len ≤ buf.readableBytes then .ok (buf.retrieve len) else .error .retrieve
  | .retrieveAll => .ok buf.retrieveAll
  | .ensureWritableBytes len => .ok (buf.ensureWritableBytes len)
  | .store data =>
      if h : data.length ≤ buf.writableBytes then .ok (buf.store data h) else .error .hasWritten
  | .unwrite len => if h : len ≤ buf.readableBytes then .ok (buf.unwrite len h) else .error .unwrite
  | .shrink reserve => .ok (buf.shrink reserve)
  | .readFd waiting => .ok (buf.readFd (waiting.take buf.readvRoom))

/-- What a call does to the queue of the bytes that can be read. -/
def means (buf : Buffer) : Call → List (Deque.Call UInt8)
  | .append data => [.pushBack data]
  | .prepend data => [.pushFront data]
  | .retrieve len => [.popFront len]
  | .retrieveAll => [.popFront buf.readableBytes]
  | .ensureWritableBytes _ => []
  | .store data => [.pushBack data]
  | .unwrite len => [.popBack len]
  | .shrink _ => []
  | .readFd waiting => [.pushBack (waiting.take buf.readvRoom)]

/-- One call is what it means on the bytes that can be read. -/
theorem step_means {buf' : Buffer} {c : Call} (h : step buf c = .ok buf') :
    Run.run Deque.step buf.contents (means buf c) = .ok buf'.contents := by
  cases c with
  | append data =>
      cases h
      rw [means, Run.run_singleton, Deque.step, contents_append]
  | prepend data =>
      rw [step] at h
      split_ifs at h with hlen
      cases h
      rw [means, Run.run_singleton, Deque.step, contents_prepend]
  | retrieve len =>
      rw [step] at h
      split_ifs at h with hlen
      cases h
      rw [means, Run.run_singleton, Deque.step, length_contents, if_pos hlen, contents_retrieve]
  | retrieveAll =>
      cases h
      rw [means, Run.run_singleton, Deque.step, length_contents, if_pos (Nat.le_refl _),
        contents_retrieveAll, List.drop_of_length_le (Nat.le_of_eq (length_contents _))]
  | ensureWritableBytes len =>
      cases h
      rw [means, Run.run_nil, contents_ensureWritableBytes]
  | store data =>
      rw [step] at h
      split_ifs at h with hlen
      cases h
      rw [means, Run.run_singleton, Deque.step, contents_store]
  | unwrite len =>
      rw [step] at h
      split_ifs at h with hlen
      cases h
      rw [means, Run.run_singleton, Deque.step, length_contents, if_pos hlen, contents_unwrite]
  | shrink reserve =>
      cases h
      rw [means, Run.run_nil, contents_shrink]
  | readFd waiting =>
      cases h
      rw [means, Run.run_singleton, Deque.step, contents_readFd]

/-- The buffer is a double-ended queue of bytes. -/
theorem simulation : Run.Simulation step Deque.step means fun buf l => buf.contents = l :=
  Run.Simulation.of_abs fun _ _ _ => step_means

/-! ## What a run keeps -/

/-- A call whose assert on what is readable fails takes more than the queue holds. -/
theorem step_error {c : Call} {f : Assert} (h : step buf c = .error f) :
    (f = .retrieve ∧ Run.run Deque.step buf.contents (means buf c) = .error .popFront) ∨
      (f = .unwrite ∧ Run.run Deque.step buf.contents (means buf c) = .error .popBack) ∨
      ((f = .prepend ∨ f = .hasWritten) ∧
        ∃ l, Run.run Deque.step buf.contents (means buf c) = .ok l) := by
  cases c with
  | retrieve len =>
      rw [step] at h
      split_ifs at h with hlen
      cases h
      refine .inl ⟨rfl, ?_⟩
      rw [means, Run.run_singleton, Deque.step, length_contents, if_neg hlen]
  | unwrite len =>
      rw [step] at h
      split_ifs at h with hlen
      cases h
      refine .inr (.inl ⟨rfl, ?_⟩)
      rw [means, Run.run_singleton, Deque.step, length_contents, if_neg hlen]
  | prepend data =>
      rw [step] at h
      split_ifs at h with hlen
      cases h
      exact .inr (.inr ⟨.inl rfl, _, rfl⟩)
  | store data =>
      rw [step] at h
      split_ifs at h with hlen
      cases h
      exact .inr (.inr ⟨.inr rfl, _, rfl⟩)
  | append data => cases h
  | retrieveAll => cases h
  | ensureWritableBytes len => cases h
  | shrink reserve => cases h
  | readFd waiting => cases h

/-- A run of the buffer takes too much from the front exactly when the queue is taken too much from. -/
theorem run_error_iff (buf : Buffer) (calls : List Call) {f : Assert} {g : Deque.Underflow}
    (hfg : f = .retrieve ∧ g = .popFront ∨ f = .unwrite ∧ g = .popBack) :
    Run.run step buf calls = .error f ↔
      Run.run Deque.step buf.contents (Run.log step means buf calls) = .error g := by
  induction calls generalizing buf with
  | nil => exact iff_of_false (by rw [Run.run_nil]; simp) (by rw [Run.log, Run.run_nil]; simp)
  | cons c calls ih =>
      rw [Run.run, Run.log]
      cases hc : step buf c with
      | ok buf' =>
          dsimp only
          rw [ih buf', Run.run_append, step_means hc]
          rfl
      | error f' =>
          dsimp only
          rw [List.append_nil]
          -- the call that fails is the last of both runs
          rcases step_error hc with ⟨rfl, hq⟩ | ⟨rfl, hq⟩ | ⟨hf, l, hq⟩
          · rw [hq]
            rcases hfg with ⟨rfl, rfl⟩ | ⟨rfl, rfl⟩ <;> simp
          · rw [hq]
            rcases hfg with ⟨rfl, rfl⟩ | ⟨rfl, rfl⟩ <;> simp
          · rw [hq]
            rcases hf with rfl | rfl <;> rcases hfg with ⟨rfl, rfl⟩ | ⟨rfl, rfl⟩ <;> simp

/-- Making room keeps the bytes free in front, or frees them again. -/
theorem prependableBytes_ensureWritableBytes (hbuf : kCheapPrepend ≤ buf.prependableBytes) (len : Nat) :
    kCheapPrepend ≤ (buf.ensureWritableBytes len).prependableBytes := by
  unfold ensureWritableBytes
  split_ifs with h
  · unfold makeSpace
    split_ifs with hgrow
    · exact hbuf
    · exact Nat.le_refl _
  · exact hbuf

theorem prependableBytes_append (hbuf : kCheapPrepend ≤ buf.prependableBytes) (data : Bytes) :
    kCheapPrepend ≤ (buf.append data).prependableBytes :=
  prependableBytes_ensureWritableBytes hbuf _

theorem prependableBytes_empty : kCheapPrepend ≤ empty.prependableBytes := Nat.le_refl _

/-- No call but `prepend` uses the bytes kept free in front. -/
theorem prependableBytes_step {buf' : Buffer} {c : Call} (hc : ∀ data, c ≠ .prepend data)
    (hbuf : kCheapPrepend ≤ buf.prependableBytes) (h : step buf c = .ok buf') :
    kCheapPrepend ≤ buf'.prependableBytes := by
  cases c with
  | prepend data => exact absurd rfl (hc data)
  | append data =>
      cases h
      exact prependableBytes_ensureWritableBytes hbuf _
  | retrieve len =>
      rw [step] at h
      split_ifs at h with hlen
      cases h
      unfold retrieve
      split_ifs with hlt
      · exact Nat.le_trans hbuf (Nat.le_add_right _ _)
      · exact Nat.le_refl _
  | retrieveAll =>
      cases h
      exact Nat.le_refl _
  | ensureWritableBytes len =>
      cases h
      exact prependableBytes_ensureWritableBytes hbuf _
  | store data =>
      rw [step] at h
      split_ifs at h with hlen
      cases h
      exact hbuf
  | unwrite len =>
      rw [step] at h
      split_ifs at h with hlen
      cases h
      exact hbuf
  | shrink reserve =>
      cases h
      exact prependableBytes_append
        (prependableBytes_ensureWritableBytes prependableBytes_empty _) _
  | readFd waiting =>
      cases h
      unfold readFd
      split_ifs with hlen
      · exact hbuf
      · have hstored : kCheapPrepend ≤ (buf.store ((waiting.take buf.readvRoom).take buf.writableBytes)
            (List.length_take_le _ _)).prependableBytes := hbuf
        exact prependableBytes_append hstored _

/-- **The buffer is a byte queue.** Whatever it is made to do, moving and growing included, what can be
read is what the double-ended queue holds after the same puts and takes; `retrieve` and `unwrite` trip
their asserts exactly when that queue would underflow; and as long as nothing is prepended,
`kCheapPrepend` bytes stay free in front. -/
theorem run_refines (initialSize : Nat) (calls : List Call) :
    (∀ buf, Run.run step (ofSize initialSize) calls = .ok buf →
        Run.run Deque.step [] (Run.log step means (ofSize initialSize) calls) = .ok buf.contents) ∧
      (Run.run step (ofSize initialSize) calls = .error .retrieve ↔
        Run.run Deque.step [] (Run.log step means (ofSize initialSize) calls) = .error .popFront) ∧
      (Run.run step (ofSize initialSize) calls = .error .unwrite ↔
        Run.run Deque.step [] (Run.log step means (ofSize initialSize) calls) = .error .popBack) ∧
      ∀ buf, (∀ c ∈ calls, ∀ data, c ≠ .prepend data) →
        Run.run step (ofSize initialSize) calls = .ok buf → kCheapPrepend ≤ buf.prependableBytes := by
  refine ⟨fun buf hrun => ?_, ?_, ?_, fun buf hcalls hrun => ?_⟩
  · obtain ⟨l, hl, hcontents⟩ := simulation.run (contents_ofSize initialSize) hrun
    rw [hl, hcontents]
  · rw [run_error_iff (ofSize initialSize) calls (.inl ⟨rfl, rfl⟩), contents_ofSize]
  · rw [run_error_iff (ofSize initialSize) calls (.inr ⟨rfl, rfl⟩), contents_ofSize]
  · have hkeeps : ∀ (s : Buffer) (c : Call) (s' : Buffer), kCheapPrepend ≤ s.prependableBytes →
        (∀ data, c ≠ .prepend data) → step s c = .ok s' → kCheapPrepend ≤ s'.prependableBytes :=
      fun _ _ _ hs hc h => prependableBytes_step hc hs h
    exact Run.run_invariant hkeeps (Nat.le_refl _) (Run.always_of_forall_mem hcalls) hrun

/-! ## How large the vector grows -/

/-- What a call asks room for. -/
def asks (buf : Buffer) : Call → Nat
  | .append data => data.length
  | .ensureWritableBytes len => len
  | .shrink reserve => reserve
  | .readFd waiting => (waiting.take buf.readvRoom).length
  | .prepend _ => 0
  | .retrieve _ => 0
  | .retrieveAll => 0
  | .store _ => 0
  | .unwrite _ => 0

theorem length_store (data : Bytes) (h : data.length ≤ buf.writableBytes) :
    (buf.store data h).buffer.length = buf.buffer.length := by
  refine length_copyTo ?_
  have := buf.writer_le
  unfold writableBytes at h
  omega

/-- The vector grows when moving would not do, so to less than twice the bytes it is grown for. -/
theorem length_ensureWritableBytes_le (len : Nat) :
    (buf.ensureWritableBytes len).buffer.length ≤
      max buf.buffer.length (buf.readableBytes + 2 * len + kCheapPrepend) := by
  have hr := buf.reader_le
  have hw := buf.writer_le
  unfold ensureWritableBytes
  split_ifs with h
  · unfold makeSpace
    split_ifs with hgrow
    · change (resize buf.buffer _).length ≤ _
      rw [length_resize]
      unfold writableBytes prependableBytes at hgrow
      unfold readableBytes
      omega
    · change (copyTo buf.buffer kCheapPrepend buf.contents).length ≤ _
      rw [length_copyTo]
      · exact Nat.le_max_left _ _
      · rw [length_contents]
        unfold writableBytes prependableBytes at hgrow
        unfold readableBytes
        omega
  · exact Nat.le_max_left _ _

theorem length_append_le (data : Bytes) :
    (buf.append data).buffer.length ≤
      max buf.buffer.length (buf.readableBytes + 2 * data.length + kCheapPrepend) := by
  rw [append, length_store]
  exact length_ensureWritableBytes_le _

@[simp] theorem readableBytes_ensureWritableBytes (len : Nat) :
    (buf.ensureWritableBytes len).readableBytes = buf.readableBytes := by
  rw [← length_contents, contents_ensureWritableBytes, length_contents]

/-- After one call the vector is as large as before, as a new one, or as twice what is readable and
asked for. -/
theorem length_step_le {buf' : Buffer} {c : Call} (h : step buf c = .ok buf') :
    buf'.buffer.length ≤ max buf.buffer.length
      (max (kCheapPrepend + kInitialSize) (2 * (buf.readableBytes + buf.asks c) + kCheapPrepend)) := by
  cases c with
  | append data =>
      cases h
      have := buf.length_append_le data
      simp only [asks]
      omega
  | prepend data =>
      rw [step] at h
      split_ifs at h with hlen
      cases h
      refine Nat.le_trans (Nat.le_of_eq (length_copyTo ?_)) (Nat.le_max_left _ _)
      have := buf.reader_le
      have := buf.writer_le
      unfold prependableBytes at hlen
      omega
  | retrieve len =>
      rw [step] at h
      split_ifs at h with hlen
      cases h
      unfold retrieve
      split_ifs with hlt
      · exact Nat.le_max_left _ _
      · exact Nat.le_max_left _ _
  | retrieveAll =>
      cases h
      exact Nat.le_max_left _ _
  | ensureWritableBytes len =>
      cases h
      have := buf.length_ensureWritableBytes_le len
      simp only [asks]
      omega
  | store data =>
      rw [step] at h
      split_ifs at h with hlen
      cases h
      rw [length_store]
      exact Nat.le_max_left _ _
  | unwrite len =>
      rw [step] at h
      split_ifs at h with hlen
      cases h
      exact Nat.le_max_left _ _
  | shrink reserve =>
      cases h
      have hnew : empty.buffer.length = kCheapPrepend + kInitialSize := List.length_replicate
      have hzero : empty.readableBytes = 0 := Nat.sub_self _
      have hensure := empty.length_ensureWritableBytes_le (buf.readableBytes + reserve)
      have happend := (empty.ensureWritableBytes (buf.readableBytes + reserve)).length_append_le buf.contents
      rw [readableBytes_ensureWritableBytes, length_contents] at happend
      simp only [shrink, asks]
      omega
  | readFd waiting =>
      cases h
      simp only [readFd, asks]
      split_ifs with hlen
      · rw [length_store]
        exact Nat.le_max_left _ _
      · have happend := (buf.store ((waiting.take buf.readvRoom).take buf.writableBytes)
          (List.length_take_le _ _)).length_append_le ((waiting.take buf.readvRoom).drop buf.writableBytes)
        rw [length_store, ← length_contents, contents_store, List.length_append, length_contents,
          List.length_take_of_le (Nat.le_of_not_le hlen), List.length_drop] at happend
        omega

/-- **The buffer does not grow without need.** In a run in which never more than `n` bytes wait to be
read and no operation asks room for more than `m`, the vector stays as large as it was made, as a new
one, or as twice the two together and the bytes kept free. -/
theorem length_le_of_run (initialSize n m : Nat) (calls : List Call) (buf : Buffer)
    (hcalls : Run.Always step (fun s c => s.readableBytes ≤ n ∧ s.asks c ≤ m) (ofSize initialSize) calls)
    (hrun : Run.run step (ofSize initialSize) calls = .ok buf) :
    buf.buffer.length ≤ max (kCheapPrepend + initialSize)
      (max (kCheapPrepend + kInitialSize) (2 * (n + m) + kCheapPrepend)) := by
  have hkeeps : ∀ (s : Buffer) (c : Call) (s' : Buffer),
      s.buffer.length ≤ max (kCheapPrepend + initialSize)
        (max (kCheapPrepend + kInitialSize) (2 * (n + m) + kCheapPrepend)) →
      s.readableBytes ≤ n ∧ s.asks c ≤ m → step s c = .ok s' →
      s'.buffer.length ≤ max (kCheapPrepend + initialSize)
        (max (kCheapPrepend + kInitialSize) (2 * (n + m) + kCheapPrepend)) := by
    intro s c s' hs hc h
    have hle := length_step_le h
    omega
  exact Run.run_invariant hkeeps (Nat.le_trans (Nat.le_of_eq List.length_replicate) (Nat.le_max_left _ _))
    hcalls hrun

/-- Six bytes through a buffer made for four. -/
theorem length_le_of_run_six :
    ∃ buf, Run.run step (ofSize 4) [.append [1, 2, 3], .retrieve 1, .append [4, 5, 6]] = .ok buf ∧
      buf.buffer.length ≤ max (kCheapPrepend + 4) (max (kCheapPrepend + kInitialSize) (2 * (3 + 3) +
        kCheapPrepend)) :=
  ⟨_, rfl, length_le_of_run 4 3 3 [.append [1, 2, 3], .retrieve 1, .append [4, 5, 6]] _ (by decide) rfl⟩

end Buffer

end Net

end AimChat
