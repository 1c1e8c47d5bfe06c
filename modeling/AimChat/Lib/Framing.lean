import Mathlib.Data.List.Basic

/-! # Incremental framing of a stream

A receiver of a byte stream keeps a buffer, and each time bytes arrive it takes complete units off the
front until the front is incomplete or malformed. `Framer` is what such a receiver knows about the
front of its buffer; `Framer.decode` is the loop. The two facts a framer must have are that a unit
takes at least one symbol and that more input never changes a verdict already reached. From these
alone the way the stream was cut does not matter (`Framer.decode_append`, `Framer.feed_out`). -/

namespace AimChat.Framing

universe u v w

variable {β : Type u} {α : Type v} {ε : Type w}

/-- What the front of a buffer is: undecided yet, malformed, or a unit of `n` symbols that hands over
the messages `ms`. -/
inductive Verdict (α : Type v) (ε : Type w)
  | more
  | bad (e : ε)
  | unit (n : Nat) (ms : List α)

/-- A judgement of buffer fronts that is stable under further input. -/
structure Framer (β : Type u) (α : Type v) (ε : Type w) where
  /-- The verdict on the front of a buffer. -/
  head : List β → Verdict α ε
  /-- A unit takes at least one symbol. -/
  unit_pos : ∀ {b n ms}, head b = .unit n ms → 0 < n
  /-- A unit lies inside the buffer. -/
  unit_le : ∀ {b n ms}, head b = .unit n ms → n ≤ b.length
  /-- A verdict other than `more` does not change when symbols are appended. -/
  head_append : ∀ {b}, head b ≠ .more → ∀ c, head (b ++ c) = head b

/-- The outcome of draining a buffer: messages handed over, symbols left, and the error that stopped
the loop, if any. -/
structure Outcome (β : Type u) (α : Type v) (ε : Type w) where
  out : List α
  rest : List β
  err : Option ε

namespace Framer

variable (F : Framer β α ε)

/-- Take units off the front of `b` until it is undecided or malformed. -/
def decode (b : List β) : Outcome β α ε :=
  match _h : F.head b with
  | .more => ⟨[], b, none⟩
  | .bad e => ⟨[], b, some e⟩
  | .unit n ms =>
      let r := decode (b.drop n)
      ⟨ms ++ r.out, r.rest, r.err⟩
termination_by b.length
decreasing_by
  have := F.unit_pos _h
  have := F.unit_le _h
  simp only [List.length_drop]
  omega

variable {F}

/-- An undecided front ends the loop without an error. -/
theorem decode_more {b : List β} (h : F.head b = .more) : F.decode b = ⟨[], b, none⟩ := by
  rw [decode]
  split <;> simp_all

/-- A malformed front ends the loop with its error, the buffer untouched. -/
theorem decode_bad {b : List β} {e : ε} (h : F.head b = .bad e) :
    F.decode b = ⟨[], b, some e⟩ := by
  rw [decode]
  split <;> simp_all

/-- A unit at the front is taken off and the loop goes on. -/
theorem decode_unit {b : List β} {n : Nat} {ms : List α} (h : F.head b = .unit n ms) :
    F.decode b = ⟨ms ++ (F.decode (b.drop n)).out, (F.decode (b.drop n)).rest,
      (F.decode (b.drop n)).err⟩ := by
  rw [decode]
  split <;> simp_all

/-- What the loop leaves is undecided exactly when it stopped without an error. -/
theorem head_rest (b : List β) :
    F.head (F.decode b).rest =
      match (F.decode b).err with
      | none => .more
      | some e => .bad e := by
  -- on the draining of b: its units are at the front of b ++ c as well
  induction b using decode.induct F with
  | case1 b h => rw [decode_more h]; exact h
  | case2 b e h => rw [decode_bad h]; exact h
  | case3 b n ms h ih => rw [decode_unit h]; exact ih

/-- **Draining commutes with appending.** Draining `b ++ c` hands over what draining `b` does, and then
what draining the remainder followed by `c` does. -/
theorem decode_append (b c : List β) :
    F.decode (b ++ c) =
      ⟨(F.decode b).out ++ (F.decode ((F.decode b).rest ++ c)).out,
        (F.decode ((F.decode b).rest ++ c)).rest, (F.decode ((F.decode b).rest ++ c)).err⟩ := by
  induction b using decode.induct F with
  | case1 b h => rw [decode_more h]; rfl
  | case2 b e h => rw [decode_bad h]; rfl
  | case3 b n ms h ih =>
      have happ : F.head (b ++ c) = .unit n ms := by rw [F.head_append (by simp [h]) c, h]
      rw [decode_unit happ, decode_unit h, List.drop_append_of_le_length (F.unit_le h), ih]
      simp only [List.append_assoc]

/-- An error stays: further input changes neither it nor what was handed over. -/
theorem decode_append_of_err {b : List β} {e : ε} (h : (F.decode b).err = some e) (c : List β) :
    F.decode (b ++ c) = ⟨(F.decode b).out, (F.decode b).rest ++ c, some e⟩ := by
  -- the front that was bad stays bad behind more input
  have hbad : F.head (F.decode b).rest = .bad e := by rw [head_rest, h]
  have happ : F.head ((F.decode b).rest ++ c) = .bad e := by
    rw [F.head_append (by simp [hbad]) c, hbad]
  rw [decode_append, decode_bad happ, List.append_nil]

/-- A stream that drains without an error has only prefixes that do. -/
theorem err_eq_none_of_append {b c : List β} (h : (F.decode (b ++ c)).err = none) :
    (F.decode b).err = none := by
  cases hb : (F.decode b).err with
  | none => rfl
  | some e => rw [decode_append_of_err hb c] at h; exact absurd h (by simp)

/-! ## Chunk by chunk -/

variable (F)

/-- The buffer after the chunks have arrived one by one, each followed by the loop. -/
def buffer : List β → List (List β) → List β
  | buf, [] => buf
  | buf, c :: cs => buffer (F.decode (buf ++ c)).rest cs

/-- The messages handed over while the chunks arrive one by one. -/
def feed : List β → List (List β) → List α
  | _, [] => []
  | buf, c :: cs => (F.decode (buf ++ c)).out ++ feed (F.decode (buf ++ c)).rest cs

/-- The errors reported while the chunks arrive one by one, one for each loop that ended in one. -/
def errors : List β → List (List β) → List ε
  | _, [] => []
  | buf, c :: cs => (F.decode (buf ++ c)).err.toList ++ errors (F.decode (buf ++ c)).rest cs

variable {F}

/-- Feeding chunks to a drained buffer leaves what draining the whole stream leaves. -/
theorem buffer_rest (b : List β) (cs : List (List β)) :
    F.buffer (F.decode b).rest cs = (F.decode (b ++ cs.flatten)).rest := by
  induction cs generalizing b with
  | nil => simp [buffer]
  | cons c cs ih =>
      rw [buffer, List.flatten_cons, ← List.append_assoc, ← ih (b ++ c), decode_append b c]

/-- **Segmentation independence.** Feeding chunks one by one hands over, after what the buffer already
gave, what draining the whole stream at once does. -/
theorem feed_out (b : List β) (cs : List (List β)) :
    (F.decode b).out ++ F.feed (F.decode b).rest cs = (F.decode (b ++ cs.flatten)).out := by
  induction cs generalizing b with
  | nil => simp [feed]
  | cons c cs ih =>
      rw [feed, List.flatten_cons, ← List.append_assoc b, ← ih (b ++ c), decode_append b c]
      simp only [List.append_assoc]

/-- A stream that drains without an error reports none however it is cut. -/
theorem errors_eq_nil (b : List β) (cs : List (List β))
    (h : (F.decode (b ++ cs.flatten)).err = none) : F.errors (F.decode b).rest cs = [] := by
  induction cs generalizing b with
  | nil => rfl
  | cons c cs ih =>
      rw [List.flatten_cons, ← List.append_assoc] at h
      -- every chunk ends in a prefix of the stream
      have hc : (F.decode (b ++ c)).err = none := err_eq_none_of_append h
      have hstep := ih (b ++ c) h
      rw [decode_append b c] at hc hstep
      rw [errors, hc, hstep]
      rfl

/-- **A stuck front stops the stream.** Where a property of buffers survives further input and no
buffer with it starts with a unit, nothing is handed over any more. -/
theorem feed_of_stuck {Stuck : List β → Prop} (happ : ∀ {b}, Stuck b → ∀ c, Stuck (b ++ c))
    (hunit : ∀ {b}, Stuck b → ∀ n ms, F.head b ≠ .unit n ms) {b : List β} (h : Stuck b)
    (cs : List (List β)) : F.feed b cs = [] := by
  induction cs generalizing b with
  | nil => rfl
  | cons c cs ih =>
      have hstuck := happ h c
      rw [feed]
      cases hv : F.head (b ++ c) with
      | more => rw [decode_more hv, ih hstuck]; rfl
      | bad e => rw [decode_bad hv, ih hstuck]; rfl
      | unit n ms => exact absurd hv (hunit hstuck n ms)

/-! ## Streams written as units -/

/-- `u` is recognised as a unit carrying `m`, whatever follows it. -/
def IsUnit (F : Framer β α ε) (u : List β) (m : α) : Prop :=
  ∀ rest, F.head (u ++ rest) = .unit u.length [m]

/-- Whole units at the front are handed over in order, then what follows them is drained. -/
theorem decode_units {us : List (List β)} {ms : List α} (h : List.Forall₂ F.IsUnit us ms)
    (rest : List β) :
    F.decode (us.flatten ++ rest) =
      ⟨ms ++ (F.decode rest).out, (F.decode rest).rest, (F.decode rest).err⟩ := by
  induction h with
  | nil => rfl
  | @cons u m us ms hu _ ih =>
      rw [List.flatten_cons, List.append_assoc, decode_unit (hu _), List.drop_left, ih]
      rfl

end Framer

end AimChat.Framing
