import Mathlib.Data.Int.Order.Basic
import Mathlib.Data.List.TakeWhile

/-! # Texts in JSON

Strings, integers and arrays as a JSON encoder writes them that keeps its texts safe inside HTML, and
readers for these. A reader takes its value off the front of a text; of what was written it gives back the
value and the rest of the text. -/

namespace AimChat.JsonText

/-- The characters of a text. -/
abbrev Text := List Char

/-- Takes a value off the front of a text. -/
abbrev Reader (α : Type) := Text → Option (α × Text)

/-- A fixed text. -/
def expect (s : Text) (t : Text) : Option Text := if s.isPrefixOf t then some (t.drop s.length) else none

@[simp] theorem expect_append (s t : Text) : expect s (s ++ t) = some t := by
  simp [expect]

/-! ## Strings -/

/-- The value of a hexadecimal digit. -/
def hexVal (c : Char) : Option Nat :=
  if '0' ≤ c ∧ c ≤ '9' then some (c.toNat - 48)
  else if 'a' ≤ c ∧ c ≤ 'f' then some (c.toNat - 87)
  else if 'A' ≤ c ∧ c ≤ 'F' then some (c.toNat - 55)
  else none

/-- A digit that was written is read. -/
theorem hexVal_digitChar : ∀ n < 16, hexVal (Nat.digitChar n) = some n := by decide

/-- Four hexadecimal digits. -/
def hex4 (n : Nat) : Text :=
  [Nat.digitChar (n / 4096 % 16), Nat.digitChar (n / 256 % 16), Nat.digitChar (n / 16 % 16),
    Nat.digitChar (n % 16)]

/-- The value of four hexadecimal digits. -/
def hexVal4 (a b c d : Char) : Option Nat := do
  return (← hexVal a) * 4096 + (← hexVal b) * 256 + (← hexVal c) * 16 + (← hexVal d)

/-- The short escapes: the letter behind the backslash. -/
def shortEscape : Char → Option Char
  | '"' => some '"'
  | '\\' => some '\\'
  | '\x08' => some 'b'
  | '\x0c' => some 'f'
  | '\n' => some 'n'
  | '\r' => some 'r'
  | '\t' => some 't'
  | _ => none

/-- The character a letter behind a backslash stands for. -/
def unescape : Char → Option Char
  | '"' => some '"'
  | '\\' => some '\\'
  | '/' => some '/'
  | 'b' => some '\x08'
  | 'f' => some '\x0c'
  | 'n' => some '\n'
  | 'r' => some '\r'
  | 't' => some '\t'
  | _ => none

/-- The characters written by their number: control characters, those HTML has a use for and the two line
separators of JavaScript. -/
def needsHex (c : Char) : Bool :=
  c.toNat < 32 || c = '<' || c = '>' || c = '&' || c.toNat = 8232 || c.toNat = 8233

/-- One character of a string. -/
def escape (c : Char) : Text :=
  match shortEscape c with
  | some letter => ['\\', letter]
  | none => if needsHex c then '\\' :: 'u' :: hex4 c.toNat else [c]

/-- A string between its quotes. -/
def writeString (s : Text) : Text := '"' :: (s.flatMap escape ++ ['"'])

/-- The characters of a string up to its closing quote. An escaped surrogate is not read. -/
def readChars : Reader Text
  | [] => none
  | '"' :: t => some ([], t)
  | '\\' :: 'u' :: a :: b :: c :: d :: t =>
      match hexVal4 a b c d with
      | none => none
      | some n =>
          if n.isValidChar then (readChars t).map fun (s, t) => (Char.ofNat n :: s, t) else none
  | '\\' :: c :: t =>
      match unescape c with
      | none => none
      | some c => (readChars t).map fun (s, t) => (c :: s, t)
  | c :: t => if c.toNat < 32 then none else (readChars t).map fun (s, t) => (c :: s, t)

/-- A string between its quotes. -/
def readString : Reader Text
  | '"' :: t => readChars t
  | _ => none

/-- What a short escape stands for, and that its letter is not that of the long one. -/
theorem unescape_of_shortEscape {c letter : Char} (h : shortEscape c = some letter) :
    unescape letter = some c ∧ letter ≠ 'u' := by
  unfold shortEscape at h
  split at h <;> cases h <;> exact ⟨rfl, by decide⟩

/-- A character without a short escape is neither a quote nor a backslash. -/
theorem ne_of_shortEscape {c : Char} (h : shortEscape c = none) : c ≠ '"' ∧ c ≠ '\\' := by
  constructor <;> rintro rfl <;> cases h

theorem hexVal4_hex4 {n : Nat} (h : n < 65536) :
    hexVal4 (Nat.digitChar (n / 4096 % 16)) (Nat.digitChar (n / 256 % 16)) (Nat.digitChar (n / 16 % 16))
      (Nat.digitChar (n % 16)) = some n := by
  unfold hexVal4
  rw [hexVal_digitChar _ (by omega), hexVal_digitChar _ (by omega), hexVal_digitChar _ (by omega),
    hexVal_digitChar _ (by omega)]
  refine congrArg some ?_
  omega

theorem toNat_of_needsHex {c : Char} (h : needsHex c = true) : c.toNat < 65536 := by
  unfold needsHex at h
  simp only [Bool.or_eq_true, decide_eq_true_eq] at h
  rcases h with ((((h | rfl) | rfl) | rfl) | h) | h
  · omega
  · decide
  · decide
  · decide
  · omega
  · omega

/-- A character is read back from what it is written as. -/
theorem readChars_escape (c : Char) (t : Text) :
    readChars (escape c ++ t) = (readChars t).map fun (s, t) => (c :: s, t) := by
  unfold escape
  cases hshort : shortEscape c with
  | some letter =>
      obtain ⟨hletter, hu⟩ := unescape_of_shortEscape hshort
      show readChars ('\\' :: letter :: t) = _
      -- the letter is no `u`, or the long escape would be read
      rw [readChars, hletter]
      rintro a b c d t rfl
      exact absurd rfl hu
  | none =>
      dsimp only
      split_ifs with hhex
      · have hvalid : c.toNat.isValidChar := c.valid
        rw [hex4, List.cons_append, List.cons_append, List.cons_append, List.cons_append,
          List.cons_append, List.cons_append, List.nil_append, readChars,
          hexVal4_hex4 (toNat_of_needsHex hhex)]
        dsimp only
        rw [if_pos hvalid, Char.ofNat_toNat]
      · obtain ⟨hquote, hbackslash⟩ := ne_of_shortEscape hshort
        -- a character written as itself: none of the reader's other cases is its own
        have hlow : ¬ c.toNat < 32 := by
          intro hlow
          exact hhex (by simp [needsHex, hlow])
        rw [List.singleton_append, readChars]
        · exact if_neg hlow
        · exact hquote
        · rintro a b c d t rfl
          exact absurd rfl hbackslash
        · rintro c t rfl
          exact absurd rfl hbackslash

/-- A string is read back as it was written. -/
theorem readString_writeString (s t : Text) : readString (writeString s ++ t) = some (s, t) := by
  have hchars : ∀ s : Text, readChars (s.flatMap escape ++ '"' :: t) = some (s, t) := by
    intro s
    induction s with
    | nil => rw [List.flatMap_nil, List.nil_append, readChars]
    | cons c s ih =>
        rw [List.flatMap_cons, List.append_assoc, readChars_escape, ih]
        rfl
  rw [writeString, List.cons_append, List.append_assoc, List.singleton_append]
  exact hchars s

/-! ## Integers -/

/-- An integer in decimal. -/
def writeInt (n : Int) : Text := (if n < 0 then ['-'] else []) ++ Nat.toDigits 10 n.natAbs

/-- The digits on the front of a text. -/
def readNat (t : Text) : Option (Nat × Text) :=
  match t.takeWhile Char.isDigit with
  | [] => none
  | ds => some (Nat.ofDigitChars 10 ds 0, t.dropWhile Char.isDigit)

/-- An integer. -/
def readInt : Reader Int
  | '-' :: t => (readNat t).map fun (n, t) => (-(n : Int), t)
  | t => (readNat t).map fun (n, t) => ((n : Int), t)

/-- A text that does not go on with a digit. -/
def StopsDigits (t : Text) : Prop := ∀ c ∈ t.head?, c.isDigit = false

theorem readNat_toDigits (n : Nat) {t : Text} (h : StopsDigits t) :
    readNat (Nat.toDigits 10 n ++ t) = some (n, t) := by
  have hdigits : ∀ c ∈ Nat.toDigits 10 n, c.isDigit = true := fun c hc =>
    Nat.isDigit_of_mem_toDigits (by decide) (by decide) hc
  have htake : t.takeWhile Char.isDigit = [] ∧ t.dropWhile Char.isDigit = t := by
    cases t with
    | nil => exact ⟨rfl, rfl⟩
    | cons c t =>
        have hc : ¬ c.isDigit = true := Bool.eq_false_iff.1 (h c rfl)
        exact ⟨List.takeWhile_cons_of_neg hc, List.dropWhile_cons_of_neg hc⟩
  unfold readNat
  rw [List.takeWhile_append_of_pos hdigits, List.dropWhile_append_of_pos hdigits, htake.1, htake.2,
    List.append_nil]
  split
  next hnil => exact absurd hnil Nat.toDigits_ne_nil
  · rw [Nat.ofDigitChars_toDigits (by decide) (by decide)]

/-- An integer is read back as it was written. -/
theorem readInt_writeInt (n : Int) {t : Text} (h : StopsDigits t) :
    readInt (writeInt n ++ t) = some (n, t) := by
  unfold writeInt
  split_ifs with hneg
  · rw [List.append_assoc, List.singleton_append, readInt, readNat_toDigits _ h, Option.map_some]
    exact congrArg (fun m => some (m, t)) (Int.eq_neg_natAbs_of_nonpos hneg.le).symm
  · rw [List.nil_append, readInt, readNat_toDigits _ h, Option.map_some]
    · exact congrArg (fun m => some (m, t)) (Int.natAbs_of_nonneg (not_lt.1 hneg))
    · rintro t' heq
      -- the first character is a digit and no sign
      obtain ⟨d, ds, hds⟩ := List.exists_cons_of_ne_nil (Nat.toDigits_ne_nil (b := 10) (n := n.natAbs))
      rw [hds] at heq
      cases heq
      have hdigit : ('-' : Char).isDigit = true :=
        Nat.isDigit_of_mem_toDigits (b := 10) (n := n.natAbs) (by decide) (by decide) (hds ▸ List.mem_cons_self)
      exact absurd hdigit (by decide)

/-! ## Arrays -/

section Arrays

variable {α : Type} (write : α → Text) (read : Reader α)

/-- The items of an array and its closing bracket. -/
def writeItems : List α → Text
  | [] => [']']
  | [x] => write x ++ [']']
  | x :: y :: xs => write x ++ ',' :: writeItems (y :: xs)

/-- An array. -/
def writeArray (xs : List α) : Text := '[' :: writeItems write xs

/-- One item of an array and those behind it, up to its closing bracket. -/
def readItems : Nat → Reader (List α)
  | 0, _ => none
  | fuel + 1, t =>
      match read t with
      | some (x, ']' :: t) => some ([x], t)
      | some (x, ',' :: t) => (readItems fuel t).map fun (xs, t) => (x :: xs, t)
      | _ => none

/-- An array. -/
def readArray : Reader (List α)
  | '[' :: ']' :: t => some ([], t)
  | '[' :: t => readItems read t.length t
  | _ => none

variable {write read}

theorem length_le_length_writeItems (xs : List α) : xs.length ≤ (writeItems write xs).length := by
  induction xs with
  | nil => exact Nat.zero_le _
  | cons x xs ih =>
      cases xs with
      | nil => simp [writeItems]
      | cons y ys =>
          simp only [writeItems, List.length_append, List.length_cons] at ih ⊢
          omega

theorem readItems_writeItems (hread : ∀ x t, read (write x ++ t) = some (x, t)) (t : Text) (xs : List α) :
    ∀ fuel, xs ≠ [] → xs.length ≤ fuel → readItems read fuel (writeItems write xs ++ t) = some (xs, t) := by
  induction xs with
  | nil => exact fun _ h _ => absurd rfl h
  | cons x xs ih =>
      intro fuel _ hfuel
      -- each item takes one of the fuel, and the text is longer than the array
      obtain ⟨fuel, rfl⟩ := Nat.exists_eq_add_one.2 (Nat.lt_of_lt_of_le (Nat.succ_pos _) hfuel)
      have hfuel' : xs.length ≤ fuel := Nat.le_of_succ_le_succ hfuel
      cases xs with
      | nil =>
          rw [writeItems, List.append_assoc, List.singleton_append, readItems, hread]
          rfl
      | cons y ys =>
          rw [writeItems, List.append_assoc, List.cons_append, readItems, hread]
          show (readItems read fuel _).map _ = _
          rw [ih fuel (List.cons_ne_nil _ _) hfuel']
          rfl

/-- An array is read back as it was written, when its items are and none starts like its end. -/
theorem readArray_writeArray (hread : ∀ x t, read (write x ++ t) = some (x, t))
    (hstart : ∀ x, ∃ c t, write x = c :: t ∧ c ≠ ']') (xs : List α) (t : Text) :
    readArray read (writeArray write xs ++ t) = some (xs, t) := by
  cases xs with
  | nil => rfl
  | cons x xs =>
      have hfuel : (x :: xs).length ≤ (writeItems write (x :: xs) ++ t).length := by
        rw [List.length_append]
        exact Nat.le_add_right_of_le (length_le_length_writeItems _)
      have hitems := readItems_writeItems hread t (x :: xs) _ (List.cons_ne_nil _ _) hfuel
      rw [writeArray, List.cons_append, readArray]
      · exact hitems
      · rintro t' heq
        -- the first item does not start like the end of the array
        obtain ⟨c, s, hx, hc⟩ := hstart x
        cases xs <;> rw [writeItems, hx] at heq <;> cases heq <;> exact hc rfl

end Arrays

end AimChat.JsonText
