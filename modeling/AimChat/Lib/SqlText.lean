import AimChat.Lib.Sql

/-! # Statements as text

How MySQL reads the text of a statement that contains string literals: outside a literal up to the next
quote, inside one (`readLiteral`) up to the quote that ends it. `readLiteral_iff_unquote` says that a
literal whose text is `raw` has the value `unquote raw`. -/

namespace AimChat.Sql

/-- Read a string literal from behind its opening quote: its value and the text behind the quote that
ends it. Two quotes stand for one, and a backslash escapes the next character. -/
def readLiteral : List UInt8 → Option (List UInt8 × List UInt8)
  | [] => none
  | 39 :: 39 :: s => (readLiteral s).map (Prod.map (39 :: ·) id)
  | 92 :: c :: s => (readLiteral s).map (Prod.map (unescape c ++ ·) id)
  | c :: s =>
      if c = 39 then some ([], s)
      else if c = 92 then none
      else (readLiteral s).map (Prod.map (c :: ·) id)

@[simp] theorem readLiteral_nil : readLiteral [] = none := by
  rw [readLiteral]

@[simp] theorem readLiteral_quotes (s : List UInt8) :
    readLiteral (39 :: 39 :: s) = (readLiteral s).map (Prod.map (39 :: ·) id) := by
  rw [readLiteral]

@[simp] theorem readLiteral_backslash (c : UInt8) (s : List UInt8) :
    readLiteral (92 :: c :: s) = (readLiteral s).map (Prod.map (unescape c ++ ·) id) := by
  rw [readLiteral]

/-- A quote that no other quote follows ends the literal. -/
theorem readLiteral_end {rest : List UInt8} (h : rest.head? ≠ some 39) :
    readLiteral (39 :: rest) = some ([], rest) := by
  rw [readLiteral]
  · rfl
  · intro s _ hs
    rw [hs] at h
    exact h rfl
  · intro c s hc
    exact absurd hc (by decide)

/-- A byte that is neither a quote nor a backslash stands for itself. -/
theorem readLiteral_other {c : UInt8} (hquote : c ≠ 39) (hbackslash : c ≠ 92) (s : List UInt8) :
    readLiteral (c :: s) = (readLiteral s).map (Prod.map (c :: ·) id) := by
  rw [readLiteral]
  · rw [if_neg hquote, if_neg hbackslash]
  · intro _ hc
    exact absurd hc hquote
  · intro _ _ hc
    exact absurd hc hbackslash

/-- A lone backslash ends in the middle of an escape. -/
@[simp] theorem readLiteral_lone_backslash : readLiteral [92] = none := by
  decide

/-- `unquote` takes such a byte as it is. -/
theorem unquote_other {c : UInt8} (hquote : c ≠ 39) (hbackslash : c ≠ 92) (s : List UInt8) :
    unquote (c :: s) = (unquote s).map (c :: ·) := by
  rw [unquote]
  · rw [if_neg (not_or.2 ⟨hquote, hbackslash⟩)]
  · intro _ hc
    exact absurd hc hquote
  · intro _ _ hc
    exact absurd hc hbackslash

/-- A literal ends behind the text `unquote` reads the same value from. -/
theorem unquote_of_readLiteral {s v rest : List UInt8} (h : readLiteral s = some (v, rest)) :
    ∃ raw, s = raw ++ 39 :: rest ∧ unquote raw = some v := by
  induction s using readLiteral.induct generalizing v with
  | case1 => cases h
  | case2 s ih =>
      rw [readLiteral_quotes, Option.map_eq_some_iff] at h
      obtain ⟨⟨v', _⟩, hs, heq⟩ := h
      cases heq
      obtain ⟨raw, rfl, hraw⟩ := ih hs
      exact ⟨39 :: 39 :: raw, rfl, by rw [unquote, hraw]; rfl⟩
  | case3 c s ih =>
      rw [readLiteral_backslash, Option.map_eq_some_iff] at h
      obtain ⟨⟨v', _⟩, hs, heq⟩ := h
      cases heq
      obtain ⟨raw, rfl, hraw⟩ := ih hs
      exact ⟨92 :: c :: raw, rfl, by rw [unquote, hraw]; rfl⟩
  | case4 s hquotes _ =>
      have hend : s.head? ≠ some 39 := by
        intro hs
        obtain ⟨t, rfl⟩ := List.head?_eq_some_iff.1 hs
        exact hquotes t rfl rfl
      rw [readLiteral_end hend] at h
      cases h
      exact ⟨[], rfl, rfl⟩
  | case5 s _ hlone _ =>
      cases s with
      | nil => cases h
      | cons c s => exact (hlone c s rfl rfl).elim
  | case6 c s _ _ hquote hbackslash ih =>
      rw [readLiteral_other hquote hbackslash, Option.map_eq_some_iff] at h
      obtain ⟨⟨v', _⟩, hs, heq⟩ := h
      cases heq
      obtain ⟨raw, rfl, hraw⟩ := ih hs
      exact ⟨c :: raw, rfl, by rw [unquote_other hquote hbackslash, hraw]; rfl⟩

/-- What `unquote` reads is what the literal's text stands for in a statement. -/
theorem readLiteral_of_unquote {raw v rest : List UInt8} (h : unquote raw = some v)
    (hrest : rest.head? ≠ some 39) : readLiteral (raw ++ 39 :: rest) = some (v, rest) := by
  induction raw using unquote.induct generalizing v with
  | case1 =>
      cases h
      exact readLiteral_end hrest
  | case2 s ih =>
      rw [unquote, Option.map_eq_some_iff] at h
      obtain ⟨v', hs, rfl⟩ := h
      show readLiteral (39 :: 39 :: (s ++ 39 :: rest)) = _
      rw [readLiteral_quotes, ih hs]
      rfl
  | case3 c s ih =>
      rw [unquote, Option.map_eq_some_iff] at h
      obtain ⟨v', hs, rfl⟩ := h
      show readLiteral (92 :: c :: (s ++ 39 :: rest)) = _
      rw [readLiteral_backslash, ih hs]
      rfl
  | case4 c s hquotes hbackslash hc =>
      rw [unquote, if_pos hc] at h
      · cases h
      · exact hquotes
      · exact hbackslash
  | case5 c s hquotes hbackslash hc ih =>
      obtain ⟨hquote, hslash⟩ := not_or.1 hc
      rw [unquote_other hquote hslash, Option.map_eq_some_iff] at h
      obtain ⟨v', hs, rfl⟩ := h
      show readLiteral (c :: (s ++ 39 :: rest)) = _
      rw [readLiteral_other hquote hslash, ih hs]
      rfl

/-- **Literals in a statement.** Between its quotes, `raw` is one complete literal of value `v`, and the
text behind it stays, exactly when `unquote raw` is `v`. -/
theorem readLiteral_iff_unquote {raw v rest : List UInt8} (hrest : rest.head? ≠ some 39) :
    readLiteral (raw ++ 39 :: rest) = some (v, rest) ↔ unquote raw = some v := by
  refine ⟨fun h => ?_, fun h => readLiteral_of_unquote h hrest⟩
  obtain ⟨raw', heq, hraw⟩ := unquote_of_readLiteral h
  rw [List.append_cancel_right heq]
  exact hraw

/-- `Reads text front literals`: a statement's text is `front`, up to the first literal, and then
literals, each with its value and the text up to the next one. -/
inductive Reads : List UInt8 → List UInt8 → List (List UInt8 × List UInt8) → Prop
  | plain {text : List UInt8} (h : 39 ∉ text) : Reads text text []
  | literal {front text v rest after : List UInt8} {literals : List (List UInt8 × List UInt8)}
      (hfront : 39 ∉ front) (hv : readLiteral text = some (v, rest)) (hrest : Reads rest after literals) :
      Reads (front ++ 39 :: text) front ((v, after) :: literals)

end AimChat.Sql
