import AimChat.Base.Bytes

/-! # Messages of a conversation

`cache.Message`, and the part of `encoding/json` the two caches keep messages with, as a parameter. -/

namespace AimChat.Agent

/-- `cache.Message` -/
structure Message where
  role : String
  content : String
  time : Int64
  deriving DecidableEq, Repr

/-- What the caches use of `encoding/json`. -/
structure Json where
  /-- `MarshalMessage(msg)`; `none` when it returns an error. -/
  marshalMessage : Message → Option Bytes
  /-- `UnmarshalMessage(data)`; `none` when it returns an error. -/
  unmarshalMessage : Bytes → Option Message
  /-- The string `MarshalList(msgs)` returns, whatever the error. -/
  marshalList : List Message → Bytes
  /-- What `UnmarshalList(data, &msgs)` leaves in an empty `msgs`, whatever the error. -/
  unmarshalList : Bytes → List Message

/-- Encoding and decoding a message, or a list of them, round-trips. -/
structure Json.Lawful (json : Json) : Prop where
  message : ∀ msg, ∃ data, json.marshalMessage msg = some data ∧ json.unmarshalMessage data = some msg
  list : ∀ msgs, json.unmarshalList (json.marshalList msgs) = msgs

/-- The slice of the last `n` messages: `msgs[len(msgs)-n:]` when there are more. -/
def keepLast (n : Nat) (msgs : List Message) : List Message :=
  if msgs.length > n then msgs.drop (msgs.length - n) else msgs

@[simp] theorem keepLast_zero (msgs : List Message) : keepLast 0 msgs = [] := by
  unfold keepLast
  split_ifs with h
  · exact List.drop_of_length_le (Nat.le_of_eq (Nat.sub_zero _).symm)
  · exact List.length_eq_zero_iff.1 (Nat.eq_zero_of_not_pos h)

theorem keepLast_eq_drop (n : Nat) (msgs : List Message) : keepLast n msgs = msgs.drop (msgs.length - n) := by
  unfold keepLast
  split_ifs with h
  · rfl
  · rw [Nat.sub_eq_zero_of_le (Nat.le_of_not_gt h), List.drop_zero]

@[simp] theorem keepLast_nil (n : Nat) : keepLast n [] = [] := by
  rw [keepLast_eq_drop, List.drop_nil]

/-- The last messages of a longer list, of which the front is dropped first, are the same. -/
theorem keepLast_append_keepLast {m n : Nat} (front back : List Message) (h : n ≤ m + back.length) :
    keepLast n (keepLast m front ++ back) = keepLast n (front ++ back) := by
  simp only [keepLast_eq_drop, List.length_append, List.length_drop]
  rw [List.drop_append, List.drop_append, List.drop_drop, List.length_drop]
  congr 2 <;> omega

@[simp] theorem length_keepLast (n : Nat) (msgs : List Message) :
    (keepLast n msgs).length = min n msgs.length := by
  rw [keepLast_eq_drop, List.length_drop]
  omega

/-- The last messages of the last messages. -/
theorem keepLast_keepLast (m n : Nat) (msgs : List Message) :
    keepLast m (keepLast n msgs) = keepLast (min m n) msgs := by
  simp only [keepLast_eq_drop, List.drop_drop, List.length_drop]
  congr 1
  omega

end AimChat.Agent
