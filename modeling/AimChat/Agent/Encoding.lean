import AimChat.Agent.Message
import AimChat.Lib.Json

/-! # Messages in JSON

The texts `encoding/json` writes for a message and for a list of messages, and readers for these: a `Json`
that round-trips (`encodingJson_lawful`). A text it did not write may be read differently here than there. -/

namespace AimChat.Agent

open JsonText

/-! ## Characters and bytes -/

/-- The characters of a UTF-8 text. -/
def textOf (data : Bytes) : Option Text := (String.fromUTF8? ⟨data.toArray⟩).map String.toList

/-- The bytes of a text are read as the text. -/
theorem textOf_str (t : Text) : textOf (str (String.ofList t)) = some t := by
  have hbytes : (⟨(str (String.ofList t)).toArray⟩ : ByteArray) = (String.ofList t).toByteArray := by
    rw [str, Array.toArray_toList, String.toUTF8_eq_toByteArray]
  unfold textOf
  rw [hbytes, String.fromUTF8?, dif_pos (String.ofList t).isValidUTF8, Option.map_some]
  exact congrArg some String.toList_ofList

/-! ## Messages -/

/-- `{"role":...,"content":...,"time":...}` -/
def writeMessage (msg : Message) : Text :=
  "\x7b\"role\":".toList ++ (writeString msg.role.toList ++
    (",\"content\":".toList ++ (writeString msg.content.toList ++
      (",\"time\":".toList ++ (writeInt msg.time.toInt ++ ['\x7d'])))))

/-- A message; a time that is no `int64` is an error. -/
def readMessage : Reader Message := fun t => do
  let t ← expect "\x7b\"role\":".toList t
  let (role, t) ← readString t
  let t ← expect ",\"content\":".toList t
  let (content, t) ← readString t
  let t ← expect ",\"time\":".toList t
  let (time, t) ← readInt t
  let t ← expect ['\x7d'] t
  if Int64.minValue.toInt ≤ time ∧ time ≤ Int64.maxValue.toInt then
    return (⟨String.ofList role, String.ofList content, Int64.ofInt time⟩, t)
  else none

/-- A message is read back as it was written. -/
theorem readMessage_writeMessage (msg : Message) (t : Text) :
    readMessage (writeMessage msg ++ t) = some (msg, t) := by
  -- the brace ends the digits of the time
  have hstop : StopsDigits (['\x7d'] ++ t) := fun c hc => by
    cases hc
    rfl
  have htime : Int64.minValue.toInt ≤ msg.time.toInt ∧ msg.time.toInt ≤ Int64.maxValue.toInt :=
    ⟨msg.time.minValue_le_toInt, msg.time.toInt_le⟩
  unfold readMessage writeMessage
  simp only [List.append_assoc, expect_append, readString_writeString, readInt_writeInt _ hstop,
    Option.bind_eq_bind, Option.bind_some, if_pos htime, String.ofList_toList, Int64.ofInt_toInt]
  rfl

/-- The whole data is one value. -/
def readAll {α : Type} (read : Reader α) (data : Bytes) : Option α := do
  match ← read (← textOf data) with
  | (a, []) => some a
  | _ => none

theorem readAll_str {α : Type} {read : Reader α} {a : α} {t : Text} (h : read t = some (a, [])) :
    readAll read (str (String.ofList t)) = some a := by
  unfold readAll
  rw [textOf_str, Option.bind_eq_bind, Option.bind_some, h]
  rfl

/-- `encoding/json` on messages. -/
def encodingJson : Json where
  marshalMessage msg := some (str (String.ofList (writeMessage msg)))
  unmarshalMessage := readAll readMessage
  marshalList msgs := str (String.ofList (writeArray writeMessage msgs))
  unmarshalList data := (readAll (readArray readMessage) data).getD []

/-- **What it writes it reads back.** -/
theorem encodingJson_lawful : encodingJson.Lawful where
  message msg := by
    refine ⟨_, rfl, readAll_str ?_⟩
    have hread := readMessage_writeMessage msg []
    rwa [List.append_nil] at hread
  list msgs := by
    have hread : readArray readMessage (writeArray writeMessage msgs) = some (msgs, []) := by
      have hstart : ∀ msg, ∃ c t, writeMessage msg = c :: t ∧ c ≠ ']' := fun msg =>
        ⟨'\x7b', _, rfl, by decide⟩
      have hread := readArray_writeArray readMessage_writeMessage hstart msgs []
      rwa [List.append_nil] at hread
    have hdata := readAll_str hread
    exact congrArg (Option.getD · []) hdata

end AimChat.Agent
