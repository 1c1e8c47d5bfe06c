import AimChat.Base.Bytes
import AimChat.Lib.Framing

/-! # The length-prefixed frame codec

`ProtobufCodecLite` of `net/protobuf`: a frame is a four-byte big-endian length, a tag, a protobuf body
and a four-byte big-endian Adler-32 of tag and body. The protobuf runtime and zlib are fields of the
codec: `parseFromBuffer`, `serializeToBuffer` and `adler32` are functions of their bytes. `onMessage`
is the read loop with its two callbacks threaded through an arbitrary state; `framer` is the pure
judgement it makes on the front of the buffer, and `onMessage_eq` says the loop is the framer's. -/

namespace AimChat

open Framing

/-- The content of a `muduo::net::Buffer`: its readable bytes. -/
abbrev Buffer := Bytes

namespace Buffer

/-- `readableBytes()` -/
def readableBytes (buf : Buffer) : Nat := buf.length

/-- `peekInt32()`, which requires four readable bytes. -/
def peekInt32 (buf : Buffer) : Int := readInt32 buf

/-- `append(data)` -/
def append (buf : Buffer) (data : Bytes) : Buffer := buf ++ data

/-- `appendInt32(x)` -/
def appendInt32 (buf : Buffer) (x : Int) : Buffer := buf ++ int32Bytes x

/-- `prepend(data)` -/
def prepend (buf : Buffer) (data : Bytes) : Buffer := data ++ buf

/-- `retrieve(len)` -/
def retrieve (buf : Buffer) (len : Nat) : Buffer := buf.drop len

end Buffer

/-- `ProtobufCodecLite::ErrorCode` -/
inductive ErrorCode
  | kNoError
  | kInvalidLength
  | kCheckSumError
  | kInvalidNameLen
  | kUnknownMessageType
  | kParseError
  deriving DecidableEq, Repr

/-- A `ProtobufCodecLite` for messages of type `α`. -/
structure ProtobufCodecLite (α : Type) where
  /-- `tag_` -/
  tag : Bytes
  /-- `ParseFromArray` of the prototype's type. -/
  parseFromBuffer : Bytes → Option α
  /-- The bytes `serializeToBuffer` appends. -/
  serializeToBuffer : α → Bytes
  /-- zlib's `adler32(1, buf, len)`. -/
  adler32 : Bytes → UInt32
  /-- `rawCb_`, asked for a whole frame before it is parsed; a null callback is `none`. -/
  rawCb : Option (Bytes → Bool)

namespace ProtobufCodecLite

/-- `kHeaderLen` -/
def kHeaderLen : Nat := 4

/-- `kChecksumLen` -/
def kChecksumLen : Nat := 4

/-- `kMaxMessageLen` -/
@[irreducible] def kMaxMessageLen : Nat := 64 * 1024 * 1024

variable {α : Type} (c : ProtobufCodecLite α)

/-- `kMinMessageLen` -/
def kMinMessageLen : Nat := c.tag.length + kChecksumLen

/-- `checksum(buf, len)` -/
def checksum (buf : Bytes) : Int := wrap32 (c.adler32 buf).toNat

/-- `asInt32(buf)` -/
def asInt32 (buf : Bytes) : Int := readInt32 buf

/-- `validateChecksum(buf, len)`; `buf` points into the buffer, so bytes may follow the first `len`. -/
def validateChecksum (buf : Bytes) (len : Nat) : Bool :=
  let expectedCheckSum := asInt32 (buf.drop (len - kChecksumLen))
  let checkSum := c.checksum (buf.take (len - kChecksumLen))
  checkSum = expectedCheckSum

/-- `parse(buf, len, message)`: the message, or the error code. -/
def parse (buf : Bytes) (len : Nat) : Except ErrorCode α :=
  if c.validateChecksum buf len then
    if buf.take c.tag.length = c.tag then
      let data := buf.drop c.tag.length
      let dataLen := len - kChecksumLen - c.tag.length
      match c.parseFromBuffer (data.take dataLen) with
      | some message => .ok message
      | none => .error .kParseError
    else .error .kUnknownMessageType
  else .error .kCheckSumError

/-- The branch `onMessage` takes on the result of `parse`: `errorCode == kNoError` or not. -/
def ifNoError {β : Type} (r : Except ErrorCode α) (noError : α → β) (failed : ErrorCode → β) : β :=
  match r with
  | .ok message => noError message
  | .error e => failed e

/-- `fillEmptyBuffer(buf, message)`: the length is prepended after the checksum of tag and body is
appended. -/
def fillEmptyBuffer (message : α) : Buffer :=
  let buf : Buffer := Buffer.append [] c.tag
  let buf := Buffer.append buf (c.serializeToBuffer message)
  let checkSum := c.checksum buf
  let buf := Buffer.appendInt32 buf checkSum
  let len := wrap32 (Buffer.readableBytes buf)
  Buffer.prepend buf (int32Bytes len)

/-- `onMessage(conn, buf, receiveTime)` with its callbacks as functions on a state: while the front of
the buffer is a whole frame, hand its message to `messageCallback` and take it off; the first
malformed front goes to `errorCallback` and stays in the buffer. -/
def onMessage {σ φ : Type} (messageCallback : α → σ → Except φ σ)
    (errorCallback : ErrorCode → σ → Except φ σ) (buf : Buffer) (s : σ) : Except φ (Buffer × σ) :=
  if _hmin : c.kMinMessageLen + kHeaderLen ≤ buf.readableBytes then
    let len := buf.peekInt32
    if len > kMaxMessageLen ∨ len < c.kMinMessageLen then
      -- nothing is retrieved, so the bad length is still there at the next read
      (errorCallback .kInvalidLength s).map fun s' => (buf, s')
    else if kHeaderLen + len.toNat ≤ buf.readableBytes then
      -- a raw callback that returns false swallows the frame
      if c.rawCb.any fun rawCb => !rawCb (buf.take (kHeaderLen + len.toNat)) then
        onMessage messageCallback errorCallback (buf.retrieve (kHeaderLen + len.toNat)) s
      else
        ifNoError (c.parse (buf.drop kHeaderLen) len.toNat)
          (fun message =>
            match messageCallback message s with
            | .ok s' =>
                onMessage messageCallback errorCallback (buf.retrieve (kHeaderLen + len.toNat)) s'
            | .error f => .error f)
          -- neither is a frame that does not parse
          (fun e => (errorCallback e s).map fun s' => (buf, s'))
    else .ok (buf, s)
  else .ok (buf, s)
termination_by buf.length
decreasing_by
  all_goals
    simp only [Buffer.retrieve, List.length_drop, Buffer.readableBytes, kHeaderLen,
      kMinMessageLen] at *
    omega

/-! ## The verdict on the front of the buffer -/

/-- What one pass of the loop finds at the front of the buffer. -/
def front (buf : Buffer) : Verdict α ErrorCode :=
  if c.kMinMessageLen + kHeaderLen ≤ buf.length then
    if readInt32 buf > kMaxMessageLen ∨ readInt32 buf < c.kMinMessageLen then .bad .kInvalidLength
    else if kHeaderLen + (readInt32 buf).toNat ≤ buf.length then
      if c.rawCb.any fun rawCb => !rawCb (buf.take (kHeaderLen + (readInt32 buf).toNat)) then
        .unit (kHeaderLen + (readInt32 buf).toNat) []
      else
        ifNoError (c.parse (buf.drop kHeaderLen) (readInt32 buf).toNat)
          (fun message => .unit (kHeaderLen + (readInt32 buf).toNat) [message]) .bad
    else .more
  else .more

/-- `parse` reads no byte behind the first `len`. -/
theorem parse_append {buf : Bytes} {len : Nat} (htag : c.tag.length + kChecksumLen ≤ len)
    (hlen : len ≤ buf.length) (rest : Bytes) : c.parse (buf ++ rest) len = c.parse buf len := by
  have hck : kChecksumLen = 4 := rfl
  -- checksum, tag and body all lie before `len`
  have hsum : c.validateChecksum (buf ++ rest) len = c.validateChecksum buf len := by
    unfold validateChecksum asInt32
    rw [List.drop_append_of_le_length (by omega), List.take_append_of_le_length (by omega),
      readInt32_append (by rw [List.length_drop]; omega)]
  have hdata : ((buf ++ rest).drop c.tag.length).take (len - kChecksumLen - c.tag.length) =
      (buf.drop c.tag.length).take (len - kChecksumLen - c.tag.length) := by
    rw [List.drop_append_of_le_length (by omega),
      List.take_append_of_le_length (by rw [List.length_drop]; omega)]
  simp only [parse, hsum, List.take_append_of_le_length (by omega : c.tag.length ≤ buf.length), hdata]

/-- A whole unit lies inside the buffer and holds at least the header. -/
theorem front_unit_bounds {buf : Buffer} {n : Nat} {ms : List α} (h : c.front buf = .unit n ms) :
    n = kHeaderLen + (readInt32 buf).toNat ∧ n ≤ buf.length := by
  unfold front at h
  split_ifs at h with h1 h2 h3 h4
  · cases h
    exact ⟨rfl, h3⟩
  · cases hp : c.parse (buf.drop kHeaderLen) (readInt32 buf).toNat with
    | ok m => rw [hp] at h; cases h; exact ⟨rfl, h3⟩
    | error e => rw [hp] at h; cases h

/-- A verdict reached on the front stays when bytes arrive behind it. -/
theorem front_append {buf : Buffer} (h : c.front buf ≠ .more) (rest : Bytes) :
    c.front (buf ++ rest) = c.front buf := by
  have hk : kHeaderLen = 4 := rfl
  unfold front at h ⊢
  split_ifs at h with h1 h2 h3 h4
  -- with too few bytes there is no verdict to keep
  all_goals try exact absurd rfl h
  all_goals
    have hread : readInt32 (buf ++ rest) = readInt32 buf := readInt32_append (by omega) rest
    rw [hread, if_pos (by rw [List.length_append]; omega), if_pos h1]
  · rw [if_pos h2, if_pos h2]
  · rw [if_neg h2, if_neg h2, if_pos (by rw [List.length_append]; omega), if_pos h3,
      List.take_append_of_le_length h3]
    rw [if_pos h4, if_pos h4]
  · rw [if_neg h2, if_neg h2, if_pos (by rw [List.length_append]; omega), if_pos h3,
      List.take_append_of_le_length h3, if_neg h4, if_neg h4,
      List.drop_append_of_le_length (by omega), c.parse_append]
    · unfold kMinMessageLen at h2
      omega
    · rw [List.length_drop]
      omega

/-- The codec as a framer. -/
def framer : Framer UInt8 α ErrorCode where
  head := c.front
  unit_pos h := by rw [(c.front_unit_bounds h).1]; unfold kHeaderLen; omega
  unit_le h := (c.front_unit_bounds h).2
  head_append h rest := c.front_append h rest

section Loop

variable {σ φ : Type} (messageCallback : α → σ → Except φ σ) (errorCallback : ErrorCode → σ → Except φ σ)

/-- One pass of the read loop follows the verdict on the front of the buffer. -/
theorem onMessage_front (buf : Buffer) (s : σ) :
    c.onMessage messageCallback errorCallback buf s =
      match c.front buf with
      | .more => .ok (buf, s)
      | .bad e => (errorCallback e s).map fun s' => (buf, s')
      | .unit n ms =>
          ms.foldlM (fun s m => messageCallback m s) s >>= fun s' =>
            c.onMessage messageCallback errorCallback (buf.drop n) s' := by
  rw [onMessage, front]
  unfold Buffer.readableBytes Buffer.peekInt32 Buffer.retrieve
  by_cases h1 : c.kMinMessageLen + kHeaderLen ≤ buf.length
  · simp only [dif_pos h1, if_pos h1]
    by_cases h2 : readInt32 buf > kMaxMessageLen ∨ readInt32 buf < c.kMinMessageLen
    · simp only [if_pos h2]
    · simp only [if_neg h2]
      by_cases h3 : kHeaderLen + (readInt32 buf).toNat ≤ buf.length
      · simp only [if_pos h3]
        split_ifs with h4
        · rfl
        · cases c.parse (buf.drop kHeaderLen) (readInt32 buf).toNat with
          | ok m =>
              simp only [ifNoError, List.foldlM_cons, List.foldlM_nil]
              cases messageCallback m s <;> rfl
          | error e => rfl
      · simp only [if_neg h3]
  · simp only [dif_neg h1, if_neg h1]

/-- **The read loop is the framer's loop.** `onMessage` hands the messages of the drained buffer to
`messageCallback` in order, then the error, if there is one, to `errorCallback`, and leaves what the
draining leaves. -/
theorem onMessage_eq (buf : Buffer) (s : σ) :
    c.onMessage messageCallback errorCallback buf s =
      ((c.framer.decode buf).out.foldlM (fun s m => messageCallback m s) s >>= fun s' =>
        match (c.framer.decode buf).err with
        | none => .ok ((c.framer.decode buf).rest, s')
        | some e => (errorCallback e s').map fun s'' => ((c.framer.decode buf).rest, s'')) := by
  -- on the draining: the loop takes the same units off the front
  induction buf using Framer.decode.induct c.framer generalizing s with
  | case1 buf h =>
      have hfront : c.front buf = .more := h
      rw [Framer.decode_more h, onMessage_front, hfront]
      rfl
  | case2 buf e h =>
      have hfront : c.front buf = .bad e := h
      rw [Framer.decode_bad h, onMessage_front, hfront]
      rfl
  | case3 buf n ms h ih =>
      have hfront : c.front buf = .unit n ms := h
      rw [Framer.decode_unit h, onMessage_front, hfront, List.foldlM_append, bind_assoc]
      exact bind_congr fun s' => ih s'

end Loop

end ProtobufCodecLite

end AimChat
