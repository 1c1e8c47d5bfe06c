import AimChat.Net.Endian
import AimChat.Net.ProtobufCodecLite

/-! # The frame codec on the ring buffer

`ProtobufCodecLite` writes a frame into a fresh `Buffer` and reads frames out of the input buffer of a
connection. Here are both with the buffer's indices and asserts: none of the asserts fails, and the bytes are
those of the codec on byte strings (`codec_of_buffer`). -/

namespace AimChat

namespace Net

namespace BufferCodec

open ProtobufCodecLite (kHeaderLen kChecksumLen kMaxMessageLen)

/-- The assert of the codec that fails, or of the buffer. -/
inductive Fault
  /-- `assert(buf->readableBytes() == 0)` -/
  | notEmpty
  /-- `assert(buf->readableBytes() == tag_.size() + byte_size + kChecksumLen)` -/
  | size
  | buffer (a : Buffer.Assert)

/-- An operation of the buffer. -/
def call (buf : Buffer) (c : Buffer.Call) : Except Fault Buffer := (buf.step c).mapError .buffer

section Codec

variable {α : Type} (c : ProtobufCodecLite α)

/-- `serializeToBuffer(message, buf)`: the length of the body, written behind the buffer. -/
def serializeToBuffer (message : α) (buf : Buffer) : Except Fault (Nat × Buffer) :=
  let body := c.serializeToBuffer message
  let byteSize := body.length
  (call (buf.ensureWritableBytes (byteSize + kChecksumLen)) (.store body)).map fun buf => (byteSize, buf)

/-- `fillEmptyBuffer(buf, message)` -/
def fillEmptyBuffer (buf : Buffer) (message : α) : Except Fault Buffer :=
  if buf.readableBytes = 0 then
    serializeToBuffer c message (buf.append c.tag) >>= fun (byteSize, buf) =>
    let checkSum := c.checksum buf.contents
    let buf := buf.appendInt32 (BitVec.ofInt 32 checkSum)
    if buf.readableBytes = c.tag.length + byteSize + kChecksumLen then
      let len := wrap32 buf.readableBytes
      call buf (.prepend (int32Bytes len))
    else .error .size
  else .error .notEmpty

/-- `peekInt32()` as an `int32_t`. -/
def peekInt32 (buf : Buffer) : Except Buffer.Assert Int := (buf.peekInt 4).map BitVec.toInt

theorem readableBytes_of_retrieve {buf buf' : Buffer} {n : Nat} (h : buf.step (.retrieve n) = .ok buf') :
    n ≤ buf.readableBytes ∧ buf' = buf.retrieve n := by
  rw [Buffer.step] at h
  split_ifs at h with hn
  exact ⟨hn, (Except.ok.inj h).symm⟩

variable {σ : Type} (messageCallback : α → σ → σ) (errorCallback : ErrorCode → σ → σ)

/-- `onMessage(conn, buf, receiveTime)` -/
def onMessage (buf : Buffer) (s : σ) : Except Buffer.Assert (Buffer × σ) :=
  if _hmin : c.kMinMessageLen + kHeaderLen ≤ buf.readableBytes then
    match peekInt32 buf with
    | .error f => .error f
    | .ok len =>
        if len > kMaxMessageLen ∨ len < c.kMinMessageLen then .ok (buf, errorCallback .kInvalidLength s)
        else if kHeaderLen + len.toNat ≤ buf.readableBytes then
          if c.rawCb.any fun rawCb => !rawCb (buf.contents.take (kHeaderLen + len.toNat)) then
            match _hraw : buf.step (.retrieve (kHeaderLen + len.toNat)) with
            | .error f => .error f
            | .ok buf' => onMessage buf' s
          else
            ProtobufCodecLite.ifNoError (c.parse (buf.contents.drop kHeaderLen) len.toNat)
              (fun message =>
                match _hnext : buf.step (.retrieve (kHeaderLen + len.toNat)) with
                | .error f => .error f
                | .ok buf' => onMessage buf' (messageCallback message s))
              (fun e => .ok (buf, errorCallback e s))
        else .ok (buf, s)
  else .ok (buf, s)
termination_by buf.readableBytes
decreasing_by
  all_goals
    obtain ⟨_hle, rfl⟩ := readableBytes_of_retrieve ‹_›
    rw [← Buffer.length_contents, Buffer.contents_retrieve, List.length_drop, Buffer.length_contents]
    unfold kHeaderLen at *
    omega

/-! ## One pass of the loop -/

variable {c messageCallback errorCallback}

/-- The four bytes in front, as the codec on byte strings reads them. -/
theorem peekInt32_eq {buf : Buffer} (h : 4 ≤ buf.readableBytes) :
    peekInt32 buf = .ok (readInt32 buf.contents) := by
  rw [← Buffer.length_contents] at h
  rw [peekInt32, Buffer.peekInt, if_pos (by rwa [← Buffer.length_contents])]
  obtain ⟨b₀, b₁, b₂, b₃, rest, hcontents⟩ : ∃ b₀ b₁ b₂ b₃ rest, buf.contents = b₀ :: b₁ :: b₂ :: b₃ :: rest := by
    rcases hb : buf.contents with _ | ⟨b₀, _ | ⟨b₁, _ | ⟨b₂, _ | ⟨b₃, rest⟩⟩⟩⟩
    all_goals try rw [hb] at h; simp at h
    exact ⟨b₀, b₁, b₂, b₃, rest, rfl⟩
  have h₀ := b₀.toNat_lt
  have h₁ := b₁.toNat_lt
  have h₂ := b₂.toNat_lt
  have h₃ := b₃.toNat_lt
  rw [hcontents]
  refine congrArg Except.ok ?_
  rw [BitVec.toInt_ofNat']
  unfold readInt32 wrap32 Int.bmod
  simp only [ofBigEndian, List.take_succ_cons, List.take_zero, List.foldl_cons, List.foldl_nil]
  omega

/-- What stands in front of the buffer that is retrieved is what the next pass sees. -/
theorem step_retrieve {buf : Buffer} {n : Nat} (h : n ≤ buf.readableBytes) :
    buf.step (.retrieve n) = .ok (buf.retrieve n) := by
  rw [Buffer.step, if_pos h]

/-- Too few bytes: the loop ends. -/
theorem onMessage_more {buf : Buffer} (h : c.front buf.contents = .more) (s : σ) :
    onMessage c messageCallback errorCallback buf s = .ok (buf, s) := by
  rw [ProtobufCodecLite.front, Buffer.length_contents] at h
  rw [onMessage]
  split_ifs at h with hmin hrange hall hraw
  · cases hparse : c.parse (buf.contents.drop kHeaderLen) (readInt32 buf.contents).toNat with
    | ok m => rw [hparse] at h; cases h
    | error e => rw [hparse] at h; cases h
  · rw [dif_pos hmin, peekInt32_eq (by unfold kHeaderLen at hmin; omega)]
    dsimp only
    rw [if_neg hrange, if_neg hall]
  · rw [dif_neg hmin]

/-- A malformed front: the error is reported and the buffer stays. -/
theorem onMessage_bad {buf : Buffer} {e : ErrorCode} (h : c.front buf.contents = .bad e) (s : σ) :
    onMessage c messageCallback errorCallback buf s = .ok (buf, errorCallback e s) := by
  rw [ProtobufCodecLite.front, Buffer.length_contents] at h
  rw [onMessage]
  split_ifs at h with hmin hrange hall hraw
  · rw [dif_pos hmin, peekInt32_eq (by unfold kHeaderLen at hmin; omega)]
    dsimp only
    rw [if_pos hrange]
    cases h
    rfl
  · rw [dif_pos hmin, peekInt32_eq (by unfold kHeaderLen at hmin; omega)]
    dsimp only
    rw [if_neg hrange, if_pos hall, if_neg hraw]
    cases hparse : c.parse (buf.contents.drop kHeaderLen) (readInt32 buf.contents).toNat with
    | ok m => rw [hparse] at h; cases h
    | error e' => rw [hparse] at h; cases h; rfl

/-- A whole frame: its message, if it is not swallowed, is handed over and the loop goes on behind it. -/
theorem onMessage_unit {buf : Buffer} {n : Nat} {ms : List α} (h : c.front buf.contents = .unit n ms) (s : σ) :
    onMessage c messageCallback errorCallback buf s =
      onMessage c messageCallback errorCallback (buf.retrieve n)
        (ms.foldl (fun s m => messageCallback m s) s) := by
  rw [ProtobufCodecLite.front, Buffer.length_contents] at h
  rw [onMessage]
  split_ifs at h with hmin hrange hall hraw
  · cases h
    rw [dif_pos hmin, peekInt32_eq (by unfold kHeaderLen at hmin; omega)]
    dsimp only
    rw [if_neg hrange, if_pos hall, if_pos hraw]
    split
    · next hstep => rw [step_retrieve hall] at hstep; cases hstep
    · next hstep => rw [step_retrieve hall] at hstep; cases hstep; rfl
  · rw [dif_pos hmin, peekInt32_eq (by unfold kHeaderLen at hmin; omega)]
    dsimp only
    rw [if_neg hrange, if_pos hall, if_neg hraw]
    cases hparse : c.parse (buf.contents.drop kHeaderLen) (readInt32 buf.contents).toNat with
    | error e => rw [hparse] at h; cases h
    | ok m =>
        rw [hparse] at h
        cases h
        dsimp only [ProtobufCodecLite.ifNoError]
        split
        · next hstep => rw [step_retrieve hall] at hstep; cases hstep
        · next hstep => rw [step_retrieve hall] at hstep; cases hstep; rfl

/-- **The read loop on the ring buffer drains it.** No assert fails; the messages of the drained bytes are
handed over in order, then the error, if there is one, and what draining leaves is left. -/
theorem onMessage_decode (c : ProtobufCodecLite α) (messageCallback : α → σ → σ)
    (errorCallback : ErrorCode → σ → σ) (buf : Buffer) (s : σ) :
    ∃ buf', buf'.contents = (c.framer.decode buf.contents).rest ∧
      onMessage c messageCallback errorCallback buf s =
        .ok (buf', (c.framer.decode buf.contents).err.elim
          ((c.framer.decode buf.contents).out.foldl (fun s m => messageCallback m s) s)
          (fun e => errorCallback e
            ((c.framer.decode buf.contents).out.foldl (fun s m => messageCallback m s) s))) := by
  generalize hb : buf.contents = b
  induction b using Framing.Framer.decode.induct c.framer generalizing buf s with
  | case1 b h =>
      have hfront : c.front buf.contents = .more := hb ▸ h
      rw [Framing.Framer.decode_more h]
      exact ⟨buf, hb, onMessage_more hfront s⟩
  | case2 b e h =>
      have hfront : c.front buf.contents = .bad e := hb ▸ h
      rw [Framing.Framer.decode_bad h]
      exact ⟨buf, hb, onMessage_bad hfront s⟩
  | case3 b n ms h ih =>
      have hfront : c.front buf.contents = .unit n ms := hb ▸ h
      have hrest : (buf.retrieve n).contents = b.drop n := by rw [Buffer.contents_retrieve, hb]
      obtain ⟨buf', hcontents, hloop⟩ := ih (buf.retrieve n) (ms.foldl (fun s m => messageCallback m s) s) hrest
      rw [Framing.Framer.decode_unit h]
      refine ⟨buf', hcontents, ?_⟩
      rw [onMessage_unit hfront, hloop, List.foldl_append]

/-! ## Writing a frame -/

theorem call_store {buf : Buffer} {data : Bytes} (h : data.length ≤ buf.writableBytes) :
    call buf (.store data) = .ok (buf.store data h) := by
  rw [call, Buffer.step, dif_pos h]
  rfl

theorem call_prepend {buf : Buffer} {data : Bytes} (h : data.length ≤ buf.prependableBytes) :
    call buf (.prepend data) = .ok (buf.prepend data h) := by
  rw [call, Buffer.step, dif_pos h]
  rfl

theorem contents_appendInt32 (buf : Buffer) (x : Int) :
    (buf.appendInt32 (BitVec.ofInt 32 x)).contents = buf.contents ++ int32Bytes x := by
  have hnat : (BitVec.ofInt 32 x).toNat = (x % 4294967296).toNat := BitVec.toNat_ofInt x
  rw [Buffer.appendInt32, Buffer.appendInt, Buffer.contents_append, hnat, bigEndian_four]

/-- A frame written into a fresh buffer: there is room in front for its length. -/
theorem fillEmptyBuffer_empty (c : ProtobufCodecLite α) (message : α) :
    ∃ buf, fillEmptyBuffer c .empty message = .ok buf ∧ buf.contents = c.fillEmptyBuffer message := by
  have hck : kChecksumLen = 4 := rfl
  let body := c.serializeToBuffer message
  let tagged := Buffer.empty.append c.tag
  let roomy := tagged.ensureWritableBytes (body.length + kChecksumLen)
  have hroom : body.length ≤ roomy.writableBytes :=
    Nat.le_trans (Nat.le_add_right _ _) (Buffer.le_writableBytes_ensureWritableBytes _)
  let filled := roomy.store body hroom
  have hfilled : filled.contents = c.tag ++ body := by
    rw [Buffer.contents_store, Buffer.contents_ensureWritableBytes, Buffer.contents_append,
      Buffer.contents_empty, List.nil_append]
  let summed := filled.appendInt32 (BitVec.ofInt 32 (c.checksum filled.contents))
  have hsummed : summed.contents = c.tag ++ body ++ int32Bytes (c.checksum (c.tag ++ body)) := by
    rw [contents_appendInt32, hfilled]
  have hlen : summed.readableBytes = c.tag.length + body.length + kChecksumLen := by
    rw [← Buffer.length_contents, hsummed]
    simp only [List.length_append, length_int32Bytes, hck]
  -- nothing was put in front so far, so the eight bytes kept free there are
  have hfree : kCheapPrepend ≤ summed.prependableBytes := by
    refine Buffer.prependableBytes_append ?_ _
    exact Buffer.prependableBytes_ensureWritableBytes
      (Buffer.prependableBytes_append Buffer.prependableBytes_empty _) _
  have hprepend : (int32Bytes (wrap32 summed.readableBytes)).length ≤ summed.prependableBytes := by
    rw [length_int32Bytes]
    exact Nat.le_trans (by decide) hfree
  refine ⟨summed.prepend _ hprepend, ?_, ?_⟩
  · rw [fillEmptyBuffer, if_pos (by rfl), serializeToBuffer]
    dsimp only
    rw [call_store hroom]
    change (if summed.readableBytes = c.tag.length + body.length + kChecksumLen then
      call summed (.prepend (int32Bytes (wrap32 summed.readableBytes))) else .error .size) = _
    rw [if_pos hlen, call_prepend hprepend]
  · rw [Buffer.contents_prepend, hsummed]
    unfold ProtobufCodecLite.fillEmptyBuffer
    simp only [AimChat.Buffer.append, AimChat.Buffer.appendInt32, AimChat.Buffer.prepend,
      AimChat.Buffer.readableBytes, List.nil_append, hlen, List.length_append, length_int32Bytes, hck]
    rfl

/-! ## The codec on byte strings -/

/-- Callbacks that do not fail. -/
theorem foldlM_ok {φ : Type} (ms : List α) (s : σ) :
    ms.foldlM (fun s m => (.ok (messageCallback m s) : Except φ σ)) s =
      .ok (ms.foldl (fun s m => messageCallback m s) s) := by
  induction ms generalizing s with
  | nil => rfl
  | cons m ms ih => exact ih (messageCallback m s)

/-- **The ring buffer does not show.** Whatever the indices of the buffer are, the read loop trips no assert
and does to its bytes what the codec on byte strings does, with the same callbacks in the same order; and the
frame written into a fresh buffer trips none and is the frame on byte strings. -/
theorem codec_of_buffer (c : ProtobufCodecLite α) (messageCallback : α → σ → σ)
    (errorCallback : ErrorCode → σ → σ) (buf : Buffer) (s : σ) (message : α) :
    (∃ buf' s', onMessage c messageCallback errorCallback buf s = .ok (buf', s') ∧
      c.onMessage (fun m s => .ok (messageCallback m s)) (fun e s => .ok (errorCallback e s)) buf.contents s =
        (.ok (buf'.contents, s') : Except Fault (AimChat.Buffer × σ))) ∧
      ∃ buf', fillEmptyBuffer c .empty message = .ok buf' ∧
        buf'.contents = c.fillEmptyBuffer message := by
  refine ⟨?_, fillEmptyBuffer_empty c message⟩
  obtain ⟨buf', hcontents, hloop⟩ := onMessage_decode c messageCallback errorCallback buf s
  refine ⟨buf', _, hloop, ?_⟩
  rw [ProtobufCodecLite.onMessage_eq, foldlM_ok, hcontents]
  cases (c.framer.decode buf.contents).err with
  | none => rfl
  | some e => rfl

end Codec

end BufferCodec

end Net

end AimChat
