import AimChat.Net.ProtobufCodecLite
import AimChat.Proto.Wire
import Mathlib.Data.List.Forall2

/-! # The IM01 stream of a connection

`IMCodec` is `ProtobufCodecLite` with tag `IM01`, no raw callback and `MessageContainer` as its
prototype. `Framed` says what a well-formed frame is without looking at the read loop; the loop is
shown to dispatch the messages of the frames a stream starts with, whatever chunks it arrived in, and
to give back what `send` wrote. -/

namespace AimChat

open Framing

/-- What the codec takes from outside: the generated code for the container and zlib. -/
structure CodecLib where
  /-- Parsing and serializing a `MessageContainer`. -/
  container : Codec MessageContainer
  /-- `adler32(1, buf, len)` -/
  adler32 : Bytes → UInt32

/-- `IMCodec`'s `codec_`. -/
def IMCodec (lib : CodecLib) : ProtobufCodecLite MessageContainer where
  tag := str "IM01"
  parseFromBuffer := lib.container.parse
  serializeToBuffer := lib.container.serialize
  adler32 := lib.adler32
  rawCb := none

namespace IMCodec

variable (lib : CodecLib)

/-- The bytes `IMCodec::send(conn, msg)` gives to the connection. -/
def send (msg : MessageContainer) : Bytes := (IMCodec lib).fillEmptyBuffer msg

/-- The container `IMCodec::sendRaw(conn, data)` sends, when the cached bytes parse. -/
def sendRaw (data : Bytes) : Option MessageContainer := lib.container.parse data

/-! ## A connection that records what its codec calls -/

/-- What the codec called on one connection: the containers dispatched, and the errors reported. -/
structure Calls where
  dispatched : List MessageContainer := []
  errors : List ErrorCode := []
  deriving DecidableEq, Repr

/-- `messageCallback_` of a recording connection. -/
def Calls.onMessage (msg : MessageContainer) (s : Calls) : Except Empty Calls :=
  .ok { s with dispatched := s.dispatched ++ [msg] }

/-- `errorCallback_` of a recording connection. -/
def Calls.onError (e : ErrorCode) (s : Calls) : Except Empty Calls :=
  .ok { s with errors := s.errors ++ [e] }

/-- `ClientSession::OnRead` after the chunk was appended to the connection's input buffer. -/
def onRead (chunk : Bytes) (conn : Buffer × Calls) : Buffer × Calls :=
  match (IMCodec lib).onMessage Calls.onMessage Calls.onError (conn.1.append chunk) conn.2 with
  | .ok conn' => conn'
  | .error f => f.elim

/-- A connection whose chunks arrive one by one, `OnRead` called after each. -/
def receive (conn : Buffer × Calls) (chunks : List Bytes) : Buffer × Calls :=
  chunks.foldl (fun conn chunk => onRead lib chunk conn) conn

/-- The containers dispatched on a new connection whose stream arrives in these chunks. -/
def dispatched (chunks : List Bytes) : List MessageContainer := (receive lib ([], {}) chunks).2.dispatched

/-! ## Frames -/

/-- A well-formed frame of a message: a four-byte length in `[8, 64 MiB]` of what follows it, the tag,
a body that parses, and the four-byte Adler-32 of tag and body. -/
def Framed (frame : Bytes) (msg : MessageContainer) : Prop :=
  ∃ length body sum : Bytes, frame = length ++ (str "IM01" ++ (body ++ sum)) ∧
    length.length = 4 ∧ sum.length = 4 ∧
    readInt32 length = (str "IM01" ++ (body ++ sum)).length ∧
    8 ≤ readInt32 length ∧ readInt32 length ≤ 64 * 1024 * 1024 ∧
    readInt32 sum = wrap32 (lib.adler32 (str "IM01" ++ body)).toNat ∧
    lib.container.parse body = some msg

/-- A malformed frame stands at the head of the buffer: its length is out of range, or it is all there
and no frame. -/
def Malformed (buf : Bytes) : Prop :=
  4 ≤ buf.length ∧
    (readInt32 buf < 8 ∨ 64 * 1024 * 1024 < readInt32 buf ∨
      4 + (readInt32 buf).toNat ≤ buf.length ∧
        ∀ msg, ¬ Framed lib (buf.take (4 + (readInt32 buf).toNat)) msg)

/-- The messages of the longest prefix of a stream that is made of whole well-formed frames. -/
def LongestPrefix (stream : Bytes) (msgs : List MessageContainer) : Prop :=
  ∃ (frames : List Bytes) (rest : Bytes), stream = frames.flatten ++ rest ∧
    List.Forall₂ (Framed lib) frames msgs ∧ ∀ frame msg, Framed lib frame msg → ¬ frame <+: rest

/-! ## The verdict of the codec -/

variable {lib}

theorem length_tag : (str "IM01").length = 4 := by decide

/-- `kMinMessageLen` of the IM01 codec. -/
theorem kMinMessageLen_eq : (IMCodec lib).kMinMessageLen = 8 := by
  unfold ProtobufCodecLite.kMinMessageLen ProtobufCodecLite.kChecksumLen IMCodec
  rw [length_tag]

/-- The verdict of the IM01 codec with its constants written out. -/
theorem front_eq (buf : Buffer) :
    (IMCodec lib).front buf =
      if 12 ≤ buf.length then
        if readInt32 buf > 64 * 1024 * 1024 ∨ readInt32 buf < 8 then .bad .kInvalidLength
        else if 4 + (readInt32 buf).toNat ≤ buf.length then
          ProtobufCodecLite.ifNoError
            ((IMCodec lib).parse (buf.drop 4) (readInt32 buf).toNat)
            (fun message => .unit (4 + (readInt32 buf).toNat) [message]) .bad
        else .more
      else .more := by
  rw [ProtobufCodecLite.front, kMinMessageLen_eq]
  unfold ProtobufCodecLite.kMaxMessageLen ProtobufCodecLite.kHeaderLen
  simp only [IMCodec, Option.any_none, Bool.false_eq_true, if_false]
  rfl

/-- When `parse` succeeds, on bytes that hold the whole message. -/
theorem parse_eq_ok {buf : Bytes} {len : Nat} {msg : MessageContainer} :
    (IMCodec lib).parse buf len = .ok msg ↔
      readInt32 (buf.drop (len - 4)) = wrap32 (lib.adler32 (buf.take (len - 4))).toNat ∧
        buf.take 4 = str "IM01" ∧
        lib.container.parse ((buf.drop 4).take (len - 8)) = some msg := by
  have htag : (IMCodec lib).tag = str "IM01" := rfl
  have hsum : (IMCodec lib).adler32 = lib.adler32 := rfl
  have hbody : (IMCodec lib).parseFromBuffer = lib.container.parse := rfl
  have hlen : len - 4 - 4 = len - 8 := by omega
  unfold ProtobufCodecLite.parse ProtobufCodecLite.validateChecksum ProtobufCodecLite.asInt32
    ProtobufCodecLite.checksum ProtobufCodecLite.kChecksumLen
  rw [htag, hsum, hbody, length_tag, hlen]
  simp only [decide_eq_true_eq, eq_comm (a := wrap32 _)]
  split_ifs with h1 h2
  · cases hp : lib.container.parse ((buf.drop 4).take (len - 8)) with
    | none => simp
    | some message => simp [h1, h2]
  · simp [h2]
  · simp [h1]

/-- A well-formed frame at the front of a buffer is a unit of its length with its message. -/
theorem isUnit_of_framed {frame : Bytes} {msg : MessageContainer} (h : Framed lib frame msg) :
    (IMCodec lib).framer.IsUnit frame msg := by
  obtain ⟨len, body, sum, rfl, hlen, hsum, hread, hmin, hmax, hck, hparse⟩ := h
  intro rest
  have hbody : (str "IM01" ++ (body ++ sum)).length = 8 + body.length := by
    simp only [List.length_append, length_tag, hsum]
    omega
  -- the length in the frame is the number of bytes behind it
  have hrd : readInt32 (len ++ (str "IM01" ++ (body ++ sum)) ++ rest) = readInt32 len := by
    rw [List.append_assoc, readInt32_append (by omega)]
  have hnat : (readInt32 len).toNat = 8 + body.length := by omega
  have hdrop : (len ++ (str "IM01" ++ (body ++ sum)) ++ rest).drop 4 =
      str "IM01" ++ (body ++ sum) ++ rest := by
    rw [List.append_assoc, List.drop_left' hlen]
  change (IMCodec lib).front _ = _
  have hok : (IMCodec lib).parse (str "IM01" ++ (body ++ sum) ++ rest) (8 + body.length) =
      .ok msg := by
    rw [parse_eq_ok]
    refine ⟨?_, ?_, ?_⟩
    · have h1 : 8 + body.length - 4 = (str "IM01" ++ body).length := by
        rw [List.length_append, length_tag]
        omega
      have h2 : str "IM01" ++ (body ++ sum) ++ rest = (str "IM01" ++ body) ++ (sum ++ rest) := by
        simp only [List.append_assoc]
      rw [h1, h2, List.drop_left, List.take_left, readInt32_append (by omega), hck]
    · rw [List.append_assoc, List.take_left' length_tag]
    · rw [List.append_assoc, List.drop_left' length_tag, List.append_assoc,
        List.take_left' (by omega), hparse]
  rw [front_eq, hrd, hnat, hdrop, hok, if_pos, if_neg, if_pos]
  · simp only [ProtobufCodecLite.ifNoError, List.length_append, hlen, length_tag, hsum]
    congr 1
    omega
  · rw [List.length_append, List.length_append, hlen, hbody]
    omega
  · omega
  · rw [List.length_append, List.length_append, hlen, hbody]
    omega

/-- A unit at the front of a buffer is a well-formed frame. -/
theorem framed_of_front {buf : Buffer} {n : Nat} {msgs : List MessageContainer}
    (h : (IMCodec lib).front buf = .unit n msgs) :
    ∃ msg, msgs = [msg] ∧ n = 4 + (readInt32 buf).toNat ∧ n ≤ buf.length ∧
      Framed lib (buf.take n) msg := by
  rw [front_eq] at h
  split_ifs at h with h1 h2 h3
  cases hp : (IMCodec lib).parse (buf.drop 4) (readInt32 buf).toNat with
  | error e => rw [hp] at h; cases h
  | ok msg =>
      rw [hp] at h
      cases h
      obtain ⟨hck, htag, hparse⟩ := parse_eq_ok.1 hp
      refine ⟨msg, rfl, rfl, h3, ?_⟩
      -- k bytes of body between the tag and the checksum
      obtain ⟨k, hk⟩ : ∃ k : Nat, (readInt32 buf).toNat = 8 + k :=
        ⟨(readInt32 buf).toNat - 8, by omega⟩
      rw [hk] at h3 hck hparse ⊢
      have hbody : ((buf.drop 4).drop 4).take (8 + k - 8) = (buf.drop 8).take k := by
        rw [List.drop_drop, Nat.add_sub_cancel_left]
      -- the frame cut into its four parts, and what each part reads as
      have hcut : buf.take (4 + (8 + k)) =
          buf.take 4 ++ (str "IM01" ++ ((buf.drop 8).take k ++ (buf.drop (8 + k)).take 4)) := by
        rw [List.take_add, show 8 + k = 4 + (k + 4) by omega, List.take_add, htag, List.take_add,
          List.drop_drop, List.drop_drop, show 4 + 4 + k = 4 + (k + 4) by omega]
      have hsum : readInt32 ((buf.drop (8 + k)).take 4) =
          readInt32 ((buf.drop 4).drop (8 + k - 4)) := by
        rw [List.drop_drop, show 4 + (8 + k - 4) = 8 + k by omega,
          ← readInt32_append (by rw [List.length_take, List.length_drop]; omega)
            ((buf.drop (8 + k)).drop 4), List.take_append_drop]
      have htake : (buf.drop 4).take (8 + k - 4) = str "IM01" ++ (buf.drop 8).take k := by
        rw [show 8 + k - 4 = 4 + k by omega, List.take_add, htag, List.drop_drop]
      have hhead : readInt32 (buf.take 4) = readInt32 buf := by
        rw [← readInt32_append (by rw [List.length_take]; omega) (buf.drop 4),
          List.take_append_drop]
      have hlen : (str "IM01" ++ ((buf.drop 8).take k ++ (buf.drop (8 + k)).take 4)).length =
          8 + k := by
        simp only [List.length_append, length_tag, List.length_take, List.length_drop]
        omega
      refine ⟨buf.take 4, (buf.drop 8).take k, (buf.drop (8 + k)).take 4, hcut, ?_, ?_, ?_, ?_, ?_,
        ?_, ?_⟩
      · rw [List.length_take]
        omega
      · rw [List.length_take, List.length_drop]
        omega
      · rw [hhead, hlen]
        omega
      · omega
      · omega
      · rw [hsum, hck, htake]
      · rw [← hbody, hparse]

/-! ## Receiving is draining the stream -/

theorem foldlM_onMessage (msgs : List MessageContainer) (s : Calls) :
    msgs.foldlM (fun s m => Calls.onMessage m s) s =
      (.ok { s with dispatched := s.dispatched ++ msgs } : Except Empty Calls) := by
  induction msgs generalizing s with
  | nil => simp [pure, Except.pure]
  | cons m msgs ih =>
      rw [List.foldlM_cons]
      change msgs.foldlM _ { s with dispatched := s.dispatched ++ [m] } = _
      rw [ih]
      simp

/-- One `OnRead` records what draining the buffer hands over. -/
theorem onRead_eq (chunk buf : Bytes) (calls : Calls) :
    onRead lib chunk (buf, calls) =
      (((IMCodec lib).framer.decode (buf ++ chunk)).rest,
        ⟨calls.dispatched ++ ((IMCodec lib).framer.decode (buf ++ chunk)).out,
          calls.errors ++ ((IMCodec lib).framer.decode (buf ++ chunk)).err.toList⟩) := by
  unfold onRead Buffer.append
  rw [ProtobufCodecLite.onMessage_eq, foldlM_onMessage]
  -- an error is recorded once for every read that meets it
  cases (Framer.decode (IMCodec lib).framer (buf ++ chunk)).err <;>
    simp [bind, Except.bind, Except.map, Calls.onError]

/-- A connection records what its framer hands over chunk by chunk. -/
theorem receive_eq (chunks : List Bytes) (buf : Bytes) (calls : Calls) :
    receive lib (buf, calls) chunks =
      ((IMCodec lib).framer.buffer buf chunks,
        ⟨calls.dispatched ++ (IMCodec lib).framer.feed buf chunks,
          calls.errors ++ (IMCodec lib).framer.errors buf chunks⟩) := by
  induction chunks generalizing buf calls with
  | nil => simp [receive, Framer.buffer, Framer.feed, Framer.errors]
  | cons chunk chunks ih =>
      rw [receive, List.foldl_cons, ← receive, onRead_eq, ih, Framer.buffer, Framer.feed,
        Framer.errors, List.append_assoc, List.append_assoc]

/-- An empty buffer is drained. -/
theorem decode_nil : (IMCodec lib).framer.decode [] = ⟨[], [], none⟩ := by
  apply Framer.decode_more
  change (IMCodec lib).front [] = _
  rw [front_eq, if_neg (by simp)]

/-- **A new connection drains its stream.** What a connection has dispatched and what is left in its
buffer depend on the bytes that arrived, not on the chunks. -/
theorem receive_nil (chunks : List Bytes) :
    receive lib ([], {}) chunks =
      (((IMCodec lib).framer.decode chunks.flatten).rest,
        ⟨((IMCodec lib).framer.decode chunks.flatten).out,
          (IMCodec lib).framer.errors [] chunks⟩) := by
  have hout := Framer.feed_out (F := (IMCodec lib).framer) [] chunks
  have hrest := Framer.buffer_rest (F := (IMCodec lib).framer) [] chunks
  rw [decode_nil, List.nil_append, List.nil_append] at hout
  rw [decode_nil, List.nil_append] at hrest
  rw [receive_eq, hout, hrest, List.nil_append, List.nil_append]

/-! ## Segmentation independence -/

/-- A buffer whose front is no unit starts with no well-formed frame. -/
theorem not_prefix_of_front {buf : Bytes}
    (h : ∀ n msgs, (IMCodec lib).framer.head buf ≠ .unit n msgs) {frame : Bytes}
    {msg : MessageContainer} (hf : Framed lib frame msg) : ¬ frame <+: buf := by
  rintro ⟨rest, rfl⟩
  exact h _ _ (isUnit_of_framed hf rest)

/-- Draining takes exactly the well-formed frames the stream starts with. -/
theorem longestPrefix_decode (stream : Bytes) :
    LongestPrefix lib stream ((IMCodec lib).framer.decode stream).out := by
  induction stream using Framer.decode.induct (IMCodec lib).framer with
  | case1 b h =>
      rw [Framer.decode_more h]
      exact ⟨[], b, rfl, .nil, fun _ _ hf => not_prefix_of_front (by simp [h]) hf⟩
  | case2 b e h =>
      rw [Framer.decode_bad h]
      exact ⟨[], b, rfl, .nil, fun _ _ hf => not_prefix_of_front (by simp [h]) hf⟩
  | case3 b n ms h ih =>
      obtain ⟨msg, rfl, -, hn, hf⟩ := framed_of_front h
      obtain ⟨frames, rest, hstream, hframes, hrest⟩ := ih
      rw [Framer.decode_unit h]
      refine ⟨b.take n :: frames, rest, ?_, .cons hf hframes, hrest⟩
      rw [List.flatten_cons, List.append_assoc, ← hstream, List.take_append_drop]

/-- The longest prefix is unique: whatever way a stream is written as whole frames and a rest that
starts with none, its messages are those draining hands over. -/
theorem LongestPrefix.eq_decode {stream : Bytes} {msgs : List MessageContainer}
    (h : LongestPrefix lib stream msgs) : msgs = ((IMCodec lib).framer.decode stream).out := by
  obtain ⟨frames, rest, rfl, hframes, hrest⟩ := h
  rw [Framer.decode_units (hframes.imp fun _ _ hf => isUnit_of_framed hf)]
  cases hv : (IMCodec lib).framer.head rest with
  | more => rw [Framer.decode_more hv, List.append_nil]
  | bad e => rw [Framer.decode_bad hv, List.append_nil]
  | unit n ms =>
      obtain ⟨msg, -, -, -, hf⟩ := framed_of_front hv
      exact absurd (List.take_prefix n rest) (hrest _ msg hf)

/-- The length field of a well-formed frame is in range. -/
theorem Framed.range {frame : Bytes} {msg : MessageContainer} (h : Framed lib frame msg) :
    8 ≤ readInt32 frame ∧ readInt32 frame ≤ 64 * 1024 * 1024 := by
  obtain ⟨len, body, sum, rfl, hlen, -, -, hmin, hmax, -, -⟩ := h
  rw [readInt32_append (by omega)]
  exact ⟨hmin, hmax⟩

/-- A malformed frame at the head stays there when bytes arrive. -/
theorem Malformed.append {buf : Bytes} (h : Malformed lib buf) (chunk : Bytes) :
    Malformed lib (buf ++ chunk) := by
  obtain ⟨h4, h⟩ := h
  refine ⟨by rw [List.length_append]; omega, ?_⟩
  rw [readInt32_append h4]
  refine h.imp_right (Or.imp_right fun ⟨hlen, hf⟩ => ⟨by rw [List.length_append]; omega, ?_⟩)
  rw [List.take_append_of_le_length hlen]
  exact hf

/-- A malformed frame at the head is no unit. -/
theorem Malformed.not_unit {buf : Bytes} (h : Malformed lib buf) (n : Nat)
    (msgs : List MessageContainer) : (IMCodec lib).framer.head buf ≠ .unit n msgs := by
  intro hunit
  obtain ⟨msg, -, rfl, -, hf⟩ := framed_of_front hunit
  have hread : readInt32 (buf.take (4 + (readInt32 buf).toNat)) = readInt32 buf := by
    rw [← readInt32_append (by rw [List.length_take]; have := h.1; omega) (buf.drop _),
      List.take_append_drop]
  have hrange := hf.range
  rw [hread] at hrange
  rcases h.2 with hlow | hhigh | ⟨-, hno⟩
  · omega
  · omega
  · exact hno msg hf

/-- Dispatching goes on from what the first chunks have left. -/
theorem dispatched_append (chunks later : List Bytes) :
    dispatched lib (chunks ++ later) = dispatched lib chunks ++
      (IMCodec lib).framer.feed (receive lib ([], {}) chunks).1 later := by
  have hsplit : receive lib ([], {}) (chunks ++ later) =
      receive lib ((receive lib ([], {}) chunks).1, (receive lib ([], {}) chunks).2) later :=
    List.foldl_append
  rw [dispatched, hsplit, receive_eq]
  rfl

/-- **Segmentation independence of the IM01 decoder.** In whatever chunks a stream arrives, `OnRead`
dispatches the messages of its longest prefix of well-formed frames, so any two ways of cutting it
dispatch the same; and once a malformed frame stands at the head of the buffer nothing more is
dispatched, whatever arrives. -/
theorem onRead_segmentation (lib : CodecLib) (chunks : List Bytes) :
    LongestPrefix lib chunks.flatten (dispatched lib chunks) ∧
      (∀ msgs, LongestPrefix lib chunks.flatten msgs → msgs = dispatched lib chunks) ∧
      (∀ chunks' : List Bytes, chunks'.flatten = chunks.flatten →
        dispatched lib chunks' = dispatched lib chunks) ∧
      (Malformed lib (receive lib ([], {}) chunks).1 →
        ∀ later : List Bytes, dispatched lib (chunks ++ later) = dispatched lib chunks) := by
  have hout : ∀ chunks, dispatched lib chunks =
      ((IMCodec lib).framer.decode (List.flatten chunks)).out := fun chunks => by
    rw [dispatched, receive_nil]
  refine ⟨?_, ?_, ?_, ?_⟩
  · rw [hout]
    exact longestPrefix_decode _
  · intro msgs h
    rw [hout]
    exact h.eq_decode
  · intro chunks' h
    rw [hout, hout, h]
  · intro hbad later
    rw [dispatched_append, Framer.feed_of_stuck Malformed.append Malformed.not_unit hbad,
      List.append_nil]

/-! ## Decode undoes encode -/

/-- The frame `send` builds is well formed, and its message is the one sent. -/
theorem framed_send {msg : MessageContainer}
    (hsize : (lib.container.serialize msg).length ≤ 64 * 1024 * 1024 - 8)
    (hparse : lib.container.parse (lib.container.serialize msg) = some msg) :
    Framed lib (send lib msg) msg := by
  have hlen : (str "IM01" ++ (lib.container.serialize msg ++
      int32Bytes (wrap32 (lib.adler32 (str "IM01" ++ lib.container.serialize msg)).toNat))).length =
      8 + (lib.container.serialize msg).length := by
    simp only [List.length_append, length_tag, length_int32Bytes]
    omega
  have hint : IsInt32 (8 + (lib.container.serialize msg).length : Nat) := by
    unfold IsInt32
    omega
  refine ⟨int32Bytes (wrap32 (8 + (lib.container.serialize msg).length : Nat)),
    lib.container.serialize msg,
    int32Bytes (wrap32 (lib.adler32 (str "IM01" ++ lib.container.serialize msg)).toNat),
    ?_, rfl, rfl, ?_, ?_, ?_, ?_, hparse⟩
  · rw [← hlen]
    simp only [send, ProtobufCodecLite.fillEmptyBuffer, ProtobufCodecLite.checksum, IMCodec,
      Buffer.append, Buffer.appendInt32, Buffer.prepend, Buffer.readableBytes, List.nil_append,
      List.append_assoc]
  · rw [hlen, wrap32_eq_self hint, ← List.append_nil (int32Bytes _), readInt32_int32Bytes hint]
  · rw [wrap32_eq_self hint, ← List.append_nil (int32Bytes _), readInt32_int32Bytes hint]
    omega
  · rw [wrap32_eq_self hint, ← List.append_nil (int32Bytes _), readInt32_int32Bytes hint]
    omega
  · rw [← List.append_nil (int32Bytes _), readInt32_int32Bytes (isInt32_wrap32 _)]

/-- The bytes `send` gives to a connection for these messages, one after the other. -/
def stream (lib : CodecLib) (msgs : List MessageContainer) : Bytes := (msgs.map (send lib)).flatten

/-- The messages whose frames lie wholly in the first `n` bytes of their stream. -/
def completeFrames (lib : CodecLib) : List MessageContainer → Nat → List MessageContainer
  | [], _ => []
  | msg :: msgs, n =>
      if (send lib msg).length ≤ n then
        msg :: completeFrames lib msgs (n - (send lib msg).length)
      else []

/-- Draining a whole stream hands over its messages and leaves nothing. -/
theorem decode_stream {msgs : List MessageContainer}
    (h : ∀ msg ∈ msgs, Framed lib (send lib msg) msg) :
    (IMCodec lib).framer.decode (stream lib msgs) = ⟨msgs, [], none⟩ := by
  have hunits : List.Forall₂ (IMCodec lib).framer.IsUnit (msgs.map (send lib)) msgs := by
    rw [List.forall₂_map_left_iff, List.forall₂_same]
    exact fun msg hmsg => isUnit_of_framed (h msg hmsg)
  have hdec := Framer.decode_units hunits []
  rw [decode_nil, List.append_nil, List.append_nil] at hdec
  exact hdec

/-- A proper prefix of a frame starts with no whole frame. -/
theorem decode_take_of_lt {frame rest : Bytes} {msg : MessageContainer}
    (h : Framed lib frame msg) {n : Nat} (hn : n < frame.length) :
    ((IMCodec lib).framer.decode ((frame ++ rest).take n)).out = [] := by
  have hnone : LongestPrefix lib ((frame ++ rest).take n) [] := by
    refine ⟨[], _, rfl, .nil, fun frame' msg' h' hpre => ?_⟩
    have hle : frame'.length ≤ n := Nat.le_trans hpre.length_le (List.length_take_le n _)
    obtain ⟨t, ht⟩ := hpre.trans (List.take_prefix n _)
    have h1 := isUnit_of_framed h' t
    rw [ht, isUnit_of_framed h rest] at h1
    have hlen : frame.length = frame'.length := (Verdict.unit.inj h1).1
    omega
  exact hnone.eq_decode.symm

/-- Draining the first bytes of a stream hands over the messages whose frames are complete. -/
theorem decode_take_stream {msgs : List MessageContainer}
    (h : ∀ msg ∈ msgs, Framed lib (send lib msg) msg) (n : Nat) :
    ((IMCodec lib).framer.decode ((stream lib msgs).take n)).out = completeFrames lib msgs n := by
  induction msgs generalizing n with
  | nil => simp [stream, completeFrames, decode_nil]
  | cons msg msgs ih =>
      have hmsg := h msg List.mem_cons_self
      have hsplit : stream lib (msg :: msgs) = send lib msg ++ stream lib msgs := rfl
      rw [hsplit, completeFrames]
      split_ifs with hn
      · have hunit := isUnit_of_framed hmsg ((stream lib msgs).take (n - (send lib msg).length))
        rw [List.take_append, List.take_of_length_le hn, Framer.decode_unit hunit, List.drop_left,
          ih (fun m hm => h m (List.mem_cons_of_mem _ hm))]
        rfl
      · exact decode_take_of_lt hmsg (by omega)

/-- **IM01 decode undoes encode.** The frames `send` builds for a list of messages, in whatever chunks
they arrive, are dispatched as exactly that list, without an error and with nothing left; and of the
first `n` bytes exactly the messages whose frames are complete are dispatched. -/
theorem receive_stream (lib : CodecLib) (msgs : List MessageContainer)
    (hsize : ∀ msg ∈ msgs, (lib.container.serialize msg).length ≤ 64 * 1024 * 1024 - 8)
    (hparse : ∀ msg ∈ msgs, lib.container.parse (lib.container.serialize msg) = some msg) :
    (∀ chunks : List Bytes, chunks.flatten = stream lib msgs →
        receive lib ([], {}) chunks = ([], { dispatched := msgs, errors := [] })) ∧
      ∀ (chunks : List Bytes) (n : Nat), chunks.flatten = (stream lib msgs).take n →
        dispatched lib chunks = completeFrames lib msgs n := by
  have hframed : ∀ msg ∈ msgs, Framed lib (send lib msg) msg := fun msg hmsg =>
    framed_send (hsize msg hmsg) (hparse msg hmsg)
  refine ⟨fun chunks h => ?_, fun chunks n h => ?_⟩
  · have herr := Framer.errors_eq_nil (F := (IMCodec lib).framer) [] chunks
    rw [List.nil_append, h, decode_stream hframed, decode_nil] at herr
    rw [receive_nil, h, decode_stream hframed, herr rfl]
  · rw [dispatched, receive_nil, h, decode_take_stream hframed]

/-- The wire format and zlib. -/
def wireLib : CodecLib := ⟨Protobuf.wire.container, adler32⟩

/-- Two messages cut inside the second length field come through whole. -/
theorem receive_stream_two :
    receive wireLib ([], {})
        [(stream wireLib [{ cmd := 1000, seq := 7 }, { cmd := 1100, targetId := -1 }]).take 19,
          (stream wireLib [{ cmd := 1000, seq := 7 }, { cmd := 1100, targetId := -1 }]).drop 19] =
      ([], { dispatched := [{ cmd := 1000, seq := 7 }, { cmd := 1100, targetId := -1 }],
             errors := [] }) :=
  (receive_stream wireLib [{ cmd := 1000, seq := 7 }, { cmd := 1100, targetId := -1 }]
    (by decide)
    (by
      intro msg hmsg
      have hfits : Protobuf.ContainerFits msg := by
        revert msg
        decide
      exact Protobuf.wire_container hfits)).1 _ (by simp)

end IMCodec

end AimChat
