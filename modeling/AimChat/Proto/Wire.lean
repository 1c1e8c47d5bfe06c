import AimChat.Lib.Wire
import AimChat.Proto.Im

/-! # `im.proto` on the wire

An instance of `Protobuf` that writes and reads the messages of `im.proto` in the protocol buffer wire
format: fields in the order of their numbers, a field with its default value left out, an `int32`
extended to 64 bits, the last value of a field winning, and a `string` that is not UTF-8 refused. Concrete
runs of the server use it; what the results about the server rely on is `Lawful`. -/

namespace AimChat

open Wire

namespace Protobuf

/-! ## Scalar fields -/

/-- An `int32` or `int64` field. -/
def putInt (k : Nat) (n : Int) : Fields :=
  if n = 0 then [] else [(k, .varint (n % 18446744073709551616).toNat)]

/-- A `string` or `bytes` field. -/
def putBytes (k : Nat) (b : Bytes) : Fields := if b = [] then [] else [(k, .len b)]

/-- The `int32` field `k`. -/
def getInt32 (k : Nat) (fs : Fields) : Int := wrap32 (lastVarint k fs)

/-- The `int64` field `k`. -/
def getInt64 (k : Nat) (fs : Fields) : Int :=
  (lastVarint k fs + 9223372036854775808 : Int) % 18446744073709551616 - 9223372036854775808

/-- The bytes are UTF-8, as those of a `string` must be. -/
def isUtf8 (b : Bytes) : Bool := ByteArray.validateUTF8 ⟨b.toArray⟩

@[simp] theorem isUtf8_nil : isUtf8 [] = true := by decide +kernel

/-- The fields of a record whose `string` fields have these numbers. -/
def checked (strings : List Nat) (b : Bytes) : Option Fields :=
  (decode b).filter fun fs => strings.all fun k => (allLen k fs).all isUtf8

/-- A message type given by its `string` fields and all its fields. -/
def codecOf {α : Type} (strings : List Nat) (fields : α → Fields) (ofFields : Fields → Option α) : Codec α where
  parse b := (checked strings b).bind ofFields
  serialize m := encode (fields m)

/-- A record comes back when its numbers and lengths fit and its texts are UTF-8. -/
theorem checked_encode {strings : List Nat} {fs : Fields} (hfits : ∀ f ∈ fs, Fits f)
    (hutf8 : ∀ k ∈ strings, ∀ x, (k, .len x) ∈ fs → isUtf8 x = true) :
    checked strings (encode fs) = some fs := by
  rw [checked, decode_encode hfits]
  refine Option.filter_some_pos (List.all_eq_true.2 fun k hk => List.all_eq_true.2 fun x hx => ?_)
  exact hutf8 k hk x (mem_allLen.1 hx)

/-- What is read was decoded, and its texts are UTF-8. -/
theorem checked_eq_some {strings : List Nat} {b : Bytes} {fs : Fields} (h : checked strings b = some fs) :
    decode b = some fs ∧ ∀ k ∈ strings, isUtf8 (lastLen k fs) = true := by
  obtain ⟨hfs, hall⟩ := Option.filter_eq_some_iff.1 h
  refine ⟨hfs, fun k hk => lastLen_induct (P := fun x => isUtf8 x = true) isUtf8_nil fun x hx => ?_⟩
  exact List.all_eq_true.1 (List.all_eq_true.1 hall k hk) x (mem_allLen.2 hx)

/-! ## The messages -/

def containerFields (m : MessageContainer) : Fields :=
  putInt 1 m.cmd ++ (putInt 2 m.seq ++ (putInt 3 m.targetId ++ (putBytes 4 m.targets ++
    putBytes 5 m.payload)))

def containerOf (fs : Fields) : MessageContainer where
  cmd := getInt32 1 fs
  seq := getInt32 2 fs
  targetId := getInt32 3 fs
  targets := lastLen 4 fs
  payload := lastLen 5 fs

def commonRspFields (m : CommonRsp) : Fields := putInt 1 m.code ++ putBytes 2 m.msg

def commonRspOf (fs : Fields) : CommonRsp := ⟨getInt32 1 fs, lastLen 2 fs⟩

def userInfoFields (u : UserInfo) : Fields :=
  putInt 1 u.userid ++ putBytes 2 u.username ++ putBytes 3 u.nickname ++ putInt 4 u.facetype ++
    putBytes 5 u.customface ++ putInt 6 u.gender ++ putInt 7 u.birthday ++
    putBytes 8 u.signature ++ putBytes 9 u.address ++ putBytes 10 u.phonenumber ++
    putBytes 11 u.mail ++ putInt 12 u.status ++ putInt 13 u.clienttype

def userInfoOf (fs : Fields) : UserInfo where
  userid := getInt32 1 fs
  username := lastLen 2 fs
  nickname := lastLen 3 fs
  facetype := getInt32 4 fs
  customface := lastLen 5 fs
  gender := getInt32 6 fs
  birthday := getInt32 7 fs
  signature := lastLen 8 fs
  address := lastLen 9 fs
  phonenumber := lastLen 10 fs
  mail := lastLen 11 fs
  status := getInt32 12 fs
  clienttype := getInt32 13 fs

/-- A `UserInfo` field; an absent message is left out. -/
def putUser (k : Nat) : Option UserInfo → Fields
  | none => []
  | some u => [(k, .len (encode (userInfoFields u)))]

/-- The `string` fields of a `UserInfo`. -/
def userInfoStrings : List Nat := [2, 3, 5, 8, 9, 10, 11]

/-- The last `UserInfo` of field `k`. -/
def getUser (k : Nat) (fs : Fields) : Option (Option UserInfo) :=
  match (allLen k fs).getLast? with
  | none => some none
  | some b => (checked userInfoStrings b).map fun us => some (userInfoOf us)

/-- A repeated message field. -/
def putAll {α : Type} (k : Nat) (fields : α → Fields) (ms : List α) : Fields :=
  ms.map fun m => (k, .len (encode (fields m)))

/-- Every message of the repeated field `k`. -/
def getAll {α : Type} (k : Nat) (strings : List Nat) (ofFields : Fields → α) (fs : Fields) : Option (List α) :=
  (allLen k fs).mapM fun b => (checked strings b).map ofFields

def registerReqFields (m : RegisterReq) : Fields :=
  putBytes 1 m.username ++ putBytes 2 m.nickname ++ putBytes 3 m.password ++
    putBytes 4 m.email ++ putBytes 5 m.code

def registerReqOf (fs : Fields) : RegisterReq :=
  ⟨lastLen 1 fs, lastLen 2 fs, lastLen 3 fs, lastLen 4 fs, lastLen 5 fs⟩

def loginReqFields (m : LoginReq) : Fields :=
  putBytes 1 m.username ++ putBytes 2 m.password ++ putInt 3 m.clienttype ++ putInt 4 m.status

def loginReqOf (fs : Fields) : LoginReq :=
  ⟨lastLen 1 fs, lastLen 2 fs, getInt32 3 fs, getInt32 4 fs⟩

def updateUserInfoReqFields (m : UpdateUserInfoReq) : Fields :=
  putBytes 1 m.nickname ++ putInt 2 m.facetype ++ putBytes 3 m.customface ++ putInt 4 m.gender ++
    putInt 5 m.birthday ++ putBytes 6 m.signature ++ putBytes 7 m.address ++
    putBytes 8 m.phonenumber ++ putBytes 9 m.mail

def updateUserInfoReqOf (fs : Fields) : UpdateUserInfoReq where
  nickname := lastLen 1 fs
  facetype := getInt32 2 fs
  customface := lastLen 3 fs
  gender := getInt32 4 fs
  birthday := getInt32 5 fs
  signature := lastLen 6 fs
  address := lastLen 7 fs
  phonenumber := lastLen 8 fs
  mail := lastLen 9 fs

def chatMsgFieldList (m : ChatMsg) : Fields :=
  putInt 1 m.senderid ++ putInt 2 m.targetid ++ putBytes 3 m.content ++ putInt 4 m.timestamp

def chatMsgOf (fs : Fields) : ChatMsg :=
  ⟨getInt32 1 fs, getInt32 2 fs, lastLen 3 fs, getInt64 4 fs⟩

/-- `repeated int32` is written packed. -/
def multiChatTargetsFields (m : MultiChatTargets) : Fields :=
  (if m.targets = [] then []
    else [(1, .len (m.targets.map fun n =>
      putVarint 10 (n % 18446744073709551616).toNat).flatten)]) ++ putBytes 2 m.content

def multiChatTargetsOf (fs : Fields) : Option MultiChatTargets :=
  (allVarint 1 fs).map fun ns => ⟨ns.map fun n => wrap32 n, lastLen 2 fs⟩

/-- The wire format of every message the server uses. -/
def wire : Protobuf where
  container := codecOf [4] containerFields fun fs => some (containerOf fs)
  commonRsp := codecOf [2] commonRspFields fun fs => some (commonRspOf fs)
  registerReq := codecOf [1, 2, 3, 4, 5] registerReqFields fun fs => some (registerReqOf fs)
  sendEmailCodeReq := codecOf [1] (fun m => putBytes 1 m.email) fun fs => some ⟨lastLen 1 fs⟩
  sendEmailCodeRsp :=
    codecOf [2] (fun m => putInt 1 m.code ++ putBytes 2 m.msg ++ putInt 3 m.cooldownSeconds)
      fun fs => some ⟨getInt32 1 fs, lastLen 2 fs, getInt32 3 fs⟩
  loginReq := codecOf [1, 2] loginReqFields fun fs => some (loginReqOf fs)
  loginRsp := codecOf [2] (fun m => putInt 1 m.code ++ putBytes 2 m.msg ++ putUser 3 m.user)
    fun fs => (getUser 3 fs).map fun u => ⟨getInt32 1 fs, lastLen 2 fs, u⟩
  friendListRsp :=
    codecOf [2] (fun m => putInt 1 m.code ++ putBytes 2 m.msg ++ putAll 3 userInfoFields m.friends)
      fun fs => (getAll 3 userInfoStrings userInfoOf fs).map fun us => ⟨getInt32 1 fs, lastLen 2 fs, us⟩
  findUserReq := codecOf [1, 2] (fun m => putBytes 1 m.type ++ putBytes 2 m.keyword)
    fun fs => some ⟨lastLen 1 fs, lastLen 2 fs⟩
  findUserRsp := codecOf [2] (fun m => putInt 1 m.code ++ putBytes 2 m.msg ++ putUser 3 m.user)
    fun fs => (getUser 3 fs).map fun u => ⟨getInt32 1 fs, lastLen 2 fs, u⟩
  operateFriendReq := codecOf [] (fun m => putInt 1 m.type ++ putInt 2 m.friendid)
    fun fs => some ⟨getInt32 1 fs, getInt32 2 fs⟩
  userStatusChangeNotify :=
    codecOf [3] (fun m => putInt 1 m.type ++ putInt 2 m.userid ++ putBytes 3 m.customface)
      fun fs => some ⟨getInt32 1 fs, getInt32 2 fs, lastLen 3 fs⟩
  updateUserInfoReq :=
    codecOf [1, 3, 6, 7, 8, 9] updateUserInfoReqFields fun fs => some (updateUserInfoReqOf fs)
  modifyPasswordReq := codecOf [1, 2] (fun m => putBytes 1 m.oldpassword ++ putBytes 2 m.newpassword)
    fun fs => some ⟨lastLen 1 fs, lastLen 2 fs⟩
  createGroupReq := codecOf [1] (fun m => putBytes 1 m.groupname) fun fs => some ⟨lastLen 1 fs⟩
  createGroupRsp :=
    codecOf [2, 4] (fun m => putInt 1 m.code ++ putBytes 2 m.msg ++ putInt 3 m.groupid ++
      putBytes 4 m.groupname)
      fun fs => some ⟨getInt32 1 fs, lastLen 2 fs, getInt32 3 fs, lastLen 4 fs⟩
  getGroupMembersReq := codecOf [] (fun m => putInt 1 m.groupid) fun fs => some ⟨getInt32 1 fs⟩
  getGroupMembersRsp :=
    codecOf [2] (fun m => putInt 1 m.code ++ putBytes 2 m.msg ++ putAll 3 userInfoFields m.members)
      fun fs => (getAll 3 userInfoStrings userInfoOf fs).map fun us => ⟨getInt32 1 fs, lastLen 2 fs, us⟩
  chatMsg := codecOf [3] chatMsgFieldList fun fs => some (chatMsgOf fs)
  multiChatTargets := codecOf [2] multiChatTargetsFields multiChatTargetsOf
  avatarUploadReq := codecOf [2] (fun m => putBytes 1 m.imageData ++ putBytes 2 m.format)
    fun fs => some ⟨lastLen 1 fs, lastLen 2 fs⟩
  avatarUploadRsp := codecOf [2, 3] (fun m => putInt 1 m.code ++ putBytes 2 m.msg ++ putBytes 3 m.url)
    fun fs => some ⟨getInt32 1 fs, lastLen 2 fs, lastLen 3 fs⟩
  chatHistoryReq := codecOf [] (fun m => putInt 1 m.targetid) fun fs => some ⟨getInt32 1 fs⟩
  chatHistoryRsp :=
    codecOf [2] (fun m => putInt 1 m.code ++ putBytes 2 m.msg ++ putInt 3 m.targetid ++
      putAll 4 chatMsgFieldList m.messages)
      fun fs => (getAll 4 [3] chatMsgOf fs).map fun ms =>
        ⟨getInt32 1 fs, lastLen 2 fs, getInt32 3 fs, ms⟩
  chatMsgFields b := ((codecOf [3] chatMsgFieldList fun fs => some (chatMsgOf fs)).parse b).getD {}
  chatMsgFields_eq h := by rw [h]; rfl

/-! ## Containers come back -/

/-- A container that comes back: its numbers are `int32`s, its `targets`, a `string`, are UTF-8, and with the
numbers its bytes stay below the 2 GiB of a message. -/
def ContainerFits (m : MessageContainer) : Prop :=
  IsInt32 m.cmd ∧ IsInt32 m.seq ∧ IsInt32 m.targetId ∧ isUtf8 m.targets = true ∧ m.targets.length < 10 ^ 9 ∧
    m.payload.length < 10 ^ 9

instance (m : MessageContainer) : Decidable (ContainerFits m) :=
  inferInstanceAs (Decidable (_ ∧ _ ∧ _ ∧ _ ∧ _ ∧ _))

/-- An `int32` extended to 64 bits converts back. -/
theorem wrap32_varint {n : Int} (h : IsInt32 n) :
    wrap32 ((n % 18446744073709551616).toNat : Int) = n := by
  unfold IsInt32 at h
  unfold wrap32
  omega

theorem foldl_putInt_varint (k j acc : Nat) (n : Int) :
    (putInt j n).foldl (stepVarint k) acc =
      if n ≠ 0 ∧ j = k then (n % 18446744073709551616).toNat else acc := by
  unfold putInt
  split_ifs with h h1 h1 <;> simp_all [stepVarint]

theorem foldl_putBytes_varint (k j acc : Nat) (b : Bytes) :
    (putBytes j b).foldl (stepVarint k) acc = acc := by
  unfold putBytes
  split_ifs <;> rfl

theorem foldl_putInt_len (k j : Nat) (acc : Bytes) (n : Int) :
    (putInt j n).foldl (stepLen k) acc = acc := by
  unfold putInt
  split_ifs <;> rfl

theorem foldl_putBytes_len (k j : Nat) (acc b : Bytes) :
    (putBytes j b).foldl (stepLen k) acc = if b ≠ [] ∧ j = k then b else acc := by
  unfold putBytes
  split_ifs with h h1 h1 <;> simp_all [stepLen]

theorem fits_putInt {k : Nat} (hk : k < 16) (n : Int) : ∀ f ∈ putInt k n, Fits f := by
  intro f hf
  unfold putInt at hf
  split_ifs at hf
  · simp at hf
  · rw [List.mem_singleton] at hf
    subst hf
    exact ⟨by omega, by omega⟩

theorem fits_putBytes {k : Nat} (hk : k < 16) {b : Bytes} (hb : b.length < 2 ^ 64) :
    ∀ f ∈ putBytes k b, Fits f := by
  intro f hf
  unfold putBytes at hf
  split_ifs at hf
  · simp at hf
  · rw [List.mem_singleton] at hf
    subst hf
    exact ⟨by omega, hb⟩

theorem not_mem_putInt_len {k j : Nat} {n : Int} {x : Bytes} : (j, .len x) ∈ putInt k n ↔ False := by
  unfold putInt
  split_ifs <;> simp

theorem mem_putBytes {k j : Nat} {b x : Bytes} : (j, .len x) ∈ putBytes k b ↔ j = k ∧ x = b ∧ b ≠ [] := by
  unfold putBytes
  split_ifs with hb <;> simp [hb]

/-- **A serialized container parses back.** -/
theorem wire_container {m : MessageContainer} (h : ContainerFits m) :
    wire.container.parse (wire.container.serialize m) = some m := by
  obtain ⟨hcmd, hseq, htarget, hutf8, htargets, hpayload⟩ := h
  have hfits : ∀ f ∈ containerFields m, Fits f := by
    intro f hf
    simp only [containerFields, List.mem_append] at hf
    rcases hf with hf | hf | hf | hf | hf
    · exact fits_putInt (by omega) _ f hf
    · exact fits_putInt (by omega) _ f hf
    · exact fits_putInt (by omega) _ f hf
    · exact fits_putBytes (by omega) (by omega) f hf
    · exact fits_putBytes (by omega) (by omega) f hf
  have htexts : ∀ k ∈ [4], ∀ x, (k, .len x) ∈ containerFields m → isUtf8 x = true := by
    intro k hk x hx
    rw [List.mem_singleton.1 hk] at hx
    simp only [containerFields, List.mem_append, not_mem_putInt_len, mem_putBytes, false_or] at hx
    rcases hx with hx | hx
    · rw [hx.2.1]
      exact hutf8
    · exact absurd hx.1 (by decide)
  change ((checked [4] (encode (containerFields m))).bind fun fs => some (containerOf fs)) = some m
  rw [checked_encode hfits htexts]
  change some (containerOf (containerFields m)) = some m
  have hint : ∀ {n : Int}, IsInt32 n →
      wrap32 (if n ≠ 0 then (n % 18446744073709551616).toNat else 0 : Nat) = n := by
    intro n hn
    split_ifs with h0
    · exact wrap32_varint hn
    · rw [not_not] at h0
      rw [h0]
      exact wrap32_eq_self (by decide)
  have hlen : ∀ b : Bytes, (if b ≠ [] then b else []) = b := fun b => by split_ifs <;> simp_all
  simp only [containerOf, containerFields, getInt32, lastVarint, lastLen, List.foldl_append,
    foldl_putInt_varint, foldl_putBytes_varint, foldl_putInt_len, foldl_putBytes_len,
    Nat.reduceEqDiff, and_true, and_false, if_false, hlen, hint hcmd, hint hseq, hint htarget]

/-- What the server relies on: a container comes back from its bytes, and what a `MultiChatTargets`
holds is of its types and part of the bytes it was parsed from. -/
structure Lawful (pb : Protobuf) : Prop where
  container : ∀ {c}, ContainerFits c → pb.container.parse (pb.container.serialize c) = some c
  multiChatTargets : ∀ {b m}, pb.multiChatTargets.parse b = some m →
    (∀ target ∈ m.targets, IsInt32 target) ∧ isUtf8 m.content = true ∧ m.content.length ≤ b.length

theorem wire_lawful : Lawful wire where
  container := wire_container
  multiChatTargets := by
    intro b m h
    change (checked [2] b).bind multiChatTargetsOf = some m at h
    obtain ⟨fs, hfs, hm⟩ := Option.bind_eq_some_iff.1 h
    obtain ⟨hdecode, hutf8⟩ := checked_eq_some hfs
    unfold multiChatTargetsOf at hm
    obtain ⟨ns, -, rfl⟩ := Option.map_eq_some_iff.1 hm
    refine ⟨fun target htarget => ?_, hutf8 2 List.mem_cons_self,
      length_lastLen_le fun x hx => Nat.le_of_lt (length_of_decode hdecode hx)⟩
    obtain ⟨n, -, rfl⟩ := List.mem_map.1 htarget
    exact isInt32_wrap32 n

/-- What parses as a container is of the C++ type, and no larger than the bytes it was parsed from. -/
def Typed (pb : Protobuf) : Prop :=
  ∀ b c, b.length < 10 ^ 9 → pb.container.parse b = some c → ContainerFits c

theorem wire_typed : Typed wire := by
  intro b c hb h
  change (checked [4] b).bind (fun fs => some (containerOf fs)) = some c at h
  obtain ⟨fs, hfs, hc⟩ := Option.bind_eq_some_iff.1 h
  obtain ⟨hdecode, hutf8⟩ := checked_eq_some hfs
  cases hc
  have hlen : ∀ k, (lastLen k fs).length < 10 ^ 9 := fun k =>
    Nat.lt_of_le_of_lt (length_lastLen_le fun x hx => Nat.le_of_lt (length_of_decode hdecode hx)) hb
  exact ⟨isInt32_wrap32 _, isInt32_wrap32 _, isInt32_wrap32 _, hutf8 4 List.mem_cons_self, hlen 4, hlen 5⟩

/-! ## Chat messages -/

/-- A serialized `ChatMsg` parses, and has the content it was given, when that is a `string` far below the 2 GiB
of a message. -/
def ContentComesBack (pb : Protobuf) : Prop :=
  ∀ m : ChatMsg, isUtf8 m.content = true → m.content.length < 10 ^ 9 →
    ∃ m', pb.chatMsg.parse (pb.chatMsg.serialize m) = some m' ∧ m'.content = m.content

theorem wire_contentComesBack : ContentComesBack wire := by
  intro m hutf8 hlen
  have hfits : ∀ f ∈ chatMsgFieldList m, Fits f := by
    intro f hf
    simp only [chatMsgFieldList, List.mem_append] at hf
    rcases hf with ((hf | hf) | hf) | hf
    · exact fits_putInt (by omega) _ f hf
    · exact fits_putInt (by omega) _ f hf
    · exact fits_putBytes (by omega) (by omega) f hf
    · exact fits_putInt (by omega) _ f hf
  have htexts : ∀ k ∈ [3], ∀ x, (k, .len x) ∈ chatMsgFieldList m → isUtf8 x = true := by
    intro k hk x hx
    rw [List.mem_singleton.1 hk] at hx
    simp only [chatMsgFieldList, List.mem_append, not_mem_putInt_len, mem_putBytes, false_or, or_false] at hx
    rw [hx.2.1]
    exact hutf8
  refine ⟨chatMsgOf (chatMsgFieldList m), ?_, ?_⟩
  · show ((checked [3] (encode (chatMsgFieldList m))).bind fun fs => some (chatMsgOf fs)) = _
    rw [checked_encode hfits htexts]
    rfl
  · have hlast : (if m.content ≠ [] then m.content else []) = m.content := by split_ifs <;> simp_all
    simp only [chatMsgOf, chatMsgFieldList, lastLen, List.foldl_append, foldl_putInt_len,
      foldl_putBytes_len, and_true, hlast]

/-- No text but the empty one is a `ChatMsg` with itself as content: a content is shorter than the message
it is in. -/
theorem eq_nil_of_wire_chatMsg {b : Bytes} {m : ChatMsg} (h : wire.chatMsg.parse b = some m)
    (hm : m.content = b) : b = [] := by
  change (checked [3] b).bind (fun fs => some (chatMsgOf fs)) = some m at h
  obtain ⟨fs, hfs, hm'⟩ := Option.bind_eq_some_iff.1 h
  have hdecode := (checked_eq_some hfs).1
  cases hm'
  by_contra hne
  have hpos : 0 < b.length := List.length_pos_iff.2 hne
  have hlen : (chatMsgOf fs).content.length ≤ b.length - 1 :=
    length_lastLen_le fun x hx => Nat.le_sub_one_of_lt (length_of_decode hdecode hx)
  rw [hm] at hlen
  omega

end Protobuf

end AimChat
