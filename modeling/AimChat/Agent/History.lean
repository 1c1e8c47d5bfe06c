import AimChat.Agent.Encoding
import AimChat.Agent.MemoryCache
import AimChat.Agent.RedisCache
import AimChat.Lib.Timed
import Mathlib.Tactic.MkIffOfInductiveProp

/-! # Histories in memory and in Redis

In memory a history is a JSON array that is cut to its last messages before and behind an append; in Redis
it is a list that is pushed to and trimmed with indices from the end. Both are the last messages of what was
appended (`Holds`, kept by each call). In Redis a history is over seven days behind its last append, in
memory never. -/

namespace AimChat.Agent

open Go

namespace History

/-- A call, or a turn of the sweep in memory. -/
inductive Call
  | append (userID : Int) (msg : Message) (maxLen : Nat)
  | get (userID : Int) (limit : Nat)
  | clear (userID : Int)
  | sweep

/-- The messages of a user, and when the last one was appended. -/
structure Kept where
  messages : List Message
  appendedAt : Int

/-- The two caches, and the messages each user has kept since the last `ClearHistory`. -/
structure Both (r : Redis) where
  memory : MemoryCache
  redis : r.State
  kept : Int → Option Kept

variable {r : Redis} {json : Json}

/-- Two empty stores. -/
def Both.new (r : Redis) : Both r := ⟨MemoryCache.new, r.empty, fun _ => none⟩

/-- The messages of a user. -/
def Both.messages (b : Both r) (userID : Int) : List Message :=
  match b.kept userID with
  | none => []
  | some kept => kept.messages

variable (json) in
/-- One call on both. -/
def Both.next (b : Both r) : Timed Int Call → Both r
  | ⟨now, .append userID msg maxLen⟩ =>
      ⟨b.memory.appendHistory json userID msg maxLen,
        RedisCache.appendHistory r json userID msg maxLen now b.redis,
        Function.update b.kept userID (some ⟨keepLast maxLen (b.messages userID ++ [msg]), now⟩)⟩
  | ⟨_, .get ..⟩ => b
  | ⟨now, .clear userID⟩ =>
      ⟨b.memory.clearHistory userID, RedisCache.clearHistory r userID now b.redis,
        Function.update b.kept userID none⟩
  | ⟨now, .sweep⟩ => { b with memory := b.memory.cleanExpired now }

variable (json) in
/-- `GetHistory` returns the last messages of the user in memory. It does in Redis less than seven days behind
the user's last append, and the empty list after that time. -/
def ReturnsLast (b : Both r) : Timed Int Call → Prop
  | ⟨now, .get userID limit⟩ =>
      b.memory.getHistory json userID limit = keepLast limit (b.messages userID) ∧
      ((∀ kept ∈ b.kept userID, now < Time.add kept.appendedAt RedisCache.week) →
        RedisCache.getHistory r json userID limit now b.redis = keepLast limit (b.messages userID)) ∧
      ∀ kept ∈ b.kept userID, Time.add kept.appendedAt RedisCache.week < now →
        RedisCache.getHistory r json userID limit now b.redis = []
  | _ => True

/-- An `AppendHistory` comes less than seven days behind the user's last one. -/
def AppendsInTime (b : Both r) : Timed Int Call → Prop
  | ⟨now, .append userID _ _⟩ => ∀ kept ∈ b.kept userID, now < Time.add kept.appendedAt RedisCache.week
  | _ => True

/-- The bounds are positive. -/
def BoundsOk (e : Timed Int Call) : Prop :=
  match e.call with
  | .append _ _ maxLen => 1 ≤ maxLen
  | .get _ limit => 1 ≤ limit
  | _ => True

/-! ## What a user's key holds -/

variable (json) in
/-- The item of a message. -/
def item (msg : Message) : Bytes := (json.marshalMessage msg).getD []

theorem marshalMessage_eq (hjson : json.Lawful) (msg : Message) :
    json.marshalMessage msg = some (item json msg) := by
  obtain ⟨data, hdata, -⟩ := hjson.message msg
  rw [item, hdata, Option.getD_some]

/-- The items of messages are read back as these. -/
theorem filterMap_item (hjson : json.Lawful) (msgs : List Message) :
    (msgs.map (item json)).filterMap json.unmarshalMessage = msgs := by
  have hread : ∀ msg, json.unmarshalMessage (item json msg) = some msg := fun msg => by
    obtain ⟨data, hdata, hread⟩ := hjson.message msg
    rw [item, hdata, Option.getD_some, hread]
  rw [List.filterMap_map]
  exact (List.filterMap_congr fun msg _ => hread msg).trans List.filterMap_some

variable (json) in
/-- The range of the last items is the items of the last messages. -/
theorem listRange_items {n : Nat} (hn : 1 ≤ n) (msgs : List Message) :
    listRange (-n) (-1) (msgs.map (item json)) = (keepLast n msgs).map (item json) := by
  rw [listRange_last hn, List.length_map, keepLast_eq_drop, List.map_drop]

variable (json) in
/-- What a user's key holds in memory and in Redis. -/
@[mk_iff]
inductive Holds : Option MemEntry → Option RedisEntry → Option Kept → Prop
  | none : Holds none none none
  | some (kept : Kept) (hne : kept.messages ≠ []) :
      Holds (some ⟨json.marshalList kept.messages, none⟩)
        (some ⟨.list (kept.messages.map (item json)), some (Time.add kept.appendedAt RedisCache.week)⟩)
        (some kept)

variable (json) in
/-- Every user's key does. -/
def HoldsAll (b : Both r) : Prop :=
  ∀ userID, Holds json (b.memory.lookup (MemoryCache.historyKey userID))
    (r.entry b.redis (RedisCache.historyKey userID)) (b.kept userID)

variable {b : Both r} {e : Timed Int Call} {userID now : Int}

/-- The messages stored in memory are the user's. -/
theorem stored_eq (hjson : json.Lawful) (h : HoldsAll json b) :
    b.memory.stored json userID = b.messages userID := by
  rw [MemoryCache.stored, Both.messages]
  rcases (holds_iff ..).1 (h userID) with ⟨hlookup, -, hkept⟩ | ⟨kept, -, hlookup, -, hkept⟩
  · rw [hlookup, hkept]
  · rw [hlookup, hkept]
    exact hjson.list _

/-- What an append pushes in Redis are the items of the user's messages and its own. -/
theorem exists_pushed (hr : r.LawfulLists) (h : HoldsAll json b) (msg : Message)
    (htime : ∀ kept ∈ b.kept userID, now < Time.add kept.appendedAt RedisCache.week) :
    ∃ expireAt, r.entry (r.rpush (RedisCache.historyKey userID) (item json msg) now b.redis)
        (RedisCache.historyKey userID) =
        some ⟨.list ((b.messages userID ++ [msg]).map (item json)), expireAt⟩ ∧
      ∀ t ∈ expireAt, now < t := by
  rw [Both.messages, List.map_append]
  rcases (holds_iff ..).1 (h userID) with ⟨-, hentry, hkept⟩ | ⟨kept, -, -, hentry, hkept⟩
  · rw [hkept]
    exact ⟨none, hr.rpush_missing (Redis.settled_of_entry_none hentry) (Redis.live_of_entry_none hentry),
      fun _ ht => absurd ht (Option.not_mem_none _)⟩
  · have hlt := htime kept hkept
    rw [hkept]
    exact ⟨_, hr.rpush_present (Redis.settled_of_ne hentry hlt.ne') (Redis.live_of_lt hentry hlt),
      fun _ ht => Option.some.inj ht ▸ hlt⟩

/-- An append leaves the last messages of the user's and its own. -/
theorem holds_append (hr : r.LawfulLists) (hjson : json.Lawful) (h : HoldsAll json b) {msg : Message}
    {maxLen : Nat} (hmax : 1 ≤ maxLen)
    (htime : ∀ kept ∈ b.kept userID, now < Time.add kept.appendedAt RedisCache.week) :
    Holds json ((b.memory.appendHistory json userID msg maxLen).lookup (MemoryCache.historyKey userID))
      (r.entry (RedisCache.appendHistory r json userID msg maxLen now b.redis) (RedisCache.historyKey userID))
      (some ⟨keepLast maxLen (b.messages userID ++ [msg]), now⟩) := by
  -- an empty list would be removed by `LTRIM`
  have hne : keepLast maxLen (b.messages userID ++ [msg]) ≠ [] := by
    rw [← List.length_pos_iff, length_keepLast, List.length_append, List.length_singleton]
    omega
  obtain ⟨expireAt, hpushed, hbefore⟩ := exists_pushed hr h msg htime
  have hrange := listRange_items json hmax (b.messages userID ++ [msg])
  have hredis := RedisCache.entry_appendHistory hr maxLen (marshalMessage_eq hjson msg) hpushed hbefore
    (by rwa [hrange, ne_eq, List.map_eq_nil_iff])
  rw [MemoryCache.lookup_appendHistory, if_pos rfl, stored_eq hjson h, hredis, hrange]
  exact .some ⟨_, now⟩ hne

/-- **One call** leaves every user's key with the last messages. -/
theorem holdsAll_next (hr : r.LawfulLists) (hjson : json.Lawful) (h : HoldsAll json b) (hbounds : BoundsOk e)
    (htime : AppendsInTime b e) : HoldsAll json (b.next json e) := by
  obtain ⟨now, call⟩ := e
  intro userID'
  have hkey := h userID'
  cases call with
  | append userID msg maxLen =>
      show Holds json
        ((b.memory.appendHistory json userID msg maxLen).lookup (MemoryCache.historyKey userID'))
        (r.entry (RedisCache.appendHistory r json userID msg maxLen now b.redis)
          (RedisCache.historyKey userID'))
        (Function.update b.kept userID (some ⟨keepLast maxLen (b.messages userID ++ [msg]), now⟩) userID')
      by_cases hne : userID' = userID
      · subst hne
        rw [Function.update_self]
        exact holds_append hr hjson h hbounds htime
      · rw [MemoryCache.lookup_appendHistory, if_neg fun h => hne (MemoryCache.historyKey_injective h),
          RedisCache.entry_appendHistory_other hr hne, Function.update_of_ne hne]
        exact hkey
  | get => exact hkey
  | clear userID =>
      show Holds json
        ((b.memory.delete (MemoryCache.historyKey userID)).lookup (MemoryCache.historyKey userID'))
        (r.entry (r.del (RedisCache.historyKey userID) now b.redis) (RedisCache.historyKey userID'))
        (Function.update b.kept userID none userID')
      rw [MemoryCache.lookup_delete]
      by_cases hne : userID' = userID
      · subst hne
        rw [if_pos rfl, hr.del_self, Function.update_self]
        exact .none
      · rw [if_neg fun h => hne (MemoryCache.historyKey_injective h),
          hr.del_other fun h => hne (RedisCache.historyKey_injective h), Function.update_of_ne hne]
        exact hkey
  | sweep =>
      show Holds json ((b.memory.cleanExpired now).lookup (MemoryCache.historyKey userID'))
        (r.entry b.redis (RedisCache.historyKey userID')) (b.kept userID')
      rw [MemoryCache.lookup_cleanExpired]
      -- a history has no expiry in memory
      rcases (holds_iff ..).1 hkey with ⟨hlookup, hentry, hkept⟩ | ⟨kept, hne, hlookup, hentry, hkept⟩
      · rw [MemoryCache.current_of_lookup_none hlookup, hentry, hkept]
        exact .none
      · rw [MemoryCache.current_of_persistent hlookup, hentry, hkept]
        exact .some kept hne

/-- **One `GetHistory`.** -/
theorem returnsLast_of_holds (hr : r.LawfulLists) (hjson : json.Lawful) (h : HoldsAll json b)
    (hbounds : BoundsOk e) : ReturnsLast json b e := by
  obtain ⟨now, call⟩ := e
  cases call with
  | append | clear | sweep => trivial
  | get userID limit =>
      have hlimit : 1 ≤ limit := hbounds
      refine ⟨by rw [MemoryCache.getHistory_eq, stored_eq hjson h], ?_⟩
      rw [Both.messages, RedisCache.getHistory]
      rcases (holds_iff ..).1 (h userID) with ⟨-, hentry, hkept⟩ | ⟨kept, -, -, hentry, hkept⟩
      · rw [hkept, hr.lrange_missing (Redis.settled_of_entry_none hentry) (Redis.live_of_entry_none hentry)]
        exact ⟨fun _ => (keepLast_nil limit).symm, fun _ h => absurd h (Option.not_mem_none _)⟩
      · rw [hkept]
        refine ⟨fun htime => ?_, ?_⟩
        · have hlt := htime kept rfl
          rw [hr.lrange_present (Redis.settled_of_ne hentry hlt.ne') (Redis.live_of_lt hentry hlt),
            listRange_items json hlimit, filterMap_item hjson]
        · rintro _ ⟨⟩ hlt
          rw [hr.lrange_missing (Redis.settled_of_ne hentry hlt.ne) (Redis.live_of_gt hentry hlt)]
          rfl

/-- **The two keep the same history.** For every sequence of calls and sweeps on any users with positive
bounds, in which no append comes seven days or more behind the user's last one: from empty stores every
`GetHistory` returns the last messages of the user in memory; in Redis it does less than seven days behind
the user's last append, and returns nothing after that time. -/
theorem returnsLast (hr : r.LawfulLists) (hjson : json.Lawful) {es : List (Timed Int Call)}
    (hbounds : ∀ e ∈ es, BoundsOk e)
    (htime : Run.Always (Run.total (Both.next json) : _ → _ → Except Unit _) AppendsInTime (Both.new r) es) :
    Run.Always (Run.total (Both.next json) : _ → _ → Except Unit _) (ReturnsLast json) (Both.new r) es := by
  have hempty : HoldsAll json (Both.new r) := fun userID => by
    show Holds json none (r.entry r.empty (RedisCache.historyKey userID)) none
    rw [hr.entry_empty]
    exact .none
  refine Run.always_of_invariant (I := HoldsAll json) ?_ ?_ hempty
    (Run.always_and.2 ⟨htime, Run.always_of_forall_mem hbounds⟩)
  · rintro b e _ h ⟨htime, hbounds⟩ ⟨⟩
    exact holdsAll_next hr hjson h hbounds htime
  · rintro b e h ⟨-, hbounds⟩
    exact returnsLast_of_holds hr hjson h hbounds

/-- Three appends with different bounds, and the history in between. -/
theorem returnsLast_three :
    Run.Always (Run.total (Both.next encodingJson) : _ → _ → Except Unit _) (ReturnsLast encodingJson)
      (Both.new .onMap)
      [⟨0, .append 1 ⟨"user", "a", 0⟩ 10⟩, ⟨1, .append 1 ⟨"assistant", "b", 0⟩ 10⟩, ⟨2, .get 1 5⟩,
        ⟨3, .append 1 ⟨"user", "c", 0⟩ 2⟩, ⟨4, .get 1 5⟩] := by
  refine returnsLast Redis.onMap_lawfulLists encodingJson_lawful (by simp [BoundsOk]) ?_
  refine ⟨fun _ h => absurd h (Option.not_mem_none _), ?_⟩
  rintro _ ⟨⟩
  constructor
  · rintro kept ⟨⟩
    decide
  rintro _ ⟨⟩
  refine ⟨trivial, ?_⟩
  rintro _ ⟨⟩
  constructor
  · rintro kept ⟨⟩
    decide
  rintro _ ⟨⟩
  exact ⟨trivial, fun _ _ => trivial⟩

/-- A message appended at 0 and read eight days later: memory still has it, Redis has not. -/
theorem history_outlives_week :
    Run.Always (Run.total (Both.next encodingJson) : _ → _ → Except Unit _) AppendsInTime (Both.new .onMap)
        [⟨0, .append 1 ⟨"user", "a", 0⟩ 10⟩] ∧
      ((Both.new .onMap).next encodingJson ⟨0, .append 1 ⟨"user", "a", 0⟩ 10⟩).memory.getHistory
          encodingJson 1 5 ≠
        RedisCache.getHistory .onMap encodingJson 1 5 691200000000000
          ((Both.new .onMap).next encodingJson ⟨0, .append 1 ⟨"user", "a", 0⟩ 10⟩).redis := by
  refine ⟨⟨fun _ h => absurd h (Option.not_mem_none _), fun _ _ => trivial⟩, ?_⟩
  have hmemory :
      (MemoryCache.new.appendHistory encodingJson 1 ⟨"user", "a", 0⟩ 10).getHistory encodingJson 1 5 =
        [⟨"user", "a", 0⟩] := by
    rw [MemoryCache.getHistory_eq, MemoryCache.stored, MemoryCache.lookup_appendHistory, if_pos rfl]
    dsimp only
    rw [encodingJson_lawful.list]
    rfl
  have hredis : RedisCache.getHistory .onMap encodingJson 1 5 691200000000000
      ((Both.new .onMap).next encodingJson ⟨0, .append 1 ⟨"user", "a", 0⟩ 10⟩).redis = [] := by
    rfl
  rw [hredis]
  intro hsame
  cases hmemory.symm.trans hsame

end History

end AimChat.Agent
