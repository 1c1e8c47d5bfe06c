import AimChat.Agent.Message
import AimChat.Base.Go
import Mathlib.Logic.Function.Basic

/-! # The cache in memory

`MemoryCache` of goagent: a map from keys to pointers to entries. A pointer is a place on the heap, since
`Get` goes on using an entry after it gave back the lock, and `IncrWithTTL` changes an entry in place. What
a method does while it holds the lock is a function of its own; the methods are put together from them. -/

namespace AimChat.Agent

open Go

/-- `memEntry`; `none` is the zero time, which stands for no expiry. -/
structure MemEntry where
  value : Bytes
  expire : Option Int := none
  deriving DecidableEq

/-- `!entry.expire.IsZero() && entry.expire.Before(now)` -/
def MemEntry.expired (entry : MemEntry) (now : Int) : Bool :=
  match entry.expire with
  | none => false
  | some expire => Time.before expire now

/-- Before its time an entry has not expired. -/
theorem MemEntry.expired_mono {entry : MemEntry} {now now' : Int} (hle : now' ≤ now)
    (h : entry.expired now = false) : entry.expired now' = false := by
  obtain ⟨value, expire⟩ := entry
  cases expire with
  | none => rfl
  | some expire => exact decide_eq_false fun hlt => of_decide_eq_false h (lt_of_lt_of_le hlt hle)

/-- `*memEntry`: the place of the entry on the heap. -/
abbrev Addr := Nat

/-- `MemoryCache`, with the heap its entries are on. No two keys share an entry. -/
structure MemoryCache where
  /-- The entry a pointer points at. -/
  heap : Addr → MemEntry
  /-- Where the next entry is made. -/
  fresh : Addr
  /-- `store` -/
  store : Bytes → Option Addr
  store_lt : ∀ {key entry}, store key = some entry → entry < fresh
  store_inj : ∀ {key key' entry}, store key = some entry → store key' = some entry → key = key'

namespace MemoryCache

/-- `NewMemoryCache()` -/
def new : MemoryCache where
  heap := fun _ => ⟨[], none⟩
  fresh := 0
  store := fun _ => none
  store_lt := fun h => nomatch h
  store_inj := fun h => nomatch h

/-- What the map holds under a key. -/
def lookup (m : MemoryCache) (key : Bytes) : Option MemEntry := (m.store key).map m.heap

/-- `m.store[key] = &memEntry{...}` -/
def put (key : Bytes) (entry : MemEntry) (m : MemoryCache) : MemoryCache where
  heap := Function.update m.heap m.fresh entry
  fresh := m.fresh + 1
  store := Function.update m.store key (some m.fresh)
  store_lt := by
    intro key' a h
    by_cases hkey : key' = key
    · subst hkey
      rw [Function.update_self] at h
      cases h
      exact Nat.lt_succ_self _
    · rw [Function.update_of_ne hkey] at h
      exact Nat.lt_succ_of_lt (m.store_lt h)
  store_inj := by
    intro k k' a h h'
    -- the new place is not one an older key points at
    by_cases hk : k = key <;> by_cases hk' : k' = key
    · rw [hk, hk']
    · rw [hk, Function.update_self] at h
      rw [Function.update_of_ne hk'] at h'
      cases h
      exact absurd (m.store_lt h') (lt_irrefl _)
    · rw [hk', Function.update_self] at h'
      rw [Function.update_of_ne hk] at h
      cases h'
      exact absurd (m.store_lt h) (lt_irrefl _)
    · rw [Function.update_of_ne hk] at h
      rw [Function.update_of_ne hk'] at h'
      exact m.store_inj h h'

/-- Keep the keys that meet a condition. -/
def filter (keep : Bytes → Bool) (m : MemoryCache) : MemoryCache :=
  { m with
    store := fun key => if keep key then m.store key else none
    store_lt := by
      intro key a h
      split_ifs at h
      exact m.store_lt h
    store_inj := by
      intro key key' a h h'
      split_ifs at h h'
      exact m.store_inj h h' }

/-- `delete(m.store, key)` -/
def delete (key : Bytes) (m : MemoryCache) : MemoryCache := m.filter fun key' => key' ≠ key

/-- `entry.value = ...`, `entry.expire = ...` -/
def assign (a : Addr) (entry : MemEntry) (m : MemoryCache) : MemoryCache :=
  { m with heap := Function.update m.heap a entry }

/-! ## Reading after writing -/

@[simp] theorem lookup_new (key : Bytes) : new.lookup key = none := rfl

theorem lookup_put (key key' : Bytes) (entry : MemEntry) (m : MemoryCache) :
    (m.put key entry).lookup key' = if key' = key then some entry else m.lookup key' := by
  unfold lookup put
  dsimp only
  split_ifs with hkey
  · rw [hkey, Function.update_self, Option.map_some, Function.update_self]
  · rw [Function.update_of_ne hkey]
    exact Option.map_congr fun a ha => Function.update_of_ne (ne_of_lt (m.store_lt ha)) ..

theorem lookup_filter (keep : Bytes → Bool) (key : Bytes) (m : MemoryCache) :
    (m.filter keep).lookup key = if keep key then m.lookup key else none := by
  unfold lookup filter
  dsimp only
  split_ifs <;> rfl

theorem lookup_delete (key key' : Bytes) (m : MemoryCache) :
    (m.delete key).lookup key' = if key' = key then none else m.lookup key' := by
  rw [delete, lookup_filter]
  by_cases hkey : key' = key <;> simp [hkey]

/-- An entry that is assigned to is the one of its key. -/
theorem lookup_assign {key : Bytes} {a : Addr} {m : MemoryCache} (ha : m.store key = some a)
    (key' : Bytes) (entry : MemEntry) :
    (m.assign a entry).lookup key' = if key' = key then some entry else m.lookup key' := by
  unfold lookup assign
  dsimp only
  split_ifs with hkey
  · rw [hkey, ha, Option.map_some, Function.update_self]
  · refine Option.map_congr fun a' ha' => Function.update_of_ne ?_ ..
    rintro rfl
    exact hkey (m.store_inj ha' ha)

/-! ## The methods -/

/-- The ticker's turn of `cleanExpired`. -/
def cleanExpired (now : Int) (m : MemoryCache) : MemoryCache :=
  m.filter fun key =>
    match m.lookup key with
    | none => true
    | some entry => !entry.expired now

/-- `fmt.Sprintf("chat:history:%d", userID)` -/
def historyKey (userID : Int) : Bytes := str "chat:history:" ++ printInt userID

variable (json : Json)

/-- `GetHistory` once it holds the pointer to the entry, if there is one. -/
def historyOf (entry : Option Addr) (limit : Nat) (m : MemoryCache) : List Message :=
  match entry with
  | none => []
  | some a => keepLast limit (json.unmarshalList (m.heap a).value)

/-- `GetHistory(userID, limit)`; a negative `limit` would panic. -/
def getHistory (userID : Int) (limit : Nat) (m : MemoryCache) : List Message :=
  m.historyOf json (m.store (historyKey userID)) limit

/-- `AppendHistory(userID, msg, maxLen)` behind the locked read of its `GetHistory`. -/
def appendTo (entry : Option Addr) (userID : Int) (msg : Message) (maxLen : Nat) (m : MemoryCache) :
    MemoryCache :=
  -- the second cut keeps what the first one let through and the new message
  let msgs := keepLast maxLen (m.historyOf json entry maxLen ++ [msg])
  m.put (historyKey userID) { value := json.marshalList msgs }

/-- `AppendHistory(userID, msg, maxLen)` -/
def appendHistory (userID : Int) (msg : Message) (maxLen : Nat) (m : MemoryCache) : MemoryCache :=
  m.appendTo json (m.store (historyKey userID)) userID msg maxLen

/-- `ClearHistory(userID)` -/
def clearHistory (userID : Int) (m : MemoryCache) : MemoryCache := m.delete (historyKey userID)

/-- The messages under a user's history key. -/
def stored (userID : Int) (m : MemoryCache) : List Message :=
  match m.lookup (historyKey userID) with
  | none => []
  | some entry => json.unmarshalList entry.value

/-- `Get(key)` -/
def get (key : Bytes) (now : Int) (m : MemoryCache) : Bytes × MemoryCache :=
  match m.store key with
  | none => ([], m)
  | some entry =>
      -- with nobody in between the key still has the entry that was read
      if (m.heap entry).expired now then ([], m.delete key) else ((m.heap entry).value, m)

/-- `Set(key, value, ttl)` -/
def set (key value : Bytes) (ttl : Duration) (now : Int) (m : MemoryCache) : MemoryCache :=
  m.put key ⟨value, some (Time.add now ttl)⟩

/-- `Del(key)` -/
def del (key : Bytes) (m : MemoryCache) : MemoryCache := m.delete key

/-- `IncrWithTTL(key, ttl)` -/
def incrWithTTL (key : Bytes) (ttl : Duration) (now : Int) (m : MemoryCache) : Int × MemoryCache :=
  let opened := (1, m.put key ⟨str "1", some (Time.add now ttl)⟩)
  match m.store key with
  | none => opened
  | some entry =>
      if (m.heap entry).expired now then opened
      else
        -- the entry changes where it is: who holds its pointer sees it
        let count := wrap64 (sscanfInt (m.heap entry).value + 1)
        (count, m.assign entry ⟨printInt count, some (Time.add now ttl)⟩)

/-! ## What the methods leave under a key -/

theorem lookup_set (key key' value : Bytes) (ttl : Duration) (now : Int) (m : MemoryCache) :
    (m.set key value ttl now).lookup key' =
      if key' = key then some ⟨value, some (Time.add now ttl)⟩ else m.lookup key' :=
  lookup_put ..

theorem lookup_del (key key' : Bytes) (m : MemoryCache) :
    (m.del key).lookup key' = if key' = key then none else m.lookup key' :=
  lookup_delete ..

/-- The entry of a key, unless it has expired. -/
def current (now : Int) (key : Bytes) (m : MemoryCache) : Option MemEntry :=
  (m.lookup key).filter fun entry => !entry.expired now

/-- An entry that has not expired is the one of its key. -/
theorem lookup_of_current {now : Int} {key : Bytes} {m : MemoryCache} {entry : MemEntry}
    (h : m.current now key = some entry) : m.lookup key = some entry :=
  (Option.filter_eq_some_iff.1 h).1

theorem current_of_lookup_none {now : Int} {key : Bytes} {m : MemoryCache} (h : m.lookup key = none) :
    m.current now key = none := by
  rw [current, h, Option.filter_none]

/-- An entry is current up to its expiry. -/
theorem current_of_le {now : Int} {key : Bytes} {m : MemoryCache} {value : Bytes} {expire : Int}
    (h : m.lookup key = some ⟨value, some expire⟩) (hle : now ≤ expire) :
    m.current now key = some ⟨value, some expire⟩ := by
  have hexpired : MemEntry.expired ⟨value, some expire⟩ now = false := decide_eq_false (not_lt.2 hle)
  rw [current, h, Option.filter_some, hexpired]
  rfl

/-- Without an expiry it stays current. -/
theorem current_of_persistent {now : Int} {key : Bytes} {m : MemoryCache} {value : Bytes}
    (h : m.lookup key = some ⟨value, none⟩) : m.current now key = some ⟨value, none⟩ := by
  rw [current, h, Option.filter_some]
  rfl

/-- Behind its expiry it is not. -/
theorem current_of_gt {now : Int} {key : Bytes} {m : MemoryCache} {value : Bytes} {expire : Int}
    (h : m.lookup key = some ⟨value, some expire⟩) (hlt : expire < now) : m.current now key = none := by
  have hexpired : MemEntry.expired ⟨value, some expire⟩ now = true := decide_eq_true hlt
  rw [current, h, Option.filter_some, hexpired]
  rfl

/-- The sweep removes the expired entries. -/
theorem lookup_cleanExpired (now : Int) (key : Bytes) (m : MemoryCache) :
    (m.cleanExpired now).lookup key = m.current now key := by
  rw [cleanExpired, lookup_filter, current]
  cases m.lookup key with
  | none => rfl
  | some entry => rw [Option.filter_some]

/-- `Get` returns the value of an entry that has not expired. -/
theorem get_fst (key : Bytes) (now : Int) (m : MemoryCache) :
    (m.get key now).1 = ((m.current now key).map MemEntry.value).getD [] := by
  unfold get current lookup
  cases m.store key with
  | none => rfl
  | some a =>
      rw [Option.map_some, Option.filter_some]
      dsimp only
      cases (m.heap a).expired now <;> rfl

/-- `Get` removes the entry of its key when it has expired. -/
theorem lookup_get (key key' : Bytes) (now : Int) (m : MemoryCache) :
    (m.get key now).2.lookup key' = if key' = key then m.current now key else m.lookup key' := by
  have hcurrent : m.current now key = (m.lookup key).filter fun entry => !entry.expired now := rfl
  unfold get
  cases ha : m.store key with
  | none =>
      have hlookup : m.lookup key = none := by rw [lookup, ha, Option.map_none]
      rw [hcurrent, hlookup]
      dsimp only
      split_ifs with hkey
      · rw [hkey, hlookup, Option.filter_none]
      · rfl
  | some a =>
      have hlookup : m.lookup key = some (m.heap a) := by rw [lookup, ha, Option.map_some]
      rw [hcurrent, hlookup, Option.filter_some]
      dsimp only
      cases hexpired : (m.heap a).expired now with
      | false =>
          show m.lookup key' = if key' = key then some (m.heap a) else m.lookup key'
          split_ifs with hkey
          · rw [hkey, hlookup]
          · rfl
      | true => exact lookup_delete ..

/-- The count is 1 without an entry that has not expired, and else one more than the entry's. -/
theorem incrWithTTL_fst (key : Bytes) (ttl : Duration) (now : Int) (m : MemoryCache) :
    (m.incrWithTTL key ttl now).1 =
      match m.current now key with
      | none => 1
      | some entry => wrap64 (sscanfInt entry.value + 1) := by
  unfold incrWithTTL current lookup
  cases m.store key with
  | none => rfl
  | some a =>
      rw [Option.map_some, Option.filter_some]
      dsimp only
      cases (m.heap a).expired now <;> rfl

/-- A number that was counted is counted on. -/
theorem incrWithTTL_of_current {key : Bytes} {ttl : Duration} {now n : Int} {m : MemoryCache}
    {expire : Option Int} (h : m.current now key = some ⟨printInt n, expire⟩) (hn : IsInt64 n) :
    (m.incrWithTTL key ttl now).1 = wrap64 (n + 1) := by
  rw [incrWithTTL_fst, h]
  dsimp only
  rw [sscanfInt_printInt hn]

/-- The key holds the count, and expires a `ttl` later. -/
theorem lookup_incrWithTTL (key key' : Bytes) (ttl : Duration) (now : Int) (m : MemoryCache) :
    (m.incrWithTTL key ttl now).2.lookup key' =
      if key' = key then some ⟨printInt (m.incrWithTTL key ttl now).1, some (Time.add now ttl)⟩
      else m.lookup key' := by
  have hone : printInt 1 = str "1" := by decide +kernel
  unfold incrWithTTL
  dsimp only
  cases ha : m.store key with
  | none =>
      dsimp only
      rw [lookup_put, hone]
  | some a =>
      dsimp only
      cases (m.heap a).expired now with
      | true => exact (lookup_put ..).trans (by rw [← hone]; rfl)
      | false => exact lookup_assign ha ..

/-! ## Histories -/

section Histories

variable {json : Json} {userID : Int} {m : MemoryCache}

/-- A user's history key belongs to no other user. -/
theorem historyKey_injective {userID userID' : Int} (h : historyKey userID = historyKey userID') :
    userID = userID' :=
  printInt_injective (List.append_cancel_left h)

/-- The entry a history read finds holds the stored history. -/
theorem historyOf_store (limit : Nat) :
    m.historyOf json (m.store (historyKey userID)) limit = keepLast limit (m.stored json userID) := by
  unfold historyOf stored lookup
  cases m.store (historyKey userID) with
  | none => exact (keepLast_nil limit).symm
  | some a => rfl

/-- What a history read through a pointer keeps of a history read through it. -/
theorem keepLast_historyOf (entry : Option Addr) (k n : Nat) :
    keepLast k (m.historyOf json entry n) = m.historyOf json entry (min k n) := by
  cases entry with
  | none => exact keepLast_nil k
  | some a => exact keepLast_keepLast ..

/-- `GetHistory` returns the last messages that are stored. -/
theorem getHistory_eq (limit : Nat) : m.getHistory json userID limit = keepLast limit (m.stored json userID) :=
  historyOf_store limit

/-- An append stores the last messages of what was stored and its own. -/
theorem lookup_appendHistory (msg : Message) (maxLen : Nat) (key : Bytes) :
    (m.appendHistory json userID msg maxLen).lookup key =
      if key = historyKey userID then
        some ⟨json.marshalList (keepLast maxLen (m.stored json userID ++ [msg])), none⟩
      else m.lookup key := by
  rw [appendHistory, appendTo, lookup_put, historyOf_store,
    keepLast_append_keepLast _ _ (Nat.le_add_right _ _)]

/-- The write of an append leaves what it read, with the message behind it. -/
theorem stored_appendTo_self (hjson : json.Lawful) (entry : Option Addr) (msg : Message) (maxLen : Nat) :
    (m.appendTo json entry userID msg maxLen).stored json userID =
      keepLast maxLen (m.historyOf json entry maxLen ++ [msg]) := by
  rw [stored, appendTo, lookup_put, if_pos rfl]
  exact hjson.list _

end Histories

end MemoryCache

end AimChat.Agent
