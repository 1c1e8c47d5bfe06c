import AimChat.Base.Go
import Mathlib.Logic.Function.Basic

/-! # Redis

The commands `RedisCache` sends through go-redis, as a parameter. What it relies on of them is stated as
laws, one structure for each kind of value. At the very instant at which a key expires the laws say nothing
of its commands. `Redis.onMap` is a server that meets all of them. -/

namespace AimChat.Agent

open Go

/-- What is kept under a key. -/
inductive RedisValue
  | string (value : Bytes)
  | list (items : List Bytes)
  deriving DecidableEq

/-- A value, and when it expires. -/
structure RedisEntry where
  value : RedisValue
  expireAt : Option Int
  deriving DecidableEq

/-- A server, and the commands the cache sends to it. The times are those the server runs a command at. -/
structure Redis where
  State : Type
  empty : State
  /-- What was last written under a key and not deleted since, whether its time is over or not. -/
  entry : State → Bytes → Option RedisEntry
  /-- `INCR key` -/
  incr : Bytes → Int → State → Except Unit Int × State
  /-- `EXPIRE key ttl` -/
  expire : Bytes → Duration → Int → State → State
  /-- go-redis' `Set(key, value, ttl)` -/
  set : Bytes → Bytes → Duration → Int → State → State
  /-- `GET key`; `none` is `redis.Nil`. -/
  get : Bytes → Int → State → Option Bytes
  /-- `DEL key` -/
  del : Bytes → Int → State → State
  /-- `RPUSH key data` -/
  rpush : Bytes → Bytes → Int → State → State
  /-- `LTRIM key start stop` -/
  ltrim : Bytes → Int → Int → Int → State → State
  /-- `LRANGE key start stop` -/
  lrange : Bytes → Int → Int → Int → State → List Bytes

/-- The items from `start` to `stop`, both included; a negative index counts from the end. -/
def listRange {α : Type} (start stop : Int) (items : List α) : List α :=
  -- from before the first item is from the first one on
  let ofEnd (i : Int) := if i < 0 then i + items.length else i
  (items.take (ofEnd stop + 1).toNat).drop (ofEnd start).toNat

/-- The range from `-n` to `-1` is that of the last `n` items, or of all when there are fewer. -/
theorem listRange_last {α : Type} {n : Nat} (hn : 1 ≤ n) (items : List α) :
    listRange (-n) (-1) items = items.drop (items.length - n) := by
  unfold listRange
  dsimp only
  rw [if_pos (by omega), if_pos (by omega), List.take_of_length_le (by omega)]
  congr 1
  omega

namespace Redis

/-- An entry that has not expired. -/
def liveOf (entry : Option RedisEntry) (now : Int) : Option RedisEntry :=
  entry.filter fun entry => entry.expireAt.all (now < ·)

variable (r : Redis)

/-- The key is not at the instant at which it expires. -/
def Settled (s : r.State) (key : Bytes) (now : Int) : Prop :=
  ∀ entry, r.entry s key = some entry → entry.expireAt ≠ some now

/-- The key as commands see it: one whose time is over is missing. -/
def live (s : r.State) (key : Bytes) (now : Int) : Option RedisEntry := liveOf (r.entry s key) now

variable {r} {s : r.State} {key : Bytes} {now : Int}

theorem live_of_entry_none (h : r.entry s key = none) : r.live s key now = none := by
  rw [live, h, liveOf, Option.filter_none]

theorem settled_of_entry_none (h : r.entry s key = none) : r.Settled s key now := by
  rintro entry hentry
  cases h.symm.trans hentry

/-- A key is there before it expires. -/
theorem live_of_before {entry : RedisEntry} (h : r.entry s key = some entry)
    (hbefore : ∀ t ∈ entry.expireAt, now < t) : r.live s key now = some entry := by
  rw [live, h, liveOf, Option.filter_some]
  cases hexpire : entry.expireAt with
  | none => rfl
  | some t => exact if_pos (decide_eq_true (hbefore t hexpire))

theorem settled_of_before {entry : RedisEntry} (h : r.entry s key = some entry)
    (hbefore : ∀ t ∈ entry.expireAt, now < t) : r.Settled s key now := by
  rintro entry' hentry' hinstant
  cases h.symm.trans hentry'
  exact lt_irrefl _ (hbefore now hinstant)

/-- Without an expiry it stays. -/
theorem live_of_persistent {value : RedisValue} (h : r.entry s key = some ⟨value, none⟩) :
    r.live s key now = some ⟨value, none⟩ :=
  live_of_before h fun _ ht => absurd ht (Option.not_mem_none _)

theorem settled_of_persistent {value : RedisValue} (h : r.entry s key = some ⟨value, none⟩) :
    r.Settled s key now :=
  settled_of_before h fun _ ht => absurd ht (Option.not_mem_none _)

theorem live_of_lt {value : RedisValue} {expireAt : Int} (h : r.entry s key = some ⟨value, some expireAt⟩)
    (hlt : now < expireAt) : r.live s key now = some ⟨value, some expireAt⟩ :=
  live_of_before h fun _ ht => Option.some.inj ht ▸ hlt

/-- A key is missing when it has expired. -/
theorem live_of_gt {value : RedisValue} {expireAt : Int} (h : r.entry s key = some ⟨value, some expireAt⟩)
    (hlt : expireAt < now) : r.live s key now = none := by
  rw [live, h, liveOf, Option.filter_some]
  exact if_neg fun htrue => absurd (of_decide_eq_true htrue) (lt_asymm hlt)

theorem settled_of_ne {value : RedisValue} {expireAt : Int} (h : r.entry s key = some ⟨value, some expireAt⟩)
    (hne : expireAt ≠ now) : r.Settled s key now := by
  rintro entry hentry
  cases h.symm.trans hentry
  exact fun hexpire => hne (Option.some.inj hexpire)

variable (r)

/-- Keys: a new server has none, `EXPIRE` sets when one expires, `DEL` removes it. -/
structure LawfulKeys : Prop where
  entry_empty : ∀ key, r.entry r.empty key = none
  expire_self : ∀ {s key now ttl entry}, r.Settled s key now → 0 < ttl.ns → r.live s key now = some entry →
    r.entry (r.expire key ttl now s) key = some { entry with expireAt := some (Time.add now ttl) }
  expire_other : ∀ {s key now ttl key'}, key' ≠ key → r.entry (r.expire key ttl now s) key' = r.entry s key'
  del_self : ∀ {s key now}, r.entry (r.del key now s) key = none
  del_other : ∀ {s key now key'}, key' ≠ key → r.entry (r.del key now s) key' = r.entry s key'

/-- Counters: `INCR` makes a missing key 1, and adds 1 to one that is there, which keeps its expiry. -/
structure LawfulCounters : Prop extends LawfulKeys r where
  incr_missing : ∀ {s key now}, r.Settled s key now → r.live s key now = none →
    (r.incr key now s).1 = .ok 1 ∧ r.entry (r.incr key now s).2 key = some ⟨.string (printInt 1), none⟩
  incr_present : ∀ {s key now n expireAt}, r.Settled s key now →
    r.live s key now = some ⟨.string (printInt n), expireAt⟩ → IsInt64 n → n < 9223372036854775807 →
    (r.incr key now s).1 = .ok (n + 1) ∧
      r.entry (r.incr key now s).2 key = some ⟨.string (printInt (n + 1)), expireAt⟩
  incr_other : ∀ {s key now key'}, key' ≠ key → r.entry (r.incr key now s).2 key' = r.entry s key'

/-- Strings: `SET` replaces what is there, expiry included, and with a `ttl` of 0 stores without one. Shorter
times than a millisecond are none. -/
structure LawfulStrings : Prop extends LawfulKeys r where
  set_self : ∀ {s key value ttl now}, ttl.ns = 0 ∨ 1000000 ≤ ttl.ns →
    r.entry (r.set key value ttl now s) key =
      some ⟨.string value, if ttl.ns = 0 then none else some (Time.add now ttl)⟩
  set_other : ∀ {s key value ttl now key'}, key' ≠ key →
    r.entry (r.set key value ttl now s) key' = r.entry s key'
  get_present : ∀ {s key now value expireAt}, r.Settled s key now →
    r.live s key now = some ⟨.string value, expireAt⟩ → r.get key now s = some value
  get_missing : ∀ {s key now}, r.Settled s key now → r.live s key now = none → r.get key now s = none

/-- Lists: `RPUSH` makes a missing key a list of one and appends to one that is there, `LTRIM` keeps a range
and removes a list that is empty then; both keep the expiry. `LRANGE` reads a range. -/
structure LawfulLists : Prop extends LawfulKeys r where
  rpush_missing : ∀ {s key now data}, r.Settled s key now → r.live s key now = none →
    r.entry (r.rpush key data now s) key = some ⟨.list [data], none⟩
  rpush_present : ∀ {s key now data items expireAt}, r.Settled s key now →
    r.live s key now = some ⟨.list items, expireAt⟩ →
    r.entry (r.rpush key data now s) key = some ⟨.list (items ++ [data]), expireAt⟩
  rpush_other : ∀ {s key now data key'}, key' ≠ key → r.entry (r.rpush key data now s) key' = r.entry s key'
  ltrim_present : ∀ {s key now start stop items expireAt}, r.Settled s key now →
    r.live s key now = some ⟨.list items, expireAt⟩ → r.entry (r.ltrim key start stop now s) key =
      if listRange start stop items = [] then none
      else some ⟨.list (listRange start stop items), expireAt⟩
  ltrim_other : ∀ {s key now start stop key'}, key' ≠ key →
    r.entry (r.ltrim key start stop now s) key' = r.entry s key'
  lrange_missing : ∀ {s key now start stop}, r.Settled s key now → r.live s key now = none →
    r.lrange key start stop now s = []
  lrange_present : ∀ {s key now start stop items expireAt}, r.Settled s key now →
    r.live s key now = some ⟨.list items, expireAt⟩ → r.lrange key start stop now s = listRange start stop items

/-! ## A server

What each command makes of its key, and a server that keeps the entries in a map. A command of the wrong kind
changes nothing. -/

/-- The integer a string stands for in decimal. -/
def integer (value : Bytes) : Option Int := (strtol value).filter fun n => printInt n = value ∧ IsInt64 n

/-- The decimal digits of an `int64` stand for it. -/
theorem integer_printInt {n : Int} (h : IsInt64 n) : integer (printInt n) = some n := by
  rw [integer, strtol_printInt, Option.filter_some, if_pos (by simp [h])]

def incrOf : Option RedisEntry → Except Unit Int × Option RedisEntry
  | none => (.ok 1, some ⟨.string (printInt 1), none⟩)
  | some ⟨.string value, expireAt⟩ =>
      match integer value with
      | none => (.error (), some ⟨.string value, expireAt⟩)
      | some n =>
          if n < 9223372036854775807 then (.ok (n + 1), some ⟨.string (printInt (n + 1)), expireAt⟩)
          else (.error (), some ⟨.string value, expireAt⟩)
  | some ⟨.list items, expireAt⟩ => (.error (), some ⟨.list items, expireAt⟩)

theorem incrOf_printInt {n : Int} (expireAt : Option Int) (hn : IsInt64 n) (hlt : n < 9223372036854775807) :
    incrOf (some ⟨.string (printInt n), expireAt⟩) =
      (.ok (n + 1), some ⟨.string (printInt (n + 1)), expireAt⟩) := by
  rw [incrOf, integer_printInt hn]
  exact if_pos hlt

/-- No time left removes the key at once. -/
def expireOf (ttl : Duration) (now : Int) (entry : Option RedisEntry) : Option RedisEntry :=
  if 0 < ttl.ns then entry.map fun entry => { entry with expireAt := some (Time.add now ttl) } else none

def getOf : Option RedisEntry → Option Bytes
  | some ⟨.string value, _⟩ => some value
  | _ => none

def rpushOf (data : Bytes) : Option RedisEntry → Option RedisEntry
  | none => some ⟨.list [data], none⟩
  | some ⟨.list items, expireAt⟩ => some ⟨.list (items ++ [data]), expireAt⟩
  | some ⟨.string value, expireAt⟩ => some ⟨.string value, expireAt⟩

def ltrimOf (start stop : Int) : Option RedisEntry → Option RedisEntry
  | some ⟨.list items, expireAt⟩ =>
      if listRange start stop items = [] then none else some ⟨.list (listRange start stop items), expireAt⟩
  | entry => entry

def lrangeOf (start stop : Int) : Option RedisEntry → List Bytes
  | some ⟨.list items, _⟩ => listRange start stop items
  | _ => []

/-- The server. -/
def onMap : Redis where
  State := Bytes → Option RedisEntry
  empty := fun _ => none
  entry := fun s key => s key
  incr := fun key now s =>
    ((incrOf (liveOf (s key) now)).1, Function.update s key (incrOf (liveOf (s key) now)).2)
  expire := fun key ttl now s => Function.update s key (expireOf ttl now (liveOf (s key) now))
  set := fun key value ttl now s =>
    Function.update s key (some ⟨.string value, if ttl.ns = 0 then none else some (Time.add now ttl)⟩)
  get := fun key now s => getOf (liveOf (s key) now)
  del := fun key _ s => Function.update s key none
  rpush := fun key data now s => Function.update s key (rpushOf data (liveOf (s key) now))
  ltrim := fun key start stop now s => Function.update s key (ltrimOf start stop (liveOf (s key) now))
  lrange := fun key start stop now s => lrangeOf start stop (liveOf (s key) now)

theorem onMap_lawfulKeys : onMap.LawfulKeys where
  entry_empty _ := rfl
  expire_self _ httl hlive :=
    (Function.update_self ..).trans ((congrArg (expireOf _ _) hlive).trans (if_pos httl))
  expire_other hne := Function.update_of_ne hne ..
  del_self := Function.update_self ..
  del_other hne := Function.update_of_ne hne ..

/-- It counts. -/
theorem onMap_lawfulCounters : onMap.LawfulCounters where
  toLawfulKeys := onMap_lawfulKeys
  incr_missing _ hlive := by
    have hincr := congrArg incrOf hlive
    exact ⟨congrArg Prod.fst hincr, (Function.update_self ..).trans (congrArg Prod.snd hincr)⟩
  incr_present _ hlive hn hlt := by
    have hincr := (congrArg incrOf hlive).trans (incrOf_printInt _ hn hlt)
    exact ⟨congrArg Prod.fst hincr, (Function.update_self ..).trans (congrArg Prod.snd hincr)⟩
  incr_other hne := Function.update_of_ne hne ..

/-- It keeps strings. -/
theorem onMap_lawfulStrings : onMap.LawfulStrings where
  toLawfulKeys := onMap_lawfulKeys
  set_self _ := Function.update_self ..
  set_other hne := Function.update_of_ne hne ..
  get_present _ hlive := congrArg getOf hlive
  get_missing _ hlive := congrArg getOf hlive

/-- It keeps lists. -/
theorem onMap_lawfulLists : onMap.LawfulLists where
  toLawfulKeys := onMap_lawfulKeys
  rpush_missing _ hlive := (Function.update_self ..).trans (congrArg (rpushOf _) hlive)
  rpush_present _ hlive := (Function.update_self ..).trans (congrArg (rpushOf _) hlive)
  rpush_other hne := Function.update_of_ne hne ..
  ltrim_present _ hlive := (Function.update_self ..).trans (congrArg (ltrimOf _ _) hlive)
  ltrim_other hne := Function.update_of_ne hne ..
  lrange_missing _ hlive := congrArg (lrangeOf _ _) hlive
  lrange_present _ hlive := congrArg (lrangeOf _ _) hlive

end Redis

end AimChat.Agent
