import AimChat.Agent.Message
import AimChat.Agent.Redis

/-! # The cache in Redis

`RedisCache` of goagent over the commands of a server. A pipeline's commands run at one time. -/

namespace AimChat.Agent

open Go

namespace RedisCache

/-- `keyPrefix` -/
def keyPrefix : Bytes := str "goagent:"

/-- `fullKey(key)` -/
def fullKey (key : Bytes) : Bytes := keyPrefix ++ key

/-- `historyKey(userID)` -/
def historyKey (userID : Int) : Bytes := keyPrefix ++ str "chat:history:" ++ printInt userID

/-- Different keys stay different. -/
theorem fullKey_injective {key key' : Bytes} (h : fullKey key = fullKey key') : key = key' :=
  List.append_cancel_left h

/-- A user's history key belongs to no other user. -/
theorem historyKey_injective {userID userID' : Int} (h : historyKey userID = historyKey userID') :
    userID = userID' :=
  printInt_injective (List.append_cancel_left h)

/-- Seven days. -/
def week : Duration := .secs 604800 (by decide)

variable (r : Redis) (json : Json)

/-- `GetHistory(userID, limit)` -/
def getHistory (userID : Int) (limit : Nat) (now : Int) (s : r.State) : List Message :=
  (r.lrange (historyKey userID) (-limit) (-1) now s).filterMap json.unmarshalMessage

/-- `AppendHistory(userID, msg, maxLen)` -/
def appendHistory (userID : Int) (msg : Message) (maxLen : Nat) (now : Int) (s : r.State) : r.State :=
  match json.marshalMessage msg with
  | none => s
  | some data =>
      -- in one transaction
      let s := r.rpush (historyKey userID) data now s
      let s := r.ltrim (historyKey userID) (-maxLen) (-1) now s
      r.expire (historyKey userID) week now s

/-- `ClearHistory(userID)` -/
def clearHistory (userID now : Int) (s : r.State) : r.State := r.del (historyKey userID) now s

/-- `Get(key)` -/
def get (key : Bytes) (now : Int) (s : r.State) : Bytes := (r.get (fullKey key) now s).getD []

/-- `Set(key, value, ttl)` -/
def set (key value : Bytes) (ttl : Duration) (now : Int) (s : r.State) : r.State :=
  r.set (fullKey key) value ttl now s

/-- `Del(key)` -/
def del (key : Bytes) (now : Int) (s : r.State) : r.State := r.del (fullKey key) now s

/-- `IncrWithTTL(key, ttl)` -/
def incrWithTTL (key : Bytes) (ttl : Duration) (now : Int) (s : r.State) : Except Unit Int × r.State :=
  match r.incr (fullKey key) now s with
  | (.error e, s) => (.error e, s)
  -- a window that is open keeps its end
  | (.ok val, s) => (.ok val, if val = 1 then r.expire (fullKey key) ttl now s else s)

/-! ## Histories -/

section Histories

variable {r} {json} {s : r.State} {userID now : Int} {msg : Message} {maxLen : Nat}

/-- What an append pushes is trimmed and expires a week later. -/
theorem entry_appendHistory (hr : r.LawfulLists) (maxLen : Nat) {data : Bytes}
    (hdata : json.marshalMessage msg = some data) {items : List Bytes} {expireAt : Option Int}
    (hpushed : r.entry (r.rpush (historyKey userID) data now s) (historyKey userID) =
      some ⟨.list items, expireAt⟩)
    (hbefore : ∀ t ∈ expireAt, now < t) (hne : listRange (-maxLen) (-1) items ≠ []) :
    r.entry (appendHistory r json userID msg maxLen now s) (historyKey userID) =
      some ⟨.list (listRange (-maxLen) (-1) items), some (Time.add now week)⟩ := by
  have htrimmed : r.entry (r.ltrim (historyKey userID) (-maxLen) (-1) now
      (r.rpush (historyKey userID) data now s)) (historyKey userID) = _ :=
    hr.ltrim_present (Redis.settled_of_before hpushed hbefore) (Redis.live_of_before hpushed hbefore)
  rw [if_neg hne] at htrimmed
  unfold appendHistory
  rw [hdata]
  exact hr.expire_self (Redis.settled_of_before htrimmed hbefore) (by decide)
    (Redis.live_of_before htrimmed hbefore)

/-- The other users' histories stay as they are. -/
theorem entry_appendHistory_other (hr : r.LawfulLists) {userID' : Int} (hne : userID' ≠ userID) :
    r.entry (appendHistory r json userID msg maxLen now s) (historyKey userID') =
      r.entry s (historyKey userID') := by
  have hne' : historyKey userID' ≠ historyKey userID := fun h => hne (historyKey_injective h)
  unfold appendHistory
  cases json.marshalMessage msg with
  | none => rfl
  | some data =>
      dsimp only
      rw [hr.expire_other hne', hr.ltrim_other hne', hr.rpush_other hne']

end Histories

/-! ## Counting -/

section Counting

variable {r} {s : r.State} {key : Bytes} {ttl : Duration} {now : Int}

/-- A call whose `INCR` returned a count returns it, and sets when the key expires if it is the first. -/
theorem incrWithTTL_of_ok {val : Int} (h : (r.incr (fullKey key) now s).1 = .ok val) :
    incrWithTTL r key ttl now s = (.ok val,
      if val = 1 then r.expire (fullKey key) ttl now (r.incr (fullKey key) now s).2
      else (r.incr (fullKey key) now s).2) := by
  unfold incrWithTTL
  rcases hincr : r.incr (fullKey key) now s with ⟨val', s'⟩
  rw [hincr] at h
  obtain rfl : val' = .ok val := h
  rfl

/-- A missing key starts at 1 and expires a `ttl` later. -/
theorem incrWithTTL_of_missing (hr : r.LawfulCounters) (hsettled : r.Settled s (fullKey key) now)
    (httl : 0 < ttl.ns) (hlive : r.live s (fullKey key) now = none) :
    (incrWithTTL r key ttl now s).1 = .ok 1 ∧
      r.entry (incrWithTTL r key ttl now s).2 (fullKey key) =
        some ⟨.string (printInt 1), some (Time.add now ttl)⟩ := by
  obtain ⟨hval, hentry⟩ := hr.incr_missing hsettled hlive
  rw [incrWithTTL_of_ok hval, if_pos rfl]
  exact ⟨rfl, hr.expire_self (Redis.settled_of_persistent hentry) httl (Redis.live_of_persistent hentry)⟩

/-- A key that is there counts on and keeps its expiry. -/
theorem incrWithTTL_of_present (hr : r.LawfulCounters) (ttl : Duration)
    (hsettled : r.Settled s (fullKey key) now) {n : Int} {expireAt : Option Int}
    (hlive : r.live s (fullKey key) now = some ⟨.string (printInt n), expireAt⟩)
    (hn : 1 ≤ n) (hlt : n < 9223372036854775807) :
    (incrWithTTL r key ttl now s).1 = .ok (n + 1) ∧
      r.entry (incrWithTTL r key ttl now s).2 (fullKey key) = some ⟨.string (printInt (n + 1)), expireAt⟩ := by
  have hint : IsInt64 n := by
    unfold IsInt64
    omega
  obtain ⟨hval, hentry⟩ := hr.incr_present hsettled hlive hint hlt
  rw [incrWithTTL_of_ok hval, if_neg (by omega)]
  exact ⟨rfl, hentry⟩

/-- The other keys stay as they are. -/
theorem incrWithTTL_other (hr : r.LawfulCounters) {key' : Bytes} (hne : key' ≠ key) :
    r.entry (incrWithTTL r key ttl now s).2 (fullKey key') = r.entry s (fullKey key') := by
  have hne' : fullKey key' ≠ fullKey key := fun h => hne (fullKey_injective h)
  have hother : r.entry (r.incr (fullKey key) now s).2 (fullKey key') = r.entry s (fullKey key') :=
    hr.incr_other hne'
  unfold incrWithTTL
  cases hincr : r.incr (fullKey key) now s with
  | mk val s' =>
      rw [hincr] at hother
      cases val with
      | error e => exact hother
      | ok val =>
          dsimp only
          split_ifs
          · exact (hr.expire_other hne').trans hother
          · exact hother

end Counting

end RedisCache

end AimChat.Agent
