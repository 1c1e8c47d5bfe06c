import AimChat.Agent.MemoryCache
import AimChat.Lib.Timed

/-! # Concurrent calls of the memory cache

Any number of goroutines call a `MemoryCache`. A step is one section under its lock, or the check that
`Get` makes on an entry between its two sections; a call that is not over is a `Pending`, with the
variables it goes on with. The sections of different calls come in any order; those of a call that runs alone
are the call (`run_getAlone`, `run_appendAlone`). -/

namespace AimChat.Agent

open Go

/-- A call between two of its steps. -/
inductive Pending
  /-- `Get(key)` with the pointer it read. -/
  | getting (key : Bytes) (entry : Addr)
  /-- `Get(key)` that found its entry expired. -/
  | deleting (key : Bytes)
  /-- `AppendHistory(userID, msg, maxLen)` with the pointer its `GetHistory` read. -/
  | appending (userID : Int) (msg : Message) (maxLen : Nat) (entry : Option Addr)
  deriving DecidableEq

/-- A step of a call. -/
inductive Step
  /-- The locked read of `Get`. -/
  | getRead (key : Bytes)
  /-- The check of `Get` on the entry it read. -/
  | getCheck (key : Bytes) (entry : Addr)
  /-- The locked delete of `Get`. -/
  | getDelete (key : Bytes)
  | set (key value : Bytes) (ttl : Duration)
  | del (key : Bytes)
  | incrWithTTL (key : Bytes) (ttl : Duration)
  | cleanExpired
  /-- The locked read of `AppendHistory`. -/
  | appendRead (userID : Int) (msg : Message) (maxLen : Nat)
  /-- The locked write of `AppendHistory`. -/
  | appendWrite (userID : Int) (msg : Message) (maxLen : Nat) (entry : Option Addr)
  | clearHistory (userID : Int)

/-- The cache and the calls that are not over. -/
structure Goroutines where
  cache : MemoryCache
  calls : List Pending

namespace Goroutines

/-- A new cache that nobody has called. -/
def new : Goroutines := ⟨MemoryCache.new, []⟩

/-- A call comes to wait for its next step. -/
def wait (p : Pending) (g : Goroutines) : Goroutines := { g with calls := p :: g.calls }

/-- The call that makes the step, if there is one, waits for it no longer. -/
def resume (p : Pending) (g : Goroutines) : Except Unit Goroutines :=
  if p ∈ g.calls then .ok { g with calls := g.calls.erase p } else .error ()

/-- A step that changes the cache only. -/
def onCache (f : MemoryCache → MemoryCache) (g : Goroutines) : Goroutines := { g with cache := f g.cache }

variable (json : Json)

/-- One step, and when it is made. A step of a call that does not wait for it is an error. -/
def step (g : Goroutines) : Timed Int Step → Except Unit Goroutines
  | ⟨_, .getRead key⟩ =>
      match g.cache.store key with
      | none => .ok g
      | some entry => .ok (g.wait (.getting key entry))
  | ⟨now, .getCheck key entry⟩ =>
      (g.resume (.getting key entry)).map fun g' =>
        -- the entry as it is now, under its key or not
        if (g.cache.heap entry).expired now then g'.wait (.deleting key) else g'
  -- whatever entry the key has by now
  | ⟨_, .getDelete key⟩ => (g.resume (.deleting key)).map (onCache (MemoryCache.delete key))
  | ⟨now, .set key value ttl⟩ => .ok (g.onCache (MemoryCache.set key value ttl now))
  | ⟨_, .del key⟩ => .ok (g.onCache (MemoryCache.del key))
  | ⟨now, .incrWithTTL key ttl⟩ => .ok (g.onCache fun m => (m.incrWithTTL key ttl now).2)
  | ⟨now, .cleanExpired⟩ => .ok (g.onCache (MemoryCache.cleanExpired now))
  | ⟨_, .appendRead userID msg maxLen⟩ =>
      .ok (g.wait (.appending userID msg maxLen (g.cache.store (MemoryCache.historyKey userID))))
  | ⟨_, .appendWrite userID msg maxLen entry⟩ =>
      (g.resume (.appending userID msg maxLen entry)).map
        (onCache (MemoryCache.appendTo json entry userID msg maxLen))
  | ⟨_, .clearHistory userID⟩ => .ok (g.onCache (MemoryCache.clearHistory userID))

/-! ## What one step does -/

theorem resume_eq_ok {p : Pending} {g g' : Goroutines} :
    g.resume p = .ok g' ↔ p ∈ g.calls ∧ g' = { g with calls := g.calls.erase p } := by
  unfold resume
  split_ifs with h
  · simp [h, eq_comm]
  · simp [h]

/-- What a step can do. -/
inductive Stepped (g : Goroutines) : Timed Int Step → Goroutines → Prop
  /-- A `Get` finds no entry. -/
  | missed (now : Int) {key : Bytes} (h : g.cache.store key = none) : Stepped g ⟨now, .getRead key⟩ g
  /-- A `Get` finds an entry. -/
  | read (now : Int) {key : Bytes} {entry : Addr} (h : g.cache.store key = some entry) :
      Stepped g ⟨now, .getRead key⟩ (g.wait (.getting key entry))
  /-- The entry a `Get` read has not expired. -/
  | current {now : Int} {key : Bytes} {entry : Addr} (hp : .getting key entry ∈ g.calls)
      (h : (g.cache.heap entry).expired now = false) :
      Stepped g ⟨now, .getCheck key entry⟩ { g with calls := g.calls.erase (.getting key entry) }
  /-- The entry a `Get` read has expired. -/
  | expired {now : Int} {key : Bytes} {entry : Addr} (hp : .getting key entry ∈ g.calls)
      (h : (g.cache.heap entry).expired now = true) :
      Stepped g ⟨now, .getCheck key entry⟩
        { g with calls := .deleting key :: g.calls.erase (.getting key entry) }
  | getDelete (now : Int) {key : Bytes} (hp : .deleting key ∈ g.calls) :
      Stepped g ⟨now, .getDelete key⟩ ⟨g.cache.delete key, g.calls.erase (.deleting key)⟩
  | set (now : Int) (key value : Bytes) (ttl : Duration) :
      Stepped g ⟨now, .set key value ttl⟩ ⟨g.cache.set key value ttl now, g.calls⟩
  | del (now : Int) (key : Bytes) : Stepped g ⟨now, .del key⟩ ⟨g.cache.del key, g.calls⟩
  | incrWithTTL (now : Int) (key : Bytes) (ttl : Duration) :
      Stepped g ⟨now, .incrWithTTL key ttl⟩ ⟨(g.cache.incrWithTTL key ttl now).2, g.calls⟩
  | cleanExpired (now : Int) : Stepped g ⟨now, .cleanExpired⟩ ⟨g.cache.cleanExpired now, g.calls⟩
  | appendRead (now : Int) (userID : Int) (msg : Message) (maxLen : Nat) :
      Stepped g ⟨now, .appendRead userID msg maxLen⟩
        (g.wait (.appending userID msg maxLen (g.cache.store (MemoryCache.historyKey userID))))
  | appendWrite (now : Int) {userID : Int} {msg : Message} {maxLen : Nat} {entry : Option Addr}
      (hp : .appending userID msg maxLen entry ∈ g.calls) :
      Stepped g ⟨now, .appendWrite userID msg maxLen entry⟩
        ⟨g.cache.appendTo json entry userID msg maxLen,
          g.calls.erase (.appending userID msg maxLen entry)⟩
  | clearHistory (now userID : Int) :
      Stepped g ⟨now, .clearHistory userID⟩ ⟨g.cache.clearHistory userID, g.calls⟩

/-- **What a step can do.** -/
theorem stepped {g g' : Goroutines} {e : Timed Int Step} (h : step json g e = .ok g') :
    Stepped json g e g' := by
  obtain ⟨now, call⟩ := e
  cases call with
  | getRead key =>
      rw [step] at h
      cases hentry : g.cache.store key with
      | none =>
          rw [hentry] at h
          cases h
          exact .missed now hentry
      | some entry =>
          rw [hentry] at h
          cases h
          exact .read now hentry
  | getCheck key entry =>
      obtain ⟨g₁, hresume, rfl⟩ := Run.map_eq_ok.1 h
      obtain ⟨hp, rfl⟩ := resume_eq_ok.1 hresume
      split_ifs with hexpired
      · exact .expired hp hexpired
      · exact .current hp (Bool.eq_false_iff.2 hexpired)
  | getDelete key =>
      obtain ⟨g₁, hresume, rfl⟩ := Run.map_eq_ok.1 h
      obtain ⟨hp, rfl⟩ := resume_eq_ok.1 hresume
      exact .getDelete now hp
  | set key value ttl =>
      cases h
      exact .set now key value ttl
  | del key =>
      cases h
      exact .del now key
  | incrWithTTL key ttl =>
      cases h
      exact .incrWithTTL now key ttl
  | cleanExpired =>
      cases h
      exact .cleanExpired now
  | appendRead userID msg maxLen =>
      cases h
      exact .appendRead now userID msg maxLen
  | appendWrite userID msg maxLen entry =>
      obtain ⟨g₁, hresume, rfl⟩ := Run.map_eq_ok.1 h
      obtain ⟨hp, rfl⟩ := resume_eq_ok.1 hresume
      exact .appendWrite now hp
  | clearHistory userID =>
      cases h
      exact .clearHistory now userID

/-! ## Calls that run alone -/

/-- The steps of a `Get` that nobody comes between. -/
def getAlone (key : Bytes) (now : Int) (m : MemoryCache) : List (Timed Int Step) :=
  ⟨now, .getRead key⟩ ::
    match m.store key with
    | none => []
    | some entry =>
        ⟨now, .getCheck key entry⟩ :: if (m.heap entry).expired now then [⟨now, .getDelete key⟩] else []

/-- **The steps are the call**, of a `Get` that runs alone. -/
theorem run_getAlone (key : Bytes) (now : Int) (m : MemoryCache) :
    Run.run (step json) ⟨m, []⟩ (getAlone key now m) = .ok ⟨(m.get key now).2, []⟩ := by
  have hresume : ∀ p, resume p ⟨m, [p]⟩ = .ok ⟨m, []⟩ := fun p => by
    simp [resume]
  unfold getAlone MemoryCache.get
  cases hentry : m.store key with
  | none => simp [Run.run, step, hentry]
  | some entry =>
      cases hexpired : (m.heap entry).expired now with
      | false => simp [Run.run, step, wait, hentry, hexpired, hresume, Except.map]
      | true => simp [Run.run, step, wait, onCache, hentry, hexpired, hresume, Except.map]

/-- The steps of an `AppendHistory` that runs alone are the call. -/
theorem run_appendAlone (userID : Int) (msg : Message) (maxLen : Nat) (now : Int) (m : MemoryCache) :
    Run.run (step json) ⟨m, []⟩ [⟨now, .appendRead userID msg maxLen⟩,
        ⟨now, .appendWrite userID msg maxLen (m.store (MemoryCache.historyKey userID))⟩] =
      .ok ⟨m.appendHistory json userID msg maxLen, []⟩ := by
  simp [Run.run, step, wait, resume, onCache, MemoryCache.appendHistory, Except.map]

end Goroutines

end AimChat.Agent
