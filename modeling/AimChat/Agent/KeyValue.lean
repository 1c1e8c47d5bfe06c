import AimChat.Agent.MemoryCache
import AimChat.Agent.RedisCache
import AimChat.Lib.Timed
import Mathlib.Tactic.MkIffOfInductiveProp

/-! # Values in memory and in Redis

`Set` with a `ttl` of 0 stores a value for good in Redis. In memory the entry expires when it is made: no
expiry is the zero time there, which `Set` never writes. Apart from this the two return the same values
(`sameValue_iff`): whatever was swept or found expired in memory is over in Redis, too. -/

namespace AimChat.Agent

open Go

namespace KeyValue

/-- A call, or a turn of the sweep in memory. -/
inductive Call
  | set (key value : Bytes) (ttl : Duration)
  | get (key : Bytes)
  | del (key : Bytes)
  | sweep
  deriving DecidableEq

/-- The last `Set` on a key. -/
structure Written where
  value : Bytes
  ttl : Duration
  setAt : Int
  deriving DecidableEq

/-- When the value expires; never with a `ttl` of 0. -/
def Written.expireAt (wr : Written) : Option Int :=
  if wr.ttl.ns = 0 then none else some (Time.add wr.setAt wr.ttl)

/-- The two caches, and for each key the last `Set` on it if it was not deleted since. -/
structure Both (r : Redis) where
  memory : MemoryCache
  redis : r.State
  written : Bytes → Option Written

variable {r : Redis}

/-- Two empty stores. -/
def Both.new (r : Redis) : Both r := ⟨MemoryCache.new, r.empty, fun _ => none⟩

/-- One call on both. -/
def Both.next (b : Both r) : Timed Int Call → Both r
  | ⟨now, .set key value ttl⟩ =>
      ⟨b.memory.set key value ttl now, RedisCache.set r key value ttl now b.redis,
        Function.update b.written key (some ⟨value, ttl, now⟩)⟩
  | ⟨now, .get key⟩ => { b with memory := (b.memory.get key now).2 }
  | ⟨now, .del key⟩ =>
      ⟨b.memory.del key, RedisCache.del r key now b.redis, Function.update b.written key none⟩
  | ⟨now, .sweep⟩ => { b with memory := b.memory.cleanExpired now }

/-- A `Get` that is not at the instant at which its value expires returns the same in memory and in Redis. -/
def SameValue (b : Both r) : Timed Int Call → Prop
  | ⟨now, .get key⟩ =>
      (∀ wr ∈ b.written key, wr.expireAt ≠ some now) →
        (b.memory.get key now).1 = RedisCache.get r key now b.redis
  | _ => True

/-- A `Get` reads no value that was set earlier with a `ttl` of 0, unless it is empty. -/
def ReadsAtOnce (b : Both r) : Timed Int Call → Prop
  | ⟨now, .get key⟩ => ∀ wr ∈ b.written key, wr.ttl.ns = 0 → wr.value ≠ [] → now ≤ wr.setAt
  | _ => True

/-- A `ttl` of 0 or of a millisecond at least. -/
def TtlOk (e : Timed Int Call) : Prop :=
  ∀ key value ttl, e.call = .set key value ttl → ttl.ns = 0 ∨ 1000000 ≤ ttl.ns

/-! ## What a key holds -/

/-- What a key holds in memory and in Redis behind the last `Set` on it. -/
@[mk_iff]
inductive Holds (now : Int) : Option MemEntry → Option RedisEntry → Option Written → Prop
  | none : Holds now none none none
  | some (wr : Written) {entry : Option MemEntry} (httl : wr.ttl.ns = 0 ∨ 1000000 ≤ wr.ttl.ns)
      (h : entry = some ⟨wr.value, some (Time.add wr.setAt wr.ttl)⟩ ∨
        entry = none ∧ Time.add wr.setAt wr.ttl < now) :
      Holds now entry (some ⟨.string wr.value, wr.expireAt⟩) (some wr)

/-- Every key holds the last `Set` on it. -/
def HoldsAll (now : Int) (b : Both r) : Prop :=
  ∀ key, Holds now (b.memory.lookup key) (r.entry b.redis (RedisCache.fullKey key)) (b.written key)

variable {now : Int} {b : Both r} {e : Timed Int Call} {m : MemoryCache} {key : Bytes}

/-- Later it still does. -/
theorem Holds.later {now' : Int} {entry : Option MemEntry} {entry' : Option RedisEntry} {wr : Option Written}
    (h : Holds now entry entry' wr) (hle : now ≤ now') : Holds now' entry entry' wr := by
  cases h with
  | none => exact .none
  | some wr httl hentry => exact .some wr httl (hentry.imp id fun h => ⟨h.1, h.2.trans_le hle⟩)

/-- Without its entry in memory, once that has expired, it still does. -/
theorem Holds.current {entry : Option RedisEntry} {wr : Option Written}
    (h : Holds now (m.lookup key) entry wr) : Holds now (m.current now key) entry wr := by
  rcases (holds_iff ..).1 h with ⟨hlookup, rfl, rfl⟩ | ⟨wr, httl, hlookup | ⟨hlookup, hlt⟩, rfl, rfl⟩
  · exact MemoryCache.current_of_lookup_none hlookup ▸ .none
  · rcases lt_or_ge (Time.add wr.setAt wr.ttl) now with hlt | hge
    · exact .some wr httl (.inr ⟨MemoryCache.current_of_gt hlookup hlt, hlt⟩)
    · exact .some wr httl (.inl (MemoryCache.current_of_le hlookup hge))
  · exact .some wr httl (.inr ⟨MemoryCache.current_of_lookup_none hlookup, hlt⟩)

/-- **One call** leaves every key with the last `Set` on it. -/
theorem holdsAll_next (hr : r.LawfulStrings) (hholds : HoldsAll now b) (hle : now ≤ e.now) (httl : TtlOk e) :
    HoldsAll e.now (b.next e) := by
  obtain ⟨now', call⟩ := e
  intro key'
  have hkey := (hholds key').later hle
  -- a command on one key leaves the others
  have hfull {key : Bytes} (hne : key' ≠ key) : RedisCache.fullKey key' ≠ RedisCache.fullKey key :=
    fun h => hne (RedisCache.fullKey_injective h)
  cases call with
  | set key value ttl =>
      show Holds now' ((b.memory.set key value ttl now').lookup key')
        (r.entry (r.set (RedisCache.fullKey key) value ttl now' b.redis) (RedisCache.fullKey key'))
        (Function.update b.written key (some ⟨value, ttl, now'⟩) key')
      rw [MemoryCache.lookup_set]
      by_cases hne : key' = key
      · subst hne
        rw [if_pos rfl, Function.update_self, hr.set_self (httl _ _ _ rfl)]
        exact .some ⟨value, ttl, now'⟩ (httl _ _ _ rfl) (.inl rfl)
      · rw [if_neg hne, Function.update_of_ne hne, hr.set_other (hfull hne)]
        exact hkey
  | get key =>
      show Holds now' ((b.memory.get key now').2.lookup key') _ (b.written key')
      rw [MemoryCache.lookup_get]
      by_cases hne : key' = key
      · subst hne
        rw [if_pos rfl]
        exact hkey.current
      · rw [if_neg hne]
        exact hkey
  | del key =>
      show Holds now' ((b.memory.del key).lookup key')
        (r.entry (r.del (RedisCache.fullKey key) now' b.redis) (RedisCache.fullKey key'))
        (Function.update b.written key none key')
      rw [MemoryCache.lookup_del]
      by_cases hne : key' = key
      · subst hne
        rw [if_pos rfl, Function.update_self, hr.del_self]
        exact .none
      · rw [if_neg hne, Function.update_of_ne hne, hr.del_other (hfull hne)]
        exact hkey
  | sweep =>
      show Holds now' ((b.memory.cleanExpired now').lookup key') _ (b.written key')
      rw [MemoryCache.lookup_cleanExpired]
      exact hkey.current

/-- What `Get` returns in memory: the value up to the end of its `ttl`. -/
theorem memory_value {wr : Written}
    (h : m.lookup key = some ⟨wr.value, some (Time.add wr.setAt wr.ttl)⟩ ∨
      m.lookup key = none ∧ Time.add wr.setAt wr.ttl < now) :
    (m.get key now).1 = if Time.add wr.setAt wr.ttl < now then [] else wr.value := by
  rw [MemoryCache.get_fst]
  rcases h with hlookup | ⟨hlookup, hlt⟩
  · split_ifs with hlt
    · rw [MemoryCache.current_of_gt hlookup hlt]
      rfl
    · rw [MemoryCache.current_of_le hlookup (not_lt.1 hlt)]
      rfl
  · rw [MemoryCache.current_of_lookup_none hlookup, if_pos hlt]
    rfl

/-- What `Get` returns in Redis: the value until it expires. -/
theorem redis_value (hr : r.LawfulStrings) {s : r.State} {wr : Written}
    (hentry : r.entry s (RedisCache.fullKey key) = some ⟨.string wr.value, wr.expireAt⟩)
    (hinstant : wr.expireAt ≠ some now) :
    RedisCache.get r key now s =
      if wr.ttl.ns ≠ 0 ∧ Time.add wr.setAt wr.ttl < now then [] else wr.value := by
  unfold RedisCache.get
  by_cases httl : wr.ttl.ns = 0
  · rw [Written.expireAt, if_pos httl] at hentry
    rw [hr.get_present (Redis.settled_of_persistent hentry) (Redis.live_of_persistent hentry),
      if_neg fun h => h.1 httl]
    rfl
  · rw [Written.expireAt, if_neg httl] at hentry hinstant
    have hne : Time.add wr.setAt wr.ttl ≠ now := fun h => hinstant (congrArg some h)
    -- at the instant itself the laws of the server say nothing
    rcases lt_or_gt_of_ne hne with hlt | hgt
    · rw [hr.get_missing (Redis.settled_of_ne hentry hne) (Redis.live_of_gt hentry hlt), if_pos ⟨httl, hlt⟩]
      rfl
    · rw [hr.get_present (Redis.settled_of_ne hentry hne) (Redis.live_of_lt hentry hgt),
        if_neg fun h => lt_asymm h.2 hgt]
      rfl

/-- **One `Get`** returns the same in both unless it reads a value that was set earlier with a `ttl` of 0. -/
theorem sameValue_step (hr : r.LawfulStrings) (hholds : HoldsAll now b) (hle : now ≤ e.now) :
    SameValue b e ↔ ReadsAtOnce b e := by
  obtain ⟨now', call⟩ := e
  cases call with
  | set | del | sweep => exact Iff.rfl
  | get key =>
      unfold SameValue ReadsAtOnce
      dsimp only
      rcases (holds_iff ..).1 ((hholds key).later hle) with
        ⟨hlookup, hentry, hwritten⟩ | ⟨wr, -, hmemory, hentry, hwritten⟩
      · rw [hwritten]
        refine iff_of_true (fun _ => ?_) fun _ h => absurd h (Option.not_mem_none _)
        rw [MemoryCache.get_fst, MemoryCache.current_of_lookup_none hlookup, RedisCache.get,
          hr.get_missing (Redis.settled_of_entry_none hentry) (Redis.live_of_entry_none hentry)]
        rfl
      · rw [hwritten, memory_value hmemory]
        simp only [Option.mem_def, Option.some.injEq, forall_eq']
        by_cases httl : wr.ttl.ns = 0
        · -- nothing expires in Redis, and in memory the entry is over at once
          have hexpire : wr.expireAt ≠ some now' := by
            rw [Written.expireAt, if_pos httl]
            exact Option.some_ne_none now' ∘ Eq.symm
          have hend : Time.add wr.setAt wr.ttl = wr.setAt := by
            rw [Time.add, httl, Int.add_zero]
          rw [redis_value hr hentry hexpire, if_neg (fun h => h.1 httl : ¬ (wr.ttl.ns ≠ 0 ∧ _)), hend]
          constructor
          · intro hsame _ hvalue
            by_contra hlate
            rw [if_pos (not_le.1 hlate)] at hsame
            exact hvalue (hsame hexpire).symm
          · intro hreads _
            split_ifs with hlate
            · by_contra hvalue
              exact absurd (hreads httl (Ne.symm hvalue)) (not_le.2 hlate)
            · rfl
        · refine iff_of_true (fun hexpire => ?_) fun h => absurd h httl
          rw [redis_value hr hentry hexpire]
          simp only [ne_eq, httl, not_false_eq_true, true_and]

/-! ## Runs -/

/-- From keys that hold the last `Set` on. -/
theorem sameValue_iff_of_holds (hr : r.LawfulStrings) {es : List (Timed Int Call)} (hholds : HoldsAll now b)
    (hclock : ∀ e ∈ es, now ≤ e.now) (hsorted : NonDecreasing es) (httl : ∀ e ∈ es, TtlOk e) :
    Run.Always (Run.total Both.next : _ → _ → Except Unit _) SameValue b es ↔
      Run.Always (Run.total Both.next : _ → _ → Except Unit _) ReadsAtOnce b es := by
  induction es generalizing now b with
  | nil => exact Iff.rfl
  | cons e es ih =>
      have hle := hclock e List.mem_cons_self
      have hlater : ∀ e' ∈ es, e.now ≤ e'.now := (List.pairwise_cons.1 hsorted).1
      have hrest := ih (holdsAll_next hr hholds hle (httl e List.mem_cons_self)) hlater hsorted.tail
        fun e' he' => httl e' (List.mem_cons_of_mem _ he')
      refine and_congr (sameValue_step hr hholds hle) (forall₂_congr ?_)
      rintro _ ⟨⟩
      exact hrest

/-- **When the two store alike.** For every sequence of calls and sweeps by a clock that does not go back,
with any `ttl` that is 0 or a millisecond at least: from empty stores every `Get` that is not at the instant
at which its value expires returns the same in memory and in Redis exactly when no `Get` reads a value,
other than the empty one, that was set earlier with a `ttl` of 0. -/
theorem sameValue_iff (hr : r.LawfulStrings) {es : List (Timed Int Call)} (hclock : NonDecreasing es)
    (httl : ∀ e ∈ es, TtlOk e) :
    Run.Always (Run.total Both.next : _ → _ → Except Unit _) SameValue (Both.new r) es ↔
      Run.Always (Run.total Both.next : _ → _ → Except Unit _) ReadsAtOnce (Both.new r) es := by
  cases es with
  | nil => exact Iff.rfl
  | cons e es =>
      have hempty : HoldsAll e.now (Both.new r) := fun key => by
        show Holds e.now none (r.entry r.empty (RedisCache.fullKey key)) none
        rw [hr.entry_empty]
        exact .none
      refine sameValue_iff_of_holds hr hempty (fun e' he' => ?_) hclock httl
      rcases List.mem_cons.1 he' with rfl | he'
      · exact le_refl _
      · exact (List.pairwise_cons.1 hclock).1 e' he'

/-- A value read in its time and behind it. -/
theorem sameValue_iff_expiring :
    Run.Always (Run.total Both.next : _ → _ → Except Unit _) SameValue (Both.new .onMap)
        [⟨0, .set (str "k") (str "v") (.secs 10 (by decide))⟩, ⟨6000000000, .get (str "k")⟩,
          ⟨11000000000, .get (str "k")⟩] ↔
      Run.Always (Run.total Both.next : _ → _ → Except Unit _) ReadsAtOnce (Both.new .onMap)
        [⟨0, .set (str "k") (str "v") (.secs 10 (by decide))⟩, ⟨6000000000, .get (str "k")⟩,
          ⟨11000000000, .get (str "k")⟩] := by
  refine sameValue_iff Redis.onMap_lawfulStrings (by decide) ?_
  intro e he key value ttl hcall
  simp only [List.mem_cons, List.not_mem_nil, or_false] at he
  rcases he with rfl | rfl | rfl <;> cases hcall
  exact .inr (by decide)

/-- A value set without a `ttl` at 0 and read a second later: Redis returns it, memory the empty string. -/
theorem forgotten_at_once :
    ¬ Run.Always (Run.total Both.next : _ → _ → Except Unit _) SameValue (Both.new .onMap)
        [⟨0, .set (str "k") (str "v") (.secs 0 (by decide))⟩, ⟨1000000000, .get (str "k")⟩] := by
  rintro ⟨-, hget⟩
  have hexpire : ∀ wr ∈ ((Both.new .onMap).next
      ⟨0, .set (str "k") (str "v") (.secs 0 (by decide))⟩).written (str "k"),
      wr.expireAt ≠ some 1000000000 := by
    decide +kernel
  have hsame := (hget _ rfl).1 hexpire
  revert hsame
  decide +kernel

end KeyValue

end AimChat.Agent
