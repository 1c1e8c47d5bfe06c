import AimChat.Agent.MemoryCache
import AimChat.Lib.Timed

/-! # Nobody sees the sweep

An entry that has expired is found out in three places: `Get` removes it, `IncrWithTTL` starts again, and the
sweep drops it from the map. The values returned are those of a reference map in which nothing is ever removed
for its age and an entry does not count from the instant after its expiry on: cache and reference show the same
values from now on (`Agrees`), whichever dead entries the cache still holds. -/

namespace AimChat.Agent

open Go

namespace Sweeps

/-- A call, or a turn of the sweep. -/
inductive Call
  | set (key value : Bytes) (ttl : Duration)
  | get (key : Bytes)
  | del (key : Bytes)
  | incr (key : Bytes) (ttl : Duration)
  | sweep
  deriving DecidableEq

/-- What a `Get` or an `IncrWithTTL` returns. -/
inductive Returned
  | value (value : Bytes)
  | count (count : Int)
  deriving DecidableEq

/-! ## The cache -/

/-- One call of the cache. -/
def next (m : MemoryCache) : Timed Int Call → MemoryCache
  | ⟨now, .set key value ttl⟩ => m.set key value ttl now
  | ⟨now, .get key⟩ => (m.get key now).2
  | ⟨_, .del key⟩ => m.del key
  | ⟨now, .incr key ttl⟩ => (m.incrWithTTL key ttl now).2
  | ⟨now, .sweep⟩ => m.cleanExpired now

/-- What it returns. -/
def returned (m : MemoryCache) : Timed Int Call → List Returned
  | ⟨now, .get key⟩ => [.value (m.get key now).1]
  | ⟨now, .incr key ttl⟩ => [.count (m.incrWithTTL key ttl now).1]
  | _ => []

/-- What the calls of a run return. -/
def results (m : MemoryCache) (es : List (Timed Int Call)) : List Returned :=
  Run.log (Run.total next : _ → _ → Except Unit _) returned m es

/-! ## The reference map -/

/-- A value for each key, with its expiry if it has one. -/
abbrev Reference := Bytes → Option (Bytes × Option Int)

namespace Reference

/-- The value of a key, absent from the instant after its expiry on. -/
def value (now : Int) (key : Bytes) (r : Reference) : Option Bytes :=
  match r key with
  | none => none
  | some (value, none) => some value
  | some (value, some expiry) => if expiry < now then none else some value

/-- The count behind an `IncrWithTTL`. -/
def count (now : Int) (key : Bytes) (r : Reference) : Int :=
  match r.value now key with
  | none => 1
  | some value => wrap64 (sscanfInt value + 1)

/-- One call; a sweep is none. -/
def next (r : Reference) : Timed Int Call → Reference
  | ⟨now, .set key value ttl⟩ => Function.update r key (some (value, some (Time.add now ttl)))
  | ⟨_, .get _⟩ => r
  | ⟨_, .del key⟩ => Function.update r key none
  | ⟨now, .incr key ttl⟩ => Function.update r key (some (printInt (r.count now key), some (Time.add now ttl)))
  | ⟨_, .sweep⟩ => r

/-- What it returns. -/
def returned (r : Reference) : Timed Int Call → List Returned
  | ⟨now, .get key⟩ => [.value ((r.value now key).getD [])]
  | ⟨now, .incr key _⟩ => [.count (r.count now key)]
  | _ => []

/-- What the calls of a run return. -/
def results (r : Reference) (es : List (Timed Int Call)) : List Returned :=
  Run.log (Run.total next : _ → _ → Except Unit _) returned r es

/-- The entries of a cache. -/
def ofCache (m : MemoryCache) : Reference := fun key =>
  (m.lookup key).map fun entry => (entry.value, entry.expire)

end Reference

/-! ## Agreement -/

/-- Cache and reference show the same values from now on. -/
def Agrees (now : Int) (m : MemoryCache) (r : Reference) : Prop :=
  ∀ now', now ≤ now' → ∀ key, (m.current now' key).map MemEntry.value = r.value now' key

variable {now : Int} {m m' : MemoryCache} {r r' : Reference} {e : Timed Int Call} {es : List (Timed Int Call)}

/-- What a cache shows of a key is what the reference shows of its entry. -/
theorem map_value_current {key : Bytes} (h : r key = (m.lookup key).map fun entry => (entry.value, entry.expire)) :
    (m.current now key).map MemEntry.value = r.value now key := by
  rw [MemoryCache.current, Reference.value, h]
  cases m.lookup key with
  | none => rfl
  | some entry =>
      obtain ⟨value, expire⟩ := entry
      cases expire with
      | none => rfl
      | some expiry =>
          rw [Option.map_some, Option.filter_some]
          by_cases hlt : expiry < now <;> simp [MemEntry.expired, Time.before, hlt]

/-- An entry that is looked at later has not expired earlier. -/
theorem current_of_lookup_current {now' : Int} {key : Bytes} (hle : now ≤ now')
    (h : m'.lookup key = m.current now key) : m'.current now' key = m.current now' key := by
  rw [MemoryCache.current, h, MemoryCache.current, MemoryCache.current]
  cases m.lookup key with
  | none => rfl
  | some entry =>
      rw [Option.filter_some, Option.filter_some]
      cases hlater : entry.expired now' with
      | false =>
          rw [MemEntry.expired_mono hle hlater]
          simp [hlater]
      | true => cases entry.expired now <;> simp [hlater]

theorem current_congr {now' : Int} {key : Bytes} (h : m'.lookup key = m.lookup key) :
    m'.current now' key = m.current now' key := by
  rw [MemoryCache.current, h, MemoryCache.current]

/-- A cache agrees with its own entries. -/
theorem agrees_ofCache (now : Int) (m : MemoryCache) : Agrees now m (Reference.ofCache m) :=
  fun _ _ _ => map_value_current rfl

/-- Writing to a key on both sides, or deleting it, keeps the agreement. -/
theorem Agrees.write {now' : Int} {key : Bytes} {entry : Option MemEntry} (h : Agrees now m r) (hle : now ≤ now')
    (hlookup : ∀ key', m'.lookup key' = if key' = key then entry else m.lookup key') :
    Agrees now' m' (Function.update r key (entry.map fun entry => (entry.value, entry.expire))) := by
  intro later hlater key'
  by_cases hkey : key' = key
  · refine map_value_current ?_
    rw [hlookup, if_pos hkey, hkey, Function.update_self]
  · have hsame := h later (hle.trans hlater) key'
    rw [current_congr ((hlookup key').trans (if_neg hkey)), hsame, Reference.value, Reference.value,
      Function.update_of_ne hkey]

/-- Dropping entries that have expired keeps it, too. -/
theorem Agrees.drop {now' : Int} (h : Agrees now m r) (hle : now ≤ now')
    (hlookup : ∀ key, m'.lookup key = m.lookup key ∨ m'.lookup key = m.current now' key) :
    Agrees now' m' r := by
  intro later hlater key
  have hsame := h later (hle.trans hlater) key
  rcases hlookup key with heq | heq
  · rw [current_congr heq, hsame]
  · rw [current_of_lookup_current hlater heq, hsame]

/-! ## A call on both sides -/

/-- The count is the reference's. -/
theorem incrWithTTL_fst_of_agrees (h : Agrees now m r) (key : Bytes) (ttl : Duration) :
    (m.incrWithTTL key ttl now).1 = r.count now key := by
  have hsame := h now le_rfl key
  rw [MemoryCache.incrWithTTL_fst, Reference.count, ← hsame]
  cases m.current now key <;> rfl

/-- **One call keeps the agreement**, a turn of the sweep, too. -/
theorem Agrees.next (h : Agrees now m r) (hle : now ≤ e.now) : Agrees e.now (next m e) (r.next e) := by
  obtain ⟨now', call⟩ := e
  cases call with
  | set key value ttl => exact h.write hle (MemoryCache.lookup_set key · value ttl now' m)
  | get key =>
      refine h.drop hle fun key' => ?_
      rw [Sweeps.next, MemoryCache.lookup_get]
      split_ifs with hkey
      · exact .inr (hkey ▸ rfl)
      · exact .inl rfl
  | del key => exact h.write hle (MemoryCache.lookup_del key · m)
  | incr key ttl =>
      have hcount : (m.incrWithTTL key ttl now').1 = r.count now' key :=
        incrWithTTL_fst_of_agrees (fun later hlater => h later (hle.trans hlater)) key ttl
      have hwrite := h.write hle (MemoryCache.lookup_incrWithTTL key · ttl now' m)
      rwa [hcount] at hwrite
  | sweep => exact h.drop hle fun key => .inr (MemoryCache.lookup_cleanExpired now' key m)

/-- **What a call returns is what the reference returns.** -/
theorem returned_eq (h : Agrees now m r) (hle : now ≤ e.now) : returned m e = r.returned e := by
  obtain ⟨now', call⟩ := e
  have hnow : Agrees now' m r := fun later hlater => h later (hle.trans hlater)
  cases call with
  | get key =>
      rw [returned, Reference.returned, MemoryCache.get_fst, hnow now' le_rfl key]
  | incr key ttl => rw [returned, Reference.returned, incrWithTTL_fst_of_agrees hnow]
  | set | del | sweep => rfl

/-! ## Runs -/

/-- The calls of a run that are not sweeps. -/
def withoutSweeps (es : List (Timed Int Call)) : List (Timed Int Call) := es.filter fun e => e.call ≠ .sweep

/-- A run returns what the reference returns. -/
theorem results_eq (hclock : NonDecreasing es) (hle : ∀ e ∈ es, now ≤ e.now) (h : Agrees now m r) :
    results m es = r.results es := by
  induction es generalizing m r now with
  | nil => rfl
  | cons e es ih =>
      have hlater : ∀ f ∈ es, e.now ≤ f.now := (List.pairwise_cons.1 hclock).1
      have hrest := ih hclock.tail hlater (h.next (hle e List.mem_cons_self))
      calc results m (e :: es) = returned m e ++ results (next m e) es := rfl
        _ = r.returned e ++ (r.next e).results es := by
          rw [returned_eq h (hle e List.mem_cons_self), hrest]
        _ = r.results (e :: es) := rfl

/-- The reference does not look at the sweeps. -/
theorem Reference.results_withoutSweeps (r : Reference) (es : List (Timed Int Call)) :
    r.results (withoutSweeps es) = r.results es := by
  induction es generalizing r with
  | nil => rfl
  | cons e es ih =>
      obtain ⟨now, call⟩ := e
      have hcons : ∀ e es, Reference.results r (e :: es) = r.returned e ++ (r.next e).results es :=
        fun _ _ => rfl
      by_cases hsweep : call = .sweep
      · subst hsweep
        rw [withoutSweeps, List.filter_cons_of_neg (by simp), hcons]
        exact ih r
      · rw [withoutSweeps, List.filter_cons_of_pos (by simpa using hsweep), hcons, hcons]
        exact congrArg _ (ih _)

/-- **Nobody sees the sweep.** Calls on any cache by a clock that does not go back, with turns of the sweep
anywhere among them, return what they return without the sweeps, and what the reference map returns. -/
theorem sweeps_unobservable (m : MemoryCache) (hclock : NonDecreasing es) :
    results m es = results m (withoutSweeps es) ∧ results m es = (Reference.ofCache m).results es := by
  have hreference : ∀ es, NonDecreasing es → results m es = (Reference.ofCache m).results es := by
    intro es hclock
    cases es with
    | nil => rfl
    | cons e es =>
        have hle : ∀ f ∈ e :: es, e.now ≤ f.now :=
          List.forall_mem_cons.2 ⟨le_rfl, (List.pairwise_cons.1 hclock).1⟩
        exact results_eq hclock hle (agrees_ofCache e.now m)
  have hfewer : NonDecreasing (withoutSweeps es) := hclock.filter _
  refine ⟨?_, hreference es hclock⟩
  rw [hreference es hclock, hreference _ hfewer, Reference.results_withoutSweeps]

/-- A value that has expired, a sweep, and a counter that starts again. -/
theorem sweeps_unobservable_four :
    results .new [⟨0, .set (str "k") (str "5") (.secs 1 (by decide))⟩, ⟨1500000000, .sweep⟩,
        ⟨2000000000, .get (str "k")⟩, ⟨3000000000, .incr (str "k") (.secs 1 (by decide))⟩] =
      results .new (withoutSweeps [⟨0, .set (str "k") (str "5") (.secs 1 (by decide))⟩, ⟨1500000000, .sweep⟩,
        ⟨2000000000, .get (str "k")⟩, ⟨3000000000, .incr (str "k") (.secs 1 (by decide))⟩]) ∧
    results .new [⟨0, .set (str "k") (str "5") (.secs 1 (by decide))⟩, ⟨1500000000, .sweep⟩,
        ⟨2000000000, .get (str "k")⟩, ⟨3000000000, .incr (str "k") (.secs 1 (by decide))⟩] =
      (Reference.ofCache .new).results [⟨0, .set (str "k") (str "5") (.secs 1 (by decide))⟩,
        ⟨1500000000, .sweep⟩, ⟨2000000000, .get (str "k")⟩,
        ⟨3000000000, .incr (str "k") (.secs 1 (by decide))⟩] :=
  sweeps_unobservable .new (by simp [NonDecreasing])

end Sweeps

end AimChat.Agent
