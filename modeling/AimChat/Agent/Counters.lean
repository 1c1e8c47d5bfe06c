import AimChat.Agent.MemoryCache
import AimChat.Agent.RedisCache
import AimChat.Lib.Timed
import Mathlib.Tactic.MkIffOfInductiveProp

/-! # Counting in memory and in Redis

`IncrWithTTL` counts the calls in a window. Redis lets a window end a `ttl` after its first call; in memory
every call starts the `ttl` again. The two count alike as long as, call by call, the one has ended exactly
when the other has: `Counted` is what a key holds in both then, and a call at which they differ shows
(`counts_step`, `memoryCount_ne`). -/

namespace AimChat.Agent

open Go

namespace Counters

/-- A call of `IncrWithTTL`, or a turn of the sweep in memory. -/
inductive Call
  | incr (key : Bytes) (ttl : Duration)
  | sweep
  deriving DecidableEq

/-! ## Windows -/

/-- A window of calls on a key. -/
structure Window where
  /-- The `ttl` of the first call is over. -/
  ends : Int
  /-- The calls so far. -/
  count : Nat
  /-- The `ttl` of the last call is over. -/
  lastEnds : Int
  deriving DecidableEq

/-- The last window of each key. -/
abbrev Windows := Bytes → Option Window

namespace Windows

/-- No key has one yet. -/
def new : Windows := fun _ => none

/-- The window of a key behind a call: a new one when there is none or the last one has ended. -/
def window (key : Bytes) (ttl : Duration) (now : Int) (w : Windows) : Window :=
  let opened := ⟨Time.add now ttl, 1, Time.add now ttl⟩
  match w key with
  | none => opened
  | some win => if win.ends < now then opened else ⟨win.ends, win.count + 1, Time.add now ttl⟩

/-- One call. -/
def next (w : Windows) : Timed Int Call → Windows
  | ⟨now, .incr key ttl⟩ => Function.update w key (some (w.window key ttl now))
  | ⟨_, .sweep⟩ => w

/-- The number of calls in the window. -/
def count (w : Windows) : Timed Int Call → List Nat
  | ⟨now, .incr key ttl⟩ => [(w.window key ttl now).count]
  | ⟨_, .sweep⟩ => []

end Windows

/-- The number of calls in the current window, call by call, from a state of the windows on. -/
def windowCounts (w : Windows) (es : List (Timed Int Call)) : List Nat :=
  Run.log (Run.total Windows.next : _ → _ → Except Unit _) Windows.count w es

/-! ## The two caches -/

/-- One call in memory. -/
def memoryNext (m : MemoryCache) : Timed Int Call → MemoryCache
  | ⟨now, .incr key ttl⟩ => (m.incrWithTTL key ttl now).2
  | ⟨now, .sweep⟩ => m.cleanExpired now

/-- What it returns. -/
def memoryCount (m : MemoryCache) : Timed Int Call → List Int
  | ⟨now, .incr key ttl⟩ => [(m.incrWithTTL key ttl now).1]
  | ⟨_, .sweep⟩ => []

/-- What the calls return in memory. -/
def memoryCounts (m : MemoryCache) (es : List (Timed Int Call)) : List Int :=
  Run.log (Run.total memoryNext : _ → _ → Except Unit _) memoryCount m es

variable (r : Redis)

/-- One call in Redis. -/
def redisNext (s : r.State) : Timed Int Call → r.State
  | ⟨now, .incr key ttl⟩ => (RedisCache.incrWithTTL r key ttl now s).2
  | ⟨_, .sweep⟩ => s

/-- What it returns. -/
def redisCount (s : r.State) : Timed Int Call → List (Except Unit Int)
  | ⟨now, .incr key ttl⟩ => [(RedisCache.incrWithTTL r key ttl now s).1]
  | ⟨_, .sweep⟩ => []

/-- What the calls return in Redis. -/
def redisCounts (s : r.State) (es : List (Timed Int Call)) : List (Except Unit Int) :=
  Run.log (Run.total (redisNext r) : _ → _ → Except Unit _) (redisCount r) s es

/-- Every call returns the number of calls in the current window, in memory and in Redis. -/
def CountAlike (m : MemoryCache) (s : r.State) (w : Windows) (es : List (Timed Int Call)) : Prop :=
  memoryCounts m es = (windowCounts w es).map (fun n : Nat => (n : Int)) ∧
    redisCounts r s es = (windowCounts w es).map (fun n : Nat => .ok (n : Int))

/-! ## Conditions on a call -/

/-- The `ttl` is positive, and the call is not made at the very end of a window. -/
def Regular (w : Windows) : Timed Int Call → Prop
  | ⟨now, .incr key ttl⟩ => 0 < ttl.ns ∧ ∀ win ∈ w key, win.ends ≠ now
  | ⟨_, .sweep⟩ => True

/-- The window has ended exactly when the `ttl` of its last call is over, and one more call can be counted
in it. -/
def SameEnd (w : Windows) : Timed Int Call → Prop
  | ⟨now, .incr key _⟩ =>
      ∀ win ∈ w key, (win.ends < now ↔ win.lastEnds < now) ∧ (now ≤ win.ends → win.count < 9223372036854775807)
  | ⟨_, .sweep⟩ => True

instance (w : Windows) : ∀ e, Decidable (Regular w e)
  | ⟨_, .incr ..⟩ => inferInstanceAs (Decidable (_ ∧ _))
  | ⟨_, .sweep⟩ => .isTrue trivial

/-! ## One call -/

variable {r} {m : MemoryCache} {s : r.State} {w : Windows} {now : Int} {e : Timed Int Call}

/-- What a key holds in memory and in Redis when its calls were counted in a window. -/
@[mk_iff]
inductive Counted (now : Int) : Option MemEntry → Option RedisEntry → Option Window → Prop
  | none : Counted now none none none
  | some (win : Window) {entry : Option MemEntry} (hcount : 1 ≤ win.count ∧ win.count ≤ 9223372036854775807)
      (hentry : entry = some ⟨printInt win.count, some win.lastEnds⟩ ∨ entry = none ∧ win.lastEnds < now) :
      Counted now entry (some ⟨.string (printInt win.count), some win.ends⟩) (some win)

variable (r) in
/-- All keys were counted alike up to now. -/
def CountedAll (now : Int) (m : MemoryCache) (s : r.State) (w : Windows) : Prop :=
  ∀ key, Counted now (m.lookup key) (r.entry s (RedisCache.fullKey key)) (w key)

/-- Later they still are. -/
theorem Counted.later {now' : Int} {entry : Option MemEntry} {entry' : Option RedisEntry} {win : Option Window}
    (h : Counted now entry entry' win) (hle : now ≤ now') : Counted now' entry entry' win := by
  cases h with
  | none => exact .none
  | some win hcount hentry => exact .some win hcount (hentry.imp id fun h => ⟨h.1, h.2.trans_le hle⟩)

/-- The sweep removes nothing that still counts. -/
theorem Counted.sweep {key : Bytes} {entry : Option RedisEntry} {win : Option Window}
    (h : Counted now (m.lookup key) entry win) : Counted now (m.current now key) entry win := by
  rcases (counted_iff ..).1 h with ⟨hlookup, rfl, rfl⟩ | ⟨win, hcount, hlookup | ⟨hlookup, hlt⟩, rfl, rfl⟩
  · exact MemoryCache.current_of_lookup_none hlookup ▸ .none
  · rcases lt_or_ge win.lastEnds now with hlt | hge
    · exact .some win hcount (.inr ⟨MemoryCache.current_of_gt hlookup hlt, hlt⟩)
    · exact .some win hcount (.inl (MemoryCache.current_of_le hlookup hge))
  · exact .some win hcount (.inr ⟨MemoryCache.current_of_lookup_none hlookup, hlt⟩)

variable (r m s w) in
/-- The call returns the number of calls in the window in memory and in Redis, and is counted alike. -/
structure IncrAlike (key : Bytes) (ttl : Duration) (now : Int) : Prop where
  memory : (m.incrWithTTL key ttl now).1 = (w.window key ttl now).count
  redis : (RedisCache.incrWithTTL r key ttl now s).1 = .ok ((w.window key ttl now).count : Int)
  counted : Counted now ((m.incrWithTTL key ttl now).2.lookup key)
    (r.entry (RedisCache.incrWithTTL r key ttl now s).2 (RedisCache.fullKey key)) (some (w.window key ttl now))

variable {key : Bytes} {ttl : Duration}

/-- A call on a key that has no window, or whose window has ended in both, opens one. -/
theorem incrAlike_of_opened (hr : r.LawfulCounters) (httl : 0 < ttl.ns)
    (hsettled : r.Settled s (RedisCache.fullKey key) now)
    (hcurrent : m.current now key = none) (hlive : r.live s (RedisCache.fullKey key) now = none)
    (hwindow : w.window key ttl now = ⟨Time.add now ttl, 1, Time.add now ttl⟩) :
    IncrAlike r m s w key ttl now := by
  have hmemory : (m.incrWithTTL key ttl now).1 = 1 := by
    rw [MemoryCache.incrWithTTL_fst, hcurrent]
  obtain ⟨hval, hentry⟩ := RedisCache.incrWithTTL_of_missing hr hsettled httl hlive
  constructor
  · rw [hmemory, hwindow]
    rfl
  · rw [hval, hwindow]
    rfl
  · rw [MemoryCache.lookup_incrWithTTL, if_pos rfl, hmemory, hentry, hwindow]
    exact .some ⟨Time.add now ttl, 1, Time.add now ttl⟩ ⟨le_refl 1, (by omega : 1 ≤ _)⟩ (.inl rfl)

/-- A call in a window that has ended in neither counts on. -/
theorem incrAlike_of_open (hr : r.LawfulCounters) {win : Window}
    (hcount : 1 ≤ win.count ∧ win.count < 9223372036854775807) (hw : w key = some win)
    (hmemory : m.lookup key = some ⟨printInt win.count, some win.lastEnds⟩)
    (hredis : r.entry s (RedisCache.fullKey key) = some ⟨.string (printInt win.count), some win.ends⟩)
    (hlast : now ≤ win.lastEnds) (hends : now < win.ends) : IncrAlike r m s w key ttl now := by
  -- the window has not ended, so it counts on and the last `ttl` starts again
  have hwindow : w.window key ttl now = ⟨win.ends, win.count + 1, Time.add now ttl⟩ := by
    rw [Windows.window, hw]
    exact if_neg (not_lt.2 hends.le)
  have hcast : ((win.count + 1 : Nat) : Int) = win.count + 1 := rfl
  have hint : IsInt64 win.count := by
    unfold IsInt64
    omega
  have hint' : IsInt64 (win.count + 1) := by
    unfold IsInt64
    omega
  have hvalue : (m.incrWithTTL key ttl now).1 = win.count + 1 := by
    rw [MemoryCache.incrWithTTL_of_current (MemoryCache.current_of_le hmemory hlast) hint,
      wrap64_eq_self hint']
  obtain ⟨hval, hentry⟩ := RedisCache.incrWithTTL_of_present hr ttl
    (Redis.settled_of_ne hredis hends.ne') (Redis.live_of_lt hredis hends) (by omega) (by omega)
  constructor
  · rw [hvalue, hwindow]
    rfl
  · rw [hval, hwindow]
    rfl
  · rw [MemoryCache.lookup_incrWithTTL, if_pos rfl, hvalue, hentry, hwindow, ← hcast]
    exact .some ⟨win.ends, win.count + 1, Time.add now ttl⟩ ⟨Nat.le_add_left 1 _, hcount.2⟩
      (.inl rfl)

/-- A call on a key counted alike so far is, when its window has ended exactly when the `ttl` of the last
call is over. -/
theorem incrAlike_of_sameEnd (hr : r.LawfulCounters) {now' : Int}
    (hcounted : Counted now (m.lookup key) (r.entry s (RedisCache.fullKey key)) (w key)) (hle : now ≤ now')
    (hregular : Regular w ⟨now', .incr key ttl⟩) (hsame : SameEnd w ⟨now', .incr key ttl⟩) :
    IncrAlike r m s w key ttl now' := by
  obtain ⟨httl, hne⟩ := hregular
  rcases (counted_iff ..).1 hcounted with ⟨hlookup, hentry, hw⟩ | ⟨win, hcount, hlast, hentry, hw⟩
  · refine incrAlike_of_opened hr httl (Redis.settled_of_entry_none hentry)
      (MemoryCache.current_of_lookup_none hlookup) (Redis.live_of_entry_none hentry) ?_
    rw [Windows.window, hw]
  · obtain ⟨hsame, hbound⟩ := hsame win hw
    -- the window has ended in both or in neither
    rcases lt_or_gt_of_ne (hne win hw) with hended | hopen
    · have hcurrent : m.current now' key = none := by
        rcases hlast with hlookup | ⟨hlookup, -⟩
        · exact MemoryCache.current_of_gt hlookup (hsame.1 hended)
        · exact MemoryCache.current_of_lookup_none hlookup
      refine incrAlike_of_opened hr httl (Redis.settled_of_ne hentry hended.ne) hcurrent
        (Redis.live_of_gt hentry hended) ?_
      rw [Windows.window, hw]
      exact if_pos hended
    · have hlate : now' ≤ win.lastEnds := not_lt.1 fun h => absurd (hsame.2 h) (lt_asymm hopen)
      have hlookup : m.lookup key = some ⟨printInt win.count, some win.lastEnds⟩ :=
        hlast.resolve_right fun h => absurd (h.2.trans_le hle) (not_lt.2 hlate)
      exact incrAlike_of_open hr ⟨hcount.1, hbound hopen.le⟩ hw hlookup hentry hlate hopen

/-- **One call.** On keys counted alike so far it returns the number of calls in the window when the window
has ended exactly when the `ttl` of its last call is over, and leaves them counted alike. -/
theorem counts_step (hr : r.LawfulCounters) (hcounted : CountedAll r now m s w) (hle : now ≤ e.now)
    (hregular : Regular w e) (hsame : SameEnd w e) :
    memoryCount m e = (Windows.count w e).map (fun n : Nat => (n : Int)) ∧
      redisCount r s e = (Windows.count w e).map (fun n : Nat => .ok (n : Int)) ∧
      CountedAll r e.now (memoryNext m e) (redisNext r s e) (w.next e) := by
  obtain ⟨now', call⟩ := e
  cases call with
  | sweep =>
      refine ⟨rfl, rfl, fun key => ?_⟩
      have hkey := ((hcounted key).later hle).sweep
      rwa [← MemoryCache.lookup_cleanExpired] at hkey
  | incr key ttl =>
      obtain ⟨hmemory, hredis, hkey⟩ := incrAlike_of_sameEnd hr (hcounted key) hle hregular hsame
      refine ⟨congrArg (fun n => [n]) hmemory, congrArg (fun n => [n]) hredis, fun key' => ?_⟩
      show Counted now' ((m.incrWithTTL key ttl now').2.lookup key')
        (r.entry (RedisCache.incrWithTTL r key ttl now' s).2 (RedisCache.fullKey key'))
        (Function.update w key (some (w.window key ttl now')) key')
      by_cases hkey' : key' = key
      · subst hkey'
        rw [Function.update_self]
        exact hkey
      · rw [MemoryCache.lookup_incrWithTTL, if_neg hkey', RedisCache.incrWithTTL_other hr hkey',
          Function.update_of_ne hkey']
        exact (hcounted key').later hle

/-- A call that returns the number of calls in the window in memory finds it ended exactly when the `ttl` of
its last call is over. -/
theorem sameEnd_of_incr {now' : Int}
    (hcounted : Counted now (m.lookup key) (r.entry s (RedisCache.fullKey key)) (w key)) (hle : now ≤ now')
    (hcount : (m.incrWithTTL key ttl now').1 = (w.window key ttl now').count) :
    SameEnd w ⟨now', .incr key ttl⟩ := by
  rintro win hw
  rw [Option.mem_def] at hw
  -- Redis starts again at the end of the window, memory at that of the last `ttl`
  have hwindow : (w.window key ttl now').count = if win.ends < now' then 1 else win.count + 1 := by
    rw [Windows.window, hw]
    exact apply_ite Window.count ..
  rcases (counted_iff ..).1 hcounted with ⟨-, -, hnone⟩ | ⟨win', hrange, hlast, -, hsome⟩
  · cases hnone.symm.trans hw
  · obtain rfl : win' = win := Option.some.inj (hsome.symm.trans hw)
    have hmemory : (m.incrWithTTL key ttl now').1 =
        if win'.lastEnds < now' then 1 else wrap64 (win'.count + 1) := by
      rcases hlast with hlookup | ⟨hlookup, hlt⟩
      · split_ifs with hover
        · rw [MemoryCache.incrWithTTL_fst, MemoryCache.current_of_gt hlookup hover]
        · refine MemoryCache.incrWithTTL_of_current (MemoryCache.current_of_le hlookup (not_lt.1 hover)) ?_
          unfold IsInt64
          omega
      · rw [MemoryCache.incrWithTTL_fst, MemoryCache.current_of_lookup_none hlookup,
          if_pos (hlt.trans_le hle)]
    rw [hmemory, hwindow] at hcount
    unfold wrap64 at hcount
    -- the counts are the same only when both count on or neither does
    split_ifs at hcount with hover hended hended
    · exact ⟨iff_of_true hended hover, fun h => absurd hended (not_lt.2 h)⟩
    · omega
    · omega
    · exact ⟨iff_of_false hended hover, fun _ => by omega⟩

/-! ## Runs -/

/-- The first call and the others. -/
theorem countAlike_cons {es : List (Timed Int Call)} :
    CountAlike r m s w (e :: es) ↔
      (memoryCount m e = (Windows.count w e).map (fun n : Nat => (n : Int)) ∧
        redisCount r s e = (Windows.count w e).map (fun n : Nat => .ok (n : Int))) ∧
      CountAlike r (memoryNext m e) (redisNext r s e) (w.next e) es := by
  have hmemory : memoryCounts m (e :: es) = memoryCount m e ++ memoryCounts (memoryNext m e) es := rfl
  have hredis : redisCounts r s (e :: es) = redisCount r s e ++ redisCounts r (redisNext r s e) es := rfl
  have hwindow : windowCounts w (e :: es) = Windows.count w e ++ windowCounts (w.next e) es := rfl
  have hlength : (memoryCount m e).length = (Windows.count w e).length ∧
      (redisCount r s e).length = (Windows.count w e).length := by
    obtain ⟨now, call⟩ := e
    cases call <;> exact ⟨rfl, rfl⟩
  unfold CountAlike
  rw [hmemory, hredis, hwindow, List.map_append, List.map_append]
  constructor
  · rintro ⟨hm, hs⟩
    obtain ⟨hm, hms⟩ := List.append_inj hm (hlength.1.trans (List.length_map _).symm)
    obtain ⟨hs, hss⟩ := List.append_inj hs (hlength.2.trans (List.length_map _).symm)
    exact ⟨⟨hm, hs⟩, hms, hss⟩
  · rintro ⟨⟨hm, hs⟩, hms, hss⟩
    rw [hm, hms, hs, hss]
    exact ⟨rfl, rfl⟩

/-- From keys counted alike on. -/
theorem countAlike_iff_of_counted (hr : r.LawfulCounters) {es : List (Timed Int Call)}
    (hcounted : CountedAll r now m s w) (hclock : ∀ e ∈ es, now ≤ e.now) (hsorted : NonDecreasing es)
    (hregular : Run.Always (Run.total Windows.next : _ → _ → Except Unit _) Regular w es) :
    CountAlike r m s w es ↔ Run.Always (Run.total Windows.next : _ → _ → Except Unit _) SameEnd w es := by
  induction es generalizing now m s w with
  | nil => exact iff_of_true ⟨rfl, rfl⟩ trivial
  | cons e es ih =>
      have hle := hclock e List.mem_cons_self
      have hlater : ∀ e' ∈ es, e.now ≤ e'.now := (List.pairwise_cons.1 hsorted).1
      have hrest (hsame : SameEnd w e) :=
        ih (counts_step hr hcounted hle hregular.1 hsame).2.2 hlater hsorted.tail (hregular.2 _ rfl)
      rw [countAlike_cons]
      constructor
      · rintro ⟨⟨hmemory, -⟩, halike⟩
        have hsame : SameEnd w e := by
          obtain ⟨now', call⟩ := e
          cases call with
          | sweep => trivial
          | incr key ttl => exact sameEnd_of_incr (hcounted key) hle (List.singleton_inj.1 hmemory)
        refine ⟨hsame, ?_⟩
        rintro _ ⟨⟩
        exact (hrest hsame).1 halike
      · rintro ⟨hsame, hsames⟩
        obtain ⟨hmemory, hredis, -⟩ := counts_step hr hcounted hle hregular.1 hsame
        exact ⟨⟨hmemory, hredis⟩, (hrest hsame).2 (hsames _ rfl)⟩

/-- **When the two count alike.** For every sequence of calls and sweeps by a clock that does not go back,
none of the calls at the very end of a window: from empty stores every call returns the number of calls in
the current window, in memory and in Redis, exactly when at every call the window has ended if and only if
the `ttl` of the key's last call is over, and no window takes more calls than an `int64` counts. -/
theorem countAlike_iff (hr : r.LawfulCounters) {es : List (Timed Int Call)} (hclock : NonDecreasing es)
    (hregular : Run.Always (Run.total Windows.next : _ → _ → Except Unit _) Regular Windows.new es) :
    CountAlike r MemoryCache.new r.empty Windows.new es ↔
      Run.Always (Run.total Windows.next : _ → _ → Except Unit _) SameEnd Windows.new es := by
  cases es with
  | nil => exact iff_of_true ⟨rfl, rfl⟩ trivial
  | cons e es =>
      have hempty : CountedAll r e.now MemoryCache.new r.empty Windows.new := fun key => by
        rw [hr.entry_empty]
        exact .none
      refine countAlike_iff_of_counted hr hempty (fun e' he' => ?_) hclock hregular
      rcases List.mem_cons.1 he' with rfl | he'
      · exact le_refl _
      · exact (List.pairwise_cons.1 hclock).1 e' he'

/-- Two calls in a window, and one behind it. -/
theorem countAlike_iff_burst :
    CountAlike .onMap MemoryCache.new Redis.onMap.empty Windows.new
        [⟨0, .incr (str "k") (.secs 10 (by decide))⟩, ⟨0, .incr (str "k") (.secs 10 (by decide))⟩,
          ⟨11000000000, .incr (str "k") (.secs 10 (by decide))⟩] ↔
      Run.Always (Run.total Windows.next : _ → _ → Except Unit _) SameEnd Windows.new
        [⟨0, .incr (str "k") (.secs 10 (by decide))⟩, ⟨0, .incr (str "k") (.secs 10 (by decide))⟩,
          ⟨11000000000, .incr (str "k") (.secs 10 (by decide))⟩] := by
  have hregular : Run.Always (Run.total Windows.next : _ → _ → Except Unit _) Regular Windows.new
      [⟨0, .incr (str "k") (.secs 10 (by decide))⟩, ⟨0, .incr (str "k") (.secs 10 (by decide))⟩,
        ⟨11000000000, .incr (str "k") (.secs 10 (by decide))⟩] := by
    decide +kernel
  exact countAlike_iff Redis.onMap_lawfulCounters (by decide) hregular

/-- Calls at 0, 6 and 11 seconds with a `ttl` of ten: Redis counts 1, 2, 1 and memory 1, 2, 3. -/
theorem memory_counts_on :
    ¬ CountAlike .onMap MemoryCache.new Redis.onMap.empty Windows.new
        [⟨0, .incr (str "k") (.secs 10 (by decide))⟩, ⟨6000000000, .incr (str "k") (.secs 10 (by decide))⟩,
          ⟨11000000000, .incr (str "k") (.secs 10 (by decide))⟩] := by
  rintro ⟨hmemory, -⟩
  have hcounts : memoryCounts MemoryCache.new
      [⟨0, .incr (str "k") (.secs 10 (by decide))⟩, ⟨6000000000, .incr (str "k") (.secs 10 (by decide))⟩,
        ⟨11000000000, .incr (str "k") (.secs 10 (by decide))⟩] = [1, 2, 3] := by
    decide +kernel
  have hwindows : windowCounts Windows.new
      [⟨0, .incr (str "k") (.secs 10 (by decide))⟩, ⟨6000000000, .incr (str "k") (.secs 10 (by decide))⟩,
        ⟨11000000000, .incr (str "k") (.secs 10 (by decide))⟩] = [1, 2, 1] := by
    decide +kernel
  rw [hcounts, hwindows] at hmemory
  cases hmemory

end Counters

end AimChat.Agent
