import AimChat.Lib.Alarms
import AimChat.Lib.OrdMap
import Mathlib.Algebra.GroupWithZero.Nat
import Mathlib.Data.Prod.Lex
import Mathlib.Data.Rat.Defs

/-! # The timers of a loop

`TimerQueue` holds its timers in two sets, by time and by address, deletes the `Timer` objects itself and hands out
their addresses. Addresses are used again, so a `TimerId` is an address and a sequence number. Timers may be added
and canceled by the callbacks that `handleRead` runs, and from other threads, whose calls the loop makes in its own
time. In a queue in order (`Sound`) each operation runs into no assert, uses no timer that was deleted, and leaves the
queue in order. -/

namespace AimChat

namespace Net

/-- The greatest pointer. -/
def UINTPTR_MAX : Nat := 2 ^ 64 - 1

/-- `addTime`, in microseconds. The seconds are a `double`; their product is taken exactly, and neither it nor the
sum overflows an `int64_t` here. -/
def addTime (timestamp : Int) (seconds : ℚ) : Int :=
  timestamp + (seconds * 1000000).num.tdiv (seconds * 1000000).den

/-- A `Timer`. -/
structure Timer (κ : Type) where
  callback : κ
  expiration : Int
  interval : ℚ
  sequence : Nat

namespace Timer

variable {κ : Type}

/-- `repeat_` -/
def repeats (t : Timer κ) : Bool := 0 < t.interval

/-- `Timer::restart` -/
def restart (t : Timer κ) (now : Int) : Timer κ :=
  { t with expiration := if t.repeats then addTime now t.interval else 0 }

/-- When a timer that ran rings again. -/
def again (interval : ℚ) (now : Int) : Option Int := if 0 < interval then some (addTime now interval) else none

theorem again_of_repeats {t : Timer κ} (h : t.repeats) (now : Int) :
    again t.interval now = some (t.restart now).expiration := by
  rw [again, if_pos (of_decide_eq_true h), restart, if_pos h]

end Timer

/-- A `TimerId`. -/
structure TimerId where
  timer : Nat
  sequence : Nat

/-- `TimerQueue::Entry` -/
abbrev Entry := Int ×ₗ Nat

/-- `TimerQueue::ActiveTimer` -/
abbrev ActiveTimer := Nat ×ₗ Nat

/-- `handleRead` while it calls the timers that have expired. -/
structure TimerQueue.Expired where
  now : Int
  called : List Entry
  rest : List Entry

/-- The vector of `handleRead`. -/
def TimerQueue.Expired.all (x : TimerQueue.Expired) : List Entry := x.called ++ x.rest

/-- A `TimerQueue`, and the `Timer` objects at their addresses. -/
structure TimerQueue (κ : Type) where
  heap : Nat → Option (Timer κ)
  /-- `s_numCreated_` -/
  numCreated : Nat
  /-- The timers for which `addTimerInLoop` is yet to run. -/
  adding : List Nat
  /-- The time the `timerfd` is set for. -/
  timerfd : Option Int
  /-- The `timerfd` has gone off, and was not read. -/
  readable : Bool
  timers : OrdSet Entry
  activeTimers : OrdSet ActiveTimer
  /-- `callingExpiredTimers_` -/
  calling : Option TimerQueue.Expired
  cancelingTimers : OrdSet ActiveTimer

namespace TimerQueue

/-- How the queue can end. -/
inductive Fault
  /-- An assert fails. -/
  | assertion
  /-- A timer that was deleted is used. -/
  | dangling

/-- What can happen to a queue. -/
inductive Event (κ : Type)
  /-- `addTimer`, in any thread: a timer is made at this address. -/
  | addTimer (addr : Nat) (callback : κ) (when : Int) (interval : ℚ)
  | addTimerInLoop (addr : Nat)
  | cancelInLoop (timerId : TimerId)
  /-- The `timerfd` goes off. -/
  | alarm
  /-- The `timerfd` is reported: `handleRead` up to its calls. -/
  | handleRead (now : Int)
  /-- The next of the timers that have expired is run. -/
  | run
  /-- All have run: the end of `handleRead`. -/
  | reset

variable {κ : Type} (q : TimerQueue κ)

/-- A timer's members are read. -/
def timer (addr : Nat) : Except Fault (Timer κ) :=
  match q.heap addr with
  | some t => .ok t
  | none => .error .dangling

/-- `delete` -/
def delete (addr : Nat) : TimerQueue κ := { q with heap := Function.update q.heap addr none }

/-- `resetTimerfd` -/
def resetTimerfd (expiration : Int) : TimerQueue κ := { q with timerfd := some expiration, readable := false }

/-- `assert(timers_.size() == activeTimers_.size())` -/
def assertSizes : Except Fault Unit :=
  if q.timers.keys.length = q.activeTimers.keys.length then .ok () else .error .assertion

/-- `insert`: whether the timer is the first to expire now, and the queue. -/
def insert (addr : Nat) : Except Fault (Bool × TimerQueue κ) := do
  q.assertSizes
  let t ← q.timer addr
  let earliestChanged :=
    match q.timers.keys.head? with
    | none => true
    | some e => decide (t.expiration < (ofLex e).1)
  if toLex (t.expiration, addr) ∈ q.timers then .error .assertion
  if toLex (addr, t.sequence) ∈ q.activeTimers then .error .assertion
  let q' : TimerQueue κ := { q with
    timers := OrdSet.add q.timers (toLex (t.expiration, addr))
    activeTimers := OrdSet.add q.activeTimers (toLex (addr, t.sequence)) }
  q'.assertSizes
  return (earliestChanged, q')

/-- `addTimerInLoop` -/
def addTimerInLoop (addr : Nat) : Except Fault (TimerQueue κ) := do
  let (earliestChanged, q') ← q.insert addr
  let t ← q'.timer addr
  return if earliestChanged then q'.resetTimerfd t.expiration else q'

/-- `cancelInLoop` -/
def cancelInLoop (timerId : TimerId) : Except Fault (TimerQueue κ) := do
  q.assertSizes
  let active : ActiveTimer := toLex (timerId.timer, timerId.sequence)
  if active ∈ q.activeTimers then
    let t ← q.timer timerId.timer
    if toLex (t.expiration, timerId.timer) ∉ q.timers then .error .assertion
    let q' : TimerQueue κ := { q.delete timerId.timer with
      timers := OrdSet.remove q.timers (toLex (t.expiration, timerId.timer))
      activeTimers := OrdSet.remove q.activeTimers active }
    q'.assertSizes
    return q'
  else if q.calling.isSome then return { q with cancelingTimers := OrdSet.add q.cancelingTimers active }
  else return q

/-- The loop of `getExpired` over `activeTimers_`. -/
def eraseActive (active : OrdSet ActiveTimer) (e : Entry) : Except Fault (OrdSet ActiveTimer) := do
  let t ← q.timer (ofLex e).2
  if toLex ((ofLex e).2, t.sequence) ∉ active then .error .assertion
  return OrdSet.remove active (toLex ((ofLex e).2, t.sequence))

/-- Behind every timer that expires at `now` at the latest. -/
def sentry (now : Int) : Entry := toLex (now, UINTPTR_MAX)

/-- `assert(end == timers_.end() || now < end->first)` -/
def assertLater (now : Int) (fromEnd : List Entry) : Except Fault Unit :=
  match fromEnd.head? with
  | none => .ok ()
  | some e => if now < (ofLex e).1 then .ok () else .error .assertion

/-- The timers that have expired. -/
def expiredBy (now : Int) : List Entry := q.timers.keys.takeWhile (· < sentry now)

/-- `getExpired` -/
def getExpired (now : Int) : Except Fault (List Entry × TimerQueue κ) := do
  q.assertSizes
  let expired := q.expiredBy now
  assertLater now (q.timers.keys.dropWhile (· < sentry now))
  let active ← expired.foldlM q.eraseActive q.activeTimers
  let q' : TimerQueue κ := { q with timers := expired.foldl OrdSet.remove q.timers, activeTimers := active }
  q'.assertSizes
  return (expired, q')

/-- `handleRead`, up to its calls. -/
def handleRead (now : Int) : Except Fault (TimerQueue κ) := do
  let (expired, q') ← { q with readable := false }.getExpired now
  return { q' with calling := some ⟨now, [], expired⟩, cancelingTimers := ∅ }

/-- The loop of `reset`. -/
def restart (now : Int) (q : TimerQueue κ) (e : Entry) : Except Fault (TimerQueue κ) := do
  let t ← q.timer (ofLex e).2
  if t.repeats ∧ toLex ((ofLex e).2, t.sequence) ∉ q.cancelingTimers then
    let (_, q') ← { q with heap := Function.update q.heap (ofLex e).2 (some (t.restart now)) }.insert (ofLex e).2
    return q'
  else return q.delete (ofLex e).2

/-- `reset` -/
def reset (expired : List Entry) (now : Int) : Except Fault (TimerQueue κ) := do
  let q' ← expired.foldlM (restart now) { q with calling := none }
  match q'.timers.keys.head? with
  | none => return q'
  | some e =>
      let t ← q'.timer (ofLex e).2
      return if 0 < t.expiration then q'.resetTimerfd t.expiration else q'

/-- One event. -/
def step (q : TimerQueue κ) : Event κ → Except Fault (TimerQueue κ)
  | .addTimer addr callback when interval =>
      if q.heap addr = none ∧ addr ≠ 0 ∧ addr < UINTPTR_MAX then
        .ok { q with
          heap := Function.update q.heap addr (some ⟨callback, when, interval, q.numCreated + 1⟩)
          numCreated := q.numCreated + 1
          adding := addr :: q.adding }
      else .ok q
  | .addTimerInLoop addr =>
      if addr ∈ q.adding then { q with adding := q.adding.erase addr }.addTimerInLoop addr else .ok q
  | .cancelInLoop timerId => q.cancelInLoop timerId
  | .alarm => if q.timerfd.isSome then .ok { q with timerfd := none, readable := true } else .ok q
  -- an earlier callback of the same poll may have set the `timerfd` again: then there is nothing to read
  | .handleRead now => if q.calling.isNone then q.handleRead now else .ok q
  | .run =>
      match q.calling with
      | some ⟨now, called, e :: rest⟩ => do
          let _ ← q.timer (ofLex e).2
          return { q with calling := some ⟨now, called ++ [e], rest⟩ }
      | _ => .ok q
  | .reset =>
      match q.calling with
      | some ⟨now, called, []⟩ => q.reset called now
      | _ => .ok q

/-- The queue of a new loop. -/
def start : TimerQueue κ where
  heap _ := none
  numCreated := 0
  adding := []
  timerfd := none
  readable := false
  timers := ∅
  activeTimers := ∅
  calling := none
  cancelingTimers := ∅

/-- The entries are in the order of their times. -/
theorem fst_le {e e' : Entry} (h : e ≤ e') : (ofLex e).1 ≤ (ofLex e').1 :=
  (Prod.Lex.toLex_le_toLex.1 h).elim le_of_lt fun heq => heq.1.le

/-! ## The two sets -/

/-- The two sets are about the same timers, which are there, and a timer that is in neither is in other hands. -/
structure Sound (q : TimerQueue κ) (out : List Nat) : Prop where
  timers : ∀ e : Entry, e ∈ q.timers ↔ ∃ t, q.heap (ofLex e).2 = some t ∧ t.expiration = (ofLex e).1 ∧
    toLex ((ofLex e).2, t.sequence) ∈ q.activeTimers
  active : ∀ x : ActiveTimer, x ∈ q.activeTimers → ∃ t, q.heap (ofLex x).1 = some t ∧ t.sequence = (ofLex x).2
  nodup : out.Nodup
  held : ∀ a ∈ out, ∃ t, q.heap a = some t ∧ toLex (a, t.sequence) ∉ q.activeTimers
  owned : ∀ a t, q.heap a = some t → a ∈ out ∨ toLex (a, t.sequence) ∈ q.activeTimers
  bounds : ∀ a t, q.heap a = some t → a < UINTPTR_MAX ∧ t.sequence ≤ q.numCreated
  unique : ∀ a b t u, q.heap a = some t → q.heap b = some u → t.sequence = u.sequence → a = b

variable {q} {out : List Nat}

theorem timer_eq {addr : Nat} {t : Timer κ} (h : q.heap addr = some t) : q.timer addr = .ok t := by
  rw [timer, h]

/-- The sizes of the sets are the same. -/
theorem Sound.assertSizes (h : q.Sound out) : q.assertSizes = .ok () := by
  let f : Entry → ActiveTimer := fun e =>
    toLex ((ofLex e).2, ((q.heap (ofLex e).2).map Timer.sequence).getD 0)
  have hf : ∀ {e : Entry} {t : Timer κ}, q.heap (ofLex e).2 = some t → f e = toLex ((ofLex e).2, t.sequence) := by
    intro e t ht
    show toLex _ = _
    rw [ht]
    rfl
  -- `f` takes the entries of `timers_` to those of `activeTimers_`, one to one
  have hnodup : (q.timers.keys.map f).Nodup := by
    refine (List.nodup_map_iff_inj_on ((OrdSet.pairwise_keys _).imp ne_of_lt)).2 fun e he e' he' heq => ?_
    obtain ⟨t, ht, hexp, -⟩ := (h.timers e).1 (OrdSet.mem_keys.1 he)
    obtain ⟨u, hu, hexp', -⟩ := (h.timers e').1 (OrdSet.mem_keys.1 he')
    rw [hf ht, hf hu] at heq
    have haddr : (ofLex e).2 = (ofLex e').2 := congrArg (fun x => (ofLex x).1) heq
    rw [haddr, hu] at ht
    cases ht
    have hpair : ofLex e = ofLex e' := Prod.ext (hexp.symm.trans hexp') haddr
    exact hpair
  have hperm : (q.timers.keys.map f).Perm q.activeTimers.keys := by
    refine (List.perm_ext_iff_of_nodup hnodup ((OrdSet.pairwise_keys _).imp ne_of_lt)).2 fun x => ?_
    rw [List.mem_map, OrdSet.mem_keys]
    constructor
    · rintro ⟨e, he, rfl⟩
      obtain ⟨t, ht, -, hactive⟩ := (h.timers e).1 (OrdSet.mem_keys.1 he)
      rw [hf ht]
      exact hactive
    · intro hx
      obtain ⟨t, ht, hseq⟩ := h.active x hx
      have hxt : toLex ((ofLex x).1, t.sequence) = x := by rw [hseq]; rfl
      refine ⟨toLex (t.expiration, (ofLex x).1), OrdSet.mem_keys.2 ((h.timers _).2 ⟨t, ht, rfl, ?_⟩), ?_⟩
      · exact hxt.symm ▸ hx
      · have ht' : q.heap (ofLex (toLex (t.expiration, (ofLex x).1) : Entry)).2 = some t := ht
        exact (hf ht').trans hxt
  rw [TimerQueue.assertSizes, if_pos]
  rw [← hperm.length_eq, List.length_map]

/-- A timer in other hands is in neither set. -/
theorem Sound.not_mem (h : q.Sound out) {a : Nat} (ha : a ∈ out) {t : Timer κ} (ht : q.heap a = some t)
    (expiration : Int) :
    toLex (expiration, a) ∉ q.timers ∧ toLex (a, t.sequence) ∉ q.activeTimers := by
  obtain ⟨u, hu, hactive⟩ := h.held a ha
  rw [ht] at hu
  cases hu
  refine ⟨fun hmem => ?_, hactive⟩
  obtain ⟨u, hu, -, hmem⟩ := (h.timers _).1 hmem
  have hu' : q.heap a = some u := hu
  rw [ht] at hu'
  cases hu'
  exact hactive hmem

/-- It is the sets and the timers that count. -/
theorem Sound.of_same {q' : TimerQueue κ} (h : q.Sound out) (hheap : q'.heap = q.heap)
    (hnumCreated : q'.numCreated = q.numCreated) (htimers : q'.timers = q.timers)
    (hactive : q'.activeTimers = q.activeTimers) : q'.Sound out := by
  cases q
  cases q'
  cases hheap
  cases hnumCreated
  cases htimers
  cases hactive
  exact ⟨h.timers, h.active, h.nodup, h.held, h.owned, h.bounds, h.unique⟩

/-- A timer is active when it is in no other hands. -/
theorem Sound.active_iff (h : q.Sound out) {a : Nat} {t : Timer κ} (ht : q.heap a = some t) :
    toLex (a, t.sequence) ∈ q.activeTimers ↔ a ∉ out :=
  ⟨fun hx ha => (h.not_mem ha ht t.expiration).2 hx, (h.owned a t ht).resolve_left⟩

/-- The queue with a timer in its sets. -/
def inserted (q : TimerQueue κ) (addr : Nat) (t : Timer κ) : TimerQueue κ :=
  { q with
    timers := OrdSet.add q.timers (toLex (t.expiration, addr))
    activeTimers := OrdSet.add q.activeTimers (toLex (addr, t.sequence)) }

theorem Sound.inserted {a : Nat} {t : Timer κ} (h : q.Sound (a :: out)) (ht : q.heap a = some t) :
    (q.inserted a t).Sound out := by
  have hnodup := List.nodup_cons.1 h.nodup
  have hactive : ∀ {x : ActiveTimer}, x ∈ (q.inserted a t).activeTimers ↔ x = toLex (a, t.sequence) ∨
      x ∈ q.activeTimers := OrdSet.mem_add
  refine ⟨fun e => ?_, fun x hx => ?_, hnodup.2, fun b hb => ?_, fun b u hu => ?_, h.bounds, h.unique⟩
  · have hmem : e ∈ (q.inserted a t).timers ↔ e = toLex (t.expiration, a) ∨ e ∈ q.timers := OrdSet.mem_add
    rw [hmem, h.timers]
    constructor
    · rintro (rfl | ⟨u, hu, hexp, hx⟩)
      · exact ⟨t, ht, rfl, hactive.2 (.inl rfl)⟩
      · exact ⟨u, hu, hexp, hactive.2 (.inr hx)⟩
    · rintro ⟨u, hu, hexp, hx⟩
      -- the entry of the timer itself, or one from before
      rcases hactive.1 hx with heq | hx
      · have haddr : (ofLex e).2 = a := congrArg (fun x => (ofLex x).1) heq
        have hu' : q.heap a = some u := haddr ▸ hu
        rw [ht] at hu'
        cases hu'
        have hpair : ofLex e = (t.expiration, a) := Prod.ext hexp.symm haddr
        exact .inl hpair
      · exact .inr ⟨u, hu, hexp, hx⟩
  · rcases hactive.1 hx with rfl | hx
    · exact ⟨t, ht, rfl⟩
    · exact h.active x hx
  · obtain ⟨u, hu, hnot⟩ := h.held b (List.mem_cons_of_mem _ hb)
    refine ⟨u, hu, fun hx => ?_⟩
    rcases hactive.1 hx with heq | hx
    · have haddr : b = a := congrArg (fun x => (ofLex x).1) heq
      exact hnodup.1 (haddr ▸ hb)
    · exact hnot hx
  · rcases h.owned b u hu with hb | hx
    · rcases List.mem_cons.1 hb with rfl | hb
      · have hu' : q.heap b = some u := hu
        rw [ht] at hu'
        cases hu'
        exact .inr (hactive.2 (.inl rfl))
      · exact .inl hb
    · exact .inr (hactive.2 (.inr hx))

/-- What `insert` says of a timer: whether it is the first to expire now. -/
def Earliest (q : TimerQueue κ) (t : Timer κ) (first : Bool) : Prop :=
  if first then ∀ e ∈ q.timers, t.expiration ≤ (ofLex e).1 else ∃ e ∈ q.timers, (ofLex e).1 ≤ t.expiration

/-- `insert` puts a timer that is in the caller's hands into both sets. -/
theorem Sound.insert {a : Nat} {t : Timer κ} (h : q.Sound (a :: out)) (ht : q.heap a = some t) :
    ∃ first, q.insert a = .ok (first, q.inserted a t) ∧ q.Earliest t first := by
  obtain ⟨hentry, hactive⟩ := h.not_mem List.mem_cons_self ht t.expiration
  have hsound := (h.inserted ht).assertSizes
  have hinsert : ∀ first, (do
      if toLex (t.expiration, a) ∈ q.timers then .error .assertion
      if toLex (a, t.sequence) ∈ q.activeTimers then .error .assertion
      (q.inserted a t).assertSizes
      return (first, q.inserted a t) : Except Fault (Bool × TimerQueue κ)) = .ok (first, q.inserted a t) := by
    intro first
    rw [if_neg hentry, if_neg hactive, hsound]
    rfl
  unfold TimerQueue.insert
  rw [h.assertSizes, timer_eq ht]
  cases hhead : q.timers.keys.head? with
  | none =>
      refine ⟨true, hinsert true, fun e he => ?_⟩
      rw [List.head?_eq_none_iff] at hhead
      rw [← OrdSet.mem_keys, hhead] at he
      cases he
  | some e =>
      obtain ⟨he, hleast⟩ := OrdSet.le_of_head? hhead
      refine ⟨decide (t.expiration < (ofLex e).1), hinsert _, ?_⟩
      by_cases hlt : t.expiration < (ofLex e).1
      · rw [decide_eq_true hlt]
        exact fun e' he' => hlt.le.trans (fst_le (hleast e' he'))
      · rw [decide_eq_false hlt]
        exact ⟨e, he, not_lt.1 hlt⟩

theorem Sound.perm {out' : List Nat} (h : q.Sound out) (hperm : out.Perm out') : q.Sound out' :=
  ⟨h.timers, h.active, hperm.nodup_iff.1 h.nodup, fun a ha => h.held a (hperm.mem_iff.2 ha),
    fun a t ht => (h.owned a t ht).imp_left hperm.mem_iff.1, h.bounds, h.unique⟩

/-- The queue with a timer out of its sets. -/
def removed (q : TimerQueue κ) (e : Entry) (t : Timer κ) : TimerQueue κ :=
  { q with
    timers := OrdSet.remove q.timers e
    activeTimers := OrdSet.remove q.activeTimers (toLex ((ofLex e).2, t.sequence)) }

theorem Sound.removed {e : Entry} {t : Timer κ} (h : q.Sound out) (he : e ∈ q.timers)
    (ht : q.heap (ofLex e).2 = some t) : (q.removed e t).Sound ((ofLex e).2 :: out) := by
  obtain ⟨u, hu, hexp, hmem⟩ := (h.timers e).1 he
  rw [ht] at hu
  cases hu
  have hactive : ∀ {x : ActiveTimer}, x ∈ (q.removed e t).activeTimers ↔ x ≠ toLex ((ofLex e).2, t.sequence) ∧
      x ∈ q.activeTimers := OrdSet.mem_remove
  have hnot : (ofLex e).2 ∉ out := fun hout => by
    obtain ⟨u, hu, hnot⟩ := h.held _ hout
    rw [ht] at hu
    cases hu
    exact hnot hmem
  refine ⟨fun e' => ?_, fun x hx => h.active x (hactive.1 hx).2, List.nodup_cons.2 ⟨hnot, h.nodup⟩,
    fun b hb => ?_, fun b u hu => ?_, h.bounds, h.unique⟩
  · have hentry : e' ∈ (q.removed e t).timers ↔ e' ≠ e ∧ e' ∈ q.timers := OrdSet.mem_remove
    rw [hentry, h.timers]
    constructor
    · rintro ⟨hne, u, hu, hexp', hx⟩
      refine ⟨u, hu, hexp', hactive.2 ⟨fun heq => hne ?_, hx⟩⟩
      have haddr : (ofLex e').2 = (ofLex e).2 := congrArg (fun x => (ofLex x).1) heq
      rw [haddr, ht] at hu
      cases hu
      have hpair : ofLex e' = ofLex e := Prod.ext (hexp'.symm.trans hexp) haddr
      exact hpair
    · rintro ⟨u, hu, hexp', hx⟩
      obtain ⟨hne, hx⟩ := hactive.1 hx
      refine ⟨?_, u, hu, hexp', hx⟩
      rintro rfl
      have hu' : q.heap (ofLex e').2 = some u := hu
      rw [ht] at hu'
      cases hu'
      exact hne rfl
  · rcases List.mem_cons.1 hb with rfl | hb
    · exact ⟨t, ht, fun hx => (hactive.1 hx).1 rfl⟩
    · obtain ⟨u, hu, hnot⟩ := h.held b hb
      exact ⟨u, hu, fun hx => hnot (hactive.1 hx).2⟩
  · rcases h.owned b u hu with hb | hx
    · exact .inl (List.mem_cons_of_mem _ hb)
    · by_cases hbe : b = (ofLex e).2
      · exact .inl (hbe ▸ List.mem_cons_self)
      · exact .inr (hactive.2 ⟨fun heq => hbe (congrArg (fun x => (ofLex x).1) heq), hx⟩)

theorem heap_delete {a b : Nat} {t : Timer κ} : (q.delete a).heap b = some t ↔ b ≠ a ∧ q.heap b = some t := by
  rw [delete]
  dsimp only
  by_cases hab : b = a
  · simp [hab]
  · simp [hab]

/-- A timer in the caller's hands is deleted. -/
theorem Sound.delete {a : Nat} (h : q.Sound (a :: out)) : (q.delete a).Sound out := by
  have hnodup := List.nodup_cons.1 h.nodup
  obtain ⟨t, ht, hnot⟩ := h.held a List.mem_cons_self
  -- what is active is at another address
  have hother : ∀ {b u}, q.heap b = some u → toLex (b, u.sequence) ∈ q.activeTimers → b ≠ a := by
    rintro b u hu hx rfl
    rw [ht] at hu
    cases hu
    exact hnot hx
  refine ⟨fun e => ?_, fun x hx => ?_, hnodup.2, fun b hb => ?_, fun b u hu => ?_,
    fun b u hu => h.bounds b u (heap_delete.1 hu).2,
    fun b c u v hu hv => h.unique b c u v (heap_delete.1 hu).2 (heap_delete.1 hv).2⟩
  · have hentry : e ∈ (q.delete a).timers ↔ e ∈ q.timers := Iff.rfl
    rw [hentry, h.timers]
    constructor
    · rintro ⟨u, hu, hexp, hx⟩
      exact ⟨u, heap_delete.2 ⟨hother hu hx, hu⟩, hexp, hx⟩
    · rintro ⟨u, hu, hexp, hx⟩
      exact ⟨u, (heap_delete.1 hu).2, hexp, hx⟩
  · obtain ⟨u, hu, hseq⟩ := h.active x hx
    have hx' : toLex ((ofLex x).1, u.sequence) ∈ q.activeTimers := by
      rw [hseq]
      exact hx
    exact ⟨u, heap_delete.2 ⟨hother hu hx', hu⟩, hseq⟩
  · obtain ⟨u, hu, hx⟩ := h.held b (List.mem_cons_of_mem _ hb)
    exact ⟨u, heap_delete.2 ⟨fun hab => hnodup.1 (hab ▸ hb), hu⟩, hx⟩
  · obtain ⟨hab, hu⟩ := heap_delete.1 hu
    exact (h.owned b u hu).imp_left fun hb => (List.mem_cons.1 hb).resolve_left hab

/-! ## The operations -/

/-- `addTimerInLoop` -/
theorem Sound.addTimerInLoop {a : Nat} {t : Timer κ} (h : q.Sound (a :: out)) (ht : q.heap a = some t) :
    ∃ first : Bool, q.addTimerInLoop a = .ok (if first then (q.inserted a t).resetTimerfd t.expiration
      else q.inserted a t) ∧ q.Earliest t first := by
  obtain ⟨first, hinsert, hfirst⟩ := h.insert ht
  refine ⟨first, ?_, hfirst⟩
  have htimer : (q.inserted a t).timer a = .ok t := timer_eq ht
  unfold TimerQueue.addTimerInLoop
  rw [hinsert]
  show (do let t' ← (q.inserted a t).timer a
           return if first then (q.inserted a t).resetTimerfd t'.expiration else q.inserted a t) = _
  rw [htimer]
  rfl

/-- `cancelInLoop` takes an active timer out and deletes it, and otherwise notes the id while timers are called. -/
theorem Sound.cancelInLoop (h : q.Sound out) (id : TimerId) :
    (∃ t e, q.heap id.timer = some t ∧ t.sequence = id.sequence ∧ (ofLex e).2 = id.timer ∧ e ∈ q.timers ∧
      q.cancelInLoop id = .ok ((q.removed e t).delete id.timer) ∧ ((q.removed e t).delete id.timer).Sound out) ∨
    toLex (id.timer, id.sequence) ∉ q.activeTimers ∧
      ((q.calling ≠ none ∧ q.cancelInLoop id = .ok { q with
          cancelingTimers := OrdSet.add q.cancelingTimers (toLex (id.timer, id.sequence)) }) ∨
        q.calling = none ∧ q.cancelInLoop id = .ok q) := by
  by_cases hactive : toLex (id.timer, id.sequence) ∈ q.activeTimers
  · obtain ⟨t, ht, hseq⟩ := h.active _ hactive
    have ht' : q.heap id.timer = some t := ht
    have hseq' : t.sequence = id.sequence := hseq
    have he : toLex (t.expiration, id.timer) ∈ q.timers := by
      refine (h.timers _).2 ⟨t, ht', rfl, ?_⟩
      rw [hseq']
      exact hactive
    have hsound : ((q.removed (toLex (t.expiration, id.timer)) t).delete id.timer).Sound out :=
      (h.removed he ht').delete
    refine .inl ⟨t, toLex (t.expiration, id.timer), ht', hseq', rfl, he, ?_, hsound⟩
    have hsame : ({ q.delete id.timer with
        timers := OrdSet.remove q.timers (toLex (t.expiration, id.timer))
        activeTimers := OrdSet.remove q.activeTimers (toLex (id.timer, id.sequence)) } : TimerQueue κ) =
          (q.removed (toLex (t.expiration, id.timer)) t).delete id.timer := by
      rw [← hseq']
      rfl
    unfold TimerQueue.cancelInLoop
    rw [h.assertSizes, timer_eq ht']
    simp only [hactive, if_true, he, not_true_eq_false, if_false, bind, Except.bind, hsame, hsound.assertSizes]
    rfl
  · refine .inr ⟨hactive, ?_⟩
    unfold TimerQueue.cancelInLoop
    rw [h.assertSizes]
    cases hcalling : q.calling with
    | none =>
        refine .inr ⟨rfl, ?_⟩
        simp only [hactive, bind, Except.bind]
        rfl
    | some x =>
        refine .inl ⟨Option.some_ne_none x, ?_⟩
        simp only [hactive, bind, Except.bind]
        rfl

/-- What `getExpired` erases from `activeTimers_` are the timers it takes from `timers_`. -/
theorem Sound.foldlM_eraseActive (l : List Entry) (h : q.Sound out) (hl : ∀ e ∈ l, e ∈ q.timers) (hnodup : l.Nodup) :
    ∃ active, l.foldlM q.eraseActive q.activeTimers = .ok active ∧
      ({ q with timers := l.foldl OrdSet.remove q.timers, activeTimers := active } : TimerQueue κ).Sound
        (l.map (fun e => (ofLex e).2) ++ out) := by
  induction l generalizing q out with
  | nil => exact ⟨q.activeTimers, rfl, h⟩
  | cons e l ih =>
      obtain ⟨he, hnodup⟩ := List.nodup_cons.1 hnodup
      obtain ⟨t, ht, hexp, hx⟩ := (h.timers e).1 (hl e List.mem_cons_self)
      have hrest : ∀ e' ∈ l, e' ∈ (q.removed e t).timers := fun e' he' =>
        OrdSet.mem_remove.2 ⟨fun heq => he (heq ▸ he'), hl e' (List.mem_cons_of_mem _ he')⟩
      obtain ⟨active, hfold, hsound⟩ := ih (h.removed (hl e List.mem_cons_self) ht) hrest hnodup
      refine ⟨active, ?_, hsound.perm List.perm_middle⟩
      have herase : q.eraseActive q.activeTimers e = .ok (q.removed e t).activeTimers := by
        unfold eraseActive
        rw [timer_eq ht]
        simp only [bind, Except.bind, hx, not_true_eq_false, if_false]
        rfl
      rw [List.foldlM_cons, herase]
      exact hfold

/-- An entry is before the sentry when it has expired. -/
theorem Sound.lt_sentry (h : q.Sound out) {e : Entry} (he : e ∈ q.timers) (now : Int) :
    e < sentry now ↔ (ofLex e).1 ≤ now := by
  obtain ⟨t, ht, -, -⟩ := (h.timers e).1 he
  have haddr := (h.bounds _ t ht).1
  have hlt : e < sentry now ↔ (ofLex e).1 < now ∨ (ofLex e).1 = now ∧ (ofLex e).2 < UINTPTR_MAX :=
    Prod.Lex.toLex_lt_toLex
  rw [hlt]
  omega

/-- What has expired is in the order of the times. -/
theorem Sound.mem_expiredBy (h : q.Sound out) (now : Int) :
    (q.expiredBy now).Pairwise (· < ·) ∧ ∀ e, e ∈ q.expiredBy now ↔ e ∈ q.timers ∧ (ofLex e).1 ≤ now := by
  refine ⟨(OrdSet.pairwise_keys q.timers).sublist (List.takeWhile_sublist _), fun e => ?_⟩
  rw [expiredBy, OrdSet.mem_before]
  exact and_congr_right fun he => h.lt_sentry he now

/-- `getExpired` moves what has expired out of both sets. -/
theorem Sound.getExpired (h : q.Sound out) (now : Int) :
    ∃ active, q.getExpired now = .ok (q.expiredBy now,
        { q with timers := (q.expiredBy now).foldl OrdSet.remove q.timers, activeTimers := active }) ∧
      ({ q with timers := (q.expiredBy now).foldl OrdSet.remove q.timers, activeTimers := active } :
        TimerQueue κ).Sound ((q.expiredBy now).map (fun e => (ofLex e).2) ++ out) := by
  obtain ⟨hsorted, hmem⟩ := h.mem_expiredBy now
  obtain ⟨active, hfold, hsound⟩ := h.foldlM_eraseActive _ (fun e he => ((hmem e).1 he).1)
    (hsorted.imp ne_of_lt)
  refine ⟨active, ?_, hsound⟩
  have hassert : assertLater now (q.timers.keys.dropWhile (· < sentry now)) = .ok () := by
    rw [assertLater]
    cases hhead : (q.timers.keys.dropWhile (· < sentry now)).head? with
    | none => rfl
    | some e =>
        obtain ⟨he, hle⟩ := OrdSet.mem_from.1 (List.mem_of_mem_head? hhead)
        have hlater : now < (ofLex e).1 := by
          by_contra hnot
          exact absurd ((h.lt_sentry he now).2 (not_lt.1 hnot)) (not_lt.2 hle)
        exact if_pos hlater
  unfold TimerQueue.getExpired
  rw [h.assertSizes]
  simp only [bind, Except.bind, hassert, hfold, hsound.assertSizes]
  rfl

/-- The queue before the calls of `handleRead`. -/
def expiring (q : TimerQueue κ) (now : Int) (active : OrdSet ActiveTimer) : TimerQueue κ :=
  { q with
    readable := false
    timers := (q.expiredBy now).foldl OrdSet.remove q.timers
    activeTimers := active
    calling := some ⟨now, [], q.expiredBy now⟩
    cancelingTimers := ∅ }

/-- What `reset` makes of the timers that were called: those that repeat and were not canceled start again. -/
def restarted (q : TimerQueue κ) (now : Int) (called : List Entry) (a : Nat) : Option (Timer κ) :=
  if a ∈ called.map (fun e => (ofLex e).2) then
    (q.heap a).bind fun t =>
      if t.repeats ∧ toLex (a, t.sequence) ∉ q.cancelingTimers then some (t.restart now) else none
  else q.heap a

/-- Timers go where they go, and nothing else is touched. -/
structure SameRest (q q' : TimerQueue κ) : Prop where
  numCreated : q'.numCreated = q.numCreated
  adding : q'.adding = q.adding
  timerfd : q'.timerfd = q.timerfd
  readable : q'.readable = q.readable
  calling : q'.calling = q.calling
  cancelingTimers : q'.cancelingTimers = q.cancelingTimers

theorem SameRest.refl : SameRest q q := ⟨rfl, rfl, rfl, rfl, rfl, rfl⟩

theorem SameRest.trans {q₁ q₂ : TimerQueue κ} (h : SameRest q q₁) (h' : SameRest q₁ q₂) : SameRest q q₂ :=
  ⟨h'.numCreated.trans h.numCreated, h'.adding.trans h.adding, h'.timerfd.trans h.timerfd,
    h'.readable.trans h.readable, h'.calling.trans h.calling, h'.cancelingTimers.trans h.cancelingTimers⟩

/-- A timer in the caller's hands gets another time. -/
theorem Sound.restart {a : Nat} {t : Timer κ} (h : q.Sound (a :: out)) (ht : q.heap a = some t) (now : Int) :
    ({ q with heap := Function.update q.heap a (some (t.restart now)) } : TimerQueue κ).Sound (a :: out) := by
  have hself : ({ q with heap := Function.update q.heap a (some (t.restart now)) } : TimerQueue κ).heap a =
      some (t.restart now) := Function.update_self ..
  have hother : ∀ {b}, b ≠ a → ({ q with heap := Function.update q.heap a (some (t.restart now)) } :
      TimerQueue κ).heap b = q.heap b := fun hb => Function.update_of_ne hb ..
  -- but for its time the timer at an address is what it was
  have hsame : ∀ {b u}, ({ q with heap := Function.update q.heap a (some (t.restart now)) } :
      TimerQueue κ).heap b = some u → ∃ v, q.heap b = some v ∧ v.sequence = u.sequence := by
    intro b u hu
    by_cases hb : b = a
    · rw [hb, hself] at hu
      cases hu
      exact ⟨t, hb ▸ ht, rfl⟩
    · rw [hother hb] at hu
      exact ⟨u, hu, rfl⟩
  have hactive : ∀ {b u}, q.heap b = some u → toLex (b, u.sequence) ∈ q.activeTimers → b ≠ a := by
    rintro b u hu hx rfl
    exact (h.not_mem List.mem_cons_self hu u.expiration).2 hx
  refine ⟨fun e => ?_, fun x hx => ?_, h.nodup, fun b hb => ?_, fun b u hu => ?_, fun b u hu => ?_,
    fun b c u v hu hv heq => ?_⟩
  · have hentry : e ∈ ({ q with heap := Function.update q.heap a (some (t.restart now)) } : TimerQueue κ).timers ↔
        e ∈ q.timers := Iff.rfl
    rw [hentry, h.timers]
    constructor
    · rintro ⟨u, hu, hexp, hx⟩
      exact ⟨u, (hother (hactive hu hx)).trans hu, hexp, hx⟩
    · rintro ⟨u, hu, hexp, hx⟩
      obtain ⟨v, hv, hseq⟩ := hsame hu
      have hx' : toLex ((ofLex e).2, v.sequence) ∈ q.activeTimers := by
        rw [hseq]
        exact hx
      rw [hother (hactive hv hx')] at hu
      exact ⟨u, hu, hexp, hx⟩
  · obtain ⟨u, hu, hseq⟩ := h.active x hx
    have hx' : toLex ((ofLex x).1, u.sequence) ∈ q.activeTimers := by
      rw [hseq]
      exact hx
    exact ⟨u, (hother (hactive hu hx')).trans hu, hseq⟩
  · obtain ⟨u, hu, hx⟩ := h.held b hb
    by_cases hba : b = a
    · subst hba
      rw [ht] at hu
      cases hu
      exact ⟨_, hself, hx⟩
    · exact ⟨u, (hother hba).trans hu, hx⟩
  · obtain ⟨v, hv, hseq⟩ := hsame hu
    rw [← hseq]
    exact h.owned b v hv
  · obtain ⟨v, hv, hseq⟩ := hsame hu
    rw [← hseq]
    exact h.bounds b v hv
  · obtain ⟨u', hu', hequ⟩ := hsame hu
    obtain ⟨v', hv', heqv⟩ := hsame hv
    exact h.unique b c u' v' hu' hv' (by rw [hequ, heqv, heq])

/-- The loop of `reset`. -/
theorem Sound.foldlM_restart (called : List Entry) (now : Int)
    (h : q.Sound (called.map (fun e => (ofLex e).2) ++ out)) :
    ∃ q', called.foldlM (TimerQueue.restart now) q = .ok q' ∧ q'.Sound out ∧ SameRest q q' ∧
      q'.heap = q.restarted now called := by
  induction called generalizing q with
  | nil => exact ⟨q, rfl, h, SameRest.refl, rfl⟩
  | cons e called ih =>
      obtain ⟨t, ht, -⟩ := h.held (ofLex e).2 List.mem_cons_self
      have hnot : (ofLex e).2 ∉ called.map (fun e => (ofLex e).2) := fun hmem =>
        (List.nodup_cons.1 h.nodup).1 (List.mem_append_left _ hmem)
      -- the rest of the loop leaves the address of this timer alone
      have hnext : ∀ q₁ : TimerQueue κ, TimerQueue.restart now q e = .ok q₁ →
          q₁.Sound (called.map (fun e => (ofLex e).2) ++ out) → SameRest q q₁ →
          q₁.heap = Function.update q.heap (ofLex e).2
            (if t.repeats ∧ toLex ((ofLex e).2, t.sequence) ∉ q.cancelingTimers then some (t.restart now) else none) →
          ∃ q', (e :: called).foldlM (TimerQueue.restart now) q = .ok q' ∧ q'.Sound out ∧ SameRest q q' ∧
            q'.heap = q.restarted now (e :: called) := by
        intro q₁ hrestart hsound hrest hheap
        obtain ⟨q', hfold, hsound', hrest', hheap'⟩ := ih hsound
        refine ⟨q', ?_, hsound', hrest.trans hrest', ?_⟩
        · rw [List.foldlM_cons, hrestart]
          exact hfold
        · rw [hheap']
          funext b
          rw [restarted, restarted, hheap, hrest.cancelingTimers]
          by_cases hb : b = (ofLex e).2
          · have hmem : b ∈ (e :: called).map (fun e => (ofLex e).2) := hb ▸ List.mem_cons_self
            rw [if_pos hmem, hb, if_neg hnot, Function.update_self, ht]
            rfl
          · have hmem : b ∈ (e :: called).map (fun e => (ofLex e).2) ↔ b ∈ called.map (fun e => (ofLex e).2) := by
              rw [List.map_cons, List.mem_cons, or_iff_right hb]
            simp only [hmem, Function.update_of_ne hb]
      have htimer := timer_eq ht
      by_cases hagain : t.repeats ∧ toLex ((ofLex e).2, t.sequence) ∉ q.cancelingTimers
      · have hself : ({ q with heap := Function.update q.heap (ofLex e).2 (some (t.restart now)) } :
            TimerQueue κ).heap (ofLex e).2 = some (t.restart now) := Function.update_self ..
        have hsound := Sound.restart h ht now
        obtain ⟨first, hinsert, -⟩ := hsound.insert hself
        refine hnext _ ?_ (hsound.inserted hself) ⟨rfl, rfl, rfl, rfl, rfl, rfl⟩ ?_
        · unfold TimerQueue.restart
          simp only [htimer, bind, Except.bind, hagain, hinsert]
          rfl
        · rw [if_pos hagain]
          rfl
      · refine hnext (q.delete (ofLex e).2) ?_ (Sound.delete h) ⟨rfl, rfl, rfl, rfl, rfl, rfl⟩ ?_
        · unfold TimerQueue.restart
          simp only [htimer, bind, Except.bind, hagain, if_false]
          rfl
        · rw [if_neg hagain]
          rfl

/-- `reset` starts the timers that repeat again, deletes the others, and sets the `timerfd` for the first. -/
theorem Sound.reset {called : List Entry} {now : Int}
    (h : q.Sound (called.map (fun e => (ofLex e).2) ++ out)) :
    ∃ q', called.foldlM (TimerQueue.restart now) { q with calling := none } = .ok q' ∧ q'.Sound out ∧
      SameRest { q with calling := none } q' ∧ q'.heap = q.restarted now called ∧
      ((q'.timers.keys.head? = none ∧ q.reset called now = .ok q') ∨
        ∃ e, q'.timers.keys.head? = some e ∧
          q.reset called now = .ok (if 0 < (ofLex e).1 then q'.resetTimerfd (ofLex e).1 else q')) := by
  have hnone : ({ q with calling := none } : TimerQueue κ).Sound (called.map (fun e => (ofLex e).2) ++ out) :=
    h.of_same rfl rfl rfl rfl
  obtain ⟨q', hfold, hsound, hrest, hheap⟩ := hnone.foldlM_restart called now
  refine ⟨q', hfold, hsound, hrest, hheap, ?_⟩
  have hreset : q.reset called now =
      match q'.timers.keys.head? with
      | none => .ok q'
      | some e => q'.timer (ofLex e).2 >>= fun t =>
          .ok (if 0 < t.expiration then q'.resetTimerfd t.expiration else q') := by
    unfold TimerQueue.reset
    rw [hfold]
    rfl
  rw [hreset]
  cases hhead : q'.timers.keys.head? with
  | none => exact .inl ⟨rfl, rfl⟩
  | some e =>
      obtain ⟨t, ht, hexp, -⟩ := (hsound.timers e).1 (OrdSet.le_of_head? hhead).1
      refine .inr ⟨e, rfl, ?_⟩
      rw [← hexp]
      dsimp only
      rw [timer_eq ht]
      rfl

end TimerQueue

end Net

end AimChat
