import AimChat.Net.TimerQueue

/-! # A queue of timers is alarms

The timers that `addTimerInLoop` has put into the queue are alarms: the number of a timer is the alarm's name,
whatever addresses are used again. -/

namespace AimChat

namespace Net

namespace TimerQueue

variable {κ : Type} {q q' : TimerQueue κ} {s s' : Alarms Nat Int}

/-- The vector of `handleRead`, while it is there. -/
def expired (q : TimerQueue κ) : List Entry := (q.calling.map Expired.all).getD []

/-- The timers that are not in the sets: those of the vector, and those that are yet to be added. -/
def held (q : TimerQueue κ) : List Nat := q.expired.map (fun e => (ofLex e).2) ++ q.adding

/-- The number of the timer of an entry. -/
def number (q : TimerQueue κ) (e : Entry) : Nat := ((q.heap (ofLex e).2).map Timer.sequence).getD 0

theorem number_eq {e : Entry} {t : Timer κ} (h : q.heap (ofLex e).2 = some t) : q.number e = t.sequence := by
  rw [number, h]
  rfl

/-- The queue is these alarms. -/
structure Represents (q : TimerQueue κ) (s : Alarms Nat Int) : Prop where
  sound : q.Sound q.held
  due : ∀ n d, s.due n = some d ↔
    ∃ a t, q.heap a = some t ∧ t.sequence = n ∧ t.expiration = d ∧ a ∉ q.held
  known : ∀ n ∈ s.known, n ≤ q.numCreated ∧ ∀ a ∈ q.adding, ∀ t, q.heap a = some t → t.sequence ≠ n
  again : ∀ a t, q.heap a = some t → a ∉ q.adding →
    t.sequence ∈ s.known ∧ s.again t.sequence = Timer.again t.interval
  idle : q.calling = none → s.round = none
  round : ∀ x, q.calling = some x → ∃ canceled,
    s.round = some ⟨x.now, x.called.map q.number, x.rest.map q.number, canceled⟩ ∧
      ∀ e ∈ x.all, q.number e ∈ canceled ↔ toLex ((ofLex e).2, q.number e) ∈ q.cancelingTimers

/-- What an event is to the alarms. -/
def means (q : TimerQueue κ) : Event κ → List (Alarms.Event Nat Int)
  | .addTimer _ _ _ _ => []
  | .addTimerInLoop addr =>
      if addr ∈ q.adding then
        (q.heap addr).toList.map fun t => .set t.sequence t.expiration (Timer.again t.interval)
      else []
  | .cancelInLoop id =>
      if (q.heap id.timer).map Timer.sequence = some id.sequence ∧ id.timer ∉ q.adding then
        [.cancel id.sequence]
      else []
  | .alarm => []
  | .handleRead now =>
      if q.calling.isNone then [.ask now ((q.expiredBy now).map q.number)] else []
  | .run =>
      match q.calling with
      | some ⟨_, _, _ :: _⟩ => [.call]
      | _ => []
  | .reset =>
      match q.calling with
      | some ⟨_, _, []⟩ => [.finish]
      | _ => []

/-- What is said of the alarms does not depend on the `timerfd`. -/
theorem Represents.timerfd (h : Represents q s) (timerfd : Option Int) (readable : Bool) :
    Represents { q with timerfd := timerfd, readable := readable } s :=
  ⟨h.sound.of_same rfl rfl rfl rfl, h.due, h.known, h.again, h.idle, h.round⟩

theorem represents_start : Represents (start : TimerQueue κ) Alarms.start where
  sound := {
    timers := fun e => by simp [start]
    active := fun x hx => absurd hx (OrdSet.not_mem_empty x)
    nodup := List.nodup_nil
    held := fun a ha => absurd ha List.not_mem_nil
    owned := fun a t ht => by cases ht
    bounds := fun a t ht => by cases ht
    unique := fun a b t u ht => by cases ht }
  due n d := by
    constructor
    · intro h
      cases h
    · rintro ⟨a, t, ht, -⟩
      cases ht
  known n hn := absurd hn (Set.notMem_empty n)
  again a t ht := by cases ht
  idle _ := rfl
  round x hx := by cases hx

theorem mem_held {x : Expired} (hx : q.calling = some x) {e : Entry} (he : e ∈ x.all) : (ofLex e).2 ∈ q.held := by
  refine List.mem_append_left _ (List.mem_map_of_mem ?_)
  rw [expired, hx]
  exact he

theorem held_of_idle (h : q.calling = none) : q.held = q.adding := by
  rw [held, expired, h]
  rfl

theorem held_of_called {now : Int} {called : List Entry} (h : q.calling = some ⟨now, called, []⟩) :
    q.held = called.map (fun e => (ofLex e).2) ++ q.adding := by
  rw [held, expired, h]
  simp [Expired.all]

/-- The numbers of the timers in other hands stay when those timers do. -/
theorem Represents.round_of_heap (h : Represents q s) (q' : TimerQueue κ) (hcalling : q'.calling = q.calling)
    (hheap : ∀ a ∈ q.held, q'.heap a = q.heap a) {x : Expired} (hx : q'.calling = some x) :
    (∀ e ∈ x.all, q'.number e = q.number e) ∧ ∃ canceled,
      s.round = some ⟨x.now, x.called.map q'.number, x.rest.map q'.number, canceled⟩ ∧
        ∀ e ∈ x.all, q'.number e ∈ canceled ↔ toLex ((ofLex e).2, q'.number e) ∈ q.cancelingTimers := by
  rw [hcalling] at hx
  have hnumber : ∀ e ∈ x.all, q'.number e = q.number e := by
    intro e he
    rw [number, number, hheap _ (mem_held hx he)]
  obtain ⟨canceled, hround, hcanceled⟩ := h.round x hx
  have hcalled : x.called.map q'.number = x.called.map q.number :=
    List.map_congr_left fun e he => hnumber e (List.mem_append_left _ he)
  have hrest : x.rest.map q'.number = x.rest.map q.number :=
    List.map_congr_left fun e he => hnumber e (List.mem_append_right _ he)
  refine ⟨hnumber, canceled, by rw [hround, hcalled, hrest], fun e he => ?_⟩
  rw [hnumber e he]
  exact hcanceled e he

/-- A timer is made at a free address. -/
theorem Represents.addTimer (h : Represents q s) {a : Nat} (hfree : q.heap a = none) (ha : a < UINTPTR_MAX)
    (callback : κ) (when : Int) (interval : ℚ) :
    Represents { q with
      heap := Function.update q.heap a (some ⟨callback, when, interval, q.numCreated + 1⟩)
      numCreated := q.numCreated + 1
      adding := a :: q.adding } s := by
  set t : Timer κ := ⟨callback, when, interval, q.numCreated + 1⟩
  set q' : TimerQueue κ := { q with
    heap := Function.update q.heap a (some t)
    numCreated := q.numCreated + 1
    adding := a :: q.adding } with hq'
  have hself : q'.heap a = some t := Function.update_self ..
  have hother : ∀ {b}, b ≠ a → q'.heap b = q.heap b := fun hb => Function.update_of_ne hb ..
  have hne : ∀ {b u}, q.heap b = some u → b ≠ a := by
    rintro b u hu rfl
    rw [hfree] at hu
    cases hu
  have hperm : q'.held.Perm (a :: q.held) := List.perm_middle
  have hactive : ∀ {b n}, toLex (b, n) ∈ q.activeTimers → b ≠ a := by
    intro b n hx
    obtain ⟨u, hu, -⟩ := h.sound.active _ hx
    exact hne hu
  have hnew : ∀ {b u}, q'.heap b = some u → b ≠ a → q.heap b = some u := fun hu hb => (hother hb) ▸ hu
  -- its number is new
  have hcreated : ∀ {b u}, q.heap b = some u → u.sequence ≠ q.numCreated + 1 := fun hu heq =>
    absurd (h.sound.bounds _ _ hu).2 (by rw [heq]; exact Nat.not_succ_le_self _)
  have hsound : q'.Sound (a :: q.held) := by
    refine ⟨fun e => ?_, fun x hx => ?_, List.nodup_cons.2 ⟨fun hmem => ?_, h.sound.nodup⟩, fun b hb => ?_,
      fun b u hu => ?_, fun b u hu => ?_, fun b c u v hu hv heq => ?_⟩
    · have hentry : e ∈ q'.timers ↔ e ∈ q.timers := Iff.rfl
      rw [hentry, h.sound.timers]
      constructor
      · rintro ⟨u, hu, hexp, hx⟩
        exact ⟨u, (hother (hne hu)).trans hu, hexp, hx⟩
      · rintro ⟨u, hu, hexp, hx⟩
        exact ⟨u, hnew hu (hactive hx), hexp, hx⟩
    · obtain ⟨u, hu, hseq⟩ := h.sound.active x hx
      exact ⟨u, (hother (hne hu)).trans hu, hseq⟩
    · obtain ⟨u, hu, -⟩ := h.sound.held a hmem
      exact hne hu rfl
    · rcases List.mem_cons.1 hb with rfl | hb
      · exact ⟨t, hself, fun hx => hactive hx rfl⟩
      · obtain ⟨u, hu, hx⟩ := h.sound.held b hb
        exact ⟨u, (hother (hne hu)).trans hu, hx⟩
    · by_cases hb : b = a
      · exact .inl (hb ▸ List.mem_cons_self)
      · exact (h.sound.owned b u (hnew hu hb)).imp_left (List.mem_cons_of_mem _)
    · by_cases hb : b = a
      · subst hb
        rw [hself] at hu
        cases hu
        exact ⟨ha, Nat.le_refl _⟩
      · obtain ⟨haddr, hseq⟩ := h.sound.bounds b u (hnew hu hb)
        exact ⟨haddr, Nat.le_succ_of_le hseq⟩
    · by_cases hb : b = a
      · by_cases hc : c = a
        · exact hb.trans hc.symm
        · rw [hb, hself] at hu
          cases hu
          exact absurd heq.symm (hcreated (hnew hv hc))
      · by_cases hc : c = a
        · rw [hc, hself] at hv
          cases hv
          exact absurd heq (hcreated (hnew hu hb))
        · exact h.sound.unique b c u v (hnew hu hb) (hnew hv hc) heq
  refine ⟨hsound.perm hperm.symm, fun n d => ?_, fun n hn => ?_, fun b u hu hb => ?_, h.idle, fun x hx => ?_⟩
  · rw [h.due]
    constructor
    · rintro ⟨b, u, hu, hseq, hexp, hb⟩
      refine ⟨b, u, (hother (hne hu)).trans hu, hseq, hexp, fun hmem => ?_⟩
      exact (List.mem_cons.1 (hperm.mem_iff.1 hmem)).elim (hne hu) hb
    · rintro ⟨b, u, hu, hseq, hexp, hb⟩
      rw [hperm.mem_iff, List.mem_cons, not_or] at hb
      exact ⟨b, u, hnew hu hb.1, hseq, hexp, hb.2⟩
  · obtain ⟨hle, hadding⟩ := h.known n hn
    refine ⟨Nat.le_succ_of_le hle, fun b hb u hu => ?_⟩
    by_cases hba : b = a
    · rw [hba, hself] at hu
      cases hu
      exact fun heq => absurd hle (by rw [← heq]; exact Nat.not_succ_le_self _)
    · exact hadding b ((List.mem_cons.1 hb).resolve_left hba) u (hnew hu hba)
  · obtain ⟨hba, hb⟩ := not_or.1 (fun hor => hb (List.mem_cons.2 hor))
    exact h.again b u (hnew hu hba) hb
  · have hkept : ∀ b ∈ q.held, q'.heap b = q.heap b := by
      intro b hb
      obtain ⟨u, hu, -⟩ := h.sound.held b hb
      exact hother (hne hu)
    exact (h.round_of_heap q' rfl hkept hx).2

/-- What is in no other hands is in the sets. -/
theorem Represents.mem_timers (h : Represents q s) {a : Nat} {t : Timer κ} (ht : q.heap a = some t) :
    toLex (t.expiration, a) ∈ q.timers ↔ a ∉ q.held := by
  rw [← h.sound.active_iff ht, h.sound.timers]
  constructor
  · rintro ⟨u, hu, -, hx⟩
    have hu' : q.heap a = some u := hu
    rw [ht] at hu'
    cases hu'
    exact hx
  · exact fun hx => ⟨t, ht, rfl, hx⟩

/-- A timer that was made is added. -/
theorem Represents.addTimerInLoop (h : Represents q s) {a : Nat} (ha : a ∈ q.adding) {t : Timer κ}
    (ht : q.heap a = some t) (hset : Alarms.step s (.set t.sequence t.expiration (Timer.again t.interval)) = .ok s') :
    Represents ({ q with adding := q.adding.erase a }.inserted a t) s' := by
  set q' : TimerQueue κ := { q with adding := q.adding.erase a }.inserted a t with hq'
  have hperm : q.held.Perm (a :: q'.held) := ((List.perm_cons_erase ha).append_left _).trans List.perm_middle
  have hnodup := List.nodup_cons.1 (hperm.nodup_iff.1 h.sound.nodup)
  have hnot : a ∉ q.adding.erase a := fun hmem => hnodup.1 (List.mem_append_right _ hmem)
  have hsame : ∀ {b u}, q.heap b = some u → u.sequence = t.sequence → b = a := fun hu heq =>
    h.sound.unique _ _ _ _ hu ht heq
  have hsound : ({ q with adding := q.adding.erase a } : TimerQueue κ).Sound (a :: q'.held) :=
    (h.sound.perm hperm).of_same rfl rfl rfl rfl
  -- numbers are given once: the other alarms stay what they were
  obtain ⟨-, hknown, hround, hdue, hrule, hother⟩ := Alarms.step_set hset
  refine ⟨hsound.inserted ht, fun n d => ?_, fun n hn => ?_, fun b u hu hb => ?_, fun hnone => ?_, fun x hx => ?_⟩
  · constructor
    · intro hn
      by_cases heq : n = t.sequence
      · rw [heq, hdue] at hn
        cases hn
        exact ⟨a, t, ht, heq.symm, rfl, hnodup.1⟩
      · rw [(hother n heq).1, h.due] at hn
        obtain ⟨b, u, hu, hseq, hexp, hb⟩ := hn
        exact ⟨b, u, hu, hseq, hexp, fun hmem => hb (hperm.mem_iff.2 (List.mem_cons_of_mem _ hmem))⟩
    · rintro ⟨b, u, hu, hseq, hexp, hb⟩
      have hu' : q.heap b = some u := hu
      by_cases hba : b = a
      · rw [hba, ht] at hu'
        cases hu'
        rw [← hseq, hdue, hexp]
      · have hne : n ≠ t.sequence := fun heq => hba (hsame hu' (hseq.trans heq))
        rw [(hother n hne).1, h.due]
        refine ⟨b, u, hu', hseq, hexp, fun hmem => ?_⟩
        exact (List.mem_cons.1 (hperm.mem_iff.1 hmem)).elim hba hb
  · rw [hknown] at hn
    rcases hn with rfl | hn
    · refine ⟨(h.sound.bounds a t ht).2, fun b hb u hu heq => ?_⟩
      obtain rfl := hsame hu heq
      exact hnot hb
    · obtain ⟨hle, hadding⟩ := h.known n hn
      exact ⟨hle, fun b hb => hadding b (List.mem_of_mem_erase hb)⟩
  · rw [hknown]
    have hu' : q.heap b = some u := hu
    by_cases hba : b = a
    · rw [hba, ht] at hu'
      cases hu'
      exact ⟨.inl rfl, hrule⟩
    · have hb' : b ∉ q.adding := fun hmem => hb ((List.mem_erase_of_ne hba).2 hmem)
      obtain ⟨hmem, hagain⟩ := h.again b u hu' hb'
      rw [(hother u.sequence fun heq => hba (hsame hu' heq)).2]
      exact ⟨.inr hmem, hagain⟩
  · rw [hround]
    exact h.idle hnone
  · rw [hround]
    exact h.round x hx

/-- An active timer is canceled. -/
theorem Represents.cancel (h : Represents q s) {a : Nat} {t : Timer κ} {e : Entry} (ht : q.heap a = some t)
    (he : e ∈ q.timers) (haddr : (ofLex e).2 = a) (hsound : ((q.removed e t).delete a).Sound q.held)
    (hcancel : Alarms.step s (.cancel t.sequence) = .ok s') : Represents ((q.removed e t).delete a) s' := by
  set q' : TimerQueue κ := (q.removed e t).delete a
  have hheap : ∀ {b u}, q'.heap b = some u ↔ b ≠ a ∧ q.heap b = some u := heap_delete
  have hnot : a ∉ q.held := by
    obtain ⟨u, hu, -, hx⟩ := (h.sound.timers e).1 he
    rw [← haddr]
    exact (h.sound.active_iff hu).1 hx
  have hsame : ∀ {b u}, q.heap b = some u → u.sequence = t.sequence → b = a := fun hu heq =>
    h.sound.unique _ _ _ _ hu ht heq
  obtain ⟨hknown, hagain, hnone, hother, hround⟩ := Alarms.step_cancel hcancel
  refine ⟨hsound, fun n d => ?_, fun n hn => ?_, fun b u hu hb => ?_, fun hidle => ?_, fun x hx => ?_⟩
  · constructor
    · intro hn
      by_cases heq : n = t.sequence
      · rw [heq, hnone] at hn
        cases hn
      · rw [hother n heq, h.due] at hn
        obtain ⟨b, u, hu, hseq, hexp, hb⟩ := hn
        refine ⟨b, u, hheap.2 ⟨?_, hu⟩, hseq, hexp, hb⟩
        rintro rfl
        rw [ht] at hu
        cases hu
        exact heq hseq.symm
    · rintro ⟨b, u, hu, hseq, hexp, hb⟩
      obtain ⟨hba, hu⟩ := hheap.1 hu
      rw [hother n fun heq => hba (hsame hu (hseq.trans heq)), h.due]
      exact ⟨b, u, hu, hseq, hexp, hb⟩
  · obtain ⟨hle, hadding⟩ := h.known n (hknown ▸ hn)
    exact ⟨hle, fun b hb u hu => hadding b hb u (hheap.1 hu).2⟩
  · rw [hknown, hagain]
    exact h.again b u (hheap.1 hu).2 hb
  · rw [hround, h.idle hidle]
    rfl
  · have hkept : ∀ b ∈ q.held, q'.heap b = q.heap b := fun b hb =>
      Function.update_of_ne (ne_of_mem_of_not_mem hb hnot) ..
    obtain ⟨hnumber, canceled, hold, hcanceled⟩ := h.round_of_heap q' rfl hkept hx
    refine ⟨Insert.insert t.sequence canceled, by rw [hround, hold]; rfl, fun e' he' => ?_⟩
    -- an active timer is not in the vector, so the round has nothing to forget
    have hne : q'.number e' ≠ t.sequence := by
      intro heq
      have hmem : (ofLex e').2 ∈ q.held := mem_held (q := q) hx he'
      obtain ⟨u, hu, -⟩ := h.sound.held _ hmem
      rw [hnumber e' he', number_eq hu] at heq
      exact hnot (hsame hu heq ▸ hmem)
    rw [Set.mem_insert_iff, or_iff_right hne]
    exact hcanceled e' he'

/-- A timer that is not active is canceled: it may be in the round under way. -/
theorem Represents.cancel_held (h : Represents q s) {id : TimerId}
    (hactive : toLex (id.timer, id.sequence) ∉ q.activeTimers) {x : Expired} (hx : q.calling = some x) :
    ∃ s', Run.run Alarms.step s (q.means (.cancelInLoop id)) = .ok s' ∧
      Represents { q with cancelingTimers := OrdSet.add q.cancelingTimers (toLex (id.timer, id.sequence)) } s' := by
  set q' : TimerQueue κ := { q with
    cancelingTimers := OrdSet.add q.cancelingTimers (toLex (id.timer, id.sequence)) }
  have hsound : q'.Sound q'.held := h.sound.of_same rfl rfl rfl rfl
  obtain ⟨canceled, hround, hcanceled⟩ := h.round x hx
  have hadd : ∀ {y : ActiveTimer}, y ∈ q'.cancelingTimers ↔ y = toLex (id.timer, id.sequence) ∨
      y ∈ q.cancelingTimers := OrdSet.mem_add
  by_cases hcond : (q.heap id.timer).map Timer.sequence = some id.sequence ∧ id.timer ∉ q.adding
  · obtain ⟨t, ht, hseq⟩ := Option.map_eq_some_iff.1 hcond.1
    have hsame : ∀ {b u}, q.heap b = some u → u.sequence = id.sequence → b = id.timer := fun hu heq =>
      h.sound.unique _ _ _ _ hu ht (heq.trans hseq.symm)
    -- it is there and not active, and was added: it is in the vector
    have hheld : id.timer ∈ q.held := by
      refine (h.sound.owned _ t ht).resolve_right ?_
      rw [hseq]
      exact hactive
    obtain ⟨s', hcancel⟩ : ∃ s', Alarms.step s (.cancel id.sequence) = .ok s' := ⟨_, rfl⟩
    obtain ⟨hknown, hagain, hnone, hother, hround'⟩ := Alarms.step_cancel hcancel
    refine ⟨s', ?_, hsound, fun n d => ?_, ?_, ?_, fun hidle => ?_, fun y hy => ?_⟩
    · rw [means, if_pos hcond, Run.run, hcancel]
      rfl
    · by_cases heq : n = id.sequence
      · rw [heq, hnone]
        refine ⟨fun hn => (by cases hn), ?_⟩
        rintro ⟨b, u, hu, hseq', -, hb⟩
        exact absurd hheld (hsame hu hseq' ▸ hb)
      · rw [hother n heq]
        exact h.due n d
    · rw [hknown]
      exact h.known
    · rw [hknown, hagain]
      exact h.again
    · rw [hround', h.idle hidle]
      rfl
    · have hy' : q.calling = some y := hy
      rw [hx] at hy'
      cases hy'
      refine ⟨Insert.insert id.sequence canceled, by rw [hround', hround]; rfl, fun e he => ?_⟩
      have hnumber : q'.number e = q.number e := rfl
      rw [Set.mem_insert_iff, hadd, hnumber, hcanceled e he]
      refine or_congr_left ⟨fun heq => ?_, fun heq => congrArg (fun z => (ofLex z).2) heq⟩
      obtain ⟨u, hu, -⟩ := h.sound.held _ (mem_held hx he)
      rw [heq]
      rw [number_eq hu] at heq
      rw [hsame hu heq]
  -- an id of no timer of the vector is noted, and forgotten with the round
  · refine ⟨s, ?_, hsound, h.due, h.known, h.again, h.idle, fun y hy => ?_⟩
    · rw [means, if_neg hcond]
      rfl
    · have hy' : q.calling = some y := hy
      rw [hx] at hy'
      cases hy'
      refine ⟨canceled, hround, fun e he => ?_⟩
      have hnumber : q'.number e = q.number e := rfl
      rw [hadd, hnumber, hcanceled e he, or_iff_right]
      intro heq
      have haddr : (ofLex e).2 = id.timer := congrArg (fun z => (ofLex z).1) heq
      have hseq : q.number e = id.sequence := congrArg (fun z => (ofLex z).2) heq
      have hheld := mem_held hx he
      obtain ⟨u, hu, -⟩ := h.sound.held _ hheld
      rw [number_eq hu] at hseq
      rw [haddr] at hu
      refine hcond ⟨by rw [hu, ← hseq]; rfl, fun hadding => ?_⟩
      have hmem : id.timer ∈ q.expired.map (fun e => (ofLex e).2) := by
        rw [expired, hx, ← haddr]
        exact List.mem_map_of_mem he
      exact (List.nodup_append.1 h.sound.nodup).2.2 _ hmem _ hadding rfl

/-- Between the rounds only an active timer is there to be canceled. -/
theorem Represents.means_cancel (h : Represents q s) {id : TimerId}
    (hactive : toLex (id.timer, id.sequence) ∉ q.activeTimers) (hx : q.calling = none) :
    q.means (.cancelInLoop id) = [] := by
  refine if_neg ?_
  rintro ⟨hseq, hadding⟩
  obtain ⟨t, ht, hseq⟩ := Option.map_eq_some_iff.1 hseq
  have hheld : id.timer ∈ q.held := by
    refine (h.sound.owned _ t ht).resolve_right ?_
    rw [hseq]
    exact hactive
  rw [held_of_idle hx] at hheld
  exact hadding hheld

/-- The timer of an entry. -/
theorem Represents.entry (h : Represents q s) {e : Entry} (he : e ∈ q.timers) :
    ∃ t, q.heap (ofLex e).2 = some t ∧ t.expiration = (ofLex e).1 ∧ q.number e = t.sequence ∧ (ofLex e).2 ∉ q.held := by
  obtain ⟨t, ht, hexp, hx⟩ := (h.sound.timers e).1 he
  exact ⟨t, ht, hexp, number_eq ht, (h.sound.active_iff ht).1 hx⟩

theorem Represents.number_inj (h : Represents q s) {e e' : Entry} (he : e ∈ q.timers) (he' : e' ∈ q.timers)
    (heq : q.number e = q.number e') : e = e' := by
  obtain ⟨t, ht, hexp, hnumber, -⟩ := h.entry he
  obtain ⟨t', ht', hexp', hnumber', -⟩ := h.entry he'
  have haddr : (ofLex e).2 = (ofLex e').2 :=
    h.sound.unique _ _ _ _ ht ht' (by rw [← hnumber, heq, hnumber'])
  rw [haddr, ht'] at ht
  cases ht
  have hpair : ofLex e = ofLex e' := Prod.ext (hexp.symm.trans hexp') haddr
  exact hpair

/-- The alarms that are set are the entries. -/
theorem Represents.due_iff (h : Represents q s) {n : Nat} {d : Int} :
    s.due n = some d ↔ ∃ e ∈ q.timers, q.number e = n ∧ (ofLex e).1 = d := by
  rw [h.due]
  constructor
  · rintro ⟨a, t, ht, hseq, hexp, ha⟩
    exact ⟨toLex (t.expiration, a), (h.mem_timers ht).2 ha, (number_eq ht).trans hseq, hexp⟩
  · rintro ⟨e, he, hseq, hexp⟩
    obtain ⟨t, ht, hexp', hnumber, hheld⟩ := h.entry he
    exact ⟨(ofLex e).2, t, ht, hnumber.symm.trans hseq, hexp'.trans hexp, hheld⟩

/-- What has expired is due. -/
theorem Represents.due_expiredBy (h : Represents q s) (now : Int) :
    s.Due now ((q.expiredBy now).map q.number) := by
  obtain ⟨hsorted, hmem⟩ := h.sound.mem_expiredBy now
  refine ⟨(List.nodup_map_iff_inj_on (hsorted.imp ne_of_lt)).2 fun e he e' he' heq => ?_, fun n => ?_, ?_⟩
  · exact h.number_inj ((hmem e).1 he).1 ((hmem e').1 he').1 heq
  · rw [List.mem_map]
    constructor
    · rintro ⟨e, he, rfl⟩
      obtain ⟨he, hle⟩ := (hmem e).1 he
      exact ⟨_, h.due_iff.2 ⟨e, he, rfl, rfl⟩, hle⟩
    · rintro ⟨d, hd, hle⟩
      obtain ⟨e, he, hn, rfl⟩ := h.due_iff.1 hd
      exact ⟨e, (hmem e).2 ⟨he, hle⟩, hn⟩
  · rw [List.pairwise_map]
    refine hsorted.imp_of_mem fun he he' hlt d d' hd hd' => ?_
    rw [h.due_iff.2 ⟨_, ((hmem _).1 he).1, rfl, rfl⟩] at hd
    rw [h.due_iff.2 ⟨_, ((hmem _).1 he').1, rfl, rfl⟩] at hd'
    cases hd
    cases hd'
    exact fst_le hlt.le

/-- `handleRead` asks for what is due. -/
theorem Represents.handleRead (h : Represents q s) (hidle : q.calling = none) (now : Int) :
    ∃ active s', q.handleRead now = .ok (q.expiring now active) ∧
      Alarms.step s (.ask now ((q.expiredBy now).map q.number)) = .ok s' ∧
      Represents (q.expiring now active) s' := by
  have hread : ({ q with readable := false } : TimerQueue κ).Sound q.adding := by
    have hsound : ({ q with readable := false } : TimerQueue κ).Sound q.held := h.sound.of_same rfl rfl rfl rfl
    rw [held_of_idle hidle] at hsound
    exact hsound
  obtain ⟨active, hexpired, hsound⟩ := hread.getExpired now
  -- what moves from the sets to the vector is what the alarms take into their round
  obtain ⟨s', hask⟩ := Alarms.exists_ask (h.idle hidle) (h.due_expiredBy now)
  obtain ⟨-, -, hknown, hagain, hround, hin, hout⟩ := Alarms.step_ask hask
  obtain ⟨-, hmem⟩ := h.sound.mem_expiredBy now
  refine ⟨active, s', ?_, hask, hsound.of_same rfl rfl rfl rfl, fun n d => ?_, ?_, ?_, fun hnone => ?_,
    fun x hx => ?_⟩
  · unfold TimerQueue.handleRead
    rw [hexpired]
    rfl
  · constructor
    · intro hn
      have hl : n ∉ (q.expiredBy now).map q.number := fun hl => by
        rw [hin n hl] at hn
        cases hn
      rw [hout n hl, h.due] at hn
      obtain ⟨b, u, hu, hseq, hexp, hb⟩ := hn
      refine ⟨b, u, hu, hseq, hexp, fun hheld => ?_⟩
      rcases List.mem_append.1 hheld with hheld | hheld
      · obtain ⟨e, he, rfl⟩ := List.mem_map.1 hheld
        exact hl (List.mem_map.2 ⟨e, he, (number_eq hu).trans hseq⟩)
      · exact hb (List.mem_append_right _ hheld)
    · rintro ⟨b, u, hu, hseq, hexp, hb⟩
      have hl : n ∉ (q.expiredBy now).map q.number := fun hl => by
        obtain ⟨e, he, hn⟩ := List.mem_map.1 hl
        obtain ⟨t, ht, -, hnumber, -⟩ := h.entry ((hmem e).1 he).1
        have haddr := h.sound.unique _ _ _ _ ht hu (by rw [← hnumber, hn, hseq])
        exact hb (List.mem_append_left _ (List.mem_map.2 ⟨e, he, haddr⟩))
      rw [hout n hl, h.due]
      refine ⟨b, u, hu, hseq, hexp, fun hheld => hb (List.mem_append_right _ ?_)⟩
      rw [held_of_idle hidle] at hheld
      exact hheld
  · rw [hknown]
    exact h.known
  · rw [hknown, hagain]
    exact h.again
  · cases hnone
  · cases hx
    exact ⟨∅, hround, fun e he => iff_of_false (Set.notMem_empty _) (OrdSet.not_mem_empty _)⟩

/-- The next timer of the vector is run. -/
theorem Represents.run (h : Represents q s) {now : Int} {called : List Entry} {e : Entry} {rest : List Entry}
    (hx : q.calling = some ⟨now, called, e :: rest⟩) :
    (∃ t, q.heap (ofLex e).2 = some t) ∧ ∃ s', Alarms.step s .call = .ok s' ∧
      Represents { q with calling := some ⟨now, called ++ [e], rest⟩ } s' := by
  set q' : TimerQueue κ := { q with calling := some ⟨now, called ++ [e], rest⟩ }
  have hheld : q'.held = q.held := by
    rw [held, held, expired, expired, hx]
    simp [q', Expired.all]
  obtain ⟨t, ht, -⟩ := h.sound.held _ (mem_held hx (List.mem_append_right _ List.mem_cons_self))
  obtain ⟨canceled, hround, hcanceled⟩ := h.round _ hx
  refine ⟨⟨t, ht⟩, { s with round := some ⟨now, called.map q.number ++ [q.number e], rest.map q.number, canceled⟩ },
    ?_, ?_, fun n d => ?_, h.known, h.again, fun hnone => ?_, fun x hx' => ?_⟩
  · rw [Alarms.step, hround]
    rfl
  · rw [hheld]
    exact h.sound.of_same rfl rfl rfl rfl
  · rw [hheld]
    exact h.due n d
  · cases hnone
  · cases hx'
    refine ⟨canceled, by rw [List.map_append]; rfl, fun e' he' => hcanceled e' ?_⟩
    rwa [Expired.all, List.append_assoc] at he'

theorem restarted_eq_some {now : Int} {called : List Entry} {a : Nat} {t : Timer κ} :
    q.restarted now called a = some t ↔ a ∉ called.map (fun e => (ofLex e).2) ∧ q.heap a = some t ∨
      a ∈ called.map (fun e => (ofLex e).2) ∧ ∃ u, q.heap a = some u ∧ u.repeats ∧
        toLex (a, u.sequence) ∉ q.cancelingTimers ∧ t = u.restart now := by
  rw [restarted]
  by_cases ha : a ∈ called.map (fun e => (ofLex e).2)
  · rw [if_pos ha, or_iff_right (fun hnot => hnot.1 ha), and_iff_right ha, Option.bind_eq_some_iff]
    refine exists_congr fun u => and_congr_right fun _ => ?_
    by_cases hagain : u.repeats ∧ toLex (a, u.sequence) ∉ q.cancelingTimers
    · rw [if_pos hagain, and_iff_right hagain.1, and_iff_right hagain.2, Option.some_inj]
      exact eq_comm
    · rw [if_neg hagain]
      exact iff_of_false (fun hnone => by cases hnone) fun hall => hagain ⟨hall.1, hall.2.1⟩
  · rw [if_neg ha, or_iff_left (fun hnot => ha hnot.1), and_iff_right ha]

/-- The end of `handleRead` sets the alarms again. -/
theorem Represents.reset (h : Represents q s) {now : Int} {called : List Entry}
    (hx : q.calling = some ⟨now, called, []⟩)
    (hsound : q'.Sound q.adding) (hrest : SameRest { q with calling := none } q')
    (hheap : q'.heap = q.restarted now called) :
    ∃ s', Alarms.step s .finish = .ok s' ∧ Represents q' s' := by
  have hheld := held_of_called hx
  have hheld' : q'.held = q.adding := (held_of_idle hrest.calling).trans hrest.adding
  obtain ⟨canceled, hround, hcanceled⟩ := h.round _ hx
  have hcanceled' : ∀ e ∈ called, q.number e ∈ canceled ↔ toLex ((ofLex e).2, q.number e) ∈ q.cancelingTimers :=
    fun e he => hcanceled e (List.mem_append_left _ he)
  obtain ⟨s', hfinish⟩ := Alarms.exists_finish hround
  obtain ⟨now', called', canceled', hround', hknown, hagain, hnone, hin, hout⟩ := Alarms.step_finish hfinish
  rw [hround] at hround'
  cases hround'
  have hadding : ∀ a ∈ q.adding, a ∉ called.map (fun e => (ofLex e).2) := fun a ha hmem => by
    have hnodup := h.sound.nodup
    rw [hheld] at hnodup
    exact (List.nodup_append.1 hnodup).2.2 a hmem a ha rfl
  -- a timer that is there was there before, with the same number and interval
  have hold : ∀ {a t}, q'.heap a = some t →
      ∃ u, q.heap a = some u ∧ u.sequence = t.sequence ∧ u.interval = t.interval := by
    intro a t ht
    rw [hheap, restarted_eq_some] at ht
    rcases ht with ⟨-, ht⟩ | ⟨-, u, hu, -, -, rfl⟩
    · exact ⟨t, ht, rfl, rfl⟩
    · exact ⟨u, hu, rfl, rfl⟩
  refine ⟨s', hfinish, hheld' ▸ hsound, fun n d => ?_, fun n hn => ?_, fun a t ht ha => ?_, fun _ => hnone,
    fun x hx' => ?_⟩
  · rw [hheld']
    constructor
    · intro hn
      by_cases hagain' : n ∈ called.map q.number ∧ n ∉ canceled
      -- it was called, repeats and was not canceled: `restart`
      · rw [hin n hagain'.1 hagain'.2] at hn
        obtain ⟨⟨e, he, rfl⟩, hnot⟩ := hagain'.imp_left List.mem_map.1
        have hmem : (ofLex e).2 ∈ called.map (fun e => (ofLex e).2) := List.mem_map_of_mem he
        have hfree : (ofLex e).2 ∉ q.adding := fun ha => hadding _ ha hmem
        obtain ⟨t, ht, -⟩ := h.sound.held _ (hheld ▸ List.mem_append_left _ hmem)
        rw [hcanceled' e he] at hnot
        rw [number_eq ht] at hn hnot
        rw [(h.again _ t ht hfree).2] at hn
        have hrepeats : t.repeats := by
          by_contra hno
          rw [Timer.again, if_neg (fun hpos => hno (decide_eq_true hpos))] at hn
          cases hn
        rw [Timer.again_of_repeats hrepeats] at hn
        cases hn
        refine ⟨(ofLex e).2, t.restart now, ?_, (number_eq ht).symm, rfl, hfree⟩
        rw [hheap, restarted_eq_some]
        exact .inr ⟨hmem, t, ht, hrepeats, hnot, rfl⟩
      · rw [hout n hagain', h.due] at hn
        obtain ⟨a, t, ht, hseq, hexp, ha⟩ := hn
        rw [hheld, List.mem_append, not_or] at ha
        refine ⟨a, t, ?_, hseq, hexp, ha.2⟩
        rw [hheap, restarted_eq_some]
        exact .inl ⟨ha.1, ht⟩
    · rintro ⟨a, t, ht, hseq, hexp, ha⟩
      rw [hheap, restarted_eq_some] at ht
      rcases ht with ⟨hmem, ht⟩ | ⟨hmem, u, hu, hrepeats, hnot, rfl⟩
      · have hother : n ∉ called.map q.number := fun hn => by
          obtain ⟨e, he, hn⟩ := List.mem_map.1 hn
          have hmem' : (ofLex e).2 ∈ called.map (fun e => (ofLex e).2) := List.mem_map_of_mem he
          obtain ⟨u, hu, -⟩ := h.sound.held _ (hheld ▸ List.mem_append_left _ hmem')
          have haddr := h.sound.unique _ _ _ _ hu ht (by rw [← number_eq hu, hn, hseq])
          exact hmem (haddr ▸ hmem')
        rw [hout n fun hall => hother hall.1, h.due]
        refine ⟨a, t, ht, hseq, hexp, ?_⟩
        rw [hheld, List.mem_append, not_or]
        exact ⟨hmem, ha⟩
      · obtain ⟨e, he, rfl⟩ := List.mem_map.1 hmem
        have hn : q.number e = n := (number_eq hu).trans hseq
        rw [← number_eq hu, ← hcanceled' e he, hn] at hnot
        rw [hin n (List.mem_map.2 ⟨e, he, hn⟩) hnot, ← hn, number_eq hu, (h.again _ u hu ha).2,
          Timer.again_of_repeats hrepeats, hexp]
  · rw [hrest.numCreated, hrest.adding]
    obtain ⟨hle, hother⟩ := h.known n (hknown ▸ hn)
    refine ⟨hle, fun a ha t ht => ?_⟩
    obtain ⟨u, hu, hseq, -⟩ := hold ht
    rw [← hseq]
    exact hother a ha u hu
  · rw [hrest.adding] at ha
    obtain ⟨u, hu, hseq, hinterval⟩ := hold ht
    rw [hknown, hagain, ← hseq, ← hinterval]
    exact h.again a u hu ha
  · rw [hrest.calling] at hx'
    cases hx'

end TimerQueue

end Net

end AimChat
