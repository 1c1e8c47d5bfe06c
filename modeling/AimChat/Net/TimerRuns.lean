import AimChat.Net.Timers

/-! # Runs of a queue of timers

What an event does to a queue in order is said once (`Moves`); all that holds of every run comes from that. The
queue runs into no fault (`sound_of_run`), a timer is called with its own callback and on its times
(`callTimes_of_run`), a canceled one no more (`canceled_of_run`), a round calls what was due (`calls_of_handleRead`),
and the loop is woken in time (`armed_of_run`). -/

namespace AimChat

namespace Net

namespace TimerQueue

variable {κ : Type} {q q' q'' : TimerQueue κ} {s s' : Alarms Nat Int} {es es' : List (Event κ)}

/-- A call of a timer. -/
structure Call (κ : Type) where
  number : Nat
  callback : κ
  now : Int

/-- The timer an event makes, and its address. -/
def made (q : TimerQueue κ) : Event κ → List (Nat × Timer κ)
  | .addTimer addr callback when interval =>
      if q.heap addr = none ∧ addr ≠ 0 ∧ addr < UINTPTR_MAX then
        [(addr, ⟨callback, when, interval, q.numCreated + 1⟩)]
      else []
  | .addTimerInLoop _ => []
  | .cancelInLoop _ => []
  | .alarm => []
  | .handleRead _ => []
  | .run => []
  | .reset => []

/-- The call an event makes. -/
def calls (q : TimerQueue κ) : Event κ → List (Call κ)
  | .run =>
      match q.calling with
      | some ⟨now, _, e :: _⟩ => (q.heap (ofLex e).2).toList.map fun t => ⟨t.sequence, t.callback, now⟩
      | _ => []
  | .addTimer _ _ _ _ => []
  | .addTimerInLoop _ => []
  | .cancelInLoop _ => []
  | .alarm => []
  | .handleRead _ => []
  | .reset => []

/-- What an event does to a queue in order. -/
inductive Moves (q : TimerQueue κ) : Event κ → TimerQueue κ → Prop
  | idle {e : Event κ} (hmeans : q.means e = []) (hmade : q.made e = []) (hcalls : q.calls e = []) : Moves q e q
  | addTimer {a : Nat} {callback : κ} {when : Int} {interval : ℚ} (hfree : q.heap a = none) (hnull : a ≠ 0)
      (ha : a < UINTPTR_MAX) :
      Moves q (.addTimer a callback when interval) { q with
        heap := Function.update q.heap a (some ⟨callback, when, interval, q.numCreated + 1⟩)
        numCreated := q.numCreated + 1
        adding := a :: q.adding }
  | addTimerInLoop {a : Nat} {t : Timer κ} {first : Bool} (ha : a ∈ q.adding) (ht : q.heap a = some t)
      (hfirst : q.Earliest t first) :
      Moves q (.addTimerInLoop a)
        (if first then ({ q with adding := q.adding.erase a }.inserted a t).resetTimerfd t.expiration
          else { q with adding := q.adding.erase a }.inserted a t)
  | cancel {id : TimerId} {t : Timer κ} {e : Entry} (ht : q.heap id.timer = some t) (hseq : t.sequence = id.sequence)
      (haddr : (ofLex e).2 = id.timer) (he : e ∈ q.timers)
      (hsound : ((q.removed e t).delete id.timer).Sound q.held) :
      Moves q (.cancelInLoop id) ((q.removed e t).delete id.timer)
  | cancelHeld {id : TimerId} {x : Expired} (hactive : toLex (id.timer, id.sequence) ∉ q.activeTimers)
      (hx : q.calling = some x) :
      Moves q (.cancelInLoop id) { q with
        cancelingTimers := OrdSet.add q.cancelingTimers (toLex (id.timer, id.sequence)) }
  | alarm : Moves q .alarm { q with timerfd := none, readable := true }
  | handleRead {now : Int} {active : OrdSet ActiveTimer} (hx : q.calling = none)
      (hread : q.handleRead now = .ok (q.expiring now active)) : Moves q (.handleRead now) (q.expiring now active)
  | run {now : Int} {called : List Entry} {e : Entry} {rest : List Entry} {t : Timer κ}
      (hx : q.calling = some ⟨now, called, e :: rest⟩) (ht : q.heap (ofLex e).2 = some t) :
      Moves q .run { q with calling := some ⟨now, called ++ [e], rest⟩ }
  | reset {now : Int} {called : List Entry} {q' : TimerQueue κ} (hx : q.calling = some ⟨now, called, []⟩)
      (hsound : q'.Sound q.adding) (hrest : SameRest { q with calling := none } q')
      (hheap : q'.heap = q.restarted now called)
      (hhead : ∀ e, q'.timers.keys.head? = some e → (ofLex e).1 ≤ 0) : Moves q .reset q'
  | resetTimerfd {now : Int} {called : List Entry} {q' : TimerQueue κ} {e : Entry}
      (hx : q.calling = some ⟨now, called, []⟩) (hsound : q'.Sound q.adding)
      (hrest : SameRest { q with calling := none } q') (hheap : q'.heap = q.restarted now called)
      (hhead : q'.timers.keys.head? = some e) : Moves q .reset (q'.resetTimerfd (ofLex e).1)

/-- A queue in order runs into no fault. -/
theorem Represents.exists_moves (h : Represents q s) (e : Event κ) : ∃ q', step q e = .ok q' ∧ Moves q e q' := by
  cases e with
  | addTimer a callback when interval =>
      by_cases hfree : q.heap a = none ∧ a ≠ 0 ∧ a < UINTPTR_MAX
      · exact ⟨_, if_pos hfree, .addTimer hfree.1 hfree.2.1 hfree.2.2⟩
      · exact ⟨q, if_neg hfree, .idle rfl (if_neg hfree) rfl⟩
  | addTimerInLoop a =>
      by_cases ha : a ∈ q.adding
      · obtain ⟨t, ht, -⟩ := h.sound.held a (List.mem_append_right _ ha)
        have hperm : q.held.Perm (a :: (q.expired.map (fun e => (ofLex e).2) ++ q.adding.erase a)) :=
          ((List.perm_cons_erase ha).append_left _).trans List.perm_middle
        have hsound : ({ q with adding := q.adding.erase a } : TimerQueue κ).Sound
            (a :: (q.expired.map (fun e => (ofLex e).2) ++ q.adding.erase a)) :=
          (h.sound.perm hperm).of_same rfl rfl rfl rfl
        obtain ⟨first, hadd, hfirst⟩ := hsound.addTimerInLoop ht
        exact ⟨_, (if_pos ha).trans hadd, .addTimerInLoop ha ht hfirst⟩
      · exact ⟨q, if_neg ha, .idle (if_neg ha) rfl rfl⟩
  | cancelInLoop id =>
      rcases h.sound.cancelInLoop id with ⟨t, e, ht, hseq, haddr, he, hcancel, hsound⟩ |
        ⟨hactive, ⟨hx, hcancel⟩ | ⟨hx, hcancel⟩⟩
      · exact ⟨_, hcancel, .cancel ht hseq haddr he hsound⟩
      · obtain ⟨x, hx⟩ := Option.ne_none_iff_exists'.1 hx
        exact ⟨_, hcancel, .cancelHeld hactive hx⟩
      · exact ⟨q, hcancel, .idle (h.means_cancel hactive hx) rfl rfl⟩
  | alarm =>
      by_cases hset : q.timerfd.isSome
      · exact ⟨_, if_pos hset, .alarm⟩
      · exact ⟨q, if_neg hset, .idle rfl rfl rfl⟩
  | handleRead now =>
      by_cases hx : q.calling.isNone
      · obtain ⟨active, -, hread, -⟩ := h.handleRead (Option.isNone_iff_eq_none.1 hx) now
        exact ⟨_, (if_pos hx).trans hread, .handleRead (Option.isNone_iff_eq_none.1 hx) hread⟩
      · exact ⟨q, if_neg hx, .idle (if_neg hx) rfl rfl⟩
  | run =>
      cases hx : q.calling with
      | none => exact ⟨q, by rw [step, hx], .idle (by rw [means, hx]) rfl (by rw [calls, hx])⟩
      | some x =>
          obtain ⟨now, called, rest⟩ := x
          cases rest with
          | nil => exact ⟨q, by rw [step, hx], .idle (by rw [means, hx]) rfl (by rw [calls, hx])⟩
          | cons e rest =>
              obtain ⟨t, ht⟩ := (h.run hx).1
              refine ⟨_, ?_, .run hx ht⟩
              rw [step, hx]
              dsimp only
              rw [timer_eq ht]
              rfl
  | reset =>
      cases hx : q.calling with
      | none => exact ⟨q, by rw [step, hx], .idle (by rw [means, hx]) rfl rfl⟩
      | some x =>
          obtain ⟨now, called, rest⟩ := x
          cases rest with
          | cons e rest => exact ⟨q, by rw [step, hx], .idle (by rw [means, hx]) rfl rfl⟩
          | nil =>
              have hsound : q.Sound (called.map (fun e => (ofLex e).2) ++ q.adding) := held_of_called hx ▸ h.sound
              obtain ⟨q', -, hsound', hrest, hheap, hreset⟩ := @Sound.reset _ _ _ called now hsound
              have hstep : step q .reset = q.reset called now := by rw [step, hx]
              rcases hreset with ⟨hnone, hreset⟩ | ⟨e, hhead, hreset⟩
              · refine ⟨q', hstep.trans hreset, .reset hx hsound' hrest hheap fun e he => ?_⟩
                rw [hnone] at he
                cases he
              · by_cases hpos : 0 < (ofLex e).1
                · rw [if_pos hpos] at hreset
                  exact ⟨_, hstep.trans hreset, .resetTimerfd hx hsound' hrest hheap hhead⟩
                · rw [if_neg hpos] at hreset
                  refine ⟨q', hstep.trans hreset, .reset hx hsound' hrest hheap fun e' he' => ?_⟩
                  rw [hhead] at he'
                  cases he'
                  exact not_lt.1 hpos

/-- What an event does to the queue is what it means to the alarms. -/
theorem Represents.moves (h : Represents q s) {e : Event κ} (hmoves : Moves q e q') :
    ∃ s', Run.run Alarms.step s (q.means e) = .ok s' ∧ Represents q' s' ∧
      (q.calls e).map (fun c => (c.number, c.now)) = Run.log Alarms.step Alarms.calls s (q.means e) := by
  -- an event that is one event of the alarms, and calls what that calls
  have hone : ∀ {e : Event κ} {f : Alarms.Event Nat Int} {s' : Alarms Nat Int}, q.means e = [f] →
      Alarms.step s f = .ok s' → (q.calls e).map (fun c => (c.number, c.now)) = Alarms.calls s f →
      Run.run Alarms.step s (q.means e) = .ok s' ∧
        (q.calls e).map (fun c => (c.number, c.now)) = Run.log Alarms.step Alarms.calls s (q.means e) := by
    intro e f s' hmeans hstep hcalls
    rw [hmeans, Run.run, Run.log, hstep]
    exact ⟨rfl, hcalls.trans (List.append_nil _).symm⟩
  cases hmoves with
  | idle hmeans hmade hcalls =>
      rw [hmeans, hcalls]
      exact ⟨s, rfl, h, rfl⟩
  | addTimer hfree hnull ha => exact ⟨s, rfl, h.addTimer hfree ha _ _ _, rfl⟩
  | @addTimerInLoop a t first ha ht hfirst =>
      -- what waits for `addTimerInLoop` is no alarm yet
      have hnew : t.sequence ∉ s.known := fun hmem => (h.known _ hmem).2 a ha t ht rfl
      obtain ⟨s', hset⟩ := Alarms.exists_set hnew t.expiration (Timer.again t.interval)
      have hmeans : q.means (.addTimerInLoop a) = [.set t.sequence t.expiration (Timer.again t.interval)] := by
        rw [means, if_pos ha, ht]
        rfl
      obtain ⟨hrun, hcalls⟩ := hone hmeans hset rfl
      have hadded := h.addTimerInLoop ha ht hset
      refine ⟨s', hrun, ?_, hcalls⟩
      cases first with
      | true => exact hadded.timerfd _ _
      | false => exact hadded
  | @cancel id t e ht hseq haddr he hsound =>
      obtain ⟨s', hcancel⟩ : ∃ s', Alarms.step s (.cancel t.sequence) = .ok s' := ⟨_, rfl⟩
      have hadding : id.timer ∉ q.adding := by
        obtain ⟨u, hu, -, -, hheld⟩ := h.entry he
        rw [haddr] at hheld
        exact fun hmem => hheld (List.mem_append_right _ hmem)
      have hmeans : q.means (.cancelInLoop id) = [.cancel t.sequence] := by
        rw [means, ht, hseq]
        exact if_pos ⟨congrArg some hseq, hadding⟩
      obtain ⟨hrun, hcalls⟩ := hone hmeans hcancel rfl
      exact ⟨s', hrun, h.cancel ht he haddr hsound hcancel, hcalls⟩
  | @cancelHeld id x hactive hx =>
      obtain ⟨s', hrun, hrep⟩ := h.cancel_held hactive hx
      refine ⟨s', hrun, hrep, ?_⟩
      rw [means]
      split_ifs with hcond
      · rfl
      · rfl
  | alarm => exact ⟨s, rfl, h.timerfd _ _, rfl⟩
  | @handleRead now active hx hread =>
      obtain ⟨active', s', hread', hask, hrep⟩ := h.handleRead hx now
      rw [hread] at hread'
      have hsame : q.expiring now active = q.expiring now active' := Except.ok.inj hread'
      have hmeans : q.means (.handleRead now) = [.ask now ((q.expiredBy now).map q.number)] := by
        rw [means, hx]
        rfl
      obtain ⟨hrun, hcalls⟩ := hone hmeans hask rfl
      exact ⟨s', hrun, hsame ▸ hrep, hcalls⟩
  | @run now called e rest t hx ht =>
      obtain ⟨-, s', hcall, hrep⟩ := h.run hx
      obtain ⟨canceled, hround, -⟩ := h.round _ hx
      have hmeans : q.means .run = [.call] := by rw [means, hx]
      have hcalls : (q.calls .run).map (fun c => (c.number, c.now)) = Alarms.calls s .call := by
        rw [Alarms.calls_of_round hround, calls, hx]
        dsimp only
        rw [ht, number_eq ht]
        rfl
      obtain ⟨hrun, hcalls⟩ := hone hmeans hcall hcalls
      exact ⟨s', hrun, hrep, hcalls⟩
  | @reset now called _ hx hsound hrest hheap hhead =>
      obtain ⟨s', hfinish, hrep⟩ := h.reset hx hsound hrest hheap
      have hmeans : q.means .reset = [.finish] := by rw [means, hx]
      obtain ⟨hrun, hcalls⟩ := hone hmeans hfinish rfl
      exact ⟨s', hrun, hrep, hcalls⟩
  | @resetTimerfd now called q₁ e hx hsound hrest hheap hhead =>
      obtain ⟨s', hfinish, hrep⟩ := h.reset hx hsound hrest hheap
      have hmeans : q.means .reset = [.finish] := by rw [means, hx]
      obtain ⟨hrun, hcalls⟩ := hone hmeans hfinish rfl
      exact ⟨s', hrun, hrep.timerfd _ _, hcalls⟩

/-! ## The first of the timers -/

/-- The loop is woken in time: between two rounds the `timerfd` has gone off, or is set for no later than the first
timer. During a round this is so for timers of no valid time, for which `reset` would not set the `timerfd`. -/
structure Armed (q : TimerQueue κ) : Prop where
  wakes : ∀ e ∈ q.timers, q.calling = none ∨ (ofLex e).1 ≤ 0 →
    q.readable = true ∨ ∃ d, q.timerfd = some d ∧ d ≤ (ofLex e).1
  now : ∀ x, q.calling = some x → 0 < x.now

theorem le_addTime {interval : ℚ} (h : 0 < interval) (now : Int) : now ≤ addTime now interval := by
  have hpos : 0 < interval * 1000000 := Rat.mul_pos h (by decide)
  have hdelta : 0 ≤ (interval * 1000000).num.tdiv (interval * 1000000).den :=
    Int.tdiv_nonneg (Rat.num_nonneg.2 (Rat.le_of_lt hpos)) (Int.natCast_nonneg _)
  rw [addTime]
  omega

/-- A timer that starts again has a valid time. -/
theorem Represents.mem_of_reset (h : Represents q s) {now : Int} {called : List Entry}
    (hx : q.calling = some ⟨now, called, []⟩) (hsound : q'.Sound q.adding) (hheap : q'.heap = q.restarted now called)
    (hnow : 0 < now) {e : Entry} (he : e ∈ q'.timers) (hle : (ofLex e).1 ≤ 0) : e ∈ q.timers := by
  obtain ⟨t, ht, hexp, hactive⟩ := (hsound.timers e).1 he
  have hadding := (hsound.active_iff ht).1 hactive
  rw [hheap, restarted_eq_some] at ht
  rcases ht with ⟨hcalled, ht⟩ | ⟨-, u, -, hrepeats, -, rfl⟩
  · have hheld : (ofLex e).2 ∉ q.held := by
      rw [held_of_called hx, List.mem_append, not_or]
      exact ⟨hcalled, hadding⟩
    have hmem := (h.mem_timers ht).2 hheld
    rw [hexp] at hmem
    exact hmem
  · have hlater := le_addTime (of_decide_eq_true hrepeats) now
    rw [Timer.restart, if_pos hrepeats] at hexp
    dsimp only at hexp
    omega

/-- Every event keeps the queue armed, when the clock shows valid times. -/
theorem Armed.moves (ha : Armed q) (h : Represents q s) {e : Event κ} (hmoves : Moves q e q')
    (hnow : ∀ now, e = .handleRead now → 0 < now) : Armed q' := by
  cases hmoves with
  | idle hmeans hmade hcalls => exact ha
  | addTimer hfree hnull haddr => exact ⟨ha.wakes, ha.now⟩
  | @addTimerInLoop a t first hadding ht hfirst =>
      cases first with
      | true =>
          refine ⟨fun e he _ => .inr ⟨t.expiration, rfl, ?_⟩, ha.now⟩
          rcases OrdSet.mem_add.1 he with rfl | he
          · exact le_refl _
          · exact hfirst e he
      | false =>
          refine ⟨fun e he hwake => ?_, ha.now⟩
          rcases OrdSet.mem_add.1 he with rfl | he
          · -- a timer before it has the `timerfd` set
            obtain ⟨e, he, hle⟩ := hfirst
            refine (ha.wakes e he (hwake.imp_right hle.trans)).imp_right ?_
            rintro ⟨d, hd, hdle⟩
            exact ⟨d, hd, hdle.trans hle⟩
          · exact ha.wakes e he hwake
  | cancel ht hseq haddr he hsound =>
      exact ⟨fun e he hwake => ha.wakes e (OrdSet.mem_remove.1 he).2 hwake, ha.now⟩
  | cancelHeld hactive hx => exact ⟨ha.wakes, ha.now⟩
  | alarm => exact ⟨fun e he _ => .inl rfl, ha.now⟩
  | @handleRead now active hx hread =>
      have hpos := hnow now rfl
      refine ⟨fun e he hwake => ?_, fun x hx => by cases hx; exact hpos⟩
      obtain ⟨hexpired, hmem⟩ := OrdSet.mem_foldl_remove.1 he
      -- all that has no valid time has expired
      have hle : (ofLex e).1 ≤ 0 := hwake.resolve_left (Option.some_ne_none _)
      exact absurd (((h.sound.mem_expiredBy now).2 e).2 ⟨hmem, hle.trans hpos.le⟩) hexpired
  | @run now called e rest t hx ht =>
      refine ⟨fun e he hwake => ?_, fun x hx' => ?_⟩
      · exact ha.wakes e he (.inr (hwake.resolve_left (Option.some_ne_none _)))
      · cases hx'
        have hpos := ha.now _ hx
        exact hpos
  | @reset now called _ hx hsound hrest hheap hhead =>
      refine ⟨fun e he _ => ?_, fun x hx' => ?_⟩
      · rw [hrest.readable, hrest.timerfd]
        have hne : q'.timers.keys ≠ [] := List.ne_nil_of_mem (OrdSet.mem_keys.2 he)
        obtain ⟨e₀, hfirst⟩ := Option.ne_none_iff_exists'.1 (mt List.head?_eq_none_iff.1 hne)
        obtain ⟨hmem, hleast⟩ := OrdSet.le_of_head? hfirst
        have hle := hhead e₀ hfirst
        -- the first timer has no valid time, so it was added during the round, which set the `timerfd`
        have hold := h.mem_of_reset hx hsound hheap (ha.now _ hx) hmem hle
        refine (ha.wakes e₀ hold (.inr hle)).imp_right ?_
        rintro ⟨d, hd, hdle⟩
        exact ⟨d, hd, hdle.trans (fst_le (hleast e he))⟩
      · rw [hrest.calling] at hx'
        cases hx'
  | @resetTimerfd now called q₁ e₀ hx hsound hrest hheap hhead =>
      refine ⟨fun e he _ => .inr ⟨(ofLex e₀).1, rfl, fst_le ((OrdSet.le_of_head? hhead).2 e he)⟩, fun x hx' => ?_⟩
      have hx'' : q₁.calling = some x := hx'
      rw [hrest.calling] at hx''
      cases hx''

/-! ## The timers that were made -/

/-- Which event of the queue an event of the alarms comes from. -/
theorem mem_means {e : Event κ} {f : Alarms.Event Nat Int} (h : f ∈ q.means e) :
    (∃ a t, e = .addTimerInLoop a ∧ a ∈ q.adding ∧ q.heap a = some t ∧
      f = .set t.sequence t.expiration (Timer.again t.interval)) ∨
    (∃ id, e = .cancelInLoop id ∧ f = .cancel id.sequence) ∨ (∃ now l, e = .handleRead now ∧ f = .ask now l) ∨
    (e = .run ∧ f = .call) ∨ (e = .reset ∧ f = .finish) := by
  cases e with
  | addTimer a callback when interval => cases h
  | addTimerInLoop a =>
      rw [means] at h
      split_ifs at h with ha
      · obtain ⟨t, ht, rfl⟩ := List.mem_map.1 h
        exact .inl ⟨a, t, rfl, ha, Option.mem_toList.1 ht, rfl⟩
      · cases h
  | cancelInLoop id =>
      rw [means] at h
      split_ifs at h
      · exact .inr (.inl ⟨id, rfl, List.mem_singleton.1 h⟩)
      · cases h
  | alarm => cases h
  | handleRead now =>
      rw [means] at h
      split_ifs at h
      · exact .inr (.inr (.inl ⟨now, _, rfl, List.mem_singleton.1 h⟩))
      · cases h
  | run =>
      rw [means] at h
      split at h
      · exact .inr (.inr (.inr (.inl ⟨rfl, List.mem_singleton.1 h⟩)))
      · cases h
  | reset =>
      rw [means] at h
      split at h
      · exact .inr (.inr (.inr (.inr ⟨rfl, List.mem_singleton.1 h⟩)))
      · cases h

/-- An alarm is set by `addTimerInLoop`. -/
theorem mem_means_set {e : Event κ} {n : Nat} {d : Int} {f : Int → Option Int}
    (h : Alarms.Event.set n d f ∈ q.means e) : ∃ a t, a ∈ q.adding ∧ q.heap a = some t ∧
      n = t.sequence ∧ d = t.expiration ∧ f = Timer.again t.interval := by
  obtain ⟨a, t, -, ha, ht, heq⟩ | ⟨id, -, heq⟩ | ⟨now, l, -, heq⟩ | ⟨-, heq⟩ | ⟨-, heq⟩ := mem_means h
  · cases heq
    exact ⟨a, t, ha, ht, rfl, rfl, rfl⟩
  · cases heq
  · cases heq
  · cases heq
  · cases heq

/-- A round is finished by `reset`. -/
theorem eq_reset_of_means {e : Event κ} (h : Alarms.Event.finish ∈ q.means e) : e = .reset := by
  obtain ⟨a, t, -, -, -, heq⟩ | ⟨id, -, heq⟩ | ⟨now, l, -, heq⟩ | ⟨-, heq⟩ | ⟨he, -⟩ := mem_means h
  · cases heq
  · cases heq
  · cases heq
  · cases heq
  · exact he

/-- A call is of a timer that is there. -/
theorem mem_calls {e : Event κ} {c : Call κ} (h : c ∈ q.calls e) :
    ∃ a t, q.heap a = some t ∧ c.number = t.sequence ∧ c.callback = t.callback := by
  cases e with
  | run =>
      rw [calls] at h
      split at h
      · obtain ⟨t, ht, rfl⟩ := List.mem_map.1 h
        exact ⟨_, t, Option.mem_toList.1 ht, rfl, rfl⟩
      · cases h
  | addTimer a callback when interval => cases h
  | addTimerInLoop a => cases h
  | cancelInLoop id => cases h
  | alarm => cases h
  | handleRead now => cases h
  | reset => cases h

/-- No timer is made, and one that was added changes its time only. -/
structure Kept (q : TimerQueue κ) (e : Event κ) (q' : TimerQueue κ) : Prop where
  numCreated : q'.numCreated = q.numCreated
  heap : ∀ a t, q'.heap a = some t → ∃ u, q.heap a = some u ∧ t = { u with expiration := t.expiration } ∧
    (a ∈ q'.adding → a ∈ q.adding ∧ t = u)
  adding : ∀ a ∈ q.adding, a ∈ q'.adding ∧ q'.heap a = q.heap a ∨ e = .addTimerInLoop a

theorem Kept.of_same {e : Event κ} (hheap : q'.heap = q.heap) (hadding : q'.adding = q.adding)
    (hnumCreated : q'.numCreated = q.numCreated) : Kept q e q' := by
  refine ⟨hnumCreated, fun a t ht => ⟨t, hheap ▸ ht, rfl, fun ha => ⟨hadding ▸ ha, rfl⟩⟩, fun a ha => .inl ?_⟩
  rw [hadding, hheap]
  exact ⟨ha, rfl⟩

theorem Kept.of_added {a : Nat} (hheap : q'.heap = q.heap) (hadding : q'.adding = q.adding.erase a)
    (hnumCreated : q'.numCreated = q.numCreated) : Kept q (.addTimerInLoop a) q' := by
  refine ⟨hnumCreated, fun b t ht => ⟨t, hheap ▸ ht, rfl, fun hb => ⟨?_, rfl⟩⟩, fun b hb => ?_⟩
  · exact List.mem_of_mem_erase (hadding ▸ hb)
  · rw [hadding, hheap]
    by_cases hba : b = a
    · exact .inr (hba ▸ rfl)
    · exact .inl ⟨(List.mem_erase_of_ne hba).2 hb, rfl⟩

theorem Represents.kept_reset (h : Represents q s) {e : Event κ} {now : Int} {called : List Entry}
    (hx : q.calling = some ⟨now, called, []⟩) (hheap : q'.heap = q.restarted now called)
    (hadding : q'.adding = q.adding) (hnumCreated : q'.numCreated = q.numCreated) : Kept q e q' := by
  have hother : ∀ a ∈ q.adding, a ∉ called.map (fun e => (ofLex e).2) := fun a ha hmem =>
    (List.nodup_append.1 (held_of_called hx ▸ h.sound.nodup)).2.2 a hmem a ha rfl
  refine ⟨hnumCreated, fun a t ht => ?_, fun a ha => .inl ?_⟩
  · rw [hadding]
    rw [hheap] at ht
    rcases restarted_eq_some.1 ht with ⟨-, ht⟩ | ⟨hmem, u, hu, -, -, rfl⟩
    · exact ⟨t, ht, rfl, fun ha => ⟨ha, rfl⟩⟩
    · exact ⟨u, hu, rfl, fun ha => absurd hmem (hother a ha)⟩
  · rw [hadding, hheap]
    exact ⟨ha, if_neg (hother a ha)⟩

/-- So it is of every event but `addTimer`. -/
theorem Represents.kept (h : Represents q s) {e : Event κ} (hmoves : Moves q e q') (hmade : q.made e = []) :
    Kept q e q' := by
  cases hmoves with
  | idle hmeans hmade hcalls => exact Kept.of_same rfl rfl rfl
  | addTimer hfree hnull ha =>
      rw [made, if_pos ⟨hfree, hnull, ha⟩] at hmade
      cases hmade
  | @addTimerInLoop a t first ha ht hfirst =>
      cases first with
      | true => exact Kept.of_added rfl rfl rfl
      | false => exact Kept.of_added rfl rfl rfl
  | @cancel id t e ht hseq haddr he hsound =>
      have hnot : id.timer ∉ q.adding := by
        obtain ⟨u, -, -, -, hheld⟩ := h.entry he
        rw [haddr] at hheld
        exact fun ha => hheld (List.mem_append_right _ ha)
      exact ⟨rfl, fun a u hu => ⟨u, (heap_delete.1 hu).2, rfl, fun ha => ⟨ha, rfl⟩⟩,
        fun a ha => .inl ⟨ha, Function.update_of_ne (ne_of_mem_of_not_mem ha hnot) ..⟩⟩
  | cancelHeld hactive hx => exact Kept.of_same rfl rfl rfl
  | alarm => exact Kept.of_same rfl rfl rfl
  | handleRead hx hread => exact Kept.of_same rfl rfl rfl
  | run hx ht => exact Kept.of_same rfl rfl rfl
  | reset hx hsound hrest hheap hhead => exact h.kept_reset hx hheap hrest.adding hrest.numCreated
  | resetTimerfd hx hsound hrest hheap hhead => exact h.kept_reset hx hheap hrest.adding hrest.numCreated

/-- What a run has made, set and called. -/
structure History (es : List (Event κ)) (q : TimerQueue κ) : Prop where
  unique : ∀ m ∈ Run.log step made start es, ∀ m' ∈ Run.log step made start es,
    m.2.sequence = m'.2.sequence → m = m'
  le : ∀ m ∈ Run.log step made start es, m.2.sequence ≤ q.numCreated
  heap : ∀ a t, q.heap a = some t → ∃ m, (a, m) ∈ Run.log step made start es ∧
    t = { m with expiration := t.expiration } ∧ (a ∈ q.adding → t = m)
  set : ∀ n d f, Alarms.Event.set n d f ∈ Run.log step means start es →
    ∃ m ∈ Run.log step made start es, n = m.2.sequence ∧ d = m.2.expiration ∧ f = Timer.again m.2.interval
  there : ∀ m ∈ Run.log step made start es, (∃ d f, Alarms.Event.set m.2.sequence d f ∈ Run.log step means start es) ∨
    m.1 ∈ q.adding ∧ q.heap m.1 = some m.2
  called : ∀ c ∈ Run.log step calls start es,
    ∃ m ∈ Run.log step made start es, m.2.sequence = c.number ∧ m.2.callback = c.callback

theorem history_start : History [] (start : TimerQueue κ) where
  unique m hm := absurd hm List.not_mem_nil
  le m hm := absurd hm List.not_mem_nil
  heap a t ht := by cases ht
  set n d f hset := absurd hset List.not_mem_nil
  there m hm := absurd hm List.not_mem_nil
  called c hc := absurd hc List.not_mem_nil

namespace History

/-- What an event means to the alarms is an alarm of a timer that was made before. -/
theorem set_snoc (hh : History es q) (hes : Run.run step start es = .ok q) {e : Event κ} {n : Nat} {d : Int}
    {f : Int → Option Int} (hmem : Alarms.Event.set n d f ∈ Run.log step means start (es ++ [e])) :
    ∃ m ∈ Run.log step made start es, n = m.2.sequence ∧ d = m.2.expiration ∧ f = Timer.again m.2.interval := by
  rw [Run.log_snoc _ hes] at hmem
  rcases List.mem_append.1 hmem with hmem | hmem
  · exact hh.set n d f hmem
  · obtain ⟨a, t, ha, ht, rfl, rfl, rfl⟩ := mem_means_set hmem
    obtain ⟨m, hm, -, heq⟩ := hh.heap a t ht
    obtain rfl := heq ha
    exact ⟨_, hm, rfl, rfl, rfl⟩

/-- An event calls a timer that was made before. -/
theorem called_snoc (hh : History es q) (hes : Run.run step start es = .ok q) {e : Event κ} :
    ∀ c ∈ Run.log step calls start (es ++ [e]),
      ∃ m ∈ Run.log step made start es, m.2.sequence = c.number ∧ m.2.callback = c.callback := by
  intro c hc
  rw [Run.log_snoc _ hes] at hc
  rcases List.mem_append.1 hc with hc | hc
  · exact hh.called c hc
  · obtain ⟨a, t, ht, hnumber, hcallback⟩ := mem_calls hc
    obtain ⟨m, hm, heq, -⟩ := hh.heap a t ht
    rw [heq] at hnumber hcallback
    exact ⟨_, hm, hnumber.symm, hcallback.symm⟩

/-- An event that makes no timer keeps the history. -/
theorem of_kept (hh : History es q) (hes : Run.run step start es = .ok q) {e : Event κ} (hmade : q.made e = [])
    (hkept : Kept q e q') : History (es ++ [e]) q' := by
  have hlog : Run.log step made start (es ++ [e]) = Run.log step made start es := by
    rw [Run.log_snoc _ hes, hmade, List.append_nil]
  refine ⟨hlog ▸ hh.unique, ?_, fun a t ht => ?_, ?_, ?_, ?_⟩
  · rw [hlog, hkept.numCreated]
    exact hh.le
  · obtain ⟨u, hu, heq, hadding⟩ := hkept.heap a t ht
    obtain ⟨m, hm, heq', hsame⟩ := hh.heap a u hu
    rw [hlog]
    refine ⟨m, hm, ?_, fun ha => ?_⟩
    · rw [heq, heq']
    · obtain ⟨ha, rfl⟩ := hadding ha
      exact hsame ha
  · rw [hlog]
    exact fun n d f => hh.set_snoc hes
  · rw [hlog]
    intro m hm
    rw [Run.log_snoc _ hes]
    rcases hh.there m hm with ⟨d, f, hmem⟩ | ⟨ha, hheap⟩
    · exact .inl ⟨d, f, List.mem_append_left _ hmem⟩
    · rcases hkept.adding _ ha with ⟨ha', heq⟩ | rfl
      · exact .inr ⟨ha', heq.trans hheap⟩
      · -- the event is its `addTimerInLoop`
        refine .inl ⟨m.2.expiration, Timer.again m.2.interval, ?_⟩
        rw [means, if_pos ha, hheap]
        exact List.mem_append_right _ List.mem_cons_self
  · rw [hlog]
    exact hh.called_snoc hes

/-- `addTimer` adds the timer it makes to the history. -/
theorem addTimer (hh : History es q) (hes : Run.run step start es = .ok q) {a : Nat} (callback : κ) (when : Int)
    (interval : ℚ) (hfree : q.heap a = none) (hnull : a ≠ 0) (haddr : a < UINTPTR_MAX) :
    History (es ++ [.addTimer a callback when interval]) { q with
      heap := Function.update q.heap a (some ⟨callback, when, interval, q.numCreated + 1⟩)
      numCreated := q.numCreated + 1
      adding := a :: q.adding } := by
  set t : Timer κ := ⟨callback, when, interval, q.numCreated + 1⟩ with ht
  have hlog : Run.log step made start (es ++ [.addTimer a callback when interval]) =
      Run.log step made start es ++ [(a, t)] := by
    rw [Run.log_snoc _ hes, made, if_pos ⟨hfree, hnull, haddr⟩]
  have hnew : ∀ m ∈ Run.log step made start es, m.2.sequence ≠ t.sequence := fun m hm heq =>
    absurd (hh.le m hm) (heq ▸ Nat.not_succ_le_self _)
  have hother : ∀ {b}, (q.heap b).isSome → Function.update q.heap a (some t) b = q.heap b := by
    intro b hb
    refine Function.update_of_ne ?_ ..
    rintro rfl
    rw [hfree] at hb
    cases hb
  refine ⟨fun m hm m' hm' heq => ?_, fun m hm => ?_, fun b u hu => ?_, fun n d f hmem => ?_, fun m hm => ?_,
    fun c hc => ?_⟩
  · rw [hlog] at hm hm'
    rcases List.mem_append.1 hm with hm | hm
    · rcases List.mem_append.1 hm' with hm' | hm'
      · exact hh.unique m hm m' hm' heq
      · cases List.mem_singleton.1 hm'
        exact absurd heq (hnew m hm)
    · cases List.mem_singleton.1 hm
      rcases List.mem_append.1 hm' with hm' | hm'
      · exact absurd heq.symm (hnew m' hm')
      · exact (List.mem_singleton.1 hm').symm
  · rw [hlog] at hm
    rcases List.mem_append.1 hm with hm | hm
    · exact Nat.le_succ_of_le (hh.le m hm)
    · cases List.mem_singleton.1 hm
      exact Nat.le_refl _
  · rw [hlog]
    by_cases hba : b = a
    · subst hba
      have hu' : Function.update q.heap b (some t) b = some u := hu
      rw [Function.update_self] at hu'
      cases hu'
      exact ⟨t, List.mem_append_right _ List.mem_cons_self, rfl, fun _ => rfl⟩
    · have hu' : Function.update q.heap a (some t) b = some u := hu
      rw [Function.update_of_ne hba] at hu'
      obtain ⟨m, hm, heq, hadding⟩ := hh.heap b u hu'
      exact ⟨m, List.mem_append_left _ hm, heq, fun hb => hadding ((List.mem_cons.1 hb).resolve_left hba)⟩
  · obtain ⟨m, hm, hall⟩ := hh.set_snoc hes hmem
    exact ⟨m, hlog ▸ List.mem_append_left _ hm, hall⟩
  · rw [hlog] at hm
    rcases List.mem_append.1 hm with hm | hm
    · rcases hh.there m hm with ⟨d, f, hmem⟩ | ⟨ha, hheap⟩
      · refine .inl ⟨d, f, ?_⟩
        rw [Run.log_snoc _ hes]
        exact List.mem_append_left _ hmem
      · have hkept := hother (Option.isSome_iff_exists.2 ⟨_, hheap⟩)
        exact .inr ⟨List.mem_cons_of_mem _ ha, hkept.trans hheap⟩
    · cases List.mem_singleton.1 hm
      exact .inr ⟨List.mem_cons_self, Function.update_self ..⟩
  · obtain ⟨m, hm, hall⟩ := hh.called_snoc hes c hc
    exact ⟨m, hlog ▸ List.mem_append_left _ hm, hall⟩

/-- Every event keeps the history. -/
theorem moves (hh : History es q) (h : Represents q s) (hes : Run.run step start es = .ok q) {e : Event κ}
    (hmoves : Moves q e q') : History (es ++ [e]) q' := by
  by_cases hmade : q.made e = []
  · exact hh.of_kept hes hmade (h.kept hmoves hmade)
  · -- `addTimer` alone makes one
    cases hmoves with
    | addTimer hfree hnull haddr => exact hh.addTimer hes _ _ _ hfree hnull haddr
    | idle hmeans hmade' hcalls => exact absurd hmade' hmade
    | addTimerInLoop ha ht hfirst => exact absurd rfl hmade
    | cancel ht hseq haddr he hsound => exact absurd rfl hmade
    | cancelHeld hactive hx => exact absurd rfl hmade
    | alarm => exact absurd rfl hmade
    | handleRead hx hread => exact absurd rfl hmade
    | run hx ht => exact absurd rfl hmade
    | reset hx hsound hrest hheap hhead => exact absurd rfl hmade
    | resetTimerfd hx hsound hrest hheap hhead => exact absurd rfl hmade

end History

/-! ## Runs -/

/-- A run of the queue is a run of the alarms. -/
theorem Represents.exists_run (h : Represents q s) (es : List (Event κ)) :
    ∃ q' s', Run.run step q es = .ok q' ∧ Run.run Alarms.step s (Run.log step means q es) = .ok s' ∧
      Represents q' s' ∧ (Run.log step calls q es).map (fun c => (c.number, c.now)) =
        Run.log Alarms.step Alarms.calls s (Run.log step means q es) := by
  induction es generalizing q s with
  | nil => exact ⟨q, s, rfl, rfl, h, rfl⟩
  | cons e es ih =>
      obtain ⟨q₁, hstep, hmoves⟩ := h.exists_moves e
      obtain ⟨s₁, hs₁, h₁, hcalls₁⟩ := h.moves hmoves
      obtain ⟨q', s', hrun, hruns, h', hcalls⟩ := ih h₁
      refine ⟨q', s', Run.run_cons_eq_ok.2 ⟨q₁, hstep, hrun⟩, ?_, h', ?_⟩
      · rw [Run.log, hstep]
        exact Run.run_append_eq_ok.2 ⟨s₁, hs₁, hruns⟩
      · rw [Run.log, Run.log, hstep]
        dsimp only
        rw [List.map_append, hcalls₁, hcalls, Run.log_append _ hs₁]

/-- The alarms of a run that was made. -/
theorem Represents.of_run (h : Represents q s) (hrun : Run.run step q es = .ok q') :
    ∃ s', Run.run Alarms.step s (Run.log step means q es) = .ok s' ∧ Represents q' s' ∧
      (Run.log step calls q es).map (fun c => (c.number, c.now)) =
        Run.log Alarms.step Alarms.calls s (Run.log step means q es) := by
  obtain ⟨q₁, s', hrun', hruns, h', hcalls⟩ := h.exists_run es
  rw [hrun] at hrun'
  cases hrun'
  exact ⟨s', hruns, h', hcalls⟩

theorem history_of_run (hrun : Run.run step start es = .ok q) : History es q := by
  refine (Run.run_history (P := fun _ _ => True) (J := fun es q => History es q ∧ ∃ s, Represents q s)
    ⟨history_start, _, represents_start⟩ ?_ (Run.always_of_forall_mem fun _ _ => trivial) hrun).1
  rintro es q e q' hes ⟨hh, s, h⟩ - hstep
  obtain ⟨q₁, hstep', hmoves⟩ := h.exists_moves e
  rw [hstep] at hstep'
  cases hstep'
  obtain ⟨s', -, h', -⟩ := h.moves hmoves
  exact ⟨hh.moves h hes hmoves, s', h'⟩

/-- The times of the calls of a timer. -/
def callTimes (n : Nat) (l : List (Call κ)) : List Int := (l.filter fun c => c.number = n).map Call.now

theorem callTimes_eq (n : Nat) (l : List (Call κ)) :
    callTimes n l = Alarms.times n (l.map fun c => (c.number, c.now)) := by
  rw [callTimes, Alarms.times, List.filter_map, List.map_map]
  rfl

/-- **No fault and no leak.** Whatever is added, canceled and called, in any order, no assert fails and no timer is
used that was deleted; and a timer that was not deleted is in the two sets, in the vector of `handleRead`, or waits
for its `addTimerInLoop`. -/
theorem sound_of_run (es : List (Event κ)) : ∃ q, Run.run step start es = .ok q ∧ q.Sound q.held := by
  obtain ⟨q, s, hrun, -, h, -⟩ := represents_start.exists_run es
  exact ⟨q, hrun, h.sound⟩

/-- **A timer is called on its times.** Every call is of a timer that was made, and runs its callback; a timer is
never called before the time it was made for, nor again before the time its interval gives after each call, and one
without an interval is called once at most. -/
theorem callTimes_of_run (es : List (Event κ)) :
    (∀ c ∈ Run.log step calls start es,
      ∃ m ∈ Run.log step made start es, m.2.sequence = c.number ∧ m.2.callback = c.callback) ∧
    ∀ m ∈ Run.log step made start es,
      (∀ m' ∈ Run.log step made start es, m.2.sequence = m'.2.sequence → m = m') ∧
      Alarms.Rings (Timer.again m.2.interval) (some m.2.expiration)
        (callTimes m.2.sequence (Run.log step calls start es)) ∧
      (m.2.interval ≤ 0 → (callTimes m.2.sequence (Run.log step calls start es)).length ≤ 1) := by
  obtain ⟨q, s, hrun, hruns, h, hcalls⟩ := represents_start.exists_run es
  have hh := history_of_run hrun
  refine ⟨hh.called, fun m hm => ⟨hh.unique m hm, ?_⟩⟩
  have hrings : Alarms.Rings (Timer.again m.2.interval) (some m.2.expiration)
      (callTimes m.2.sequence (Run.log step calls start es)) := by
    rw [callTimes_eq, hcalls]
    obtain ⟨hquiet, hset⟩ := Alarms.rings_of_run hruns m.2.sequence
    -- a timer that was never added was never called
    by_cases hnil : Alarms.times m.2.sequence
        (Run.log Alarms.step Alarms.calls Alarms.start (Run.log step means start es)) = []
    · rw [hnil]
      trivial
    · obtain ⟨d, f, hmem⟩ := hquiet hnil
      obtain ⟨m', hm', hseq, rfl, rfl⟩ := hh.set _ _ _ hmem
      obtain rfl := hh.unique m hm m' hm' hseq
      exact hset _ _ hmem
  refine ⟨hrings, fun hle => ?_⟩
  have hrule : Timer.again m.2.interval = fun _ => none := funext fun now => if_neg (Rat.not_lt.2 hle)
  rw [hrule] at hrings
  exact hrings.length_le_one

/-- The call that a timer has before it in the round under way. -/
def pending (n : Nat) (q : TimerQueue κ) : List Int :=
  match q.calling with
  | some x => if n ∈ x.rest.map q.number then [x.now] else []
  | none => []

theorem Represents.pending (h : Represents q s) (n : Nat) : pending n q = Alarms.pending n s := by
  rw [TimerQueue.pending, Alarms.pending]
  cases hx : q.calling with
  | none => rw [h.idle hx]
  | some x =>
      obtain ⟨canceled, hround, -⟩ := h.round x hx
      rw [hround]

/-- **A canceled timer is called no more.** After `cancelInLoop` with the id of a timer whose `addTimerInLoop` has
run, however its address is used since or later, the timer is called once at most: if the round under way has it
before it. -/
theorem canceled_of_run {m : Nat × Timer κ} (hmade : m ∈ Run.log step made start es)
    (hrun : Run.run step start es = .ok q) (hadded : q.heap m.1 = some m.2 → m.1 ∉ q.adding)
    (hcancel : step q (.cancelInLoop ⟨m.1, m.2.sequence⟩) = .ok q') (hrun' : Run.run step q' es' = .ok q'') :
    callTimes m.2.sequence (Run.log step calls q' es') ++ pending m.2.sequence q'' = pending m.2.sequence q' := by
  obtain ⟨s, hruns, h, -⟩ := represents_start.of_run hrun
  have hh := history_of_run hrun
  -- a timer of this number is this timer, at its address, and was added
  have hlive : ∀ a t, q.heap a = some t → t.sequence = m.2.sequence → a = m.1 ∧ a ∉ q.adding := by
    intro a t ht hseq
    obtain ⟨m', hm', heq, hadding⟩ := hh.heap a t ht
    have hseq' : m'.sequence = m.2.sequence := by
      rw [heq] at hseq
      exact hseq
    obtain rfl := hh.unique _ hm' m hmade hseq'
    exact ⟨rfl, fun ha => hadded ((hadding ha) ▸ ht) ha⟩
  have hknown : m.2.sequence ∈ s.known := by
    rcases hh.there m hmade with ⟨d, f, hset⟩ | ⟨ha, hheap⟩
    · exact Alarms.mem_known_of_set hruns hset
    · exact absurd ha (hadded hheap)
  obtain ⟨q₁, hcancel', hmoves⟩ := h.exists_moves (.cancelInLoop ⟨m.1, m.2.sequence⟩)
  rw [hcancel] at hcancel'
  cases hcancel'
  obtain ⟨s', hruns', h', -⟩ := h.moves hmoves
  have hgone : Alarms.Gone m.2.sequence s' := by
    by_cases hthere : ∃ t, q.heap m.1 = some t ∧ t.sequence = m.2.sequence
    · obtain ⟨t, ht, hseq⟩ := hthere
      have hmeans : q.means (.cancelInLoop ⟨m.1, m.2.sequence⟩) = [.cancel m.2.sequence] :=
        if_pos ⟨by rw [ht, ← hseq]; rfl, (hlive _ t ht hseq).2⟩
      rw [hmeans] at hruns'
      obtain ⟨u, hu, hrest⟩ := Run.run_cons_eq_ok.1 hruns'
      cases hrest
      exact Alarms.gone_cancel hknown hu
    -- it was deleted: its number is in no queue and no round
    · have hnot : ∀ a t, q.heap a = some t → t.sequence ≠ m.2.sequence := fun a t ht hseq =>
        hthere ⟨t, (hlive a t ht hseq).1 ▸ ht, hseq⟩
      have hmeans : q.means (.cancelInLoop ⟨m.1, m.2.sequence⟩) = [] := by
        refine if_neg ?_
        rintro ⟨hsome, -⟩
        exact hthere (Option.map_eq_some_iff.1 hsome)
      rw [hmeans] at hruns'
      cases hruns'
      refine ⟨hknown, ?_, fun r hr hmem => ?_⟩
      · cases hdue : s.due m.2.sequence with
        | none => rfl
        | some d =>
            obtain ⟨a, t, ht, hseq, -⟩ := (h.due _ d).1 hdue
            exact absurd hseq (hnot a t ht)
      · cases hx : q.calling with
        | none =>
            rw [h.idle hx] at hr
            cases hr
        | some x =>
            obtain ⟨canceled, hround, -⟩ := h.round x hx
            rw [hround] at hr
            cases hr
            dsimp only at hmem
            rw [← List.map_append] at hmem
            obtain ⟨e, he, hseq⟩ := List.mem_map.1 hmem
            obtain ⟨t, ht, -⟩ := h.sound.held _ (mem_held hx he)
            rw [number_eq ht] at hseq
            exact absurd hseq (hnot _ t ht)
  obtain ⟨s'', hruns'', h'', hcalls⟩ := h'.of_run hrun'
  rw [callTimes_eq, hcalls, h''.pending, h'.pending]
  exact Alarms.pending_of_run hgone (Alarms.sound_run (Alarms.sound_run Alarms.sound_start hruns) hruns') hruns''

/-- A timer that rings each second is canceled when it is about to be called. -/
theorem canceled_of_run_pending : ∃ q q' q'' : TimerQueue Unit,
    Run.run step start [.addTimer 16 () 5 1, .addTimerInLoop 16, .alarm, .handleRead 7] = .ok q ∧
      step q (.cancelInLoop ⟨16, 1⟩) = .ok q' ∧ Run.run step q' [.run, .reset] = .ok q'' ∧
      callTimes 1 (Run.log step calls q' [.run, .reset]) ++ pending 1 q'' = pending 1 q' := by
  obtain ⟨q, hrun, hadding⟩ := @Run.exists_of_eval _ _
    (Run.run step (start : TimerQueue Unit) [.addTimer 16 () 5 1, .addTimerInLoop 16, .alarm, .handleRead 7])
    (fun q => 16 ∉ q.adding) _ (by decide +kernel)
  obtain ⟨s, -, h, -⟩ := represents_start.of_run hrun
  obtain ⟨q', hcancel, hmoves⟩ := h.exists_moves (.cancelInLoop ⟨16, 1⟩)
  obtain ⟨s', -, h', -⟩ := h.moves hmoves
  obtain ⟨q'', -, hrun', -⟩ := h'.exists_run [.run, .reset]
  have hmade : (16, ⟨(), 5, 1, 1⟩) ∈ Run.log step made (start : TimerQueue Unit)
      [.addTimer 16 () 5 1, .addTimerInLoop 16, .alarm, .handleRead 7] := List.mem_cons_self
  exact ⟨q, q', q'', hrun, hcancel, hrun', canceled_of_run hmade hrun (fun _ => hadding) hcancel hrun'⟩

/-- **A round calls what was due.** From `handleRead` to its `reset`, the timers that were called and those that are
still to be called are, in the order of their times, those that were due, whatever the callbacks add and cancel. -/
theorem calls_of_handleRead {now : Int} (hrun : Run.run step start es = .ok q) (hidle : q.calling = none)
    (hread : step q (.handleRead now) = .ok q') (hes' : Event.reset ∉ es') (hrun' : Run.run step q' es' = .ok q'') :
    ∃ l : List Entry, (∀ e, e ∈ l ↔ e ∈ q.timers ∧ (ofLex e).1 ≤ now) ∧ l.Pairwise (· < ·) ∧
      ∃ x, q''.calling = some x ∧
        (Run.log step calls q' es').map (fun c => (c.number, c.now)) ++ x.rest.map (fun e => (q''.number e, now)) =
          l.map fun e => (q.number e, now) := by
  obtain ⟨s, hruns, h, -⟩ := represents_start.of_run hrun
  obtain ⟨q₁, hread', hmoves⟩ := h.exists_moves (.handleRead now)
  rw [hread] at hread'
  cases hread'
  obtain ⟨s', hruns', h', -⟩ := h.moves hmoves
  have hmeans : q.means (.handleRead now) = [.ask now ((q.expiredBy now).map q.number)] := by
    rw [means, hidle]
    rfl
  rw [hmeans] at hruns'
  obtain ⟨u, hask, hrest⟩ := Run.run_cons_eq_ok.1 hruns'
  cases hrest
  obtain ⟨s'', hruns'', h'', hcalls⟩ := h'.of_run hrun'
  have hfinish : Alarms.Event.finish ∉ Run.log step means q' es' := fun hmem => by
    obtain ⟨e, he, w, hw⟩ := Run.exists_of_mem_log hmem
    exact hes' (eq_reset_of_means hw ▸ he)
  obtain ⟨r, hround, hnow, hall, hlog⟩ := Alarms.round_of_run hask hfinish hruns''
  obtain ⟨hsorted, hmem⟩ := h.sound.mem_expiredBy now
  refine ⟨q.expiredBy now, hmem, hsorted, ?_⟩
  cases hx : q''.calling with
  | none =>
      rw [h''.idle hx] at hround
      cases hround
  | some x =>
      obtain ⟨canceled, hround', -⟩ := h''.round x hx
      rw [hround] at hround'
      cases hround'
      refine ⟨x, rfl, ?_⟩
      calc (Run.log step calls q' es').map (fun c => (c.number, c.now)) ++ x.rest.map (fun e => (q''.number e, now))
          = (x.called.map q''.number ++ x.rest.map q''.number).map fun n => (n, now) := by
            rw [hcalls, hlog, List.map_append, List.map_map (l := x.rest)]
            rfl
        _ = (q.expiredBy now).map fun e => (q.number e, now) := by
            rw [hall, List.map_map]
            rfl

/-- Of two timers one is due, and called. -/
theorem calls_of_handleRead_two : ∃ q q' q'' : TimerQueue Unit,
    Run.run step start [.addTimer 16 () 5 0, .addTimer 32 () 9 0, .addTimerInLoop 32, .addTimerInLoop 16] = .ok q ∧
      step q (.handleRead 7) = .ok q' ∧ Run.run step q' [.run] = .ok q'' ∧
      ∃ l : List Entry, (∀ e, e ∈ l ↔ e ∈ q.timers ∧ (ofLex e).1 ≤ 7) ∧ l.Pairwise (· < ·) ∧
        ∃ x, q''.calling = some x ∧
          (Run.log step calls q' [.run]).map (fun c => (c.number, c.now)) ++ x.rest.map (fun e => (q''.number e, 7)) =
            l.map fun e => (q.number e, 7) := by
  obtain ⟨q, hrun, hidle⟩ := @Run.exists_of_eval _ _
    (Run.run step (start : TimerQueue Unit)
      [.addTimer 16 () 5 0, .addTimer 32 () 9 0, .addTimerInLoop 32, .addTimerInLoop 16])
    (fun q => q.calling.isNone) _ (by decide +kernel)
  rw [Option.isNone_iff_eq_none] at hidle
  obtain ⟨s, -, h, -⟩ := represents_start.of_run hrun
  obtain ⟨q', hread, hmoves⟩ := h.exists_moves (.handleRead 7)
  obtain ⟨s', -, h', -⟩ := h.moves hmoves
  obtain ⟨q'', -, hrun', -⟩ := h'.exists_run [.run]
  exact ⟨q, q', q'', hrun, hread, hrun',
    calls_of_handleRead hrun hidle hread (fun hmem => by cases List.mem_singleton.1 hmem) hrun'⟩

/-- **The loop is woken in time.** When the clock shows valid times, then between two rounds the `timerfd` has gone off,
or is set, for no later than any of the timers. -/
theorem armed_of_run (hnow : ∀ now, Event.handleRead now ∈ es → 0 < now) (hrun : Run.run step start es = .ok q)
    (hidle : q.calling = none) {e : Entry} (he : e ∈ q.timers) :
    q.readable = true ∨ ∃ d, q.timerfd = some d ∧ d ≤ (ofLex e).1 := by
  have halways : Run.Always step (fun _ e => ∀ now, e = .handleRead now → 0 < now) start es :=
    Run.always_of_forall_mem fun e he now heq => hnow now (by rw [← heq]; exact he)
  have harmed : Armed q ∧ ∃ s, Represents q s := by
    refine Run.run_invariant (P := fun _ e => ∀ now, e = .handleRead now → 0 < now)
      (I := fun q : TimerQueue κ => Armed q ∧ ∃ s, Represents q s) ?_
      ⟨⟨fun e he => absurd he (OrdSet.not_mem_empty e), fun x hx => (by cases hx)⟩, _, represents_start⟩
      halways hrun
    rintro q e q' ⟨ha, s, h⟩ hnow hstep
    obtain ⟨q₁, hstep', hmoves⟩ := h.exists_moves e
    rw [hstep] at hstep'
    cases hstep'
    obtain ⟨s', -, h', -⟩ := h.moves hmoves
    exact ⟨ha.moves h hmoves hnow, s', h'⟩
  exact harmed.1.wakes e he (.inl hidle)

/-- A timer of an invalid time is added while another is called. -/
theorem armed_of_run_invalid : ∃ q : TimerQueue Unit,
    Run.run step start [.addTimer 16 () 5 1, .addTimerInLoop 16, .alarm, .handleRead 7, .run, .addTimer 32 () (-3) 0,
        .addTimerInLoop 32, .reset] = .ok q ∧ toLex ((-3 : Int), 32) ∈ q.timers ∧
      (q.readable = true ∨ ∃ d, q.timerfd = some d ∧ d ≤ -3) := by
  obtain ⟨q, hrun, hidle, hmem⟩ := @Run.exists_of_eval _ _
    (Run.run step (start : TimerQueue Unit) [.addTimer 16 () 5 1, .addTimerInLoop 16, .alarm, .handleRead 7, .run,
      .addTimer 32 () (-3) 0, .addTimerInLoop 32, .reset])
    (fun q => q.calling.isNone ∧ toLex ((-3 : Int), 32) ∈ q.timers) _ (by decide +kernel)
  refine ⟨q, hrun, hmem, armed_of_run (fun now hnow => ?_) hrun (Option.isNone_iff_eq_none.1 hidle) hmem⟩
  simp at hnow
  omega

end TimerQueue

end Net

end AimChat
