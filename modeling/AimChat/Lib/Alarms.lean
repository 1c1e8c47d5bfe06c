import AimChat.Lib.Refinement
import Mathlib.Data.Set.Insert
import Mathlib.Order.Basic

/-! # Alarms

What a queue of timers is for. An alarm is set, once, for a time and with a rule for when it rings again; asked at
some time, the machine takes the alarms that are due and calls them one after another, and then sets them again. An
alarm is called on its times only (`rings_of_run`), a canceled one only while a round has it already
(`pending_of_run`), and a round calls all that was due, in the order of their times (`round_of_run`). The clock may
go back. -/

namespace AimChat

universe u v

/-- The calls for which the machine was asked. -/
structure Alarms.Round (ι : Type u) (τ : Type v) where
  now : τ
  called : List ι
  rest : List ι
  canceled : Set ι

/-- The alarms. -/
structure Alarms (ι : Type u) (τ : Type v) where
  /-- Those that were ever set. -/
  known : Set ι
  /-- When an alarm that was called at some time rings next. -/
  again : ι → τ → Option τ
  due : ι → Option τ
  round : Option (Alarms.Round ι τ)

namespace Alarms

inductive Event (ι : Type u) (τ : Type v)
  | set (i : ι) (t : τ) (again : τ → Option τ)
  | cancel (i : ι)
  /-- The alarms that are due now are these, in the order in which they will be called. -/
  | ask (now : τ) (l : List ι)
  /-- The next alarm is called. -/
  | call
  /-- All are called. -/
  | finish

/-- The event cannot happen now. -/
inductive Disabled
  | disabled

variable {ι : Type u} {τ : Type v}

/-- No alarm was set yet. -/
def start : Alarms ι τ := ⟨∅, fun _ _ => none, fun _ => none, none⟩

/-- The alarms of the round under way. -/
def inRound (s : Alarms ι τ) : List ι := (s.round.map fun r => r.called ++ r.rest).getD []

/-- The call an event makes, and its time. -/
def calls (s : Alarms ι τ) : Event ι τ → List (ι × τ)
  | .call => (s.round.map fun r => (r.rest.take 1).map fun i => (i, r.now)).getD []
  | .set _ _ _ => []
  | .cancel _ => []
  | .ask _ _ => []
  | .finish => []

theorem calls_of_round {s : Alarms ι τ} {now : τ} {called : List ι} {i : ι} {rest : List ι} {canceled : Set ι}
    (h : s.round = some ⟨now, called, i :: rest, canceled⟩) : calls s .call = [(i, now)] := by
  rw [calls, h]
  rfl

/-- The times of the calls of an alarm. -/
def times [DecidableEq ι] (i : ι) (l : List (ι × τ)) : List τ := (l.filter fun c => c.1 = i).map Prod.snd

theorem times_append [DecidableEq ι] (i : ι) (l l' : List (ι × τ)) : times i (l ++ l') = times i l ++ times i l' := by
  rw [times, List.filter_append, List.map_append]
  rfl

theorem times_calls_of_ne [DecidableEq ι] {s : Alarms ι τ} {now : τ} {called : List ι} {i j : ι} {rest : List ι}
    {canceled : Set ι} (h : s.round = some ⟨now, called, j :: rest, canceled⟩) (hij : i ≠ j) :
    times i (calls s .call) = [] := by
  rw [calls_of_round h]
  simp [times, hij.symm]

theorem times_calls_self [DecidableEq ι] {s : Alarms ι τ} {now : τ} {called : List ι} {i : ι} {rest : List ι}
    {canceled : Set ι} (h : s.round = some ⟨now, called, i :: rest, canceled⟩) : times i (calls s .call) = [now] := by
  rw [calls_of_round h]
  simp [times]

/-- When an alarm rings next that was due then and called at these times. -/
def next (again : τ → Option τ) (due : Option τ) (l : List τ) : Option τ := l.foldl (fun _ now => again now) due

theorem next_snoc {again : τ → Option τ} {due : Option τ} {l : List τ} (now : τ) :
    next again due (l ++ [now]) = again now := by
  rw [next, List.foldl_append]
  rfl

/-- An alarm is set for one time, or in the round, or neither, and those of the round are there once. -/
structure Sound (s : Alarms ι τ) : Prop where
  due : ∀ i t, s.due i = some t → i ∈ s.known
  round : ∀ i ∈ s.inRound, i ∈ s.known ∧ s.due i = none
  nodup : s.inRound.Nodup

theorem sound_start : Sound (start : Alarms ι τ) :=
  ⟨fun _ _ h => (by cases h), fun _ h => absurd h List.not_mem_nil, List.nodup_nil⟩

/-! ## One event -/

variable [LinearOrder τ]

/-- These are the alarms that are due, in the order of their times. -/
structure Due (s : Alarms ι τ) (now : τ) (l : List ι) : Prop where
  nodup : l.Nodup
  mem : ∀ i, i ∈ l ↔ ∃ t, s.due i = some t ∧ t ≤ now
  sorted : l.Pairwise fun i j => ∀ t u, s.due i = some t → s.due j = some u → t ≤ u

open Classical in
/-- One event. -/
noncomputable def step (s : Alarms ι τ) : Event ι τ → Except Disabled (Alarms ι τ)
  | .set i t again =>
      if i ∈ s.known then .error .disabled
      else .ok { s with
        known := insert i s.known
        again := fun j => if j = i then again else s.again j
        due := fun j => if j = i then some t else s.due j }
  | .cancel i =>
      .ok { s with
        due := fun j => if j = i then none else s.due j
        round := s.round.map fun r => { r with canceled := insert i r.canceled } }
  | .ask now l =>
      if s.round = none ∧ s.Due now l then
        .ok { s with due := fun i => if i ∈ l then none else s.due i, round := some ⟨now, [], l, ∅⟩ }
      else .error .disabled
  | .call =>
      match s.round with
      | some ⟨now, called, i :: rest, canceled⟩ =>
          .ok { s with round := some ⟨now, called ++ [i], rest, canceled⟩ }
      | _ => .error .disabled
  | .finish =>
      match s.round with
      | some ⟨now, called, [], canceled⟩ =>
          .ok { s with
            due := fun i => if i ∈ called ∧ i ∉ canceled then s.again i now else s.due i
            round := none }
      | _ => .error .disabled

variable {s s' : Alarms ι τ}

theorem step_set {i : ι} {t : τ} {again : τ → Option τ} (h : step s (.set i t again) = .ok s') :
    i ∉ s.known ∧ s'.known = insert i s.known ∧ s'.round = s.round ∧ s'.due i = some t ∧ s'.again i = again ∧
      ∀ j ≠ i, s'.due j = s.due j ∧ s'.again j = s.again j := by
  rw [step] at h
  split_ifs at h with hi
  cases h
  exact ⟨hi, rfl, rfl, if_pos rfl, if_pos rfl, fun j hj => ⟨if_neg hj, if_neg hj⟩⟩

theorem exists_set {i : ι} (hi : i ∉ s.known) (t : τ) (again : τ → Option τ) :
    ∃ s', step s (.set i t again) = .ok s' := ⟨_, if_neg hi⟩

theorem exists_ask {now : τ} {l : List ι} (hround : s.round = none) (hdue : s.Due now l) :
    ∃ s', step s (.ask now l) = .ok s' := ⟨_, if_pos ⟨hround, hdue⟩⟩

theorem exists_finish {now : τ} {called : List ι} {canceled : Set ι}
    (hround : s.round = some ⟨now, called, [], canceled⟩) : ∃ s', step s .finish = .ok s' := by
  rw [step, hround]
  exact ⟨_, rfl⟩

theorem step_cancel {i : ι} (h : step s (.cancel i) = .ok s') :
    s'.known = s.known ∧ s'.again = s.again ∧ s'.due i = none ∧ (∀ j ≠ i, s'.due j = s.due j) ∧
      s'.round = s.round.map fun r => { r with canceled := insert i r.canceled } := by
  cases h
  exact ⟨rfl, rfl, if_pos rfl, fun j hj => if_neg hj, rfl⟩

theorem step_ask {now : τ} {l : List ι} (h : step s (.ask now l) = .ok s') :
    s.round = none ∧ s.Due now l ∧ s'.known = s.known ∧ s'.again = s.again ∧ s'.round = some ⟨now, [], l, ∅⟩ ∧
      (∀ i ∈ l, s'.due i = none) ∧ ∀ i ∉ l, s'.due i = s.due i := by
  rw [step] at h
  split_ifs at h with hask
  cases h
  exact ⟨hask.1, hask.2, rfl, rfl, rfl, fun i hi => if_pos hi, fun i hi => if_neg hi⟩

theorem step_call (h : step s .call = .ok s') :
    ∃ now called i rest canceled, s.round = some ⟨now, called, i :: rest, canceled⟩ ∧
      s' = { s with round := some ⟨now, called ++ [i], rest, canceled⟩ } := by
  rw [step] at h
  cases hround : s.round with
  | none => rw [hround] at h; cases h
  | some r =>
      obtain ⟨now, called, rest, canceled⟩ := r
      cases rest with
      | nil => rw [hround] at h; cases h
      | cons i rest =>
          rw [hround] at h
          cases h
          exact ⟨now, called, i, rest, canceled, rfl, rfl⟩

theorem step_finish (h : step s .finish = .ok s') :
    ∃ now called canceled, s.round = some ⟨now, called, [], canceled⟩ ∧ s'.known = s.known ∧
      s'.again = s.again ∧ s'.round = none ∧ (∀ i, i ∈ called → i ∉ canceled → s'.due i = s.again i now) ∧
      ∀ i, ¬ (i ∈ called ∧ i ∉ canceled) → s'.due i = s.due i := by
  rw [step] at h
  cases hround : s.round with
  | none => rw [hround] at h; cases h
  | some r =>
      obtain ⟨now, called, rest, canceled⟩ := r
      cases rest with
      | cons i rest => rw [hround] at h; cases h
      | nil =>
          rw [hround] at h
          cases h
          exact ⟨now, called, canceled, rfl, rfl, rfl, rfl, fun i hi hnot => if_pos ⟨hi, hnot⟩,
            fun i hi => if_neg hi⟩

theorem inRound_cancel {i : ι} (h : step s (.cancel i) = .ok s') : s'.inRound = s.inRound := by
  rw [inRound, inRound, (step_cancel h).2.2.2.2]
  cases s.round <;> rfl

theorem inRound_call (h : step s .call = .ok s') : s'.inRound = s.inRound := by
  obtain ⟨now, called, i, rest, canceled, hround, rfl⟩ := step_call h
  rw [inRound, inRound, hround]
  exact List.append_assoc ..

/-- Every event keeps the alarms in order. -/
theorem sound_step {e : Event ι τ} (hs : Sound s) (h : step s e = .ok s') : Sound s' := by
  cases e with
  | set i t again =>
      obtain ⟨hi, hknown, hround, -, -, hother⟩ := step_set h
      have hsame : s'.inRound = s.inRound := by rw [inRound, inRound, hround]
      refine ⟨fun j u hj => ?_, fun j hj => ?_, hsame ▸ hs.nodup⟩
      · rw [hknown]
        by_cases hji : j = i
        · exact .inl hji
        · rw [(hother j hji).1] at hj
          exact .inr (hs.due j u hj)
      · rw [hsame] at hj
        obtain ⟨hmem, hnone⟩ := hs.round j hj
        have hji : j ≠ i := fun heq => hi (heq ▸ hmem)
        rw [hknown, (hother j hji).1]
        exact ⟨.inr hmem, hnone⟩
  | cancel i =>
      obtain ⟨hknown, -, hset, hother, -⟩ := step_cancel h
      have hsame := inRound_cancel h
      refine ⟨fun j u hj => ?_, fun j hj => ?_, hsame ▸ hs.nodup⟩
      · by_cases hji : j = i
        · rw [hji, hset] at hj
          cases hj
        · rw [hother j hji] at hj
          rw [hknown]
          exact hs.due j u hj
      · rw [hsame] at hj
        obtain ⟨hmem, hnone⟩ := hs.round j hj
        rw [hknown]
        refine ⟨hmem, ?_⟩
        by_cases hji : j = i
        · rw [hji, hset]
        · rw [hother j hji, hnone]
  | ask now l =>
      obtain ⟨-, hdue, hknown, -, hround, hin, hout⟩ := step_ask h
      have hsame : s'.inRound = l := by rw [inRound, hround]; rfl
      refine ⟨fun j u hj => ?_, fun j hj => ?_, hsame ▸ hdue.nodup⟩
      · rw [hknown]
        by_cases hjl : j ∈ l
        · rw [hin j hjl] at hj
          cases hj
        · rw [hout j hjl] at hj
          exact hs.due j u hj
      · rw [hsame] at hj
        obtain ⟨t, ht, -⟩ := (hdue.mem j).1 hj
        rw [hknown]
        exact ⟨hs.due j t ht, hin j hj⟩
  | call =>
      have hsame := inRound_call h
      obtain ⟨now, called, i, rest, canceled, -, rfl⟩ := step_call h
      exact ⟨hs.due, fun j hj => hs.round j (hsame ▸ hj), hsame ▸ hs.nodup⟩
  | finish =>
      obtain ⟨now, called, canceled, hround, hknown, -, hnone, -, hout⟩ := step_finish h
      have hempty : s'.inRound = [] := by rw [inRound, hnone]; rfl
      have hcalled : s.inRound = called := by rw [inRound, hround]; exact List.append_nil _
      refine ⟨fun j u hj => ?_, fun j hj => ?_, hempty ▸ List.nodup_nil⟩
      · rw [hknown]
        by_cases hj' : j ∈ called ∧ j ∉ canceled
        · exact (hs.round j (hcalled ▸ hj'.1)).1
        · rw [hout j hj'] at hj
          exact hs.due j u hj
      · rw [hempty] at hj
        cases hj

theorem sound_run {es : List (Event ι τ)} (hs : Sound s) (h : Run.run step s es = .ok s') : Sound s' :=
  Run.run_invariant (P := fun _ _ => True) (fun _ _ _ hs _ hstep => sound_step hs hstep) hs
    (Run.always_of_forall_mem fun _ _ => trivial) h

/-! ## The calls of an alarm -/

section Rings

variable {again : τ → Option τ} {due : Option τ} {l : List τ}

/-- Called at these times, an alarm was called never before its time: the time it is set for, and then the one its
rule gives after each call. -/
def Rings (again : τ → Option τ) : Option τ → List τ → Prop
  | _, [] => True
  | due, now :: l => (∃ t, due = some t ∧ t ≤ now) ∧ Rings again (again now) l

theorem rings_snoc {now : τ} :
    Rings again due (l ++ [now]) ↔ Rings again due l ∧ ∃ t, next again due l = some t ∧ t ≤ now := by
  induction l generalizing due with
  | nil => simp [Rings, next]
  | cons m l ih =>
      rw [List.cons_append, Rings, Rings, ih, and_assoc]
      rfl

/-- One call at most of an alarm that does not ring again. -/
theorem Rings.length_le_one (h : Rings (fun _ => none) due l) : l.length ≤ 1 := by
  cases l with
  | nil => exact Nat.zero_le 1
  | cons now l =>
      cases l with
      | nil => exact Nat.le_refl 1
      | cons m l =>
          obtain ⟨t, ht, -⟩ := h.2.1
          cases ht

end Rings

variable {i : ι} {t : τ} {again : τ → Option τ} {l : List τ}

/-- Where an alarm that was set for `t` and called at these times stands. -/
structure Kept (s : Alarms ι τ) (i : ι) (t : τ) (again : τ → Option τ) (l : List τ) : Prop where
  known : i ∈ s.known
  rule : s.again i = again
  rings : Rings again (some t) l
  due : ∀ u, s.due i = some u → next again (some t) l = some u
  rest : ∀ r, s.round = some r → i ∈ r.rest → ∃ u, next again (some t) l = some u ∧ u ≤ r.now
  called : ∀ r, s.round = some r → i ∈ r.called → next again (some t) l = again r.now

/-- Every event keeps an alarm to its times. -/
theorem Kept.step [DecidableEq ι] {e : Event ι τ} (h : Kept s i t again l) (hs : Sound s)
    (hstep : Alarms.step s e = .ok s') : Kept s' i t again (l ++ times i (calls s e)) := by
  cases e with
  | set j u f =>
      obtain ⟨hj, hknown, hround, -, -, hother⟩ := step_set hstep
      have hij : i ≠ j := fun heq => hj (heq ▸ h.known)
      have hnone : l ++ times i (calls s (.set j u f)) = l := List.append_nil l
      rw [hnone]
      exact ⟨hknown ▸ .inr h.known, (hother i hij).2.trans h.rule, h.rings,
        fun v hv => h.due v ((hother i hij).1 ▸ hv), hround ▸ h.rest, hround ▸ h.called⟩
  | cancel j =>
      obtain ⟨hknown, hagain, hset, hother, hround⟩ := step_cancel hstep
      have hnone : l ++ times i (calls s (.cancel j)) = l := List.append_nil l
      rw [hnone]
      refine ⟨hknown ▸ h.known, hagain ▸ h.rule, h.rings, fun u hu => ?_, fun r hr hi => ?_, fun r hr hi => ?_⟩
      · by_cases hij : i = j
        · rw [hij, hset] at hu
          cases hu
        · exact h.due u (hother i hij ▸ hu)
      · rw [hround, Option.map_eq_some_iff] at hr
        obtain ⟨r, hr, rfl⟩ := hr
        exact h.rest r hr hi
      · rw [hround, Option.map_eq_some_iff] at hr
        obtain ⟨r, hr, rfl⟩ := hr
        exact h.called r hr hi
  | ask now due =>
      obtain ⟨-, hdue, hknown, hagain, hround, hin, hout⟩ := step_ask hstep
      have hnone : l ++ times i (calls s (.ask now due)) = l := List.append_nil l
      rw [hnone]
      refine ⟨hknown ▸ h.known, hagain ▸ h.rule, h.rings, fun u hu => ?_, fun r hr hi => ?_, fun r hr hi => ?_⟩
      · by_cases hi : i ∈ due
        · rw [hin i hi] at hu
          cases hu
        · exact h.due u (hout i hi ▸ hu)
      · rw [hround] at hr
        cases hr
        obtain ⟨u, hu, hle⟩ := (hdue.mem i).1 hi
        exact ⟨u, h.due u hu, hle⟩
      · rw [hround] at hr
        cases hr
        cases hi
  | call =>
      obtain ⟨now, called, j, rest, canceled, hround, rfl⟩ := step_call hstep
      have hinRound : s.inRound = called ++ j :: rest := by rw [inRound, hround]; rfl
      by_cases hij : i = j
      · subst hij
        have hmem : i ∈ s.inRound := by rw [hinRound]; simp
        obtain ⟨u, hnext, hle⟩ := h.rest _ hround List.mem_cons_self
        rw [times_calls_self hround]
        refine ⟨h.known, h.rule, rings_snoc.2 ⟨h.rings, u, hnext, hle⟩, fun v hv => ?_, fun r hr hi => ?_,
          fun r hr hi => ?_⟩
        · dsimp only at hv
          rw [(hs.round i hmem).2] at hv
          cases hv
        · -- it is in the round once
          cases hr
          have hnodup := hinRound ▸ hs.nodup
          exact absurd hi (List.nodup_cons.1 (List.nodup_append.1 hnodup).2.1).1
        · cases hr
          exact next_snoc now
      · rw [times_calls_of_ne hround hij, List.append_nil]
        refine ⟨h.known, h.rule, h.rings, h.due, fun r hr hi => ?_, fun r hr hi => ?_⟩
        · have hrest := h.rest _ hround (List.mem_cons_of_mem _ (by cases hr; exact hi))
          cases hr
          exact hrest
        · cases hr
          rcases List.mem_append.1 hi with hi | hi
          · have hcalled := h.called _ hround hi
            exact hcalled
          · exact absurd (List.mem_singleton.1 hi) hij
  | finish =>
      obtain ⟨now, called, canceled, hround, hknown, hagain, hnone, hin, hout⟩ := step_finish hstep
      have hnil : l ++ times i (calls s (.finish)) = l := List.append_nil l
      rw [hnil]
      refine ⟨hknown ▸ h.known, hagain ▸ h.rule, h.rings, fun u hu => ?_, fun r hr => ?_, fun r hr => ?_⟩
      · by_cases hi : i ∈ called ∧ i ∉ canceled
        · rw [hin i hi.1 hi.2, h.rule] at hu
          rw [h.called _ hround hi.1, hu]
        · exact h.due u (hout i hi ▸ hu)
      · rw [hnone] at hr
        cases hr
      · rw [hnone] at hr
        cases hr

/-- An event calls only what was set. -/
theorem times_calls_of_not_known [DecidableEq ι] {e : Event ι τ} (hs : Sound s) (hstep : Alarms.step s e = .ok s')
    (hi : i ∉ s.known) : times i (calls s e) = [] := by
  cases e with
  | set j u f => rfl
  | cancel j => rfl
  | ask now due => rfl
  | finish => rfl
  | call =>
      obtain ⟨now, called, j, rest, canceled, hround, rfl⟩ := step_call hstep
      have hmem : j ∈ s.inRound := by rw [inRound, hround]; simp
      exact times_calls_of_ne hround fun hij => hi (hij ▸ (hs.round j hmem).1)

theorem known_step {e : Event ι τ} (hstep : Alarms.step s e = .ok s') (hi : i ∈ s'.known) :
    i ∈ s.known ∨ ∃ t again, e = .set i t again := by
  cases e with
  | set j u f =>
      rw [(step_set hstep).2.1] at hi
      rcases hi with rfl | hi
      · exact .inr ⟨u, f, rfl⟩
      · exact .inl hi
  | cancel j => exact .inl ((step_cancel hstep).1 ▸ hi)
  | ask now due => exact .inl ((step_ask hstep).2.2.1 ▸ hi)
  | call =>
      obtain ⟨_, _, _, _, _, -, rfl⟩ := step_call hstep
      exact .inl hi
  | finish =>
      obtain ⟨_, _, _, -, hknown, -⟩ := step_finish hstep
      exact .inl (hknown ▸ hi)

/-- What was set stays known. -/
theorem mem_known_of_set {es : List (Event ι τ)} (hrun : Run.run Alarms.step s es = .ok s')
    (hset : Event.set i t again ∈ es) : i ∈ s'.known := by
  obtain ⟨pre, post, rfl⟩ := List.append_of_mem hset
  obtain ⟨u, -, hrest⟩ := Run.run_append_eq_ok.1 hrun
  obtain ⟨v, hv, hrest⟩ := Run.run_cons_eq_ok.1 hrest
  have hknown : i ∈ v.known := (step_set hv).2.1 ▸ .inl rfl
  refine Run.run_invariant (P := fun _ _ => True) (I := fun w => i ∈ w.known) (fun w e w' hw _ hstep => ?_) hknown
    (Run.always_of_forall_mem fun _ _ => trivial) hrest
  cases e with
  | set j u f => exact (step_set hstep).2.1 ▸ .inr hw
  | cancel j => exact (step_cancel hstep).1 ▸ hw
  | ask now due => exact (step_ask hstep).2.2.1 ▸ hw
  | call =>
      obtain ⟨_, _, _, _, _, -, rfl⟩ := step_call hstep
      exact hw
  | finish =>
      obtain ⟨_, _, _, -, hsame, -⟩ := step_finish hstep
      exact hsame ▸ hw

/-- **An alarm rings on its times.** In every run an alarm is called only when it was set, and then never before
its time. -/
theorem rings_of_run [DecidableEq ι] {es : List (Event ι τ)} {s : Alarms ι τ}
    (hrun : Run.run Alarms.step start es = .ok s) (i : ι) :
    (times i (Run.log Alarms.step calls start es) ≠ [] → ∃ t again, Event.set i t again ∈ es) ∧
      ∀ t again, Event.set i t again ∈ es → Rings again (some t) (times i (Run.log Alarms.step calls start es)) := by
  have hhistory : Sound s ∧ (i ∉ s.known → times i (Run.log Alarms.step calls start es) = []) ∧
      (i ∈ s.known → ∃ t again, Event.set i t again ∈ es) ∧ ∀ t again, Event.set i t again ∈ es →
        Kept s i t again (times i (Run.log Alarms.step calls start es)) := by
    refine Run.run_history (P := fun _ _ => True) (J := fun es s => Sound s ∧
      (i ∉ s.known → times i (Run.log Alarms.step calls start es) = []) ∧
      (i ∈ s.known → ∃ t again, Event.set i t again ∈ es) ∧ ∀ t again, Event.set i t again ∈ es →
        Kept s i t again (times i (Run.log Alarms.step calls start es)))
      ⟨sound_start, fun _ => rfl, fun h => absurd h (Set.notMem_empty i), fun _ _ h => absurd h List.not_mem_nil⟩
      ?_ (Run.always_of_forall_mem fun _ _ => trivial) hrun
    intro es s e s' hes hJ _ hstep
    obtain ⟨hs, hquiet, hset, hkept⟩ := hJ
    refine ⟨sound_step hs hstep, fun hi => ?_, fun hi => ?_, fun t again hmem => ?_⟩
    · rw [Run.log_snoc _ hes, times_append]
      have hold : i ∉ s.known := fun hknown => by
        obtain ⟨t, again, hmem⟩ := hset hknown
        exact hi ((hkept t again hmem).step hs hstep).known
      rw [hquiet hold, times_calls_of_not_known hs hstep hold]
      rfl
    · rcases known_step hstep hi with hold | ⟨t, again, rfl⟩
      · obtain ⟨t, again, hmem⟩ := hset hold
        exact ⟨t, again, List.mem_append_left _ hmem⟩
      · exact ⟨t, again, List.mem_append_right _ List.mem_cons_self⟩
    · rw [Run.log_snoc _ hes, times_append]
      rcases List.mem_append.1 hmem with hmem | hmem
      · exact (hkept t again hmem).step hs hstep
      · cases List.mem_singleton.1 hmem
        obtain ⟨hi, hknown, hround, hdue, hrule, -⟩ := step_set hstep
        have hnone : times i (Run.log Alarms.step calls start es) = [] := hquiet hi
        rw [hnone]
        have hout : ∀ r, s.round = some r → i ∉ r.called ++ r.rest := fun r hr hmem =>
          hi (hs.round i (by rw [inRound, hr]; exact hmem)).1
        refine ⟨hknown ▸ .inl rfl, hrule, trivial, fun u hu => ?_, fun r hr hmem => ?_, fun r hr hmem => ?_⟩
        · rw [hdue] at hu
          exact hu
        · rw [hround] at hr
          exact absurd (List.mem_append_right _ hmem) (hout r hr)
        · rw [hround] at hr
          exact absurd (List.mem_append_left _ hmem) (hout r hr)
  refine ⟨fun hne => hhistory.2.2.1 ?_, fun t again hmem => (hhistory.2.2.2 t again hmem).rings⟩
  by_contra hi
  exact hne (hhistory.2.1 hi)

/-! ## Canceled alarms -/

/-- The call that an alarm has before it in the round under way. -/
def pending [DecidableEq ι] (i : ι) (s : Alarms ι τ) : List τ :=
  match s.round with
  | some r => if i ∈ r.rest then [r.now] else []
  | none => []

/-- The alarm was canceled. -/
structure Gone (i : ι) (s : Alarms ι τ) : Prop where
  known : i ∈ s.known
  due : s.due i = none
  canceled : ∀ r, s.round = some r → i ∈ r.called ++ r.rest → i ∈ r.canceled

theorem gone_cancel (hi : i ∈ s.known) (hstep : Alarms.step s (.cancel i) = .ok s') : Gone i s' := by
  obtain ⟨hknown, -, hset, -, hround⟩ := step_cancel hstep
  refine ⟨hknown ▸ hi, hset, fun r hr _ => ?_⟩
  rw [hround, Option.map_eq_some_iff] at hr
  obtain ⟨r, -, rfl⟩ := hr
  exact .inl rfl

/-- An event calls a canceled alarm only when its round has it before it. -/
theorem Gone.step [DecidableEq ι] {e : Event ι τ} (h : Gone i s) (hs : Sound s) (hstep : Alarms.step s e = .ok s') :
    Gone i s' ∧ times i (calls s e) ++ pending i s' = pending i s := by
  cases e with
  | set j u f =>
      obtain ⟨hj, hknown, hround, -, -, hother⟩ := step_set hstep
      have hij : i ≠ j := fun heq => hj (heq ▸ h.known)
      refine ⟨⟨hknown ▸ .inr h.known, (hother i hij).1.trans h.due, hround ▸ h.canceled⟩, ?_⟩
      rw [pending, pending, hround]
      rfl
  | cancel j =>
      obtain ⟨hknown, -, hset, hother, hround⟩ := step_cancel hstep
      refine ⟨⟨hknown ▸ h.known, ?_, fun r hr hi => ?_⟩, ?_⟩
      · by_cases hij : i = j
        · rw [hij, hset]
        · rw [hother i hij, h.due]
      · rw [hround, Option.map_eq_some_iff] at hr
        obtain ⟨r, hr, rfl⟩ := hr
        exact .inr (h.canceled r hr hi)
      · rw [pending, pending, hround]
        cases s.round <;> rfl
  | ask now due =>
      obtain ⟨hfree, hdue, hknown, -, hround, hin, hout⟩ := step_ask hstep
      have hi : i ∉ due := fun hi => by
        obtain ⟨u, hu, -⟩ := (hdue.mem i).1 hi
        rw [h.due] at hu
        cases hu
      refine ⟨⟨hknown ▸ h.known, (hout i hi).trans h.due, fun r hr hmem => ?_⟩, ?_⟩
      · rw [hround] at hr
        cases hr
        exact absurd hmem hi
      · rw [pending, pending, hround, hfree]
        exact if_neg hi
  | call =>
      obtain ⟨now, called, j, rest, canceled, hround, rfl⟩ := step_call hstep
      have hinRound : s.inRound = called ++ j :: rest := by rw [inRound, hround]; rfl
      refine ⟨⟨h.known, h.due, fun r hr hmem => ?_⟩, ?_⟩
      · have hcanceled := h.canceled _ hround
        cases hr
        refine hcanceled ?_
        rwa [List.append_assoc] at hmem
      · rw [pending, pending, hround]
        dsimp only
        by_cases hij : i = j
        · subst hij
          have hnodup := hinRound ▸ hs.nodup
          have hrest : i ∉ rest := (List.nodup_cons.1 (List.nodup_append.1 hnodup).2.1).1
          rw [times_calls_self hround, if_neg hrest, if_pos List.mem_cons_self]
          rfl
        · rw [times_calls_of_ne hround hij]
          simp [hij]
  | finish =>
      obtain ⟨now, called, canceled, hround, hknown, -, hnone, -, hout⟩ := step_finish hstep
      have hi : ¬ (i ∈ called ∧ i ∉ canceled) := fun hall =>
        hall.2 (h.canceled _ hround (List.mem_append_left _ hall.1))
      refine ⟨⟨hknown ▸ h.known, (hout i hi).trans h.due, fun r hr => by rw [hnone] at hr; cases hr⟩, ?_⟩
      rw [pending, pending, hround, hnone]
      exact (if_neg List.not_mem_nil).symm

/-- **A canceled alarm is called no more**, but for the call that the round under way has before it. -/
theorem pending_of_run [DecidableEq ι] {es : List (Event ι τ)} (hgone : Gone i s) (hs : Sound s)
    (hrun : Run.run Alarms.step s es = .ok s') :
    times i (Run.log Alarms.step calls s es) ++ pending i s' = pending i s := by
  induction es generalizing s with
  | nil =>
      cases hrun
      rfl
  | cons e es ih =>
      obtain ⟨u, hu, hrest⟩ := Run.run_cons_eq_ok.1 hrun
      obtain ⟨hgone', hcalls⟩ := hgone.step hs hu
      rw [Run.log, hu]
      dsimp only
      rw [times_append, List.append_assoc, ih hgone' (sound_step hs hu) hrest, hcalls]

/-! ## A round -/

/-- **A round calls what was due.** Until the round is finished the calls are those of what was due, in that order. -/
theorem round_of_run {now : τ} {due : List ι} {es : List (Event ι τ)} {s s' s'' : Alarms ι τ}
    (hstep : Alarms.step s (.ask now due) = .ok s') (hes : Event.finish ∉ es)
    (hrun : Run.run Alarms.step s' es = .ok s'') :
    ∃ r, s''.round = some r ∧ r.now = now ∧ r.called ++ r.rest = due ∧
      Run.log Alarms.step calls s' es = r.called.map fun i => (i, now) := by
  refine Run.run_history (P := fun _ e => e ≠ .finish) (J := fun es s'' =>
    ∃ r, s''.round = some r ∧ r.now = now ∧ r.called ++ r.rest = due ∧
      Run.log Alarms.step calls s' es = r.called.map fun i => (i, now))
    ⟨_, (step_ask hstep).2.2.2.2.1, rfl, rfl, rfl⟩ ?_
    (Run.always_of_forall_mem fun e he => ne_of_mem_of_not_mem he hes) hrun
  intro es v e v' hv hJ he hv'
  obtain ⟨r, hround, hnow, hall, hlog⟩ := hJ
  rw [Run.log_snoc _ hv, hlog]
  cases e with
  | set j u f => exact ⟨r, (step_set hv').2.2.1.trans hround, hnow, hall, List.append_nil _⟩
  | cancel j =>
      have hcancel := (step_cancel hv').2.2.2.2
      rw [hround] at hcancel
      exact ⟨_, hcancel, hnow, hall, List.append_nil _⟩
  | ask now' due' =>
      have hfree := (step_ask hv').1
      rw [hround] at hfree
      cases hfree
  | call =>
      obtain ⟨now', called, j, rest, canceled, hround', rfl⟩ := step_call hv'
      rw [calls_of_round hround']
      rw [hround] at hround'
      cases hround'
      refine ⟨_, rfl, hnow, (List.append_assoc ..).trans hall, ?_⟩
      rw [List.map_append, ← hnow]
      rfl
  | finish => exact absurd rfl he

end Alarms

end AimChat
