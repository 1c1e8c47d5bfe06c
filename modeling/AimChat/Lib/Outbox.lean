import Mathlib.Data.List.Basic
import Mathlib.Logic.Relation

/-! # A sender whose channel takes a part at a time

What is given to the sender goes out at once as far as the channel takes it; the rest waits, and the sender
is armed until a flush has got rid of it. The channel answers each offer with how much it takes, or with an
error, and some errors make the sender drop what it was just given. `Moves` are the sequences of events from
a set; the rules say what they keep: without a dropped message the wire followed by what waits is what was
given (`stream`), with a channel that takes nothing after a drop the wire is a beginning of it (`wire_prefix_given`),
an open sender is armed exactly when something waits (`armed_iff`), and a finished one that is given nothing
more stays as it is (`quiet`). -/

namespace AimChat

universe u v

/-- What the channel answers to an offer. -/
inductive Outbox.Answer (ε : Type v)
  | took (n : Nat)
  | failed (e : ε)

/-- A sender. -/
structure Outbox (α : Type u) where
  /-- The number of offers made so far. -/
  offers : Nat
  wire : List α
  waiting : List α
  /-- The sender asks to be told when the channel takes more. -/
  armed : Bool
  given : List α
  /-- How much had gone out when the end was announced. -/
  fin : Option Nat
  closed : Bool

namespace Outbox

variable {α : Type u} {ε : Type v} (channel : Nat → Answer ε) (drops : ε → Bool)

/-- An event of the sender. -/
inductive Event (α : Type u)
  | give (xs : List α)
  | flush
  | finish
  | close

/-- What the channel did not take waits. -/
def keep (t : Outbox α) (xs : List α) : Outbox α :=
  if 0 < xs.length then { t with waiting := t.waiting ++ xs, armed := true } else t

/-- Something new is offered. -/
def offer (t : Outbox α) (xs : List α) : Outbox α :=
  match channel t.offers with
  | .took n => keep { t with offers := t.offers + 1, wire := t.wire ++ xs.take n } (xs.drop n)
  | .failed e =>
      if drops e then { t with offers := t.offers + 1 } else keep { t with offers := t.offers + 1 } xs

/-- Something is given: it is offered when nothing waits. -/
def give (t : Outbox α) (xs : List α) : Outbox α :=
  let t := { t with given := t.given ++ xs }
  if !t.armed && t.waiting.length == 0 then t.offer channel drops xs else t.keep xs

/-- The channel may take more: what waits is offered. -/
def flush (t : Outbox α) : Outbox α :=
  if t.armed then
    match channel t.offers with
    | .took n =>
        { t with
          offers := t.offers + 1
          wire := t.wire ++ t.waiting.take n
          waiting := t.waiting.drop n
          armed := !decide (0 < min n t.waiting.length ∧ (t.waiting.drop n).length = 0) }
    | .failed _ => { t with offers := t.offers + 1 }
  else t

/-- The end is announced, unless something waits. -/
def finish (t : Outbox α) : Outbox α := if t.armed then t else { t with fin := some t.wire.length }

/-- One event; a closed sender is given nothing. -/
def step (t : Outbox α) : Event α → Outbox α
  | .give xs => if t.closed then t else t.give channel drops xs
  | .flush => t.flush channel
  | .finish => t.finish
  | .close => { t with armed := false, closed := true }

/-- Sequences of events that meet `P`. -/
def Moves (P : Event α → Prop) : Outbox α → Outbox α → Prop :=
  Relation.ReflTransGen fun t t' => ∃ e, P e ∧ step channel drops t e = t'

variable {channel drops} {P : Event α → Prop} {t t' : Outbox α}

theorem Moves.refl : Moves channel drops P t t := Relation.ReflTransGen.refl

theorem Moves.trans {t'' : Outbox α} (h : Moves channel drops P t t') (h' : Moves channel drops P t' t'') :
    Moves channel drops P t t'' := Relation.ReflTransGen.trans h h'

theorem Moves.single {e : Event α} (he : P e) : Moves channel drops P t (step channel drops t e) :=
  Relation.ReflTransGen.single ⟨e, he, rfl⟩

theorem Moves.mono {Q : Event α → Prop} (hPQ : ∀ e, P e → Q e) (h : Moves channel drops P t t') :
    Moves channel drops Q t t' :=
  Relation.ReflTransGen.mono (fun _ _ ⟨e, he, hstep⟩ => ⟨e, hPQ e he, hstep⟩) _ _ h

/-- What each event keeps, every sequence keeps. -/
theorem Moves.invariant {I : Outbox α → Prop} (hstep : ∀ t e, I t → P e → I (step channel drops t e))
    (h : Moves channel drops P t t') (hI : I t) : I t' := by
  induction h with
  | refl => exact hI
  | tail _ hlast ih =>
      obtain ⟨e, he, rfl⟩ := hlast
      exact hstep _ e ih he

/-! ## What the events keep -/

/-- The channel answered this offer with an error that drops. -/
def DropsAt (channel : Nat → Answer ε) (drops : ε → Bool) (i : Nat) : Prop :=
  ∃ e, channel i = .failed e ∧ drops e = true

/-- Nothing was dropped so far. -/
def Lossless (channel : Nat → Answer ε) (drops : ε → Bool) (t : Outbox α) : Prop :=
  ∀ i < t.offers, ¬ DropsAt channel drops i

/-- After an error that drops the channel takes nothing. -/
def Sticky (channel : Nat → Answer ε) (drops : ε → Bool) : Prop :=
  ∀ i j n, i < j → DropsAt channel drops i → channel j = .took n → n = 0

@[simp] theorem keep_offers (xs : List α) : (t.keep xs).offers = t.offers := by
  unfold keep
  split_ifs <;> rfl

@[simp] theorem keep_wire (xs : List α) : (t.keep xs).wire = t.wire := by
  unfold keep
  split_ifs <;> rfl

@[simp] theorem keep_given (xs : List α) : (t.keep xs).given = t.given := by
  unfold keep
  split_ifs <;> rfl

@[simp] theorem keep_closed (xs : List α) : (t.keep xs).closed = t.closed := by
  unfold keep
  split_ifs <;> rfl

@[simp] theorem keep_waiting (xs : List α) : (t.keep xs).waiting = t.waiting ++ xs := by
  unfold keep
  split_ifs with h
  · rfl
  · have hxs : xs = [] := List.eq_nil_of_length_eq_zero (by omega)
    rw [hxs, List.append_nil]

theorem keep_armed (xs : List α) : (t.keep xs).armed = (t.armed || !xs.isEmpty) := by
  unfold keep
  cases xs with
  | nil => simp
  | cons x xs => simp

/-- Nothing lost on the way: while nothing was dropped, the wire and what waits are what was given. -/
def Kept (channel : Nat → Answer ε) (drops : ε → Bool) (t : Outbox α) : Prop :=
  Lossless channel drops t → t.wire ++ t.waiting = t.given

/-- An open sender is armed when something waits; a closed one is not armed. -/
def Armed (t : Outbox α) : Prop :=
  if t.closed then t.armed = false else (t.armed = true ↔ t.waiting ≠ [])

theorem Lossless.of_offers_le (h : Lossless channel drops t') (hle : t.offers ≤ t'.offers) :
    Lossless channel drops t := fun i hi => h i (Nat.lt_of_lt_of_le hi hle)

theorem kept_give (h : Kept channel drops t) (xs : List α) : Kept channel drops (t.give channel drops xs) := by
  unfold give offer
  dsimp only
  split_ifs with hidle
  · have hwaiting : t.waiting = [] := by
      simp only [Bool.and_eq_true, beq_iff_eq] at hidle
      exact List.eq_nil_of_length_eq_zero hidle.2
    rw [Kept, hwaiting, List.append_nil] at h
    cases hanswer : channel t.offers with
    | took n =>
        intro hlossless
        have hgiven := h (hlossless.of_offers_le (by simp))
        simp only [keep_wire, keep_waiting, keep_given, hwaiting, List.nil_append, List.append_assoc,
          List.take_append_drop, hgiven]
    | failed e =>
        dsimp only
        split_ifs with hdrop
        · intro hlossless
          exact absurd ⟨e, hanswer, hdrop⟩ (hlossless t.offers (Nat.lt_succ_self _))
        · intro hlossless
          have hgiven := h (hlossless.of_offers_le (by simp))
          simp only [keep_wire, keep_waiting, keep_given, hwaiting, List.nil_append, hgiven]
  · intro hlossless
    have hgiven := h (hlossless.of_offers_le (by simp))
    simp only [keep_wire, keep_waiting, keep_given, ← List.append_assoc, hgiven]

theorem kept_flush (h : Kept channel drops t) : Kept channel drops (t.flush channel) := by
  unfold flush
  split_ifs with harmed
  · cases channel t.offers with
    | took n =>
        intro hlossless
        have hgiven := h (hlossless.of_offers_le (Nat.le_succ _))
        rw [List.append_assoc, List.take_append_drop, hgiven]
    | failed e => exact fun hlossless => h (hlossless.of_offers_le (Nat.le_succ _))
  · exact h

theorem kept_step (h : Kept channel drops t) (e : Event α) : Kept channel drops (step channel drops t e) := by
  cases e with
  | give xs =>
      rw [step]
      split_ifs
      · exact h
      · exact kept_give h xs
  | flush => exact kept_flush h
  | finish =>
      rw [step, finish]
      split_ifs
      · exact h
      · exact h
  | close => exact h

/-- **Nothing is lost or reordered** while nothing is dropped. -/
theorem Moves.kept (h : Moves channel drops P t t') (hkept : Kept channel drops t) :
    Kept channel drops t' :=
  h.invariant (fun _ e ht _ => kept_step ht e) hkept

/-- Given `xs`, the sender puts nothing on the wire, or what the channel took. -/
theorem wire_give (xs : List α) :
    (t.give channel drops xs).wire = t.wire ∨
      ∃ n, channel t.offers = .took n ∧ n ≠ 0 ∧ (t.give channel drops xs).offers = t.offers + 1 := by
  unfold give offer
  dsimp only
  split_ifs with hidle
  · cases hanswer : channel t.offers with
    | took n =>
        simp only [keep_wire, keep_offers]
        rcases Nat.eq_zero_or_pos n with rfl | hn
        · exact .inl (List.append_nil _)
        · exact .inr ⟨n, rfl, by omega, trivial⟩
    | failed e =>
        dsimp only
        split_ifs
        · exact .inl rfl
        · exact .inl (keep_wire xs)
  · exact .inl (keep_wire xs)

/-- A flush puts nothing on the wire, or what the channel took. -/
theorem wire_flush :
    (t.flush channel).wire = t.wire ∨
      ∃ n, channel t.offers = .took n ∧ n ≠ 0 ∧ (t.flush channel).offers = t.offers + 1 := by
  unfold flush
  split_ifs
  · cases channel t.offers with
    | took n =>
        rcases Nat.eq_zero_or_pos n with rfl | hn
        · exact .inl (List.append_nil _)
        · exact .inr ⟨n, rfl, by omega, rfl⟩
    | failed e => exact .inl rfl
  · exact .inl rfl

theorem wire_step (e : Event α) :
    (step channel drops t e).wire = t.wire ∨
      ∃ n, channel t.offers = .took n ∧ n ≠ 0 ∧ (step channel drops t e).offers = t.offers + 1 := by
  cases e with
  | give xs =>
      rw [step]
      split_ifs
      · exact .inl rfl
      · exact wire_give xs
  | flush => exact wire_flush
  | finish =>
      rw [step, finish]
      split_ifs
      · exact .inl rfl
      · exact .inl rfl
  | close => exact .inl rfl

@[simp] theorem give_given (xs : List α) : (t.give channel drops xs).given = t.given ++ xs := by
  unfold give offer
  dsimp only
  split_ifs
  · cases channel t.offers with
    | took n => exact keep_given _
    | failed e =>
        dsimp only
        split_ifs
        · rfl
        · exact keep_given _
  · exact keep_given _

@[simp] theorem flush_given : (t.flush channel).given = t.given := by
  unfold flush
  split_ifs
  · cases channel t.offers <;> rfl
  · rfl

@[simp] theorem finish_given : t.finish.given = t.given := by
  unfold finish
  split_ifs <;> rfl

theorem given_prefix_step (e : Event α) : t.given <+: (step channel drops t e).given := by
  cases e with
  | give xs =>
      rw [step]
      split_ifs
      · exact List.prefix_rfl
      · exact ⟨xs, by rw [give_given]⟩
  | flush => exact ⟨[], by rw [step, flush_given, List.append_nil]⟩
  | finish => exact ⟨[], by rw [step, finish_given, List.append_nil]⟩
  | close => exact List.prefix_rfl

/-- One event leaves on the wire a beginning of what was given. -/
theorem wire_prefix_step (hsticky : Sticky channel drops) (hkept : Kept channel drops t)
    (h : t.wire <+: t.given) (e : Event α) :
    (step channel drops t e).wire <+: (step channel drops t e).given := by
  rcases wire_step e with hwire | ⟨n, hn, hpos, hoffers⟩
  · rw [hwire]
    exact h.trans (given_prefix_step e)
  · -- the channel took something, so nothing was dropped before, nor now
    have hlossless : Lossless channel drops (step channel drops t e) := by
      intro i hi hdrops
      rw [hoffers] at hi
      rcases Nat.lt_or_eq_of_le (Nat.le_of_lt_succ hi) with hlt | rfl
      · exact hpos (hsticky i t.offers n hlt hdrops hn)
      · obtain ⟨f, hf, -⟩ := hdrops
        rw [hn] at hf
        cases hf
    exact ⟨_, kept_step hkept e hlossless⟩

/-- **The wire is a beginning of what was given**, when a channel that made the sender drop something takes
nothing more. -/
theorem Moves.wire_prefix_given (hsticky : Sticky channel drops) (h : Moves channel drops P t t')
    (hkept : Kept channel drops t) (hwire : t.wire <+: t.given) : t'.wire <+: t'.given := by
  have hstep : ∀ t e, Kept channel drops t ∧ t.wire <+: t.given → P e →
      Kept channel drops (step channel drops t e) ∧
        (step channel drops t e).wire <+: (step channel drops t e).given :=
    fun t e ht _ => ⟨kept_step ht.1 e, wire_prefix_step hsticky ht.1 ht.2 e⟩
  exact (h.invariant hstep ⟨hkept, hwire⟩).2

/-! ## Message by message -/

/-- What was given so far, and what of it was not dropped, as lists of messages. -/
structure Batched (channel : Nat → Answer ε) (drops : ε → Bool) (t : Outbox α) (gs kept : List (List α)) :
    Prop where
  given : t.given = gs.flatten
  stream : t.wire ++ t.waiting = kept.flatten
  sublist : kept.Sublist gs
  lossless : Lossless channel drops t → kept = gs

theorem Batched.of_kept {gs kept : List (List α)} {xs : List α} (h : Batched channel drops t gs kept)
    (hgiven : t'.given = t.given ++ xs) (hstream : t'.wire ++ t'.waiting = t.wire ++ t.waiting ++ xs)
    (hoffers : t.offers ≤ t'.offers) : Batched channel drops t' (gs ++ [xs]) (kept ++ [xs]) where
  given := by rw [hgiven, h.given, List.flatten_concat]
  stream := by rw [hstream, h.stream, List.flatten_concat]
  sublist := h.sublist.append_right [xs]
  lossless hlossless := by rw [h.lossless (hlossless.of_offers_le hoffers)]

/-- A message is kept whole or dropped whole. -/
theorem Batched.give {gs kept : List (List α)} (h : Batched channel drops t gs kept) (xs : List α) :
    ∃ kept', Batched channel drops (t.give channel drops xs) (gs ++ [xs]) kept' := by
  have hgiven : (t.give channel drops xs).given = t.given ++ xs := give_given xs
  unfold Outbox.give offer at hgiven ⊢
  dsimp only at hgiven ⊢
  split_ifs at hgiven ⊢ with hidle
  · have hwaiting : t.waiting = [] := by
      simp only [Bool.and_eq_true, beq_iff_eq] at hidle
      exact List.eq_nil_of_length_eq_zero hidle.2
    cases hanswer : channel t.offers with
    | took n =>
        rw [hanswer] at hgiven
        refine ⟨_, h.of_kept hgiven ?_ (by simp)⟩
        simp only [keep_wire, keep_waiting, hwaiting, List.nil_append, List.append_nil, List.append_assoc,
          List.take_append_drop]
    | failed e =>
        rw [hanswer] at hgiven
        dsimp only at hgiven ⊢
        split_ifs at hgiven ⊢ with hdrop
        · refine ⟨kept, by rw [hgiven, h.given, List.flatten_concat], h.stream,
            h.sublist.trans (List.sublist_append_left gs [xs]), fun hlossless => ?_⟩
          exact absurd ⟨e, hanswer, hdrop⟩ (hlossless t.offers (Nat.lt_succ_self _))
        · refine ⟨_, h.of_kept hgiven ?_ (by simp)⟩
          simp only [keep_wire, keep_waiting, List.append_assoc]
  · refine ⟨_, h.of_kept hgiven ?_ (by simp)⟩
    simp only [keep_wire, keep_waiting, List.append_assoc]

theorem Batched.of_eq {gs kept : List (List α)} (h : Batched channel drops t gs kept)
    (hgiven : t'.given = t.given) (hstream : t'.wire ++ t'.waiting = t.wire ++ t.waiting)
    (hoffers : t.offers ≤ t'.offers) : Batched channel drops t' gs kept :=
  ⟨hgiven.trans h.given, hstream.trans h.stream, h.sublist,
    fun hlossless => h.lossless (hlossless.of_offers_le hoffers)⟩

theorem Batched.flush {gs kept : List (List α)} (h : Batched channel drops t gs kept) :
    Batched channel drops (t.flush channel) gs kept := by
  refine h.of_eq flush_given ?_ ?_
  · unfold Outbox.flush
    split_ifs
    · cases channel t.offers with
      | took n => rw [List.append_assoc, List.take_append_drop]
      | failed e => rfl
    · rfl
  · unfold Outbox.flush
    split_ifs
    · cases channel t.offers with
      | took n => exact Nat.le_succ _
      | failed e => exact Nat.le_succ _
    · exact Nat.le_refl _

/-- **Messages arrive whole.** What is given to a sender that starts with nothing are messages of a kind; the
wire and what waits are some of them, in order, and all of them while nothing was dropped. -/
theorem Moves.batched {Q : List α → Prop} (hQ : ∀ xs, P (.give xs) → Q xs) (h : Moves channel drops P t t')
    (hwire : t.wire = []) (hwaiting : t.waiting = []) (hgiven : t.given = []) :
    ∃ gs kept, (∀ xs ∈ gs, Q xs) ∧ Batched channel drops t' gs kept := by
  have hstep : ∀ t e, (∃ gs kept, (∀ xs ∈ gs, Q xs) ∧ Batched channel drops t gs kept) → P e →
      ∃ gs kept, (∀ xs ∈ gs, Q xs) ∧ Batched channel drops (step channel drops t e) gs kept := by
    rintro t e ⟨gs, kept, hgs, hbatched⟩ he
    cases e with
    | give xs =>
        rw [step]
        split_ifs
        · exact ⟨gs, kept, hgs, hbatched⟩
        · obtain ⟨kept', hkept'⟩ := hbatched.give xs
          refine ⟨gs ++ [xs], kept', fun ys hys => ?_, hkept'⟩
          rcases List.mem_append.1 hys with hys | hys
          · exact hgs ys hys
          · rw [List.mem_singleton.1 hys]
            exact hQ xs he
    | flush => exact ⟨gs, kept, hgs, hbatched.flush⟩
    | finish =>
        refine ⟨gs, kept, hgs, ?_⟩
        rw [step, finish]
        split_ifs
        · exact hbatched
        · exact hbatched.of_eq rfl rfl (Nat.le_refl _)
    | close => exact ⟨gs, kept, hgs, hbatched.of_eq rfl rfl (Nat.le_refl _)⟩
  refine h.invariant hstep ⟨[], [], by simp, ?_, ?_, List.Sublist.refl _, fun _ => rfl⟩
  · exact hgiven
  · rw [hwire, hwaiting]
    rfl

theorem wire_prefix_wire_step (e : Event α) : t.wire <+: (step channel drops t e).wire := by
  cases e with
  | give xs =>
      rw [step]
      unfold Outbox.give offer
      dsimp only
      split_ifs
      · exact List.prefix_rfl
      · cases channel t.offers with
        | took n =>
            dsimp only
            rw [keep_wire]
            exact List.prefix_append t.wire _
        | failed e =>
            dsimp only
            split_ifs
            · exact List.prefix_rfl
            · exact ⟨[], by rw [keep_wire, List.append_nil]⟩
      · exact ⟨[], by rw [keep_wire, List.append_nil]⟩
  | flush =>
      rw [step, Outbox.flush]
      split_ifs
      · cases channel t.offers with
        | took n => exact ⟨t.waiting.take n, rfl⟩
        | failed e => exact List.prefix_rfl
      · exact List.prefix_rfl
  | finish =>
      rw [step, finish]
      split_ifs <;> exact List.prefix_rfl
  | close => exact List.prefix_rfl

/-- **What went out stays**: the wire only grows. -/
theorem Moves.wire_mono (h : Moves channel drops P t t') : t.wire <+: t'.wire := by
  have hstep : ∀ u e, t.wire <+: u.wire → P e → t.wire <+: (step channel drops u e).wire :=
    fun u e hu _ => hu.trans (wire_prefix_wire_step e)
  exact h.invariant hstep List.prefix_rfl

/-! ## Armed, closed, finished -/

theorem give_closed (xs : List α) : (t.give channel drops xs).closed = t.closed := by
  unfold give offer
  dsimp only
  split_ifs
  · cases channel t.offers with
    | took n => exact keep_closed _
    | failed e =>
        dsimp only
        split_ifs
        · rfl
        · exact keep_closed _
  · exact keep_closed _

theorem flush_closed : (t.flush channel).closed = t.closed := by
  unfold flush
  split_ifs
  · cases channel t.offers <;> rfl
  · rfl

/-- What is kept arms the sender. -/
theorem keep_armed_iff {xs : List α} (h : t.armed = true ↔ t.waiting ≠ []) :
    (t.keep xs).armed = true ↔ (t.keep xs).waiting ≠ [] := by
  rw [keep_armed, keep_waiting, Bool.or_eq_true, h]
  simp only [Bool.not_eq_true', List.isEmpty_eq_false_iff, ne_eq, List.append_eq_nil_iff, not_and_or]

theorem armed_give (h : t.armed = true ↔ t.waiting ≠ []) (xs : List α) :
    (t.give channel drops xs).armed = true ↔ (t.give channel drops xs).waiting ≠ [] := by
  unfold give offer
  dsimp only
  split_ifs
  · cases channel t.offers with
    | took n => exact keep_armed_iff h
    | failed e =>
        dsimp only
        split_ifs
        · exact h
        · exact keep_armed_iff h
  · exact keep_armed_iff h

theorem armed_flush (h : t.armed = true ↔ t.waiting ≠ []) :
    (t.flush channel).armed = true ↔ (t.flush channel).waiting ≠ [] := by
  unfold flush
  split_ifs with harmed
  · cases channel t.offers with
    | took n =>
        have hpos : 0 < t.waiting.length := List.length_pos_iff.2 (h.1 harmed)
        simp only [Bool.not_eq_true', decide_eq_false_iff_not, List.length_drop, ne_eq,
          List.drop_eq_nil_iff]
        omega
    | failed e => exact h
  · exact h

theorem armed_finish (h : Armed t) : Armed t.finish := by
  unfold finish
  split_ifs
  · exact h
  · exact h

/-- One event leaves an open sender armed exactly when something waits. -/
theorem armed_step (h : Armed t) (e : Event α) : Armed (step channel drops t e) := by
  cases e with
  | give xs =>
      rw [step]
      split_ifs with hclosed
      · exact h
      · rw [Armed, if_neg hclosed] at h
        rw [Armed, give_closed, if_neg hclosed]
        exact armed_give h xs
  | flush =>
      rw [step]
      rw [Armed] at h ⊢
      rw [flush_closed]
      split_ifs at h ⊢ with hclosed
      · rw [flush, if_neg (by rw [h]; decide)]
        exact h
      · exact armed_flush h
  | finish => exact armed_finish h
  | close =>
      rw [step, Armed, if_pos rfl]

/-- **An open sender is armed exactly when something waits.** -/
theorem Moves.armed (h : Moves channel drops P t t') (harmed : Armed t) : Armed t' :=
  h.invariant (fun _ e ht _ => armed_step ht e) harmed

/-- The end was announced, and nothing waited or waits. -/
def Finished (t : Outbox α) : Prop := t.fin = some t.wire.length ∧ t.armed = false

/-- An event that gives nothing. -/
def Event.Quiet : Event α → Prop
  | .give _ => False
  | .flush => True
  | .finish => True
  | .close => True

/-- **After the end nothing goes out**, as long as nothing is given. -/
theorem Moves.finished (h : Moves channel drops Event.Quiet t t') (hfin : Finished t) :
    Finished t' ∧ t'.wire = t.wire ∧ t'.waiting = t.waiting ∧ t'.given = t.given := by
  induction h with
  | refl => exact ⟨hfin, rfl, rfl, rfl⟩
  | @tail u v _ hlast ih =>
      obtain ⟨⟨hu, harmed⟩, hwire, hwaiting, hgiven⟩ := ih
      obtain ⟨e, he, rfl⟩ := hlast
      cases e with
      | give xs => exact he.elim
      | flush =>
          rw [step, flush, if_neg (by rw [harmed]; decide)]
          exact ⟨⟨hu, harmed⟩, hwire, hwaiting, hgiven⟩
      | finish =>
          rw [step, finish, if_neg (by rw [harmed]; decide)]
          exact ⟨⟨rfl, harmed⟩, hwire, hwaiting, hgiven⟩
      | close => exact ⟨⟨hu, rfl⟩, hwire, hwaiting, hgiven⟩

@[simp] theorem keep_fin (xs : List α) : (t.keep xs).fin = t.fin := by
  unfold keep
  split_ifs <;> rfl

/-- A sender that is armed is still armed after it is given something. -/
theorem give_armed (h : t.armed = true) (xs : List α) : (t.give channel drops xs).armed = true := by
  unfold give
  dsimp only
  rw [h, Bool.not_true, Bool.false_and, if_neg (by decide), keep_armed, Bool.true_or]

/-- Giving announces no end. -/
theorem fin_give (xs : List α) : (step channel drops t (.give xs)).fin = t.fin := by
  rw [step]
  unfold give offer
  dsimp only
  split_ifs
  · rfl
  · cases channel t.offers with
    | took n => exact keep_fin _
    | failed e =>
        dsimp only
        split_ifs
        · rfl
        · exact keep_fin _
  · exact keep_fin _

/-- A flush announces no end. -/
theorem fin_flush : (step channel drops t .flush).fin = t.fin := by
  rw [step, flush]
  split_ifs
  · cases channel t.offers <;> rfl
  · rfl

/-- Where the end was announced, nothing waits, in an open sender that announces it. -/
theorem finished_finish (harmed : Armed t) (hopen : t.closed = false)
    (h : t.fin ≠ none → Finished t ∧ t.waiting = []) (hfin : t.finish.fin ≠ none) :
    Finished t.finish ∧ t.finish.waiting = [] := by
  rw [Armed, hopen, if_neg (by decide)] at harmed
  unfold finish at hfin ⊢
  split_ifs at hfin ⊢ with hwaits
  · exact h hfin
  · refine ⟨⟨rfl, by simpa using hwaits⟩, ?_⟩
    rw [harmed] at hwaits
    exact not_not.1 hwaits

end Outbox

end AimChat
