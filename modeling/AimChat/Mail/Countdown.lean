import AimChat.Mail.Cooldown

/-! # The seconds a refusal names

A `Generate` within the cooldown answers with the seconds that are left, truncated, and one more. Up to the next
code the store has the entry that was refused for or none (`entry_after`), and without a `Verify` it has that
entry as long as the cooldown lasts (`keeps_entry`): when the seconds are over a code is issued, and a whole
second earlier none is. -/

namespace AimChat.Mail

open Go

namespace CodeStore

variable {s s₁ : CodeStore} {email : Bytes} {entry : CodeEntry} {t r : Int} {rand : Nat → Option Nat}

/-! ## The seconds -/

/-- What is left of the cooldown, in whole seconds. -/
theorem remaining_seconds {cool : Duration} {lastSent : Int} (hsent : lastSent ≤ t)
    (hcool : (Time.sub t lastSent).ns < cool.ns) :
    (cool.sub (Time.sub t lastSent)).seconds = (cool.ns - (t - lastSent)) / 1000000000 ∧
      t - lastSent < cool.ns := by
  have hlt : t - lastSent < cool.ns := (Time.sub_lt_iff hsent cool).1 hcool
  have hmax := cool.isInt64
  unfold IsInt64 at hmax
  -- the difference is a duration, and so is what is left
  have hexact : (Time.sub t lastSent).ns = t - lastSent := by
    unfold Time.sub
    dsimp only
    omega
  have hleft : wrap64 (cool.ns - (t - lastSent)) = cool.ns - (t - lastSent) :=
    wrap64_eq_self ⟨by omega, by omega⟩
  refine ⟨?_, hlt⟩
  show (wrap64 (cool.ns - (Time.sub t lastSent).ns)).tdiv 1000000000 = _
  rw [hexact, hleft, Int.tdiv_eq_ediv_of_nonneg (by omega)]

theorem generate_of_lt (hentry : s.codes email = some entry)
    (hcool : (Time.sub t entry.lastSent).ns < s.cool.ns) :
    s.generate email t rand =
      ({ ok := false, cooldownRemaining := (s.cool.sub (Time.sub t entry.lastSent)).seconds + 1 }, s) := by
  rw [generate, hentry]
  exact if_pos hcool

/-- A refusal leaves the store, and names the seconds left of the cooldown of the address's entry. -/
theorem answer_refused (h : s.answer ⟨t, .generate email rand⟩ = (.refused t email r, s₁)) :
    s₁ = s ∧ ∃ entry, s.codes email = some entry ∧ (Time.sub t entry.lastSent).ns < s.cool.ns ∧
      r = (s.cool.sub (Time.sub t entry.lastSent)).seconds + 1 := by
  rcases generate_cases email t rand s with ⟨heq, -⟩ | ⟨entry, -, hentry, hcool, -⟩
  · simp only [answer, heq, issue_fst, if_true] at h
    cases h
  · simp only [answer, generate_of_lt hentry hcool, Bool.false_eq_true, if_false] at h
    cases h
    exact ⟨rfl, entry, hentry, hcool, rfl⟩

/-! ## The entry in between -/

theorem Effect.cool {e : Timed Int Op} {d : Done} (h : Effect s e d s₁) : s₁.cool = s.cool := by
  cases h <;> rfl

theorem cool_after (s : CodeStore) (es : List (Timed Int Op)) : (s.after es).cool = s.cool := by
  induction es generalizing s with
  | nil => rfl
  | cons e es ih => exact (ih (s.answer e).2).trans (effect s e).cool

/-- While no code is issued for an address it keeps its entry or has none. -/
theorem entry_after {mid : List (Timed Int Op)} (hissued : ∀ now code, .issued now email code ∉ history s mid)
    (h : ∀ entry', s.codes email = some entry' → entry' = entry) :
    ∀ entry', (s.after mid).codes email = some entry' → entry' = entry := by
  induction mid generalizing s with
  | nil => exact h
  | cons e mid ih =>
      rw [history_cons] at hissued
      have hlater : ∀ now code, .issued now email code ∉ history (s.answer e).2 mid := fun now code hmem =>
        hissued now code (List.mem_cons_of_mem _ hmem)
      refine ih hlater fun entry' hentry' => ?_
      rcases codes_of_effect (effect s e) email with heq | ⟨code, hd, -⟩ | ⟨removed, hremoves⟩
      · exact h entry' (heq ▸ hentry')
      · exact absurd (hd ▸ List.mem_cons_self) (hissued e.now code)
      · cases (codes_of_removes hremoves).2.symm.trans hentry'

/-- Without a `Verify` for it an address keeps its entry while the cooldown lasts. -/
theorem keeps_entry {mid : List (Timed Int Op)} (hentry : s.codes email = some entry)
    (hcool : ∀ e ∈ mid, (Time.sub e.now entry.lastSent).ns < s.cool.ns)
    (hverify : ∀ e ∈ mid, ∀ code, e.call ≠ .verify email code) :
    (s.after mid).codes email = some entry := by
  induction mid generalizing s with
  | nil => exact hentry
  | cons e mid ih =>
      have hstays : (s.answer e).2.codes email = some entry := by
        rcases codes_of_effect (effect s e) email with heq | ⟨code, hd, -⟩ | ⟨removed, hremoves⟩
        · exact heq.trans hentry
        · -- a code would have been issued within the cooldown
          have heffect := effect s e
          rw [hd] at heffect
          obtain ⟨-, -, -, hpast⟩ := effect_issued heffect
          exact absurd (hcool e List.mem_cons_self) (not_lt.2 (hpast entry hentry))
        · -- only a `Verify` removes an entry
          obtain ⟨now, code, rfl, -⟩ := removes_eq_some.1 hremoves
          exact absurd rfl (hverify _ List.mem_cons_self code)
      refine ih hstays (fun e' he' => ?_) fun e' he' => hverify e' (List.mem_cons_of_mem _ he')
      rw [(effect s e).cool]
      exact hcool e' (List.mem_cons_of_mem _ he')

/-! ## When a code is issued again -/

/-- **The seconds a refusal names are honest.** Of a store whose entry for the address is not from the future:
a refusal names one second at least; when they are over `Generate` issues a code, if none was issued in between;
more than a whole second before that it still refuses, if there was no `Verify` in between. -/
theorem countdown_honest (hsent : ∀ entry, s.codes email = some entry → entry.lastSent ≤ t)
    (hrefused : s.answer ⟨t, .generate email rand⟩ = (.refused t email r, s₁)) :
    1 ≤ r ∧ ∀ (mid : List (Timed Int Op)) (t' : Int) (rand' : Nat → Option Nat),
      NonDecreasing (⟨t, .generate email rand⟩ :: mid ++ [⟨t', .generate email rand'⟩]) →
        (t + r * 1000000000 ≤ t' → (∀ now code, .issued now email code ∉ history s₁ mid) →
          ∃ code, ((s₁.after mid).answer ⟨t', .generate email rand'⟩).1 = .issued t' email code) ∧
        (t' < t + (r - 1) * 1000000000 → (∀ e ∈ mid, ∀ code, e.call ≠ .verify email code) →
          ∃ r', ((s₁.after mid).answer ⟨t', .generate email rand'⟩).1 = .refused t' email r') := by
  obtain ⟨rfl, entry, hentry, hcool, rfl⟩ := answer_refused hrefused
  have hpast := hsent entry hentry
  obtain ⟨hseconds, hlt⟩ := remaining_seconds hpast hcool
  rw [hseconds]
  refine ⟨by omega, fun mid t' rand' hclock => ?_⟩
  have htt' : t ≤ t' := hclock.le_last List.mem_cons_self
  have hpast' : entry.lastSent ≤ t' := hpast.trans htt'
  constructor
  · intro hwaited hissued
    rcases generate_cases email t' rand' (s₁.after mid) with ⟨heq, -⟩ | ⟨entry', remaining, hentry', hcool', -⟩
    · exact ⟨_, by rw [answer, heq]; rfl⟩
    · -- the entry is the one that was refused for, and the cooldown is over
      obtain rfl := entry_after hissued (fun entry' h => Option.some.inj (h.symm.trans hentry)) entry' hentry'
      rw [cool_after, Time.sub_lt_iff hpast'] at hcool'
      omega
  · intro hearly hverify
    have hwithin : ∀ e ∈ mid, (Time.sub e.now entry.lastSent).ns < s₁.cool.ns := fun e he => by
      have hte : t ≤ e.now := (List.pairwise_cons.1 hclock).1 e (List.mem_append_left _ he)
      have het' : e.now ≤ t' := hclock.le_last (List.mem_cons_of_mem _ he)
      rw [Time.sub_lt_iff (hpast.trans hte)]
      omega
    have hkept := keeps_entry hentry hwithin hverify
    rcases generate_cases email t' rand' (s₁.after mid) with ⟨-, hover⟩ | ⟨entry', remaining, -, -, heq⟩
    · -- the cooldown would be over
      have hover := hover entry hkept
      rw [cool_after, ← not_lt, Time.sub_lt_iff hpast'] at hover
      omega
    · exact ⟨remaining, by rw [answer, heq]; rfl⟩

/-- A code is sent at 0, with a cooldown of a minute. After one and a half seconds the refusal names 59: after
sixty and a half a code is issued, after fifty-nine none is. -/
theorem countdown_honest_minute :
    (∃ code, ((((issue (str "a@b.c") 0 (fun _ => some 7)
        (new (.secs 300 (by decide)) (.secs 60 (by decide)) 6)).2.after []).answer
          ⟨60500000000, .generate (str "a@b.c") fun _ => some 8⟩).1) =
        .issued 60500000000 (str "a@b.c") code) ∧
      ∃ r', ((((issue (str "a@b.c") 0 (fun _ => some 7)
        (new (.secs 300 (by decide)) (.secs 60 (by decide)) 6)).2.after []).answer
          ⟨59000000000, .generate (str "a@b.c") fun _ => some 8⟩).1) =
        .refused 59000000000 (str "a@b.c") r' := by
  have hrefused : (issue (str "a@b.c") 0 (fun _ => some 7)
      (new (.secs 300 (by decide)) (.secs 60 (by decide)) 6)).2.answer
        ⟨1500000000, .generate (str "a@b.c") fun _ => some 9⟩ =
      (.refused 1500000000 (str "a@b.c") 59, (issue (str "a@b.c") 0 (fun _ => some 7)
        (new (.secs 300 (by decide)) (.secs 60 (by decide)) 6)).2) := by
    rw [answer, generate_of_lt (issue_codes_self ..) (by decide)]
    rfl
  have honest := countdown_honest (fun entry hentry => by
    rw [issue_codes_self] at hentry
    cases hentry
    decide) hrefused
  refine ⟨(honest.2 [] 60500000000 _ (by simp [NonDecreasing])).1 (by decide) ?_,
    (honest.2 [] 59000000000 _ (by simp [NonDecreasing])).2 (by decide) ?_⟩
  · exact fun _ _ h => absurd h List.not_mem_nil
  · exact fun _ h => absurd h List.not_mem_nil

end CodeStore

end AimChat.Mail
