import AimChat.Mail.Redemption

/-! # The resend cooldown over a run

`Generate` reads the time of the last code from the entry of the address, and `Verify` removes that entry
when it redeems the code or finds it expired. What was sent is forgotten then: two codes for one address
are issued less than the cooldown apart exactly when a `Generate` follows such a removal before the
cooldown of the removed entry is over. -/

namespace AimChat.Mail

open Go

namespace CodeStore

/-- Of any two codes issued for one address the later one comes at least the cooldown after the other. -/
def CooldownKept (cooldown : Duration) (past : List Done) : Prop :=
  past.Pairwise fun a b => ∀ t₁ t₂ email c₁ c₂,
    a = .issued t₁ email c₁ → b = .issued t₂ email c₂ → cooldown.ns ≤ t₂ - t₁

/-- The entry a call removes: the one of the address a `Verify` asks for, when it has expired or the code
is right. -/
def removes (s : CodeStore) : Timed Int Op → Option (Bytes × CodeEntry)
  | ⟨_, .generate ..⟩ => none
  | ⟨now, .verify email code⟩ =>
      match s.codes email with
      | none => none
      | some entry =>
          if Time.after now entry.expireAt ∨ entry.code = code then some (email, entry) else none

/-- A `Generate` behind a `Verify` that removed the address's entry comes when the cooldown of that entry
is over. -/
def WaitsOut (s₀ : CodeStore) (es : List (Timed Int Op)) : Prop :=
  ∀ before v after s, es = before ++ v :: after → Run.run step s₀ before = .ok s →
    ∀ email entry, s.removes v = some (email, entry) →
      ∀ g ∈ after, (∃ rand, g.call = .generate email rand) → s₀.cool.ns ≤ g.now - entry.lastSent

/-! ## Removals -/

theorem removes_eq_some {s : CodeStore} {e : Timed Int Op} {email : Bytes} {entry : CodeEntry} :
    s.removes e = some (email, entry) ↔
      ∃ now code, e = ⟨now, .verify email code⟩ ∧ s.codes email = some entry ∧
        (Time.after now entry.expireAt ∨ entry.code = code) := by
  constructor
  · intro h
    obtain ⟨now, op⟩ := e
    cases op with
    | generate => cases h
    | verify email' code =>
        rw [removes] at h
        cases hentry : s.codes email' with
        | none =>
            rw [hentry] at h
            cases h
        | some entry' =>
            rw [hentry] at h
            dsimp only at h
            split_ifs at h with hgone
            cases h
            exact ⟨now, code, rfl, hentry, hgone⟩
  · rintro ⟨now, code, rfl, hentry, hgone⟩
    rw [removes, hentry]
    exact if_pos hgone

/-- A call that removes an entry finds it and leaves the address without one. -/
theorem codes_of_removes {s : CodeStore} {v : Timed Int Op} {email : Bytes} {entry : CodeEntry}
    (h : s.removes v = some (email, entry)) :
    s.codes email = some entry ∧ (s.answer v).2.codes email = none := by
  obtain ⟨now, code, rfl, hentry, hgone⟩ := removes_eq_some.1 h
  refine ⟨hentry, ?_⟩
  show (s.verify email code now).2.codes email = none
  rcases verify_cases email code now s with ⟨hnone, -⟩ | ⟨entry', hentry', hcases⟩
  · cases hnone.symm.trans hentry
  · cases hentry'.symm.trans hentry
    rcases hcases with ⟨-, heq⟩ | ⟨htime, hcode, -⟩ | ⟨-, -, heq⟩
    · rw [heq, delete_codes_self]
    · exact absurd hgone (not_or.2 ⟨fun hafter => not_lt.2 htime (Time.after_iff.1 hafter), hcode⟩)
    · rw [heq, delete_codes_self]

/-- What a call leaves of an address's entry: the entry, a newer one if the call issues a code for it, or
none if the call removes it. -/
theorem codes_of_effect {s s' : CodeStore} {e : Timed Int Op} {d : Done} (h : Effect s e d s')
    (email : Bytes) :
    s'.codes email = s.codes email ∨
      (∃ code, d = .issued e.now email code ∧ ∃ entry, s'.codes email = some entry ∧ entry.lastSent = e.now) ∨
      ∃ entry, s.removes e = some (email, entry) := by
  cases h with
  | issue email' rand now =>
      by_cases hemail : email = email'
      · subst hemail
        exact .inr (.inl ⟨_, rfl, _, issue_codes_self .., rfl⟩)
      · exact .inl (issue_codes_of_ne hemail ..)
  | refuse => exact .inl rfl
  | reject => exact .inl rfl
  | expire email' code now entry hentry hexpired =>
      by_cases hemail : email = email'
      · subst hemail
        exact .inr (.inr ⟨entry, removes_eq_some.2 ⟨_, _, rfl, hentry, .inl (Time.after_iff.2 hexpired)⟩⟩)
      · exact .inl (delete_codes_of_ne hemail _)
  | redeem email' now entry hentry =>
      by_cases hemail : email = email'
      · subst hemail
        exact .inr (.inr ⟨entry, removes_eq_some.2 ⟨_, _, rfl, hentry, .inr rfl⟩⟩)
      · exact .inl (delete_codes_of_ne hemail _)

/-- A call that issued a code was a `Generate` with nothing sent in the last cooldown, and made the entry. -/
theorem effect_issued {s s' : CodeStore} {e : Timed Int Op} {t : Int} {email code : Bytes}
    (h : Effect s e (.issued t email code) s') :
    e.now = t ∧ (∃ rand, e.call = .generate email rand) ∧
      (∃ entry, s'.codes email = some entry ∧ entry.lastSent = t) ∧
      ∀ entry, s.codes email = some entry → s.cool.ns ≤ (Time.sub t entry.lastSent).ns := by
  cases h with
  | issue _ rand _ hcool => exact ⟨rfl, ⟨rand, rfl⟩, ⟨_, issue_codes_self .., rfl⟩, hcool⟩

/-! ## What is remembered of a code -/

/-- The store still has when the address was last sent a code, at `t₀` or later, or a `Verify` removed the
entry that had it. -/
def Remembered (s₀ : CodeStore) (es : List (Timed Int Op)) (s : CodeStore) (email : Bytes) (t₀ : Int) : Prop :=
  (∃ entry, s.codes email = some entry ∧ t₀ ≤ entry.lastSent) ∨
    ∃ before v after s₁ entry, es = before ++ v :: after ∧ Run.run step s₀ before = .ok s₁ ∧
      s₁.removes v = some (email, entry) ∧ t₀ ≤ entry.lastSent

variable {ttl cooldown : Duration} {digits : Nat} {es : List (Timed Int Op)} {s : CodeStore}

/-- The code of an entry was issued when the entry says. -/
theorem issued_of_entry (hrun : Run.run step (new ttl cooldown digits) es = .ok s) {email : Bytes}
    {entry : CodeEntry} (hentry : s.codes email = some entry) :
    .issued entry.lastSent email entry.code ∈ history (new ttl cooldown digits) es := by
  have hheld := (holds_run hrun).2.2.1 email
  rw [hentry] at hheld
  obtain ⟨⟨before, after, heq, -⟩, -⟩ := hheld
  rw [heq]
  exact List.mem_append_right _ List.mem_cons_self

/-- An entry was sent no later than a call behind the run. -/
theorem lastSent_le (hrun : Run.run step (new ttl cooldown digits) es = .ok s) {email : Bytes}
    {entry : CodeEntry} (hentry : s.codes email = some entry) {e : Timed Int Op}
    (hclock : NonDecreasing (es ++ [e])) : entry.lastSent ≤ e.now := by
  obtain ⟨e', he', hnow⟩ := (holds_run hrun).2.2.2 _ (issued_of_entry hrun hentry)
  exact hnow.le.trans (hclock.le_last he')

/-- One more call keeps what was remembered. -/
theorem Remembered.step {s₀ : CodeStore} (hrun : Run.run step s₀ es = .ok s) {e : Timed Int Op}
    {email : Bytes} {t₀ : Int} (h : Remembered s₀ es s email t₀) (hle : t₀ ≤ e.now) :
    Remembered s₀ (es ++ [e]) (s.answer e).2 email t₀ := by
  rcases h with ⟨entry, hentry, ht₀⟩ | ⟨before, v, after, s₁, entry, rfl, hs₁, hremoves, ht₀⟩
  · rcases codes_of_effect (effect s e) email with heq | ⟨code, -, entry', hentry', hnow⟩ | ⟨entry', hremoves⟩
    · exact .inl ⟨entry, heq.trans hentry, ht₀⟩
    · exact .inl ⟨entry', hentry', hnow ▸ hle⟩
    · cases hentry.symm.trans (codes_of_removes hremoves).1
      exact .inr ⟨es, e, [], s, entry, rfl, hrun, hremoves, ht₀⟩
  · exact .inr ⟨before, v, after ++ [e], s₁, entry, by simp, hs₁, hremoves, ht₀⟩

/-- Every code issued so far is remembered. -/
theorem remembered_run (hrun : Run.run step (new ttl cooldown digits) es = .ok s)
    (hclock : NonDecreasing es) {t₀ : Int} {email code : Bytes}
    (hissued : .issued t₀ email code ∈ history (new ttl cooldown digits) es) :
    Remembered (new ttl cooldown digits) es s email t₀ := by
  induction es using List.reverseRecOn generalizing s with
  | nil => exact absurd hissued List.not_mem_nil
  | append_singleton es e ih =>
      obtain ⟨s, hs, hstep⟩ := Run.run_snoc_eq_ok.1 hrun
      obtain rfl := Except.ok.inj hstep
      rw [history_snoc hs e] at hissued
      rcases List.mem_append.1 hissued with hissued | hissued
      · obtain ⟨e', he', hnow⟩ := (holds_run hs).2.2.2 _ hissued
        exact (ih hs hclock.left hissued).step hs (hnow.le.trans (hclock.le_last he'))
      · -- the call itself issued the code
        have hd := List.mem_singleton.1 hissued
        have heffect := effect s e
        rw [← hd] at heffect
        obtain ⟨-, -, ⟨entry, hentry, hsent⟩, -⟩ := effect_issued heffect
        exact .inl ⟨entry, hentry, hsent.ge⟩

/-! ## The cooldown -/

/-- What the first call and the later ones came to. -/
theorem history_cons (s : CodeStore) (e : Timed Int Op) (es : List (Timed Int Op)) :
    history s (e :: es) = (s.answer e).1 :: history (s.answer e).2 es := rfl

theorem history_append_of_run {s₀ : CodeStore} (h : Run.run step s₀ es = .ok s) (fs : List (Timed Int Op)) :
    history s₀ (es ++ fs) = history s₀ es ++ history s fs :=
  Run.log_append _ h fs

/-- For an address without an entry, a run up to a `Generate` issues a code. -/
theorem issues_of_none {email : Bytes} {rand : Nat → Option Nat} {now : Int} (mid : List (Timed Int Op))
    (hnone : s.codes email = none) :
    ∃ e ∈ mid ++ [⟨now, .generate email rand⟩], ∃ code,
      .issued e.now email code ∈ history s (mid ++ [⟨now, .generate email rand⟩]) := by
  induction mid generalizing s with
  | nil =>
      refine ⟨_, List.mem_singleton_self _, randomDigits s.digits rand, ?_⟩
      -- without an entry `Generate` does not look at the cooldown
      rcases generate_cases email now rand s with ⟨heq, -⟩ | ⟨entry, -, hentry, -⟩
      · rw [List.nil_append, history_cons, answer, heq]
        exact List.mem_cons_self
      · cases hnone.symm.trans hentry
  | cons e mid ih =>
      rw [List.cons_append, history_cons]
      rcases codes_of_effect (effect s e) email with heq | ⟨code, hd, -⟩ | ⟨entry, hremoves⟩
      · obtain ⟨e', he', code, hissued⟩ := ih (heq.trans hnone)
        exact ⟨e', List.mem_cons_of_mem _ he', code, List.mem_cons_of_mem _ hissued⟩
      · exact ⟨e, List.mem_cons_self, code, hd ▸ List.mem_cons_self⟩
      · cases hnone.symm.trans (codes_of_removes hremoves).1

/-- Of a run that waits out, the first part does. -/
theorem WaitsOut.left {s₀ : CodeStore} {fs : List (Timed Int Op)} (h : WaitsOut s₀ (es ++ fs)) :
    WaitsOut s₀ es := by
  rintro before v after s rfl hs email entry hremoves g hg hgenerate
  exact h before v (after ++ fs) s (by simp) hs email entry hremoves g (List.mem_append_left _ hg) hgenerate

/-- A run that waits out keeps the cooldown. -/
theorem cooldownKept_of_waitsOut (hrun : Run.run step (new ttl cooldown digits) es = .ok s)
    (hclock : NonDecreasing es) (hwaits : WaitsOut (new ttl cooldown digits) es) :
    CooldownKept cooldown (history (new ttl cooldown digits) es) := by
  induction es using List.reverseRecOn generalizing s with
  | nil => exact List.Pairwise.nil
  | append_singleton es e ih =>
      obtain ⟨s, hs, hstep⟩ := Run.run_snoc_eq_ok.1 hrun
      rw [history_snoc hs e]
      refine List.pairwise_append.2 ⟨ih hs hclock.left hwaits.left, List.pairwise_singleton _ _, ?_⟩
      rintro a ha d hd t₁ t₂ email c₁ c₂ rfl rfl
      have heffect := effect s e
      rw [← List.mem_singleton.1 hd] at heffect
      obtain ⟨rfl, hgenerate, -, hcool⟩ := effect_issued heffect
      rcases remembered_run hs hclock.left ha with
        ⟨entry, hentry, ht₁⟩ | ⟨before, v, after, s₁, entry, rfl, hs₁, hremoves, ht₁⟩
      · -- the entry is there, and was sent the cooldown ago
        have hcool := hcool entry hentry
        rw [(holds_run hs).2.1, ← not_lt, Time.sub_lt_iff (lastSent_le hs hentry hclock), not_lt] at hcool
        omega
      · have hcool := hwaits before v (after ++ [e]) s₁ (by simp) hs₁ email entry hremoves e
          (by simp) hgenerate
        change cooldown.ns ≤ e.now - entry.lastSent at hcool
        omega

/-- **When the resend cooldown holds over a run.** For every configuration and every run of calls on any
addresses, by a clock that does not go back: any two codes issued for one address are the cooldown apart
exactly when no `Generate` behind a `Verify` that removed the address's entry comes before the cooldown of
that entry is over. -/
theorem cooldown_iff (hclock : NonDecreasing es) :
    CooldownKept cooldown (history (new ttl cooldown digits) es) ↔ WaitsOut (new ttl cooldown digits) es := by
  refine ⟨?_, cooldownKept_of_waitsOut (run_eq _ _) hclock⟩
  rintro hkept before v after s₁ rfl hs₁ email entry hremoves g hg ⟨rand, hcall⟩
  -- the calls are those up to the removal, those up to the `Generate`, and the rest
  obtain ⟨mid, rest, rfl⟩ := List.append_of_mem hg
  obtain ⟨now, call⟩ := g
  obtain rfl : call = .generate email rand := hcall
  -- without the entry, some call up to the Generate issues a code
  obtain ⟨hentry, hnone⟩ := codes_of_removes hremoves
  obtain ⟨e, he, code, hissued⟩ := issues_of_none mid hnone
  have hlater : .issued e.now email code ∈
      history s₁ (v :: (mid ++ [⟨now, .generate email rand⟩] ++ rest)) := by
    rw [history_cons, history_append_of_run (Run.run_total _ _ _)]
    exact List.mem_cons_of_mem _ (List.mem_append_left _ hissued)
  rw [history_append_of_run hs₁, List.append_cons mid] at hkept
  have hle : e.now ≤ now := by
    rw [List.append_cons mid] at hclock
    rcases List.mem_append.1 he with he | he
    · exact (NonDecreasing.tail hclock.right).left.le_last he
    · rw [List.mem_singleton.1 he]
  have hcool := (List.pairwise_append.1 hkept).2.2 _ (issued_of_entry hs₁ hentry) _ hlater _ _ _ _ _ rfl rfl
  show cooldown.ns ≤ now - entry.lastSent
  omega

/-- Two codes for one address, seventy seconds apart. -/
theorem cooldown_iff_patient :
    CooldownKept (.secs 60 (by decide)) (history (new (.secs 300 (by decide)) (.secs 60 (by decide)) 6)
        [⟨0, .generate (str "a@b.c") fun _ => some 7⟩,
          ⟨70000000000, .generate (str "a@b.c") fun _ => some 8⟩]) ↔
      WaitsOut (new (.secs 300 (by decide)) (.secs 60 (by decide)) 6)
        [⟨0, .generate (str "a@b.c") fun _ => some 7⟩,
          ⟨70000000000, .generate (str "a@b.c") fun _ => some 8⟩] :=
  cooldown_iff (by simp [NonDecreasing])

/-- A code issued at 0 is redeemed after one second, and the next one is issued a second later, with a
cooldown of a minute. -/
theorem reissued_at_once :
    ¬ CooldownKept (.secs 60 (by decide)) (history (new (.secs 300 (by decide)) (.secs 60 (by decide)) 6)
        [⟨0, .generate (str "a@b.c") fun _ => some 7⟩, ⟨1000000000, .verify (str "a@b.c") (str "000007")⟩,
          ⟨2000000000, .generate (str "a@b.c") fun _ => some 8⟩]) := by
  have hhistory : history (new (.secs 300 (by decide)) (.secs 60 (by decide)) 6)
        [⟨0, .generate (str "a@b.c") fun _ => some 7⟩, ⟨1000000000, .verify (str "a@b.c") (str "000007")⟩,
          ⟨2000000000, .generate (str "a@b.c") fun _ => some 8⟩] =
      [.issued 0 (str "a@b.c") (str "000007"),
        .verified 1000000000 (str "a@b.c") (str "000007") true,
        .issued 2000000000 (str "a@b.c") (str "000008")] := by
    decide +kernel
  rw [hhistory]
  intro hkept
  have hcool := (List.pairwise_cons.1 hkept).1 (.issued 2000000000 (str "a@b.c") (str "000008")) (by simp)
    0 2000000000 (str "a@b.c") (str "000007") (str "000008") rfl rfl
  exact absurd hcool (by decide)

end CodeStore

end AimChat.Mail
