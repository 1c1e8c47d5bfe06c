import AimChat.Mail.CodeStore

/-! # Redeeming a verification code

What the calls of a run came to says which code of an address is outstanding: the last one issued, unless
it was redeemed since. The store's entry for the address is that code, and where there is no entry
although a code is outstanding, its time was over at some call already (`holds_run`). `Verify` therefore
accepts the outstanding code in its time, once, and nothing else. -/

namespace AimChat.Mail

open Go

namespace CodeStore

/-- The call issues a new code for the address or redeems the one it has. -/
def Done.Settles (email : Bytes) : Done → Prop
  | .issued _ email' _ => email' = email
  | .refused .. => False
  | .verified _ email' _ ok => email' = email ∧ ok = true

/-- The code was issued for the address at `t₀`; no code was issued for it later, and no `Verify` on it has
returned true since. -/
def Outstanding (past : List Done) (email code : Bytes) (t₀ : Int) : Prop :=
  ∃ before after, past = before ++ .issued t₀ email code :: after ∧ ∀ d ∈ after, ¬ d.Settles email

/-- After one more call a code is outstanding if the call issued it, or if it was before and the call does
not settle it. -/
theorem outstanding_snoc {past : List Done} {d : Done} {email code : Bytes} {t₀ : Int} :
    Outstanding (past ++ [d]) email code t₀ ↔
      d = .issued t₀ email code ∨ ¬ d.Settles email ∧ Outstanding past email code t₀ := by
  constructor
  · rintro ⟨before, after, heq, hafter⟩
    rcases List.eq_nil_or_concat after with rfl | ⟨after, d', rfl⟩
    · exact .inl (List.singleton_inj.1 (List.append_inj' heq rfl).2)
    · rw [List.concat_eq_append] at heq hafter
      rw [← List.cons_append, ← List.append_assoc] at heq
      obtain ⟨rfl, hd⟩ := List.append_inj' heq rfl
      obtain rfl := List.singleton_inj.1 hd
      exact .inr ⟨hafter d (by simp), before, after, rfl, fun d' hd' =>
        hafter d' (List.mem_append_left _ hd')⟩
  · rintro (rfl | ⟨hd, before, after, rfl, hafter⟩)
    · exact ⟨past, [], rfl, fun _ h => absurd h List.not_mem_nil⟩
    · refine ⟨before, after ++ [d], by simp, fun d' hd' => ?_⟩
      rcases List.mem_append.1 hd' with hd' | hd'
      · exact hafter d' hd'
      · rw [List.mem_singleton.1 hd']
        exact hd

/-- An address has one outstanding code at most. -/
theorem Outstanding.unique {past : List Done} {email code code' : Bytes} {t₀ t₀' : Int}
    (h : Outstanding past email code t₀) (h' : Outstanding past email code' t₀') :
    code = code' ∧ t₀ = t₀' := by
  -- from the last call back, as far as the first one that settles the address
  induction past using List.reverseRecOn with
  | nil =>
      obtain ⟨before, after, heq, -⟩ := h
      simp at heq
  | append_singleton past d ih =>
      rcases outstanding_snoc.1 h with hd | ⟨hd, h⟩ <;> rcases outstanding_snoc.1 h' with hd' | ⟨hd', h'⟩
      · cases hd.symm.trans hd'
        exact ⟨rfl, rfl⟩
      · exact absurd rfl (hd ▸ hd')
      · exact absurd rfl (hd' ▸ hd)
      · exact ih h h'

/-- The entry of an address is its outstanding code; without an entry, the time of a code that is
outstanding was over at some call. -/
def Holds (ttl : Duration) (past : List Done) (email : Bytes) : Option CodeEntry → Prop
  | some entry =>
      Outstanding past email entry.code entry.lastSent ∧ entry.expireAt = Time.add entry.lastSent ttl
  | none => ∀ code t₀, Outstanding past email code t₀ → ∃ d ∈ past, Time.add t₀ ttl < d.now

variable {ttl : Duration} {past : List Done} {email : Bytes}

/-- A call that settles nothing of an address leaves its entry right. -/
theorem Holds.snoc {entry : Option CodeEntry} {d : Done} (h : Holds ttl past email entry)
    (hd : ¬ d.Settles email) : Holds ttl (past ++ [d]) email entry := by
  cases entry with
  | some entry => exact ⟨outstanding_snoc.2 (.inr ⟨hd, h.1⟩), h.2⟩
  | none =>
      intro code t₀ hout
      rcases outstanding_snoc.1 hout with rfl | ⟨-, hout⟩
      · exact absurd rfl hd
      · obtain ⟨d', hd', hlt⟩ := h code t₀ hout
        exact ⟨d', List.mem_append_left _ hd', hlt⟩

/-- One call. -/
theorem holds_step {s s' : CodeStore} {e : Timed Int Op} {d : Done} (hs : Effect s e d s')
    (h : ∀ email, Holds s.ttl past email (s.codes email)) (email : Bytes) :
    Holds s.ttl (past ++ [d]) email (s'.codes email) := by
  cases hs with
  | issue email' rand now =>
      by_cases hemail : email = email'
      · subst hemail
        rw [issue_codes_self]
        -- what was outstanding before is settled by this call
        have hout : Outstanding (past ++ [.issued now email (randomDigits s.digits rand)]) email
            (randomDigits s.digits rand) now :=
          outstanding_snoc.2 (.inl rfl)
        exact ⟨hout, rfl⟩
      · rw [issue_codes_of_ne hemail]
        exact (h email).snoc (Ne.symm hemail)
  | refuse email' rand now remaining entry => exact (h email).snoc id
  | reject email' code now => exact (h email).snoc fun hd => absurd hd.2 Bool.false_ne_true
  | expire email' code now entry hentry hexpired =>
      by_cases hemail : email = email'
      · subst hemail
        rw [delete_codes_self]
        have hkept := h email
        rw [hentry] at hkept
        intro code' t₀ hout
        rcases outstanding_snoc.1 hout with hd | ⟨-, hout⟩
        · cases hd
        · -- the code whose time is over is the entry's
          obtain ⟨-, rfl⟩ := hout.unique hkept.1
          exact ⟨.verified now email code false, by simp, hkept.2 ▸ hexpired⟩
      · rw [delete_codes_of_ne hemail]
        exact (h email).snoc fun hd => absurd hd.2 Bool.false_ne_true
  | redeem email' now entry hentry htime =>
      by_cases hemail : email = email'
      · subst hemail
        rw [delete_codes_self]
        intro code' t₀ hout
        rcases outstanding_snoc.1 hout with hd | ⟨hd, -⟩
        · cases hd
        · exact absurd ⟨rfl, rfl⟩ hd
      · rw [delete_codes_of_ne hemail]
        exact (h email).snoc fun hd => hemail hd.1.symm

/-- No call changes the configuration. -/
theorem ttl_of_effect {s s' : CodeStore} {e : Timed Int Op} {d : Done} (h : Effect s e d s') :
    s'.ttl = s.ttl ∧ s'.cool = s.cool := by
  cases h <;> exact ⟨rfl, rfl⟩

variable {cooldown : Duration} {digits : Nat} {es : List (Timed Int Op)} {s : CodeStore}

/-- One more call is one more entry of the history. -/
theorem history_snoc {s₀ : CodeStore} (h : Run.run step s₀ es = .ok s) (e : Timed Int Op) :
    history s₀ (es ++ [e]) = history s₀ es ++ [(s.answer e).1] :=
  Run.log_snoc _ h e

/-- Every entry of the history was made when its call was. -/
theorem now_of_effect {s s' : CodeStore} {e : Timed Int Op} {d : Done} (h : Effect s e d s') :
    d.now = e.now := by
  cases h <;> rfl

/-- **The store along a run.** The configuration stays, and the entries are the outstanding codes. -/
theorem holds_run (hrun : Run.run step (new ttl cooldown digits) es = .ok s) :
    s.ttl = ttl ∧ s.cool = cooldown ∧
      (∀ email, Holds ttl (history (new ttl cooldown digits) es) email (s.codes email)) ∧
      ∀ d ∈ history (new ttl cooldown digits) es, ∃ e ∈ es, d.now = e.now := by
  refine Run.run_history (P := fun _ _ => True)
    (J := fun es s => s.ttl = ttl ∧ s.cool = cooldown ∧
      (∀ email, Holds ttl (history (new ttl cooldown digits) es) email (s.codes email)) ∧
      ∀ d ∈ history (new ttl cooldown digits) es, ∃ e ∈ es, d.now = e.now) ?_ ?_
    (Run.always_of_forall (fun _ _ => trivial) _ _) hrun
  · refine ⟨rfl, rfl, fun email code t₀ hout => ?_, fun d hd => absurd hd List.not_mem_nil⟩
    obtain ⟨before, after, heq, -⟩ := hout
    simp [history, Run.log] at heq
  · rintro es s e s' hrun ⟨httl, hcool, hholds, htimes⟩ - hstep
    obtain rfl : (s.answer e).2 = s' := Except.ok.inj hstep
    have heffect := effect s e
    rw [history_snoc hrun e]
    refine ⟨(ttl_of_effect heffect).1.trans httl, (ttl_of_effect heffect).2.trans hcool, ?_, ?_⟩
    · rw [← httl] at hholds ⊢
      exact holds_step heffect hholds
    · intro d hd
      rcases List.mem_append.1 hd with hd | hd
      · obtain ⟨e', he', hnow⟩ := htimes d hd
        exact ⟨e', List.mem_append_left _ he', hnow⟩
      · rw [List.mem_singleton.1 hd]
        exact ⟨e, List.mem_append_right _ (List.mem_singleton_self e), now_of_effect heffect⟩

/-- **A code is redeemed once, for its address and in its time.** After every run of calls on any
addresses, by a clock that does not go back and with any configuration: `Verify` returns true exactly for
the outstanding code of the address and no later than `ttl` after it was issued. -/
theorem verify_iff {email code : Bytes} {now : Int}
    (hclock : NonDecreasing (es ++ [⟨now, .verify email code⟩])) :
    (((new ttl cooldown digits).after es).verify email code now).1 = true ↔
      ∃ t₀, Outstanding (history (new ttl cooldown digits) es) email code t₀ ∧ now ≤ Time.add t₀ ttl := by
  obtain ⟨-, -, hholds, htimes⟩ := holds_run (run_eq (new ttl cooldown digits) es)
  -- with an entry its code is the outstanding one; without one no outstanding code is in time
  have hheld := hholds email
  rcases verify_cases email code now ((new ttl cooldown digits).after es) with
    ⟨hnone, heq⟩ | ⟨entry, hentry, hcases⟩
  · rw [hnone] at hheld
    rw [heq]
    refine iff_of_false Bool.false_ne_true ?_
    rintro ⟨t₀, hout, htime⟩
    -- the code was found expired at an earlier call, so it still is
    obtain ⟨d, hd, hlt⟩ := hheld code t₀ hout
    obtain ⟨e, he, hnow⟩ := htimes d hd
    have hle : e.now ≤ now := hclock.le_last he
    omega
  · rw [hentry] at hheld
    obtain ⟨hout, hexpire⟩ := hheld
    have hcode : ∀ t₀, Outstanding (history (new ttl cooldown digits) es) email code t₀ →
        entry.code = code ∧ entry.expireAt = Time.add t₀ ttl := by
      intro t₀ hout'
      obtain ⟨rfl, rfl⟩ := hout.unique hout'
      exact ⟨rfl, hexpire⟩
    rcases hcases with ⟨hexpired, heq⟩ | ⟨-, hne, heq⟩ | ⟨htime, rfl, heq⟩ <;> rw [heq]
    · refine iff_of_false Bool.false_ne_true ?_
      rintro ⟨t₀, hout', htime⟩
      rw [← (hcode t₀ hout').2] at htime
      exact absurd hexpired (not_lt.2 htime)
    · refine iff_of_false Bool.false_ne_true ?_
      rintro ⟨t₀, hout', -⟩
      exact hne (hcode t₀ hout').1
    · exact iff_of_true rfl ⟨entry.lastSent, hout, hexpire ▸ htime⟩

/-- A code issued at 0 and asked for ten seconds later. -/
theorem verify_iff_issued :
    (((new (.secs 300 (by decide)) (.secs 60 (by decide)) 6).after
        [⟨0, .generate (str "a@b.c") fun _ => some 7⟩]).verify (str "a@b.c") (str "000007")
          10000000000).1 = true ↔
      ∃ t₀, Outstanding (history (new (.secs 300 (by decide)) (.secs 60 (by decide)) 6)
          [⟨0, .generate (str "a@b.c") fun _ => some 7⟩]) (str "a@b.c") (str "000007") t₀ ∧
        10000000000 ≤ Time.add t₀ (.secs 300 (by decide)) :=
  verify_iff (by simp [NonDecreasing])

end CodeStore

end AimChat.Mail
