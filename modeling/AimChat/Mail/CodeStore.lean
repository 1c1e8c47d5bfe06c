import AimChat.Base.Go
import AimChat.Lib.Timed
import Mathlib.Algebra.Group.Nat.Defs
import Mathlib.Logic.Function.Basic

/-! # The verification codes

`CodeStore` of GoMailServer: one entry for each address, with the code, when it expires and when it was
sent. Both operations hold the mutex to their end, so a run of the store is a sequence of calls; what
each came to is a `Done`. -/

namespace AimChat.Mail

open Go

/-- `codeEntry` -/
structure CodeEntry where
  code : Bytes
  expireAt : Int
  lastSent : Int
  deriving DecidableEq

/-- `CodeStore` -/
structure CodeStore where
  codes : Bytes → Option CodeEntry
  ttl : Duration
  cool : Duration
  digits : Nat

/-- `randomDigits(digits)`, with what `rand.Int` gives below a bound. -/
@[irreducible] def randomDigits (digits : Nat) (rand : Nat → Option Nat) : Bytes :=
  -- 0 when the reader fails
  let n := (rand (10 ^ digits)).getD 0
  zeroPadded digits (wrap64 n)

/-- What `Generate` returns. -/
structure Generated where
  code : Bytes := []
  ok : Bool
  cooldownRemaining : Int := 0
  deriving DecidableEq

namespace CodeStore

/-- `NewCodeStore(ttl, cooldown, digits)` -/
def new (ttl cooldown : Duration) (digits : Nat) : CodeStore := ⟨fun _ => none, ttl, cooldown, digits⟩

/-- The second half of `Generate`: a new entry, whatever there was. -/
def issue (email : Bytes) (now : Int) (rand : Nat → Option Nat) (s : CodeStore) : Generated × CodeStore :=
  let code := randomDigits s.digits rand
  let entry : CodeEntry := ⟨code, Time.add now s.ttl, now⟩
  ({ code := code, ok := true }, { s with codes := Function.update s.codes email (some entry) })

@[simp] theorem issue_fst (email : Bytes) (now : Int) (rand : Nat → Option Nat) (s : CodeStore) :
    (s.issue email now rand).1 = { code := randomDigits s.digits rand, ok := true } := rfl

@[simp] theorem issue_codes_self (email : Bytes) (now : Int) (rand : Nat → Option Nat) (s : CodeStore) :
    (s.issue email now rand).2.codes email =
      some ⟨randomDigits s.digits rand, Time.add now s.ttl, now⟩ :=
  Function.update_self ..

theorem issue_codes_of_ne {email email' : Bytes} (h : email' ≠ email) (now : Int)
    (rand : Nat → Option Nat) (s : CodeStore) :
    (s.issue email now rand).2.codes email' = s.codes email' :=
  Function.update_of_ne h ..

/-- `Generate(email)` -/
def generate (email : Bytes) (now : Int) (rand : Nat → Option Nat) (s : CodeStore) : Generated × CodeStore :=
  match s.codes email with
  | none => s.issue email now rand
  | some entry =>
      -- whether the code is still good does not matter here
      let elapsed := Time.sub now entry.lastSent
      if elapsed.ns < s.cool.ns then
        ({ ok := false, cooldownRemaining := (s.cool.sub elapsed).seconds + 1 }, s)
      else s.issue email now rand

/-- `delete(s.codes, email)` -/
def delete (email : Bytes) (s : CodeStore) : CodeStore :=
  { s with codes := Function.update s.codes email none }

@[simp] theorem delete_codes_self (email : Bytes) (s : CodeStore) : (s.delete email).codes email = none :=
  Function.update_self ..

theorem delete_codes_of_ne {email email' : Bytes} (h : email' ≠ email) (s : CodeStore) :
    (s.delete email).codes email' = s.codes email' :=
  Function.update_of_ne h ..

/-- `Verify(email, code)` -/
def verify (email code : Bytes) (now : Int) (s : CodeStore) : Bool × CodeStore :=
  match s.codes email with
  | none => (false, s)
  | some entry =>
      if Time.after now entry.expireAt then (false, s.delete email)
      -- a wrong code leaves the entry, so that another one can be tried
      else if entry.code ≠ code then (false, s)
      else (true, s.delete email)

/-! ## Runs -/

/-- A call of the store; a `Generate` with what the random reader gives it. -/
inductive Op
  | generate (email : Bytes) (rand : Nat → Option Nat)
  | verify (email code : Bytes)

/-- What a call came to. -/
inductive Done
  /-- `Generate(email)` returned a code. -/
  | issued (now : Int) (email code : Bytes)
  /-- `Generate(email)` refused. -/
  | refused (now : Int) (email : Bytes) (cooldownRemaining : Int)
  /-- `Verify(email, code)` returned `ok`. -/
  | verified (now : Int) (email code : Bytes) (ok : Bool)
  deriving DecidableEq

/-- When the call was made. -/
def Done.now : Done → Int
  | .issued now .. => now
  | .refused now .. => now
  | .verified now .. => now

/-- One call: what it comes to and the store after it. -/
def answer (s : CodeStore) : Timed Int Op → Done × CodeStore
  | ⟨now, .generate email rand⟩ =>
      let (g, s) := s.generate email now rand
      (if g.ok then .issued now email g.code else .refused now email g.cooldownRemaining, s)
  | ⟨now, .verify email code⟩ =>
      let (ok, s) := s.verify email code now
      (.verified now email code ok, s)

/-- The store as a machine. -/
def step : CodeStore → Timed Int Op → Except Empty CodeStore := Run.total fun s e => (s.answer e).2

/-- The store after a run. -/
def after (s : CodeStore) (es : List (Timed Int Op)) : CodeStore := es.foldl (fun s e => (s.answer e).2) s

theorem run_eq (s : CodeStore) (es : List (Timed Int Op)) : Run.run step s es = .ok (s.after es) :=
  Run.run_total _ s es

/-- What the calls of a run came to. -/
def history (s : CodeStore) (es : List (Timed Int Op)) : List Done :=
  Run.log step (fun s e => [(s.answer e).1]) s es

/-! ## What one call does -/

/-- `Generate` either issues a code, which is then the address's entry, or finds an entry sent less than
the cooldown ago and changes nothing. -/
theorem generate_cases (email : Bytes) (now : Int) (rand : Nat → Option Nat) (s : CodeStore) :
    (s.generate email now rand = s.issue email now rand ∧
        ∀ entry, s.codes email = some entry → s.cool.ns ≤ (Time.sub now entry.lastSent).ns) ∨
      ∃ entry remaining, s.codes email = some entry ∧ (Time.sub now entry.lastSent).ns < s.cool.ns ∧
        s.generate email now rand = ({ ok := false, cooldownRemaining := remaining }, s) := by
  unfold generate
  cases hentry : s.codes email with
  | none => exact .inl ⟨rfl, fun _ h => nomatch h⟩
  | some entry =>
      dsimp only
      split_ifs with hcool
      · exact .inr ⟨entry, _, rfl, hcool, rfl⟩
      · refine .inl ⟨rfl, fun entry' h => ?_⟩
        cases h
        exact not_lt.1 hcool

/-- `Verify` finds no entry, removes one that has expired, keeps one with another code, or redeems it. -/
theorem verify_cases (email code : Bytes) (now : Int) (s : CodeStore) :
    (s.codes email = none ∧ s.verify email code now = (false, s)) ∨
      ∃ entry, s.codes email = some entry ∧
        ((entry.expireAt < now ∧ s.verify email code now = (false, s.delete email)) ∨
          (now ≤ entry.expireAt ∧ entry.code ≠ code ∧ s.verify email code now = (false, s)) ∨
          (now ≤ entry.expireAt ∧ entry.code = code ∧
            s.verify email code now = (true, s.delete email))) := by
  unfold verify
  cases hentry : s.codes email with
  | none => exact .inl ⟨rfl, rfl⟩
  | some entry =>
      refine .inr ⟨entry, rfl, ?_⟩
      dsimp only
      by_cases hexpired : entry.expireAt < now
      · rw [if_pos (Time.after_iff.2 hexpired)]
        exact .inl ⟨hexpired, rfl⟩
      · rw [if_neg (hexpired ∘ Time.after_iff.1)]
        by_cases hcode : entry.code = code
        · rw [if_neg (not_not.2 hcode)]
          exact .inr (.inr ⟨not_lt.1 hexpired, hcode, rfl⟩)
        · rw [if_pos hcode]
          exact .inr (.inl ⟨not_lt.1 hexpired, hcode, rfl⟩)

/-- What a call does to the store: it issues a code and puts it, removes an entry, or leaves the
entries. -/
inductive Effect (s : CodeStore) : Timed Int Op → Done → CodeStore → Prop
  /-- The address had no entry or one that was sent the cooldown ago. -/
  | issue (email : Bytes) (rand : Nat → Option Nat) (now : Int)
      (h : ∀ entry, s.codes email = some entry → s.cool.ns ≤ (Time.sub now entry.lastSent).ns) :
      Effect s ⟨now, .generate email rand⟩ (.issued now email (randomDigits s.digits rand))
        (s.issue email now rand).2
  /-- The entry was sent less than the cooldown ago. -/
  | refuse (email : Bytes) (rand : Nat → Option Nat) (now remaining : Int) (entry : CodeEntry)
      (hentry : s.codes email = some entry)
      (h : (Time.sub now entry.lastSent).ns < s.cool.ns) :
      Effect s ⟨now, .generate email rand⟩ (.refused now email remaining) s
  /-- No entry, or one in time with another code. -/
  | reject (email code : Bytes) (now : Int)
      (h : ∀ entry, s.codes email = some entry → now ≤ entry.expireAt ∧ entry.code ≠ code) :
      Effect s ⟨now, .verify email code⟩ (.verified now email code false) s
  /-- The entry has expired. -/
  | expire (email code : Bytes) (now : Int) (entry : CodeEntry) (hentry : s.codes email = some entry)
      (h : entry.expireAt < now) :
      Effect s ⟨now, .verify email code⟩ (.verified now email code false) (s.delete email)
  /-- The code is right and in time. -/
  | redeem (email : Bytes) (now : Int) (entry : CodeEntry) (hentry : s.codes email = some entry)
      (h : now ≤ entry.expireAt) :
      Effect s ⟨now, .verify email entry.code⟩ (.verified now email entry.code true) (s.delete email)

/-- **What a call can do.** -/
theorem effect (s : CodeStore) (e : Timed Int Op) : Effect s e (s.answer e).1 (s.answer e).2 := by
  obtain ⟨now, op⟩ := e
  cases op with
  | generate email rand =>
      rcases generate_cases email now rand s with ⟨heq, hcool⟩ | ⟨entry, remaining, hentry, hcool, heq⟩
      · have hanswer : s.answer ⟨now, .generate email rand⟩ =
            (.issued now email (randomDigits s.digits rand), (s.issue email now rand).2) := by
          simp only [answer, heq, issue_fst, if_true]
        rw [hanswer]
        exact .issue email rand now hcool
      · have hanswer : s.answer ⟨now, .generate email rand⟩ = (.refused now email remaining, s) := by
          rw [answer, heq]
          rfl
        rw [hanswer]
        exact .refuse email rand now remaining entry hentry hcool
  | verify email code =>
      have hanswer : s.answer ⟨now, .verify email code⟩ =
          (.verified now email code (s.verify email code now).1, (s.verify email code now).2) := rfl
      rw [hanswer]
      rcases verify_cases email code now s with ⟨hnone, heq⟩ | ⟨entry, hentry, hcases⟩
      · rw [heq]
        exact .reject email code now fun _ h => nomatch hnone.symm.trans h
      · rcases hcases with ⟨hexpired, heq⟩ | ⟨htime, hcode, heq⟩ | ⟨htime, rfl, heq⟩
        · rw [heq]
          exact .expire email code now entry hentry hexpired
        · rw [heq]
          refine .reject email code now fun entry' h => ?_
          cases hentry.symm.trans h
          exact ⟨htime, hcode⟩
        · rw [heq]
          exact .redeem email now entry hentry htime

end CodeStore

end AimChat.Mail
