import AimChat.Agent.Encoding
import AimChat.Agent.Goroutines

/-! # Expiry and fresh values

`Get` finds an entry expired under one lock and deletes its key under a later one, without looking again.
A value that was written in between goes with it. What every other step does to a key is to leave it, to
write it, or to remove what was meant to go (`KeyEffect`): a value whose time has not come is lost at such a
late delete and nowhere else. -/

namespace AimChat.Agent

open Go

namespace Goroutines

/-! ## What a step does to a key -/

/-- A step of `Get`, `Set`, `Del` or `IncrWithTTL`, or a turn of the sweep. -/
def IsKeyValue (e : Timed Int Step) : Prop :=
  match e.call with
  | .appendRead .. | .appendWrite .. | .clearHistory .. => False
  | _ => True

/-- The entry a `Set` or an `IncrWithTTL` makes under a key. -/
def writes (g : Goroutines) (e : Timed Int Step) (key : Bytes) : Option MemEntry :=
  match e.call with
  | .set key' value ttl => if key = key' then some ⟨value, some (Time.add e.now ttl)⟩ else none
  | .incrWithTTL key' ttl =>
      if key = key' then some ⟨printInt (g.cache.incrWithTTL key' ttl e.now).1, some (Time.add e.now ttl)⟩
      else none
  | _ => none

/-- The step is a `Set`, an `IncrWithTTL` or a `Del` on the key. -/
def Touches (key : Bytes) (e : Timed Int Step) : Prop :=
  match e.call with
  | .set key' .. | .incrWithTTL key' _ | .del key' => key = key'
  | _ => False

/-- The entry that a late delete of `Get` finds has expired, too. -/
def DeletesExpired (g : Goroutines) (e : Timed Int Step) : Prop :=
  ∀ key, e.call = .getDelete key → ∀ entry, g.cache.lookup key = some entry → entry.expired e.now = true

/-- What a step leaves under a key. -/
inductive KeyEffect (g : Goroutines) (e : Timed Int Step) (key : Bytes) (g' : Goroutines) : Prop
  | written {entry : MemEntry} (hwrites : g.writes e key = some entry)
      (h : g'.cache.lookup key = some entry)
  | kept (htouches : ¬ Touches key e) (h : g'.cache.lookup key = g.cache.lookup key)
  | deleted (hcall : e.call = .del key) (h : g'.cache.lookup key = none)
  | swept (hcall : e.call = .cleanExpired) (h : g'.cache.lookup key = g.cache.current e.now key)
  | deletedLate (hcall : e.call = .getDelete key) (h : g'.cache.lookup key = none)

variable {json : Json} {g g' : Goroutines} {e : Timed Int Step} {es : List (Timed Int Step)}

/-- A step that writes an entry under a key touches it. -/
theorem touches_of_writes {key : Bytes} {entry : MemEntry} (h : g.writes e key = some entry) :
    Touches key e := by
  obtain ⟨now, call⟩ := e
  cases call with
  | set key' value ttl | incrWithTTL key' ttl =>
      rw [writes] at h
      dsimp only at h
      split_ifs at h with hkey
      exact hkey
  | _ => cases h

/-- **What a step leaves under a key.** -/
theorem keyEffect (hkv : IsKeyValue e) (hstep : step json g e = .ok g') (key : Bytes) :
    KeyEffect g e key g' := by
  cases stepped json hstep with
  | missed | read | current | expired => exact .kept id rfl
  | @getDelete _ key' hp =>
      by_cases hkey : key = key'
      · subst hkey
        exact .deletedLate rfl ((MemoryCache.lookup_delete ..).trans (if_pos rfl))
      · exact .kept id ((MemoryCache.lookup_delete ..).trans (if_neg hkey))
  | set now key' value ttl =>
      by_cases hkey : key = key'
      · exact .written (if_pos hkey) ((MemoryCache.lookup_set ..).trans (if_pos hkey))
      · exact .kept hkey ((MemoryCache.lookup_set ..).trans (if_neg hkey))
  | del now key' =>
      by_cases hkey : key = key'
      · subst hkey
        exact .deleted rfl ((MemoryCache.lookup_del ..).trans (if_pos rfl))
      · exact .kept hkey ((MemoryCache.lookup_del ..).trans (if_neg hkey))
  | incrWithTTL now key' ttl =>
      by_cases hkey : key = key'
      · exact .written (if_pos hkey) ((MemoryCache.lookup_incrWithTTL ..).trans (if_pos hkey))
      · exact .kept hkey ((MemoryCache.lookup_incrWithTTL ..).trans (if_neg hkey))
  | cleanExpired now => exact .swept rfl (MemoryCache.lookup_cleanExpired ..)
  | appendRead | appendWrite | clearHistory => exact absurd hkv id

/-- An entry whose time has not come outlives a step that does not touch its key, when late deletes find
expired entries. -/
theorem lookup_of_not_touches (hkv : IsKeyValue e) (hdeletes : DeletesExpired g e)
    (hstep : step json g e = .ok g') {key : Bytes} {entry : MemEntry}
    (hentry : g.cache.lookup key = some entry) (htouches : ¬ Touches key e)
    (htime : entry.expired e.now = false) : g'.cache.lookup key = some entry := by
  cases keyEffect hkv hstep key with
  | written hwrites => exact absurd (touches_of_writes hwrites) htouches
  | kept _ h => exact h.trans hentry
  | deleted hcall =>
      refine absurd ?_ htouches
      rw [Touches, hcall]
  | swept hcall h =>
      rw [h, MemoryCache.current, hentry, Option.filter_some, htime]
      rfl
  | deletedLate hcall =>
      have hexpired := hdeletes key hcall entry hentry
      rw [htime] at hexpired
      cases hexpired

/-! ## Runs -/

variable (json) in
/-- After each part of a run: what the last `Set`, `IncrWithTTL` or `Del` on a key wrote is there as long as
no reading of the clock since was past its expiry. -/
def FreshKept (es : List (Timed Int Step)) : Prop :=
  ∀ before w since rest g₀ g key entry, es = before ++ w :: (since ++ rest) →
    Run.run (step json) new before = .ok g₀ → g₀.writes w key = some entry →
    (∀ e ∈ since, ¬ Touches key e) → (∀ e ∈ since, entry.expired e.now = false) →
    Run.run (step json) new (before ++ w :: since) = .ok g → g.cache.lookup key = some entry

/-- An entry stays along steps that do not touch its key and are made in its time. -/
theorem lookup_of_run (hkv : ∀ e ∈ es, IsKeyValue e) (hdeletes : Run.Always (step json) DeletesExpired g es)
    (hrun : Run.run (step json) g es = .ok g') {key : Bytes} {entry : MemEntry}
    (hentry : g.cache.lookup key = some entry) (htouches : ∀ e ∈ es, ¬ Touches key e)
    (htime : ∀ e ∈ es, entry.expired e.now = false) : g'.cache.lookup key = some entry := by
  induction es generalizing g with
  | nil =>
      cases hrun
      exact hentry
  | cons e es ih =>
      obtain ⟨g₁, hstep, hrest⟩ := Run.run_cons_eq_ok.1 hrun
      refine ih (fun e' he' => hkv e' (List.mem_cons_of_mem _ he')) (hdeletes.2 g₁ hstep) hrest ?_
        (fun e' he' => htouches e' (List.mem_cons_of_mem _ he'))
        (fun e' he' => htime e' (List.mem_cons_of_mem _ he'))
      exact lookup_of_not_touches (hkv e List.mem_cons_self) hdeletes.1 hstep hentry
        (htouches e List.mem_cons_self) (htime e List.mem_cons_self)

/-- When late deletes find expired entries, fresh values are kept. -/
theorem freshKept_of_deletesExpired (hkv : ∀ e ∈ es, IsKeyValue e)
    (hdeletes : Run.Always (step json) DeletesExpired new es) : FreshKept json es := by
  rintro before w since rest g₀ g key entry rfl hbefore hwrites htouches htime hrun
  obtain ⟨g₀', hbefore', hrun⟩ := Run.run_append_eq_ok.1 hrun
  cases hbefore.symm.trans hbefore'
  obtain ⟨g₁, hstep, hsince⟩ := Run.run_cons_eq_ok.1 hrun
  have hkv' : ∀ e ∈ w :: since, IsKeyValue e := fun e he => hkv e (by
    rw [← List.cons_append]
    exact List.mem_append_right _ (List.mem_append_left _ he))
  have hdeletes' := ((Run.always_append.1 hdeletes).2 g₀ hbefore).2 g₁ hstep
  have hentry : g₁.cache.lookup key = some entry := by
    cases keyEffect (hkv' w List.mem_cons_self) hstep key with
    | written hwrites' h => exact h.trans (hwrites'.symm.trans hwrites)
    | kept htouches => exact absurd (touches_of_writes hwrites) htouches
    | deleted hcall | swept hcall | deletedLate hcall =>
        rw [writes, hcall] at hwrites
        cases hwrites
  exact lookup_of_run (fun e he => hkv' e (List.mem_cons_of_mem _ he)) hdeletes'.left hsince hentry htouches
    htime

/-- Every entry was written by a step since which none has touched its key. -/
theorem exists_write (hkv : ∀ e ∈ es, IsKeyValue e) (hrun : Run.run (step json) new es = .ok g)
    {key : Bytes} {entry : MemEntry} (hentry : g.cache.lookup key = some entry) :
    ∃ before w since g₀, es = before ++ w :: since ∧ Run.run (step json) new before = .ok g₀ ∧
      g₀.writes w key = some entry ∧ ∀ e ∈ since, ¬ Touches key e := by
  -- the write is the last step or that of the entry before it
  induction es using List.reverseRecOn generalizing g with
  | nil =>
      cases hrun
      cases hentry
  | append_singleton es e ih =>
      obtain ⟨g₁, hrun₁, hstep⟩ := Run.run_snoc_eq_ok.1 hrun
      -- an entry that was there before the step has its write there
      have hearlier (htouches : ¬ Touches key e) (hentry : g₁.cache.lookup key = some entry) :
          ∃ before w since g₀, es ++ [e] = before ++ w :: since ∧
            Run.run (step json) new before = .ok g₀ ∧ g₀.writes w key = some entry ∧
            ∀ e ∈ since, ¬ Touches key e := by
        obtain ⟨before, w, since, g₀, rfl, hbefore, hwrites, hsince⟩ :=
          ih (fun e' he' => hkv e' (List.mem_append_left _ he')) hrun₁ hentry
        refine ⟨before, w, since ++ [e], g₀, by simp, hbefore, hwrites, fun e' he' => ?_⟩
        rcases List.mem_append.1 he' with he' | he'
        · exact hsince e' he'
        · exact List.mem_singleton.1 he' ▸ htouches
      cases keyEffect (hkv e (by simp)) hstep key with
      | written hwrites h =>
          refine ⟨es, e, [], g₁, rfl, hrun₁, ?_, fun _ he' => absurd he' List.not_mem_nil⟩
          rw [hwrites, ← h, hentry]
      | kept htouches h => exact hearlier htouches (h ▸ hentry)
      | deleted _ h | deletedLate _ h => cases h.symm.trans hentry
      | swept hcall h =>
          refine hearlier ?_ (MemoryCache.lookup_of_current (h ▸ hentry))
          rw [Touches, hcall]
          exact id

/-- A late delete leaves its key without an entry. -/
theorem lookup_of_getDelete (hstep : step json g e = .ok g') {key : Bytes} (hcall : e.call = .getDelete key) :
    g'.cache.lookup key = none := by
  cases stepped json hstep with
  | getDelete =>
      cases hcall
      exact (MemoryCache.lookup_delete ..).trans (if_pos rfl)
  | _ => cases hcall

/-- When fresh values are kept and the clock does not go back, late deletes find expired entries. -/
theorem deletesExpired_of_freshKept (hkv : ∀ e ∈ es, IsKeyValue e) (hclock : NonDecreasing es)
    (hrun : Run.run (step json) new es = .ok g) (hfresh : FreshKept json es) :
    Run.Always (step json) DeletesExpired new es := by
  refine Run.always_of_splits ?_
  rintro before e rest g₁ rfl hbefore key hcall entry hentry
  by_contra htime
  rw [Bool.not_eq_true] at htime
  have hkv' : ∀ e ∈ before, IsKeyValue e := fun e he => hkv e (List.mem_append_left _ he)
  obtain ⟨before, w, since, g₀, rfl, hw, hwrites, hsince⟩ := exists_write hkv' hbefore hentry
  obtain ⟨g₂, hrun₂, -⟩ : ∃ g₂, Run.run (step json) new (before ++ w :: since ++ [e]) = .ok g₂ ∧
      Run.run (step json) g₂ rest = .ok g := by
    rw [← Run.run_append_eq_ok, List.append_assoc, List.singleton_append]
    exact hrun
  have htouches : ¬ Touches key e := by
    rw [Touches, hcall]
    exact id
  -- the entry was in its time at every step since its write, so it should be there
  have hkept : g₂.cache.lookup key = some entry := by
    refine hfresh before w (since ++ [e]) rest g₀ g₂ key entry (by simp) hw hwrites ?_ ?_ (by simpa using hrun₂)
    · exact fun e' he' => (List.mem_append.1 he').elim (hsince e') fun he' => List.mem_singleton.1 he' ▸ htouches
    · intro e' he'
      refine MemEntry.expired_mono ?_ htime
      rcases List.mem_append.1 he' with he' | he'
      · exact hclock.le (List.mem_append_right _ (List.mem_cons_of_mem _ he')) List.mem_cons_self
      · rw [List.mem_singleton.1 he']
  -- but the delete has just removed it
  obtain ⟨g₁', -, hstep⟩ := Run.run_snoc_eq_ok.1 hrun₂
  cases (lookup_of_getDelete hstep hcall).symm.trans hkept

/-- **When fresh values outlive expiry.** In every interleaving of the steps of any number of calls, by any
clock: values whose time has not come are kept when every late delete of `Get` finds an entry that has
expired, or none. By a clock that does not go back they are kept exactly then. -/
theorem freshKept_iff (hkv : ∀ e ∈ es, IsKeyValue e) (hrun : Run.run (step json) new es = .ok g) :
    (Run.Always (step json) DeletesExpired new es → FreshKept json es) ∧
      (NonDecreasing es → (FreshKept json es ↔ Run.Always (step json) DeletesExpired new es)) :=
  ⟨freshKept_of_deletesExpired hkv, fun hclock =>
    ⟨deletesExpired_of_freshKept hkv hclock hrun, freshKept_of_deletesExpired hkv⟩⟩

/-- A `Get` that finds its entry expired and deletes it before anyone writes the key again. -/
theorem freshKept_iff_undisturbed :
    FreshKept encodingJson
        [⟨0, .set (str "k") (str "old") (.secs 1 (by decide))⟩, ⟨2000000000, .getRead (str "k")⟩,
          ⟨2000000000, .getCheck (str "k") 0⟩, ⟨2000000000, .getDelete (str "k")⟩] ↔
      Run.Always (step encodingJson) DeletesExpired new
        [⟨0, .set (str "k") (str "old") (.secs 1 (by decide))⟩, ⟨2000000000, .getRead (str "k")⟩,
          ⟨2000000000, .getCheck (str "k") 0⟩, ⟨2000000000, .getDelete (str "k")⟩] :=
  (freshKept_iff (by simp [IsKeyValue]) rfl).2 (by decide)

/-- A value written between the check and the delete of a `Get` is gone long before its time. -/
theorem fresh_value_deleted :
    ¬ FreshKept encodingJson
        [⟨0, .set (str "k") (str "old") (.secs 1 (by decide))⟩, ⟨2000000000, .getRead (str "k")⟩,
          ⟨2000000000, .getCheck (str "k") 0⟩, ⟨3000000000, .set (str "k") (str "new") (.secs 10 (by decide))⟩,
          ⟨3000000000, .getDelete (str "k")⟩] := by
  intro hfresh
  have hlookup := hfresh
    [⟨0, .set (str "k") (str "old") (.secs 1 (by decide))⟩, ⟨2000000000, .getRead (str "k")⟩,
      ⟨2000000000, .getCheck (str "k") 0⟩]
    ⟨3000000000, .set (str "k") (str "new") (.secs 10 (by decide))⟩ [⟨3000000000, .getDelete (str "k")⟩] []
    _ _ (str "k") _ rfl rfl rfl (by simp [Touches]) (by decide) rfl
  cases hlookup

end Goroutines

end AimChat.Agent
