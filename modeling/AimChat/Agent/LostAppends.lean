import AimChat.Agent.Encoding
import AimChat.Agent.Goroutines

/-! # Appends to one history at the same time

`AppendHistory` reads the history under one lock and writes it, with its message, under a later one. What
another call wrote in between is written over. Where every call still finds at its write what it read, as
far as its write keeps it, no message is lost: the messages already written and those still to be written
are the appended ones (`Stage`, kept by each step). -/

namespace AimChat.Agent

namespace Goroutines

/-- The last messages of the history before, followed by the appended ones in some order; without a message
the history before. -/
def AppendsKept (maxLen : Nat) (before msgs after : List Message) : Prop :=
  ∃ order, order.Perm msgs ∧ after = if msgs = [] then before else keepLast maxLen (before ++ order)

/-- A step of an `AppendHistory` of the user with this bound. -/
def IsAppend (userID : Int) (maxLen : Nat) (e : Timed Int Step) : Prop :=
  ∃ msg, e.call = .appendRead userID msg maxLen ∨ ∃ entry, e.call = .appendWrite userID msg maxLen entry

/-- The message of a call at its first step. -/
def begins (e : Timed Int Step) : Option Message :=
  match e.call with
  | .appendRead _ msg _ => some msg
  | _ => none

/-- The messages of the calls that were begun. -/
def appended (es : List (Timed Int Step)) : List Message := es.filterMap begins

/-- The message a call has still to write. -/
def Pending.message : Pending → Option Message
  | .appending _ msg _ _ => some msg
  | _ => none

/-- The messages that are still to be written. -/
def unwritten (calls : List Pending) : List Message := calls.filterMap Pending.message

variable (json : Json)

/-- At its write a call finds what it read, up to the messages the write keeps. -/
def FindsWhatItRead (g : Goroutines) (e : Timed Int Step) : Prop :=
  ∀ userID msg maxLen entry, e.call = .appendWrite userID msg maxLen entry →
    g.cache.historyOf json entry (maxLen - 1) = keepLast (maxLen - 1) (g.cache.stored json userID)

/-- How far a run of appends is: these messages are written, in this order. -/
structure Stage (userID : Int) (maxLen : Nat) (before : List Message) (es : List (Timed Int Step))
    (g : Goroutines) (order : List Message) : Prop where
  perm : (order ++ unwritten g.calls).Perm (appended es)
  stored : g.cache.stored json userID = if order = [] then before else keepLast maxLen (before ++ order)

variable {json} {userID : Int} {maxLen : Nat} {before : List Message} {es : List (Timed Int Step)}
  {g g' : Goroutines} {order : List Message}

theorem appended_snoc (es : List (Timed Int Step)) (e : Timed Int Step) :
    appended (es ++ [e]) = appended es ++ (begins e).toList := by
  rw [appended, List.filterMap_append]
  cases hmsg : begins e <;> simp [appended, hmsg]

/-- Without the call that makes its write, its message is unwritten no longer. -/
theorem unwritten_erase {calls : List Pending} {msg : Message} {entry : Option Addr}
    (hp : .appending userID msg maxLen entry ∈ calls) :
    (msg :: unwritten (calls.erase (.appending userID msg maxLen entry))).Perm (unwritten calls) :=
  ((List.perm_cons_erase hp).filterMap Pending.message).symm

/-- **A write that finds what it read** appends its message to the stored history. -/
theorem stored_appendTo_of_finds (hjson : json.Lawful) {m : MemoryCache} {msg : Message} {entry : Option Addr}
    (hfinds : m.historyOf json entry (maxLen - 1) = keepLast (maxLen - 1) (m.stored json userID)) :
    (m.appendTo json entry userID msg maxLen).stored json userID =
      keepLast maxLen (m.stored json userID ++ [msg]) := by
  -- with its message, a write keeps `maxLen - 1` of the messages it read
  have hkeeps : maxLen ≤ (maxLen - 1) + [msg].length := by
    rw [List.length_singleton]
    omega
  calc (m.appendTo json entry userID msg maxLen).stored json userID
      = keepLast maxLen (m.historyOf json entry maxLen ++ [msg]) :=
        m.stored_appendTo_self hjson entry msg maxLen
    _ = keepLast maxLen (keepLast (maxLen - 1) (m.historyOf json entry maxLen) ++ [msg]) :=
        (keepLast_append_keepLast _ _ hkeeps).symm
    _ = keepLast maxLen (keepLast (maxLen - 1) (m.stored json userID) ++ [msg]) := by
        rw [MemoryCache.keepLast_historyOf, Nat.min_eq_left (Nat.sub_le _ _), hfinds]
    _ = keepLast maxLen (m.stored json userID ++ [msg]) := keepLast_append_keepLast _ _ hkeeps

/-- One step of an append. -/
theorem Stage.step (hjson : json.Lawful) (h : Stage json userID maxLen before es g order)
    {e : Timed Int Step} (he : IsAppend userID maxLen e) (hfinds : FindsWhatItRead json g e)
    (hstep : step json g e = .ok g') :
    ∃ order', Stage json userID maxLen before (es ++ [e]) g' order' := by
  obtain ⟨now, call⟩ := e
  obtain ⟨msg, hcall | ⟨entry, hcall⟩⟩ := he
  · -- the read: one more call waits to write
    obtain rfl : call = .appendRead userID msg maxLen := hcall
    cases hstep
    refine ⟨order, ?_, h.stored⟩
    rw [appended_snoc]
    exact List.perm_middle.trans ((h.perm.cons msg).trans (List.perm_append_singleton ..).symm)
  · obtain rfl : call = .appendWrite userID msg maxLen entry := hcall
    cases stepped json hstep with
    | appendWrite _ hp =>
        refine ⟨order ++ [msg], ?_, ?_⟩
        · have hbegins : begins ⟨now, .appendWrite userID msg maxLen entry⟩ = none := rfl
          rw [appended_snoc, hbegins, Option.toList_none, List.append_nil, List.append_assoc,
            List.singleton_append]
          exact ((unwritten_erase hp).append_left order).trans h.perm
        · rw [if_neg (by simp), stored_appendTo_of_finds hjson (hfinds _ _ _ _ rfl), h.stored]
          split_ifs with horder
          · rw [horder, List.nil_append]
          · rw [keepLast_append_keepLast _ _ (Nat.le_add_right _ _), List.append_assoc]

/-- **No message is lost when every write finds what its call read.** From any cache with no call under way,
whatever the order of the steps of any number of `AppendHistory` calls for one user with one bound: once all
have finished the history is the last messages of the one before and the appended ones in some order. -/
theorem appendsKept_of_finds (hjson : json.Lawful) (hidle : g.calls = [])
    (happends : ∀ e ∈ es, IsAppend userID maxLen e)
    (hfinds : Run.Always (step json) (FindsWhatItRead json) g es)
    (hrun : Run.run (step json) g es = .ok g') (hdone : g'.calls = []) :
    AppendsKept maxLen (g.cache.stored json userID) (appended es) (g'.cache.stored json userID) := by
  have halways := Run.always_and.2 ⟨Run.always_of_forall_mem happends, hfinds⟩
  obtain ⟨order, hstage⟩ : ∃ order,
      Stage json userID maxLen (g.cache.stored json userID) es g' order := by
    refine Run.run_history (J := fun es g' => ∃ order,
      Stage json userID maxLen (g.cache.stored json userID) es g' order) ?_ ?_ halways hrun
    · refine ⟨[], ?_, rfl⟩
      rw [hidle]
      exact List.Perm.refl _
    · rintro es g e g' - ⟨order, h⟩ ⟨he, hfinds⟩ hstep
      exact h.step hjson he hfinds hstep
  have hperm : order.Perm (appended es) := by
    have hperm := hstage.perm
    rw [hdone] at hperm
    exact (List.append_nil order) ▸ hperm
  -- the order has a message exactly when a call was begun
  have hnil : order = [] ↔ appended es = [] := by
    rw [← List.length_eq_zero_iff, ← List.length_eq_zero_iff, hperm.length_eq]
  refine ⟨order, hperm, hstage.stored.trans ?_⟩
  simp only [hnil]

theorem findsWhatItRead_read (g : Goroutines) (now userID : Int) (msg : Message) (maxLen : Nat) :
    FindsWhatItRead json g ⟨now, .appendRead userID msg maxLen⟩ := by
  rintro _ _ _ _ ⟨⟩

/-- A call with a bound of one message keeps nothing of what it read. -/
theorem findsWhatItRead_one (g : Goroutines) (now userID : Int) (msg : Message) (entry : Option Addr) :
    FindsWhatItRead json g ⟨now, .appendWrite userID msg 1 entry⟩ := by
  rintro _ _ _ _ ⟨⟩
  have hread : keepLast 0 (g.cache.historyOf json entry 0) = _ := MemoryCache.keepLast_historyOf entry 0 0
  rw [keepLast_zero] at hread
  exact hread.symm.trans (keepLast_zero _).symm

/-- Two calls that overlap: both read before the first of them writes, with a bound of one message. -/
theorem appendsKept_overlapping :
    AppendsKept 1 (new.cache.stored encodingJson 1) [⟨"user", "a", 0⟩, ⟨"user", "b", 0⟩]
      (((new.cache.appendTo encodingJson none 1 ⟨"user", "a", 0⟩ 1).appendTo encodingJson none 1
        ⟨"user", "b", 0⟩ 1).stored encodingJson 1) := by
  let es : List (Timed Int Step) :=
    [⟨0, .appendRead 1 ⟨"user", "a", 0⟩ 1⟩, ⟨0, .appendRead 1 ⟨"user", "b", 0⟩ 1⟩,
      ⟨1, .appendWrite 1 ⟨"user", "a", 0⟩ 1 none⟩, ⟨1, .appendWrite 1 ⟨"user", "b", 0⟩ 1 none⟩]
  have happends : ∀ e ∈ es, IsAppend 1 1 e := by
    intro e he
    simp only [es, List.mem_cons, List.not_mem_nil, or_false] at he
    rcases he with rfl | rfl | rfl | rfl
    · exact ⟨_, .inl rfl⟩
    · exact ⟨_, .inl rfl⟩
    · exact ⟨_, .inr ⟨_, rfl⟩⟩
    · exact ⟨_, .inr ⟨_, rfl⟩⟩
  have hfinds : Run.Always (step encodingJson) (FindsWhatItRead encodingJson) new es := by
    refine ⟨findsWhatItRead_read _ _ _ _ _, ?_⟩
    rintro _ ⟨⟩
    refine ⟨findsWhatItRead_read _ _ _ _ _, ?_⟩
    rintro _ ⟨⟩
    refine ⟨findsWhatItRead_one _ _ _ _ _, ?_⟩
    rintro _ ⟨⟩
    exact ⟨findsWhatItRead_one _ _ _ _ _, fun _ _ => trivial⟩
  exact appendsKept_of_finds encodingJson_lawful rfl happends hfinds rfl rfl

/-- Two calls that both read before the first of them writes: all have finished and a message is gone. -/
theorem message_lost :
    ∃ g, Run.run (step encodingJson) new
        [⟨0, .appendRead 1 ⟨"user", "a", 0⟩ 100⟩, ⟨0, .appendRead 1 ⟨"user", "b", 0⟩ 100⟩,
          ⟨1, .appendWrite 1 ⟨"user", "a", 0⟩ 100 none⟩,
          ⟨1, .appendWrite 1 ⟨"user", "b", 0⟩ 100 none⟩] = .ok g ∧
      g.calls = [] ∧
      ¬ AppendsKept 100 (new.cache.stored encodingJson 1) [⟨"user", "a", 0⟩, ⟨"user", "b", 0⟩]
          (g.cache.stored encodingJson 1) := by
  refine ⟨⟨(new.cache.appendTo encodingJson none 1 ⟨"user", "a", 0⟩ 100).appendTo encodingJson none 1
    ⟨"user", "b", 0⟩ 100, []⟩, rfl, rfl, ?_⟩
  rintro ⟨order, hperm, hstored⟩
  rw [MemoryCache.stored_appendTo_self encodingJson_lawful, if_neg (List.cons_ne_nil _ _)] at hstored
  have hlength := congrArg List.length hstored
  rw [length_keepLast, length_keepLast, List.length_append, List.length_append, hperm.length_eq] at hlength
  exact absurd hlength (by decide)

end Goroutines

end AimChat.Agent
