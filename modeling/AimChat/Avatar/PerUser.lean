import AimChat.Avatar.FileStore
import AimChat.Lib.Timed

/-! # One avatar for each user

Calls of `Save` and `Delete` run one at a time, files being removed when they are there. A call on a user
leaves the files of the others (`mem_save_of_ne`), and what it leaves of the user's own is what there was,
nothing, or the file it made (`own_save`): every user has one file at most, and the latest `Save` that
succeeds names it. -/

namespace AimChat.Avatar

namespace FileStore

variable {st : FileStore} {userID userID' now : Int} {data : Bytes} {out : Outcome} {dir : Dir} {name : Bytes}

/-! ## One `Save` -/

/-- It leaves the other users their files. -/
theorem mem_save_of_ne (hne : userID' ≠ userID) (hown : Owns userID' name) :
    name ∈ (st.save userID data now out dir).2 ↔ name ∈ dir := by
  -- the file that is made and removed again is the user's own
  have hname : name ≠ filename userID (unix now) := fun h =>
    hne (owner_unique hown (h ▸ owns_filename userID (unix now)))
  unfold save
  dsimp only
  split_ifs
  · rfl
  · rfl
  · exact mem_delete_of_ne hne hown
  · rw [OrdSet.mem_remove, OrdSet.mem_add, mem_delete_of_ne hne hown]
    tauto
  · rw [OrdSet.mem_add, mem_delete_of_ne hne hown]
    tauto
  · rw [OrdSet.mem_add, mem_delete_of_ne hne hown]
    tauto

/-- What it leaves of the user's own: what there was, nothing, or the file it made. -/
theorem own_save (st : FileStore) (userID : Int) (data : Bytes) (now : Int) (dir : Dir)
    (hremoves : ∀ name, out.removes name = true) :
    ((st.save userID data now out dir).2 = dir ∧ ∃ err, (st.save userID data now out dir).1 = .error err) ∨
    ((∀ name, Owns userID name → name ∉ (st.save userID data now out dir).2) ∧
      ∃ err, (st.save userID data now out dir).1 = .error err) ∨
    ((∀ name, Owns userID name →
        (name ∈ (st.save userID data now out dir).2 ↔ name = filename userID (unix now))) ∧
      (st.save userID data now out dir).1 = .ok (filename userID (unix now))) := by
  unfold save
  dsimp only
  split_ifs with hsize hdecodes hcreates hencodes hremoved
  · exact .inl ⟨rfl, _, rfl⟩
  · exact .inl ⟨rfl, _, rfl⟩
  · exact .inr (.inl ⟨fun name hown => not_mem_delete hremoves hown, _, rfl⟩)
  · refine .inr (.inl ⟨fun name hown => ?_, _, rfl⟩)
    rw [OrdSet.mem_remove, OrdSet.mem_add]
    rintro ⟨hne, rfl | hname⟩
    · exact hne rfl
    · exact not_mem_delete hremoves hown hname
  · exact absurd (hremoves _) hremoved
  · refine .inr (.inr ⟨fun name hown => ?_, rfl⟩)
    rw [OrdSet.mem_add, or_iff_left (not_mem_delete hremoves hown)]

/-! ## Runs -/

/-- A call. -/
inductive Op
  | save (userID : Int) (data : Bytes) (out : Outcome)
  | delete (userID : Int) (removes : Bytes → Bool)

/-- The user it is on. -/
def Op.user : Op → Int
  | .save userID .. => userID
  | .delete userID _ => userID

/-- Removing an existing file succeeds. -/
def Op.Removes : Op → Prop
  | .save _ _ out => ∀ name, out.removes name = true
  | .delete _ removes => ∀ name, removes name = true

/-- One call. -/
def next (st : FileStore) (dir : Dir) : Timed Int Op → Dir
  | ⟨now, .save userID data out⟩ => (st.save userID data now out dir).2
  | ⟨_, .delete userID removes⟩ => delete userID removes dir

/-- Every user has one file at most. -/
def OneEach (dir : Dir) : Prop :=
  ∀ userID name name', name ∈ dir → name' ∈ dir → Owns userID name → Owns userID name' → name = name'

/-- What a call promises: a `Save` that succeeds names the user's file, a `Delete` leaves none, and no other
user's name changes nor is a file of theirs removed. -/
structure LatestWins (st : FileStore) (dir : Dir) (e : Timed Int Op) : Prop where
  saved : ∀ userID data out name, e.call = .save userID data out →
    (st.save userID data e.now out dir).1 = .ok name → getFilename userID (st.next dir e) = name
  deleted : ∀ userID removes, e.call = .delete userID removes → getFilename userID (st.next dir e) = []
  others : ∀ userID, userID ≠ e.call.user → getFilename userID (st.next dir e) = getFilename userID dir ∧
    ∀ name ∈ dir, Owns userID name → name ∈ st.next dir e

variable {e : Timed Int Op}

/-- One call leaves the other users their files. -/
theorem mem_next_of_ne (hne : userID' ≠ e.call.user) (hown : Owns userID' name) :
    name ∈ st.next dir e ↔ name ∈ dir := by
  obtain ⟨now, call⟩ := e
  cases call with
  | save userID data out => exact mem_save_of_ne hne hown
  | delete userID removes => exact mem_delete_of_ne hne hown

/-- One call leaves every user one file at most. -/
theorem oneEach_next (hone : OneEach dir) (hremoves : e.call.Removes) : OneEach (st.next dir e) := by
  rintro userID name name' hname hname' hown hown'
  by_cases hne : userID = e.call.user
  · obtain ⟨now, call⟩ := e
    cases call with
    | save userID' data out =>
        obtain rfl : userID = userID' := hne
        rcases own_save st userID data now dir hremoves with
          ⟨hsame, -⟩ | ⟨hnone, -⟩ | ⟨hfile, -⟩
        · exact hone userID name name' (hsame ▸ hname) (hsame ▸ hname') hown hown'
        · exact absurd hname (hnone name hown)
        · exact ((hfile name hown).1 hname).trans ((hfile name' hown').1 hname').symm
    | delete userID' removes =>
        obtain rfl : userID = userID' := hne
        exact absurd hname (not_mem_delete hremoves hown)
  · exact hone userID name name' ((mem_next_of_ne hne hown).1 hname) ((mem_next_of_ne hne hown').1 hname')
      hown hown'

/-- One call keeps what it promises. -/
theorem latestWins_step (hremoves : e.call.Removes) : LatestWins st dir e := by
  constructor
  · rintro userID data out name hcall hok
    obtain ⟨now, call⟩ := e
    obtain rfl : call = .save userID data out := hcall
    rcases own_save st userID data now dir hremoves with
      ⟨-, err, herr⟩ | ⟨-, err, herr⟩ | ⟨hfile, hname⟩
    · cases herr.symm.trans hok
    · cases herr.symm.trans hok
    · obtain rfl : filename userID (unix now) = name := Except.ok.inj (hname.symm.trans hok)
      exact getFilename_of_unique ((hfile _ (owns_filename _ _)).2 rfl) (owns_filename _ _)
        fun name' hname' hown => (hfile name' hown).1 hname'
  · rintro userID removes hcall
    obtain ⟨now, call⟩ := e
    obtain rfl : call = .delete userID removes := hcall
    exact getFilename_of_none fun name hname hown => not_mem_delete hremoves hown hname
  · rintro userID hne
    exact ⟨getFilename_congr fun name hown => mem_next_of_ne hne hown,
      fun name hname hown => (mem_next_of_ne hne hown).2 hname⟩

/-- **Avatars are per user and the latest wins.** From an empty directory, for every sequence of `Save` and
`Delete` calls for any ids at any times, removing an existing file succeeding: in every directory reached
each user has one file at most, and every call keeps what it promises. -/
theorem latestWins (st : FileStore) {es : List (Timed Int Op)} (hremoves : ∀ e ∈ es, e.call.Removes) :
    OneEach (es.foldl st.next ∅) ∧
      Run.Always (Run.total st.next : _ → _ → Except Unit _) (fun dir e => OneEach dir ∧ LatestWins st dir e)
        ∅ es := by
  have hempty : OneEach ∅ := fun _ name _ hname => absurd hname (OrdSet.not_mem_empty name)
  have halways : Run.Always (Run.total st.next : _ → _ → Except Unit _) (fun _ e => e.call.Removes) ∅ es :=
    Run.always_of_forall_mem hremoves
  have hstep : ∀ dir e dir', OneEach dir → e.call.Removes →
      (Run.total st.next : _ → _ → Except Unit _) dir e = .ok dir' → OneEach dir' := by
    rintro dir e _ hone hremoves ⟨⟩
    exact oneEach_next hone hremoves
  exact ⟨Run.run_invariant hstep hempty halways (Run.run_total st.next ∅ es),
    Run.always_of_invariant hstep (fun dir e hone hremoves => ⟨hone, latestWins_step hremoves⟩) hempty halways⟩

/-- Two saves in one second and a deletion. -/
theorem latestWins_three :
    OneEach (([⟨0, .save (-1) [1] ⟨true, true, true, fun _ => true⟩⟩,
        ⟨5, .save (-1) [2] ⟨true, true, true, fun _ => true⟩⟩, ⟨7, .delete 3 fun _ => true⟩] :
        List (Timed Int Op)).foldl (FileStore.mk 5).next ∅) ∧
      Run.Always (Run.total (FileStore.mk 5).next : _ → _ → Except Unit _)
        (fun dir e => OneEach dir ∧ LatestWins ⟨5⟩ dir e) ∅
        [⟨0, .save (-1) [1] ⟨true, true, true, fun _ => true⟩⟩,
          ⟨5, .save (-1) [2] ⟨true, true, true, fun _ => true⟩⟩, ⟨7, .delete 3 fun _ => true⟩] :=
  latestWins ⟨5⟩ (by simp [Op.Removes])

end FileStore

end AimChat.Avatar
