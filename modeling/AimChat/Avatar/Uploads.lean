import AimChat.Avatar.FileStore
import AimChat.Lib.Timed

/-! # Uploads at the same time

`Save` deletes the user's files, creates one and writes the image to it, without a lock. Run one behind the
other the steps are the call (`run_save`). When several calls are under way, the files of the user are those
created since the last delete (`Since`, kept by each step), and two created in different seconds both stay. -/

namespace AimChat.Avatar

open FileStore

/-- A `Save` between two of its steps. -/
inductive Running
  /-- It has deleted the user's files. -/
  | deleted (userID : Int)
  /-- It has created the file. -/
  | created (userID : Int) (name : Bytes)
  deriving DecidableEq

/-- A step of a `Save` of an image that was decoded. -/
inductive Step
  | delete (userID : Int) (removes : Bytes → Bool)
  /-- `os.Create`, and whether it succeeds. -/
  | create (userID : Int) (creates : Bool)
  /-- `png.Encode`, and whether it succeeds; the file is removed if it does not. -/
  | encode (userID : Int) (name : Bytes) (encodes removes : Bool)

/-- The directory, the calls that are not over and the names that were returned. -/
structure Uploads where
  dir : Dir
  running : List Running
  returned : List Bytes

namespace Uploads

/-- The call that makes the step, if there is one, goes on. -/
def resume (p : Running) (g : Uploads) : Except Unit Uploads :=
  if p ∈ g.running then .ok { g with running := g.running.erase p } else .error ()

/-- One step, and when it is made. A step of a call that does not wait for it is an error. -/
def step (g : Uploads) : Timed Int Step → Except Unit Uploads
  | ⟨_, .delete userID removes⟩ =>
      .ok { g with dir := delete userID removes g.dir, running := .deleted userID :: g.running }
  | ⟨now, .create userID creates⟩ =>
      (g.resume (.deleted userID)).map fun g =>
        if creates then
          { g with
            dir := OrdSet.add g.dir (filename userID (unix now))
            running := .created userID (filename userID (unix now)) :: g.running }
        else g
  | ⟨_, .encode userID name encodes removes⟩ =>
      (g.resume (.created userID name)).map fun g =>
        if encodes then { g with returned := name :: g.returned }
        else { g with dir := if removes then OrdSet.remove g.dir name else g.dir }

/-- The steps of a call that runs alone. -/
def alone (userID now : Int) (out : Outcome) : List (Timed Int Step) :=
  ⟨now, .delete userID out.removes⟩ :: ⟨now, .create userID out.creates⟩ ::
    if out.creates then
      [⟨now, .encode userID (filename userID (unix now)) out.encodes
        (out.removes (filename userID (unix now)))⟩]
    else []

/-- **The steps are the call.** -/
theorem run_save (st : FileStore) (userID : Int) {data : Bytes} (now : Int) {out : Outcome} (dir : Dir)
    (returned : List Bytes) (hsize : (data.length : Int) ≤ st.maxSize) (hdecodes : out.decodes = true) :
    Run.run step ⟨dir, [], returned⟩ (alone userID now out) =
      .ok ⟨(st.save userID data now out dir).2, [],
        match (st.save userID data now out dir).1 with
        | .ok name => name :: returned
        | .error _ => returned⟩ := by
  have hresume : ∀ p dir, resume p ⟨dir, [p], returned⟩ = .ok ⟨dir, [], returned⟩ := fun p dir => by
    simp [resume]
  obtain ⟨decodes, creates, encodes, removes⟩ := out
  obtain rfl : decodes = true := hdecodes
  rw [save, if_neg (not_lt.2 hsize)]
  cases creates with
  | false => simp [alone, Run.run, step, hresume, Except.map]
  | true => cases encodes <;> simp [alone, Run.run, step, hresume, Except.map]

/-! ## Calls for one user -/

/-- A step of a call for the user; the files it deletes are removed and its image is encoded. -/
def IsUpload (userID : Int) (e : Timed Int Step) : Prop :=
  match e.call with
  | .delete userID' removes => userID' = userID ∧ ∀ name, removes name = true
  | .create userID' _ => userID' = userID
  | .encode userID' _ encodes _ => userID' = userID ∧ encodes = true

/-- The seconds in which a file was created since the last delete. -/
def createdSince (es : List (Timed Int Step)) : List Int :=
  es.foldl (fun secs e =>
    match e.call with
    | .delete .. => []
    | .create _ creates => if creates then unix e.now :: secs else secs
    | .encode .. => secs) []

/-- There is exactly one file of the user, and its name was returned. -/
def OneAvatar (userID : Int) (g : Uploads) : Prop :=
  ∃ name, (∀ name', name' ∈ g.dir ∧ Owns userID name' ↔ name' = name) ∧ name ∈ g.returned

/-- The user's files are those created since the last delete, and their names were or will be returned. -/
structure Since (userID : Int) (es : List (Timed Int Step)) (g : Uploads) : Prop where
  files : ∀ name, Owns userID name → (name ∈ g.dir ↔ ∃ sec ∈ createdSince es, name = filename userID sec)
  named : ∀ sec ∈ createdSince es,
    filename userID sec ∈ g.returned ∨ .created userID (filename userID sec) ∈ g.running

variable {userID : Int} {dir : Dir} {es : List (Timed Int Step)} {e : Timed Int Step} {g g' : Uploads}

theorem resume_eq_ok {p : Running} :
    g.resume p = .ok g' ↔ p ∈ g.running ∧ g' = { g with running := g.running.erase p } := by
  unfold resume
  split_ifs with h
  · simp [h, eq_comm]
  · simp [h]

/-- A delete leaves the user no file. -/
theorem since_delete {now : Int} {removes : Bytes → Bool} (hremoves : ∀ name, removes name = true)
    (hstep : step g ⟨now, .delete userID removes⟩ = .ok g') :
    Since userID (es ++ [⟨now, .delete userID removes⟩]) g' := by
  have hnone : createdSince (es ++ [⟨now, .delete userID removes⟩]) = [] := by
    rw [createdSince, List.foldl_append]
    rfl
  cases hstep
  constructor
  · rintro name hown
    rw [hnone]
    exact iff_of_false (not_mem_delete hremoves hown) fun ⟨sec, hsec, _⟩ => absurd hsec List.not_mem_nil
  · rw [hnone]
    exact fun sec hsec => absurd hsec List.not_mem_nil

/-- Every other step keeps the files those created since the last delete. -/
theorem Since.step (h : Since userID es g) (he : IsUpload userID e) (hstep : step g e = .ok g') :
    Since userID (es ++ [e]) g' := by
  obtain ⟨now, call⟩ := e
  cases call with
  | delete userID' removes =>
      obtain ⟨rfl, hremoves⟩ := he
      exact since_delete hremoves hstep
  | create userID' creates =>
      obtain rfl : userID' = userID := he
      obtain ⟨g₁, hresume, rfl⟩ := Run.map_eq_ok.1 hstep
      obtain ⟨hp, rfl⟩ := resume_eq_ok.1 hresume
      have hsince : createdSince (es ++ [⟨now, .create userID' creates⟩]) =
          if creates then unix now :: createdSince es else createdSince es := by
        rw [createdSince, List.foldl_append]
        rfl
      -- the call that goes on had created no file
      have hnamed : ∀ sec ∈ createdSince es, filename userID' sec ∈ g.returned ∨
          .created userID' (filename userID' sec) ∈ g.running.erase (.deleted userID') := fun sec hsec =>
        (h.named sec hsec).imp id (List.mem_erase_of_ne (by simp)).2
      cases creates with
      | false => exact ⟨hsince ▸ h.files, hsince ▸ hnamed⟩
      | true =>
          constructor
          · rintro name hown
            rw [hsince]
            show name ∈ OrdSet.add g.dir (filename userID' (unix now)) ↔ _
            rw [OrdSet.mem_add, h.files name hown]
            simp
          · rw [hsince]
            rintro sec hsec
            rcases List.mem_cons.1 hsec with rfl | hsec
            · exact .inr List.mem_cons_self
            · exact (hnamed sec hsec).imp id (List.mem_cons_of_mem _)
  | encode userID' name encodes removes =>
      obtain ⟨rfl, rfl⟩ := he
      obtain ⟨g₁, hresume, rfl⟩ := Run.map_eq_ok.1 hstep
      obtain ⟨hp, rfl⟩ := resume_eq_ok.1 hresume
      have hsince : createdSince (es ++ [⟨now, .encode userID' name true removes⟩]) = createdSince es := by
        rw [createdSince, List.foldl_append]
        rfl
      refine ⟨hsince ▸ h.files, ?_⟩
      rw [hsince]
      rintro sec hsec
      -- the call that ends returns its name; the others go on
      by_cases hname : filename userID' sec = name
      · exact .inl (hname ▸ List.mem_cons_self)
      · refine (h.named sec hsec).imp (List.mem_cons_of_mem _) (List.mem_erase_of_ne ?_).2
        rintro ⟨⟩
        exact hname rfl

/-- The first step of a run is a delete, and behind it the files are those created since the last one. -/
theorem since_run (huploads : ∀ e ∈ es, IsUpload userID e) (hrun : Run.run step ⟨dir, [], []⟩ es = .ok g) :
    (es = [] ∧ g = ⟨dir, [], []⟩) ∨ Since userID es g := by
  refine Run.run_history (P := fun _ e => IsUpload userID e)
    (J := fun es g => (es = [] ∧ g = ⟨dir, [], []⟩) ∨ Since userID es g) (.inl ⟨rfl, rfl⟩) ?_
    (Run.always_of_forall_mem huploads) hrun
  rintro es g e g' - (⟨rfl, rfl⟩ | h) he hstep
  · obtain ⟨now, call⟩ := e
    cases call with
    | delete userID' removes =>
        obtain ⟨rfl, hremoves⟩ := he
        exact .inr (since_delete hremoves hstep)
    | create | encode => cases hstep
  · exact .inr (h.step he hstep)

/-- **When concurrent uploads leave one avatar.** From any directory with no call under way, whatever the
order of the steps of any number of `Save` calls for one user at any times, the images encodable and the
deleted files removed: when all have finished the user has exactly one file, one whose name was returned,
exactly if a file was created since the last delete and all that were are of one second. -/
theorem oneAvatar_iff (huploads : ∀ e ∈ es, IsUpload userID e) (hrun : Run.run step ⟨dir, [], []⟩ es = .ok g)
    (hdone : g.running = []) :
    OneAvatar userID g ↔ ∃ sec, sec ∈ createdSince es ∧ ∀ sec' ∈ createdSince es, sec' = sec := by
  rcases since_run huploads hrun with ⟨rfl, rfl⟩ | h
  · exact iff_of_false (fun ⟨_, _, hname⟩ => absurd hname List.not_mem_nil)
      fun ⟨_, hsec, _⟩ => absurd hsec List.not_mem_nil
  constructor
  · rintro ⟨name, honly, -⟩
    obtain ⟨hname, hown⟩ := (honly name).2 rfl
    obtain ⟨sec, hsec, rfl⟩ := (h.files name hown).1 hname
    refine ⟨sec, hsec, fun sec' hsec' => ?_⟩
    -- both files are there, and there is one only
    have hsame : filename userID sec' = filename userID sec :=
      (honly _).1 ⟨(h.files _ (owns_filename _ _)).2 ⟨sec', hsec', rfl⟩, owns_filename userID sec'⟩
    exact filename_injective hsame
  · rintro ⟨sec, hsec, hsame⟩
    refine ⟨filename userID sec, fun name' => ⟨?_, ?_⟩, ?_⟩
    · rintro ⟨hname, hown⟩
      obtain ⟨sec', hsec', rfl⟩ := (h.files name' hown).1 hname
      rw [hsame sec' hsec']
    · rintro rfl
      exact ⟨(h.files _ (owns_filename _ _)).2 ⟨sec, hsec, rfl⟩, owns_filename userID sec⟩
    · rcases h.named sec hsec with hreturned | hrunning
      · exact hreturned
      · rw [hdone] at hrunning
        exact absurd hrunning List.not_mem_nil

/-- Two calls in one second. -/
theorem oneAvatar_iff_second :
    OneAvatar 7 ⟨OrdSet.add ∅ (filename 7 0), [], [filename 7 0, filename 7 0]⟩ ↔
      ∃ sec, sec ∈ createdSince
          [⟨0, .delete 7 fun _ => true⟩, ⟨0, .delete 7 fun _ => true⟩, ⟨1, .create 7 true⟩, ⟨2, .create 7 true⟩,
            ⟨3, .encode 7 (filename 7 0) true true⟩, ⟨3, .encode 7 (filename 7 0) true true⟩] ∧
        ∀ sec' ∈ createdSince
          [⟨0, .delete 7 fun _ => true⟩, ⟨0, .delete 7 fun _ => true⟩, ⟨1, .create 7 true⟩, ⟨2, .create 7 true⟩,
            ⟨3, .encode 7 (filename 7 0) true true⟩, ⟨3, .encode 7 (filename 7 0) true true⟩], sec' = sec := by
  have hrun : Run.run step ⟨∅, [], []⟩
      [⟨0, .delete 7 fun _ => true⟩, ⟨0, .delete 7 fun _ => true⟩, ⟨1, .create 7 true⟩, ⟨2, .create 7 true⟩,
        ⟨3, .encode 7 (filename 7 0) true true⟩, ⟨3, .encode 7 (filename 7 0) true true⟩] =
      .ok ⟨OrdSet.add ∅ (filename 7 0), [], [filename 7 0, filename 7 0]⟩ := rfl
  exact oneAvatar_iff (by simp [IsUpload]) hrun rfl

/-- Two calls that both delete before they create, in different seconds: both have finished and two files
are left. -/
theorem two_avatars :
    ∃ g, Run.run step ⟨∅, [], []⟩
        [⟨0, .delete 7 fun _ => true⟩, ⟨0, .delete 7 fun _ => true⟩, ⟨0, .create 7 true⟩,
          ⟨1000000000, .create 7 true⟩, ⟨1000000000, .encode 7 (filename 7 0) true true⟩,
          ⟨1000000000, .encode 7 (filename 7 1) true true⟩] = .ok g ∧ g.running = [] ∧ ¬ OneAvatar 7 g := by
  refine ⟨⟨OrdSet.add (OrdSet.add ∅ (filename 7 0)) (filename 7 1), [],
    [filename 7 1, filename 7 0]⟩, ?_, rfl, ?_⟩
  · rfl
  · rintro ⟨name, honly, -⟩
    have hzero := (honly (filename 7 0)).1 ⟨by simp, owns_filename 7 0⟩
    have hone := (honly (filename 7 1)).1 ⟨by simp, owns_filename 7 1⟩
    exact absurd (filename_injective (hzero.trans hone.symm)) (by decide)

end Uploads

end AimChat.Avatar
