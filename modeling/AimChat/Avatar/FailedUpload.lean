import AimChat.Avatar.FileStore
import AimChat.Avatar.Resize

/-! # What a failed upload costs

`Save` removes the user's files before it resizes the image, creates the new file and writes it. A call that is
refused before that leaves the directory alone; one that fails later has removed what could be removed
(`keepsFiles_iff`). The resizer brings such failures about: of a long thin image it leaves no pixel, and
`png.Encode` writes no empty image (`save_thin`). -/

namespace AimChat.Avatar

namespace FileStore

variable {st : FileStore} {userID now : Int} {data : Bytes} {out : Outcome} {removes : Bytes → Bool}
  {dir : Dir} {name : Bytes}

/-! ## The directory after a failure -/

/-- `Delete` changes nothing when none of the user's files can be removed. -/
theorem delete_eq_self_iff :
    delete userID removes dir = dir ↔ ∀ name ∈ dir, Owns userID name → removes name = false := by
  constructor
  · intro h name hname hown
    rw [← h, mem_delete] at hname
    exact Bool.eq_false_iff.2 fun hremoves => hname.2 ⟨hown, hremoves⟩
  · intro h
    refine OrdSet.ext fun name => ?_
    rw [mem_delete]
    refine and_iff_left_of_imp fun hname => ?_
    rintro ⟨hown, hremoves⟩
    rw [h name hname hown] at hremoves
    cases hremoves

/-- A new file that is removed again leaves what `Delete` left. -/
theorem remove_add_delete (hown : Owns userID name) (hremoves : removes name = true) :
    OrdSet.remove (OrdSet.add (delete userID removes dir) name) name = delete userID removes dir := by
  refine OrdSet.ext fun name' => ?_
  rw [OrdSet.mem_remove, OrdSet.mem_add]
  constructor
  · rintro ⟨hne, rfl | hname'⟩
    · exact absurd rfl hne
    · exact hname'
  · intro hname'
    refine ⟨?_, .inr hname'⟩
    rintro rfl
    exact (mem_delete.1 hname').2 ⟨hown, hremoves⟩

/-- A new file that stays changes nothing when it was there and nothing was removed. -/
theorem add_delete_eq_self_iff (hremoves : removes name = false) :
    OrdSet.add (delete userID removes dir) name = dir ↔ delete userID removes dir = dir ∧ name ∈ dir := by
  constructor
  · intro h
    have hname : name ∈ dir := h ▸ OrdSet.mem_add.2 (.inl rfl)
    -- it could not be removed, so it was there all the time
    have hkept : name ∈ delete userID removes dir :=
      mem_delete.2 ⟨hname, fun hgone => by rw [hremoves] at hgone; cases hgone.2⟩
    refine ⟨?_, hname⟩
    refine OrdSet.ext fun name' => ⟨fun hname' => (mem_delete.1 hname').1, fun hname' => ?_⟩
    rw [← h, OrdSet.mem_add] at hname'
    rcases hname' with rfl | hname'
    · exact hkept
    · exact hname'
  · rintro ⟨h, hname⟩
    rw [h]
    refine OrdSet.ext fun name' => ?_
    rw [OrdSet.mem_add]
    refine or_iff_right_of_imp ?_
    rintro rfl
    exact hname

/-! ## The exits behind the deletion -/

section Exits

variable (userID now dir) (hsize : ¬ (data.length : Int) > st.maxSize) (hdecodes : out.decodes = true)
include hsize hdecodes

theorem save_of_not_creates (hcreates : out.creates = false) :
    st.save userID data now out dir = (.error .create, delete userID out.removes dir) := by
  rw [save, if_neg hsize, hdecodes, hcreates]
  rfl

variable (hcreates : out.creates = true)
include hcreates

theorem save_of_not_encodes (hencodes : out.encodes = false) :
    st.save userID data now out dir =
      (.error .encode,
        if out.removes (filename userID (unix now)) then
          OrdSet.remove (OrdSet.add (delete userID out.removes dir) (filename userID (unix now)))
            (filename userID (unix now))
        else OrdSet.add (delete userID out.removes dir) (filename userID (unix now))) := by
  rw [save, if_neg hsize, hdecodes, hcreates, hencodes]
  rfl

theorem save_of_encodes (hencodes : out.encodes = true) :
    st.save userID data now out dir =
      (.ok (filename userID (unix now)),
        OrdSet.add (delete userID out.removes dir) (filename userID (unix now))) := by
  rw [save, if_neg hsize, hdecodes, hcreates, hencodes]
  rfl

end Exits

/-! ## When nothing is lost -/

/-- A call that answers with an error leaves the files, and with them the name each user has. -/
def KeepsFiles (st : FileStore) (userID : Int) (data : Bytes) (now : Int) (out : Outcome) (dir : Dir) : Prop :=
  ∀ err, (st.save userID data now out dir).1 = .error err →
    (st.save userID data now out dir).2 = dir ∧
      ∀ userID', getFilename userID' (st.save userID data now out dir).2 = getFilename userID' dir

/-- The file a call that gets that far makes is no trace of it when it fails: it can be removed, or it was there
before. -/
def LeavesNoFile (userID now : Int) (out : Outcome) (dir : Dir) : Prop :=
  out.creates = true → out.removes (filename userID (unix now)) = true ∨ filename userID (unix now) ∈ dir

/-- The user has no file that can be removed. -/
def NothingToLose (userID : Int) (out : Outcome) (dir : Dir) : Prop :=
  ∀ name ∈ dir, Owns userID name → out.removes name = false

/-- Of an error it is enough to know the directory. -/
theorem keepsFiles_of_error {err : SaveError} (herr : (st.save userID data now out dir).1 = .error err) :
    KeepsFiles st userID data now out dir ↔ (st.save userID data now out dir).2 = dir :=
  ⟨fun h => (h err herr).1, fun h _ _ => ⟨h, fun _ => by rw [h]⟩⟩

/-- **A failed upload keeps the files if and only if it is refused before the old ones are removed, or there was
nothing of the user's to remove and no new file stays.** -/
theorem keepsFiles_iff (st : FileStore) (userID : Int) (data : Bytes) (now : Int) (out : Outcome) (dir : Dir) :
    KeepsFiles st userID data now out dir ↔
      (data.length : Int) > st.maxSize ∨ out.decodes = false ∨ (out.creates = true ∧ out.encodes = true) ∨
        (NothingToLose userID out dir ∧ LeavesNoFile userID now out dir) := by
  by_cases hsize : (data.length : Int) > st.maxSize
  · have hsave : st.save userID data now out dir = (.error (.tooLarge (st.maxSize.tdiv 1048576)), dir) :=
      if_pos hsize
    rw [keepsFiles_of_error (congrArg Prod.fst hsave), hsave]
    exact iff_of_true rfl (.inl hsize)
  rw [or_iff_right hsize]
  cases hdecodes : out.decodes with
  | false =>
      have hsave : st.save userID data now out dir = (.error .decode, dir) := by
        rw [save, if_neg hsize, hdecodes]
        rfl
      rw [keepsFiles_of_error (congrArg Prod.fst hsave), hsave]
      exact iff_of_true rfl (.inl rfl)
  | true =>
      rw [or_iff_right Bool.false_ne_true.symm]
      cases hcreates : out.creates with
      | false =>
          have hsave := save_of_not_creates userID now dir hsize hdecodes hcreates
          rw [keepsFiles_of_error (congrArg Prod.fst hsave), hsave, delete_eq_self_iff]
          simp [NothingToLose, LeavesNoFile, hcreates]
      | true =>
          cases hencodes : out.encodes with
          | true =>
              refine iff_of_true (fun err herr => ?_) (.inl ⟨rfl, rfl⟩)
              rw [save_of_encodes userID now dir hsize hdecodes hcreates hencodes] at herr
              cases herr
          | false =>
              have hsave := save_of_not_encodes userID now dir hsize hdecodes hcreates hencodes
              rw [keepsFiles_of_error (congrArg Prod.fst hsave), hsave, or_iff_right (by simp), NothingToLose,
                LeavesNoFile, ← delete_eq_self_iff]
              dsimp only
              cases hremoves : out.removes (filename userID (unix now)) with
              | true => simp [remove_add_delete (owns_filename userID (unix now)) hremoves]
              | false => simp [add_delete_eq_self_iff hremoves, hcreates]

/-- A user whose avatar is called `7_1.png` uploads an image that cannot be encoded, and has none afterwards. -/
theorem not_keepsFiles_encode :
    ¬ KeepsFiles ⟨2⟩ 7 [0] 5000000000 ⟨true, true, false, fun _ => true⟩ (OrdSet.add ∅ (filename 7 1)) := by
  intro h
  have hgone := (h .encode (by decide +kernel)).2 7
  revert hgone
  decide +kernel

/-! ## The resizer's part -/

/-- **A thin image costs the avatar**: nothing is left of its short side, the empty image is not encoded, and the
user's files that could be removed are gone. -/
theorem save_thin {P : Type} (draw : Image P → Size → Int → Int → P) {src : Image P} {maxW maxH : Int}
    (hsize : ¬ (data.length : Int) > st.maxSize) (hdecodes : out.decodes = true)
    (hpng : out.encodes = true →
      1 ≤ (resizeToFit draw src maxW maxH).size.w ∧ 1 ≤ (resizeToFit draw src maxW maxH).size.h)
    (hw : 1 ≤ src.size.w) (hh : 1 ≤ src.size.h) (hmaxW : 1 ≤ maxW) (hmaxH : 1 ≤ maxH)
    (hthin : src.size.h * maxW < src.size.w ∨ src.size.w * maxH < src.size.h) :
    (∃ err, (st.save userID data now out dir).1 = .error err) ∧
      ∀ name, Owns userID name → out.removes name = true → name ∉ (st.save userID data now out dir).2 := by
  have hencodes : out.encodes = false := by
    refine Bool.eq_false_iff.2 fun hencodes => ?_
    obtain ⟨hwide, htall⟩ := (one_le_resizeToFit_iff draw hw hh hmaxW hmaxH).1 (hpng hencodes)
    omega
  cases hcreates : out.creates with
  | false =>
      rw [save_of_not_creates userID now dir hsize hdecodes hcreates]
      exact ⟨⟨_, rfl⟩, fun name hown hremoves hname => (mem_delete.1 hname).2 ⟨hown, hremoves⟩⟩
  | true =>
      rw [save_of_not_encodes userID now dir hsize hdecodes hcreates hencodes]
      refine ⟨⟨_, rfl⟩, fun name hown hremoves hname => ?_⟩
      dsimp only at hname
      split_ifs at hname with hnew
      · rw [remove_add_delete (owns_filename userID (unix now)) hnew] at hname
        exact (mem_delete.1 hname).2 ⟨hown, hremoves⟩
      · rw [OrdSet.mem_add] at hname
        rcases hname with rfl | hname
        · exact hnew hremoves
        · exact (mem_delete.1 hname).2 ⟨hown, hremoves⟩

end FileStore

end AimChat.Avatar
