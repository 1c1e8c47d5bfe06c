import AimChat.Base.Go
import AimChat.Lib.OrdMap
import Mathlib.Data.List.Lex

/-! # The avatar store

`FileStore` of GoImageServer over the names in its directory, which `os.ReadDir` lists in the order of their
bytes. What a call finds out about its image and what the file system lets it do are outcomes the call is
given. A file belongs to the user whose id stands before the first underscore of its name. -/

namespace AimChat.Avatar

open Go

/-- The order of bytes. -/
scoped instance byteOrder : LinearOrder UInt8 where
  le_refl := UInt8.le_refl
  le_trans _ _ _ := UInt8.le_trans
  le_antisymm _ _ := UInt8.le_antisymm
  le_total := UInt8.le_total
  lt_iff_le_not_ge a b := by
    rw [UInt8.lt_iff_toNat_lt, UInt8.le_iff_toNat_le, UInt8.le_iff_toNat_le]
    omega
  toDecidableLE := inferInstance
  toDecidableEq := inferInstance
  toDecidableLT := inferInstance

/-- The names of the files in the directory. -/
abbrev Dir := OrdSet Bytes

/-- `FileStore`: `maxSizeMB`, from which the size a file may have is computed. -/
structure FileStore where
  maxSizeMB : Int

/-- `maxSize` -/
def FileStore.maxSize (st : FileStore) : Int := wrap64 (wrap64 (st.maxSizeMB * 1024) * 1024)

/-- What a call of `Save` meets with. -/
structure Outcome where
  /-- `image.Decode` reads the image. -/
  decodes : Bool
  /-- `os.Create` makes the file. -/
  creates : Bool
  /-- `png.Encode` writes the image. -/
  encodes : Bool
  /-- `os.Remove` removes the file of that name. -/
  removes : Bytes → Bool

/-- The errors of `Save`. -/
inductive SaveError
  /-- 文件过大，最大 %dMB -/
  | tooLarge (mb : Int)
  /-- 图片解码失败 -/
  | decode
  /-- 创建文件失败 -/
  | create
  /-- 编码PNG失败 -/
  | encode
  deriving DecidableEq, Repr

/-- `t.Unix()` -/
def unix (now : Int) : Int := now / 1000000000

/-- The prefix of a user's files. -/
def ownPrefix (userID : Int) : Bytes := printInt userID ++ str "_"

/-- `strings.HasPrefix(e.Name(), prefix)` -/
def Owns (userID : Int) (name : Bytes) : Prop := ownPrefix userID <+: name

instance (userID : Int) (name : Bytes) : Decidable (Owns userID name) :=
  inferInstanceAs (Decidable (_ <+: _))

/-- `fmt.Sprintf("%d_%d.png", userID, time.Now().Unix())` -/
def filename (userID sec : Int) : Bytes := printInt userID ++ str "_" ++ printInt sec ++ str ".png"

namespace FileStore

/-- `Delete(userID)` -/
def delete (userID : Int) (removes : Bytes → Bool) (dir : Dir) : Dir :=
  (OrdMap.keys dir).foldl (fun dir name =>
    if Owns userID name then if removes name then OrdSet.remove dir name else dir else dir) dir

/-- `Save(userID, data, format)` -/
def save (st : FileStore) (userID : Int) (data : Bytes) (now : Int) (out : Outcome) (dir : Dir) :
    Except SaveError Bytes × Dir :=
  if (data.length : Int) > st.maxSize then (.error (.tooLarge (st.maxSize.tdiv 1048576)), dir)
  else if !out.decodes then (.error .decode, dir)
  else
    -- the old file goes before it is known whether the new one can be made
    let dir := delete userID out.removes dir
    let name := filename userID (unix now)
    if !out.creates then (.error .create, dir)
    else
      let dir := OrdSet.add dir name
      if !out.encodes then (.error .encode, if out.removes name then OrdSet.remove dir name else dir)
      else (.ok name, dir)

/-- `GetFilename(userID)` -/
def getFilename (userID : Int) (dir : Dir) : Bytes :=
  ((OrdMap.keys dir).find? fun name => Owns userID name).getD []

end FileStore

/-! ## Whose a file is -/

/-- A file belongs to its user. -/
theorem owns_filename (userID sec : Int) : Owns userID (filename userID sec) :=
  ⟨printInt sec ++ str ".png", by rw [ownPrefix, filename, ← List.append_assoc]⟩

/-- What stands before the first underscore of a user's file is the user's id. -/
theorem takeWhile_of_owns {userID : Int} {name : Bytes} (h : Owns userID name) :
    name.takeWhile (· ≠ 95) = printInt userID := by
  obtain ⟨rest, rfl⟩ := h
  -- an id is written without an underscore
  have hid : ∀ b ∈ printInt userID, decide (b ≠ 95) = true := fun b hb => by
    rcases mem_printInt hb with rfl | ⟨-, hle⟩
    · decide
    · refine decide_eq_true fun h95 => ?_
      rw [h95] at hle
      exact absurd hle (by decide)
  have hunderscore : ownPrefix userID ++ rest = printInt userID ++ 95 :: rest := by
    rw [ownPrefix, List.append_assoc]
    rfl
  rw [hunderscore, List.takeWhile_append_of_pos hid]
  exact List.append_nil _

/-- **A file belongs to one user**, whatever the ids. -/
theorem owner_unique {userID userID' : Int} {name : Bytes} (h : Owns userID name) (h' : Owns userID' name) :
    userID = userID' :=
  printInt_injective ((takeWhile_of_owns h).symm.trans (takeWhile_of_owns h'))

/-- A user's files of different seconds have different names. -/
theorem filename_injective {userID sec sec' : Int} (h : filename userID sec = filename userID sec') :
    sec = sec' :=
  printInt_injective (List.append_cancel_left (List.append_cancel_right h))

/-! ## What the calls leave in the directory -/

namespace FileStore

variable {userID : Int} {removes : Bytes → Bool} {dir : Dir} {name : Bytes}

/-- One turn of the loop of `Delete`. -/
theorem mem_turn (name' : Bytes) :
    (name ∈ if Owns userID name' then if removes name' then OrdSet.remove dir name' else dir else dir) ↔
      name ∈ dir ∧ ¬ (name = name' ∧ Owns userID name' ∧ removes name' = true) := by
  split_ifs with hown hremoves
  · rw [OrdSet.mem_remove]
    simp only [hown, hremoves, and_true]
    exact and_comm
  · simp [hremoves]
  · simp [hown]

/-- `Delete` removes the user's files, as far as they can be removed. -/
theorem mem_delete :
    name ∈ delete userID removes dir ↔ name ∈ dir ∧ ¬ (Owns userID name ∧ removes name = true) := by
  -- the names are read once, before the first of them is removed
  have hfold : ∀ (names : List Bytes) (dir : Dir),
      name ∈ names.foldl (fun dir name =>
        if Owns userID name then if removes name then OrdSet.remove dir name else dir else dir) dir ↔
      name ∈ dir ∧ ¬ (name ∈ names ∧ Owns userID name ∧ removes name = true) := by
    intro names
    induction names with
    | nil => simp
    | cons name' names ih =>
        intro dir
        rw [List.foldl_cons, ih, mem_turn, List.mem_cons]
        constructor
        · rintro ⟨⟨hname, hturn⟩, hlater⟩
          refine ⟨hname, ?_⟩
          rintro ⟨rfl | hmem, hgone⟩
          · exact hturn ⟨rfl, hgone⟩
          · exact hlater ⟨hmem, hgone⟩
        · rintro ⟨hname, hkept⟩
          refine ⟨⟨hname, ?_⟩, fun h => hkept ⟨.inr h.1, h.2⟩⟩
          rintro ⟨rfl, hgone⟩
          exact hkept ⟨.inl rfl, hgone⟩
  rw [delete, hfold, OrdSet.mem_keys]
  tauto

/-- It leaves the other users their files. -/
theorem mem_delete_of_ne {userID' : Int} (hne : userID' ≠ userID) (hown : Owns userID' name) :
    name ∈ delete userID removes dir ↔ name ∈ dir := by
  rw [mem_delete]
  exact and_iff_left fun h => hne (owner_unique hown h.1)

/-- When removing succeeds the user has no file left. -/
theorem not_mem_delete (hremoves : ∀ name, removes name = true) (hown : Owns userID name) :
    name ∉ delete userID removes dir := by
  rw [mem_delete]
  exact fun h => h.2 ⟨hown, hremoves name⟩

/-- `GetFilename` finds the name of a user who has one file. -/
theorem getFilename_of_unique (hname : name ∈ dir) (hown : Owns userID name)
    (hunique : ∀ name' ∈ dir, Owns userID name' → name' = name) : getFilename userID dir = name := by
  unfold getFilename
  cases hfind : (OrdMap.keys dir).find? fun name => Owns userID name with
  | none => exact absurd hown (by simpa using List.find?_eq_none.1 hfind name (OrdSet.mem_keys.2 hname))
  | some name' =>
      have hown' : Owns userID name' := by simpa using List.find?_some hfind
      exact hunique name' (OrdSet.mem_keys.1 (List.mem_of_find?_eq_some hfind)) hown'

/-- `GetFilename` looks at the user's files only. -/
theorem getFilename_congr {dir' : Dir} (h : ∀ name, Owns userID name → (name ∈ dir' ↔ name ∈ dir)) :
    getFilename userID dir' = getFilename userID dir := by
  have hfiles := OrdSet.filter_keys_congr (p := fun name => decide (Owns userID name)) fun name hown =>
    h name (of_decide_eq_true hown)
  rw [getFilename, getFilename, ← List.head?_filter, ← List.head?_filter, hfiles]

/-- Without a file there is no name. -/
theorem getFilename_of_none (hnone : ∀ name ∈ dir, ¬ Owns userID name) : getFilename userID dir = [] := by
  have hfind : ((OrdMap.keys dir).find? fun name => Owns userID name) = none :=
    List.find?_eq_none.2 fun name hname => by simpa using hnone name (OrdSet.mem_keys.1 hname)
  rw [getFilename, hfind, Option.getD_none]

end FileStore

end AimChat.Avatar
