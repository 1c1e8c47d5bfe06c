import AimChat.Store.UserIds

/-! # Profiles in the table and in the records

The nine members that `UpdateUserInfo` writes, as columns of `t_user` and as members of the record. An `UPDATE`
that is carried out leaves in the rows what the literals of the texts stand for (`asStored`), and the record
gets the texts themselves; the later of two updates is all that is left of them. -/

namespace AimChat

open Sql

namespace UserManager

/-! ## In the table -/

/-- The columns of a profile. -/
def profileColumns (u : User) : List (String × Value) :=
  [("f_nickname", .text u.nickname), ("f_facetype", .int u.facetype), ("f_customface", .text u.customface),
    ("f_gender", .int u.gender), ("f_birthday", .int u.birthday), ("f_signature", .text u.signature),
    ("f_address", .text u.address), ("f_phonenumber", .text u.phonenumber), ("f_mail", .text u.mail)]

/-- The texts of a profile. -/
def profileTexts (u : User) : List Bytes :=
  [u.nickname, u.customface, u.signature, u.address, u.phonenumber, u.mail]

/-- The record with the texts that MySQL reads in the literals of its profile, when they all are whole. -/
def asStored (u : User) : Option User := do
  let nickname ← unquote (escapeSqlString u.nickname)
  let customface ← unquote (escapeSqlString u.customface)
  let signature ← unquote (escapeSqlString u.signature)
  let address ← unquote (escapeSqlString u.address)
  let phonenumber ← unquote (escapeSqlString u.phonenumber)
  let mail ← unquote (escapeSqlString u.mail)
  return { u with nickname, customface, signature, address, phonenumber, mail }

/-- The row has this profile. -/
def RowShows (r : Row) (u : User) : Prop := ∀ cv ∈ profileColumns u, r cv.1 = cv.2

/-- `t_user` with this profile in the rows of an id. -/
def withProfile (userid : Int) (u : User) (db : Db) : Db :=
  match db.tables "t_user" with
  | none => db
  | some t => db.set "t_user" { t with rows := t.rows.map (changed (profileColumns u) userid) }

variable {u v : User} {r : Row}

/-- The values of the statement are the columns of what it stores. -/
theorem evalAll_profile (now : Int) (u : User) :
    evalAll now [("f_nickname", quoted u.nickname), ("f_facetype", .int u.facetype),
      ("f_customface", quoted u.customface), ("f_gender", .int u.gender), ("f_birthday", .int u.birthday),
      ("f_signature", quoted u.signature), ("f_address", quoted u.address),
      ("f_phonenumber", quoted u.phonenumber), ("f_mail", quoted u.mail)] =
      (asStored u).map profileColumns := by
  simp only [asStored, evalAll, List.mapM_cons, List.mapM_nil, quoted, Literal.eval, Option.map_some,
    Option.bind_eq_bind, Option.bind_some, Option.pure_def]
  cases unquote (escapeSqlString u.nickname) with
  | none => rfl
  | some nickname =>
    cases unquote (escapeSqlString u.customface) with
    | none => rfl
    | some customface =>
      cases unquote (escapeSqlString u.signature) with
      | none => rfl
      | some signature =>
        cases unquote (escapeSqlString u.address) with
        | none => rfl
        | some address =>
          cases unquote (escapeSqlString u.phonenumber) with
          | none => rfl
          | some phonenumber => cases unquote (escapeSqlString u.mail) <;> rfl

/-- What is stored of the texts. -/
theorem texts_of_asStored (h : asStored u = some v) :
    List.Forall₂ (fun s s' => unquote (escapeSqlString s) = some s') (profileTexts u) (profileTexts v) := by
  simp only [asStored, Option.bind_eq_bind, Option.bind_eq_some_iff, Option.pure_def, Option.some.injEq] at h
  obtain ⟨nickname, hnickname, customface, hcustomface, signature, hsignature, address, haddress, phonenumber,
    hphonenumber, mail, hmail, rfl⟩ := h
  exact .cons hnickname (.cons hcustomface (.cons hsignature (.cons haddress (.cons hphonenumber
    (.cons hmail .nil)))))

theorem customface_of_asStored (h : asStored u = some v) :
    unquote (escapeSqlString u.customface) = some v.customface :=
  (List.forall₂_cons.1 (List.forall₂_cons.1 (texts_of_asStored h)).2).1

/-- A profile is stored as it is when each of its texts is. -/
theorem asStored_eq_self_iff : asStored u = some u ↔ ∀ s ∈ profileTexts u, StoredAsIs s := by
  constructor
  · intro h s hs
    exact List.forall₂_same.1 (texts_of_asStored h) s hs
  · intro h
    simp only [profileTexts, StoredAsIs, List.mem_cons, List.not_mem_nil, or_false, forall_eq_or_imp,
      forall_eq] at h
    obtain ⟨hnickname, hcustomface, hsignature, haddress, hphonenumber, hmail⟩ := h
    simp only [asStored, hnickname, hcustomface, hsignature, haddress, hphonenumber, hmail, Option.bind_eq_bind,
      Option.bind_some, Option.pure_def]

/-- So it is when what was stored shows the same profile. -/
theorem asStored_eq_self_of_columns (h : asStored u = some v) (hcolumns : profileColumns v = profileColumns u) :
    asStored u = some u := by
  have htexts : profileTexts v = profileTexts u := by
    simp only [profileColumns, List.cons.injEq, Prod.mk.injEq, true_and, and_true, Value.text.injEq] at hcolumns
    obtain ⟨hnickname, -, hcustomface, -, -, hsignature, haddress, hphonenumber, hmail⟩ := hcolumns
    simp only [profileTexts, hnickname, hcustomface, hsignature, haddress, hphonenumber, hmail]
  refine asStored_eq_self_iff.2 fun s hs => ?_
  have hsame := texts_of_asStored h
  rw [htexts] at hsame
  exact List.forall₂_same.1 hsame s hs

/-! ### Rows -/

theorem map_fst_profileColumns (u v : User) :
    (profileColumns u).map Prod.fst = (profileColumns v).map Prod.fst := rfl

/-- A row with the columns of a profile has the profile. -/
theorem rowShows_setAll (u : User) (r : Row) : RowShows (setAll (profileColumns u) r) u := by
  simp only [RowShows, profileColumns, List.mem_cons, List.not_mem_nil, or_false, forall_eq_or_imp, forall_eq]
  exact ⟨rfl, rfl, rfl, rfl, rfl, rfl, rfl, rfl, rfl⟩

/-- A row has one profile. -/
theorem RowShows.columns_eq (hu : RowShows r u) (hv : RowShows r v) : profileColumns u = profileColumns v := by
  simp only [RowShows, profileColumns, List.mem_cons, List.not_mem_nil, or_false, forall_eq_or_imp,
    forall_eq] at hu hv
  obtain ⟨hnickname, hfacetype, hcustomface, hgender, hbirthday, hsignature, haddress, hphonenumber, hmail⟩ := hu
  rw [hnickname, hfacetype, hcustomface, hgender, hbirthday, hsignature, haddress, hphonenumber, hmail] at hv
  simp only [profileColumns, hv]

/-- The profile that was written last is all that is left. -/
theorem changed_changed (userid : Int) (u v : User) (r : Row) :
    changed (profileColumns v) userid (changed (profileColumns u) userid r) =
      changed (profileColumns v) userid r := by
  by_cases hc : (Cond.eq "f_user_id" userid).holds r = true
  · have hchanged : changed (profileColumns u) userid r = setAll (profileColumns u) r := if_pos hc
    -- the id is no column of a profile
    have hc' : (Cond.eq "f_user_id" userid).holds (setAll (profileColumns u) r) = true := hc
    rw [hchanged]
    exact (if_pos hc').trans ((setAll_setAll (map_fst_profileColumns u v) r).trans (if_pos hc).symm)
  · rw [show changed (profileColumns u) userid r = r from if_neg hc]

theorem withProfile_withProfile (userid : Int) (u v : User) (db : Db) :
    withProfile userid v (withProfile userid u db) = withProfile userid v db := by
  cases ht : db.tables "t_user" with
  | none => simp only [withProfile, ht]
  | some t =>
      simp only [withProfile, ht, Db.tables_set, if_true, Db.set_set, List.map_map]
      refine congrArg (fun rows => db.set "t_user" { t with rows := rows }) ?_
      exact List.map_congr_left fun r _ => changed_changed userid u v r

/-- The rows of `t_user` afterwards. -/
theorem rows_withProfile (userid : Int) (u : User) (db : Db) :
    (withProfile userid u db).rows "t_user" = (db.rows "t_user").map (changed (profileColumns u) userid) := by
  cases ht : db.tables "t_user" with
  | none => simp only [withProfile, ht, Db.rows, Option.map_none, Option.getD_none, List.map_nil]
  | some t => simp only [withProfile, ht, Db.rows_set, if_true, Db.rows_of_table ht]

/-- The other tables. -/
theorem tables_withProfile (userid : Int) (u : User) (db : Db) {name : String} (hname : name ≠ "t_user") :
    (withProfile userid u db).tables name = db.tables name := by
  cases ht : db.tables "t_user" with
  | none => simp only [withProfile, ht]
  | some t => simp only [withProfile, ht, Db.tables_set, if_neg hname]

theorem userIds_withProfile (userid : Int) (u : User) (db : Db) : userIds (withProfile userid u db) = userIds db := by
  rw [userIds, rows_withProfile, List.map_map]
  exact List.map_congr_left fun r _ => changed_id rfl userid r

/-- An id that has a row has one with the profile. -/
theorem exists_rowShows {userid : Int} {db : Db} (h : .int userid ∈ userIds db) (u : User) :
    ∃ r ∈ (withProfile userid u db).rows "t_user", r "f_user_id" = .int userid ∧ RowShows r u := by
  obtain ⟨r, hr, hid⟩ := List.mem_map.1 h
  have hholds : (Cond.eq "f_user_id" userid).holds r = true := decide_eq_true hid
  refine ⟨changed (profileColumns u) userid r, ?_, ?_, ?_⟩
  · rw [rows_withProfile]
    exact List.mem_map_of_mem hr
  · rw [changed_id rfl, hid]
  · rw [show changed (profileColumns u) userid r = setAll (profileColumns u) r from if_pos hholds]
    exact rowShows_setAll u r

/-- And no row of it has another. -/
theorem rowShows_withProfile {userid : Int} {db : Db} {u : User} {r : Row}
    (hr : r ∈ (withProfile userid u db).rows "t_user") (hid : r "f_user_id" = .int userid) : RowShows r u := by
  rw [rows_withProfile] at hr
  obtain ⟨r, -, rfl⟩ := List.mem_map.1 hr
  rw [changed_id rfl] at hid
  have hholds : (Cond.eq "f_user_id" userid).holds r = true := decide_eq_true hid
  rw [show changed (profileColumns u) userid r = setAll (profileColumns u) r from if_pos hholds]
  exact rowShows_setAll u r

/-- **The statement.** When it is carried out, the rows of the id have the profile as it is stored. -/
theorem db_updateUserInfo {env : SqlEnv} {userid : Int} {m m' : MySql}
    (h : MySql.execute env (updateUserInfoStmt userid u) m = (true, m')) :
    ∃ v, asStored u = some v ∧ m'.db = withProfile userid v m.db := by
  obtain ⟨t, named, ht, hnamed, hdb⟩ := Db.exec_update (MySql.db_exec_of_execute h)
  rw [evalAll_profile] at hnamed
  obtain ⟨v, hv, rfl⟩ := Option.map_eq_some_iff.1 hnamed
  refine ⟨v, hv, ?_⟩
  rw [hdb, withProfile, ht]
  rfl

/-! ## In the records -/

/-- Two profiles copied into a record are one that makes the same of it. -/
theorem modify_copyProfile {um : UserManager} {p : UserPtr} {i j k : User}
    (h : copyProfile j (copyProfile i (um.heap p)) = copyProfile k (um.heap p)) :
    (um.modify p (copyProfile i) fun _ => rfl).modify p (copyProfile j) (fun _ => rfl) =
      um.modify p (copyProfile k) fun _ => rfl := by
  have hheap : (fun q => if q = p then copyProfile j (if q = p then copyProfile i (um.heap q) else um.heap q)
      else if q = p then copyProfile i (um.heap q) else um.heap q) =
      fun q => if q = p then copyProfile k (um.heap q) else um.heap q := by
    funext q
    by_cases hq : q = p
    · rw [if_pos hq, if_pos hq, if_pos hq, hq, h]
    · rw [if_neg hq, if_neg hq, if_neg hq]
  simp only [modify, hheap]

/-- `UpdateUserInfo` of an id that the map has a record under, when its statement is carried out. -/
theorem updateUserInfo_eq {env : SqlEnv} {userid : Int} {st : Store} {p : UserPtr} {sql : MySql}
    (hmap : st.users.mapUsers.get? userid = some p)
    (h : MySql.execute env (updateUserInfoStmt userid u) st.sql = (true, sql)) :
    updateUserInfo env userid u st = (true, ⟨sql, st.users.modify p (copyProfile u) fun _ => rfl⟩) := by
  simp only [updateUserInfo, updateUserInfoBy, h, modifyById, hmap]

end UserManager

end AimChat
