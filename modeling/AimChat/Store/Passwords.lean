import AimChat.Store.UserIds

/-! # Passwords of groups

A group is a row of `t_user` and a record like a user's, with the empty password: `AddGroup` stores no
other. `NoPassword` says that of an id, in the table and on the heap. The operations keep it, a restart
keeps it, and a password that is empty cannot be changed, because `ModifyUserPassword` is called with the
`userid` of a record whose password is not. -/

namespace AimChat

open Sql

namespace UserManager

variable {env : SqlEnv} {db db' : Db} {um um' um'' : UserManager} {st st' : Store}

/-! ## In the table -/

/-- The key and the password of every row of `t_user`. -/
def passwords (db : Db) : List (Value × Value) :=
  (db.rows "t_user").map fun r => (r "f_user_id", r "f_password")

theorem map_fst_passwords (db : Db) : (passwords db).map Prod.fst = userIds db := by
  rw [passwords, List.map_map]
  rfl

/-- The passwords of a table that is there. -/
theorem passwords_of_table {t : Table} (ht : db.tables "t_user" = some t) :
    passwords db = t.rows.map fun r => (r "f_user_id", r "f_password") := by
  rw [passwords, Db.rows, ht]
  rfl

/-- An `INSERT` into `t_user` adds its own key and password. -/
theorem passwords_insert {now n : Int} {values : List (String × Literal)} {l : Literal}
    (hexec : db.exec now (.insert "t_user" values) = some db')
    (hid : values.lookup "f_user_id" = some (.int n)) (hpassword : values.lookup "f_password" = some l) :
    ∃ v, passwords db' = passwords db ++ [(.int n, v)] ∧ ∀ v', l.eval now = some v' → v = v' := by
  obtain ⟨t, named, ht, hnamed, -, -, rfl⟩ := Db.exec_insert hexec
  have hnew : t.newRow now named "f_user_id" = .int n := t.newRow_eq hnamed hid rfl
  refine ⟨t.newRow now named "f_password", ?_, fun v' hv' => ?_⟩
  · rw [passwords_of_table ht, passwords, Db.rows_set, if_pos rfl, List.map_append, List.map_singleton, hnew]
  · exact t.newRow_eq hnamed hpassword hv'

/-- An `UPDATE` of the row under an id changes no other row's password, and none when it does not name
the password. -/
theorem passwords_update {now userid : Int} {values : List (String × Literal)}
    (hexec : db.exec now (.update "t_user" values (.eq "f_user_id" userid)) = some db')
    (hid : values.lookup "f_user_id" = none) :
    (values.lookup "f_password" = none → passwords db' = passwords db) ∧
      ∀ g, g ≠ userid → ∀ v, (.int g, v) ∈ passwords db' ↔ (.int g, v) ∈ passwords db := by
  obtain ⟨t, named, ht, hnamed, rfl⟩ := Db.exec_update hexec
  have hid' : named.lookup "f_user_id" = none := lookup_eq_none hnamed hid
  have hrows : passwords (db.set "t_user" { t with rows := t.rows.map (changed named userid) }) =
      t.rows.map fun r => (r "f_user_id", changed named userid r "f_password") := by
    rw [passwords, Db.rows_set, if_pos rfl, List.map_map]
    refine List.map_congr_left fun r _ => ?_
    show (changed named userid r "f_user_id", _) = _
    rw [changed_id hid']
  constructor
  · intro hpassword
    have hnone : named.lookup "f_password" = none := lookup_eq_none hnamed hpassword
    refine hrows.trans ?_
    rw [passwords_of_table ht]
    refine List.map_congr_left fun r _ => ?_
    unfold changed
    split_ifs
    · rw [setAll, hnone]
      rfl
    · rfl
  · intro g hg v
    have hother : ∀ r : Row, r "f_user_id" = .int g → changed named userid r = r := by
      intro r hr
      refine if_neg fun hholds => hg ?_
      rw [Cond.holds, hr, decide_eq_true_eq, Value.int.injEq] at hholds
      exact hholds
    have hmem : ∀ r ∈ t.rows, (r "f_user_id", changed named userid r "f_password") = (.int g, v) ↔
        (r "f_user_id", r "f_password") = (.int g, v) := by
      intro r _
      simp only [Prod.mk.injEq]
      exact and_congr_right fun hr => by rw [hother r hr]
    show (.int g, v) ∈ passwords (db.set "t_user" { t with rows := t.rows.map (changed named userid) }) ↔ _
    rw [hrows, passwords_of_table ht, List.mem_map, List.mem_map]
    exact exists_congr fun r => and_congr_right fun hr => hmem r hr

/-- A statement that leaves the keys and the passwords of `t_user`. -/
def KeepsPasswords (stmt : Stmt) : Prop :=
  "t_user" ≠ stmt.table ∨ ∃ values userid, stmt = .update "t_user" values (.eq "f_user_id" userid) ∧
    values.lookup "f_user_id" = none ∧ values.lookup "f_password" = none

theorem IdTable.keepsPasswords {now : Int} {stmt : Stmt} (h : IdTable db) (hexec : db.exec now stmt = some db')
    (hkeeps : KeepsPasswords stmt) : IdTable db' ∧ passwords db' = passwords db := by
  rcases hkeeps with hne | ⟨values, userid, rfl, hid, hpassword⟩
  · refine ⟨(h.of_other hexec hne).1, ?_⟩
    rw [passwords, Db.rows_exec_other hexec hne, passwords]
  · exact ⟨(h.update hexec hid).1, (passwords_update hexec hid).1 hpassword⟩

/-! ## On the heap -/

/-- Nothing has changed in the list, in the map, in the ids and the passwords of the records and in the
counters. -/
abbrev SamePasswords : UserManager → UserManager → Prop := SameUsers fun u => (u.userid, u.password)

theorem SamePasswords.userid (h : SamePasswords um um') (p : UserPtr) : (um'.heap p).userid = (um.heap p).userid :=
  congrArg Prod.fst (h.record p)

theorem SamePasswords.password (h : SamePasswords um um') (p : UserPtr) :
    (um'.heap p).password = (um.heap p).password :=
  congrArg Prod.snd (h.record p)

/-! ## Accounts -/

/-- What `Fetch()` points at behind an empty result reads as a row without a password, as cleared fields
do. -/
def BlankCursor (env : SqlEnv) : Prop := ∀ n, ∀ pRow ∈ env.stale n, (userOfRow pRow).password = []

/-- Every record with a password is a row's. -/
structure Accounts (env : SqlEnv) (st : Store) : Prop where
  table : IdTable st.sql.db
  known : ∀ p, .int (st.users.heap p).userid ∈ userIds st.sql.db ∨ (st.users.heap p).password = []
  cursor : userIds st.sql.db = [] → BlankCursor env

/-- `t_user` has a row under the id, with the empty password. -/
def EmptyRow (db : Db) (g : Int) : Prop :=
  (.int g, .text []) ∈ passwords db ∧ ∀ v, (.int g, v) ∈ passwords db → v = .text []

/-- The row and the records under an id have the empty password, and the map has one of them. -/
structure NoPassword (st : Store) (g : Int) : Prop where
  row : EmptyRow st.sql.db g
  mapped : Mapped st.users g
  records : ∀ p, (st.users.heap p).userid = g → (st.users.heap p).password = []

/-- The id of an empty row is one of the table's. -/
theorem EmptyRow.mem_userIds {g : Int} (h : EmptyRow db g) : .int g ∈ userIds db := by
  rw [← map_fst_passwords]
  exact List.mem_map_of_mem h.1

/-- The step keeps the accounts, and gives no id a password that has none. -/
def KeepsGroups (env : SqlEnv) (st st' : Store) : Prop :=
  Accounts env st → Accounts env st' ∧ ∀ g, NoPassword st g → NoPassword st' g

namespace KeepsGroups

theorem refl (st : Store) : KeepsGroups env st st := fun h => ⟨h, fun _ => id⟩

theorem trans {st'' : Store} (h : KeepsGroups env st st') (h' : KeepsGroups env st' st'') :
    KeepsGroups env st st'' := by
  intro hst
  obtain ⟨hst', hgroups⟩ := h hst
  obtain ⟨hst'', hgroups'⟩ := h' hst'
  exact ⟨hst'', fun g hg => hgroups' g (hgroups g hg)⟩

/-- A step that changes neither passwords nor ids, where a counter may have been advanced before. -/
theorem of_advanced (husers : SamePasswords um st'.users) (hmap : um.mapUsers = st.users.mapUsers)
    (hheap : um.heap = st.users.heap) (hdb : st'.sql.db = st.sql.db ∨
      ∃ now stmt, st.sql.db.exec now stmt = some st'.sql.db ∧ KeepsPasswords stmt) : KeepsGroups env st st' := by
  intro hst
  have htable : IdTable st'.sql.db ∧ passwords st'.sql.db = passwords st.sql.db := by
    rcases hdb with hdb | ⟨now, stmt, hexec, hkeeps⟩
    · rw [hdb]
      exact ⟨hst.table, rfl⟩
    · exact hst.table.keepsPasswords hexec hkeeps
  obtain ⟨htable, hpasswords⟩ := htable
  have hids : userIds st'.sql.db = userIds st.sql.db := by
    rw [← map_fst_passwords, hpasswords, map_fst_passwords]
  refine ⟨⟨htable, fun p => ?_, ?_⟩, fun g hg => ⟨?_, ?_, fun p hp => ?_⟩⟩
  · rw [husers.userid, husers.password, hheap, hids]
    exact hst.known p
  · rw [hids]
    exact hst.cursor
  · rw [EmptyRow, hpasswords]
    exact hg.row
  · rw [husers.mapped_iff, Mapped, hmap]
    exact hg.mapped
  · rw [husers.userid, hheap] at hp
    rw [husers.password, hheap]
    exact hg.records p hp

/-- A step that changes neither passwords nor ids nor counters. -/
theorem of_same (hdb : st'.sql.db = st.sql.db ∨
      ∃ now stmt, st.sql.db.exec now stmt = some st'.sql.db ∧ KeepsPasswords stmt)
    (husers : SamePasswords st.users st'.users) : KeepsGroups env st st' :=
  of_advanced husers rfl rfl hdb

/-- A step that only changes a record, and neither its id nor its password. -/
theorem modify (st : Store) (p : UserPtr) (f : User → User) (hf : ∀ u, (f u).userid = u.userid)
    (hpassword : ∀ u, (f u).password = u.password) : KeepsGroups env st ⟨st.sql, st.users.modify p f hf⟩ :=
  of_same (.inl rfl) (SameUsers.modify st.users p f hf fun u => Prod.ext (hf u) (hpassword u))

/-- A new row and its record. -/
theorem share {u : User} {now : Int} {values : List (String × Literal)} {l : Literal}
    (husers : st'.users = um.share u) (hmap : um.mapUsers = st.users.mapUsers)
    (hheap : um.heap = st.users.heap) (hexec : st.sql.db.exec now (.insert "t_user" values) = some st'.sql.db)
    (hid : values.lookup "f_user_id" = some (.int u.userid)) (hn : IsInt32 u.userid)
    (hpassword : values.lookup "f_password" = some l) : KeepsGroups env st st' := by
  intro hst
  obtain ⟨htable, hfresh, hids⟩ := hst.table.insert hexec hid hn
  obtain ⟨v, hpasswords, -⟩ := passwords_insert hexec hid hpassword
  have hrecord : ∀ p, st'.users.heap p = if p = um.fresh then u else st.users.heap p := by
    intro p
    rw [husers, ← hheap]
    rfl
  refine ⟨⟨htable, fun p => ?_, fun hnil => ?_⟩, fun g hg => ?_⟩
  · rw [hrecord, hids]
    split_ifs
    · exact .inl (List.mem_append_right _ (List.mem_singleton_self _))
    · exact (hst.known p).imp_left fun h => List.mem_append_left _ h
  · rw [hids] at hnil
    cases (List.append_eq_nil_iff.1 hnil).2
  · -- the new id is not the group's, which the table has
    have hne : g ≠ u.userid := by
      rintro rfl
      exact hfresh hg.row.mem_userIds
    refine ⟨⟨?_, fun v' hv' => ?_⟩, ?_, fun p hp => ?_⟩
    · rw [hpasswords]
      exact List.mem_append_left _ hg.row.1
    · rw [hpasswords, List.mem_append, List.mem_singleton, Prod.mk.injEq, Value.int.injEq] at hv'
      rcases hv' with hv' | hv'
      · exact hg.row.2 v' hv'
      · exact absurd hv'.1 hne
    · rw [husers, mapped_share, Mapped, hmap]
      exact .inr hg.mapped
    · rw [hrecord] at hp ⊢
      split_ifs at hp ⊢
      · exact absurd hp.symm hne
      · exact hg.records p hp

end KeepsGroups

/-! ## The operations -/

theorem keepsGroups_addUser (user : User) (st : Store) : KeepsGroups env st (addUser env user st).2 := by
  rcases addUser_cases env user st with ⟨sql, heq, hdb, -⟩ | ⟨sql, heq, hexec⟩ <;> rw [heq]
  · exact .of_advanced (SameUsers.refl _) rfl rfl (.inl hdb)
  · exact .share rfl rfl rfl (MySql.db_exec_of_execute hexec) rfl
      (isInt32_wrap32 _) rfl

/-- `AddGroup` keeps the groups, and a new one has no password. -/
theorem keepsGroups_addGroup (groupname : Bytes) (ownerid : Int) (st : Store) :
    KeepsGroups env st (addGroup env groupname ownerid st).2.2 ∧
      ((addGroup env groupname ownerid st).1 = true → Accounts env st →
        NoPassword (addGroup env groupname ownerid st).2.2 (addGroup env groupname ownerid st).2.1) := by
  rcases addGroup_cases env groupname ownerid st with ⟨sql, heq, hdb, -⟩ | ⟨sql, heq, hexec⟩ <;> rw [heq]
  · exact ⟨.of_advanced (SameUsers.refl _) rfl rfl (.inl hdb), fun h => by cases h⟩
  · have hexec' := MySql.db_exec_of_execute hexec
    refine ⟨.share rfl rfl rfl hexec' rfl (isInt32_wrap32 _) rfl, fun _ hst => ?_⟩
    obtain ⟨-, hfresh, -⟩ := hst.table.insert hexec' rfl (isInt32_wrap32 _)
    obtain ⟨v, hpasswords, hv⟩ := passwords_insert hexec' rfl rfl
    have hempty : v = .text [] := hv _ rfl
    rw [hempty] at hpasswords
    refine ⟨⟨?_, fun v' hv' => ?_⟩, ?_, fun p hp => ?_⟩
    · rw [hpasswords]
      exact List.mem_append_right _ (List.mem_singleton_self _)
    · rw [hpasswords, List.mem_append, List.mem_singleton, Prod.mk.injEq] at hv'
      rcases hv' with hv' | hv'
      · -- no row had the id
        refine absurd ?_ hfresh
        rw [← map_fst_passwords]
        exact List.mem_map_of_mem hv'
      · exact hv'.2
    · exact (mapped_share ..).2 (.inl rfl)
    · change (if p = st.users.takeGroupID.fresh then addedGroup (nextId st.users.baseGroupID) (cStr groupname) ownerid
        else st.users.heap p).userid = _ at hp
      change (if p = st.users.takeGroupID.fresh then addedGroup (nextId st.users.baseGroupID) (cStr groupname) ownerid
        else st.users.heap p).password = []
      split_ifs at hp ⊢
      · rfl
      · rcases hst.known p with hknown | hnone
        · rw [hp] at hknown
          exact absurd hknown hfresh
        · exact hnone

theorem keepsGroups_updateUserInfo (userid : Int) (info : User) (st : Store) :
    KeepsGroups env st (updateUserInfo env userid info st).2 := by
  rcases updateUserInfo_cases env userid info st with ⟨sql, heq, hdb, -⟩ | ⟨sql, heq, hexec⟩ <;> rw [heq]
  · exact .of_same (.inl hdb) (SameUsers.refl _)
  · exact .of_same (.inr ⟨_, _, MySql.db_exec_of_execute hexec, .inr ⟨_, _, rfl, rfl, rfl⟩⟩)
      (SameUsers.modifyById _ _ _ _ fun _ => rfl)

theorem keepsGroups_makeFriendRelationship (smallid greatid : Int) (st : Store) :
    KeepsGroups env st (makeFriendRelationship env smallid greatid st).2 := by
  have hother : "t_user" ≠ "t_user_relationship" := by decide
  rcases makeFriendRelationship_cases env smallid greatid st with ⟨husers, hdb⟩ | ⟨-, sql, heq, hexec⟩
  · refine .of_same (.inl hdb) ?_
    rw [husers]
    exact SameUsers.refl _
  · rw [heq]
    exact .of_same (.inr ⟨_, _, MySql.db_exec_of_execute hexec, .inl hother⟩)
      (SameUsers.linked (fun _ => rfl) ..)

theorem keepsGroups_deleteFriendToUser (userid friendid : Int) (st : Store) :
    KeepsGroups env st (deleteFriendToUser env userid friendid st).2 := by
  have hother : "t_user" ≠ "t_user_relationship" := by decide
  rcases deleteFriendToUser_cases env userid friendid st with ⟨husers, hdb⟩ | ⟨sql, heq, hexec⟩
  · refine .of_same (.inl hdb) ?_
    rw [husers]
    exact SameUsers.refl _
  · rw [heq]
    exact .of_same (.inr ⟨_, _, MySql.db_exec_of_execute hexec, .inl hother⟩)
      (SameUsers.unlinked (fun _ => rfl) ..)

theorem keepsGroups_saveChatMsgToDb (senderid targetid : Int) (chatmsg : Bytes) (st : Store) :
    KeepsGroups env st (saveChatMsgToDb env senderid targetid chatmsg st).2 := by
  have hother : "t_user" ≠ "t_chatmsg" := by decide
  unfold saveChatMsgToDb
  rcases h : MySql.execute env (saveChatMsgStmt senderid targetid chatmsg) st.sql with ⟨_ | _, sql⟩
  · exact .of_same (.inl (MySql.db_of_execute_false h)) (SameUsers.refl _)
  · exact .of_same (.inr ⟨_, _, MySql.db_exec_of_execute h, .inl hother⟩) (SameUsers.refl _)

theorem keepsGroups_getChatHistory (userid targetid limit : Int) (st : Store) :
    KeepsGroups env st (getChatHistory env userid targetid limit st).2 := by
  rw [snd_getChatHistory]
  exact .of_same (.inl rfl) (SameUsers.refl _)

/-- A password is changed, in the table and in the records, of an id that one of the records has a password
under. -/
theorem keepsGroups_modifyUserPassword {p : UserPtr} {newpassword : Bytes}
    (hpassword : (st.users.heap p).password ≠ [])
    (h : modifyUserPassword env (st.users.heap p).userid newpassword st = (true, st')) :
    KeepsGroups env st ⟨st'.sql, st'.users.modify p (withPassword newpassword) fun _ => rfl⟩ := by
  rcases modifyUserPassword_cases env (st.users.heap p).userid newpassword st with
    ⟨sql, heq, -⟩ | ⟨sql, heq, hexec⟩ <;> rw [heq] at h <;> cases h
  have hexec' := MySql.db_exec_of_execute hexec
  have hsame : SameIndexes st.users
      ((st.users.modifyById (st.users.heap p).userid (withPassword newpassword) fun _ => rfl).modify p
        (withPassword newpassword) fun _ => rfl) :=
    (SameIndexes.modifyById ..).trans (SameUsers.modify _ p _ _ fun _ => rfl)
  -- the records of other ids are not touched
  have hother : ∀ q, (st.users.heap q).userid ≠ (st.users.heap p).userid →
      ((st.users.modifyById (st.users.heap p).userid (withPassword newpassword) fun _ => rfl).modify p
        (withPassword newpassword) fun _ => rfl).heap q = st.users.heap q := by
    intro q hq
    have hqp : q ≠ p := by
      rintro rfl
      exact hq rfl
    refine (if_neg hqp).trans ?_
    unfold modifyById
    cases hget : st.users.mapUsers.get? (st.users.heap p).userid with
    | none => rfl
    | some q' =>
        refine if_neg ?_
        rintro rfl
        exact hq (st.users.mapped hget).2
  intro hst
  obtain ⟨htable, hids⟩ := hst.table.update hexec' rfl
  have hknown : .int (st.users.heap p).userid ∈ userIds st.sql.db :=
    (hst.known p).resolve_right hpassword
  refine ⟨⟨htable, fun q => ?_, ?_⟩, fun g hg => ?_⟩
  · rw [hids, hsame.record]
    by_cases hq : (st.users.heap q).userid = (st.users.heap p).userid
    · rw [hq]
      exact .inl hknown
    · rw [hother q hq]
      exact hst.known q
  · rw [hids]
    exact hst.cursor
  · -- the record with the password is not the group's
    have hne : g ≠ (st.users.heap p).userid := fun heq => hpassword (hg.records p heq.symm)
    have hrow := (passwords_update hexec' rfl).2 g hne
    refine ⟨⟨(hrow _).2 hg.row.1, fun v hv => hg.row.2 v ((hrow v).1 hv)⟩, ?_, fun q hq => ?_⟩
    · rw [hsame.mapped_iff]
      exact hg.mapped
    · rw [hsame.record] at hq
      rw [hother q fun heq => hne (hq.symm.trans heq)]
      exact hg.records q hq

/-! ## A start -/

/-- After a start a record is without a password or has the id and the password of a row. -/
theorem password_init {sql : MySql} (htable : IdTable sql.db) (hcursor : userIds sql.db = [] → BlankCursor env)
    (hinit : init env ⟨sql, new⟩ = (true, st)) (p : UserPtr) :
    (st.users.heap p).password = [] ∨ ∃ r ∈ sql.db.rows "t_user",
      (st.users.heap p).userid = (rowUser r).userid ∧ (st.users.heap p).password = (rowUser r).password := by
  rcases @record_init _ (fun u => (u.userid, u.password)) (fun _ => rfl) _ _ _ htable hinit p with
    hblank | ⟨r, hr, hrow⟩ | ⟨hnil, pRow, hpRow, hshown⟩
  · exact .inl (congrArg Prod.snd hblank)
  · exact .inr ⟨r, hr, congrArg Prod.fst hrow, congrArg Prod.snd hrow⟩
  · exact .inl ((congrArg Prod.snd hshown).trans (hcursor hnil _ pRow hpRow))

/-- **A start.** It makes the accounts of `t_user`, and gives no id a password that has none there. -/
theorem accounts_init {sql : MySql} (htable : IdTable sql.db) (hcursor : userIds sql.db = [] → BlankCursor env)
    (hinit : init env ⟨sql, new⟩ = (true, st)) :
    Accounts env st ∧ ∀ g, EmptyRow sql.db g → NoPassword st g := by
  obtain ⟨hindexed, hdb⟩ := indexed_init htable (fun _ _ => id) hinit
  have hpassword := password_init htable hcursor hinit
  have hid : ∀ r ∈ sql.db.rows "t_user", r "f_user_id" = .int (rowUser r).userid := by
    intro r hr
    obtain ⟨n, hn, hn32⟩ := htable.int32 _ (List.mem_map_of_mem hr)
    rw [userid_rowUser hn hn32]
    exact hn
  refine ⟨⟨hindexed.table, fun p => ?_, ?_⟩, fun g hg => ⟨?_, ?_, fun p hp => ?_⟩⟩
  · rcases hpassword p with hnone | ⟨r, hr, hrid, -⟩
    · exact .inr hnone
    · left
      rw [hdb, hrid, ← hid r hr]
      exact List.mem_map_of_mem hr
  · rw [hdb]
    exact hcursor
  · rw [hdb]
    exact hg
  · refine hindexed.stored g ?_
    rw [hdb]
    exact hg.mem_userIds
  · rcases hpassword p with hnone | ⟨r, hr, hrid, hpw⟩
    · exact hnone
    · -- the row is the group's, whose password is empty
      have hempty : r "f_password" = .text [] := by
        refine hg.2 _ ?_
        rw [← hp, hrid, ← hid r hr]
        exact List.mem_map_of_mem hr
      rw [hpw]
      show Field.getString (r "f_password") = []
      rw [hempty]
      rfl

/-- A start that fails has changed nothing. -/
theorem db_of_init_false {sql : MySql} (hinit : init env ⟨sql, new⟩ = (false, st)) : st.sql.db = sql.db := by
  unfold init loadUserFromDB at hinit
  dsimp only at hinit
  rcases hquery : MySql.query env userQuery sql with ⟨_ | result, sql'⟩ <;> rw [hquery] at hinit <;> cases hinit
  exact (congrArg (fun m : MySql => m.db) (Prod.mk.inj hquery).2).symm

end UserManager

end AimChat
