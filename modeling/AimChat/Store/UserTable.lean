import AimChat.Store.Operations

/-! # The table of users

What `t_user` holds, as the records a start of the server would make of it. `stored` reads the table as
a map from ids to records, the statements of the user store are shown to be updates of that map, and
the list and the map that `init` builds are read off it. -/

namespace AimChat

open Sql

namespace UserManager

/-! ## Rows as records -/

/-- The record `LoadUserFromDB` makes of a row of `t_user`. -/
def rowUser (r : Row) : User := userOfRow (userQuery.exprs.map fun e => r e.column)

/-- The record `t_user` holds under an id. -/
def stored (db : Db) (id : Int) : Option User :=
  ((db.rows "t_user").map rowUser).find? fun u => u.userid = id

/-- `t_user` as `Init` makes it and only this program writes it: it has its columns and its primary key,
and the ids are distinct values of `int32_t`. -/
structure UserTable (db : Db) : Prop where
  table : ∃ t, db.tables "t_user" = some t ∧ t.columns = MySqlManager.freshUser.columns ∧
    t.key = "f_user_id"
  ids : ∀ r ∈ db.rows "t_user", ∃ n, r "f_user_id" = .int n ∧ IsInt32 n
  distinct : (db.rows "t_user").Pairwise fun r s => r "f_user_id" ≠ s "f_user_id"

/-- Fresh tables are in order. -/
theorem userTable_fresh : UserTable freshTables.db := by
  have htable : freshTables.db.tables "t_user" = some MySqlManager.freshUser := by
    rw [freshTables_eq]
    rfl
  have hrows : freshTables.db.rows "t_user" = [] := Db.rows_of_table htable
  refine ⟨⟨_, htable, rfl, rfl⟩, ?_, ?_⟩
  · rw [hrows]
    exact fun r hr => absurd hr List.not_mem_nil
  · rw [hrows]
    exact List.Pairwise.nil

/-- In a list whose keys are distinct, `find?` by key finds every member. -/
theorem find?_eq_some_of_distinct {α κ : Type} [DecidableEq κ] {l : List α} {key : α → κ}
    (h : l.Pairwise fun a b => key a ≠ key b) {k : κ} {a : α} :
    (l.find? fun x => key x = k) = some a ↔ a ∈ l ∧ key a = k := by
  induction l with
  | nil => simp
  | cons b l ih =>
      obtain ⟨hb, hl⟩ := List.pairwise_cons.1 h
      rw [List.find?_cons]
      by_cases hk : key b = k
      · simp only [hk, decide_true, Option.some.injEq, List.mem_cons]
        constructor
        · rintro rfl
          exact ⟨Or.inl rfl, hk⟩
        · rintro ⟨rfl | hmem, hak⟩
          · rfl
          · exact absurd (hk.trans hak.symm) (hb a hmem)
      · simp only [hk, decide_false, ih hl, List.mem_cons]
        constructor
        · rintro ⟨hmem, hak⟩
          exact ⟨Or.inr hmem, hak⟩
        · rintro ⟨rfl | hmem, hak⟩
          · exact absurd hak hk
          · exact ⟨hmem, hak⟩

variable {db db' : Db}

/-- The id of a row's record. -/
theorem userid_rowUser {r : Row} {n : Int} (hr : r "f_user_id" = .int n) (hn : IsInt32 n) :
    (rowUser r).userid = n := by
  change Field.toInt32 (r "f_user_id") = n
  rw [hr]
  exact wrap32_eq_self hn

/-- The rows' records have distinct ids. -/
theorem UserTable.pairwise (h : UserTable db) :
    ((db.rows "t_user").map rowUser).Pairwise fun u v => u.userid ≠ v.userid := by
  rw [List.pairwise_map]
  refine List.Pairwise.imp_of_mem ?_ h.distinct
  intro r s hr hs hne hid
  obtain ⟨m, hm, hm32⟩ := h.ids r hr
  obtain ⟨n, hn, hn32⟩ := h.ids s hs
  rw [userid_rowUser hm hm32, userid_rowUser hn hn32] at hid
  exact hne (by rw [hm, hn, hid])

/-- The stored records are the rows'. -/
theorem UserTable.stored_eq_some (h : UserTable db) {id : Int} {u : User} :
    stored db id = some u ↔ u ∈ (db.rows "t_user").map rowUser ∧ u.userid = id :=
  find?_eq_some_of_distinct h.pairwise

/-- A table without rows holds no record. -/
theorem stored_of_rows_nil (h : db.rows "t_user" = []) (id : Int) : stored db id = none := by
  rw [stored, h]
  rfl

/-- Nothing but the rows matters. -/
theorem stored_congr (h : db'.rows "t_user" = db.rows "t_user") : stored db' = stored db := by
  funext id
  rw [stored, h, stored]

/-- A statement about another table leaves the user table. -/
theorem UserTable.of_other {now : Int} {stmt : Stmt} (h : UserTable db)
    (hexec : db.exec now stmt = some db') (hne : "t_user" ≠ stmt.table) :
    UserTable db' ∧ stored db' = stored db := by
  have hrows := Db.rows_exec_other hexec hne
  refine ⟨⟨?_, ?_, ?_⟩, stored_congr hrows⟩
  · rw [Db.exec_other hexec hne]
    exact h.table
  · rw [hrows]
    exact h.ids
  · rw [hrows]
    exact h.distinct

/-! ## Statements as updates of the map -/

/-- No row has the id: no record is loaded under it. -/
theorem UserTable.stored_eq_none {n : Int} (h : UserTable db)
    (hfresh : ∀ r ∈ db.rows "t_user", r "f_user_id" ≠ .int n) : stored db n = none := by
  cases hs : stored db n with
  | none => rfl
  | some u =>
      obtain ⟨hmem, huid⟩ := h.stored_eq_some.1 hs
      obtain ⟨r, hr, rfl⟩ := List.mem_map.1 hmem
      obtain ⟨m, hm, hm32⟩ := h.ids r hr
      rw [userid_rowUser hm hm32] at huid
      exact absurd (by rw [hm, huid]) (hfresh r hr)

section Append

variable {t : Table} {row : Row} {n : Int}

theorem UserTable.of_table (h : UserTable db) (ht : db.tables "t_user" = some t) :
    t.columns = MySqlManager.freshUser.columns ∧ t.key = "f_user_id" := by
  obtain ⟨t', ht', hcols, hpk⟩ := h.table
  cases ht.symm.trans ht'
  exact ⟨hcols, hpk⟩

/-- A row with a new id leaves the table in order. -/
theorem UserTable.append (h : UserTable db) (ht : db.tables "t_user" = some t) (hnew : row "f_user_id" = .int n)
    (hn : IsInt32 n) (hfresh : ∀ r ∈ db.rows "t_user", r "f_user_id" ≠ .int n) :
    UserTable (db.set "t_user" { t with rows := t.rows ++ [row] }) := by
  obtain ⟨hcols, hpk⟩ := h.of_table ht
  have hrows : db.rows "t_user" = t.rows := Db.rows_of_table ht
  refine ⟨⟨_, rfl, hcols, hpk⟩, ?_, ?_⟩
  · intro r hr
    rw [Db.rows_set, if_pos rfl] at hr
    rcases List.mem_append.1 hr with hr | hr
    · exact h.ids r (by rw [hrows]; exact hr)
    · rw [List.mem_singleton.1 hr]
      exact ⟨n, hnew, hn⟩
  · rw [Db.rows_set, if_pos rfl, ← hrows]
    refine List.pairwise_append.2 ⟨h.distinct, List.pairwise_singleton _ _, ?_⟩
    intro r hr s hs
    rw [List.mem_singleton.1 hs, hnew]
    exact hfresh r hr

/-- And its record is loaded. -/
theorem UserTable.stored_append (h : UserTable db) (ht : db.tables "t_user" = some t)
    (hnew : row "f_user_id" = .int n) (hn : IsInt32 n)
    (hfresh : ∀ r ∈ db.rows "t_user", r "f_user_id" ≠ .int n) (id : Int) :
    stored (db.set "t_user" { t with rows := t.rows ++ [row] }) id =
      if id = n then some (rowUser row) else stored db id := by
  have happend : stored (db.set "t_user" { t with rows := t.rows ++ [row] }) id =
      (stored db id).or (if id = n then some (rowUser row) else none) := by
    rw [stored, Db.rows_set, if_pos rfl, List.map_append, List.find?_append, ← Db.rows_of_table ht, ← stored]
    congr 1
    rw [List.map_singleton, List.find?_singleton, userid_rowUser hnew hn]
    by_cases hidn : n = id
    · simp [hidn]
    · simp [hidn, Ne.symm hidn]
  rw [happend]
  by_cases hidn : id = n
  · rw [if_pos hidn, hidn, h.stored_eq_none hfresh, if_pos rfl]
    rfl
  · rw [if_neg hidn, if_neg hidn, Option.or_none]

end Append

/-- An `INSERT` of a row with a new id adds its record. -/
theorem UserTable.insert {now n : Int} {values : List (String × Literal)} (h : UserTable db)
    (hexec : db.exec now (.insert "t_user" values) = some db')
    (hid : values.lookup "f_user_id" = some (.int n)) (hn : IsInt32 n) :
    UserTable db' ∧ stored db n = none ∧ ∃ (t : Table) (named : List (String × Value)),
      t.columns = MySqlManager.freshUser.columns ∧ evalAll now values = some named ∧
        ∀ id, stored db' id =
          if id = n then some (rowUser (t.newRow now named)) else stored db id := by
  obtain ⟨t, named, ht, hnamed, -, hkey, rfl⟩ := Db.exec_insert hexec
  obtain ⟨hcols, hpk⟩ := h.of_table ht
  have hnew : t.newRow now named "f_user_id" = .int n := t.newRow_eq hnamed hid rfl
  rw [hpk] at hkey
  -- the key of the table is the id, which the server checks
  have hfresh : ∀ r ∈ db.rows "t_user", r "f_user_id" ≠ .int n := by
    intro r hr
    rw [Db.rows_of_table ht] at hr
    have := hkey r hr
    rw [hnew] at this
    exact this
  exact ⟨h.append ht hnew hn hfresh, h.stored_eq_none hfresh, t, named, hcols, hnamed,
    h.stored_append ht hnew hn hfresh⟩

/-- What an `UPDATE` of the row under an id makes of a row. -/
def changed (named : List (String × Value)) (userid : Int) (r : Row) : Row :=
  if (Cond.eq "f_user_id" userid).holds r then setAll named r else r

/-- Such an `UPDATE` keeps the ids. -/
theorem changed_id {named : List (String × Value)} (hid : named.lookup "f_user_id" = none)
    (userid : Int) (r : Row) : changed named userid r "f_user_id" = r "f_user_id" := by
  unfold changed
  split_ifs
  · rw [setAll, hid]
    rfl
  · rfl

/-- And it changes the record of that id only. -/
theorem rowUser_changed {named : List (String × Value)} {f : User → User}
    (hf : ∀ r, rowUser (setAll named r) = f (rowUser r)) (userid : Int) {r : Row} {m : Int}
    (hm : r "f_user_id" = .int m) (hm32 : IsInt32 m) :
    rowUser (changed named userid r) =
      if (rowUser r).userid = userid then f (rowUser r) else rowUser r := by
  have hcond : (Cond.eq "f_user_id" userid).holds r = true ↔ (rowUser r).userid = userid := by
    rw [userid_rowUser hm hm32, Cond.holds, hm, decide_eq_true_eq, Value.int.injEq]
  unfold changed
  by_cases hc : (rowUser r).userid = userid
  · rw [if_pos (hcond.2 hc), if_pos hc, hf]
  · rw [if_neg (fun h => hc (hcond.1 h)), if_neg hc]

/-- `find?` by key over a list whose members of one key were changed, the keys kept. -/
theorem find?_map_of_key {α κ : Type} [DecidableEq κ] {l : List α} {key : α → κ} {g f : α → α}
    {k : κ} (hg : ∀ a ∈ l, g a = if key a = k then f a else a) (hf : ∀ a, key (f a) = key a) (j : κ) :
    ((l.map g).find? fun x => key x = j) =
      if j = k then (l.find? fun x => key x = j).map f else l.find? fun x => key x = j := by
  induction l with
  | nil => simp
  | cons a l ih =>
      have ha := hg a List.mem_cons_self
      have hkey : key (g a) = key a := by
        rw [ha]
        split_ifs
        · exact hf a
        · rfl
      rw [List.map_cons, List.find?_cons, List.find?_cons, hkey,
        ih fun b hb => hg b (List.mem_cons_of_mem _ hb)]
      by_cases hc : key a = j
      · simp only [hc, decide_true]
        by_cases hj : j = k
        · rw [if_pos hj, ha, if_pos (hc.trans hj)]
          rfl
        · rw [if_neg hj, ha, if_neg (fun h => hj (hc.symm.trans h))]
      · simp only [hc, decide_false]

/-- An `UPDATE` of the row under an id changes its record. -/
theorem UserTable.update {now userid : Int} {values : List (String × Literal)} (h : UserTable db)
    (hexec : db.exec now (.update "t_user" values (.eq "f_user_id" userid)) = some db')
    (hvalues : values.lookup "f_user_id" = none) :
    UserTable db' ∧ ∃ named, evalAll now values = some named ∧
      ∀ f : User → User, (∀ r, rowUser (setAll named r) = f (rowUser r)) →
        (∀ u, (f u).userid = u.userid) → ∀ id,
          stored db' id = if id = userid then (stored db id).map f else stored db id := by
  obtain ⟨t, named, ht, hnamed, rfl⟩ := Db.exec_update hexec
  have hid : named.lookup "f_user_id" = none := lookup_eq_none hnamed hvalues
  obtain ⟨hcols, hpk⟩ := h.of_table ht
  have hrows : db.rows "t_user" = t.rows := Db.rows_of_table ht
  have hrows' : (db.set "t_user" { t with rows := t.rows.map fun r =>
      if (Cond.eq "f_user_id" userid).holds r then setAll named r else r }).rows "t_user" =
      (db.rows "t_user").map (changed named userid) := by
    rw [Db.rows_set, if_pos rfl, hrows]
    rfl
  refine ⟨⟨⟨_, rfl, hcols, hpk⟩, ?_, ?_⟩, named, hnamed, fun f hf hfid id => ?_⟩
  · intro r hr
    rw [hrows'] at hr
    obtain ⟨r', hr', rfl⟩ := List.mem_map.1 hr
    rw [changed_id hid]
    exact h.ids r' hr'
  · rw [hrows', List.pairwise_map]
    refine h.distinct.imp fun hne => ?_
    rw [changed_id hid, changed_id hid]
    exact hne
  · rw [stored, hrows', List.map_map]
    have hrecords : (db.rows "t_user").map (rowUser ∘ changed named userid) =
        ((db.rows "t_user").map rowUser).map fun u => if u.userid = userid then f u else u := by
      rw [List.map_map]
      refine List.map_congr_left fun r hr => ?_
      obtain ⟨m, hm, hm32⟩ := h.ids r hr
      exact rowUser_changed hf userid hm hm32
    rw [hrecords, find?_map_of_key (f := f) (fun _ _ => rfl) hfid]
    rfl

/-! ## The statements of the user store -/

/-- A text is stored as it is: MySQL reads the escaped literal back to it. -/
def StoredAsIs (s : Bytes) : Prop := unquote (escapeSqlString s) = some s

instance (s : Bytes) : Decidable (StoredAsIs s) :=
  inferInstanceAs (Decidable (_ = _))

/-- The literal of a text that is stored as it is. -/
theorem eval_quoted {s : Bytes} (h : StoredAsIs s) (now : Int) :
    (quoted s).eval now = some (.text s) := by
  rw [quoted, Literal.eval, h]
  rfl

/-- The record a start makes of the row `AddUser` inserts: the columns it does not name have their
defaults. -/
def insertedUser (userid : Int) (user : User) : User where
  userid := userid
  username := user.username
  nickname := user.nickname
  password := user.password
  facetype := 0
  gender := 0
  birthday := 19900101
  mail := user.mail

/-- The record a start makes of the row `AddGroup` inserts; the owner is not read back. -/
def insertedGroup (groupid : Int) (groupname : Bytes) : User where
  userid := groupid
  username := groupname
  nickname := groupname
  facetype := 0
  gender := 0
  birthday := 19900101

/-- The statement of `AddUser` adds the new record to the map. -/
theorem UserTable.addUser {now n : Int} {user : User} (h : UserTable db)
    (hexec : db.exec now (addUserStmt n user) = some db') (hn : IsInt32 n)
    (hexact : ∀ s ∈ [user.username, user.nickname, user.password, user.mail], StoredAsIs s) :
    UserTable db' ∧ stored db n = none ∧
      ∀ id, stored db' id = if id = n then some (insertedUser n user) else stored db id := by
  obtain ⟨htable, hnone, t, named, hcols, hnamed, hstored⟩ := h.insert hexec rfl hn
  refine ⟨htable, hnone, fun id => ?_⟩
  simp only [List.mem_cons, List.not_mem_nil, or_false, forall_eq_or_imp, forall_eq] at hexact
  obtain ⟨husername, hnickname, hpassword, hmail⟩ := hexact
  have hvalues : named = [("f_user_id", .int n), ("f_username", .text user.username),
      ("f_nickname", .text user.nickname), ("f_password", .text user.password),
      ("f_mail", .text user.mail), ("f_register_time", .int now)] :=
    Option.some.inj (hnamed.symm.trans
      (evalAll_eq (.cons ⟨rfl, rfl⟩ (.cons ⟨rfl, eval_quoted husername now⟩
        (.cons ⟨rfl, eval_quoted hnickname now⟩ (.cons ⟨rfl, eval_quoted hpassword now⟩
          (.cons ⟨rfl, eval_quoted hmail now⟩ (.cons ⟨rfl, rfl⟩ .nil))))))))
  have hrow : rowUser (t.newRow now named) = insertedUser n user := by
    obtain ⟨columns, key, rows⟩ := t
    cases hcols
    rw [hvalues]
    change User.mk (wrap32 n) _ _ _ (wrap32 0) _ (wrap32 0) (wrap32 19900101) _ _ _ _ _ _ _ = _
    rw [wrap32_eq_self hn, wrap32_eq_self (n := 0) (by decide),
      wrap32_eq_self (n := 19900101) (by decide)]
    rfl
  rw [hstored id, hrow]

/-- The statement of `AddGroup` adds the new record to the map. -/
theorem UserTable.addGroup {now n ownerid : Int} {groupname : Bytes} (h : UserTable db)
    (hexec : db.exec now (addGroupStmt n groupname ownerid) = some db') (hn : IsInt32 n)
    (hexact : StoredAsIs groupname) :
    UserTable db' ∧ stored db n = none ∧
      ∀ id, stored db' id = if id = n then some (insertedGroup n groupname) else stored db id := by
  obtain ⟨htable, hnone, t, named, hcols, hnamed, hstored⟩ := h.insert hexec rfl hn
  refine ⟨htable, hnone, fun id => ?_⟩
  have hvalues : named = [("f_user_id", .int n), ("f_username", .text groupname),
      ("f_nickname", .text groupname), ("f_password", .text []), ("f_owner_id", .int ownerid),
      ("f_register_time", .int now)] :=
    Option.some.inj (hnamed.symm.trans
      (evalAll_eq (.cons ⟨rfl, rfl⟩ (.cons ⟨rfl, eval_quoted hexact now⟩
        (.cons ⟨rfl, eval_quoted hexact now⟩ (.cons ⟨rfl, rfl⟩ (.cons ⟨rfl, rfl⟩
          (.cons ⟨rfl, rfl⟩ .nil))))))))
  have hrow : rowUser (t.newRow now named) = insertedGroup n groupname := by
    obtain ⟨columns, key, rows⟩ := t
    cases hcols
    rw [hvalues]
    change User.mk (wrap32 n) _ _ _ (wrap32 0) _ (wrap32 0) (wrap32 19900101) _ _ _ _ _ _ _ = _
    rw [wrap32_eq_self hn, wrap32_eq_self (n := 0) (by decide),
      wrap32_eq_self (n := 19900101) (by decide)]
    rfl
  rw [hstored id, hrow]

/-- The statement of `UpdateUserInfo` copies the profile into the record of the map. -/
theorem UserTable.updateUserInfo {now userid : Int} {info : User} (h : UserTable db)
    (hexec : db.exec now (updateUserInfoStmt userid info) = some db')
    (hexact : ∀ s ∈ [info.nickname, info.customface, info.signature, info.address,
      info.phonenumber, info.mail], StoredAsIs s)
    (hint : IsInt32 info.facetype ∧ IsInt32 info.gender ∧ IsInt32 info.birthday) :
    UserTable db' ∧ ∀ id, stored db' id =
      if id = userid then (stored db id).map (copyProfile info) else stored db id := by
  obtain ⟨htable, named, hnamed, hstored⟩ := h.update hexec rfl
  refine ⟨htable, hstored (copyProfile info) (fun r => ?_) fun _ => rfl⟩
  simp only [List.mem_cons, List.not_mem_nil, or_false, forall_eq_or_imp, forall_eq] at hexact
  obtain ⟨hnickname, hcustomface, hsignature, haddress, hphonenumber, hmail⟩ := hexact
  obtain ⟨hfacetype, hgender, hbirthday⟩ := hint
  have hvalues : named = [("f_nickname", .text info.nickname), ("f_facetype", .int info.facetype),
      ("f_customface", .text info.customface), ("f_gender", .int info.gender),
      ("f_birthday", .int info.birthday), ("f_signature", .text info.signature),
      ("f_address", .text info.address), ("f_phonenumber", .text info.phonenumber),
      ("f_mail", .text info.mail)] :=
    Option.some.inj (hnamed.symm.trans
      (evalAll_eq (.cons ⟨rfl, eval_quoted hnickname now⟩ (.cons ⟨rfl, rfl⟩
        (.cons ⟨rfl, eval_quoted hcustomface now⟩ (.cons ⟨rfl, rfl⟩ (.cons ⟨rfl, rfl⟩
          (.cons ⟨rfl, eval_quoted hsignature now⟩ (.cons ⟨rfl, eval_quoted haddress now⟩
            (.cons ⟨rfl, eval_quoted hphonenumber now⟩
              (.cons ⟨rfl, eval_quoted hmail now⟩ .nil)))))))))))
  rw [hvalues]
  change User.mk _ _ _ _ (wrap32 info.facetype) _ (wrap32 info.gender) (wrap32 info.birthday)
    _ _ _ _ _ _ _ = _
  rw [wrap32_eq_self hfacetype, wrap32_eq_self hgender, wrap32_eq_self hbirthday]
  rfl

/-- The statement of `ModifyUserPassword` sets the password of the record of the map. -/
theorem UserTable.modifyUserPassword {now userid : Int} {newpassword : Bytes} (h : UserTable db)
    (hexec : db.exec now (modifyUserPasswordStmt userid newpassword) = some db')
    (hexact : StoredAsIs newpassword) :
    UserTable db' ∧ ∀ id, stored db' id =
      if id = userid then (stored db id).map (withPassword newpassword) else stored db id := by
  obtain ⟨htable, named, hnamed, hstored⟩ := h.update hexec rfl
  refine ⟨htable, hstored (withPassword newpassword) (fun r => ?_) fun _ => rfl⟩
  have hvalues : named = [("f_password", .text newpassword)] :=
    Option.some.inj (hnamed.symm.trans (evalAll_eq (.cons ⟨rfl, eval_quoted hexact now⟩ .nil)))
  rw [hvalues]
  rfl

/-- An operation keeps the table of users in order, whatever it stores. -/
theorem UserTable.step {env : SqlEnv} {st st' : Store} {op : StoreOp} (h : UserTable st.sql.db)
    (hop : op ≠ .restart) (hstep : step env st op = .ok st') : UserTable st'.sql.db := by
  have hother : "t_user" ≠ "t_user_relationship" := by decide
  cases operated env hop hstep with
  | failed _ hstmt hfalse =>
      rw [MySql.db_of_execute_false hfalse]
      exact h
  | idle _ hfriends hdb =>
      rw [hdb]
      exact h
  | addUser username nickname password mail hexec =>
      exact (h.insert (MySql.db_exec_of_execute hexec) rfl (isInt32_wrap32 _)).1
  | addGroup groupname ownerid hexec =>
      exact (h.insert (MySql.db_exec_of_execute hexec) rfl (isInt32_wrap32 _)).1
  | updateUserInfo userid info hexec => exact (h.update (MySql.db_exec_of_execute hexec) rfl).1
  | modifyUserPassword userid newpassword hexec => exact (h.update (MySql.db_exec_of_execute hexec) rfl).1
  | linked smallid greatid hlt hexec => exact (h.of_other (MySql.db_exec_of_execute hexec) hother).1
  | unlinked _ hfriends x y hexec => exact (h.of_other (MySql.db_exec_of_execute hexec) hother).1

/-! ## What a start makes of the table -/

/-- The records of the table in the order `LoadUserFromDB` reads them. -/
def loadOrder (db : Db) : List User := (userQuery.rows (db.rows "t_user")).map rowUser

/-- The rows in that order are the table's. -/
theorem perm_userQuery (rows : List Row) : (userQuery.rows rows).Perm rows := by
  have hall : (rows.filter fun r => userQuery.cond.all fun c => c.holds r) = rows :=
    List.filter_eq_self.2 fun _ _ => rfl
  change ((rows.filter fun r => userQuery.cond.all fun c => c.holds r).insertionSort _).Perm rows
  rw [hall]
  exact List.perm_insertionSort _ _

/-- The records in that order have descending ids. -/
theorem UserTable.loadOrder_pairwise (h : UserTable db) :
    (loadOrder db).Pairwise fun u v => v.userid < u.userid := by
  have hperm := perm_userQuery (db.rows "t_user")
  -- the query sorts by the id
  have hsorted : (userQuery.rows (db.rows "t_user")).Pairwise fun r s =>
      (s "f_user_id").rank ≤ (r "f_user_id").rank := by
    have htotal : Std.Total fun r s : Row => (s "f_user_id").rank ≤ (r "f_user_id").rank :=
      ⟨fun r s => le_total _ _⟩
    have htrans : IsTrans Row fun r s => (s "f_user_id").rank ≤ (r "f_user_id").rank :=
      ⟨fun r s q hrs hsq => hsq.trans hrs⟩
    exact List.pairwise_insertionSort _ _
  have hdistinct : (userQuery.rows (db.rows "t_user")).Pairwise fun r s =>
      r "f_user_id" ≠ s "f_user_id" :=
    (hperm.pairwise_iff fun hne => hne.symm).2 h.distinct
  rw [loadOrder, List.pairwise_map]
  refine List.Pairwise.imp_of_mem ?_ (hsorted.and hdistinct)
  rintro r s hr hs ⟨hle, hne⟩
  obtain ⟨m, hm, hm32⟩ := h.ids r (hperm.mem_iff.1 hr)
  obtain ⟨n, hn, hn32⟩ := h.ids s (hperm.mem_iff.1 hs)
  rw [userid_rowUser hm hm32, userid_rowUser hn hn32]
  rw [hm, hn] at hle hne
  exact lt_of_le_of_ne hle fun heq => hne (by rw [heq])

/-- **What a start loads.** The list holds the records of the rows the cursor visits, the map holds the
last of them under each id; friends are loaded afterwards. -/
theorem init_loaded {env : SqlEnv} {sql : MySql} {st : Store}
    (h : init env ⟨sql, new⟩ = (true, st)) :
    ∃ rows, sql.db.select userQuery = some rows ∧ st.sql.db = sql.db ∧
      st.users.users.map clearFriends =
        (QueryResult.visited (env.stale sql.sent) rows).map userOfRow ∧
      ∀ id, (st.users.record id).map clearFriends =
        ((QueryResult.visited (env.stale sql.sent) rows).map userOfRow).reverse.find?
          fun u => u.userid = id := by
  obtain ⟨rows, hrows, hst⟩ := init_eq h
  generalize hvisited : QueryResult.visited (env.stale sql.sent) rows = visited at hst
  generalize hum : visited.foldl loadUser new = um at hst
  obtain ⟨hsql, hmap, hcached, -, -, hheap⟩ :=
    loadAllFriends_frame env um.cachedUsers ⟨⟨sql.db, sql.sent + 1⟩, um⟩
  rw [← hst] at hsql hmap hcached hheap
  -- the loaded records have no friends yet
  have hclear : ∀ u ∈ um.users, clearFriends u = u := by
    have husers : um.users = new.users ++ visited.map userOfRow := hum ▸ users_foldl_loadUser _ new
    rw [husers]
    intro u hu
    obtain ⟨pRow, -, rfl⟩ := List.mem_map.1 hu
    rfl
  have hheap' : ∀ p ∈ um.cachedUsers, clearFriends (st.users.heap p) = um.heap p := by
    intro p hp
    rw [hheap p]
    exact hclear _ (List.mem_map_of_mem hp)
  refine ⟨rows, hrows, by rw [hsql], ?_⟩
  rw [hvisited]
  refine ⟨?_, fun id => ?_⟩
  · have husers : um.users = visited.map userOfRow := hum ▸ users_foldl_loadUser _ new
    rw [← husers, users, users, hcached, List.map_map]
    exact List.map_congr_left hheap'
  · have hrecord : um.record id = ((visited.map userOfRow).reverse.find? fun u => u.userid = id) := by
      rw [← hum, record_foldl_loadUser]
      exact Option.or_none
    rw [← hrecord, record, record, hmap, Option.map_map]
    cases hid : um.mapUsers.get? id with
    | none => rfl
    | some p => exact congrArg some (hheap' p (um.mapped hid).1)

/-- **What a start makes of the table.** Where the cursor shows nothing behind an empty table, the list
holds the stored records in descending order of their ids, and the map is the stored one. -/
theorem UserTable.init {env : SqlEnv} {sql : MySql} {st : Store} (h : UserTable sql.db)
    (hcursor : sql.db.rows "t_user" = [] → env.stale sql.sent = none)
    (hinit : init env ⟨sql, new⟩ = (true, st)) :
    st.users.users.map clearFriends = loadOrder sql.db ∧
      ∀ id, (st.users.record id).map clearFriends = stored sql.db id := by
  obtain ⟨rows, hrows, -, husers, hrecord⟩ := init_loaded hinit
  have hvisited : (QueryResult.visited (env.stale sql.sent) rows).map userOfRow =
      loadOrder sql.db := by
    have hrows' : rows = (userQuery.rows (sql.db.rows "t_user")).map fun r =>
        userQuery.exprs.map fun e => r e.column := Db.select_eq_some hrows
    have hvisit : QueryResult.visited (env.stale sql.sent) rows = rows := by
      unfold QueryResult.visited
      split_ifs with hempty
      · rw [List.isEmpty_iff] at hempty
        rw [hempty] at hrows' ⊢
        have hnil : userQuery.rows (sql.db.rows "t_user") = [] := List.map_eq_nil_iff.1 hrows'.symm
        have hperm := perm_userQuery (sql.db.rows "t_user")
        rw [hnil] at hperm
        rw [hcursor hperm.nil_eq.symm]
        rfl
      · rfl
    rw [hvisit, hrows', List.map_map]
    rfl
  rw [hvisited] at husers hrecord
  refine ⟨husers, fun id => ?_⟩
  rw [hrecord]
  refine Option.ext fun u => ?_
  -- the map keeps the last row of an id, and no id has two
  have hdistinct : (loadOrder sql.db).reverse.Pairwise fun u v => u.userid ≠ v.userid :=
    List.pairwise_reverse.2 (h.loadOrder_pairwise.imp fun hlt => hlt.ne)
  rw [find?_eq_some_of_distinct hdistinct, List.mem_reverse, h.stored_eq_some, loadOrder]
  simp only [List.mem_map, (perm_userQuery _).mem_iff]

end UserManager

end AimChat
