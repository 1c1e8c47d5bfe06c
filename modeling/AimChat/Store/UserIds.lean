import AimChat.Store.UserTable

/-! # Ids of users and groups

The primary key of `t_user` and what gives out its values: the two counters of `UserManager`, seeded by
`LoadUserFromDB` and advanced by every `AddUser` and `AddGroup`. A row that is there keeps the key, so an
`INSERT` that succeeds has a new id, and the list and the map go on holding the same records. -/

namespace AimChat

open Sql

namespace UserManager

/-! ## The primary key -/

/-- The values of the primary key of `t_user`. -/
def userIds (db : Db) : List Value := (db.rows "t_user").map fun r => r "f_user_id"

/-- A `t_user` whose primary key holds distinct values of `int32_t`. -/
structure IdTable (db : Db) : Prop where
  key : ∃ t, db.tables "t_user" = some t ∧ t.key = "f_user_id"
  int32 : ∀ v ∈ userIds db, ∃ n, v = .int n ∧ IsInt32 n
  distinct : (userIds db).Nodup

variable {db db' : Db}

/-- The table of users as `Init` makes it is one. -/
theorem UserTable.idTable (h : UserTable db) : IdTable db where
  key := by
    obtain ⟨t, ht, -, hkey⟩ := h.table
    exact ⟨t, ht, hkey⟩
  int32 := by
    intro v hv
    obtain ⟨r, hr, rfl⟩ := List.mem_map.1 hv
    exact h.ids r hr
  distinct := List.pairwise_map.2 h.distinct

/-- The fresh tables have one. -/
theorem idTable_fresh : IdTable MySqlManager.freshDb := by
  have h := userTable_fresh.idTable
  rw [freshTables_eq] at h
  exact h

/-- The key alone matters. -/
theorem IdTable.of_userIds_eq (h : IdTable db) (hkey : ∃ t, db'.tables "t_user" = some t ∧ t.key = "f_user_id")
    (hids : userIds db' = userIds db) : IdTable db' where
  key := hkey
  int32 := by
    rw [hids]
    exact h.int32
  distinct := by
    rw [hids]
    exact h.distinct

/-- The rows of a table that is there. -/
theorem userIds_of_table {t : Table} (ht : db.tables "t_user" = some t) :
    userIds db = t.rows.map fun r => r "f_user_id" := by
  rw [userIds, Db.rows, ht]
  rfl

theorem IdTable.key_of_table {t : Table} (h : IdTable db) (ht : db.tables "t_user" = some t) :
    t.key = "f_user_id" := by
  obtain ⟨t', ht', hpk⟩ := h.key
  cases ht.symm.trans ht'
  exact hpk

/-- An `INSERT` into `t_user` adds a new value of the key. -/
theorem IdTable.insert {now n : Int} {values : List (String × Literal)} (h : IdTable db)
    (hexec : db.exec now (.insert "t_user" values) = some db')
    (hid : values.lookup "f_user_id" = some (.int n)) (hn : IsInt32 n) :
    IdTable db' ∧ .int n ∉ userIds db ∧ userIds db' = userIds db ++ [.int n] := by
  obtain ⟨t, named, ht, hnamed, -, hkey, rfl⟩ := Db.exec_insert hexec
  have hpk := h.key_of_table ht
  have hnew : t.newRow now named "f_user_id" = .int n := t.newRow_eq hnamed hid rfl
  rw [hpk, hnew] at hkey
  have hfresh : .int n ∉ userIds db := by
    rw [userIds_of_table ht]
    intro hmem
    obtain ⟨r, hr, heq⟩ := List.mem_map.1 hmem
    exact hkey r hr heq
  have hids : userIds (db.set "t_user" { t with rows := t.rows ++ [t.newRow now named] }) =
      userIds db ++ [.int n] := by
    rw [userIds_of_table ht, userIds, Db.rows_set, if_pos rfl, List.map_append, List.map_singleton, hnew]
  refine ⟨⟨⟨_, rfl, hpk⟩, ?_, ?_⟩, hfresh, hids⟩
  · rw [hids]
    intro v hv
    rcases List.mem_append.1 hv with hv | hv
    · exact h.int32 v hv
    · exact ⟨n, List.mem_singleton.1 hv, hn⟩
  · rw [hids, List.nodup_append]
    refine ⟨h.distinct, List.nodup_singleton _, fun v hv v' hv' heq => ?_⟩
    rw [List.mem_singleton.1 hv'] at heq
    exact hfresh (heq ▸ hv)

/-- An `UPDATE` that does not name the key leaves its values. -/
theorem IdTable.update {now userid : Int} {values : List (String × Literal)} (h : IdTable db)
    (hexec : db.exec now (.update "t_user" values (.eq "f_user_id" userid)) = some db')
    (hvalues : values.lookup "f_user_id" = none) : IdTable db' ∧ userIds db' = userIds db := by
  obtain ⟨t, named, ht, hnamed, rfl⟩ := Db.exec_update hexec
  have hpk := h.key_of_table ht
  have hid : named.lookup "f_user_id" = none := lookup_eq_none hnamed hvalues
  have hids : userIds (db.set "t_user" { t with rows := t.rows.map (changed named userid) }) = userIds db := by
    rw [userIds_of_table ht, userIds, Db.rows_set, if_pos rfl, List.map_map]
    exact List.map_congr_left fun r _ => changed_id hid userid r
  exact ⟨h.of_userIds_eq ⟨_, rfl, hpk⟩ hids, hids⟩

/-- A statement about another table leaves the key. -/
theorem IdTable.of_other {now : Int} {stmt : Stmt} (h : IdTable db) (hexec : db.exec now stmt = some db')
    (hne : "t_user" ≠ stmt.table) : IdTable db' ∧ userIds db' = userIds db := by
  have hids : userIds db' = userIds db := by
    rw [userIds, Db.rows_exec_other hexec hne, userIds]
  refine ⟨h.of_userIds_eq ?_ hids, hids⟩
  rw [Db.exec_other hexec hne]
  exact h.key

/-- A statement that leaves the key of `t_user`. -/
def KeepsKey (stmt : Stmt) : Prop :=
  "t_user" ≠ stmt.table ∨ ∃ values userid, stmt = .update "t_user" values (.eq "f_user_id" userid) ∧
    values.lookup "f_user_id" = none

theorem IdTable.keepsKey {now : Int} {stmt : Stmt} (h : IdTable db) (hexec : db.exec now stmt = some db')
    (hkeeps : KeepsKey stmt) : IdTable db' ∧ userIds db' = userIds db := by
  rcases hkeeps with hne | ⟨values, userid, rfl, hvalues⟩
  · exact h.of_other hexec hne
  · exact h.update hexec hvalues

/-! ## The list and the map -/

/-- `m_cachedUsers` and `m_mapUsers` hold the same records: each once in the list, and under its own
`userid`, and no other id, in the map. -/
def TwoIndexes (um : UserManager) : Prop :=
  um.cachedUsers.Nodup ∧
    ∀ id p, um.mapUsers.get? id = some p ↔ p ∈ um.cachedUsers ∧ (um.heap p).userid = id

/-- `m_mapUsers` has a record under the id. -/
def Mapped (um : UserManager) (id : Int) : Prop := ∃ p, um.mapUsers.get? id = some p

/-- Nothing has changed in the list, in the map, in the counters and in this part of the records. -/
structure SameUsers {α : Type} (part : User → α) (um um' : UserManager) : Prop where
  cached : um'.cachedUsers = um.cachedUsers
  map : um'.mapUsers = um.mapUsers
  record : ∀ p, part (um'.heap p) = part (um.heap p)
  baseUserID : um'.baseUserID = um.baseUserID
  baseGroupID : um'.baseGroupID = um.baseGroupID

namespace SameUsers

variable {α : Type} {part : User → α} {um um' um'' : UserManager}

theorem refl (um : UserManager) : SameUsers part um um := ⟨rfl, rfl, fun _ => rfl, rfl, rfl⟩

theorem of_eq (h : um' = um) : SameUsers part um um' := by
  rw [h]
  exact refl um

theorem trans (h : SameUsers part um um') (h' : SameUsers part um' um'') : SameUsers part um um'' :=
  ⟨h'.cached.trans h.cached, h'.map.trans h.map, fun p => (h'.record p).trans (h.record p),
    h'.baseUserID.trans h.baseUserID, h'.baseGroupID.trans h.baseGroupID⟩

theorem mapped_iff (h : SameUsers part um um') (id : Int) : Mapped um' id ↔ Mapped um id := by
  unfold Mapped
  rw [h.map]

/-- Changing a record changes no other part of it. -/
theorem modify (um : UserManager) (p : UserPtr) (f : User → User) (hf : ∀ u, (f u).userid = u.userid)
    (hpart : ∀ u, part (f u) = part u) : SameUsers part um (um.modify p f hf) := by
  refine ⟨rfl, rfl, fun q => ?_, rfl, rfl⟩
  show part (if q = p then f (um.heap q) else um.heap q) = _
  split_ifs
  · exact hpart _
  · rfl

theorem modifyById (um : UserManager) (userid : Int) (f : User → User) (hf : ∀ u, (f u).userid = u.userid)
    (hpart : ∀ u, part (f u) = part u) : SameUsers part um (um.modifyById userid f hf) := by
  unfold UserManager.modifyById
  cases um.mapUsers.get? userid with
  | none => exact refl um
  | some p => exact modify um p f hf hpart

/-- Friends are no part of it. -/
theorem linked (hpart : ∀ u, part (clearFriends u) = part u) (smallid greatid : Int) (um : UserManager) :
    SameUsers part um (linked smallid greatid um) := by
  have hadd : ∀ (a b : Int) (um : UserManager), SameUsers part um (um.addFriend a b) := by
    intro a b um
    refine modifyById um a _ _ fun u => ?_
    rw [← hpart u, ← hpart]
    rfl
  unfold UserManager.linked
  split_ifs
  · exact (hadd ..).trans (hadd ..)
  · exact hadd ..
  · exact refl um

theorem unlinked (hpart : ∀ u, part (clearFriends u) = part u) (userid friendid : Int) (um : UserManager) :
    SameUsers part um (unlinked userid friendid um) := by
  have hremove : ∀ (a b : Int) (um : UserManager), SameUsers part um (um.removeFriend a b) := by
    intro a b um
    refine modifyById um a _ _ fun u => ?_
    rw [← hpart u, ← hpart]
    rfl
  exact (hremove ..).trans (hremove ..)

theorem loadAllFriends (hpart : ∀ u, part (clearFriends u) = part u) (env : SqlEnv) (ps : List UserPtr)
    (st : Store) : SameUsers part st.users (loadAllFriends env st ps).users := by
  obtain ⟨-, hmap, hcached, hbase, hgroup, hheap⟩ := loadAllFriends_frame env ps st
  refine ⟨hcached, hmap, fun p => ?_, hbase, hgroup⟩
  rw [← hpart, hheap p, hpart]

end SameUsers

/-- Nothing has changed in the list, in the map, in the ids of the records and in the counters. -/
abbrev SameIndexes : UserManager → UserManager → Prop := SameUsers User.userid

theorem SameIndexes.modifyById (um : UserManager) (userid : Int) (f : User → User)
    (hf : ∀ u, (f u).userid = u.userid) : SameIndexes um (um.modifyById userid f hf) :=
  SameUsers.modifyById um userid f hf hf

theorem SameIndexes.twoIndexes {um um' : UserManager} (h : SameIndexes um um') (hum : TwoIndexes um) :
    TwoIndexes um' := by
  unfold TwoIndexes
  rw [h.cached, h.map]
  simp only [h.record]
  exact hum

/-- A new record under an id that is not in the map joins both indexes. -/
theorem twoIndexes_share {um : UserManager} (h : TwoIndexes um) {u : User} (hnew : ¬ Mapped um u.userid) :
    TwoIndexes (um.share u) := by
  refine ⟨(um.share u).cached_nodup, fun id p => ?_⟩
  show (um.mapUsers.set u.userid um.fresh).get? id = some p ↔
    p ∈ um.cachedUsers ++ [um.fresh] ∧ (if p = um.fresh then u else um.heap p).userid = id
  rw [OrdMap.get?_set, List.mem_append, List.mem_singleton]
  by_cases hp : p = um.fresh
  · rw [if_pos hp, hp]
    have hmem : um.fresh ∉ um.cachedUsers := fun hmem => Nat.lt_irrefl _ (um.cached_lt _ hmem)
    split_ifs with hid
    · exact iff_of_true rfl ⟨.inr rfl, hid.symm⟩
    · refine iff_of_false (fun hget => hmem (um.mapped hget).1) fun hu => hid hu.2.symm
  · rw [if_neg hp]
    simp only [hp, or_false]
    split_ifs with hid
    · refine iff_of_false (fun hget => hp (Option.some.inj hget).symm) ?_
      rintro ⟨hmem, huserid⟩
      exact hnew ⟨p, (h.2 _ p).2 ⟨hmem, huserid.trans hid⟩⟩
    · exact h.2 id p

theorem mapped_share (um : UserManager) (u : User) (id : Int) :
    Mapped (um.share u) id ↔ id = u.userid ∨ Mapped um id := by
  unfold Mapped
  show (∃ p, (um.mapUsers.set u.userid um.fresh).get? id = some p) ↔ _
  rw [OrdMap.get?_set]
  split_ifs with hid
  · exact iff_of_true ⟨_, rfl⟩ (.inl hid)
  · rw [or_iff_right hid]

/-! ## Loading -/

theorem twoIndexes_loadUser {um : UserManager} (h : TwoIndexes um) {pRow : List Value}
    (hnew : ¬ Mapped um (userOfRow pRow).userid) : TwoIndexes (loadUser um pRow) := by
  have hshare := twoIndexes_share h hnew
  unfold loadUser
  dsimp only
  split_ifs <;> exact hshare

theorem mapped_loadUser (um : UserManager) (pRow : List Value) (id : Int) :
    Mapped (loadUser um pRow) id ↔ id = (userOfRow pRow).userid ∨ Mapped um id := by
  rw [← mapped_share]
  unfold loadUser
  dsimp only
  split_ifs <;> rfl

/-- Rows with different ids become the two indexes. -/
theorem twoIndexes_foldl_loadUser {pRows : List (List Value)} {um : UserManager} (h : TwoIndexes um)
    (hdistinct : (pRows.map fun pRow => (userOfRow pRow).userid).Nodup)
    (hnew : ∀ pRow ∈ pRows, ¬ Mapped um (userOfRow pRow).userid) :
    TwoIndexes (pRows.foldl loadUser um) ∧
      ∀ id, Mapped (pRows.foldl loadUser um) id ↔
        id ∈ pRows.map (fun pRow => (userOfRow pRow).userid) ∨ Mapped um id := by
  induction pRows generalizing um with
  | nil => exact ⟨h, fun id => (or_iff_right List.not_mem_nil).symm⟩
  | cons pRow pRows ih =>
      rw [List.map_cons, List.nodup_cons] at hdistinct
      obtain ⟨hfirst, hrest⟩ := hdistinct
      have hnew' : ∀ pRow' ∈ pRows, ¬ Mapped (loadUser um pRow) (userOfRow pRow').userid := by
        intro pRow' hmem
        rw [mapped_loadUser, not_or]
        refine ⟨fun heq => hfirst ?_, hnew pRow' (List.mem_cons_of_mem _ hmem)⟩
        rw [← heq]
        exact List.mem_map_of_mem hmem
      obtain ⟨hindexes, hmapped⟩ := ih (twoIndexes_loadUser h (hnew pRow List.mem_cons_self)) hrest hnew'
      refine ⟨hindexes, fun id => (hmapped id).trans ?_⟩
      rw [mapped_loadUser, List.map_cons, List.mem_cons, ← or_assoc, or_comm (a := id ∈ _)]

/-- The ids of the rows `LoadUserFromDB` reads are the values of the key. -/
theorem IdTable.loaded (h : IdTable db) {rows : List (List Value)} (hrows : db.select userQuery = some rows) :
    (rows.map fun pRow => (userOfRow pRow).userid).Nodup ∧
      ∀ id, id ∈ rows.map (fun pRow => (userOfRow pRow).userid) ↔ .int id ∈ userIds db := by
  have hselect : rows = (userQuery.rows (db.rows "t_user")).map fun r =>
      userQuery.exprs.map fun e => r e.column :=
    Db.select_eq_some hrows
  have hids : rows.map (fun pRow => (userOfRow pRow).userid) =
      ((userQuery.rows (db.rows "t_user")).map fun r => r "f_user_id").map Field.toInt32 := by
    rw [hselect, List.map_map, List.map_map]
    rfl
  have hperm : ((userQuery.rows (db.rows "t_user")).map fun r => r "f_user_id").Perm (userIds db) :=
    (perm_userQuery _).map _
  have hint : ∀ v ∈ userIds db, v = .int (Field.toInt32 v) := by
    intro v hv
    obtain ⟨n, rfl, hn⟩ := h.int32 v hv
    exact congrArg Value.int (wrap32_eq_self hn).symm
  rw [hids]
  constructor
  · refine ((hperm.map Field.toInt32).nodup_iff).2 (List.Nodup.map_on ?_ h.distinct)
    intro v hv v' hv' heq
    rw [hint v hv, hint v' hv', heq]
  · intro id
    rw [(hperm.map Field.toInt32).mem_iff, List.mem_map]
    constructor
    · rintro ⟨v, hv, rfl⟩
      rw [← hint v hv]
      exact hv
    · intro hmem
      exact ⟨_, hmem, (Value.int.inj (hint _ hmem)).symm⟩

/-- `LoadUserFromDB` reads no rows of an empty table only. -/
theorem IdTable.userIds_eq_nil (h : IdTable db) (hrows : db.select userQuery = some []) : userIds db = [] := by
  rw [List.eq_nil_iff_forall_not_mem]
  intro v hv
  obtain ⟨n, rfl, -⟩ := h.int32 v hv
  cases ((h.loaded hrows).2 n).2 hv

/-- Behind some empty result the cursor shows a row with this id: `Fetch` points at what the emptied vector
held, which no longer is a row. -/
def Shown (env : SqlEnv) (id : Int) : Prop := ∃ n, ∃ pRow ∈ env.stale n, (userOfRow pRow).userid = id

/-- The store as the program keeps it: the two indexes agree, and the map has the ids of `t_user`, and in
`shown` those that were loaded from behind an empty one. -/
structure Indexed (shown : Int → Prop) (st : Store) : Prop where
  table : IdTable st.sql.db
  indexes : TwoIndexes st.users
  stored : ∀ id, .int id ∈ userIds st.sql.db → Mapped st.users id
  mapped : ∀ id, Mapped st.users id → .int id ∈ userIds st.sql.db ∨ shown id

/-- **Loading.** A start makes the two indexes of `t_user`. -/
theorem indexed_init {env : SqlEnv} {sql : MySql} {st : Store} {shown : Int → Prop} (h : IdTable sql.db)
    (hshown : userIds sql.db = [] → ∀ id, Shown env id → shown id) (hinit : init env ⟨sql, new⟩ = (true, st)) :
    Indexed shown st ∧ st.sql.db = sql.db := by
  obtain ⟨rows, hrows, hst⟩ := init_eq hinit
  obtain ⟨hdistinct, hmem⟩ := h.loaded hrows
  generalize hvisited : QueryResult.visited (env.stale sql.sent) rows = pRows at hst
  -- the rows the cursor visits: those of the table, or what it shows behind an empty one
  have hvisit : (pRows.map fun pRow => (userOfRow pRow).userid).Nodup ∧
      (∀ id, .int id ∈ userIds sql.db → id ∈ pRows.map fun pRow => (userOfRow pRow).userid) ∧
      ∀ id ∈ pRows.map (fun pRow => (userOfRow pRow).userid), .int id ∈ userIds sql.db ∨ shown id := by
    rw [← hvisited]
    unfold QueryResult.visited
    split_ifs with hempty
    · rw [List.isEmpty_iff] at hempty
      have hnil : userIds sql.db = [] := h.userIds_eq_nil (hempty ▸ hrows)
      refine ⟨?_, fun id hid => ?_, fun id hid => .inr (hshown hnil id ?_)⟩
      · cases env.stale sql.sent with
        | none => exact List.nodup_nil
        | some pRow => exact List.nodup_singleton _
      · rw [hnil] at hid
        cases hid
      · obtain ⟨pRow, hpRow, rfl⟩ := List.mem_map.1 hid
        exact ⟨sql.sent, pRow, Option.mem_toList.1 hpRow, rfl⟩
    · exact ⟨hdistinct, fun id => (hmem id).2, fun id hid => .inl ((hmem id).1 hid)⟩
  obtain ⟨hnodup, hstored, hloaded⟩ := hvisit
  have hsame : SameIndexes _ _ := SameUsers.loadAllFriends (fun _ => rfl) env (pRows.foldl loadUser new).cachedUsers
    ⟨⟨sql.db, sql.sent + 1⟩, pRows.foldl loadUser new⟩
  have hdb : st.sql.db = sql.db := by
    rw [hst, (loadAllFriends_frame env _ _).1]
  rw [← hst] at hsame
  have hnew : TwoIndexes new := ⟨List.nodup_nil, fun id p => by simp [new]⟩
  -- the loop starts with empty indexes, so distinct ids keep them one to one
  have hnone : ∀ id, ¬ Mapped new id := by
    rintro id ⟨p, hp⟩
    cases hp
  obtain ⟨hindexes, hmapped⟩ := twoIndexes_foldl_loadUser hnew hnodup fun _ _ => hnone _
  have hmapped' : ∀ id, Mapped st.users id ↔ id ∈ pRows.map fun pRow => (userOfRow pRow).userid := by
    intro id
    rw [hsame.mapped_iff, hmapped, or_iff_left (hnone id)]
  refine ⟨⟨by rwa [hdb], hsame.twoIndexes hindexes, fun id hid => ?_, fun id hid => ?_⟩, hdb⟩
  · rw [hdb] at hid
    exact (hmapped' id).2 (hstored id hid)
  · rw [hdb]
    exact hloaded id ((hmapped' id).1 hid)

/-- The records after loading are as the manager was initialised, or made of rows. -/
theorem heap_foldl_loadUser (pRows : List (List Value)) (um : UserManager) (p : UserPtr) :
    (pRows.foldl loadUser um).heap p = um.heap p ∨
      ∃ pRow ∈ pRows, (pRows.foldl loadUser um).heap p = userOfRow pRow := by
  induction pRows generalizing um with
  | nil => exact .inl rfl
  | cons pRow pRows ih =>
      rcases ih (loadUser um pRow) with hsame | ⟨pRow', hmem, hrow⟩
      · have hload : (loadUser um pRow).heap p = if p = um.fresh then userOfRow pRow else um.heap p := by
          show (loadUser um pRow).heap p = (um.share (userOfRow pRow)).heap p
          unfold loadUser
          dsimp only
          split_ifs <;> rfl
        rw [List.foldl_cons, hsame, hload]
        split_ifs
        · exact .inr ⟨pRow, List.mem_cons_self, rfl⟩
        · exact .inl rfl
      · exact .inr ⟨pRow', List.mem_cons_of_mem _ hmem, hrow⟩

/-- **The records of a start.** Each one, but for its friends, is as it was initialised, a row's, or what the
cursor shows behind an empty table. -/
theorem record_init {α : Type} {part : User → α} (hpart : ∀ u, part (clearFriends u) = part u) {env : SqlEnv}
    {sql : MySql} {st : Store} (htable : IdTable sql.db) (hinit : init env ⟨sql, new⟩ = (true, st)) (p : UserPtr) :
    part (st.users.heap p) = part {} ∨
      (∃ r ∈ sql.db.rows "t_user", part (st.users.heap p) = part (rowUser r)) ∨
      userIds sql.db = [] ∧ ∃ pRow ∈ env.stale sql.sent, part (st.users.heap p) = part (userOfRow pRow) := by
  obtain ⟨rows, hrows, hst⟩ := init_eq hinit
  have hselect : rows = (userQuery.rows (sql.db.rows "t_user")).map fun r =>
      userQuery.exprs.map fun e => r e.column :=
    Db.select_eq_some hrows
  -- friends are loaded into the records afterwards
  have hsame : SameUsers part _ _ := SameUsers.loadAllFriends hpart env
    ((QueryResult.visited (env.stale sql.sent) rows).foldl loadUser new).cachedUsers
    ⟨⟨sql.db, sql.sent + 1⟩, (QueryResult.visited (env.stale sql.sent) rows).foldl loadUser new⟩
  rw [← hst] at hsame
  rw [hsame.record]
  dsimp only
  rcases heap_foldl_loadUser (QueryResult.visited (env.stale sql.sent) rows) new p with
    hnew | ⟨pRow, hvisited, hrow⟩
  · rw [hnew]
    exact .inl rfl
  · rw [hrow]
    rcases QueryResult.mem_visited.1 hvisited with hmem | ⟨hempty, hbehind⟩
    · rw [hselect] at hmem
      obtain ⟨r, hr, rfl⟩ := List.mem_map.1 hmem
      exact .inr (.inl ⟨r, (perm_userQuery _).mem_iff.1 hr, rfl⟩)
    · rw [hempty] at hrows
      exact .inr (.inr ⟨htable.userIds_eq_nil hrows, pRow, hbehind, rfl⟩)

/-! ## Operations -/

/-- The id an operation hands out: `AddUser` and `AddGroup` do when they return true. -/
def handedOut (env : SqlEnv) (st : Store) : StoreOp → Option Int
  | .addUser username nickname password mail =>
      match addUser env (newUser username nickname password mail) st with
      | (true, st) => some st.users.baseUserID
      | (false, _) => none
  | .addGroup groupname ownerid =>
      match addGroup env groupname ownerid st with
      | (true, groupid, _) => some groupid
      | (false, _) => none
  | _ => none

/-- The id handed out is that of the record created. -/
theorem handedOut_eq_some_iff {env : SqlEnv} {st : Store} {op : StoreOp} {n : Int} :
    handedOut env st op = some n ↔ Creates env st n op := by
  cases op with
  | addUser username nickname password mail =>
      rcases addUser_cases env (newUser username nickname password mail) st with
        ⟨sql, heq, -⟩ | ⟨sql, heq, -⟩ <;> simp only [handedOut, Creates, heq]
      · exact iff_of_false (fun h => by cases h) fun h => by cases h.1
      · simp only [Option.some.injEq, true_and]
        exact eq_comm
  | addGroup groupname ownerid =>
      rcases addGroup_cases env groupname ownerid st with
        ⟨sql, heq, -⟩ | ⟨sql, heq, -⟩ <;> simp only [handedOut, Creates, heq]
      · exact iff_of_false (fun h => by cases h) fun h => by cases h.1
      · simp only [Option.some.injEq, true_and]
        exact eq_comm
  | _ => exact iff_of_false (fun h => by cases h) id

/-- **What an operation does to the ids.** It hands out an id, inserts a row with it and shares its record,
or it leaves the key and both indexes. -/
theorem step_cases {env : SqlEnv} {st st' : Store} {op : StoreOp} (hop : op ≠ .restart)
    (hstep : step env st op = .ok st') :
    (handedOut env st op = none ∧ SameIndexes (st.users.advanced op) st'.users ∧
        (st'.sql.db = st.sql.db ∨
          ∃ now stmt, st.sql.db.exec now stmt = some st'.sql.db ∧ KeepsKey stmt)) ∨
      ∃ u now values, handedOut env st op = some u.userid ∧ st'.users = (st.users.advanced op).share u ∧
        st.sql.db.exec now (.insert "t_user" values) = some st'.sql.db ∧
        values.lookup "f_user_id" = some (.int u.userid) ∧ IsInt32 u.userid := by
  -- whatever creates no record hands out no id
  have hnone : ∀ {op : StoreOp}, (∀ n, ¬ Creates env st n op) → handedOut env st op = none := fun h =>
    Option.eq_none_iff_forall_ne_some.2 fun n hn => h n (handedOut_eq_some_iff.1 hn)
  have hother : "t_user" ≠ "t_user_relationship" := by decide
  cases operated env hop hstep with
  | failed op hstmt hfalse =>
      exact .inl ⟨hnone (not_creates_of_failed env hstmt hfalse), SameUsers.refl _,
        .inl (MySql.db_of_execute_false hfalse)⟩
  | idle op hfriends hdb =>
      refine .inl ⟨hnone (hfriends.not_creates env), ?_, .inl hdb⟩
      rw [hfriends.advanced]
      exact SameUsers.refl _
  | addUser username nickname password mail hexec =>
      refine .inr ⟨_, _, _, handedOut_eq_some_iff.2 ⟨?_, rfl⟩, rfl, (MySql.db_exec_of_execute hexec), rfl,
        isInt32_wrap32 _⟩
      rw [fst_addUser, hexec]
  | addGroup groupname ownerid hexec =>
      refine .inr ⟨_, _, _, handedOut_eq_some_iff.2 ⟨?_, rfl⟩, rfl, (MySql.db_exec_of_execute hexec), rfl,
        isInt32_wrap32 _⟩
      rw [fst_addGroup, hexec]
  | updateUserInfo userid info hexec =>
      exact .inl ⟨rfl, SameIndexes.modifyById .., .inr ⟨_, _, (MySql.db_exec_of_execute hexec),
        .inr ⟨_, _, rfl, rfl⟩⟩⟩
  | modifyUserPassword userid newpassword hexec =>
      exact .inl ⟨rfl, SameIndexes.modifyById .., .inr ⟨_, _, (MySql.db_exec_of_execute hexec),
        .inr ⟨_, _, rfl, rfl⟩⟩⟩
  | linked smallid greatid hlt hexec =>
      exact .inl ⟨rfl, SameUsers.linked (fun _ => rfl) .., .inr ⟨_, _, (MySql.db_exec_of_execute hexec),
        .inl hother⟩⟩
  | unlinked op hfriends x y hexec =>
      refine .inl ⟨hnone (hfriends.not_creates env), ?_, .inr ⟨_, _, (MySql.db_exec_of_execute hexec),
        .inl hother⟩⟩
      rw [hfriends.advanced]
      exact SameUsers.unlinked (fun _ => rfl) ..

/-- With a primary key in order, the id handed out is a new one. -/
theorem step_ids {env : SqlEnv} {st st' : Store} {op : StoreOp} (h : IdTable st.sql.db) (hop : op ≠ .restart)
    (hstep : step env st op = .ok st') :
    IdTable st'.sql.db ∧
      ((handedOut env st op = none ∧ userIds st'.sql.db = userIds st.sql.db ∧
          SameIndexes (st.users.advanced op) st'.users) ∨
        ∃ u, handedOut env st op = some u.userid ∧ .int u.userid ∉ userIds st.sql.db ∧
          userIds st'.sql.db = userIds st.sql.db ++ [.int u.userid] ∧
          st'.users = (st.users.advanced op).share u) := by
  rcases step_cases hop hstep with
    ⟨hnone, hsame, hdb | ⟨now, stmt, hexec, hkeeps⟩⟩ | ⟨u, now, values, hsome, husers, hexec, hid, hn⟩
  · rw [hdb]
    exact ⟨h, .inl ⟨hnone, rfl, hsame⟩⟩
  · obtain ⟨htable, hids⟩ := h.keepsKey hexec hkeeps
    exact ⟨htable, .inl ⟨hnone, hids, hsame⟩⟩
  · obtain ⟨htable, hfresh, hids⟩ := h.insert hexec hid hn
    exact ⟨htable, .inr ⟨u, hsome, hfresh, hids, husers⟩⟩

/-- Advancing a counter changes no index. -/
theorem twoIndexes_advanced {um : UserManager} (h : TwoIndexes um) (op : StoreOp) :
    TwoIndexes (um.advanced op) := by
  cases op <;> exact h

theorem mapped_advanced (um : UserManager) (op : StoreOp) (id : Int) :
    Mapped (um.advanced op) id ↔ Mapped um id := by
  cases op <;> rfl

/-- No id is handed out that the cursor shows behind an empty result. -/
def MissesShown (env : SqlEnv) (shown : Int → Prop) (st : Store) (op : StoreOp) : Prop :=
  ∀ id, handedOut env st op = some id → ¬ shown id

/-- The ids loaded from behind an empty `t_user`: none when the server started on a table with rows. -/
def shownFrom (env : SqlEnv) (db : Db) (id : Int) : Prop := userIds db = [] ∧ Shown env id

/-- An operation keeps the two indexes, and the table keeps its rows. -/
theorem indexed_step {env : SqlEnv} {db₀ : Db} {st st' : Store} {op : StoreOp}
    (h : Indexed (shownFrom env db₀) st ∧ (userIds st.sql.db = [] → userIds db₀ = []))
    (hmisses : MissesShown env (shownFrom env db₀) st op) (hstep : step env st op = .ok st') :
    Indexed (shownFrom env db₀) st' ∧ (userIds st'.sql.db = [] → userIds db₀ = []) := by
  obtain ⟨hst, hrows⟩ := h
  by_cases hop : op = .restart
  · obtain ⟨hindexed, hdb⟩ := @indexed_init env st.sql st' (shownFrom env db₀) hst.table
      (fun hnil id hid => ⟨hrows hnil, hid⟩) (step_restart (hop ▸ hstep))
    refine ⟨hindexed, ?_⟩
    rw [hdb]
    exact hrows
  · obtain ⟨htable, ⟨-, hids, hsame⟩ | ⟨u, hsome, hfresh, hids, husers⟩⟩ := step_ids hst.table hop hstep
    · refine ⟨⟨htable, hsame.twoIndexes (twoIndexes_advanced hst.indexes op), fun id => ?_, fun id => ?_⟩, ?_⟩
      · rw [hsame.mapped_iff, mapped_advanced, hids]
        exact hst.stored id
      · rw [hsame.mapped_iff, mapped_advanced, hids]
        exact hst.mapped id
      · rw [hids]
        exact hrows
    · -- the new id is neither one of the table's nor one the cursor has shown
      have hnew : ¬ Mapped (st.users.advanced op) u.userid := by
        rw [mapped_advanced]
        intro hmapped
        exact (hst.mapped _ hmapped).elim hfresh (hmisses _ hsome)
      refine ⟨⟨htable, ?_, fun id => ?_, fun id => ?_⟩, fun hnil => ?_⟩
      · rw [husers]
        exact twoIndexes_share (twoIndexes_advanced hst.indexes op) hnew
      · rw [husers, mapped_share, mapped_advanced, hids, List.mem_append, List.mem_singleton, Value.int.injEq]
        rintro (hid | rfl)
        · exact .inr (hst.stored id hid)
        · exact .inl rfl
      · rw [husers, mapped_share, mapped_advanced, hids, List.mem_append, List.mem_singleton, Value.int.injEq]
        rintro (rfl | hid)
        · exact .inl (.inr rfl)
        · exact (hst.mapped id hid).imp_left .inl
      · rw [hids] at hnil
        cases (List.append_eq_nil_iff.1 hnil).2

/-- A server whose empty results show cleared fields. -/
def clearedFields : SqlEnv := { SqlEnv.ideal with stale := fun _ => some (List.replicate 12 (.text [])) }

/-- The start on fresh tables: a record without a row, read from cleared fields. -/
def clearedStore : Store := (init clearedFields ⟨⟨MySqlManager.freshDb, 6⟩, new⟩).2

theorem init_cleared : init clearedFields ⟨⟨MySqlManager.freshDb, 6⟩, new⟩ = (true, clearedStore) :=
  Prod.ext (by decide +kernel) rfl

/-! ## The counters -/

/-- The counters within their ranges: below `2^31`, and the one for groups not below the boundary. -/
def Seeded (um : UserManager) : Prop :=
  0 ≤ um.baseUserID ∧ um.baseUserID < 2147483648 ∧
    0xFFFFFFF ≤ um.baseGroupID ∧ um.baseGroupID < 2147483648

/-- `++` on the counter does not overflow, and the id handed out is on its side of the boundary; for
`AddGroup` also the id it hands back when it fails. -/
def RangesApart (env : SqlEnv) (st : Store) : StoreOp → Prop
  | .addUser username nickname password mail =>
      st.users.baseUserID + 1 < 2147483648 ∧
        ∀ id, handedOut env st (.addUser username nickname password mail) = some id → id < 0xFFFFFFF
  | .addGroup groupname ownerid =>
      st.users.baseGroupID + 1 < 2147483648 ∧ 0xFFFFFFF ≤ (addGroup env groupname ownerid st).2.1
  | _ => True

/-- Before an `AddUser` the counter is below the last user id, or below the last `int32_t` while the
`INSERT` is not carried out; before an `AddGroup` it is below the last `int32_t`. -/
def CountersFit (env : SqlEnv) (st : Store) : StoreOp → Prop
  | .addUser username nickname password mail =>
      st.users.baseUserID < 0xFFFFFFE ∨ st.users.baseUserID < 2147483647 ∧
        (MySql.execute env (addUserStmt (nextId st.users.baseUserID) (newUser username nickname password mail))
          st.sql).1 = false
  | .addGroup _ _ => st.users.baseGroupID < 2147483647
  | _ => True

/-- `++` does not overflow. -/
def NoOverflow (um : UserManager) : StoreOp → Prop
  | .addUser .. => um.baseUserID + 1 < 2147483648
  | .addGroup .. => um.baseGroupID + 1 < 2147483648
  | _ => True

/-- A column is read as an `int32_t`. -/
theorem isInt32_toInt32 (v : Value) : IsInt32 (Field.toInt32 v) := by
  cases v with
  | null => exact by decide
  | int n => exact isInt32_wrap32 n
  | text b =>
      show IsInt32 (atoi b)
      unfold atoi
      cases strtol (cStr b) with
      | none => exact by decide
      | some n => exact isInt32_wrap32 _

theorem baseUserID_loadUser (um : UserManager) (pRow : List Value) :
    (loadUser um pRow).baseUserID =
      if (userOfRow pRow).userid < 0xFFFFFFF ∧ (userOfRow pRow).userid > um.baseUserID then
        (userOfRow pRow).userid
      else um.baseUserID := by
  unfold loadUser
  simp only [apply_ite UserManager.baseUserID, ite_self]
  rfl

theorem baseGroupID_loadUser (um : UserManager) (pRow : List Value) :
    (loadUser um pRow).baseGroupID =
      if (userOfRow pRow).userid ≥ 0xFFFFFFF ∧ (userOfRow pRow).userid > um.baseGroupID then
        (userOfRow pRow).userid
      else um.baseGroupID := by
  unfold loadUser
  simp only [apply_ite UserManager.baseGroupID, ite_self]
  rfl

/-- A row is loaded with its id below `2^31`, and a counter takes it over on its side of the boundary. -/
theorem seeded_loadUser {um : UserManager} (h : Seeded um) (pRow : List Value) : Seeded (loadUser um pRow) := by
  have hid : IsInt32 (userOfRow pRow).userid := isInt32_toInt32 _
  obtain ⟨-, hlt⟩ := hid
  obtain ⟨huser, huser', hgroup, hgroup'⟩ := h
  unfold Seeded
  rw [baseUserID_loadUser, baseGroupID_loadUser]
  split_ifs <;> omega

/-- A start seeds the counters. -/
theorem seeded_init {env : SqlEnv} {sql : MySql} {st : Store} (h : init env ⟨sql, new⟩ = (true, st)) :
    Seeded st.users := by
  obtain ⟨rows, -, hst⟩ := init_eq h
  have hfold : ∀ (pRows : List (List Value)) (um : UserManager), Seeded um → Seeded (pRows.foldl loadUser um) := by
    intro pRows
    induction pRows with
    | nil => exact fun _ hum => hum
    | cons pRow pRows ih => exact fun um hum => ih _ (seeded_loadUser hum pRow)
  have hsame : SameIndexes _ _ := SameUsers.loadAllFriends (fun _ => rfl) env
    ((QueryResult.visited (env.stale sql.sent) rows).foldl loadUser new).cachedUsers
    ⟨⟨sql.db, sql.sent + 1⟩, (QueryResult.visited (env.stale sql.sent) rows).foldl loadUser new⟩
  rw [← hst] at hsame
  unfold Seeded
  rw [hsame.baseUserID, hsame.baseGroupID]
  exact hfold _ new (by unfold Seeded; decide)

/-- The next id while the counter has room. -/
theorem nextId_eq {base : Int} (hlo : 0 ≤ base) (hhi : base + 1 < 2147483648) : nextId base = base + 1 := by
  refine wrap32_eq_self ⟨?_, hhi⟩
  omega

/-- The counters stay seeded while none overflows. -/
theorem seeded_step {env : SqlEnv} {st st' : Store} {op : StoreOp} (h : Seeded st.users)
    (hno : NoOverflow st.users op) (hstep : step env st op = .ok st') : Seeded st'.users := by
  by_cases hop : op = .restart
  · exact seeded_init (step_restart (hop ▸ hstep))
  · have hadvanced : Seeded (st.users.advanced op) := by
      obtain ⟨huser, huser', hgroup, hgroup'⟩ := h
      cases op with
      | addUser username nickname password mail =>
          have hnext : nextId st.users.baseUserID = _ := nextId_eq huser hno
          refine ⟨?_, ?_, hgroup, hgroup'⟩
          · show 0 ≤ nextId _
            omega
          · show nextId _ < _
            rw [hnext]
            exact hno
      | addGroup groupname ownerid =>
          have hnext : nextId st.users.baseGroupID = _ := nextId_eq (by omega) hno
          refine ⟨huser, huser', ?_, ?_⟩
          · show 0xFFFFFFF ≤ nextId _
            omega
          · show nextId _ < _
            rw [hnext]
            exact hno
      | _ => exact ⟨huser, huser', hgroup, hgroup'⟩
    rcases step_cases hop hstep with ⟨-, hsame, -⟩ | ⟨u, -, -, -, husers, -⟩
    · unfold Seeded
      rw [hsame.baseUserID, hsame.baseGroupID]
      exact hadvanced
    · rw [husers]
      exact hadvanced

/-- **One step.** The ranges stay apart exactly when the counters fit. -/
theorem rangesApart_iff {env : SqlEnv} {st : Store} (h : Seeded st.users) (op : StoreOp) :
    RangesApart env st op ↔ CountersFit env st op := by
  obtain ⟨huser, huser', hgroup, hgroup'⟩ := h
  cases op with
  | addUser username nickname password mail =>
      show _ ∧ (∀ id, handedOut env st (.addUser username nickname password mail) = some id → _) ↔ _ ∨ _ ∧ _
      rcases addUser_cases env (newUser username nickname password mail) st with
        ⟨sql, heq, -, hexec⟩ | ⟨sql, heq, hexec⟩ <;> simp only [handedOut, heq, hexec]
      · simp only [reduceCtorEq, false_implies, implies_true, and_true]
        omega
      · -- the id handed out is the counter's next value
        have hnext : ∀ hroom : st.users.baseUserID + 1 < 2147483648,
            (st.users.takeUserID.share (addedUser (nextId st.users.baseUserID)
              (newUser username nickname password mail))).baseUserID = st.users.baseUserID + 1 :=
          fun hroom => nextId_eq huser hroom
        simp only [Option.some.injEq, forall_eq', Bool.true_eq_false, and_false, or_false]
        constructor
        · rintro ⟨hroom, hlt⟩
          have := hnext hroom
          omega
        · intro hlt
          have := hnext (by omega)
          omega
  | addGroup groupname ownerid =>
      have hid : (addGroup env groupname ownerid st).2.1 = nextId st.users.baseGroupID := by
        rcases addGroup_cases env groupname ownerid st with ⟨sql, heq, -⟩ | ⟨sql, heq, -⟩ <;> rw [heq]
      show _ ∧ 0xFFFFFFF ≤ (addGroup env groupname ownerid st).2.1 ↔ st.users.baseGroupID < 2147483647
      rw [hid]
      constructor
      · rintro ⟨hroom, -⟩
        omega
      · intro hlt
        have hnext := @nextId_eq st.users.baseGroupID (by omega) (by omega)
        omega
  | _ => exact Iff.rfl

/-- **The ranges of ids.** From a start on any `t_user` that the loader accepts, users' and groups' ids stay
on their sides of the boundary and no counter overflows exactly when the counters fit at every step. -/
theorem rangesApart_run_iff {env : SqlEnv} {sql : MySql} {st₀ : Store}
    (hstart : init env ⟨sql, new⟩ = (true, st₀)) (ops : List StoreOp) :
    Run.Always (step env) (RangesApart env) st₀ ops ↔ Run.Always (step env) (CountersFit env) st₀ ops := by
  have hno : ∀ st op, Seeded st.users → RangesApart env st op → NoOverflow st.users op := by
    intro st op _ h
    cases op with
    | addUser username nickname password mail => exact h.1
    | addGroup groupname ownerid => exact h.1
    | _ => trivial
  constructor
  · refine Run.always_of_invariant (I := fun st : Store => Seeded st.users)
      (fun st op st' h hapart hstep => seeded_step h (hno st op h hapart) hstep)
      (fun st op h hapart => (rangesApart_iff h op).1 hapart) (seeded_init hstart)
  · refine Run.always_of_invariant (I := fun st : Store => Seeded st.users)
      (fun st op st' h hfit hstep => seeded_step h (hno st op h ((rangesApart_iff h op).2 hfit)) hstep)
      (fun st op h hfit => (rangesApart_iff h op).2 hfit) (seeded_init hstart)

/-- A user and a group on fresh tables. -/
theorem rangesApart_run_fresh :
    Run.Always (step SqlEnv.ideal) (RangesApart SqlEnv.ideal) ⟨⟨MySqlManager.freshDb, 7⟩, new⟩
        [.addUser (str "a") (str "a") (str "p") [], .addGroup (str "g") 1] ↔
      Run.Always (step SqlEnv.ideal) (CountersFit SqlEnv.ideal) ⟨⟨MySqlManager.freshDb, 7⟩, new⟩
        [.addUser (str "a") (str "a") (str "p") [], .addGroup (str "g") 1] :=
  rangesApart_run_iff init_fresh _

/-- A `t_user` whose one user has the last id below the boundary. -/
def lastUser : MySql :=
  ⟨MySqlManager.freshDb.set "t_user"
    { MySqlManager.freshUser with
      rows := [fun c => if c = "f_user_id" then .int 0xFFFFFFE else .null] }, 0⟩

/-- The next user gets the boundary itself as id. -/
theorem user_gets_group_id :
    ¬ ∀ st₀, init SqlEnv.ideal ⟨lastUser, new⟩ = (true, st₀) →
      Run.Always (step SqlEnv.ideal) (RangesApart SqlEnv.ideal) st₀ [.addUser (str "a") (str "a") (str "p") []] := by
  intro h
  have hok : (init SqlEnv.ideal ⟨lastUser, new⟩).1 = true := by decide +kernel
  have hid : handedOut SqlEnv.ideal (init SqlEnv.ideal ⟨lastUser, new⟩).2
      (.addUser (str "a") (str "a") (str "p") []) = some 0xFFFFFFF := by decide +kernel
  have hapart := (h _ (Prod.ext hok rfl)).1.2 _ hid
  exact absurd hapart (by decide)

end UserManager

end AimChat
