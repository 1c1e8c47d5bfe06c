import AimChat.Store.UserManager

/-! # Loading the user store

What `init` makes of the two tables. `LoadUserFromDB` shares one record for every row its cursor
visits, in that order; `LoadRelationshipFromDB` then fills the friends of every record in the list from
the relationship rows that name it. -/

namespace AimChat

open Sql

/-- `t_user_relationship` holds a row `(a, b)`. -/
def HasRow (db : Db) (a b : Int) : Prop :=
  ∃ r ∈ db.rows "t_user_relationship", r "f_user_id1" = .int a ∧ r "f_user_id2" = .int b

namespace UserManager

/-- The record without its friends. -/
def clearFriends (u : User) : User := { u with friends := ∅ }

/-- The records of `m_cachedUsers`, in the order of the list. -/
def users (um : UserManager) : List User := um.cachedUsers.map um.heap

/-- The record `m_mapUsers` holds under an id. -/
def record (um : UserManager) (id : Int) : Option User := (um.mapUsers.get? id).map um.heap

/-! ## Users -/

/-- A new record comes last in the list. -/
theorem users_share (u : User) (um : UserManager) : (um.share u).users = um.users ++ [u] := by
  change (um.cachedUsers ++ [um.fresh]).map (fun q => if q = um.fresh then u else um.heap q) = _
  rw [List.map_append, List.map_singleton, if_pos rfl, users]
  congr 1
  refine List.map_congr_left fun p hp => ?_
  rw [if_neg (Nat.ne_of_lt (um.cached_lt p hp))]

/-- A new record is under its id, in place of one that was there. -/
theorem record_share (u : User) (um : UserManager) (id : Int) :
    (um.share u).record id = if id = u.userid then some u else um.record id := by
  change ((um.mapUsers.set u.userid um.fresh).get? id).map
    (fun q => if q = um.fresh then u else um.heap q) = _
  rw [OrdMap.get?_set]
  split_ifs with h
  · rw [Option.map_some, if_pos rfl]
  · unfold record
    cases hid : um.mapUsers.get? id with
    | none => rfl
    | some p =>
        have hne : p ≠ um.fresh := Nat.ne_of_lt (um.cached_lt p (um.mapped hid).1)
        rw [Option.map_some, Option.map_some, if_neg hne]

/-- One row of `LoadUserFromDB` shares its record. -/
theorem users_loadUser (um : UserManager) (pRow : List Value) :
    (loadUser um pRow).users = um.users ++ [userOfRow pRow] := by
  rw [← users_share]
  unfold loadUser
  dsimp only
  split_ifs <;> rfl

theorem record_loadUser (um : UserManager) (pRow : List Value) (id : Int) :
    (loadUser um pRow).record id =
      if id = (userOfRow pRow).userid then some (userOfRow pRow) else um.record id := by
  rw [← record_share]
  unfold loadUser
  dsimp only
  split_ifs <;> rfl

/-- The rows of `LoadUserFromDB` become the list, in their order. -/
theorem users_foldl_loadUser (pRows : List (List Value)) (um : UserManager) :
    (pRows.foldl loadUser um).users = um.users ++ pRows.map userOfRow := by
  induction pRows generalizing um with
  | nil => simp
  | cons pRow pRows ih =>
      rw [List.foldl_cons, ih, users_loadUser, List.map_cons, List.append_assoc]
      rfl

/-- Of several rows with one id the last is under it. -/
theorem record_foldl_loadUser (pRows : List (List Value)) (um : UserManager) (id : Int) :
    (pRows.foldl loadUser um).record id =
      (((pRows.map userOfRow).reverse.find? fun u => u.userid = id).or (um.record id)) := by
  induction pRows generalizing um with
  | nil => rfl
  | cons pRow pRows ih =>
      rw [List.foldl_cons, ih, record_loadUser, List.map_cons, List.reverse_cons,
        List.find?_append, Option.or_assoc]
      congr 1
      by_cases h : id = (userOfRow pRow).userid
      · simp [h]
      · have h' : ¬ (userOfRow pRow).userid = id := fun h' => h h'.symm
        simp [h, h']

/-! ## Friends -/

/-- What `LoadRelationshipFromDB` adds to a set of friends. -/
theorem mem_foldl_loadFriend (userid : Int) (pRows : List (List Value)) (friends : OrdSet Int)
    (b : Int) :
    b ∈ pRows.foldl (loadFriend userid) friends ↔
      b ∈ friends ∨ ∃ pRow ∈ pRows, b ∈ loadFriend userid ∅ pRow := by
  -- a row adds the same whatever the set was
  have hone : ∀ (friends : OrdSet Int) (pRow : List Value),
      b ∈ loadFriend userid friends pRow ↔ b ∈ friends ∨ b ∈ loadFriend userid ∅ pRow := by
    intro friends pRow
    unfold loadFriend
    dsimp only
    split_ifs <;> simp [or_comm]
  induction pRows generalizing friends with
  | nil => simp
  | cons pRow pRows ih =>
      refine (ih (loadFriend userid friends pRow)).trans ?_
      rw [hone, or_assoc]
      simp

/-- The table of relationships as `Init` makes it: its two columns are there and hold `int32` ids. -/
structure RelationshipTable (db : Db) : Prop where
  table : ∃ t, db.tables "t_user_relationship" = some t ∧ t.hasColumn "f_user_id1" = true ∧
    t.hasColumn "f_user_id2" = true
  int32 : ∀ r ∈ db.rows "t_user_relationship", ∃ a b, r "f_user_id1" = .int a ∧
    r "f_user_id2" = .int b ∧ IsInt32 a ∧ IsInt32 b

/-- What the cursor finds behind an empty result is no row about `id`. -/
def StaleMisses (env : SqlEnv) (id : Int) : Prop :=
  ∀ n, ∀ pRow ∈ env.stale n,
    Field.toInt32 (column pRow 0) ≠ id ∧ Field.toInt32 (column pRow 1) ≠ id

/-- The query lists the rows that name the id. -/
theorem mem_relationshipQuery {db : Db} {userid : Int} {r : Row} :
    r ∈ (relationshipQuery userid).rows (db.rows "t_user_relationship") ↔
      r ∈ db.rows "t_user_relationship" ∧ (r "f_user_id1" = .int userid ∨ r "f_user_id2" = .int userid) := by
  rw [Select.mem_rows rfl]
  simp [relationshipQuery, Cond.holds]

/-- An answered query loads the friends from the rows it lists. -/
theorem loadRelationshipFromDB_eq {env : SqlEnv} {sql : MySql} (htable : RelationshipTable sql.db)
    (hok : env.selectOk sql.sent = true) (userid : Int) (friends : OrdSet Int) :
    (loadRelationshipFromDB env userid friends sql).2.1 =
      (QueryResult.visited (env.stale sql.sent)
        (((relationshipQuery userid).rows (sql.db.rows "t_user_relationship")).map fun r =>
          (relationshipQuery userid).exprs.map fun e => r e.column)).foldl (loadFriend userid) friends := by
  obtain ⟨t, ht, hcol1, hcol2⟩ := htable.table
  have hcolumns : ∀ c ∈ (relationshipQuery userid).columns, t.hasColumn c = true := by
    intro c hc
    have hall : ∀ c ∈ (relationshipQuery userid).columns, c = "f_user_id1" ∨ c = "f_user_id2" := by
      simp [Select.columns, relationshipQuery, Expr.column, Cond.columns]
    rcases hall c hc with rfl | rfl
    · exact hcol1
    · exact hcol2
  have hsel := Db.select_of_columns (q := relationshipQuery userid) ht hcolumns (by intro n hn; cases hn)
  unfold loadRelationshipFromDB MySql.query
  rw [if_pos hok, hsel, Option.map_some]
  dsimp only
  rw [QueryResult.forEachRow_ofRows]
  rfl

/-- A row of the table adds the other end to the friends; where both are the id, that is the id itself. -/
theorem mem_loadFriend_row {db : Db} (htable : RelationshipTable db) {r : Row}
    (hr : r ∈ db.rows "t_user_relationship") (userid b : Int) :
    b ∈ loadFriend userid ∅ ((relationshipQuery userid).exprs.map fun e => r e.column) ↔
      (r "f_user_id1" = .int userid ∧ r "f_user_id2" = .int b) ∨
        (r "f_user_id1" ≠ .int userid ∧ r "f_user_id1" = .int b ∧ r "f_user_id2" = .int userid) := by
  obtain ⟨x, y, hx, hy, hx32, hy32⟩ := htable.int32 r hr
  have hcolx : column ((relationshipQuery userid).exprs.map fun e => r e.column) 0 = .int x := hx
  have hcoly : column ((relationshipQuery userid).exprs.map fun e => r e.column) 1 = .int y := hy
  unfold loadFriend
  rw [hcolx, hcoly, hx, hy]
  simp only [Field.toInt32, wrap32_eq_self hx32, wrap32_eq_self hy32, Value.int.injEq, ne_eq]
  split_ifs with h1 h2
  · simp [h1, eq_comm]
  · simp [h1, h2, eq_comm]
  · simp [h1, h2]

/-- **The friends of one record.** When the query is answered and the cursor finds nothing about the
id behind an empty result, `LoadRelationshipFromDB` adds exactly the other ends of the rows that name
the id. -/
theorem mem_loadRelationshipFromDB {env : SqlEnv} {sql : MySql} (htable : RelationshipTable sql.db)
    (hok : env.selectOk sql.sent = true) {userid : Int} (hstale : StaleMisses env userid)
    (friends : OrdSet Int) (b : Int) :
    b ∈ (loadRelationshipFromDB env userid friends sql).2.1 ↔
      b ∈ friends ∨ HasRow sql.db userid b ∨ HasRow sql.db b userid := by
  rw [loadRelationshipFromDB_eq htable hok, mem_foldl_loadFriend]
  refine or_congr_right ?_
  constructor
  · rintro ⟨pRow, hpRow, hb⟩
    rcases QueryResult.mem_visited.1 hpRow with hlisted | ⟨-, hbehind⟩
    · obtain ⟨r, hr, rfl⟩ := List.mem_map.1 hlisted
      obtain ⟨hmem, -⟩ := mem_relationshipQuery.1 hr
      rcases (mem_loadFriend_row htable hmem userid b).1 hb with ⟨h1, h2⟩ | ⟨-, h1, h2⟩
      · exact Or.inl ⟨r, hmem, h1, h2⟩
      · exact Or.inr ⟨r, hmem, h1, h2⟩
    · -- behind an empty result the cursor finds nothing about the id
      obtain ⟨h0, h1⟩ := hstale _ pRow hbehind
      unfold loadFriend at hb
      rw [if_neg h0, if_neg h1] at hb
      exact absurd hb (OrdSet.not_mem_empty b)
  · have hvisited : ∀ r ∈ sql.db.rows "t_user_relationship",
        (r "f_user_id1" = .int userid ∨ r "f_user_id2" = .int userid) →
        ((relationshipQuery userid).exprs.map fun e => r e.column) ∈ QueryResult.visited (env.stale sql.sent)
          (((relationshipQuery userid).rows (sql.db.rows "t_user_relationship")).map fun r =>
            (relationshipQuery userid).exprs.map fun e => r e.column) := by
      intro r hr hname
      refine QueryResult.mem_visited.2 (.inl ?_)
      exact List.mem_map.2 ⟨r, mem_relationshipQuery.2 ⟨hr, hname⟩, rfl⟩
    rintro (⟨r, hr, h1, h2⟩ | ⟨r, hr, h1, h2⟩)
    · exact ⟨_, hvisited r hr (Or.inl h1), (mem_loadFriend_row htable hr userid b).2 (Or.inl ⟨h1, h2⟩)⟩
    · refine ⟨_, hvisited r hr (Or.inr h2), (mem_loadFriend_row htable hr userid b).2 ?_⟩
      by_cases hself : r "f_user_id1" = .int userid
      · refine Or.inl ⟨hself, ?_⟩
        rw [h2, ← hself, h1]
      · exact Or.inr ⟨hself, h1, h2⟩

/-- Whatever happens to the query, nobody else becomes a friend. -/
theorem of_mem_loadRelationshipFromDB {env : SqlEnv} {sql : MySql} (htable : RelationshipTable sql.db)
    {userid : Int} (hstale : StaleMisses env userid) (friends : OrdSet Int) {b : Int}
    (hb : b ∈ (loadRelationshipFromDB env userid friends sql).2.1) :
    b ∈ friends ∨ HasRow sql.db userid b ∨ HasRow sql.db b userid := by
  by_cases hok : env.selectOk sql.sent = true
  · exact (mem_loadRelationshipFromDB htable hok hstale friends b).1 hb
  · unfold loadRelationshipFromDB MySql.query at hb
    rw [if_neg hok] at hb
    exact Or.inl hb

/-! ## Loading everything -/

/-- The loop of `init` over the list of records. -/
def loadAllFriends (env : SqlEnv) (st : Store) (ps : List UserPtr) : Store :=
  ps.foldl (loadFriendsOf env) st

variable {env : SqlEnv} {st : Store}

/-- One turn of the loop sends one query and changes the friends of one record. -/
theorem loadFriendsOf_eq (env : SqlEnv) (st : Store) (p : UserPtr) :
    loadFriendsOf env st p =
      ⟨⟨st.sql.db, st.sql.sent + 1⟩, st.users.modify p (fun u => { u with friends :=
        (loadRelationshipFromDB env (st.users.heap p).userid (st.users.heap p).friends
          st.sql).2.1 }) fun _ => rfl⟩ := by
  unfold loadFriendsOf loadRelationshipFromDB MySql.query
  dsimp only
  split <;> next heq => rw [← (Prod.mk.inj heq).2]

/-- The loop sends one query for each record, changes nothing but friends, and moves no record. -/
theorem loadAllFriends_frame (env : SqlEnv) (ps : List UserPtr) (st : Store) :
    (loadAllFriends env st ps).sql = ⟨st.sql.db, st.sql.sent + ps.length⟩ ∧
      (loadAllFriends env st ps).users.mapUsers = st.users.mapUsers ∧
      (loadAllFriends env st ps).users.cachedUsers = st.users.cachedUsers ∧
      (loadAllFriends env st ps).users.baseUserID = st.users.baseUserID ∧
      (loadAllFriends env st ps).users.baseGroupID = st.users.baseGroupID ∧
      ∀ q, clearFriends ((loadAllFriends env st ps).users.heap q) =
        clearFriends (st.users.heap q) := by
  induction ps generalizing st with
  | nil => exact ⟨rfl, rfl, rfl, rfl, rfl, fun _ => rfl⟩
  | cons p ps ih =>
      obtain ⟨hsql, hmap, hcached, hbase, hgroup, hheap⟩ := ih (loadFriendsOf env st p)
      have hturn := loadFriendsOf_eq env st p
      refine ⟨?_, ?_, ?_, ?_, ?_, fun q => ?_⟩
      · rw [loadAllFriends, List.foldl_cons, ← loadAllFriends, hsql, hturn, List.length_cons]
        simp only [MySql.mk.injEq, true_and]
        omega
      · rw [loadAllFriends, List.foldl_cons, ← loadAllFriends, hmap, hturn]
        rfl
      · rw [loadAllFriends, List.foldl_cons, ← loadAllFriends, hcached, hturn]
        rfl
      · rw [loadAllFriends, List.foldl_cons, ← loadAllFriends, hbase, hturn]
        rfl
      · rw [loadAllFriends, List.foldl_cons, ← loadAllFriends, hgroup, hturn]
        rfl
      · rw [loadAllFriends, List.foldl_cons, ← loadAllFriends, hheap q, hturn]
        change clearFriends (if q = p then _ else _) = _
        split_ifs with hq
        · rw [hq]
          rfl
        · rfl

/-- Every record keeps its id in the loop. -/
theorem userid_loadAllFriends (env : SqlEnv) (ps : List UserPtr) (st : Store) (q : UserPtr) :
    ((loadAllFriends env st ps).users.heap q).userid = (st.users.heap q).userid := by
  have hclear := congrArg User.userid ((loadAllFriends_frame env ps st).2.2.2.2.2 q)
  exact hclear

/-- **The friends after the loop.** Where its queries are answered, the loop adds to a record it visits
the other ends of the rows that name the record's id. -/
theorem mem_friends_loadAllFriends (ps : List UserPtr) (st : Store)
    (htable : RelationshipTable st.sql.db)
    (hok : ∀ n, st.sql.sent ≤ n → n < st.sql.sent + ps.length → env.selectOk n = true)
    {q : UserPtr} (hstale : StaleMisses env (st.users.heap q).userid) (b : Int) :
    b ∈ ((loadAllFriends env st ps).users.heap q).friends ↔
      b ∈ (st.users.heap q).friends ∨ (q ∈ ps ∧
        (HasRow st.sql.db (st.users.heap q).userid b ∨
          HasRow st.sql.db b (st.users.heap q).userid)) := by
  induction ps generalizing st with
  | nil => simp [loadAllFriends]
  | cons p ps ih =>
      have hturn := loadFriendsOf_eq env st p
      have hdb : (loadFriendsOf env st p).sql.db = st.sql.db := by rw [hturn]
      have hsent : (loadFriendsOf env st p).sql.sent = st.sql.sent + 1 := by rw [hturn]
      have hid : ((loadFriendsOf env st p).users.heap q).userid = (st.users.heap q).userid :=
        userid_loadAllFriends env [p] st q
      have hrest := ih (loadFriendsOf env st p) (by rw [hdb]; exact htable)
        (fun n hlo hhi => hok n (by omega) (by rw [List.length_cons]; omega))
        (by rw [hid]; exact hstale)
      rw [hdb, hid] at hrest
      rw [loadAllFriends, List.foldl_cons, ← loadAllFriends]
      refine hrest.trans ?_
      have hfriends : b ∈ ((loadFriendsOf env st p).users.heap q).friends ↔
          b ∈ (st.users.heap q).friends ∨ (q = p ∧
            (HasRow st.sql.db (st.users.heap q).userid b ∨
              HasRow st.sql.db b (st.users.heap q).userid)) := by
        rw [hturn]
        change b ∈ (if q = p then _ else _ : User).friends ↔ _
        split_ifs with hq
        · subst hq
          refine (mem_loadRelationshipFromDB htable ?_ hstale _ b).trans ?_
          · exact hok _ le_rfl (by rw [List.length_cons]; omega)
          · simp
        · simp [hq]
      rw [hfriends, List.mem_cons, or_assoc, ← or_and_right]

/-- Whether its queries are answered or not, the loop adds nobody else to a record. -/
theorem of_mem_friends_loadAllFriends (ps : List UserPtr) (st : Store)
    (htable : RelationshipTable st.sql.db) {q : UserPtr}
    (hstale : StaleMisses env (st.users.heap q).userid) {b : Int}
    (hb : b ∈ ((loadAllFriends env st ps).users.heap q).friends) :
    b ∈ (st.users.heap q).friends ∨ HasRow st.sql.db (st.users.heap q).userid b ∨
      HasRow st.sql.db b (st.users.heap q).userid := by
  induction ps generalizing st with
  | nil => exact Or.inl hb
  | cons p ps ih =>
      have hturn := loadFriendsOf_eq env st p
      have hdb : (loadFriendsOf env st p).sql.db = st.sql.db := by rw [hturn]
      have hid : ((loadFriendsOf env st p).users.heap q).userid = (st.users.heap q).userid :=
        userid_loadAllFriends env [p] st q
      rw [loadAllFriends, List.foldl_cons, ← loadAllFriends] at hb
      have hrest := ih (loadFriendsOf env st p) (by rw [hdb]; exact htable) (by rw [hid]; exact hstale) hb
      rw [hdb, hid] at hrest
      rcases hrest with hfriend | hrow
      · rw [hturn] at hfriend
        change b ∈ (if q = p then _ else _ : User).friends at hfriend
        split_ifs at hfriend with hq
        · subst hq
          exact of_mem_loadRelationshipFromDB htable hstale _ hfriend
        · exact Or.inl hfriend
      · exact Or.inr hrow

/-- The records made of the user rows have no friends yet. -/
theorem friends_foldl_loadUser (pRows : List (List Value)) {q : UserPtr}
    (hq : q ∈ (pRows.foldl loadUser new).cachedUsers) :
    ((pRows.foldl loadUser new).heap q).friends = ∅ := by
  have husers : (pRows.foldl loadUser new).heap q ∈ (pRows.foldl loadUser new).users := List.mem_map_of_mem hq
  rw [users_foldl_loadUser] at husers
  obtain ⟨pRow, -, hpRow⟩ := List.mem_map.1 husers
  rw [← hpRow]
  rfl

/-- `init` on a new manager: the visited user rows become the records, the database stays, and the
friends of each record are loaded after it. -/
theorem init_eq {sql : MySql} {st : Store} (h : init env ⟨sql, new⟩ = (true, st)) :
    ∃ rows, sql.db.select userQuery = some rows ∧
      st = loadAllFriends env
        ⟨⟨sql.db, sql.sent + 1⟩, (QueryResult.visited (env.stale sql.sent) rows).foldl loadUser new⟩
        ((QueryResult.visited (env.stale sql.sent) rows).foldl loadUser new).cachedUsers := by
  unfold init loadUserFromDB at h
  dsimp only at h
  cases hq : MySql.query env userQuery sql with
  | mk result sql' =>
      rw [hq] at h
      cases result with
      | none => cases h
      | some result =>
          obtain ⟨rows, hrows, rfl⟩ := MySql.rows_of_query hq
          have hsql : sql' = ⟨sql.db, sql.sent + 1⟩ := (Prod.mk.inj hq).2.symm
          refine ⟨rows, hrows, ?_⟩
          simp only [QueryResult.forEachRow_ofRows] at h
          rw [← (Prod.mk.inj h).2, hsql]
          rfl

/-- **Friends come from rows.** After a start a record of the list has no friends but the other ends of
the rows that name its id, whichever queries failed. -/
theorem hasRow_of_mem_friends_init {sql : MySql} {st : Store} (h : init env ⟨sql, new⟩ = (true, st))
    (htable : RelationshipTable sql.db) {p : UserPtr} (hp : p ∈ st.users.cachedUsers)
    (hstale : StaleMisses env (st.users.heap p).userid) {b : Int} (hb : b ∈ (st.users.heap p).friends) :
    HasRow sql.db (st.users.heap p).userid b ∨ HasRow sql.db b (st.users.heap p).userid := by
  obtain ⟨rows, -, hst⟩ := init_eq h
  subst hst
  rw [userid_loadAllFriends] at hstale ⊢
  rw [(loadAllFriends_frame env _ _).2.2.1] at hp
  rcases of_mem_friends_loadAllFriends _ _ htable hstale hb with hnone | hrow
  · rw [friends_foldl_loadUser _ hp] at hnone
    exact absurd hnone (OrdSet.not_mem_empty b)
  · exact hrow

end UserManager

end AimChat
