import AimChat.Store.Restart
import AimChat.Store.UserIds

/-! # Restarts and the empty table

The first start finds `t_user` empty, and where `data()` of a cleared vector is not null the loader makes a
record of what it points at (`shownRecord`). A restart makes that record again only while the table is still
empty: any group or user that was added takes it away. Together with what a restart shows otherwise this says
when it is unobservable (`restart_unobservable_iff`). -/

namespace AimChat

open Sql

namespace UserManager

variable {env : SqlEnv} {st st' : Store}

/-! ## What a start makes of empty tables -/

/-- The record a start makes of two empty results, those of its query of the users, the `n`-th statement, and of
the record's relationships: it takes for a row what `Fetch` points at behind each. -/
def shownRecord (env : SqlEnv) (n : Nat) : Option User :=
  (env.stale n).map fun pRow =>
    { userOfRow pRow with
      friends := (env.stale (n + 1)).toList.foldl (loadFriend (userOfRow pRow).userid) ∅ }

/-- One record that is loaded into a new manager. -/
theorem loadUser_new (pRow : List Value) :
    (loadUser new pRow).cachedUsers = [0] ∧ (loadUser new pRow).heap 0 = userOfRow pRow ∧
      (∀ id, (loadUser new pRow).mapUsers.get? id = if id = (userOfRow pRow).userid then some 0 else none) ∧
      (userOfRow pRow).userid ≤ (loadUser new pRow).baseGroupID := by
  have hget : ∀ id, ((∅ : OrdMap Int UserPtr).set (userOfRow pRow).userid 0).get? id =
      if id = (userOfRow pRow).userid then some 0 else none := by
    intro id
    rw [OrdMap.get?_set]
    split_ifs
    · rfl
    · exact OrdMap.get?_empty id
  refine ⟨?_, ?_, fun id => ?_, ?_⟩
  · unfold loadUser
    dsimp only
    split_ifs <;> rfl
  · unfold loadUser
    dsimp only
    split_ifs <;> rfl
  · rw [← hget]
    unfold loadUser
    dsimp only
    split_ifs <;> rfl
  · rw [baseGroupID_loadUser]
    split_ifs with h
    · exact le_rfl
    · change (userOfRow pRow).userid ≤ 0xFFFFFFF
      change ¬ (_ ∧ _ > 0xFFFFFFF) at h
      omega

/-- The relationships of a record are looked for in a table without rows. -/
theorem EmptyTables.loadRelationshipFromDB_eq {db : Db} (h : EmptyTables db) (henv : Answers env) (userid : Int)
    (n : Nat) : (loadRelationshipFromDB env userid ∅ ⟨db, n⟩).2.1 =
      (env.stale n).toList.foldl (loadFriend userid) ∅ := by
  have hnone : (relationshipQuery userid).rows (db.rows "t_user_relationship") = [] := by
    refine List.eq_nil_iff_forall_not_mem.2 fun r hr => ?_
    obtain ⟨hmem, -⟩ := mem_relationshipQuery.1 hr
    obtain ⟨a, b, ha, hb, -⟩ := h.links.int32 r hmem
    exact h.norow a b ⟨r, hmem, ha, hb⟩
  rw [@UserManager.loadRelationshipFromDB_eq env ⟨db, n⟩ h.links (henv _)]
  dsimp only
  rw [hnone]
  rfl

/-- A start on empty tables: what the cursor shows behind the empty results is loaded, and nothing else. -/
theorem EmptyTables.record_init {sql : MySql} (h : EmptyTables sql.db) (henv : Answers env)
    (hinit : init env ⟨sql, new⟩ = (true, st)) (id : Int) :
    st.users.record id = (shownRecord env sql.sent).filter fun u => u.userid = id := by
  obtain ⟨rows, hrows, hst⟩ := init_eq hinit
  rw [h.select_nil hrows] at hst
  cases hstale : env.stale sql.sent with
  | none =>
      rw [hstale] at hst
      have hst' : st = ⟨⟨sql.db, sql.sent + 1⟩, new⟩ := hst
      rw [hst', shownRecord, hstale]
      rfl
  | some pRow =>
      obtain ⟨hcached, hheap, hget, -⟩ := loadUser_new pRow
      have hst' : st = loadFriendsOf env ⟨⟨sql.db, sql.sent + 1⟩, loadUser new pRow⟩ 0 := by
        rw [hst, hstale]
        show loadAllFriends env ⟨_, loadUser new pRow⟩ (loadUser new pRow).cachedUsers = _
        rw [hcached]
        rfl
      -- the map has the one id, and the record has what its own query showed for friends
      have hrecord : st.users.record id = if id = (userOfRow pRow).userid then
          some { userOfRow pRow with
            friends := (env.stale (sql.sent + 1)).toList.foldl (loadFriend (userOfRow pRow).userid) ∅ }
          else none := by
        rw [hst', loadFriendsOf_eq, ← h.loadRelationshipFromDB_eq henv]
        show ((loadUser new pRow).mapUsers.get? id).map (fun q => if q = 0 then _ else _) = _
        rw [hget]
        split_ifs
        · rw [Option.map_some, if_pos rfl, hheap]
          rfl
        · rfl
      rw [hrecord, shownRecord, hstale, Option.map_some, Option.filter_some]
      simp only [decide_eq_true_eq, eq_comm (a := id)]

/-! ## What an operation does to the ids -/

/-- The operation adds a user or a group. -/
def StoreOp.Adds : StoreOp → Prop
  | .addUser .. => True
  | .addGroup .. => True
  | _ => False

/-- An operation that is carried out adds a record and its row, or it keeps the ids that are there, in memory and in
the table, and the owner of each. -/
inductive IdsStep (env : SqlEnv) (op : StoreOp) (st st' : Store) : Prop
  | adds (n : Int) (u w : User) (hadds : op.Adds) (hcreates : Creates env st n op) (hnone : stored st.sql.db n = none)
      (hrecord : ∀ id, st'.users.record id = if id = n then some u else st.users.record id)
      (hstored : ∀ id, stored st'.sql.db id = if id = n then some w else stored st.sql.db id)
      (hop : (∃ username nickname password mail, op = .addUser username nickname password mail ∧
          u.ownerid = 0) ∨
        ∃ groupname, op = .addGroup groupname u.ownerid ∧ st'.users.baseGroupID = n)
  | keeps (hadds : ¬ op.Adds)
      (howner : ∀ id, (st'.users.record id).map User.ownerid = (st.users.record id).map User.ownerid)
      (hrow : ∀ id, (stored st'.sql.db id).isSome = (stored st.sql.db id).isSome)
      (hbase : st'.users.baseGroupID = st.users.baseGroupID)

/-- A change of one record that leaves its owner. -/
theorem map_ownerid_ite (f : User → User) (hf : ∀ u, (f u).ownerid = u.ownerid) (n id : Int) (r : Option User) :
    (if id = n then r.map f else r).map User.ownerid = r.map User.ownerid := by
  split_ifs
  · rw [Option.map_map]
    exact congrArg (fun g => r.map g) (funext hf)
  · rfl

theorem isSome_ite_map {f : User → User} (n id : Int) (r : Option User) :
    (if id = n then r.map f else r).isSome = r.isSome := by
  split_ifs
  · exact Option.isSome_map
  · rfl

theorem ids_step {op : StoreOp} (htable : UserTable st.sql.db) (hcarried : CarriedOut env st op)
    (hstep : step env st op = .ok st') : IdsStep env op st st' := by
  cases records_step htable hcarried hstep with
  | create n u w hcreates hnone hrecord hstored hlasting hbirthday hcase =>
      have hadds : op.Adds := by
        rcases hcase with ⟨_, _, _, _, rfl, -⟩ | ⟨_, rfl, -⟩ <;> trivial
      exact .adds n u w hadds hcreates hnone hrecord hstored hcase
  | profile n info hcase hrecord hstored hbase =>
      subst hcase
      refine .keeps id (fun id => ?_) (fun id => ?_) hbase
      · rw [hrecord, map_ownerid_ite (copyProfile info) fun _ => rfl]
      · rw [hstored, isSome_ite_map]
  | password n newpassword hcase hrecord hstored hbase =>
      subst hcase
      refine .keeps id (fun id => ?_) (fun id => ?_) hbase
      · rw [hrecord, map_ownerid_ite (withPassword newpassword) fun _ => rfl]
      · rw [hstored, isSome_ite_map]
  | friends hcase hrecord hstored hbase =>
      refine .keeps ?_ (fun id => ?_) (fun id => by rw [hstored]) hbase
      · rcases hcase with ⟨_, _, rfl⟩ | ⟨_, _, rfl⟩ | ⟨_, _, rfl⟩ <;> exact id
      · have hclear := congrArg (Option.map User.ownerid) (hrecord id)
        rwa [Option.map_map, Option.map_map] at hclear

/-- Where the owners are the same, the same ids are there. -/
theorem here_of_owners (howner : ∀ id, (st'.users.record id).map User.ownerid = (st.users.record id).map User.ownerid)
    (id : Int) : st'.copies.here id ↔ st.copies.here id := by
  show (∃ u, st'.users.record id = some u) ↔ ∃ u, st.users.record id = some u
  rw [← Option.isSome_iff_exists, ← Option.isSome_iff_exists, ← @Option.isSome_map _ _ User.ownerid, howner,
    Option.isSome_map]

/-! ## While the tables stay empty -/

/-- The tables are empty, and there is one record at most, with an `int32_t` for its id. -/
structure Bare (st : Store) : Prop where
  tables : EmptyTables st.sql.db
  one : ∀ {id id'}, st.copies.here id → st.copies.here id' → id = id'
  int32 : ∀ {id}, st.copies.here id → IsInt32 id

/-- A start on empty tables. -/
theorem EmptyTables.bare {sql : MySql} (h : EmptyTables sql.db) (henv : Answers env)
    (hinit : init env ⟨sql, new⟩ = (true, st)) : Bare st := by
  have hhere : ∀ {id}, st.copies.here id → ∃ u, shownRecord env sql.sent = some u ∧ u.userid = id := by
    rintro id ⟨u, hu⟩
    rw [h.record_init henv hinit, Option.filter_eq_some_iff] at hu
    exact ⟨u, hu.1, of_decide_eq_true hu.2⟩
  refine ⟨by rwa [db_init hinit], fun hid hid' => ?_, fun hid => ?_⟩
  · obtain ⟨u, hu, rfl⟩ := hhere hid
    obtain ⟨u', hu', rfl⟩ := hhere hid'
    rw [hu] at hu'
    cases hu'
    rfl
  · -- `userid` is read with a cut to an `int32_t`
    obtain ⟨u, hu, rfl⟩ := hhere hid
    obtain ⟨pRow, -, rfl⟩ := Option.map_eq_some_iff.1 hu
    exact isInt32_toInt32 _

/-- An operation that is carried out and adds nobody. -/
theorem Bare.step {op : StoreOp} (h : Bare st) (hadds : ¬ op.Adds) (hcarried : CarriedOut env st op)
    (hstep : UserManager.step env st op = .ok st') :
    Bare st' ∧ ∀ id, st'.copies.here id ↔ st.copies.here id := by
  have hop := hcarried.ne_restart
  obtain ⟨howner, hrow⟩ : (∀ id, (st'.users.record id).map User.ownerid = (st.users.record id).map User.ownerid) ∧
      ∀ id, (stored st'.sql.db id).isSome = (stored st.sql.db id).isSome := by
    cases ids_step h.tables.users hcarried hstep with
    | adds n u w hyes => exact absurd hyes hadds
    | keeps _ howner hrow => exact ⟨howner, hrow⟩
  have hhere := here_of_owners howner
  have hnobody : ∀ id, stored st'.sql.db id = none := by
    intro id
    rw [← Option.not_isSome_iff_eq_none, hrow, h.tables.nobody]
    exact Bool.false_ne_true
  refine ⟨⟨⟨h.tables.users.step hop hstep, hnobody, h.tables.links.step (fun _ => h.int32) hcarried hstep, ?_⟩,
    fun hid hid' => h.one ((hhere _).1 hid) ((hhere _).1 hid'), fun hid => h.int32 ((hhere _).1 hid)⟩, hhere⟩
  intro a b hrow
  have hrow : st'.copies.row a b := hrow
  rcases copies_step hop hstep with ⟨n, hn, -⟩ | ⟨-, hcopies⟩
  · cases op with
    | addUser => exact hadds trivial
    | addGroup => exact hadds trivial
    | _ => exact hn
  · rcases hcopies with hcopies | ⟨smallid, greatid, rfl, hlt, hcopies⟩ | ⟨x, y, hcopies⟩ <;> rw [hcopies] at hrow
    · exact h.tables.norow a b hrow
    · -- friends are made between two ids that are there, and there are no two
      exact absurd (h.one hcarried.allowed.1 hcarried.allowed.2) hlt.ne
    · exact h.tables.norow a b hrow.1

/-- So do all of them. -/
theorem Bare.run {ops : List StoreOp} (h : Bare st) (hadds : ∀ op ∈ ops, ¬ op.Adds)
    (hcarried : Run.Always (UserManager.step env) (CarriedOut env) st ops)
    (hrun : Run.run (UserManager.step env) st ops = .ok st') :
    Bare st' ∧ ∀ id, st'.copies.here id ↔ st.copies.here id := by
  refine Run.run_invariant (I := fun s : Store => Bare s ∧ ∀ id, s.copies.here id ↔ st.copies.here id)
    (P := fun s op => CarriedOut env s op ∧ ¬ op.Adds) ?_ ⟨h, fun _ => Iff.rfl⟩
    (Run.always_and.2 ⟨hcarried, Run.always_of_forall_mem hadds⟩) hrun
  rintro s op s' ⟨hs, hhere⟩ ⟨hop, hadd⟩ hstep
  obtain ⟨hs', hhere'⟩ := hs.step hadd hop hstep
  exact ⟨hs', fun id => (hhere' id).trans (hhere id)⟩

/-- The one record there is, is the one a start would make now. -/
def ShownAgain (env : SqlEnv) (st : Store) : Prop :=
  ∃ u, shownRecord env st.sql.sent = some u ∧ (st.users.record u.userid).map visible = some (visible u)

/-- A restart makes the record again. -/
theorem Bare.unobservable (h : Bare st) (henv : Answers env) (hagain : ShownAgain env st) :
    RestartUnobservable env st := by
  obtain ⟨st₁, hinit⟩ := init_ok henv h.tables.users
  obtain ⟨u, hu, hvisible⟩ := hagain
  obtain ⟨v, hv, -⟩ := Option.map_eq_some_iff.1 hvisible
  refine ⟨st₁, hinit, fun id => ?_⟩
  rw [h.tables.record_init henv hinit, hu]
  by_cases hid : u.userid = id
  · rw [Option.filter_some, if_pos (decide_eq_true hid), ← hid, hvisible]
    rfl
  · -- there is no other record, before the restart or after it
    rw [Option.filter_some, if_neg (by simpa using hid)]
    cases hrecord : st.users.record id with
    | none => rfl
    | some w => exact absurd (h.one ⟨v, hv⟩ ⟨w, hrecord⟩) hid

/-- Only if it does, where there is a record. -/
theorem Bare.shownAgain (h : Bare st) (henv : Answers env) (hhere : ∃ id, st.copies.here id)
    (hun : RestartUnobservable env st) : ShownAgain env st := by
  obtain ⟨st₁, hinit, hsame⟩ := hun
  obtain ⟨id, v, hv⟩ := hhere
  have hid := hsame id
  rw [h.tables.record_init henv hinit, hv] at hid
  obtain ⟨u, hu, hvisible⟩ := Option.map_eq_some_iff.1 hid
  obtain ⟨hshown, hid⟩ := Option.filter_eq_some_iff.1 hu
  obtain rfl := of_decide_eq_true hid
  exact ⟨u, hshown, by rw [hv, Option.map_some, hvisible]⟩

/-! ## Once a user or a group is added -/

/-- A start reads `t_user`, which has a row. -/
structure HasRows (st : Store) : Prop where
  users : UserTable st.sql.db
  row : ∃ id w, stored st.sql.db id = some w

/-- What a start makes of such a table. -/
theorem HasRows.record_init (h : HasRows st) (hinit : init env ⟨st.sql, new⟩ = (true, st')) (id : Int) :
    (st'.users.record id).map clearFriends = stored st.sql.db id := by
  refine (h.users.init (fun hrows => ?_) hinit).2 id
  obtain ⟨id', w, hw⟩ := h.row
  rw [stored_of_rows_nil hrows] at hw
  cases hw

/-- It keeps its rows. -/
theorem HasRows.step {op : StoreOp} (h : HasRows st) (hcarried : CarriedOut env st op)
    (hstep : UserManager.step env st op = .ok st') : HasRows st' := by
  obtain ⟨id, w, hw⟩ := h.row
  refine ⟨h.users.step hcarried.ne_restart hstep, ?_⟩
  cases ids_step h.users hcarried hstep with
  | adds n u w' hadds hcreates hnone hrecord hstored hcase => exact ⟨n, w', by rw [hstored, if_pos rfl]⟩
  | keeps hadds howner hrow hbase => exact ⟨id, Option.isSome_iff_exists.1 (by rw [hrow, hw]; rfl)⟩

/-- A stored record has an owner. -/
def OwnerLost (st : Store) : Prop :=
  UserTable st.sql.db ∧ ∃ id u w, st.users.record id = some u ∧ stored st.sql.db id = some w ∧ u.ownerid ≠ -1

/-- A restart shows on it. -/
theorem OwnerLost.observable (h : OwnerLost st) : ¬ RestartUnobservable env st := by
  obtain ⟨htable, id, u, w, hu, hw, howner⟩ := h
  rintro ⟨st₁, hinit, hsame⟩
  have hload := HasRows.record_init ⟨htable, id, w, hw⟩ hinit id
  have hvisible := hsame id
  rw [hw] at hload
  obtain ⟨v, hv, hclear⟩ := Option.map_eq_some_iff.1 hload
  rw [hv, hu, Option.map_some, Option.map_some] at hvisible
  -- no column of the owner is read
  have hleft : v.ownerid = -1 := (congrArg User.ownerid hclear).trans (ownerid_stored hw)
  exact howner ((congrArg User.ownerid (Option.some.inj hvisible)).symm.trans hleft)

/-- The owner stays. -/
theorem OwnerLost.step {op : StoreOp} (h : OwnerLost st) (hcarried : CarriedOut env st op)
    (hstep : UserManager.step env st op = .ok st') : OwnerLost st' := by
  obtain ⟨htable, id, u, w, hu, hw, howner⟩ := h
  refine ⟨htable.step hcarried.ne_restart hstep, id, ?_⟩
  cases ids_step htable hcarried hstep with
  | adds n u' w' hadds hcreates hnone hrecord hstored hcase =>
      -- a new id is not one that is stored
      have hid : id ≠ n := by
        rintro rfl
        rw [hw] at hnone
        cases hnone
      exact ⟨u, w, by rw [hrecord, if_neg hid, hu], by rw [hstored, if_neg hid, hw], howner⟩
  | keeps hadds hsame hrow hbase =>
      have hleft := hsame id
      rw [hu] at hleft
      obtain ⟨u', hu', hequal⟩ := Option.map_eq_some_iff.1 hleft
      obtain ⟨w', hw'⟩ := Option.isSome_iff_exists.1 ((hrow id).trans (by rw [hw]; rfl))
      exact ⟨u', w', hu', hw', by rwa [hequal]⟩

/-- A record without a row, whose id the counter of the groups has passed. -/
structure Rowless (z : Int) (st : Store) : Prop where
  users : UserTable st.sql.db
  here : st.copies.here z
  norow : stored st.sql.db z = none
  passed : z ≤ st.users.baseGroupID
  boundary : 0xFFFFFFF ≤ st.users.baseGroupID

/-- Once the table has rows, a restart shows on it. -/
theorem Rowless.observable {z : Int} (h : Rowless z st) (hrows : HasRows st) : ¬ RestartUnobservable env st := by
  rintro ⟨st₁, hinit, hsame⟩
  obtain ⟨u, hu⟩ := h.here
  have hload := hrows.record_init hinit z
  have hvisible := hsame z
  rw [h.norow, Option.map_eq_none_iff] at hload
  rw [hload, hu] at hvisible
  cases hvisible

/-- A group gets another id, unless the counter overflows. -/
theorem Rowless.step {z : Int} {op : StoreOp} (h : Rowless z st) (hop : ∀ username nickname password mail,
      op ≠ .addUser username nickname password mail) (hno : NoOverflow st.users op)
    (hcarried : CarriedOut env st op) (hstep : UserManager.step env st op = .ok st') : Rowless z st' := by
  obtain ⟨u, hu⟩ := h.here
  have htable := h.users.step hcarried.ne_restart hstep
  have hboundary := h.boundary
  have hpassed := h.passed
  cases ids_step h.users hcarried hstep with
  | adds n u' w hadds hcreates hnone hrecord hstored hcase =>
      rcases hcase with ⟨_, _, _, _, rfl, -⟩ | ⟨groupname, rfl, hbase⟩
      · exact absurd rfl (hop _ _ _ _)
      · -- the group's id is above the counter, and the counter above the record's
        have hn : n = st.users.baseGroupID + 1 := hcreates.2.trans (nextId_eq (by omega) hno)
        have hne : z ≠ n := by omega
        exact ⟨htable, ⟨u, by rw [hrecord, if_neg hne, hu]⟩, by rw [hstored, if_neg hne, h.norow], by omega, by omega⟩
  | keeps hadds howner hrow hbase =>
      rw [← hbase] at hboundary hpassed
      refine ⟨htable, (here_of_owners howner z).2 h.here, ?_, hpassed, hboundary⟩
      rw [← Option.not_isSome_iff_eq_none, hrow, h.norow]
      exact Bool.false_ne_true

/-! ## What a restart shows after a run -/

/-- Every user who is added has an owner. -/
theorem ownerLost_of_addUser {ops : List StoreOp} {username nickname password mail : Bytes}
    (h : UserTable st.sql.db) (hcarried : Run.Always (step env) (CarriedOut env) st ops)
    (hrun : Run.run (step env) st ops = .ok st') (hmem : .addUser username nickname password mail ∈ ops) :
    OwnerLost st' := by
  refine Run.run_of_mem (J := fun s : Store => UserTable s.sql.db)
    (fun s op s' hs hop hstep => hs.step hop.ne_restart hstep) (fun s s' htable hop hstep => ?_)
    (fun s op s' hs hop hstep => hs.step hop hstep) h hcarried hrun hmem
  refine ⟨htable.step hop.ne_restart hstep, ?_⟩
  cases ids_step htable hop hstep with
  | adds n u w hadds hcreates hnone hrecord hstored hcase =>
      refine ⟨n, u, w, by rw [hrecord, if_pos rfl], by rw [hstored, if_pos rfl], ?_⟩
      rcases hcase with ⟨_, _, _, _, -, hzero⟩ | ⟨_, hgroup, -⟩
      · rw [hzero]
        decide
      · cases hgroup
  | keeps hadds => exact absurd trivial hadds

/-- Every group has a row. -/
theorem hasRows_of_addGroup {ops : List StoreOp} {groupname : Bytes} {ownerid : Int} (h : UserTable st.sql.db)
    (hcarried : Run.Always (step env) (CarriedOut env) st ops) (hrun : Run.run (step env) st ops = .ok st')
    (hmem : .addGroup groupname ownerid ∈ ops) : HasRows st' := by
  refine Run.run_of_mem (J := fun s : Store => UserTable s.sql.db)
    (fun s op s' hs hop hstep => hs.step hop.ne_restart hstep) (fun s s' htable hop hstep => ?_)
    (fun s op s' hs hop hstep => hs.step hop hstep) h hcarried hrun hmem
  refine ⟨htable.step hop.ne_restart hstep, ?_⟩
  cases ids_step htable hop hstep with
  | adds n u w hadds hcreates hnone hrecord hstored => exact ⟨n, w, by rw [hstored, if_pos rfl]⟩
  | keeps hadds => exact absurd trivial hadds

/-- `data()` of a vector that has been cleared is not null: `Fetch` shows something behind every empty result. -/
def KeptCleared (env : SqlEnv) : Prop := ∀ n, env.stale n ≠ none

/-- Then the record a start makes of empty tables has no row. -/
theorem EmptyTables.rowless {sql : MySql} (h : EmptyTables sql.db) (henv : Answers env) (hkept : KeptCleared env)
    (hinit : init env ⟨sql, new⟩ = (true, st)) : ∃ z, Rowless z st := by
  obtain ⟨pRow, hpRow⟩ := Option.ne_none_iff_exists'.1 (hkept sql.sent)
  have hshown : ∃ u, shownRecord env sql.sent = some u ∧ u.userid = (userOfRow pRow).userid := by
    rw [shownRecord, hpRow]
    exact ⟨_, rfl, rfl⟩
  obtain ⟨u, hu, hid⟩ := hshown
  have hdb := db_init hinit
  refine ⟨(userOfRow pRow).userid, by rw [hdb]; exact h.users, ⟨u, ?_⟩, by rw [hdb]; exact h.nobody _, ?_,
    (seeded_init hinit).2.2.1⟩
  · rw [h.record_init henv hinit, hu, Option.filter_some, if_pos (decide_eq_true hid)]
  · obtain ⟨rows, hrows, hst⟩ := init_eq hinit
    rw [h.select_nil hrows, hpRow] at hst
    rw [hst, (loadAllFriends_frame env _ _).2.2.2.2.1]
    exact (loadUser_new pRow).2.2.2

/-- A restart has nothing to show: where `data()` of a cleared vector is null, no user was added, and every group
was created without an owner and had its profile updated later; or no user and no group was added, and the record
made of the empty table is still what a start makes of it. -/
def NothingToShow (env : SqlEnv) (st : Store) (ops : List StoreOp) : Prop :=
  NullCleared env ∧ SurviveRestart 0xFFFFFFF ops ∨ (∀ op ∈ ops, ¬ op.Adds) ∧ ShownAgain env st

/-- Where `data()` of a cleared vector is not null, additions show. -/
theorem EmptyTables.not_adds {sql : MySql} {st₀ : Store} (h : EmptyTables sql.db) (henv : Answers env)
    (hkept : KeptCleared env) (hstart : init env ⟨sql, new⟩ = (true, st₀)) {ops : List StoreOp}
    (hcarried : Run.Always (step env) (CarriedOut env) st₀ ops)
    (hno : Run.Always (step env) (fun st op => NoOverflow st.users op) st₀ ops)
    (hrun : Run.run (step env) st₀ ops = .ok st) (hun : RestartUnobservable env st) : ∀ op ∈ ops, ¬ op.Adds := by
  have htable : UserTable st₀.sql.db := by
    rw [db_init hstart]
    exact h.users
  have hnouser : ∀ op ∈ ops, ∀ username nickname password mail, op ≠ .addUser username nickname password mail := by
    rintro op hmem username nickname password mail rfl
    exact (ownerLost_of_addUser htable hcarried hrun hmem).observable hun
  rintro op hmem hadds
  cases op with
  | addUser username nickname password mail => exact hnouser _ hmem _ _ _ _ rfl
  | addGroup groupname ownerid =>
      obtain ⟨z, hrowless⟩ := h.rowless henv hkept hstart
      have hend : Rowless z st := by
        refine Run.run_invariant (P := fun s op => (CarriedOut env s op ∧ NoOverflow s.users op) ∧
            ∀ username nickname password mail, op ≠ .addUser username nickname password mail)
          (fun s op s' hs hop hstep => hs.step hop.2 hop.1.2 hop.1.1 hstep) hrowless ?_ hrun
        exact Run.always_and.2 ⟨Run.always_and.2 ⟨hcarried, hno⟩, Run.always_of_forall_mem hnouser⟩
      exact hend.observable (hasRows_of_addGroup htable hcarried hrun hmem) hun
  | _ => exact hadds

/-- **When a restart is unobservable.** From tables that `Init` has just created, after any operations whose
statements are carried out and store exactly the values they name, a fresh `init` gives every id the record it
has when there is nothing to show; and, `data()` of cleared vectors being null or not and no counter having
overflowed, only then. -/
theorem restart_unobservable_iff {env₀ : SqlEnv} {sql₀ sql : MySql} {st₀ : Store}
    (hnew : ∀ info ∈ [MySqlManager.tChatmsg, MySqlManager.tUser, MySqlManager.tUserRelationship],
      sql₀.db.tables info.sName = none)
    (hcreated : MySqlManager.init env₀ sql₀ = (true, sql)) (henv : Answers env)
    (hstart : init env ⟨sql, new⟩ = (true, st₀)) {ops : List StoreOp}
    (hcarried : Run.Always (step env) (CarriedOut env) st₀ ops)
    (hrun : Run.run (step env) st₀ ops = .ok st) :
    (NothingToShow env st ops → RestartUnobservable env st) ∧
      (NullCleared env ∨
          KeptCleared env ∧ Run.Always (step env) (fun st op => NoOverflow st.users op) st₀ ops →
        RestartUnobservable env st → NothingToShow env st ops) := by
  have hempty := emptyTables_new hnew hcreated
  have hbare := hempty.bare henv hstart
  constructor
  · rintro (⟨hnull, hsurvive⟩ | ⟨hadds, hagain⟩)
    · exact (hempty.unobservable_null_iff henv hnull hstart hcarried hrun).2 hsurvive
    · exact (hbare.run hadds hcarried hrun).1.unobservable henv hagain
  · -- not null: any addition takes the record of the empty table away
    rintro (hnull | ⟨hkept, hno⟩) hun
    · exact .inl ⟨hnull, (hempty.unobservable_null_iff henv hnull hstart hcarried hrun).1 hun⟩
    · have hadds := hempty.not_adds henv hkept hstart hcarried hno hrun hun
      obtain ⟨hend, hhere⟩ := hbare.run hadds hcarried hrun
      obtain ⟨z, hrowless⟩ := hempty.rowless henv hkept hstart
      exact .inr ⟨hadds, hend.shownAgain henv ⟨z, (hhere z).2 hrowless.here⟩ hun⟩

/-- A group without an owner whose profile is updated. -/
def updatedGroup : List StoreOp := [.addGroup (str "g") (-1), .updateUserInfo 268435456 { birthday := 20240101 }]

/-- Its two statements are carried out. -/
theorem carriedOut_updatedGroup {st₀ : Store}
    (hadd : (MySql.execute env (addGroupStmt (nextId st₀.users.baseGroupID) (cStr (str "g")) (-1)) st₀.sql).1 = true)
    (hupdate : (MySql.execute env (updateUserInfoStmt 268435456 { birthday := 20240101 })
      (addGroup env (str "g") (-1) st₀).2.2.sql).1 = true) :
    Run.Always (step env) (CarriedOut env) st₀ updatedGroup := by
  have hint : IsInt32 (-1) ∧ IsInt32 (-1) ∧ IsInt32 20240101 := by decide
  refine ⟨⟨trivial, ?_, by decide +kernel⟩, fun st₁ hst₁ => ⟨⟨hint, ?_, by decide +kernel⟩, fun _ _ => trivial⟩⟩
  · rintro stmt ⟨⟩
    exact hadd
  · rintro stmt ⟨⟩
    rw [← Except.ok.inj hst₁]
    exact hupdate

/-- The start on fresh tables, where nothing is behind an empty result. -/
theorem init_freshTables : init SqlEnv.ideal ⟨⟨MySqlManager.freshDb, 6⟩, new⟩ = (true, freshStore) := by
  rw [← freshTables_eq, init_fresh, freshStore_eq]

/-- A restart does not show on the group where `data()` of a cleared vector is null; where it is not, the record
read from the cleared fields is gone. -/
theorem restart_unobservable_group :
    (∀ st, Run.run (step SqlEnv.ideal) freshStore updatedGroup = .ok st → RestartUnobservable SqlEnv.ideal st) ∧
      ∀ st, Run.run (step clearedFields) clearedStore updatedGroup = .ok st →
        ¬ RestartUnobservable clearedFields st := by
  have hid : nextId 0xFFFFFFF = 268435456 := by decide +kernel
  have hsurvive : SurviveRestart 0xFFFFFFF updatedGroup := by
    refine ⟨rfl, ⟨{ birthday := 20240101 }, ?_⟩, trivial⟩
    rw [hid]
    exact List.mem_singleton_self _
  constructor
  · intro st hrun
    refine (restart_unobservable_iff (fun info _ => rfl) MySqlManager.init_empty (fun _ => rfl) init_freshTables
      (carriedOut_updatedGroup ?_ ?_) hrun).1 (.inl ⟨fun _ => rfl, hsurvive⟩)
    · rw [freshStore_eq]
      decide +kernel
    · rw [freshStore_eq]
      decide +kernel
  · intro st hrun hun
    have hno : Run.Always (step clearedFields) (fun st op => NoOverflow st.users op) clearedStore updatedGroup :=
      ⟨show clearedStore.users.baseGroupID + 1 < 2147483648 by decide +kernel,
        fun _ _ => ⟨trivial, fun _ _ => trivial⟩⟩
    rcases (restart_unobservable_iff (fun info _ => rfl) MySqlManager.init_empty (fun _ => rfl) init_cleared
      (carriedOut_updatedGroup (by decide +kernel) (by decide +kernel)) hrun).2
      (.inr ⟨fun _ => Option.some_ne_none _, hno⟩) hun with ⟨hnull, -⟩ | ⟨hadds, -⟩
    · exact Option.some_ne_none _ (hnull 0)
    · exact hadds _ List.mem_cons_self trivial

/-- A user is added. -/
def userAdded : List StoreOp := [.addUser (str "a") (str "a") (str "p") []]

/-- On fresh tables a restart shows on every user, when its statement is carried out. -/
theorem shows_userAdded {st₀ : Store} (hinit : init env ⟨⟨MySqlManager.freshDb, 6⟩, new⟩ = (true, st₀))
    (hadd : (MySql.execute env (addUserStmt (nextId st₀.users.baseUserID)
      (newUser (str "a") (str "a") (str "p") [])) st₀.sql).1 = true) :
    ¬ ∀ st, Run.run (step env) st₀ userAdded = .ok st → RestartUnobservable env st := by
  intro h
  have htable : UserTable st₀.sql.db := by
    rw [db_init hinit]
    have hfresh := userTable_fresh
    rwa [freshTables_eq] at hfresh
  have hcarried : Run.Always (step env) (CarriedOut env) st₀ userAdded := by
    refine ⟨⟨trivial, ?_, by decide +kernel⟩, fun _ _ => trivial⟩
    rintro stmt ⟨⟩
    exact hadd
  exact (ownerLost_of_addUser htable hcarried rfl List.mem_cons_self).observable (h _ rfl)

/-- A restart shows on a user, whether `data()` of a cleared vector is null or not: the owner is 0 in memory and -1
after it. -/
theorem restart_shows_user :
    (¬ ∀ st₀, init SqlEnv.ideal ⟨⟨MySqlManager.freshDb, 6⟩, new⟩ = (true, st₀) →
        ∀ st, Run.run (step SqlEnv.ideal) st₀ userAdded = .ok st → RestartUnobservable SqlEnv.ideal st) ∧
      ¬ ∀ st₀, init clearedFields ⟨⟨MySqlManager.freshDb, 6⟩, new⟩ = (true, st₀) →
        ∀ st, Run.run (step clearedFields) st₀ userAdded = .ok st → RestartUnobservable clearedFields st :=
  ⟨fun h => shows_userAdded init_freshTables (by rw [freshStore_eq]; decide +kernel) (h _ init_freshTables),
    fun h => shows_userAdded init_cleared (by decide +kernel) (h _ init_cleared)⟩

end UserManager

end AimChat
