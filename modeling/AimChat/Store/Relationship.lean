import AimChat.Lib.EdgeCopies
import AimChat.Store.Load
import AimChat.Store.Operations

/-! # The relationship graph and its three copies

Who is whose friend is kept in the `friends` sets of both records and in a row of
`t_user_relationship`. `Store.copies` reads the three as an `EdgeCopies`, and each operation of the
store is shown to be an operation on those: a relationship made is a link, one released or deleted an
unlink, and a user or group added is a vertex created. The copies therefore agree in every state of a
run exactly when no record is ever created under an id that one of them already names. -/

namespace AimChat

open Sql

/-- The three copies of the relationship graph: the ids in `m_mapUsers`, the `friends` sets of their
records, and the rows of `t_user_relationship`. -/
def Store.copies (st : Store) : EdgeCopies Int where
  here a := ∃ u, st.users.record a = some u
  lists a b := ∃ u, st.users.record a = some u ∧ b ∈ u.friends
  row := HasRow st.sql.db

namespace UserManager

variable {env : SqlEnv} {st st' : Store}

/-! ## Operations on the copies -/

/-- The copies depend on the records and on the rows only. -/
theorem copies_congr (hrec : ∀ a, st'.users.record a = st.users.record a)
    (hrows : st'.sql.db.rows "t_user_relationship" = st.sql.db.rows "t_user_relationship") :
    st'.copies = st.copies := by
  ext a b
  · simp only [Store.copies, hrec]
  · simp only [Store.copies, hrec]
  · simp only [Store.copies, HasRow, hrows]

/-- Changing a record but not its friends leaves the copies. -/
theorem copies_modifyById {sql : MySql} (id : Int) (f : User → User)
    (hf : ∀ u, (f u).userid = u.userid) (hfriends : ∀ u, (f u).friends = u.friends)
    (hrows : sql.db.rows "t_user_relationship" = st.sql.db.rows "t_user_relationship") :
    Store.copies ⟨sql, st.users.modifyById id f hf⟩ = st.copies := by
  ext a b
  · simp only [Store.copies, record_modifyById]
    split_ifs <;> simp
  · simp only [Store.copies, record_modifyById]
    split_ifs <;> simp [hfriends]
  · simp only [Store.copies, HasRow, hrows]

/-- Sharing a record without friends creates a vertex. -/
theorem copies_share {um : UserManager} {sql : MySql} {u : User} (hfriends : u.friends = ∅)
    (hrec : ∀ a, um.record a = st.users.record a)
    (hrows : sql.db.rows "t_user_relationship" = st.sql.db.rows "t_user_relationship") :
    Store.copies ⟨sql, um.share u⟩ = st.copies.create u.userid := by
  ext a b
  · simp only [Store.copies, EdgeCopies.create, record_share, hrec]
    split_ifs with ha <;> simp [ha]
  · simp only [Store.copies, EdgeCopies.create, record_share, hrec]
    split_ifs with ha <;> simp [ha, hfriends]
  · simp only [Store.copies, EdgeCopies.create, HasRow, hrows]

/-- A row for `MakeFriendRelationship` is in the table. -/
theorem hasRow_makeFriend {now : Int} {db db' : Db} {smallid greatid : Int}
    (h : db.exec now (makeFriendStmt smallid greatid) = some db') (a b : Int) :
    HasRow db' a b ↔ HasRow db a b ∨ a = smallid ∧ b = greatid := by
  obtain ⟨t, named, ht, hnamed, -, -, rfl⟩ := Db.exec_insert h
  have hnamed' : named = [("f_user_id1", .int smallid), ("f_user_id2", .int greatid)] :=
    (Option.some.inj hnamed).symm
  have hrows : db.rows "t_user_relationship" = t.rows := Db.rows_of_table ht
  have hid1 : t.newRow now named "f_user_id1" = .int smallid := by rw [hnamed']; rfl
  have hid2 : t.newRow now named "f_user_id2" = .int greatid := by rw [hnamed']; rfl
  unfold HasRow
  rw [Db.rows_set, if_pos rfl, hrows]
  constructor
  · rintro ⟨r, hr, h1, h2⟩
    rcases List.mem_append.1 hr with hr | hr
    · exact Or.inl ⟨r, hr, h1, h2⟩
    · rw [List.mem_singleton.1 hr] at h1 h2
      rw [hid1] at h1
      rw [hid2] at h2
      exact Or.inr ⟨(Value.int.inj h1).symm, (Value.int.inj h2).symm⟩
  · rintro (⟨r, hr, h1, h2⟩ | ⟨rfl, rfl⟩)
    · exact ⟨r, List.mem_append_left _ hr, h1, h2⟩
    · exact ⟨_, List.mem_append_right _ (List.mem_singleton_self _), hid1, hid2⟩

/-- The rows of a deleted relationship are gone, and no other. -/
theorem hasRow_deleteFriend {now : Int} {db db' : Db} {smallid greatid : Int}
    (h : db.exec now (deleteFriendStmt smallid greatid) = some db') (a b : Int) :
    HasRow db' a b ↔ HasRow db a b ∧ ¬ (a = smallid ∧ b = greatid) := by
  obtain ⟨t, ht, rfl⟩ := Db.exec_delete h
  have hrows : db.rows "t_user_relationship" = t.rows := Db.rows_of_table ht
  unfold HasRow
  rw [Db.rows_set, if_pos rfl, hrows]
  constructor
  · rintro ⟨r, hr, h1, h2⟩
    obtain ⟨hr, hcond⟩ := List.mem_filter.1 hr
    refine ⟨⟨r, hr, h1, h2⟩, ?_⟩
    rintro ⟨rfl, rfl⟩
    simp [Cond.holds, h1, h2] at hcond
  · rintro ⟨⟨r, hr, h1, h2⟩, hne⟩
    refine ⟨r, List.mem_filter.2 ⟨hr, ?_⟩, h1, h2⟩
    simp only [Cond.holds, h1, h2, Value.int.injEq, Bool.not_eq_true', Bool.and_eq_false_iff,
      decide_eq_false_iff_not]
    exact not_and_or.1 hne

/-- Adding a friend to the record under an id. -/
theorem lists_addFriend (um : UserManager) (id friendid a b : Int) :
    (∃ u, (um.addFriend id friendid).record a = some u ∧ b ∈ u.friends) ↔
      (∃ u, um.record a = some u ∧ b ∈ u.friends) ∨
        (∃ u, um.record id = some u) ∧ a = id ∧ b = friendid := by
  rw [record_addFriend]
  by_cases ha : a = id
  · subst ha
    cases um.record a with
    | none => simp
    | some u => simp [or_comm]
  · simp [ha]

/-- Taking a friend from the record under an id. -/
theorem lists_removeFriend (um : UserManager) (id friendid a b : Int) :
    (∃ u, (um.removeFriend id friendid).record a = some u ∧ b ∈ u.friends) ↔
      (∃ u, um.record a = some u ∧ b ∈ u.friends) ∧ ¬ (a = id ∧ b = friendid) := by
  rw [record_removeFriend]
  by_cases ha : a = id
  · subst ha
    cases um.record a with
    | none => simp
    | some u => simp [and_comm]
  · simp [ha]

theorem here_addFriend (um : UserManager) (id friendid a : Int) :
    (∃ u, (um.addFriend id friendid).record a = some u) ↔ ∃ u, um.record a = some u := by
  rw [record_addFriend]
  by_cases ha : a = id
  · subst ha
    cases um.record a <;> simp
  · simp [ha]

theorem here_removeFriend (um : UserManager) (id friendid a : Int) :
    (∃ u, (um.removeFriend id friendid).record a = some u) ↔ ∃ u, um.record a = some u := by
  rw [record_removeFriend]
  by_cases ha : a = id
  · subst ha
    cases um.record a <;> simp
  · simp [ha]

/-- A relationship made is a link. -/
theorem copies_linked {sql : MySql} {smallid greatid : Int}
    (h : MySql.execute env (makeFriendStmt smallid greatid) st.sql = (true, sql)) :
    Store.copies ⟨sql, linked smallid greatid st.users⟩ = st.copies.link smallid greatid := by
  have hexec := MySql.db_exec_of_execute h
  ext a b
  · unfold linked
    split_ifs
    · simp only [Store.copies, EdgeCopies.link, here_addFriend]
    · simp only [Store.copies, EdgeCopies.link, here_addFriend]
    · rfl
  -- the greater id's record is reached only when the smaller one's is there
  · change (∃ u, (linked smallid greatid st.users).record a = some u ∧ b ∈ u.friends) ↔
      (∃ u, st.users.record a = some u ∧ b ∈ u.friends) ∨
        ((∃ u, st.users.record smallid = some u) ∧ a = smallid ∧ b = greatid) ∨
        ((∃ u, st.users.record smallid = some u) ∧ (∃ u, st.users.record greatid = some u) ∧
          a = greatid ∧ b = smallid)
    unfold linked
    cases hs : st.users.record smallid with
    | none => simp
    | some u =>
        cases hg : st.users.record greatid with
        | none =>
            rw [if_pos Option.isSome_some, if_neg (by simp), lists_addFriend, hs]
            simp
        | some v =>
            rw [if_pos Option.isSome_some, if_pos Option.isSome_some, lists_addFriend, lists_addFriend,
              here_addFriend, hs, hg]
            simp [or_assoc]
  · exact hasRow_makeFriend hexec a b

/-- A relationship released or deleted is an unlink. -/
theorem copies_unlinked {sql : MySql} {x y : Int}
    (h : MySql.execute env (deleteFriendStmt (min x y) (max x y)) st.sql = (true, sql)) :
    Store.copies ⟨sql, unlinked x y st.users⟩ = st.copies.unlink x y := by
  have hexec := MySql.db_exec_of_execute h
  unfold unlinked
  ext a b
  · simp only [Store.copies, EdgeCopies.unlink, here_removeFriend]
  · simp only [Store.copies, EdgeCopies.unlink, lists_removeFriend, and_assoc]
  · exact hasRow_deleteFriend hexec a b

/-- What an operation does to the copies. -/
inductive CopiesStep (op : StoreOp) (c c' : EdgeCopies Int) : Prop
  | same (h : c' = c)
  | link (smallid greatid : Int) (hop : op = .makeFriendRelationship smallid greatid)
      (hlt : smallid < greatid) (h : c' = c.link smallid greatid)
  | unlink (x y : Int) (h : c' = c.unlink x y)

/-- **Operations of the store are operations on the copies.** An operation that creates a record
creates its vertex; any other leaves the copies, links two ids, or unlinks two. -/
theorem copies_step {op : StoreOp} (hop : op ≠ .restart) (h : step env st op = .ok st') :
    (∃ n, Creates env st n op ∧ st'.copies = st.copies.create n) ∨
      (∀ n, ¬ Creates env st n op) ∧ CopiesStep op st.copies st'.copies := by
  have hne : "t_user_relationship" ≠ "t_user" := by decide
  cases operated env hop h with
  | failed op hstmt hfalse =>
      refine Or.inr ⟨not_creates_of_failed env hstmt hfalse, .same (copies_congr (fun id => ?_) ?_)⟩
      · exact record_advanced op id
      · rw [MySql.db_of_execute_false hfalse]
  | idle op hfriends hdb =>
      exact Or.inr ⟨hfriends.not_creates env, .same (copies_congr (fun _ => rfl) (by rw [hdb]))⟩
  | addUser username nickname password mail hexec =>
      refine Or.inl ⟨nextId st.users.baseUserID, ⟨?_, rfl⟩, ?_⟩
      · rw [fst_addUser, hexec]
      · exact copies_share rfl (fun _ => rfl) (Db.rows_exec_other (MySql.db_exec_of_execute hexec) hne)
  | addGroup groupname ownerid hexec =>
      refine Or.inl ⟨nextId st.users.baseGroupID, ⟨?_, rfl⟩, ?_⟩
      · rw [fst_addGroup, hexec]
      · exact copies_share rfl (fun _ => rfl) (Db.rows_exec_other (MySql.db_exec_of_execute hexec) hne)
  | updateUserInfo userid info hexec =>
      exact Or.inr ⟨fun n hn => hn, .same (copies_modifyById _ _ _ (fun _ => rfl)
        (Db.rows_exec_other (MySql.db_exec_of_execute hexec) hne))⟩
  | modifyUserPassword userid newpassword hexec =>
      exact Or.inr ⟨fun n hn => hn, .same (copies_modifyById _ _ _ (fun _ => rfl)
        (Db.rows_exec_other (MySql.db_exec_of_execute hexec) hne))⟩
  | linked smallid greatid hlt hexec =>
      exact Or.inr ⟨fun n hn => hn, .link smallid greatid rfl hlt (copies_linked hexec)⟩
  | unlinked op hfriends x y hexec =>
      exact Or.inr ⟨hfriends.not_creates env, .unlink x y (copies_unlinked hexec)⟩

/-! ## The copies after a start -/

/-- What a start of the server has to meet for the copies to agree after it: every relationship query is
answered, the cursor finds nothing about a loaded id behind an empty result, and a row between two
loaded ids stands with the smaller id first, or once more so. -/
structure LoadsLinks (env : SqlEnv) (sql : MySql) (st : Store) : Prop where
  table : RelationshipTable sql.db
  answered : ∀ n, sql.sent < n → n < st.sql.sent → env.selectOk n = true
  cursor : ∀ a, st.copies.here a → StaleMisses env a
  ordered : ∀ a b, st.copies.here a → st.copies.here b → HasRow sql.db a b →
    HasRow sql.db (min a b) (max a b)

/-- After a start whose relationship queries are answered the `friends` sets hold the other ends of the rows. -/
theorem lists_init_of_answered {sql : MySql} (h : init env ⟨sql, new⟩ = (true, st))
    (htable : RelationshipTable sql.db)
    (hok : ∀ n, sql.sent < n → n < st.sql.sent → env.selectOk n = true) {a : Int} (hstale : StaleMisses env a)
    (ha : st.copies.here a) (b : Int) :
    st.copies.lists a b ↔ HasRow sql.db a b ∨ HasRow sql.db b a := by
  obtain ⟨rows, -, hst⟩ := init_eq h
  generalize hum : (QueryResult.visited (env.stale sql.sent) rows).foldl loadUser new = um at hst
  obtain ⟨hsql, hmap, -, -, -, -⟩ :=
    loadAllFriends_frame env um.cachedUsers ⟨⟨sql.db, sql.sent + 1⟩, um⟩
  -- a record in the map is in the list, has its id, and had no friends before they were loaded
  have hloaded : ∀ u, st.users.record a = some u →
      (b ∈ u.friends ↔ HasRow sql.db a b ∨ HasRow sql.db b a) := by
    intro u hu
    obtain ⟨q, hq, hqu⟩ := Option.map_eq_some_iff.1 hu
    rw [hst, hmap] at hq
    obtain ⟨hmem, hid⟩ := um.mapped hq
    have hempty : (um.heap q).friends = ∅ := by
      subst hum
      exact friends_foldl_loadUser _ hmem
    have hfriends := mem_friends_loadAllFriends um.cachedUsers
      ⟨⟨sql.db, sql.sent + 1⟩, um⟩ htable
      (fun n hlo hhi => hok n (by simp only at hlo; omega)
        (by rw [hst, hsql]; exact hhi))
      (q := q) (by rw [hid]; exact hstale) b
    rw [← hqu, hst]
    refine hfriends.trans ?_
    rw [hid, hempty]
    simp [hmem]
  constructor
  · rintro ⟨u, hu, hb⟩
    exact (hloaded u hu).1 hb
  · intro hrow
    obtain ⟨u, hu⟩ := ha
    exact ⟨u, hu, (hloaded u hu).2 hrow⟩

theorem lists_init {sql : MySql} (h : init env ⟨sql, new⟩ = (true, st))
    (hload : LoadsLinks env sql st) {a : Int} (ha : st.copies.here a) (b : Int) :
    st.copies.lists a b ↔ HasRow sql.db a b ∨ HasRow sql.db b a :=
  lists_init_of_answered h hload.table hload.answered (hload.cursor a ha) ha b

/-- A start writes nothing. -/
theorem db_init {sql : MySql} (h : init env ⟨sql, new⟩ = (true, st)) : st.sql.db = sql.db := by
  obtain ⟨rows, -, hst⟩ := init_eq h
  rw [hst, (loadAllFriends_frame env _ _).1]

/-- The copies agree after a start that meets `LoadsLinks`. -/
theorem agree_init {sql : MySql} (h : init env ⟨sql, new⟩ = (true, st))
    (hload : LoadsLinks env sql st) : st.copies.Agree := by
  have hdb := db_init h
  intro a b ha hb
  rw [lists_init h hload ha, lists_init h hload hb]
  refine ⟨or_comm, ?_⟩
  change _ ↔ HasRow st.sql.db _ _
  rw [hdb]
  constructor
  · rintro (hrow | hrow)
    · exact hload.ordered a b ha hb hrow
    · rw [min_comm, max_comm]
      exact hload.ordered b a hb ha hrow
  · exact EdgeCopies.or_of_min_max

/-! ## The copies over a run -/

/-- A record created gets an id that no relationship row joins with an id that is there, nor a `friends`
set of a record that is there holds. -/
def CreatesUnnamed (env : SqlEnv) (st : Store) (op : StoreOp) : Prop :=
  ∀ n, Creates env st n op → st.copies.Unnamed n

/-- One operation creates one id at most. -/
theorem Creates.unique {op : StoreOp} {m n : Int} (hm : Creates env st m op)
    (hn : Creates env st n op) : m = n := by
  cases op with
  | addUser => exact hm.2.trans hn.2.symm
  | addGroup => exact hm.2.trans hn.2.symm
  | _ => exact absurd hm id

/-- **One step.** From copies that agree, an operation leads to copies that agree exactly when it
creates no record under an id they name. -/
theorem agree_step_iff {op : StoreOp} (hop : op ≠ .restart) (h : step env st op = .ok st')
    (hagree : st.copies.Agree) : st'.copies.Agree ↔ CreatesUnnamed env st op := by
  rcases copies_step hop h with ⟨n, hn, heq⟩ | ⟨hnone, hstep⟩
  · rw [heq, EdgeCopies.agree_create_iff hagree]
    exact ⟨fun hun m hm => hm.unique hn ▸ hun, fun hun => hun n hn⟩
  · refine iff_of_true ?_ fun n hn => absurd hn (hnone n)
    rcases hstep with heq | ⟨smallid, greatid, -, hlt, heq⟩ | ⟨x, y, heq⟩ <;> rw [heq]
    · exact hagree
    · exact hagree.link hlt
    · exact hagree.unlink x y

/-- Over a run from copies that agree, they agree in every state reached exactly when no step creates a
record under an id they name. -/
theorem agree_run_iff {ops : List StoreOp} (hops : StoreOp.restart ∉ ops)
    (hagree : st.copies.Agree) :
    (∀ pre st', pre <+: ops → Run.run (step env) st pre = .ok st' → st'.copies.Agree) ↔
      Run.Always (step env) (CreatesUnnamed env) st ops := by
  refine Run.forall_prefix_iff_always (I := fun _ => True) (Q := fun st : Store => st.copies.Agree)
    (H := fun _ op => op ≠ StoreOp.restart) (fun _ _ _ _ _ _ => trivial) ?_ ?_ trivial hagree ?_
  · intro st op st' _ hagree hop h
    exact agree_step_iff hop h hagree
  · intro st op _ _ _ hop h
    obtain ⟨st', hst'⟩ := step_ok env hop st
    rw [hst'] at h
    cases h
  · exact Run.always_of_forall_mem fun op hop hrestart => hops (hrestart ▸ hop)

/-- **When the relationship graph stays symmetric and equal to the database.** From a start that meets
`LoadsLinks`, through any operations with any statements failing, the two `friends` sets and the table
say the same of any two ids in `m_mapUsers` in every state reached exactly when no record is ever
created under an id that a relationship row joins with an id there or a `friends` set there holds. -/
theorem relationship_agrees_iff {sql : MySql} {st₀ : Store}
    (hinit : init env ⟨sql, new⟩ = (true, st₀)) (hload : LoadsLinks env sql st₀)
    {ops : List StoreOp} (hops : StoreOp.restart ∉ ops) :
    (∀ pre st, pre <+: ops → Run.run (step env) st₀ pre = .ok st →
        ∀ u v, (∃ r, st.users.record u = some r) → (∃ r, st.users.record v = some r) →
          ((∃ r, st.users.record u = some r ∧ v ∈ r.friends) ↔
              ∃ r, st.users.record v = some r ∧ u ∈ r.friends) ∧
            ((∃ r, st.users.record u = some r ∧ v ∈ r.friends) ↔
              HasRow st.sql.db (min u v) (max u v))) ↔
      Run.Always (step env) (CreatesUnnamed env) st₀ ops :=
  agree_run_iff hops (agree_init hinit hload)

/-- A start on fresh tables meets `LoadsLinks`. -/
theorem loadsLinks_fresh : LoadsLinks SqlEnv.ideal freshTables freshStore := by
  have htable : freshTables.db.tables "t_user_relationship" =
      some MySqlManager.freshUserRelationship := by
    rw [freshTables_eq]
    rfl
  have hrows : freshTables.db.rows "t_user_relationship" = [] := Db.rows_of_table htable
  refine ⟨⟨⟨_, htable, by decide +kernel, by decide +kernel⟩, ?_⟩, fun _ _ _ => rfl, ?_, ?_⟩
  · rw [hrows]
    exact fun r hr => absurd hr List.not_mem_nil
  · exact fun a _ n pRow hpRow => absurd hpRow (by simp [SqlEnv.ideal])
  · rintro a b - - ⟨r, hr, -⟩
    rw [hrows] at hr
    exact absurd hr List.not_mem_nil

/-- Two users who make friends on fresh tables. -/
theorem relationship_agrees_two :
    (∀ pre st, pre <+: [.addUser (str "a") (str "a") (str "p") [],
          .addUser (str "b") (str "b") (str "p") [], .makeFriendRelationship 1 2] →
        Run.run (step SqlEnv.ideal) freshStore pre = .ok st →
        ∀ u v, (∃ r, st.users.record u = some r) → (∃ r, st.users.record v = some r) →
          ((∃ r, st.users.record u = some r ∧ v ∈ r.friends) ↔
              ∃ r, st.users.record v = some r ∧ u ∈ r.friends) ∧
            ((∃ r, st.users.record u = some r ∧ v ∈ r.friends) ↔
              HasRow st.sql.db (min u v) (max u v))) ↔
      Run.Always (step SqlEnv.ideal) (CreatesUnnamed SqlEnv.ideal) freshStore
        [.addUser (str "a") (str "a") (str "p") [], .addUser (str "b") (str "b") (str "p") [],
          .makeFriendRelationship 1 2] :=
  relationship_agrees_iff
    (init_fresh.trans (by rw [freshStore_eq])) loadsLinks_fresh (by simp)

/-- `b` is in `a`'s friends, but `a` is not in `b`'s. -/
def oneSided (um : UserManager) (a b : Int) : Bool :=
  match um.record a, um.record b with
  | some u, some v => decide (b ∈ u.friends ∧ a ∉ v.friends)
  | _, _ => false

theorem not_agree_of_oneSided {a b : Int} (h : oneSided st.users a b = true) :
    ¬ st.copies.Agree := by
  intro hagree
  unfold oneSided at h
  split at h
  next u v hu hv =>
    obtain ⟨hone, htwo⟩ := of_decide_eq_true h
    obtain ⟨v', hv', hmem⟩ := (hagree a b ⟨u, hu⟩ ⟨v, hv⟩).1.1 ⟨u, hu, hone⟩
    rw [hv] at hv'
    cases hv'
    exact htwo hmem
  · exact absurd h Bool.false_ne_true

/-- User 1 befriends the id 2 before anyone has it, and then someone registers and gets it: user 2 is in
user 1's friends, but user 1 is not in user 2's. -/
theorem friend_of_nobody :
    ¬ ∀ st, Run.run (step SqlEnv.ideal) freshStore
        [.addUser (str "a") (str "a") (str "p") [], .makeFriendRelationship 1 2,
          .addUser (str "b") (str "b") (str "p") []] = .ok st → st.copies.Agree := by
  intro h
  rw [freshStore_eq] at h
  refine not_agree_of_oneSided (a := 1) (b := 2) ?_ (h _ rfl)
  decide +kernel

end UserManager

end AimChat
