import AimChat.Store.Statements
import AimChat.Store.UserIds

/-! # Statements that MySQL reads otherwise

While every text stays between its quotes (`Contained`), MySQL reads the statement that was put together, each
literal with the value of its text. A backslash or a NUL can make it another one, of which nothing is known
(`Misreading`). The two indexes and the fresh ids of `UserManager` last as long as the statements are contained:
a username that ends in a backslash lets `AddUser` insert a row more than it makes records. -/

namespace AimChat

open Sql

/-- Every text of the statement ends at its own closing quote, and none has a NUL. -/
def Contained (stmt : Stmt) : Prop := stmt.literals.all Literal.whole = true ∧ MySql.cut stmt = false

instance (stmt : Stmt) : Decidable (Contained stmt) := inferInstanceAs (Decidable (_ ∧ _))

/-- The statement has whole literals without NULs only. -/
theorem contained_iff {stmt : Stmt} :
    Contained stmt ↔ ∀ raw, .quoted raw ∈ stmt.literals → 0 ∉ raw ∧ (unquote raw).isSome := by
  unfold Contained MySql.cut
  rw [List.all_eq_true, List.any_eq_false]
  constructor
  · rintro ⟨hwhole, hcut⟩ raw hraw
    exact ⟨fun h0 => hcut _ hraw (List.contains_iff_mem.2 h0), hwhole _ hraw⟩
  · intro h
    refine ⟨fun l hl => ?_, fun l hl => ?_⟩
    · cases l with
      | quoted raw => exact (h raw hl).2
      | _ => rfl
    · cases l with
      | quoted raw => exact fun h0 => (h raw hl).1 (List.contains_iff_mem.1 h0)
      | _ => exact Bool.false_ne_true

/-- A statement that `execute` carries out is contained. -/
theorem contained_of_execute {env : SqlEnv} {stmt : Stmt} {m m' : MySql} (h : MySql.execute env stmt m = (true, m')) :
    Contained stmt := by
  obtain ⟨-, hcut, hexec, -⟩ := MySql.exec_of_execute h
  refine ⟨?_, hcut⟩
  -- every literal of an `INSERT` or `UPDATE` was evaluated; the other statements have none
  cases stmt with
  | insert name values =>
      obtain ⟨t, named, -, hnamed, -⟩ := Db.exec_insert hexec
      exact whole_of_evalAll hnamed
  | update name values cond =>
      obtain ⟨t, named, -, hnamed, -⟩ := Db.exec_update hexec
      exact whole_of_evalAll hnamed
  | _ => rfl

/-! ## What MySQL reads -/

namespace UserManager.ClientStatement

/-- The literals of a statement, each with the value that its text has and with what stands behind it. -/
def readings (c : ClientStatement) : List (Bytes × Bytes) :=
  c.text.literals.map fun l => ((unquote (escapeSqlString l.1)).getD [], l.2.bytes)

/-- A statement is contained when each of its texts is. -/
theorem contained_iff (c : ClientStatement) :
    Contained c.stmt ↔ ∀ l ∈ c.text.literals, 0 ∉ l.1 ∧ (unquote (escapeSqlString l.1)).isSome := by
  have hmem : ∀ raw, .quoted raw ∈ c.stmt.literals ↔ raw ∈ c.text.literals.map fun l => escapeSqlString l.1 := by
    intro raw
    rw [← c.literals_text, List.mem_filterMap]
    constructor
    · exact fun h => ⟨_, h, rfl⟩
    · rintro ⟨l, hl, hraw⟩
      cases l with
      | quoted raw' =>
          cases hraw
          exact hl
      | _ => cases hraw
  rw [AimChat.contained_iff]
  simp only [hmem, List.forall_mem_map, zero_mem_escapeSqlString]

/-- **Contained statements.** MySQL reads a contained statement the way it was put together, each literal with
the value of its text. -/
theorem reads_of_contained {c : ClientStatement} (h : Contained c.stmt) :
    Reads (cStr (assemble c.text.front c.text.literals)) c.text.front.bytes c.readings := by
  rw [contained_iff] at h
  unfold readings
  generalize c.text.front = front, c.text.literals = literals at h ⊢
  -- one literal after the other, each with the text behind it for the front of the rest
  induction literals generalizing front with
  | nil =>
      have hsent := cStr_append front.no_nul []
      rw [List.append_nil, cStr_nil, List.append_nil] at hsent
      show Reads (cStr front.bytes) front.bytes []
      rw [hsent]
      exact .plain front.no_quote
  | cons l literals ih =>
      obtain ⟨s, after⟩ := l
      obtain ⟨⟨h0, hwhole⟩, hrest⟩ := List.forall_mem_cons.1 h
      obtain ⟨v, hv⟩ := Option.isSome_iff_exists.1 hwhole
      -- no NUL cuts the statement before the closing quote
      have hsent : cStr (assemble front ((s, after) :: literals)) =
          front.bytes ++ 39 :: (escapeSqlString s ++ 39 :: cStr (assemble after literals)) := by
        rw [assemble, cStr_append front.no_nul, cStr_cons (by decide),
          cStr_append (mt zero_mem_escapeSqlString.1 h0), cStr_cons (by decide)]
      rw [hsent, List.map_cons, hv]
      exact .literal front.no_quote (readLiteral_of_unquote hv (head?_cStr_ne (head?_assemble_ne after literals)))
        (ih after hrest)

/-- A statement of harmless texts is contained. -/
theorem contained_of_harmless {c : ClientStatement} (h : ∀ l ∈ c.text.literals, Harmless l.1) :
    Contained c.stmt := by
  rw [contained_iff]
  intro l hl
  obtain ⟨hstored, h0⟩ := harmless_iff_storedAsIs.1 (h l hl)
  rw [hstored]
  exact ⟨h0, rfl⟩

end UserManager.ClientStatement

/-- What MySQL does with the `n`-th statement when it reads another one in it than was put together: it refuses
that one, or it carries it out. -/
abbrev Misreading := Nat → Stmt → Db → Option Db

/-- `MySqlManager::Execute(sql)`, of any statement. -/
def executeText (env : SqlEnv) (misread : Misreading) (stmt : Stmt) (m : MySql) : Bool × MySql :=
  if Contained stmt then MySql.execute env stmt m
  else
    match if env.execOk m.sent then misread m.sent stmt m.db else none with
    | some db => (true, ⟨db, m.sent + 1⟩)
    | none => (false, ⟨m.db, m.sent + 1⟩)

theorem executeText_of_contained {env : SqlEnv} {misread : Misreading} {stmt : Stmt} (h : Contained stmt)
    (m : MySql) : executeText env misread stmt m = MySql.execute env stmt m := if_pos h

namespace UserManager

/-! ## Operations -/

variable {env : SqlEnv} {misread : Misreading} {st st' : Store} {op : StoreOp}

/-- One operation, with whatever MySQL makes of its statement. -/
def stepText (env : SqlEnv) (misread : Misreading) (st : Store) : StoreOp → Except Unit Store
  | .addUser username nickname password mail =>
      .ok (addUserBy (executeText env misread) (newUser username nickname password mail) st).2
  | .addGroup groupname ownerid => .ok (addGroupBy (executeText env misread) groupname ownerid st).2.2
  | .updateUserInfo userid info => .ok (updateUserInfoBy (executeText env misread) userid info st).2
  | .modifyUserPassword userid newpassword =>
      .ok (modifyUserPasswordBy (executeText env misread) userid newpassword st).2
  -- the others put numbers into their statements
  | op => step env st op

/-- The id an operation hands out. -/
def handedOutText (env : SqlEnv) (misread : Misreading) (st : Store) : StoreOp → Option Int
  | .addUser username nickname password mail =>
      match addUserBy (executeText env misread) (newUser username nickname password mail) st with
      | (true, st) => some st.users.baseUserID
      | (false, _) => none
  | .addGroup groupname ownerid =>
      match addGroupBy (executeText env misread) groupname ownerid st with
      | (true, groupid, _) => some groupid
      | (false, _) => none
  | _ => none

/-- An operation hands out an id that neither `t_user` nor `m_mapUsers` has. -/
def HandsOutNew (env : SqlEnv) (misread : Misreading) (st : Store) (op : StoreOp) : Prop :=
  ∀ id, handedOutText env misread st op = some id → .int id ∉ userIds st.sql.db ∧ ¬ Mapped st.users id

/-- The statement of the operation, if it sends one, is contained. -/
def SendsContained (st : Store) (op : StoreOp) : Prop := ∀ stmt ∈ op.stmt st.users, Contained stmt

instance (st : Store) (op : StoreOp) : Decidable (SendsContained st op) :=
  inferInstanceAs (Decidable (∀ stmt ∈ op.stmt st.users, Contained stmt))

instance (um : UserManager) (op : StoreOp) : Decidable (NoOverflow um op) := by
  cases op <;> unfold NoOverflow <;> infer_instance

/-- What `Fetch()` points at behind an empty result reads as id 0, as cleared fields do. -/
def ZeroCursor (env : SqlEnv) : Prop := ∀ n, ∀ pRow ∈ env.stale n, (userOfRow pRow).userid = 0

section Executed

variable {execute execute' : Stmt → MySql → Bool × MySql}

theorem addUserBy_congr {user : User}
    (h : execute (addUserStmt (nextId st.users.baseUserID) user) st.sql =
      execute' (addUserStmt (nextId st.users.baseUserID) user) st.sql) :
    addUserBy execute user st = addUserBy execute' user st := by
  have hid : st.users.takeUserID.baseUserID = nextId st.users.baseUserID := rfl
  unfold addUserBy
  dsimp only
  rw [hid, h]

theorem addGroupBy_congr {groupname : Bytes} {ownerid : Int}
    (h : execute (addGroupStmt (nextId st.users.baseGroupID) (cStr groupname) ownerid) st.sql =
      execute' (addGroupStmt (nextId st.users.baseGroupID) (cStr groupname) ownerid) st.sql) :
    addGroupBy execute groupname ownerid st = addGroupBy execute' groupname ownerid st := by
  have hid : st.users.takeGroupID.baseGroupID = nextId st.users.baseGroupID := rfl
  unfold addGroupBy
  dsimp only
  rw [hid, h]

end Executed

/-- A contained statement does what is meant. -/
theorem stepText_of_contained (h : SendsContained st op) : stepText env misread st op = step env st op := by
  have hsame : ∀ stmt ∈ op.stmt st.users, executeText env misread stmt st.sql = MySql.execute env stmt st.sql :=
    fun stmt hstmt => executeText_of_contained (h stmt hstmt) st.sql
  cases op with
  | addUser username nickname password mail =>
      rw [stepText, addUserBy_congr (hsame _ rfl)]
      rfl
  | addGroup groupname ownerid =>
      rw [stepText, addGroupBy_congr (hsame _ rfl)]
      rfl
  | updateUserInfo userid info =>
      rw [stepText, updateUserInfoBy, hsame _ rfl]
      rfl
  | modifyUserPassword userid newpassword =>
      rw [stepText, modifyUserPasswordBy, hsame _ rfl]
      rfl
  | _ => rfl

/-- And hands out the id that is meant. -/
theorem handedOutText_of_contained (h : SendsContained st op) :
    handedOutText env misread st op = handedOut env st op := by
  cases op with
  | addUser username nickname password mail =>
      rw [handedOutText, addUserBy_congr (executeText_of_contained (h _ rfl) st.sql)]
      rfl
  | addGroup groupname ownerid =>
      rw [handedOutText, addGroupBy_congr (executeText_of_contained (h _ rfl) st.sql)]
      rfl
  | _ => rfl

/-- While no counter overflows, the ids handed out are positive. -/
theorem handedOut_pos (hseeded : Seeded st.users) (hno : NoOverflow st.users op) {id : Int}
    (hid : handedOut env st op = some id) : 0 < id := by
  obtain ⟨huser, -, hgroup, -⟩ := hseeded
  rw [handedOut_eq_some_iff] at hid
  cases op with
  | addUser username nickname password mail =>
      rw [hid.2, nextId_eq huser hno]
      omega
  | addGroup groupname ownerid =>
      rw [hid.2, nextId_eq (by omega) hno]
      omega
  | _ => exact hid.elim

/-! ## Runs -/

/-- What holds in a run of contained statements: the indexes agree with the table, which keeps its rows, and the
counters are in their ranges. -/
structure IdsKept (env : SqlEnv) (db₀ : Db) (st : Store) : Prop where
  indexed : Indexed (shownFrom env db₀) st
  rows : userIds st.sql.db = [] → userIds db₀ = []
  seeded : Seeded st.users

namespace IdsKept

variable {db₀ : Db}

/-- The id handed out is not what the cursor showed. -/
theorem missesShown (h : IdsKept env db₀ st) (hcursor : userIds db₀ = [] → ZeroCursor env)
    (hno : NoOverflow st.users op) : MissesShown env (shownFrom env db₀) st op := by
  rintro id hid ⟨hnil, n, pRow, hpRow, hshown⟩
  -- the cursor showed a record of id 0
  have hpos := handedOut_pos h.seeded hno hid
  rw [← hshown, hcursor hnil n pRow hpRow] at hpos
  exact lt_irrefl _ hpos

theorem step (h : IdsKept env db₀ st) (hcursor : userIds db₀ = [] → ZeroCursor env)
    (hsends : SendsContained st op) (hno : NoOverflow st.users op)
    (hstep : stepText env misread st op = .ok st') : IdsKept env db₀ st' := by
  rw [stepText_of_contained hsends] at hstep
  obtain ⟨hindexed, hrows⟩ := indexed_step ⟨h.indexed, h.rows⟩ (h.missesShown hcursor hno) hstep
  exact ⟨hindexed, hrows, seeded_step h.seeded hno hstep⟩

/-- The id handed out is new to the table and to the map. -/
theorem handsOutNew (h : IdsKept env db₀ st) (hcursor : userIds db₀ = [] → ZeroCursor env)
    (hsends : SendsContained st op) (hno : NoOverflow st.users op) : HandsOutNew env misread st op := by
  intro id hid
  rw [handedOutText_of_contained hsends] at hid
  -- a restart hands out none
  have hop : op ≠ .restart := by
    rintro rfl
    cases hid
  obtain ⟨st', hok⟩ := step_ok env hop st
  obtain ⟨-, ⟨hnone, -⟩ | ⟨u, hsome, hfresh, -⟩⟩ := step_ids h.indexed.table hop hok
  · rw [hid] at hnone
    cases hnone
  · rw [hid] at hsome
    cases hsome
    exact ⟨hfresh, fun hmapped =>
      (h.indexed.mapped _ hmapped).elim hfresh (h.missesShown hcursor hno _ hid)⟩

end IdsKept

/-- **The two indexes.** A server starts on any `t_user` with distinct `int32` ids; behind an empty one the cursor
shows nothing, or cleared fields. Whatever MySQL makes of other statements, in every run whose statements are
contained and in which no counter overflows, the list and the map hold the same records in every state, each once
and under its own id, and every id handed out is new to the table and to the map. -/
theorem twoIndexes_of_contained {sql : MySql} {st₀ : Store} {ops : List StoreOp} (htable : IdTable sql.db)
    (hcursor : userIds sql.db = [] → ZeroCursor env) (hstart : init env ⟨sql, new⟩ = (true, st₀))
    (hops : Run.Always (stepText env misread) (fun st op => SendsContained st op ∧ NoOverflow st.users op) st₀ ops) :
    (∀ pre st, pre <+: ops → Run.run (stepText env misread) st₀ pre = .ok st → TwoIndexes st.users) ∧
      Run.Always (stepText env misread) (HandsOutNew env misread) st₀ ops := by
  obtain ⟨hindexed, hdb⟩ :=
    @indexed_init env sql st₀ (shownFrom env sql.db) htable (fun hnil id hid => ⟨hnil, hid⟩) hstart
  have hkept : IdsKept env sql.db st₀ := ⟨hindexed, by rw [hdb]; exact id, seeded_init hstart⟩
  have hstep : ∀ st op st', IdsKept env sql.db st → SendsContained st op ∧ NoOverflow st.users op →
      stepText env misread st op = .ok st' → IdsKept env sql.db st' :=
    fun st op st' h hop hs => h.step hcursor hop.1 hop.2 hs
  -- one invariant for both: the indexes are a part of it, and it makes the next id new
  constructor
  · rintro pre st ⟨post, rfl⟩ hrun
    exact (Run.run_invariant hstep hkept hops.left hrun).indexed.indexes
  · exact Run.always_of_invariant hstep (fun st op h hop => h.handsOutNew hcursor hop.1 hop.2) hkept hops

/-- A user, a group and, after a restart, a second user, behind an empty table that shows cleared fields. -/
theorem twoIndexes_of_contained_cleared :
    (∀ pre st, pre <+: [.addUser (str "a") (str "a") (str "p") [], .addGroup (str "g") 1, .restart,
          .addUser (str "b") (str "b") (str "q") []] →
        Run.run (stepText clearedFields fun _ _ _ => none) clearedStore pre = .ok st → TwoIndexes st.users) ∧
      Run.Always (stepText clearedFields fun _ _ _ => none) (HandsOutNew clearedFields fun _ _ _ => none) clearedStore
        [.addUser (str "a") (str "a") (str "p") [], .addGroup (str "g") 1, .restart,
          .addUser (str "b") (str "b") (str "q") []] := by
  refine twoIndexes_of_contained idTable_fresh (fun _ n pRow hpRow => ?_) init_cleared (by decide +kernel)
  cases hpRow
  decide +kernel

/-- The username of the user who brings another along: its backslash takes the closing quote. -/
def twoRowsUsername : Bytes := str "\\"

/-- The nickname: the rest of the row, a second row, and a comment. -/
def twoRowsNickname : Bytes :=
  str ", 0x61, 0x62, 0x63, NOW()), (4294967297, 0x61, 0x61, 0x61, 0x61, NOW())#"

/-- What MySQL reads in the `INSERT`: the username is a quote, a comma and a blank, and the nickname stands outside
of every literal. -/
theorem readLiteral_twoRows (rest : Bytes) :
    readLiteral (escapeSqlString twoRowsUsername ++ 39 :: (str ", " ++ 39 :: (twoRowsNickname ++ rest))) =
      some (str "', ", twoRowsNickname ++ rest) := by
  have husername : escapeSqlString twoRowsUsername = [92] := by decide +kernel
  have hblank : str ", " = [44, 32] := by decide +kernel
  have hvalue : str "', " = [39, 44, 32] := by decide +kernel
  have hnickname : (twoRowsNickname ++ rest).head? ≠ some 39 := by
    rw [List.head?_append_of_ne_nil _ (by decide +kernel)]
    decide +kernel
  rw [husername, hblank, hvalue]
  -- the backslash takes the quote behind it, and the opening quote of the nickname closes
  show readLiteral (92 :: 39 :: 44 :: 32 :: 39 :: (twoRowsNickname ++ rest)) = _
  rw [readLiteral_backslash, readLiteral_other (by decide) (by decide), readLiteral_other (by decide) (by decide),
    readLiteral_end hnickname]
  rfl

/-- A server that carries it out: both rows are inserted, the second with an id that is 1 as an `int32_t`. -/
def twoRows : Misreading := fun _ _ db =>
  (db.exec 0 (addUserStmt 1 (newUser (str "', ") (str "a") (str "b") (str "c")))).bind fun db =>
    db.exec 0 (addUserStmt 4294967297 (newUser (str "a") (str "a") (str "a") (str "a")))

/-- After a restart two records have the id 1, and the map has one of them. -/
theorem twoRows_one_id :
    ¬ ∀ st₀, init SqlEnv.ideal ⟨⟨MySqlManager.freshDb, 6⟩, new⟩ = (true, st₀) →
      ∀ pre st, pre <+: [.addUser twoRowsUsername twoRowsNickname (str "x") [], .restart] →
        Run.run (stepText SqlEnv.ideal twoRows) st₀ pre = .ok st → TwoIndexes st.users := by
  intro h
  obtain ⟨st, hrun, hzero, hone, hid⟩ := @Run.exists_of_eval _ _
    (Run.run (stepText SqlEnv.ideal twoRows) ⟨⟨MySqlManager.freshDb, 7⟩, new⟩
      [.addUser twoRowsUsername twoRowsNickname (str "x") [], .restart])
    (fun st => 0 ∈ st.users.cachedUsers ∧ 1 ∈ st.users.cachedUsers ∧
      (st.users.heap 0).userid = (st.users.heap 1).userid) _ (by decide +kernel)
  -- two records of one id are in the list, and the map would have to give both for it
  obtain ⟨-, hmap⟩ := h _ (Prod.ext rfl rfl) _ st (List.prefix_refl _) hrun
  have hget := (hmap _ 0).2 ⟨hzero, rfl⟩
  rw [hid, (hmap _ 1).2 ⟨hone, rfl⟩] at hget
  exact absurd (Option.some.inj hget) (by decide)

end UserManager

end AimChat
