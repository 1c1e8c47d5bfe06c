import AimChat.Store.Reconcile

/-! # Checking a table again

`DESC` shows a column's data type; `CheckTable` compares it with the whole definition, `COMMENT` and all, and not
with the data type a description also carries (`sDesc`). So no declared column ever looks as declared, and a
check of a table that has just been reconciled redefines it once more. -/

namespace AimChat.MySqlManager

open Sql

variable {env : SqlEnv} {info : TableInfo} {t : Table}

/-! ## The statements a check sends -/

/-- A `DESC` the server does not answer. -/
theorem desc_of_refused {m : MySql} {name : String} (hok : env.descOk m.sent = false) :
    MySql.desc env name m = (none, ⟨m.db, m.sent + 1⟩) := by
  rw [MySql.desc, hok]
  rfl

/-- `CheckTable` then takes the table for missing. -/
theorem checkTable_of_refused {m : MySql} (hok : env.descOk m.sent = false) :
    checkTable env info m = createTable env info ⟨m.db, m.sent + 1⟩ := by
  rw [checkTable, desc_of_refused hok]

variable (env) in
/-- The statements `executeAll` sends: none behind the first that fails. -/
def issued (stmts : List Stmt) (m : MySql) : List Stmt :=
  match stmts with
  | [] => []
  | stmt :: stmts =>
      stmt :: match MySql.execute env stmt m with
        | (true, m') => issued stmts m'
        | (false, _) => []

theorem issued_eq_nil_iff {stmts : List Stmt} {m : MySql} : issued env stmts m = [] ↔ stmts = [] := by
  cases stmts <;> simp [issued]

/-- The connection counts them. -/
theorem sent_executeAll (stmts : List Stmt) (m : MySql) :
    (executeAll env stmts m).2.sent = m.sent + (issued env stmts m).length := by
  induction stmts generalizing m with
  | nil => rfl
  | cons stmt stmts ih =>
      have hsent := MySql.sent_execute env stmt m
      rw [executeAll, issued, List.length_cons]
      rcases hexecute : MySql.execute env stmt m with ⟨_ | _, m'⟩ <;> rw [hexecute] at hsent
      · exact hsent
      · dsimp only at hsent ⊢
        rw [ih, hsent]
        omega

variable (env) in
/-- The `ALTER TABLE` statements a `CheckTable` sends. -/
def altersIssued (info : TableInfo) (m : MySql) : List Stmt :=
  match MySql.desc env info.sName m with
  | (none, _) => []
  | (some result, m) =>
      let check := result.forEachRow (checkColumn info) ⟨info.mapField, ∅⟩
      issued env ((check.rest.values.map fun f => .addColumn info.sName f.sName f.sType) ++
        check.mapChange.values.map fun f => .modifyColumn info.sName f.sName f.sType) m

theorem altersIssued_of_table {m : MySql} (hok : env.descOk m.sent = true)
    (ht : m.db.tables info.sName = some t) :
    altersIssued env info m = issued env (alters info t) ⟨m.db, m.sent + 1⟩ := by
  rw [altersIssued, desc_of_some hok ht]
  dsimp only
  rw [forEachRow_checkColumn, alters]

/-- Behind `DESC`, a check of a table that is there sends these and nothing else. -/
theorem sent_checkTable {m : MySql} (hok : env.descOk m.sent = true) (ht : m.db.tables info.sName = some t) :
    (checkTable env info m).2.sent = m.sent + 1 + (altersIssued env info m).length := by
  rw [checkTable_of_table hok ht, altersIssued_of_table hok ht, sent_executeAll]

/-- A check has nothing to send when every declared column is there and shown with its whole definition. -/
theorem alters_eq_nil_iff (hkeyed : Keyed info) :
    alters info t = [] ↔ ∀ f ∈ info.mapField.values,
      t.hasColumn f.sName = true ∧ ∀ c ∈ t.columns, c.name = f.sName → f.sType = c.type := by
  rw [alters, List.append_eq_nil_iff, List.map_eq_nil_iff, List.map_eq_nil_iff, List.eq_nil_iff_forall_not_mem,
    List.eq_nil_iff_forall_not_mem]
  constructor
  · rintro ⟨hmissing, hchanged⟩ f hf
    refine ⟨?_, fun c hc hname => ?_⟩
    · by_contra hcol
      exact hmissing f ((mem_missing hkeyed).2 ⟨hf, Bool.eq_false_iff.2 hcol⟩)
    · by_contra htype
      exact hchanged f ((mem_changed hkeyed).2 ⟨hf, c, hc, hname, htype⟩)
  · intro h
    refine ⟨fun f hf => ?_, fun f hf => ?_⟩
    · obtain ⟨hf, hcol⟩ := (mem_missing hkeyed).1 hf
      rw [(h f hf).1] at hcol
      cases hcol
    · obtain ⟨hf, c, hc, hname, htype⟩ := (mem_changed hkeyed).1 hf
      exact htype ((h f hf).2 c hc hname)

/-! ## Shown types -/

/-- A type that ends with a `COMMENT` attribute. -/
def ShowsComment (type : String) : Prop :=
  " COMMENT '".toList <:+: type.toList ∧ "'".toList <:+ type.toList

/-- The program's own definitions end with one, among them that of `f_id`, which every table has. -/
theorem showsComment_mapTable (hinfo : info ∈ mapTable.values) :
    ∃ f ∈ info.mapField.values, ShowsComment f.sType := by
  have hid : ∀ info ∈ mapTable.values,
      ⟨"f_id", "bigint(20) NOT NULL AUTO_INCREMENT COMMENT '自增ID'", "bigint(20)"⟩ ∈ info.mapField.values := by
    decide +kernel
  refine ⟨_, hid info hinfo, ?_⟩
  unfold ShowsComment
  decide +kernel

/-- No declared column is shown with one. -/
theorem not_showsComment_declared (f : FieldInfo) : ¬ ShowsComment (declared f).type := by
  rintro ⟨hcomment, -⟩
  exact Column.not_mem_type_ofDefinition f.sName f.sType (hcomment.subset (by decide))

/-- What a check that returned true leaves: a table, and still no column shown with a comment. -/
theorem shown_checkTable {m m' : MySql} (hshown : ∀ col ∈ columnsOf m.db info.sName, ¬ ShowsComment col.type)
    (h : checkTable env info m = (true, m')) :
    ∃ t', m'.db.tables info.sName = some t' ∧ ∀ col ∈ t'.columns, ¬ ShowsComment col.type := by
  cases ht : m.db.tables info.sName with
  | none =>
      rw [checkTable_of_none ht] at h
      refine ⟨described info, tables_createTable (by exact ht) h, fun col hcol => ?_⟩
      obtain ⟨f, -, rfl⟩ := List.mem_map.1 hcol
      exact not_showsComment_declared f
  | some t =>
      rw [columnsOf_of_table ht] at hshown
      cases hok : env.descOk m.sent with
      | false =>
          -- the table is taken for missing, and `CREATE TABLE IF NOT EXISTS` leaves it
          have htable := @tables_createTable_some env info ⟨m.db, m.sent + 1⟩ t ht
          rw [← checkTable_of_refused hok, h] at htable
          exact ⟨t, htable, hshown⟩
      | true =>
          obtain ⟨t', added, modified, ht', hcolumns, -⟩ := @columns_checkTable env info t m hok ht
          rw [h] at ht'
          refine ⟨t', ht', fun col' hcol' => ?_⟩
          rw [hcolumns] at hcol'
          obtain ⟨col, hcol, rfl⟩ := List.mem_map.1 hcol'
          rcases redefineAll_cases modified col with hsame | ⟨f, hdeclared⟩
          · rw [hsame]
            rcases List.mem_append.1 hcol with hcol | hcol
            · exact hshown col hcol
            · obtain ⟨f, -, rfl⟩ := List.mem_map.1 hcol
              exact not_showsComment_declared f
          · rw [hdeclared]
            exact not_showsComment_declared f

/-! ## The second check -/

/-- No table without such types looks as one of the program's own descriptions declares it. -/
theorem alters_ne_nil (hinfo : info ∈ mapTable.values) (hshown : ∀ col ∈ t.columns, ¬ ShowsComment col.type) :
    alters info t ≠ [] := by
  obtain ⟨f, hf, hcomment⟩ := showsComment_mapTable hinfo
  intro h
  obtain ⟨hhas, htype⟩ := (alters_eq_nil_iff (keyed_mapTable info hinfo)).1 h f hf
  obtain ⟨col, hcol, hname⟩ := List.any_eq_true.1 hhas
  refine hshown col hcol ?_
  rw [← htype col hcol (of_decide_eq_true hname)]
  exact hcomment

/-- **A check of a table that has just passed one** sends no `ALTER TABLE` only when the server does not answer
its `DESC`. -/
theorem checkTable_again_iff (hinfo : info ∈ mapTable.values) {m m' : MySql}
    (hshown : ∀ col ∈ columnsOf m.db info.sName, ¬ ShowsComment col.type)
    (h : checkTable env info m = (true, m')) :
    altersIssued env info m' = [] ↔ env.descOk m'.sent = false := by
  obtain ⟨t, ht, hshown'⟩ := shown_checkTable hshown h
  cases hok : env.descOk m'.sent with
  | false =>
      rw [altersIssued, desc_of_refused hok]
      exact iff_of_true rfl rfl
  | true =>
      rw [altersIssued_of_table hok ht, issued_eq_nil_iff]
      exact iff_of_false (alters_ne_nil hinfo hshown') (by decide)

/-- On an empty database: the first check creates `t_user_relationship`. -/
theorem checkTable_again_created :
    altersIssued SqlEnv.ideal tUserRelationship (checkTable SqlEnv.ideal tUserRelationship ⟨Db.empty, 0⟩).2 = [] ↔
      true = false :=
  @checkTable_again_iff SqlEnv.ideal tUserRelationship (by simp [mapTable_values]) ⟨Db.empty, 0⟩ _
    (fun _ hcol => absurd hcol List.not_mem_nil) (Prod.ext (by decide +kernel) rfl)

/-- The second check redefines the five columns the first one created. -/
theorem checkTable_redefines :
    ¬ ∀ m', checkTable SqlEnv.ideal tUserRelationship ⟨Db.empty, 0⟩ = (true, m') →
      altersIssued SqlEnv.ideal tUserRelationship m' = [] := by
  intro h
  have hnone := h (checkTable SqlEnv.ideal tUserRelationship ⟨Db.empty, 0⟩).2 (Prod.ext (by decide +kernel) rfl)
  have hsome : (altersIssued SqlEnv.ideal tUserRelationship
      (checkTable SqlEnv.ideal tUserRelationship ⟨Db.empty, 0⟩).2).length = 5 := by decide +kernel
  rw [hnone] at hsome
  cases hsome

end AimChat.MySqlManager
