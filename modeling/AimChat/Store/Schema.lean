import AimChat.Lib.Run
import AimChat.Store.Reconcile

/-! # What `Init` makes of the tables it finds

`Init` gives every table description a turn: `CheckTable`, and when that fails `CreateTable`. On a table
that is there `CreateTable` is a `CREATE TABLE IF NOT EXISTS`: it succeeds and changes nothing, so a
column that an `ALTER TABLE` failed to add stays missing although `Init` goes on and returns true. -/

namespace AimChat.MySqlManager

open Sql

variable (env : SqlEnv)

/-- A description's turn in the loop of `Init`. -/
def turn (m : MySql) (info : TableInfo) : Except MySql MySql :=
  match checkTable env info m with
  | (true, m) => .ok m
  | (false, m) =>
      match createTable env info m with
      | (true, m) => .ok m
      | (false, m) => .error m

/-- A turn `Init` passes ends with the check or with the second creation. -/
theorem turn_eq_ok {m m' : MySql} {info : TableInfo} :
    turn env m info = .ok m' ↔ checkTable env info m = (true, m') ∨
      ∃ m₁, checkTable env info m = (false, m₁) ∧ createTable env info m₁ = (true, m') := by
  unfold turn
  rcases checkTable env info m with ⟨_ | _, m₁⟩
  · rcases hcreate : createTable env info m₁ with ⟨_ | _, m₂⟩ <;> simp [hcreate]
  · simp

/-- The loop of `Init` runs through the turns. -/
theorem initTables_eq_true {infos : List TableInfo} {m m' : MySql} :
    initTables env infos m = (true, m') ↔ Run.run (turn env) m infos = .ok m' := by
  induction infos generalizing m with
  | nil => simp [initTables]
  | cons info infos ih =>
      rw [initTables, Run.run, turn]
      rcases checkTable env info m with ⟨_ | _, m₁⟩
      · dsimp only
        rcases createTable env info m₁ with ⟨_ | _, m₂⟩
        · simp
        · exact ih
      · exact ih

/-- The described table exists and has every declared column. -/
def Complete (info : TableInfo) (db : Db) : Prop :=
  ∃ t, db.tables info.sName = some t ∧ ∀ field ∈ info.mapField.values, t.hasColumn field.sName = true

/-- When the table is there, the server carries out every `ALTER TABLE ADD COLUMN` of the turn; the `DESC`
comes first. -/
def AddsSucceed (m : MySql) (info : TableInfo) : Prop :=
  ∀ t, m.db.tables info.sName = some t →
    ∀ i < (missing info t).values.length, env.execOk (m.sent + 1 + i) = true

variable {env}

/-! ## The statements of a turn -/

/-- An `ALTER TABLE ADD COLUMN` the server carries out adds the column. -/
theorem execute_addColumn {m : MySql} {name c : String} {t : Table} (hok : env.execOk m.sent = true)
    (ht : m.db.tables name = some t) (hc : t.hasColumn c = false) (definition : String) :
    ∃ t' : Table, MySql.execute env (.addColumn name c definition) m =
        (true, ⟨m.db.set name t', m.sent + 1⟩) ∧
      ∀ c', t'.hasColumn c' = (t.hasColumn c' || decide (c = c')) := by
  obtain ⟨t', hexec, hcols⟩ := Db.exec_addColumn (env.now m.sent) ht hc definition
  refine ⟨t', ?_, hcols⟩
  have hcut : MySql.cut (.addColumn name c definition) = false := rfl
  rw [MySql.execute, hok, hcut]
  simp only [Bool.not_false, Bool.and_self, if_true, hexec]

/-- The `ALTER TABLE ADD COLUMN`s of missing columns: they succeed when the server carries out each of
them, and exactly then every column is there afterwards. -/
theorem executeAll_addColumn {name : String} {fields : List FieldInfo} {m : MySql} {t : Table}
    (ht : m.db.tables name = some t) (hdistinct : fields.Pairwise fun f g => f.sName ≠ g.sName)
    (hnew : ∀ f ∈ fields, t.hasColumn f.sName = false) :
    ∃ t', (executeAll env (fields.map fun f => .addColumn name f.sName f.sType) m).2.db.tables name = some t' ∧
      (∀ c, t.hasColumn c = true → t'.hasColumn c = true) ∧
      ((∀ f ∈ fields, t'.hasColumn f.sName = true) ↔ ∀ i < fields.length, env.execOk (m.sent + i) = true) := by
  induction fields generalizing m t with
  | nil => exact ⟨t, ht, fun _ hc => hc, by simp⟩
  | cons f fields ih =>
      obtain ⟨hf, hrest⟩ := List.pairwise_cons.1 hdistinct
      have hfnew := hnew f List.mem_cons_self
      have hsent : (∀ i < (f :: fields).length, env.execOk (m.sent + i) = true) ↔
          env.execOk m.sent = true ∧ ∀ i < fields.length, env.execOk (m.sent + 1 + i) = true := by
        rw [List.length_cons, Nat.forall_lt_succ_left]
        simp only [Nat.add_zero, Nat.add_assoc, Nat.add_comm 1]
      rw [List.map_cons, executeAll, hsent]
      cases hok : env.execOk m.sent with
      | false =>
          -- the first column is refused, and the table is left without it
          rw [MySql.execute_of_refused hok]
          refine ⟨t, ht, fun _ hc => hc, iff_of_false (fun hall => ?_) fun hall => absurd hall.1 Bool.false_ne_true⟩
          rw [hall f List.mem_cons_self] at hfnew
          cases hfnew
      | true =>
          obtain ⟨t₁, hexec, hcols⟩ := execute_addColumn hok ht hfnew f.sType
          rw [hexec]
          dsimp only
          have ht₁ : (m.db.set name t₁).tables name = some t₁ := by rw [Db.tables_set, if_pos rfl]
          have hnew₁ : ∀ g ∈ fields, t₁.hasColumn g.sName = false := by
            intro g hg
            rw [hcols, hnew g (List.mem_cons_of_mem _ hg), Bool.false_or, decide_eq_false (hf g hg)]
          obtain ⟨t', ht', hkeep, hiff⟩ := @ih ⟨m.db.set name t₁, m.sent + 1⟩ t₁ ht₁ hrest hnew₁
          have hkeep₁ : ∀ c, t.hasColumn c = true → t₁.hasColumn c = true := by
            intro c hc
            rw [hcols, hc, Bool.true_or]
          have hfirst : t'.hasColumn f.sName = true :=
            hkeep f.sName (by rw [hcols, decide_eq_true rfl, Bool.or_true])
          refine ⟨t', ht', fun c hc => hkeep c (hkeep₁ c hc), ?_⟩
          rw [List.forall_mem_cons, and_iff_right hfirst, hiff, and_iff_right rfl]

/-! ## A turn -/

/-- On a table that is there, a turn keeps every column, and it leaves the table complete exactly when the
server carries out the added columns. -/
theorem complete_checkTable_iff {info : TableInfo} (hkeyed : Keyed info) {m : MySql} {t : Table}
    (hok : env.descOk m.sent = true) (ht : m.db.tables info.sName = some t) :
    ∃ t', (checkTable env info m).2.db.tables info.sName = some t' ∧
      ((∀ field ∈ info.mapField.values, t'.hasColumn field.sName = true) ↔ AddsSucceed env m info) := by
  obtain ⟨t₁, ht₁, hkeep, hiff⟩ := @executeAll_addColumn env info.sName (missing info t).values
    ⟨m.db, m.sent + 1⟩ t ht (distinct_of_subset hkeyed List.filter_sublist.subset)
    fun f hf => ((mem_missing hkeyed).1 hf).2
  -- the columns after the additions decide: what follows leaves their names
  have hcolumns : (∀ field ∈ info.mapField.values, t₁.hasColumn field.sName = true) ↔
      AddsSucceed env m info := by
    have hadds : AddsSucceed env m info ↔
        ∀ i < (missing info t).values.length, env.execOk (m.sent + 1 + i) = true := by
      unfold AddsSucceed
      rw [ht]
      simp only [Option.some.injEq, forall_eq']
    rw [hadds, ← hiff]
    constructor
    · intro hall f hf
      exact hall f ((mem_missing hkeyed).1 hf).1
    · intro hall f hf
      cases hcol : t.hasColumn f.sName with
      | true => exact hkeep f.sName hcol
      | false => exact hall f ((mem_missing hkeyed).2 ⟨hf, hcol⟩)
  rw [checkTable_of_table hok ht, alters, executeAll_append]
  split_ifs with hadds
  · obtain ⟨t₂, modified, ht₂, -, hmodified, -⟩ := columns_modifyColumns info.sName (changed info t).values ht₁
    refine ⟨t₂, ht₂, ?_⟩
    simp only [hasColumn_of_redefineAll hmodified]
    exact hcolumns
  · exact ⟨t₁, ht₁, hcolumns⟩

/-- **A turn.** A description whose turn `Init` passes has its complete table afterwards exactly when the
server carried out the columns the turn had to add. -/
theorem complete_turn_iff (hdesc : ∀ i, env.descOk i = true) {info : TableInfo} (hkeyed : Keyed info)
    {m m' : MySql} (h : turn env m info = .ok m') : Complete info m'.db ↔ AddsSucceed env m info := by
  rw [turn_eq_ok] at h
  cases ht : m.db.tables info.sName with
  | none =>
      have hadds : AddsSucceed env m info := by
        intro t ht'
        rw [ht] at ht'
        cases ht'
      refine iff_of_true ⟨described info, ?_, fun _ => hasColumn_described⟩ hadds
      rw [checkTable_of_none ht] at h
      rcases h with hcreate | ⟨m₁, hcreate, hagain⟩
      · exact tables_createTable (by exact ht) hcreate
      · have hstill : m₁.db.tables info.sName = none := by
          rw [tables_createTable_false hcreate]
          exact ht
        exact tables_createTable hstill hagain
  | some t =>
      obtain ⟨t', ht', hiff⟩ := complete_checkTable_iff hkeyed (hdesc m.sent) ht
      have hafter : m'.db.tables info.sName = some t' := by
        rcases h with hcheck | ⟨m₁, hcheck, hcreate⟩
        · rwa [hcheck] at ht'
        · rw [hcheck] at ht'
          have hsame := @tables_createTable_some env _ _ _ ht'
          rwa [hcreate] at hsame
      rw [← hiff, Complete, hafter]
      simp only [Option.some.injEq, exists_eq_left']

/-! ## All turns -/

/-- The turns of other descriptions leave a table as it is. -/
theorem tables_run_other {infos : List TableInfo} {m m' : MySql} (h : Run.run (turn env) m infos = .ok m')
    {name : String} (hname : ∀ info ∈ infos, name ≠ info.sName) : m'.db.tables name = m.db.tables name := by
  have hother := tables_initTables_other env infos m hname
  rw [(initTables_eq_true env).2 h] at hother
  exact hother

/-- Every description has its complete table after the turns of all of them exactly when the server carries
out the added columns of each turn. -/
theorem complete_run_iff (hdesc : ∀ i, env.descOk i = true) {infos : List TableInfo}
    (hkeyed : ∀ info ∈ infos, Keyed info) (hdistinct : infos.Pairwise fun a b => a.sName ≠ b.sName)
    {m m' : MySql} (h : Run.run (turn env) m infos = .ok m') :
    (∀ info ∈ infos, Complete info m'.db) ↔ Run.Always (turn env) (AddsSucceed env) m infos := by
  induction infos generalizing m with
  | nil => exact iff_of_true (fun _ hinfo => absurd hinfo List.not_mem_nil) trivial
  | cons info infos ih =>
      obtain ⟨hinfo, hrest⟩ := List.pairwise_cons.1 hdistinct
      obtain ⟨m₁, hturn, hrun⟩ := Run.run_cons_eq_ok.1 h
      have hfirst : Complete info m'.db ↔ AddsSucceed env m info := by
        rw [← complete_turn_iff hdesc (hkeyed info List.mem_cons_self) hturn, Complete, Complete,
          tables_run_other hrun hinfo]
      have hlater := ih (fun i hi => hkeyed i (List.mem_cons_of_mem _ hi)) hrest hrun
      rw [List.forall_mem_cons, hfirst, hlater, Run.Always, hturn]
      simp only [Except.ok.injEq, forall_eq']

/-- **Schema initialisation.** When the server describes every table it has and `Init` returned true, every
described table has its declared columns exactly when, in each description's turn, the server carried out
every `ALTER TABLE ADD COLUMN`. -/
theorem init_complete_iff (hdesc : ∀ i, env.descOk i = true) {m m' : MySql} (h : init env m = (true, m')) :
    (∀ info ∈ [tUser, tChatmsg, tUserRelationship], Complete info m'.db) ↔
      Run.Always (turn env) (AddsSucceed env) m mapTable.values := by
  unfold init at h
  rw [initTables_eq_true, mapTable_values] at h
  rw [mapTable_values, ← complete_run_iff hdesc (by rw [← mapTable_values]; exact keyed_mapTable) (by decide) h]
  simp only [List.forall_mem_cons]
  tauto

/-- A `t_chatmsg` that lacks `f_remark` is there already. -/
theorem init_complete_oldChatmsg :
    (∀ info ∈ [tUser, tChatmsg, tUserRelationship],
        Complete info (init SqlEnv.ideal ⟨Db.empty.set "t_chatmsg" oldChatmsg, 0⟩).2.db) ↔
      Run.Always (turn SqlEnv.ideal) (AddsSucceed SqlEnv.ideal) ⟨Db.empty.set "t_chatmsg" oldChatmsg, 0⟩
        mapTable.values :=
  init_complete_iff (fun _ => rfl) (Prod.ext (by decide +kernel) rfl)

/-- A server that refuses the second statement only. -/
def refusesAlter : SqlEnv := { SqlEnv.ideal with execOk := fun n => n != 1 }

/-- The server refuses to add `f_remark`, and `Init` returns true without it. -/
theorem init_leaves_incomplete :
    ¬ ∀ m', init refusesAlter ⟨Db.empty.set "t_chatmsg" oldChatmsg, 0⟩ = (true, m') →
      ∀ info ∈ [tUser, tChatmsg, tUserRelationship], Complete info m'.db := by
  intro h
  have hok : (init refusesAlter ⟨Db.empty.set "t_chatmsg" oldChatmsg, 0⟩).1 = true := by decide +kernel
  have hcol : ((init refusesAlter ⟨Db.empty.set "t_chatmsg" oldChatmsg, 0⟩).2.db.tables "t_chatmsg").map
      (fun t => t.hasColumn "f_remark") = some false := by decide +kernel
  rcases hinit : init refusesAlter ⟨Db.empty.set "t_chatmsg" oldChatmsg, 0⟩ with ⟨ok, m'⟩
  rw [hinit] at hok hcol
  cases hok
  obtain ⟨t, ht, hall⟩ := h m' hinit tChatmsg (by simp)
  have hremark := hall ⟨"f_remark", "varchar(64) NULL COMMENT '备注'", "varchar(64)"⟩ (by decide +kernel)
  have ht' : m'.db.tables "t_chatmsg" = some t := ht
  rw [ht', Option.map_some, hremark] at hcol
  cases hcol

end AimChat.MySqlManager
