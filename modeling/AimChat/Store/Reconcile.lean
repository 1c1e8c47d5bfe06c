import AimChat.Store.MySqlManager

/-! # What `CheckTable` does to a table

One pass over the rows of `DESC` leaves two maps, the missing columns and those shown with another type than
their definition (`mapChange_eq_changed`). The statements of the two loops behind it are one list (`alters`), and
what has been carried out of it when it ends is a prefix (`columns_executeAll`). When all of it was, the table is
reconciled with its description (`checkTable_reconciles`). -/

namespace AimChat.MySqlManager

open Sql

variable {env : SqlEnv} {info : TableInfo} {t : Table}

/-! ## The statements of the check -/

/-- The declared columns a table does not have, as `CheckTable` leaves them in `rest`. -/
def missing (info : TableInfo) (t : Table) : OrdMap String FieldInfo where
  entries := info.mapField.entries.filter fun e => !t.hasColumn e.1
  sorted := info.mapField.sorted.filter _

/-- The declared columns that are shown with another type, as `CheckTable` leaves them in `mapChange`. -/
def changed (info : TableInfo) (t : Table) : OrdMap String FieldInfo where
  entries := info.mapField.entries.filter fun e => t.columns.any fun c => c.name = e.1 && e.2.sType ≠ c.type
  sorted := info.mapField.sorted.filter _

/-- The statements of `CheckTable` on a table that is there. -/
def alters (info : TableInfo) (t : Table) : List Stmt :=
  ((missing info t).values.map fun f => .addColumn info.sName f.sName f.sType) ++
    (changed info t).values.map fun f => .modifyColumn info.sName f.sName f.sType

/-- `DESC` lists the columns of a table. -/
theorem desc_of_some {m : MySql} {name : String} {t : Table} (hok : env.descOk m.sent = true)
    (ht : m.db.tables name = some t) :
    MySql.desc env name m =
      (some (.ofRows none (t.columns.map fun c => (c.name, c.type))), ⟨m.db, m.sent + 1⟩) := by
  rw [MySql.desc, if_pos hok, Db.desc, ht]
  rfl

/-- A declared column is missing when the table does not have it. -/
theorem get?_missing (info : TableInfo) (t : Table) (k : String) :
    (missing info t).get? k = if t.hasColumn k = true then none else info.mapField.get? k := by
  refine Option.ext fun f => ?_
  rw [← OrdMap.mem_entries_iff]
  show (k, f) ∈ info.mapField.entries.filter _ ↔ _
  rw [List.mem_filter, OrdMap.mem_entries_iff]
  split_ifs with hcol <;> simp [hcol]

/-- The loop over the columns strikes the names it meets off `rest`. -/
theorem get?_rest (info : TableInfo) (rows : List (String × String)) (check : Check)
    (hsub : ∀ k, info.mapField.get? k = none → check.rest.get? k = none) (k : String) :
    (rows.foldl (checkColumn info) check).rest.get? k =
      if k ∈ rows.map Prod.fst then none else check.rest.get? k := by
  induction rows generalizing check with
  | nil => rfl
  | cons row rows ih =>
      obtain ⟨name, type⟩ := row
      rw [List.foldl_cons, List.map_cons]
      cases hfield : info.mapField.get? name with
      | none =>
          -- the description does not know the column
          have hsame : checkColumn info check (name, type) = check := by
            simp only [checkColumn, hfield]
          rw [hsame, ih check hsub]
          by_cases hk : k = name
          · rw [hk, hsub name hfield, ite_self, ite_self]
          · simp only [List.mem_cons, hk, false_or]
      | some field =>
          have hrest : (checkColumn info check (name, type)).rest = check.rest.erase name := by
            simp only [checkColumn, hfield]
          rw [ih _ fun k hk => ?_, hrest, OrdMap.get?_erase]
          · by_cases hk : k = name
            · simp only [hk, if_true, ite_self, List.mem_cons, true_or]
            · simp only [List.mem_cons, hk, false_or, if_false]
          · rw [hrest, OrdMap.get?_erase, hsub k hk, ite_self]

/-- What `CheckTable` is left with in `rest`: the missing columns. -/
theorem rest_eq_missing (info : TableInfo) (t : Table) :
    ((t.columns.map fun c => (c.name, c.type)).foldl (checkColumn info) ⟨info.mapField, ∅⟩).rest =
      missing info t := by
  refine OrdMap.ext_get? fun k => ?_
  rw [get?_rest info _ _ fun _ hk => hk, get?_missing]
  refine if_congr ?_ rfl rfl
  simp [Table.hasColumn]

theorem get?_changed {k : String} {f : FieldInfo} :
    (changed info t).get? k = some f ↔
      info.mapField.get? k = some f ∧ ∃ c ∈ t.columns, c.name = k ∧ f.sType ≠ c.type := by
  rw [← OrdMap.mem_entries_iff, ← OrdMap.mem_entries_iff]
  show (k, f) ∈ info.mapField.entries.filter _ ↔ _
  simp [List.mem_filter]

/-- What a row adds to `mapChange`: its column, when that is declared and shown with another type. -/
theorem get?_checkColumn_mapChange (check : Check) (name type : String)
    (hsub : ∀ k f, check.mapChange.get? k = some f → info.mapField.get? k = some f) (k : String) (f : FieldInfo) :
    (checkColumn info check (name, type)).mapChange.get? k = some f ↔
      info.mapField.get? k = some f ∧ (check.mapChange.get? k = some f ∨ name = k ∧ f.sType ≠ type) := by
  cases hfield : info.mapField.get? name with
  | none =>
      have hsame : checkColumn info check (name, type) = check := by
        simp only [checkColumn, hfield]
      rw [hsame]
      refine ⟨fun h => ⟨hsub k f h, .inl h⟩, ?_⟩
      rintro ⟨hk, hcheck | ⟨rfl, -⟩⟩
      · exact hcheck
      · cases hfield.symm.trans hk
  | some field =>
      simp only [checkColumn, hfield]
      by_cases hk : name = k
      · subst hk
        -- a column that is there twice is filed under the same definition
        have hknown : (check.mapChange.get? name).getD field = field := by
          cases hcheck : check.mapChange.get? name with
          | none => rfl
          | some g => exact Option.some.inj ((hsub name g hcheck).symm.trans hfield)
        rw [hfield]
        split_ifs with htype
        · rw [OrdMap.get?_insert, if_pos rfl, hknown]
          refine ⟨fun h => ⟨h, .inr ⟨rfl, ?_⟩⟩, And.left⟩
          cases h
          exact htype
        · refine ⟨fun h => ⟨hfield.symm.trans (hsub name f h), .inl h⟩, ?_⟩
          rintro ⟨h, hcheck | ⟨-, hdiffers⟩⟩
          · exact hcheck
          · cases h
            exact absurd hdiffers htype
      · have hsame : (if field.sType ≠ type then check.mapChange.insert name field
            else check.mapChange).get? k = check.mapChange.get? k := by
          split_ifs
          · rw [OrdMap.get?_insert, if_neg (Ne.symm hk)]
          · rfl
        rw [hsame]
        exact ⟨fun h => ⟨hsub k f h, .inl h⟩, fun h => h.2.resolve_right fun h => hk h.1⟩

/-- The loop over the columns collects the declared ones that are shown with another type. -/
theorem get?_mapChange (rows : List (String × String)) (check : Check)
    (hsub : ∀ k f, check.mapChange.get? k = some f → info.mapField.get? k = some f) (k : String) (f : FieldInfo) :
    (rows.foldl (checkColumn info) check).mapChange.get? k = some f ↔
      info.mapField.get? k = some f ∧
        (check.mapChange.get? k = some f ∨ ∃ row ∈ rows, row.1 = k ∧ f.sType ≠ row.2) := by
  induction rows generalizing check with
  | nil => simpa using hsub k f
  | cons row rows ih =>
      obtain ⟨name, type⟩ := row
      have hrow := get?_checkColumn_mapChange check name type hsub
      rw [List.foldl_cons, List.exists_mem_cons_iff, ih _ fun k f h => ((hrow k f).1 h).1, hrow]
      tauto

/-- What `CheckTable` is left with in `mapChange`. -/
theorem mapChange_eq_changed (info : TableInfo) (t : Table) :
    ((t.columns.map fun c => (c.name, c.type)).foldl (checkColumn info) ⟨info.mapField, ∅⟩).mapChange =
      changed info t := by
  refine OrdMap.ext_get? fun k => Option.ext fun f => ?_
  rw [get?_mapChange _ _ (fun k f h => by cases h), get?_changed]
  refine and_congr_right fun _ => ?_
  rw [OrdMap.get?_empty, or_iff_right (Option.some_ne_none f).symm]
  constructor
  · rintro ⟨row, hrow, hname, htype⟩
    obtain ⟨c, hc, rfl⟩ := List.mem_map.1 hrow
    exact ⟨c, hc, hname, htype⟩
  · rintro ⟨c, hc, hname, htype⟩
    exact ⟨_, List.mem_map_of_mem hc, hname, htype⟩

/-- The pass over the rows of `DESC` ends with the missing columns and the changed ones. -/
theorem forEachRow_checkColumn (info : TableInfo) (t : Table) :
    (QueryResult.ofRows none (t.columns.map fun c => (c.name, c.type))).forEachRow (checkColumn info)
      ⟨info.mapField, ∅⟩ = ⟨missing info t, changed info t⟩ := by
  have hrows : QueryResult.visited none (t.columns.map fun c => (c.name, c.type)) =
      t.columns.map fun c => (c.name, c.type) := by
    unfold QueryResult.visited
    split_ifs with hempty
    · exact (List.isEmpty_iff.1 hempty).symm
    · rfl
  rw [QueryResult.forEachRow_ofRows, hrows, ← rest_eq_missing, ← mapChange_eq_changed]

theorem executeAll_append (env : SqlEnv) (stmts stmts' : List Stmt) (m : MySql) :
    executeAll env (stmts ++ stmts') m =
      if (executeAll env stmts m).1 then executeAll env stmts' (executeAll env stmts m).2
      else executeAll env stmts m := by
  induction stmts generalizing m with
  | nil => rfl
  | cons stmt stmts ih =>
      rw [List.cons_append, executeAll, executeAll]
      rcases MySql.execute env stmt m with ⟨_ | _, m'⟩
      · rfl
      · exact ih m'

/-- **`CheckTable` on a table that is there** sends `DESC` and then the statements one behind the other. -/
theorem checkTable_of_table {m : MySql} (hok : env.descOk m.sent = true) (ht : m.db.tables info.sName = some t) :
    checkTable env info m = executeAll env (alters info t) ⟨m.db, m.sent + 1⟩ := by
  rw [checkTable, desc_of_some hok ht, alters, executeAll_append]
  dsimp only
  rw [forEachRow_checkColumn]
  rcases executeAll env ((missing info t).values.map fun f => .addColumn info.sName f.sName f.sType)
    ⟨m.db, m.sent + 1⟩ with ⟨_ | _, m'⟩ <;> rfl

/-- `CREATE TABLE IF NOT EXISTS` leaves a table that is there. -/
theorem tables_createTable_some {info : TableInfo} {m : MySql} {t : Table}
    (ht : m.db.tables info.sName = some t) :
    (createTable env info m).2.db.tables info.sName = some t := by
  rcases h : createTable env info m with ⟨_ | _, m'⟩
  · rw [tables_createTable_false h]
    exact ht
  · unfold createTable at h
    split_ifs at h with hfields
    · cases h
    · have hexec := MySql.db_exec_of_execute h
      simp only [Db.exec, ht, Option.some.injEq] at hexec
      rw [← hexec]
      exact ht

/-! ## What the statements do to the columns -/

/-- The declared column. -/
def declared (f : FieldInfo) : Column := Column.ofDefinition f.sName f.sType

/-- A loop of statements on one table: what has been carried out when it ends is a prefix of them, and all of
them when it returns true. -/
theorem columns_executeAll {name : String} (stmt : FieldInfo → Stmt)
    (effect : List Column → FieldInfo → List Column)
    (heffect : ∀ (f : FieldInfo) (m m' : MySql) (t : Table), MySql.execute env (stmt f) m = (true, m') →
      m.db.tables name = some t → ∃ t', m'.db.tables name = some t' ∧ t'.columns = effect t.columns f)
    (fields : List FieldInfo) {m : MySql} (ht : m.db.tables name = some t) :
    ∃ t' done, (executeAll env (fields.map stmt) m).2.db.tables name = some t' ∧ done <+: fields ∧
      t'.columns = done.foldl effect t.columns ∧
      ((executeAll env (fields.map stmt) m).1 = true → done = fields) := by
  induction fields generalizing m t with
  | nil => exact ⟨t, [], ht, List.prefix_rfl, rfl, fun _ => rfl⟩
  | cons f fields ih =>
      rw [List.map_cons, executeAll]
      rcases hexecute : MySql.execute env (stmt f) m with ⟨_ | _, m₁⟩
      · -- a statement that is refused leaves the table and ends the loop
        refine ⟨t, [], ?_, List.nil_prefix, rfl, fun h => by cases h⟩
        rw [MySql.db_of_execute_false hexecute]
        exact ht
      · obtain ⟨t₁, ht₁, hcolumns⟩ := heffect f m m₁ t hexecute ht
        obtain ⟨t', done, ht', hprefix, hdone, hall⟩ := ih ht₁
        refine ⟨t', f :: done, ht', List.cons_prefix_cons.2 ⟨rfl, hprefix⟩, ?_, fun h => by rw [hall h]⟩
        rw [hdone, hcolumns]
        rfl

/-- The loop that adds columns puts those it adds behind the others. -/
theorem columns_addColumns (name : String) (fields : List FieldInfo) {m : MySql}
    (ht : m.db.tables name = some t) :
    ∃ t' done,
      (executeAll env (fields.map fun f => .addColumn name f.sName f.sType) m).2.db.tables name = some t' ∧
        done <+: fields ∧ t'.columns = t.columns ++ done.map declared ∧
        ((executeAll env (fields.map fun f => .addColumn name f.sName f.sType) m).1 = true → done = fields) := by
  have hfold : ∀ (done : List FieldInfo) (columns : List Column),
      done.foldl (fun columns f => columns ++ [declared f]) columns = columns ++ done.map declared := by
    intro done
    induction done with
    | nil => simp
    | cons f done ih => simp [ih]
  obtain ⟨t', done, ht', hprefix, hdone, hall⟩ := columns_executeAll
    (fun f => .addColumn name f.sName f.sType) (fun columns f => columns ++ [declared f])
    (fun f m m' t hexecute ht => by
      have hexec := MySql.db_exec_of_execute hexecute
      obtain ⟨t₀, t', ht₀, hdb, hcolumns⟩ := Db.columns_of_addColumn hexec
      cases ht.symm.trans ht₀
      exact ⟨t', by rw [hdb, Db.tables_set, if_pos rfl], hcolumns⟩) fields ht
  exact ⟨t', done, ht', hprefix, hdone.trans (hfold _ _), hall⟩

/-- A column behind the redefinition of the fields. -/
def redefineAll (fields : List FieldInfo) (col : Column) : Column :=
  fields.foldl (fun col f => (declared f).redefine col) col

/-- The loop that modifies columns redefines them. -/
theorem columns_modifyColumns (name : String) (fields : List FieldInfo) {m : MySql}
    (ht : m.db.tables name = some t) :
    ∃ t' done,
      (executeAll env (fields.map fun f => .modifyColumn name f.sName f.sType) m).2.db.tables name = some t' ∧
        done <+: fields ∧ t'.columns = t.columns.map (redefineAll done) ∧
        ((executeAll env (fields.map fun f => .modifyColumn name f.sName f.sType) m).1 = true →
          done = fields) := by
  have hfold : ∀ (done : List FieldInfo) (columns : List Column),
      done.foldl (fun columns f => columns.map (declared f).redefine) columns = columns.map (redefineAll done) := by
    intro done
    induction done with
    | nil => exact fun columns => (List.map_id columns).symm
    | cons f done ih =>
        intro columns
        rw [List.foldl_cons, ih, List.map_map]
        rfl
  obtain ⟨t', done, ht', hprefix, hdone, hall⟩ := columns_executeAll
    (fun f => .modifyColumn name f.sName f.sType) (fun columns f => columns.map (declared f).redefine)
    (fun f m m' t hexecute ht => by
      have hexec := MySql.db_exec_of_execute hexecute
      obtain ⟨t₀, t', ht₀, hdb, hcolumns⟩ := Db.columns_of_modifyColumn hexec
      cases ht.symm.trans ht₀
      exact ⟨t', by rw [hdb, Db.tables_set, if_pos rfl], hcolumns⟩) fields ht
  exact ⟨t', done, ht', hprefix, hdone.trans (hfold _ _), hall⟩

@[simp] theorem redefineAll_cons (f : FieldInfo) (fields : List FieldInfo) (col : Column) :
    redefineAll (f :: fields) col = redefineAll fields ((declared f).redefine col) := rfl

@[simp] theorem name_redefineAll (fields : List FieldInfo) (col : Column) :
    (redefineAll fields col).name = col.name := by
  induction fields generalizing col with
  | nil => rfl
  | cons f fields ih => exact (ih _).trans (Column.name_redefine _ col)

/-- A table whose columns were redefined has the columns it had. -/
theorem hasColumn_of_redefineAll {fields : List FieldInfo} {t' : Table}
    (h : t'.columns = t.columns.map (redefineAll fields)) (c : String) : t'.hasColumn c = t.hasColumn c := by
  rw [Table.hasColumn, h, List.any_map]
  simp only [Function.comp_def, name_redefineAll]
  rfl

/-- A redefined column is the old one or a declared one. -/
theorem redefineAll_cases (fields : List FieldInfo) (col : Column) :
    redefineAll fields col = col ∨ ∃ f, redefineAll fields col = declared f := by
  induction fields generalizing col with
  | nil => exact .inl rfl
  | cons f fields ih =>
      rw [redefineAll_cons]
      rcases ih ((declared f).redefine col) with hsame | hdeclared
      · rw [hsame, Column.redefine]
        split_ifs
        · exact .inr ⟨f, rfl⟩
        · exact .inl rfl
      · exact .inr hdeclared

/-- A column of another name stays. -/
theorem redefineAll_of_ne {fields : List FieldInfo} {col : Column} (h : ∀ f ∈ fields, f.sName ≠ col.name) :
    redefineAll fields col = col := by
  induction fields with
  | nil => rfl
  | cons f fields ih =>
      have hne : col.name ≠ (declared f).name := (h f List.mem_cons_self).symm
      have hfirst : (declared f).redefine col = col := if_neg hne
      rw [redefineAll_cons, hfirst]
      exact ih fun g hg => h g (List.mem_cons_of_mem _ hg)

/-- A column of a redefined field's name is the declared one, when the names are different. -/
theorem redefineAll_of_mem {fields : List FieldInfo} (hdistinct : fields.Pairwise fun f g => f.sName ≠ g.sName)
    {f : FieldInfo} (hf : f ∈ fields) {col : Column} (hname : f.sName = col.name) :
    redefineAll fields col = declared f := by
  induction fields generalizing col with
  | nil => exact absurd hf List.not_mem_nil
  | cons g fields ih =>
      obtain ⟨hg, hrest⟩ := List.pairwise_cons.1 hdistinct
      rw [redefineAll_cons]
      rcases List.mem_cons.1 hf with rfl | hf
      · have hfirst : (declared f).redefine col = declared f := if_pos hname.symm
        rw [hfirst]
        exact redefineAll_of_ne fun g hg' => (hg g hg').symm
      · exact ih hrest hf (hname.trans (Column.name_redefine (declared g) col).symm)

/-! ## The check -/

/-- What `CheckTable` has done to a table that is there: some missing columns were added, then some of the shown
types changed, and all of both when it returns true. -/
theorem columns_checkTable {m : MySql} (hok : env.descOk m.sent = true) (ht : m.db.tables info.sName = some t) :
    ∃ t' added modified, (checkTable env info m).2.db.tables info.sName = some t' ∧
      t'.columns = (t.columns ++ added.map declared).map (redefineAll modified) ∧
      added <+: (missing info t).values ∧ modified <+: (changed info t).values ∧
      ((checkTable env info m).1 = true →
        added = (missing info t).values ∧ modified = (changed info t).values) := by
  obtain ⟨t₁, added, ht₁, hadded, hcolumns₁, hall₁⟩ :=
    @columns_addColumns env t info.sName (missing info t).values ⟨m.db, m.sent + 1⟩ ht
  rw [checkTable_of_table hok ht, alters, executeAll_append]
  split_ifs with hadds
  · obtain ⟨t₂, modified, ht₂, hmodified, hcolumns₂, hall₂⟩ :=
      columns_modifyColumns info.sName (changed info t).values ht₁
    refine ⟨t₂, added, modified, ht₂, ?_, hadded, hmodified, fun h => ⟨hall₁ hadds, hall₂ h⟩⟩
    rw [hcolumns₂, hcolumns₁]
  · refine ⟨t₁, added, [], ht₁, ?_, hadded, List.nil_prefix, fun h => absurd h hadds⟩
    rw [hcolumns₁]
    exact (List.map_id _).symm

/-- The columns of a table, none when it is not there. -/
def columnsOf (db : Db) (name : String) : List Column := ((db.tables name).map Table.columns).getD []

theorem columnsOf_of_table {db : Db} {name : String} (ht : db.tables name = some t) :
    columnsOf db name = t.columns := by
  rw [columnsOf, ht]
  rfl

/-- The table has every declared column; the declared columns it had that were shown with another type are as
declared; the columns that are not declared are those it had. -/
structure Reconciled (info : TableInfo) (before : List Column) (t : Table) : Prop where
  complete : ∀ field ∈ info.mapField.values, t.hasColumn field.sName = true
  modified : ∀ col ∈ before, ∀ field ∈ info.mapField.values, field.sName = col.name → field.sType ≠ col.type →
    ∀ col' ∈ t.columns, col'.name = col.name → col' = Column.ofDefinition field.sName field.sType
  others : (t.columns.filter fun col => info.mapField.get? col.name = none) =
    before.filter fun col => info.mapField.get? col.name = none

/-- A described table has the declared columns. -/
theorem hasColumn_described {field : FieldInfo} (h : field ∈ info.mapField.values) :
    (described info).hasColumn field.sName = true := by
  refine List.any_eq_true.2 ⟨Column.ofDefinition field.sName field.sType, List.mem_map_of_mem h, ?_⟩
  exact decide_eq_true rfl

/-- A description files every field under its name. -/
def Keyed (info : TableInfo) : Prop := ∀ e ∈ info.mapField.entries, e.2.sName = e.1

/-- The program's own descriptions file their fields under their names. -/
theorem keyed_mapTable : ∀ info ∈ mapTable.values, Keyed info := by
  unfold Keyed
  decide +kernel

section Keyed

variable (hkeyed : Keyed info)
include hkeyed

theorem name_of_get? {k : String} {f : FieldInfo} (h : info.mapField.get? k = some f) : f.sName = k :=
  hkeyed (k, f) (OrdMap.mem_entries_iff.2 h)

/-- A declared field is found under its name. -/
theorem get?_of_mem {f : FieldInfo} (h : f ∈ info.mapField.values) : info.mapField.get? f.sName = some f := by
  obtain ⟨k, hk⟩ := OrdMap.mem_values_iff.1 h
  rwa [name_of_get? hkeyed hk]

/-- The missing columns, by name. -/
theorem mem_missing {f : FieldInfo} :
    f ∈ (missing info t).values ↔ f ∈ info.mapField.values ∧ t.hasColumn f.sName = false := by
  rw [OrdMap.mem_values_iff]
  constructor
  · rintro ⟨k, hk⟩
    rw [get?_missing] at hk
    split_ifs at hk with hcol
    refine ⟨OrdMap.mem_values_iff.2 ⟨k, hk⟩, ?_⟩
    rw [name_of_get? hkeyed hk]
    exact Bool.eq_false_iff.2 hcol
  · rintro ⟨hf, hcol⟩
    refine ⟨f.sName, ?_⟩
    rw [get?_missing, hcol, if_neg Bool.false_ne_true]
    exact get?_of_mem hkeyed hf

/-- The changed columns, by name. -/
theorem mem_changed {f : FieldInfo} :
    f ∈ (changed info t).values ↔
      f ∈ info.mapField.values ∧ ∃ c ∈ t.columns, c.name = f.sName ∧ f.sType ≠ c.type := by
  rw [OrdMap.mem_values_iff]
  constructor
  · rintro ⟨k, hk⟩
    obtain ⟨hfield, hcol⟩ := get?_changed.1 hk
    exact ⟨OrdMap.mem_values_iff.2 ⟨k, hfield⟩, by rwa [name_of_get? hkeyed hfield]⟩
  · rintro ⟨hf, hcol⟩
    exact ⟨f.sName, get?_changed.2 ⟨get?_of_mem hkeyed hf, hcol⟩⟩

/-- Declared fields have different names. -/
theorem distinct_of_subset {fields : OrdMap String FieldInfo} (hsub : fields.entries ⊆ info.mapField.entries) :
    fields.values.Pairwise fun f g => f.sName ≠ g.sName := by
  refine List.pairwise_map.2 (fields.sorted.imp_of_mem fun {a b} ha hb hlt => ?_)
  rw [hkeyed a (hsub ha), hkeyed b (hsub hb)]
  exact ne_of_lt hlt

/-- When everything missing was added and everything that differs was changed, the table is reconciled. -/
theorem reconciled_of_columns {t' : Table}
    (h : t'.columns = (t.columns ++ (missing info t).values.map declared).map (redefineAll (changed info t).values)) :
    Reconciled info t.columns t' where
  complete field hfield := by
    -- the column was there or has been added, and keeps its name
    have hcol : ∃ col ∈ t.columns ++ (missing info t).values.map declared, col.name = field.sName := by
      cases hhas : t.hasColumn field.sName with
      | true =>
          obtain ⟨col, hcol, hname⟩ := List.any_eq_true.1 hhas
          exact ⟨col, List.mem_append_left _ hcol, of_decide_eq_true hname⟩
      | false =>
          have hmissing := (mem_missing hkeyed).2 ⟨hfield, hhas⟩
          exact ⟨declared field, List.mem_append_right _ (List.mem_map_of_mem hmissing), rfl⟩
    obtain ⟨col, hcol, hname⟩ := hcol
    refine List.any_eq_true.2 ⟨redefineAll (changed info t).values col, ?_, ?_⟩
    · rw [h]
      exact List.mem_map_of_mem hcol
    · exact decide_eq_true ((name_redefineAll _ col).trans hname)
  modified col hcol field hfield hname htype col' hcol' hname' := by
    rw [h] at hcol'
    obtain ⟨col₁, -, rfl⟩ := List.mem_map.1 hcol'
    rw [name_redefineAll] at hname'
    have hchanged := (mem_changed hkeyed).2 ⟨hfield, col, hcol, hname.symm, htype⟩
    exact redefineAll_of_mem (distinct_of_subset hkeyed List.filter_sublist.subset) hchanged (hname.trans hname'.symm)
  others := by
    have hkept : ∀ col : Column, info.mapField.get? col.name = none →
        redefineAll (changed info t).values col = col := fun col hcol => by
      refine redefineAll_of_ne fun f hf hname => ?_
      rw [← hname, get?_of_mem hkeyed ((mem_changed hkeyed).1 hf).1] at hcol
      cases hcol
    -- what was added is declared
    have hadded : (((missing info t).values.map declared).filter fun col => info.mapField.get? col.name = none) =
        [] := by
      refine List.filter_eq_nil_iff.2 fun col hcol => ?_
      obtain ⟨f, hf, rfl⟩ := List.mem_map.1 hcol
      have hdeclared : info.mapField.get? (declared f).name = some f :=
        get?_of_mem hkeyed ((mem_missing hkeyed).1 hf).1
      simp [hdeclared]
    have hnames : ((fun col : Column => decide (info.mapField.get? col.name = none)) ∘
        redefineAll (changed info t).values) = fun col => decide (info.mapField.get? col.name = none) :=
      funext fun col => by simp
    rw [h, List.filter_map, hnames, List.filter_append, hadded, List.append_nil]
    refine (List.map_congr_left fun col hcol => ?_).trans (List.map_id _)
    exact hkept col (of_decide_eq_true (List.mem_filter.1 hcol).2)

/-- A table that was missing is reconciled when it is created as described. -/
theorem reconciled_described : Reconciled info [] (described info) where
  complete _ := hasColumn_described
  modified col hcol := absurd hcol List.not_mem_nil
  others := by
    refine List.filter_eq_nil_iff.2 fun col hcol => ?_
    obtain ⟨f, hf, rfl⟩ := List.mem_map.1 hcol
    have hdeclared : info.mapField.get? (Column.ofDefinition f.sName f.sType).name = some f :=
      get?_of_mem hkeyed hf
    simp [hdeclared]

/-- **`CheckTable` reconciles.** When it returns true, the table is there and reconciled with its description;
when it returns false, every column that was there still is. -/
theorem checkTable_reconciles (hdesc : ∀ n, env.descOk n = true) (m : MySql) :
    (∀ m', checkTable env info m = (true, m') →
      ∃ t, m'.db.tables info.sName = some t ∧ Reconciled info (columnsOf m.db info.sName) t) ∧
    ∀ m', checkTable env info m = (false, m') →
      ∀ col ∈ columnsOf m.db info.sName, ∃ col' ∈ columnsOf m'.db info.sName, col'.name = col.name := by
  cases ht : m.db.tables info.sName with
  | none =>
      have hbefore : columnsOf m.db info.sName = [] := by
        rw [columnsOf, ht]
        rfl
      rw [checkTable_of_none ht, hbefore]
      refine ⟨fun m' h => ?_, fun m' _ col hcol => absurd hcol List.not_mem_nil⟩
      exact ⟨described info, tables_createTable (by exact ht) h, reconciled_described hkeyed⟩
  | some t =>
      rw [columnsOf_of_table ht]
      obtain ⟨t', added, modified, ht', hcolumns, -, -, hall⟩ := @columns_checkTable env info t m (hdesc m.sent) ht
      refine ⟨fun m' h => ?_, fun m' h col hcol => ?_⟩
      · rw [h] at ht' hall
        obtain ⟨rfl, rfl⟩ := hall rfl
        exact ⟨t', ht', reconciled_of_columns hkeyed hcolumns⟩
      · -- the statements that were carried out keep the column and its name
        rw [h] at ht'
        rw [columnsOf_of_table ht', hcolumns]
        exact ⟨redefineAll modified col, List.mem_map_of_mem (List.mem_append_left _ hcol), name_redefineAll _ _⟩

end Keyed

/-- A `t_chatmsg` from before it had `f_remark`. -/
def oldChatmsg : Table := { freshChatmsg with columns := freshChatmsg.columns.filter (·.name ≠ "f_remark") }

/-- A `t_chatmsg` that lacks `f_remark` is given it, and its other columns are redefined. -/
theorem checkTable_reconciles_old :
    ∃ t, (checkTable SqlEnv.ideal tChatmsg ⟨Db.empty.set "t_chatmsg" oldChatmsg, 0⟩).2.db.tables "t_chatmsg" =
      some t ∧ Reconciled tChatmsg oldChatmsg.columns t :=
  (@checkTable_reconciles SqlEnv.ideal tChatmsg (keyed_mapTable tChatmsg (by simp [mapTable_values])) (fun _ => rfl)
    ⟨Db.empty.set "t_chatmsg" oldChatmsg, 0⟩).1 _ (Prod.ext (by decide +kernel) rfl)

end AimChat.MySqlManager
