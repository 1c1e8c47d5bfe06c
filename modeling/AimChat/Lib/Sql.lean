import Mathlib.Data.List.Sort

/-! # A small SQL store

Tables with typed columns and the statements a client program sends to them: `INSERT` with named
columns, `UPDATE`, `DELETE` and `SELECT` on integer conditions, `CREATE TABLE IF NOT EXISTS`, `ALTER
TABLE` and `DESC`. Column definitions and string literals are read from their text the way MySQL reads
them: a statement that names a column its table does not have fails, an unnamed column takes its
declared default, and a primary key is unique. Where a string literal does not end where it was meant to,
MySQL reads another statement, which it may carry out or refuse. That one is not followed here: `Db.exec`
has no effect for it, and what is said of statements with such texts says so. -/

namespace AimChat.Sql

/-- A column's value; times are integers. -/
inductive Value
  | null
  | int (n : Int)
  | text (b : List UInt8)
  deriving DecidableEq, Repr

/-- The integer a value is ordered by. -/
def Value.rank : Value → Int
  | .int n => n
  | _ => 0

/-! ## Column definitions -/

/-- What a column gets in a row that does not name it. -/
inductive Default
  | required
  | const (v : Value)
  | autoIncrement
  | now
  deriving DecidableEq, Repr

/-- A column of a table: its name, the data type `DESC` shows, and its default. -/
structure Column where
  name : String
  type : String
  dflt : Default
  deriving DecidableEq, Repr

/-- The words of a definition. -/
def words (s : String) : List String :=
  ((s.toList.splitOn ' ').filter (· ≠ [])).map String.ofList

/-- A piece of a split list holds no separator. -/
theorem of_mem_splitOnP {α : Type} {p : α → Bool} {xs : List α} :
    ∀ piece ∈ xs.splitOnP p, ∀ x ∈ piece, p x = false := by
  induction xs with
  | nil => simp
  | cons x xs ih =>
      rw [List.splitOnP_cons_eq_if_modifyHead]
      split_ifs with hx
      · exact List.forall_mem_cons.2 ⟨fun _ h => absurd h List.not_mem_nil, ih⟩
      · -- the element goes in front of the first piece
        cases hrest : xs.splitOnP p with
        | nil => exact absurd hrest (List.splitOnP_ne_nil p xs)
        | cons first rest =>
            rw [hrest] at ih
            obtain ⟨hfirst, hothers⟩ := List.forall_mem_cons.1 ih
            rw [List.modifyHead_cons]
            exact List.forall_mem_cons.2 ⟨List.forall_mem_cons.2 ⟨Bool.eq_false_iff.2 hx, hfirst⟩, hothers⟩

/-- A word holds no blank. -/
theorem not_mem_of_mem_words {s w : String} (h : w ∈ words s) : ' ' ∉ w.toList := by
  obtain ⟨piece, hpiece, rfl⟩ := List.mem_map.1 h
  rw [String.toList_ofList]
  intro hblank
  have hsep := of_mem_splitOnP piece (List.mem_filter.1 hpiece).1 ' ' hblank
  cases hsep

/-- A run of decimal digits. -/
def decimal (s : String) : Int := s.toList.foldl (fun n c => n * 10 + (c.toNat - 48)) 0

/-- The default a definition's attributes declare; a column that is neither `NOT NULL` nor has a
`DEFAULT` defaults to NULL. -/
def defaultOf : List String → Default
  | [] => .const .null
  | "AUTO_INCREMENT" :: _ => .autoIncrement
  | "DEFAULT" :: "NULL" :: _ => .const .null
  | "DEFAULT" :: "CURRENT_TIMESTAMP" :: _ => .now
  | "DEFAULT" :: n :: _ => .const (.int (decimal n))
  | ["NOT", "NULL"] => .required
  | "NOT" :: "NULL" :: "COMMENT" :: _ => .required
  | _ :: ws => defaultOf ws

/-- The column a definition such as `bigint(20) NOT NULL AUTO_INCREMENT` declares. -/
def Column.ofDefinition (name definition : String) : Column where
  name := name
  type := (words definition).headD ""
  dflt := defaultOf (words definition)

/-- `DESC` shows a declared column's data type only, which is one word. -/
theorem Column.not_mem_type_ofDefinition (name definition : String) :
    ' ' ∉ (Column.ofDefinition name definition).type.toList := by
  unfold Column.ofDefinition
  cases hwords : words definition with
  | nil => simp
  | cons w ws => exact not_mem_of_mem_words (hwords ▸ List.mem_cons_self)

/-- The column in `PRIMARY KEY (column), ...`. -/
def primaryKeyOf (keys : String) : String :=
  String.ofList (((keys.toList.dropWhile (· ≠ '(')).drop 1).takeWhile (· ≠ ')'))

/-! ## String literals -/

/-- The bytes a backslash and the character after it stand for. -/
def unescape (c : UInt8) : List UInt8 :=
  if c = 48 then [0]
  else if c = 98 then [8]
  else if c = 110 then [10]
  else if c = 114 then [13]
  else if c = 116 then [9]
  else if c = 90 then [26]
  -- `\%` and `\_` keep their backslash
  else if c = 37 ∨ c = 95 then [92, c]
  else [c]

/-- The value of the literal whose text stands between two quotes; `none` when the literal does not
end at the second of them. Two quotes stand for one, and a backslash escapes the next character. -/
def unquote : List UInt8 → Option (List UInt8)
  | [] => some []
  | 39 :: 39 :: s => (unquote s).map (39 :: ·)
  | 92 :: c :: s => (unquote s).map (unescape c ++ ·)
  -- a lone quote ends the literal too early, a lone backslash takes its closing quote
  | c :: s => if c = 39 ∨ c = 92 then none else (unquote s).map (c :: ·)

/-- A value as a statement writes it. -/
inductive Literal
  | int (n : Int)
  | quoted (raw : List UInt8)
  | now
  deriving DecidableEq, Repr

/-- The value of a literal at time `now`. -/
def Literal.eval (now : Int) : Literal → Option Value
  | .int n => some (.int n)
  | .quoted raw => (unquote raw).map .text
  | .now => some (.int now)

/-- The literal ends at its closing quote. -/
def Literal.whole : Literal → Bool
  | .quoted raw => (unquote raw).isSome
  | _ => true

/-- The values of named columns, when every literal is whole. -/
def evalAll (now : Int) (named : List (String × Literal)) : Option (List (String × Value)) :=
  named.mapM fun (c, l) => (l.eval now).map fun v => (c, v)

/-- Evaluating keeps the names. -/
theorem mem_evalAll {now : Int} {values : List (String × Literal)} {named : List (String × Value)}
    (h : evalAll now values = some named) {c : String} {l : Literal} (hc : (c, l) ∈ values) :
    ∃ v, (c, v) ∈ named := by
  induction values generalizing named with
  | nil => simp at hc
  | cons cl values ih =>
      simp only [evalAll, List.mapM_cons, Option.bind_eq_bind, Option.bind_eq_some_iff,
        Option.map_eq_some_iff, Option.pure_def, Option.some.injEq] at h
      obtain ⟨cv, ⟨v, hv, rfl⟩, rest, hrest, rfl⟩ := h
      rcases List.mem_cons.1 hc with heq | hmem
      · exact ⟨v, by rw [← heq]; exact List.mem_cons_self⟩
      · obtain ⟨v', hv'⟩ := ih hrest hmem
        exact ⟨v', List.mem_cons_of_mem _ hv'⟩

/-- Literals that have values are whole. -/
theorem whole_of_evalAll {now : Int} {values : List (String × Literal)} {named : List (String × Value)}
    (h : evalAll now values = some named) : (values.map Prod.snd).all Literal.whole = true := by
  induction values generalizing named with
  | nil => rfl
  | cons cl values ih =>
      obtain ⟨c, l⟩ := cl
      simp only [evalAll, List.mapM_cons, Option.bind_eq_bind, Option.bind_eq_some_iff,
        Option.map_eq_some_iff, Option.pure_def, Option.some.injEq] at h
      obtain ⟨cv, ⟨v, hv, rfl⟩, rest, hrest, rfl⟩ := h
      have hwhole : l.whole = true := by
        cases l with
        | quoted raw =>
            obtain ⟨b, hb, -⟩ := Option.map_eq_some_iff.1 hv
            exact Option.isSome_iff_exists.2 ⟨b, hb⟩
        | _ => rfl
      rw [List.map_cons, List.all_cons, hwhole, ih hrest]
      rfl

/-- When every literal has its value, the columns have them. -/
theorem evalAll_eq {now : Int} {values : List (String × Literal)} {named : List (String × Value)}
    (h : List.Forall₂ (fun cl cv => cl.1 = cv.1 ∧ Literal.eval now cl.2 = some cv.2) values named) :
    evalAll now values = some named := by
  induction h with
  | nil => rfl
  | cons hcl _ ih =>
      obtain ⟨hc, hl⟩ := hcl
      rw [evalAll] at ih ⊢
      rw [List.mapM_cons, ih]
      simp only [hl, hc, Option.map_some, Option.bind_eq_bind, Option.bind_some, Option.pure_def]

/-- The value of a named column is its literal's. -/
theorem lookup_evalAll {now : Int} {values : List (String × Literal)}
    {named : List (String × Value)} (h : evalAll now values = some named) (c : String) :
    named.lookup c = (values.lookup c).bind fun l => l.eval now := by
  induction values generalizing named with
  | nil =>
      cases h
      rfl
  | cons cl values ih =>
      obtain ⟨c', l⟩ := cl
      simp only [evalAll, List.mapM_cons, Option.bind_eq_bind, Option.bind_eq_some_iff,
        Option.map_eq_some_iff, Option.pure_def, Option.some.injEq] at h
      obtain ⟨cv, ⟨v, hv, rfl⟩, rest, hrest, rfl⟩ := h
      rw [List.lookup_cons, List.lookup_cons, ih hrest]
      by_cases hc : (c == c') = true
      · simp only [hc, Option.bind_some, hv]
      · simp only [hc]

/-! ## Tables -/

/-- A row, by column name. -/
abbrev Row := String → Value

/-- A table: its columns, its primary key, its rows in the order they were inserted. -/
structure Table where
  columns : List Column
  key : String
  rows : List Row

/-- Some column has this name. -/
def Table.hasColumn (t : Table) (c : String) : Bool := t.columns.any fun col => col.name = c

/-- The next value of an `AUTO_INCREMENT` column. -/
def Table.nextAuto (t : Table) (c : String) : Int :=
  t.rows.foldl (fun n r => max n (r c).rank) 0 + 1

/-- What an unnamed column of a new row holds. -/
def Table.defaultValue (t : Table) (now : Int) (c : String) : Value :=
  match t.columns.find? fun col => col.name = c with
  | some col =>
      match col.dflt with
      | .required => .null
      | .const v => v
      | .autoIncrement => .int (t.nextAuto c)
      | .now => .int now
  | none => .null

/-- The row an `INSERT` adds. -/
def Table.newRow (t : Table) (now : Int) (named : List (String × Value)) : Row := fun c =>
  (named.lookup c).getD (t.defaultValue now c)

/-- A column that is not named among the literals has no value. -/
theorem lookup_eq_none {now : Int} {values : List (String × Literal)} {named : List (String × Value)}
    (h : evalAll now values = some named) {c : String} (hc : values.lookup c = none) : named.lookup c = none := by
  rw [lookup_evalAll h, hc, Option.bind_none]

/-- The new row has the value of a literal in its column. -/
theorem Table.newRow_eq (t : Table) {now : Int} {values : List (String × Literal)} {named : List (String × Value)}
    (h : evalAll now values = some named) {c : String} {l : Literal} {v : Value}
    (hc : values.lookup c = some l) (hv : l.eval now = some v) : t.newRow now named c = v := by
  rw [Table.newRow, lookup_evalAll h, hc, Option.bind_some, hv, Option.getD_some]

/-- Every column without a default is named. -/
def Table.complete (t : Table) (named : List (String × Value)) : Bool :=
  t.columns.all fun col => col.dflt ≠ .required || (named.lookup col.name).isSome

/-- `INSERT INTO t (columns) VALUES (values)` -/
def Table.insert (t : Table) (now : Int) (named : List (String × Value)) : Option Table :=
  -- unknown columns, missing ones and a key that is taken are errors
  if (named.all fun cv => t.hasColumn cv.1) && t.complete named &&
      t.rows.all (fun r => r t.key ≠ t.newRow now named t.key) then
    some { t with rows := t.rows ++ [t.newRow now named] }
  else none

/-- A `WHERE` condition. -/
inductive Cond
  | eq (c : String) (n : Int)
  | and (a b : Cond)
  | or (a b : Cond)
  deriving DecidableEq, Repr

namespace Cond

/-- Whether a row meets the condition. -/
def holds (r : Row) : Cond → Bool
  | eq c n => r c = .int n
  | and a b => a.holds r && b.holds r
  | or a b => a.holds r || b.holds r

/-- The columns the condition names. -/
def columns : Cond → List String
  | eq c _ => [c]
  | and a b => a.columns ++ b.columns
  | or a b => a.columns ++ b.columns

end Cond

/-- A row with the named columns overwritten. -/
def setAll (named : List (String × Value)) (r : Row) : Row := fun c =>
  (named.lookup c).getD (r c)

/-- Columns that are overwritten again have the later values. -/
theorem setAll_setAll {named named' : List (String × Value)} (h : named.map Prod.fst = named'.map Prod.fst)
    (r : Row) : setAll named' (setAll named r) = setAll named' r := by
  funext c
  show (named'.lookup c).getD ((named.lookup c).getD (r c)) = (named'.lookup c).getD (r c)
  cases hc' : named'.lookup c with
  | some v => rfl
  | none =>
      -- a column without a later value had no earlier one
      cases hc : named.lookup c with
      | none => rfl
      | some v =>
          obtain ⟨l, k, hsplit, -⟩ := List.lookup_eq_some_iff.1 hc
          have hmem : c ∈ named'.map Prod.fst := by
            rw [← h, hsplit, List.map_append, List.map_cons]
            exact List.mem_append_right _ List.mem_cons_self
          obtain ⟨cv, hcv, rfl⟩ := List.mem_map.1 hmem
          have hne := List.lookup_eq_none_iff.1 hc' cv hcv
          simp at hne

/-- `UPDATE t SET ... WHERE cond` -/
def Table.update (t : Table) (named : List (String × Value)) (cond : Cond) : Option Table :=
  if (named.all fun cv => t.hasColumn cv.1) && cond.columns.all t.hasColumn then
    some { t with rows := t.rows.map fun r => if cond.holds r then setAll named r else r }
  else none

/-- `DELETE FROM t WHERE cond` -/
def Table.delete (t : Table) (cond : Cond) : Option Table :=
  if cond.columns.all t.hasColumn then
    some { t with rows := t.rows.filter fun r => !cond.holds r }
  else none

/-- What a `SELECT` lists: a column, or a column as seconds since the epoch. -/
inductive Expr
  | col (c : String)
  | unixTimestamp (c : String)
  deriving DecidableEq, Repr

/-- The column an expression reads. -/
def Expr.column : Expr → String
  | col c => c
  | unixTimestamp c => c

/-- `SELECT exprs FROM table WHERE cond ORDER BY orderDesc DESC LIMIT limit` -/
structure Select where
  exprs : List Expr
  table : String
  cond : Option Cond := none
  orderDesc : Option String := none
  limit : Option Int := none
  deriving DecidableEq, Repr

/-- The columns a query names. -/
def Select.columns (q : Select) : List String :=
  q.exprs.map Expr.column ++ (q.cond.elim [] Cond.columns ++ q.orderDesc.toList)

/-- The rows a query lists, in order. -/
def Select.rows (q : Select) (rows : List Row) : List Row :=
  let chosen := rows.filter fun r => q.cond.all fun c => c.holds r
  let sorted := q.orderDesc.elim chosen fun c =>
    -- a stable sort: rows of one rank stay in the order of their insertion
    chosen.insertionSort fun a b => (b c).rank ≤ (a c).rank
  q.limit.elim sorted fun n => sorted.take n.toNat

/-- The result of a query on its table; a negative `LIMIT` is a syntax error. -/
def Table.select (t : Table) (q : Select) : Option (List (List Value)) :=
  if q.columns.all t.hasColumn && q.limit.all (fun n => 0 ≤ n) then
    some ((q.rows t.rows).map fun r => q.exprs.map fun e => r e.column)
  else none

/-! ## Databases -/

/-- A database: its tables by name. -/
structure Db where
  tables : String → Option Table

namespace Db

/-- The database without tables. -/
def empty : Db := ⟨fun _ => none⟩

/-- Put a table under a name. -/
def set (db : Db) (name : String) (t : Table) : Db :=
  ⟨fun n => if n = name then some t else db.tables n⟩

/-- The rows of a table; none when there is no such table. -/
def rows (db : Db) (name : String) : List Row := ((db.tables name).map Table.rows).getD []

@[simp] theorem tables_set (db : Db) (name n : String) (t : Table) :
    (db.set name t).tables n = if n = name then some t else db.tables n := rfl

/-- The table that was put last is there. -/
theorem set_set (db : Db) (name : String) (t t' : Table) : (db.set name t).set name t' = db.set name t' := by
  refine congrArg Db.mk (funext fun n => ?_)
  rw [tables_set]
  split_ifs <;> rfl

theorem rows_of_table {db : Db} {name : String} {t : Table} (h : db.tables name = some t) :
    db.rows name = t.rows := by
  rw [rows, h]
  rfl

@[simp] theorem rows_set (db : Db) (name n : String) (t : Table) :
    (db.set name t).rows n = if n = name then t.rows else db.rows n := by
  unfold rows
  rw [tables_set]
  split_ifs <;> rfl

end Db

/-- A statement that returns no rows. -/
inductive Stmt
  | insert (table : String) (values : List (String × Literal))
  | update (table : String) (values : List (String × Literal)) (cond : Cond)
  | delete (table : String) (cond : Cond)
  | create (table : String) (definitions : List (String × String)) (keys : String)
  | addColumn (table name definition : String)
  | modifyColumn (table name definition : String)
  deriving DecidableEq, Repr

/-- The literals a statement contains. -/
def Stmt.literals : Stmt → List Literal
  | insert _ values => values.map Prod.snd
  | update _ values _ => values.map Prod.snd
  | _ => []

/-- The table a statement is about. -/
def Stmt.table : Stmt → String
  | insert t _ => t
  | update t _ _ => t
  | delete t _ => t
  | create t _ _ => t
  | addColumn t _ _ => t
  | modifyColumn t _ _ => t

/-- `ALTER TABLE t ADD COLUMN`: existing rows get the column's default. -/
def Table.addColumn (t : Table) (now : Int) (col : Column) : Option Table :=
  if t.hasColumn col.name then none
  else
    let t' : Table := { t with columns := t.columns ++ [col] }
    some { t' with rows := t.rows.map fun r c =>
      if c = col.name then t'.defaultValue now c else r c }

/-- `ALTER TABLE t MODIFY COLUMN` -/
def Table.modifyColumn (t : Table) (col : Column) : Option Table :=
  if t.hasColumn col.name then
    some { t with columns := t.columns.map fun c => if c.name = col.name then col else c }
  else none

/-- The effect of a statement; `none` when it fails, and then nothing has changed, and when one of its literals
is not whole. -/
def Db.exec (now : Int) (db : Db) : Stmt → Option Db
  | .insert name values => do
      let t ← db.tables name
      let named ← evalAll now values
      let t' ← t.insert now named
      return db.set name t'
  | .update name values cond => do
      let t ← db.tables name
      let named ← evalAll now values
      let t' ← t.update named cond
      return db.set name t'
  | .delete name cond => do
      let t ← db.tables name
      let t' ← t.delete cond
      return db.set name t'
  | .create name definitions keys =>
      match db.tables name with
      | some _ => some db
      | none => some (db.set name
          ⟨definitions.map fun nd => Column.ofDefinition nd.1 nd.2, primaryKeyOf keys, []⟩)
  | .addColumn name c definition => do
      let t ← db.tables name
      let t' ← t.addColumn now (Column.ofDefinition c definition)
      return db.set name t'
  | .modifyColumn name c definition => do
      let t ← db.tables name
      let t' ← t.modifyColumn (Column.ofDefinition c definition)
      return db.set name t'

/-- The result of a query; `none` when it fails. -/
def Db.select (db : Db) (q : Select) : Option (List (List Value)) := do
  let t ← db.tables q.table
  t.select q

/-- `DESC table`: names and shown types of its columns. -/
def Db.desc (db : Db) (name : String) : Option (List (String × String)) :=
  (db.tables name).map fun t => t.columns.map fun c => (c.name, c.type)

/-! ## What a statement that succeeds has done -/

/-- A statement changes no table but its own. -/
theorem Db.exec_other {now : Int} {db db' : Db} {stmt : Stmt} (h : db.exec now stmt = some db')
    {name : String} (hname : name ≠ stmt.table) : db'.tables name = db.tables name := by
  have hset : ∀ (t : Table), (db.set stmt.table t).tables name = db.tables name := fun t => by
    rw [tables_set, if_neg hname]
  cases stmt with
  | create t defs keys =>
      simp only [Db.exec] at h
      split at h <;> cases h
      · rfl
      · exact hset _
  | _ =>
      simp only [Db.exec, Option.bind_eq_bind, Option.bind_eq_some_iff, Option.pure_def,
        Option.some.injEq] at h
      obtain ⟨t, -, h⟩ := h
      first
        | (obtain ⟨t', -, rfl⟩ := h; exact hset _)
        | (obtain ⟨named, -, t', -, rfl⟩ := h; exact hset _)

/-- The rows of another table stay. -/
theorem Db.rows_exec_other {now : Int} {db db' : Db} {stmt : Stmt}
    (h : db.exec now stmt = some db') {name : String} (hname : name ≠ stmt.table) :
    db'.rows name = db.rows name := by
  unfold Db.rows
  rw [Db.exec_other h hname]

/-- An `INSERT` that succeeds named existing columns, met no other row's key, and appended its row. -/
theorem Db.exec_insert {now : Int} {db db' : Db} {name : String} {values : List (String × Literal)}
    (h : db.exec now (.insert name values) = some db') :
    ∃ t named, db.tables name = some t ∧ evalAll now values = some named ∧
      (∀ cv ∈ named, t.hasColumn cv.1) ∧ (∀ r ∈ t.rows, r t.key ≠ t.newRow now named t.key) ∧
      db' = db.set name { t with rows := t.rows ++ [t.newRow now named] } := by
  simp only [Db.exec, Option.bind_eq_bind, Option.bind_eq_some_iff, Option.pure_def,
    Option.some.injEq] at h
  obtain ⟨t, ht, named, hnamed, t', hins, rfl⟩ := h
  unfold Table.insert at hins
  split_ifs at hins with hcond
  cases hins
  simp only [Bool.and_eq_true, List.all_eq_true, decide_eq_true_eq] at hcond
  exact ⟨t, named, ht, hnamed, hcond.1.1, hcond.2, rfl⟩

/-- An `UPDATE` that succeeds overwrote the named columns of the rows that meet its condition. -/
theorem Db.exec_update {now : Int} {db db' : Db} {name : String} {values : List (String × Literal)}
    {cond : Cond} (h : db.exec now (.update name values cond) = some db') :
    ∃ t named, db.tables name = some t ∧ evalAll now values = some named ∧
      db' = db.set name
        { t with rows := t.rows.map fun r => if cond.holds r then setAll named r else r } := by
  simp only [Db.exec, Option.bind_eq_bind, Option.bind_eq_some_iff, Option.pure_def,
    Option.some.injEq] at h
  obtain ⟨t, ht, named, hnamed, t', hupd, rfl⟩ := h
  unfold Table.update at hupd
  split_ifs at hupd with hcond
  cases hupd
  exact ⟨t, named, ht, hnamed, rfl⟩

/-- A `DELETE` that succeeds took away exactly the rows that meet its condition. -/
theorem Db.exec_delete {now : Int} {db db' : Db} {name : String} {cond : Cond}
    (h : db.exec now (.delete name cond) = some db') :
    ∃ t, db.tables name = some t ∧
      db' = db.set name { t with rows := t.rows.filter fun r => !cond.holds r } := by
  simp only [Db.exec, Option.bind_eq_bind, Option.bind_eq_some_iff, Option.pure_def,
    Option.some.injEq] at h
  obtain ⟨t, ht, t', hdel, rfl⟩ := h
  unfold Table.delete at hdel
  split_ifs at hdel with hcond
  cases hdel
  exact ⟨t, ht, rfl⟩

/-- Adding a column the table does not have adds exactly that column. -/
theorem Table.addColumn_of_new {t : Table} {col : Column} (hcol : t.hasColumn col.name = false) (now : Int) :
    ∃ t', t.addColumn now col = some t' ∧
      ∀ c, t'.hasColumn c = (t.hasColumn c || decide (col.name = c)) := by
  rw [Table.addColumn, if_neg (Bool.eq_false_iff.1 hcol)]
  refine ⟨_, rfl, fun c => ?_⟩
  simp [Table.hasColumn]

/-- An `ALTER TABLE ADD COLUMN` of a column the table does not have adds that column. -/
theorem Db.exec_addColumn (now : Int) {db : Db} {name : String} {t : Table} (ht : db.tables name = some t)
    {c : String} (hc : t.hasColumn c = false) (definition : String) :
    ∃ t', db.exec now (.addColumn name c definition) = some (db.set name t') ∧
      ∀ c', t'.hasColumn c' = (t.hasColumn c' || decide (c = c')) := by
  obtain ⟨t', hadd, hcols⟩ := @Table.addColumn_of_new t (Column.ofDefinition c definition) hc now
  refine ⟨t', ?_, hcols⟩
  simp only [Db.exec, ht, Option.bind_eq_bind, Option.bind_some, hadd, Option.pure_def]

/-- An `ALTER TABLE ADD COLUMN` that succeeds puts the column behind the others. -/
theorem Db.columns_of_addColumn {now : Int} {db db' : Db} {name c definition : String}
    (h : db.exec now (.addColumn name c definition) = some db') :
    ∃ t t' : Table, db.tables name = some t ∧ db' = db.set name t' ∧
      t'.columns = t.columns ++ [Column.ofDefinition c definition] := by
  simp only [Db.exec, Option.bind_eq_bind, Option.bind_eq_some_iff, Option.pure_def,
    Option.some.injEq] at h
  obtain ⟨t, ht, t', hadd, rfl⟩ := h
  unfold Table.addColumn at hadd
  split_ifs at hadd
  cases hadd
  exact ⟨t, _, ht, rfl, rfl⟩

/-- What becomes of a column when one of a name is redefined. -/
def Column.redefine (new col : Column) : Column := if col.name = new.name then new else col

@[simp] theorem Column.name_redefine (new col : Column) : (new.redefine col).name = col.name := by
  unfold Column.redefine
  split_ifs with hname
  · exact hname.symm
  · rfl

/-- An `ALTER TABLE MODIFY COLUMN` that succeeds redefines the column of that name. -/
theorem Db.columns_of_modifyColumn {now : Int} {db db' : Db} {name c definition : String}
    (h : db.exec now (.modifyColumn name c definition) = some db') :
    ∃ t t' : Table, db.tables name = some t ∧ db' = db.set name t' ∧
      t'.columns = t.columns.map (Column.ofDefinition c definition).redefine := by
  simp only [Db.exec, Option.bind_eq_bind, Option.bind_eq_some_iff, Option.pure_def,
    Option.some.injEq] at h
  obtain ⟨t, ht, t', hmod, rfl⟩ := h
  unfold Table.modifyColumn at hmod
  split_ifs at hmod
  cases hmod
  exact ⟨t, _, ht, rfl, rfl⟩

/-- An `INSERT` that names a column its table does not have fails. -/
theorem Db.exec_insert_eq_none {now : Int} {db : Db} {name : String}
    {values : List (String × Literal)} {t : Table} (ht : db.tables name = some t) {c : String}
    {l : Literal} (hc : (c, l) ∈ values) (hcol : t.hasColumn c = false) :
    db.exec now (.insert name values) = none := by
  cases hdb : db.exec now (.insert name values) with
  | none => rfl
  | some db' =>
      obtain ⟨t', named, ht', hnamed, hall, -, -⟩ := Db.exec_insert hdb
      rw [ht] at ht'
      cases ht'
      obtain ⟨v, hv⟩ := mem_evalAll hnamed hc
      have := hall _ hv
      rw [hcol] at this
      exact absurd this (by simp)

/-- A query that succeeds lists the chosen rows. -/
theorem Db.select_eq_some {db : Db} {q : Select} {res : List (List Value)}
    (h : db.select q = some res) :
    res = (q.rows (db.rows q.table)).map fun r => q.exprs.map fun e => r e.column := by
  simp only [Db.select, Option.bind_eq_bind, Option.bind_eq_some_iff] at h
  obtain ⟨t, ht, hsel⟩ := h
  unfold Table.select at hsel
  split_ifs at hsel with hcond
  cases hsel
  rw [Db.rows, ht]
  rfl

/-- A query whose columns exist and whose limit is no negative number can be answered. -/
theorem Db.select_of_columns {db : Db} {q : Select} {t : Table} (ht : db.tables q.table = some t)
    (hcols : ∀ c ∈ q.columns, t.hasColumn c = true) (hlimit : ∀ n ∈ q.limit, 0 ≤ n) :
    db.select q = some ((q.rows (db.rows q.table)).map fun r => q.exprs.map fun e => r e.column) := by
  have hcond : (q.columns.all t.hasColumn && q.limit.all fun n => 0 ≤ n) = true := by
    rw [Bool.and_eq_true, List.all_eq_true]
    refine ⟨hcols, ?_⟩
    cases hl : q.limit with
    | none => rfl
    | some n => exact decide_eq_true (hlimit n (by rw [hl]; rfl))
  rw [Db.select, ht, Db.rows, ht]
  change t.select q = _
  rw [Table.select, if_pos hcond]
  rfl

/-- Without a limit a query lists every row that meets its condition. -/
theorem Select.mem_rows {q : Select} (hl : q.limit = none) {rows : List Row} {r : Row} :
    r ∈ q.rows rows ↔ r ∈ rows ∧ q.cond.all (fun c => c.holds r) := by
  unfold Select.rows
  rw [hl]
  cases ho : q.orderDesc with
  | none => simp [List.mem_filter]
  | some c => simp [List.mem_insertionSort, List.mem_filter]

/-- A query that names a column its table does not have fails. -/
theorem Table.select_eq_none {t : Table} {q : Select} {c : String} (hc : c ∈ q.columns)
    (ht : t.hasColumn c = false) : t.select q = none := by
  unfold Table.select
  rw [if_neg]
  simp only [Bool.and_eq_true, List.all_eq_true, not_and]
  intro hall
  have := hall c hc
  simp [ht] at this

end AimChat.Sql
