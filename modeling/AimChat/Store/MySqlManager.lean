import AimChat.Lib.OrdMap
import AimChat.Lib.Sql
import AimChat.Base.Bytes
import Mathlib.Data.String.Basic

/-! # The database connection

`MySQLTool`, `QueryResult`, `Field` and `MySqlManager`: statements go to a `Sql.Db`, one after the
other, and the server may refuse any of them. What the outside decides (which statements succeed, the
clock, what a cursor finds behind an empty result) is a `SqlEnv`, indexed by the number of the
statement; every result about the store is for all of them. -/

namespace AimChat

open Sql

/-- What the database server and the machine decide. -/
structure SqlEnv where
  /-- The server carries out the `n`-th statement, if it can be carried out. -/
  execOk : Nat → Bool
  /-- The server answers the `n`-th query, if it can be answered. -/
  selectOk : Nat → Bool
  /-- The server answers the `n`-th `DESC`. -/
  descOk : Nat → Bool
  /-- `NOW()` at the `n`-th statement, in seconds. -/
  now : Nat → Int
  /-- What `m_CurrentRow.data()` points at once `clear()` has emptied the vector: nothing, or memory
  that no longer holds a row. -/
  stale : Nat → Option (List Value)

/-- A server that carries out everything, at time 0, and an empty vector without storage. -/
def SqlEnv.ideal : SqlEnv := ⟨fun _ => true, fun _ => true, fun _ => true, fun _ => 0, fun _ => none⟩

/-! ## Results -/

namespace Field

/-- `Field::toInt32`: `atoi` of the column's text. A `bigint` prints as a decimal number and is cut to
`int`; NULL is the empty text. -/
def toInt32 : Value → Int
  | .null => 0
  | .int n => wrap32 n
  | .text b => atoi b

/-- `Field::toInt64`: `atoll` of the column's text. -/
def toInt64 : Value → Int
  | .null => 0
  | .int n => n
  | .text b => max (-9223372036854775808) (min ((strtol (cStr b)).getD 0) 9223372036854775807)

/-- `Field::GetString`: the column's text; NULL is the empty text. -/
def getString : Value → Bytes
  | .null => []
  | .int n => (toString n).toUTF8.data.toList
  | .text b => b

end Field

/-- `pRow[i]` -/
def column (pRow : List Value) (i : Nat) : Value := pRow.getD i .null

/-- A `QueryResult`: the row `Fetch` points at, and the rows not fetched yet. -/
structure QueryResult (ρ : Type) where
  currentRow : Option ρ
  pending : List ρ

namespace QueryResult

variable {ρ σ : Type}

/-- The constructor fetches the first row; when there is none it calls `EndQuery`, which clears the
vector of fields, and `Fetch` then points at what the vector held. -/
def ofRows (stale : Option ρ) : List ρ → QueryResult ρ
  | [] => ⟨stale, []⟩
  | row :: rows => ⟨some row, rows⟩

/-- The loop of the readers from a row `Fetch` points at: use the row, stop when `NextRow` is false. -/
def loop (use : σ → ρ → σ) (s : σ) (pRow : ρ) : List ρ → σ
  | [] => use s pRow
  | row :: rows => loop use (use s pRow) row rows

/-- The loop of the readers: `Fetch`, stop on null, use the row, stop when `NextRow` is false. -/
def forEachRow (use : σ → ρ → σ) (s : σ) (result : QueryResult ρ) : σ :=
  match result.currentRow with
  | none => s
  | some pRow => loop use s pRow result.pending

/-- The rows the loop uses on a result: the result's own, or what is left behind an empty one. -/
def visited (stale : Option ρ) (rows : List ρ) : List ρ :=
  if rows.isEmpty then stale.toList else rows

theorem mem_visited {stale : Option ρ} {rows : List ρ} {row : ρ} :
    row ∈ visited stale rows ↔ row ∈ rows ∨ rows = [] ∧ row ∈ stale := by
  unfold visited
  cases rows <;> simp

/-- The loop goes over the visited rows in order. -/
theorem forEachRow_ofRows (use : σ → ρ → σ) (s : σ) (stale : Option ρ) (rows : List ρ) :
    forEachRow use s (ofRows stale rows) = (visited stale rows).foldl use s := by
  have hloop : ∀ (rows : List ρ) (row : ρ) (s : σ),
      loop use s row rows = (row :: rows).foldl use s := by
    intro rows
    induction rows with
    | nil => intro row s; rfl
    | cons row' rows ih => intro row s; exact ih row' _
  cases rows with
  | nil => cases stale <;> rfl
  | cons row rows => exact hloop rows row s

end QueryResult

/-! ## Statements -/

/-- The connection of `MySqlManager::m_mysql`: the database behind it and the number of statements
sent. -/
structure MySql where
  db : Db
  sent : Nat

namespace MySql

/-- Some literal of the statement holds a NUL: `mysql_query` gets the text as a C string and sends it
cut there, inside the literal. -/
def cut (stmt : Stmt) : Bool :=
  stmt.literals.any fun l => match l with
    | .quoted raw => raw.contains 0
    | _ => false

variable (env : SqlEnv)

/-- `MySqlManager::Execute(sql)`, of a statement that MySQL reads as it was put together; of any other nothing
comes. -/
def execute (stmt : Stmt) (m : MySql) : Bool × MySql :=
  -- the server may refuse any statement; a cut one has an open literal and is refused
  match if env.execOk m.sent && !cut stmt then m.db.exec (env.now m.sent) stmt else none with
  | some db => (true, ⟨db, m.sent + 1⟩)
  | none => (false, ⟨m.db, m.sent + 1⟩)

/-- `MySqlManager::Query(sql)` on a `SELECT`; `none` is the null result. -/
def query (q : Select) (m : MySql) : Option (QueryResult (List Value)) × MySql :=
  ((if env.selectOk m.sent then m.db.select q else none).map (QueryResult.ofRows (env.stale m.sent)),
    ⟨m.db, m.sent + 1⟩)

/-- `MySQLTool::Query("desc table;")`: the name and the shown type of every column, of which a table
has at least one. -/
def desc (table : String) (m : MySql) : Option (QueryResult (String × String)) × MySql :=
  ((if env.descOk m.sent then m.db.desc table else none).map (QueryResult.ofRows none),
    ⟨m.db, m.sent + 1⟩)

variable {env}

/-- A statement that returned true was carried out. -/
theorem exec_of_execute {stmt : Stmt} {m m' : MySql} (h : execute env stmt m = (true, m')) :
    env.execOk m.sent = true ∧ cut stmt = false ∧
      m.db.exec (env.now m.sent) stmt = some m'.db ∧ m'.sent = m.sent + 1 := by
  unfold execute at h
  split_ifs at h with hok
  · cases hdb : m.db.exec (env.now m.sent) stmt with
    | none => rw [hdb] at h; cases h
    | some db =>
        rw [hdb] at h
        cases h
        simp only [Bool.and_eq_true, Bool.not_eq_true'] at hok
        exact ⟨hok.1, hok.2, rfl, rfl⟩
  · cases h

/-- What it has made of the database. -/
theorem db_exec_of_execute {stmt : Stmt} {m m' : MySql} (h : execute env stmt m = (true, m')) :
    m.db.exec (env.now m.sent) stmt = some m'.db := (exec_of_execute h).2.2.1

/-- A statement the server refuses. -/
theorem execute_of_refused {stmt : Stmt} {m : MySql} (h : env.execOk m.sent = false) :
    execute env stmt m = (false, ⟨m.db, m.sent + 1⟩) := by
  rw [execute, h]
  rfl

/-- A statement that returned false has changed nothing. -/
theorem db_of_execute_false {stmt : Stmt} {m m' : MySql} (h : execute env stmt m = (false, m')) :
    m'.db = m.db := by
  unfold execute at h
  split at h
  · cases h
  · cases h
    rfl

/-- A statement returns false and changes nothing, or it returns true. -/
theorem execute_cases (env : SqlEnv) (stmt : Stmt) (m : MySql) :
    (∃ m', execute env stmt m = (false, m') ∧ m'.db = m.db) ∨ ∃ m', execute env stmt m = (true, m') := by
  rcases hexecute : execute env stmt m with ⟨_ | _, m'⟩
  · exact .inl ⟨m', rfl, db_of_execute_false hexecute⟩
  · exact .inr ⟨m', rfl⟩

/-- A statement is counted, whether it succeeds or not. -/
@[simp] theorem sent_execute (env : SqlEnv) (stmt : Stmt) (m : MySql) :
    (execute env stmt m).2.sent = m.sent + 1 := by
  unfold execute
  split <;> rfl

/-- A statement changes no table but its own, whether it succeeds or not. -/
theorem tables_execute_other (env : SqlEnv) (stmt : Stmt) (m : MySql) {name : String} (h : name ≠ stmt.table) :
    (execute env stmt m).2.db.tables name = m.db.tables name := by
  rcases execute_cases env stmt m with ⟨m', hexecute, hdb⟩ | ⟨m', hexecute⟩
  · rw [hexecute]
    exact congrArg (Db.tables · name) hdb
  · have hexec := db_exec_of_execute hexecute
    rw [hexecute]
    exact Db.exec_other hexec h

/-- So the rows of every other table stay. -/
theorem rows_of_execute {stmt : Stmt} {m m' : MySql} {ok : Bool} (h : execute env stmt m = (ok, m'))
    {name : String} (hname : name ≠ stmt.table) : m'.db.rows name = m.db.rows name := by
  have htables := tables_execute_other env stmt m hname
  rw [h] at htables
  unfold Db.rows
  rw [htables]

/-- A query changes nothing. -/
@[simp] theorem db_query (q : Select) (m : MySql) : (query env q m).2.db = m.db := rfl

/-- A query that returned a result loops over the selected rows, or over what is left behind an empty
selection. -/
theorem rows_of_query {q : Select} {m m' : MySql} {result : QueryResult (List Value)}
    (h : query env q m = (some result, m')) :
    ∃ rows, m.db.select q = some rows ∧
      result = QueryResult.ofRows (env.stale m.sent) rows := by
  unfold query at h
  simp only [Prod.mk.injEq, Option.map_eq_some_iff] at h
  obtain ⟨⟨rows, hrows, rfl⟩, -⟩ := h
  split_ifs at hrows
  exact ⟨rows, hrows, rfl⟩

end MySql

/-! ## Table descriptions -/

/-- `MySqlManager::sFieldInfo` -/
structure FieldInfo where
  sName : String
  sType : String
  sDesc : String
  deriving DecidableEq, Repr

/-- `MySqlManager::sTableInfo` -/
structure TableInfo where
  sName : String
  mapField : OrdMap String FieldInfo
  sKey : String

namespace MySqlManager

/-- A `mapField` filled by assignments `mapField[name] = { name, type, desc }`. -/
def fieldsOf (fields : List (String × String × String)) : OrdMap String FieldInfo :=
  fields.foldl (fun m f => m.set f.1 ⟨f.1, f.2.1, f.2.2⟩) ∅

/-- The description of `t_user`. -/
def tUser : TableInfo where
  sName := "t_user"
  mapField := fieldsOf [
    ("f_id", "bigint(20) NOT NULL AUTO_INCREMENT COMMENT '自增ID'", "bigint(20)"),
    ("f_user_id", "bigint(20) NOT NULL COMMENT '用户ID'", "bigint(20)"),
    ("f_username", "varchar(64) NOT NULL COMMENT '用户名'", "varchar(64)"),
    ("f_nickname", "varchar(64) NOT NULL COMMENT '用户昵称'", "varchar(64)"),
    ("f_password", "varchar(64) NOT NULL COMMENT '用户密码'", "varchar(64)"),
    ("f_facetype", "int(10) DEFAULT 0 COMMENT '用户头像类型'", "int(10)"),
    ("f_customface", "varchar(32) DEFAULT NULL COMMENT '自定义头像名'", "varchar(32)"),
    ("f_customfacefmt", "varchar(6) DEFAULT NULL COMMENT '自定义头像格式'", "varchar(6)"),
    ("f_gender", "int(2)  DEFAULT 0 COMMENT '性别'", "int(2)"),
    ("f_birthday", "bigint(20)  DEFAULT 19900101 COMMENT '生日'", "bigint(20)"),
    ("f_signature", "varchar(256) DEFAULT NULL COMMENT '地址'", "varchar(256)"),
    ("f_address", "varchar(256) DEFAULT NULL COMMENT '地址'", "varchar(256)"),
    ("f_phonenumber", "varchar(64) DEFAULT NULL COMMENT '电话'", "varchar(64)"),
    ("f_mail", "varchar(256) DEFAULT NULL COMMENT '邮箱'", "varchar(256)"),
    ("f_owner_id", "bigint(20) DEFAULT 0 COMMENT '群账号群主userid'", "bigint(20)"),
    ("f_register_time", "datetime NOT NULL COMMENT '注册时间'", "datetime"),
    ("f_remark", "varchar(64) NULL COMMENT '备注'", "varchar(64)"),
    ("f_update_time",
      "timestamp NOT NULL DEFAULT CURRENT_TIMESTAMP ON UPDATE CURRENT_TIMESTAMP COMMENT '更新时间'",
      "timestamp")]
  sKey := "PRIMARY KEY (f_user_id), INDEX f_user_id (f_user_id), KEY  f_id  ( f_id )"

/-- The description of `t_chatmsg`. -/
def tChatmsg : TableInfo where
  sName := "t_chatmsg"
  mapField := fieldsOf [
    ("f_id", "bigint(20) NOT NULL AUTO_INCREMENT COMMENT '自增ID'", "bigint(20)"),
    ("f_senderid", "bigint(20) NOT NULL COMMENT '发送者id'", "bigint(20)"),
    ("f_targetid", "bigint(20) NOT NULL COMMENT '接收者id'", "bigint(20)"),
    ("f_msgcontent", "blob NOT NULL COMMENT '聊天内容'", "blob"),
    ("f_create_time",
      "timestamp NOT NULL DEFAULT CURRENT_TIMESTAMP ON UPDATE CURRENT_TIMESTAMP COMMENT '更新时间'",
      "timestamp"),
    ("f_remark", "varchar(64) NULL COMMENT '备注'", "varchar(64)")]
  sKey := "PRIMARY KEY (f_id), INDEX f_id (f_id)"

/-- The description of `t_user_relationship`. -/
def tUserRelationship : TableInfo where
  sName := "t_user_relationship"
  mapField := fieldsOf [
    ("f_id", "bigint(20) NOT NULL AUTO_INCREMENT COMMENT '自增ID'", "bigint(20)"),
    ("f_user_id1", "bigint(20) NOT NULL COMMENT '用户ID'", "bigint(20)"),
    ("f_user_id2", "bigint(20) NOT NULL COMMENT '用户ID'", "bigint(20)"),
    ("f_remark", "varchar(64) NULL COMMENT '备注'", "varchar(64)"),
    ("f_create_time",
      "timestamp NOT NULL DEFAULT CURRENT_TIMESTAMP ON UPDATE CURRENT_TIMESTAMP COMMENT '更新时间'",
      "timestamp")]
  sKey := "PRIMARY KEY (f_id), INDEX f_id (f_id)"

/-- `m_mapTable` after the constructor. -/
def mapTable : OrdMap String TableInfo :=
  ((OrdMap.insert ∅ tUser.sName tUser).insert tChatmsg.sName tChatmsg).insert
    tUserRelationship.sName tUserRelationship

/-- The map's order is that of the names. -/
theorem mapTable_values : mapTable.values = [tChatmsg, tUser, tUserRelationship] := by
  rfl

/-! ## Schema initialisation -/

variable (env : SqlEnv)

/-- `MySqlManager::CreateTable(info)` -/
def createTable (info : TableInfo) (m : MySql) : Bool × MySql :=
  if info.mapField.entries = [] then (false, m)
  else
    MySql.execute env
      (.create info.sName (info.mapField.values.map fun f => (f.sName, f.sType)) info.sKey) m

/-- What `CheckTable` keeps while it reads the columns: `rest` and `mapChange`. -/
structure Check where
  rest : OrdMap String FieldInfo
  mapChange : OrdMap String FieldInfo

/-- One row of `desc` in `CheckTable`. -/
def checkColumn (info : TableInfo) (check : Check) (pRow : String × String) : Check :=
  let (name, type) := pRow
  match info.mapField.get? name with
  -- a column the description does not know is left as it is
  | none => check
  | some field =>
      { rest := check.rest.erase name
        mapChange :=
          if field.sType ≠ type then check.mapChange.insert name field else check.mapChange }

/-- Send statements one after the other until one fails. -/
def executeAll (stmts : List Stmt) (m : MySql) : Bool × MySql :=
  match stmts with
  | [] => (true, m)
  | stmt :: stmts =>
      match MySql.execute env stmt m with
      | (true, m') => executeAll stmts m'
      | (false, m') => (false, m')

/-- `MySqlManager::CheckTable(info)` -/
def checkTable (info : TableInfo) (m : MySql) : Bool × MySql :=
  match MySql.desc env info.sName m with
  -- `desc` of a table that is not there fails
  | (none, m) => createTable env info m
  | (some result, m) =>
      let check := result.forEachRow (checkColumn info) ⟨info.mapField, ∅⟩
      match executeAll env (check.rest.values.map fun f => .addColumn info.sName f.sName f.sType) m with
      | (false, m) => (false, m)
      | (true, m) =>
          executeAll env
            (check.mapChange.values.map fun f => .modifyColumn info.sName f.sName f.sType) m

/-- The loop of `Init` over the table descriptions. -/
def initTables (infos : List TableInfo) (m : MySql) : Bool × MySql :=
  match infos with
  | [] => (true, m)
  | info :: infos =>
      match checkTable env info m with
      | (true, m) => initTables infos m
      | (false, m) =>
          -- whatever the check failed at, the table is created once more
          match createTable env info m with
          | (true, m) => initTables infos m
          | (false, m) => (false, m)

/-- `MySqlManager::Init` once the connection stands and its database exists. -/
def init (m : MySql) : Bool × MySql := initTables env mapTable.values m

/-! ## What initialisation does to the tables -/

variable {env}

/-- The table a description describes, without rows. -/
def described (info : TableInfo) : Table where
  columns := info.mapField.values.map fun f => Column.ofDefinition f.sName f.sType
  key := primaryKeyOf info.sKey
  rows := []

theorem tables_createTable_other (env : SqlEnv) (info : TableInfo) (m : MySql) {name : String}
    (h : name ≠ info.sName) : (createTable env info m).2.db.tables name = m.db.tables name := by
  unfold createTable
  split_ifs
  · rfl
  · exact MySql.tables_execute_other env _ m h

theorem tables_executeAll_other (env : SqlEnv) (stmts : List Stmt) (m : MySql) {name : String}
    (h : ∀ stmt ∈ stmts, name ≠ stmt.table) :
    (executeAll env stmts m).2.db.tables name = m.db.tables name := by
  induction stmts generalizing m with
  | nil => rfl
  | cons stmt stmts ih =>
      have hfirst := MySql.tables_execute_other env stmt m (h stmt List.mem_cons_self)
      rw [executeAll]
      rcases hexecute : MySql.execute env stmt m with ⟨_ | _, m'⟩
      · rw [hexecute] at hfirst
        exact hfirst
      · rw [hexecute] at hfirst
        exact (ih m' fun s hs => h s (List.mem_cons_of_mem _ hs)).trans hfirst

theorem tables_checkTable_other (env : SqlEnv) (info : TableInfo) (m : MySql) {name : String}
    (h : name ≠ info.sName) : (checkTable env info m).2.db.tables name = m.db.tables name := by
  have hdb : (MySql.desc env info.sName m).2.db = m.db := rfl
  rw [checkTable]
  rcases hdesc : MySql.desc env info.sName m with ⟨_ | result, m'⟩
  · rw [hdesc] at hdb
    exact (tables_createTable_other env info m' h).trans (congrArg (Db.tables · name) hdb)
  · rw [hdesc] at hdb
    -- both loops alter the table of the description
    have halter : ∀ (fields : List FieldInfo) (mk : String → String → String → Stmt),
        (∀ c d, (mk info.sName c d).table = info.sName) → ∀ m : MySql,
        (executeAll env (fields.map fun f => mk info.sName f.sName f.sType) m).2.db.tables name =
          m.db.tables name := by
      intro fields mk hmk m
      refine tables_executeAll_other env _ m fun stmt hstmt => ?_
      obtain ⟨f, -, rfl⟩ := List.mem_map.1 hstmt
      rw [hmk]
      exact h
    have hadd := halter
      (result.forEachRow (checkColumn info) ⟨info.mapField, ∅⟩).rest.values .addColumn
      (fun _ _ => rfl) m'
    dsimp only
    split
    next m'' hrest =>
      rw [hrest, hdb] at hadd
      exact hadd
    next m'' hrest =>
      rw [hrest, hdb] at hadd
      rw [halter _ .modifyColumn (fun _ _ => rfl) m'', hadd]

/-- A turn of the loop of `Init` goes on behind the check or behind the second creation, or it ends the
loop. -/
theorem initTables_cases (env : SqlEnv) (info : TableInfo) (infos : List TableInfo) (m : MySql) :
    (∃ m₁, checkTable env info m = (true, m₁) ∧ initTables env (info :: infos) m = initTables env infos m₁) ∨
      ∃ m₁ m₂, checkTable env info m = (false, m₁) ∧
        ((createTable env info m₁ = (true, m₂) ∧
            initTables env (info :: infos) m = initTables env infos m₂) ∨
          (createTable env info m₁ = (false, m₂) ∧ initTables env (info :: infos) m = (false, m₂))) := by
  rw [initTables]
  rcases hcheck : checkTable env info m with ⟨_ | _, m₁⟩
  · rcases hcreate : createTable env info m₁ with ⟨_ | _, m₂⟩
    · exact .inr ⟨m₁, m₂, rfl, .inr ⟨hcreate, by simp only [hcreate]⟩⟩
    · exact .inr ⟨m₁, m₂, rfl, .inl ⟨hcreate, by simp only [hcreate]⟩⟩
  · exact .inl ⟨m₁, rfl, rfl⟩

theorem tables_initTables_other (env : SqlEnv) (infos : List TableInfo) (m : MySql) {name : String}
    (h : ∀ info ∈ infos, name ≠ info.sName) :
    (initTables env infos m).2.db.tables name = m.db.tables name := by
  induction infos generalizing m with
  | nil => rfl
  | cons info infos ih =>
      have hinfo := h info List.mem_cons_self
      have hrest := fun m => ih m fun i hi => h i (List.mem_cons_of_mem _ hi)
      have hcheck := tables_checkTable_other env info m hinfo
      rcases initTables_cases env info infos m with ⟨m₁, hm₁, heq⟩ | ⟨m₁, m₂, hm₁, hcreated⟩
      · rw [hm₁] at hcheck
        rw [heq, hrest, hcheck]
      · have hcreate := tables_createTable_other env info m₁ hinfo
        rw [hm₁] at hcheck
        rcases hcreated with ⟨hm₂, heq⟩ | ⟨hm₂, heq⟩
        · rw [hm₂] at hcreate
          rw [heq, hrest, hcreate, hcheck]
        · rw [hm₂] at hcreate
          rw [heq, hcreate, hcheck]

/-- A missing table that `CreateTable` creates is the described one. -/
theorem tables_createTable {info : TableInfo} {m m' : MySql} (hnone : m.db.tables info.sName = none)
    (h : createTable env info m = (true, m')) :
    m'.db.tables info.sName = some (described info) := by
  unfold createTable at h
  split_ifs at h with hfields
  · cases h
  · have hexec := MySql.db_exec_of_execute h
    simp only [Db.exec, hnone, Option.some.injEq] at hexec
    rw [← hexec, Db.tables_set, if_pos rfl, List.map_map]
    rfl

/-- A table `CreateTable` failed to create is still missing. -/
theorem tables_createTable_false {info : TableInfo} {m m' : MySql}
    (h : createTable env info m = (false, m')) : m'.db = m.db := by
  unfold createTable at h
  split_ifs at h with hfields
  · cases h
    rfl
  · exact MySql.db_of_execute_false h

/-- `CheckTable` on a missing table creates it. -/
theorem checkTable_of_none {info : TableInfo} {m : MySql} (hnone : m.db.tables info.sName = none) :
    checkTable env info m = createTable env info ⟨m.db, m.sent + 1⟩ := by
  have hdesc : MySql.desc env info.sName m = (none, ⟨m.db, m.sent + 1⟩) := by
    unfold MySql.desc Db.desc
    rw [hnone]
    split_ifs <;> rfl
  unfold checkTable
  rw [hdesc]

/-- **Initialisation creates what is missing.** After `Init` returned true, a described table that was
missing before is there as described. -/
theorem tables_init {m m' : MySql} (h : init env m = (true, m')) {info : TableInfo}
    (hinfo : info ∈ [tChatmsg, tUser, tUserRelationship])
    (hnone : m.db.tables info.sName = none) : m'.db.tables info.sName = some (described info) := by
  have hdistinct : [tChatmsg, tUser, tUserRelationship].Pairwise fun a b => a.sName ≠ b.sName := by
    decide
  unfold init at h
  rw [mapTable_values] at h
  generalize [tChatmsg, tUser, tUserRelationship] = infos at h hinfo hdistinct
  induction infos generalizing m with
  | nil => simp at hinfo
  | cons first infos ih =>
      obtain ⟨hfirst, hrest⟩ := List.pairwise_cons.1 hdistinct
      have hcases := initTables_cases env first infos m
      rcases List.mem_cons.1 hinfo with rfl | hmem
      · -- the table's own turn: it is created at the first or at the second attempt
        have hlater : ∀ m₁ : MySql, m₁.db.tables info.sName = some (described info) →
            initTables env infos m₁ = (true, m') → m'.db.tables info.sName = some (described info) := by
          intro m₁ hcreated hrun
          have hother := tables_initTables_other env infos m₁ hfirst
          rwa [hrun, hcreated] at hother
        rw [checkTable_of_none hnone] at hcases
        rcases hcases with ⟨m₁, hm₁, heq⟩ | ⟨m₁, m₂, hm₁, ⟨hm₂, heq⟩ | ⟨-, heq⟩⟩
        · exact hlater m₁ (tables_createTable (m := ⟨m.db, m.sent + 1⟩) hnone hm₁) (heq ▸ h)
        · have hnone₁ : m₁.db.tables info.sName = none := by rw [tables_createTable_false hm₁]; exact hnone
          exact hlater m₂ (tables_createTable hnone₁ hm₂) (heq ▸ h)
        · cases heq.symm.trans h
      · -- another table's turn leaves it missing
        have hne : info.sName ≠ first.sName := (hfirst info hmem).symm
        have hcheck := tables_checkTable_other env first m hne
        rcases hcases with ⟨m₁, hm₁, heq⟩ | ⟨m₁, m₂, hm₁, ⟨hm₂, heq⟩ | ⟨-, heq⟩⟩
        · rw [hm₁, hnone] at hcheck
          exact ih hcheck (heq ▸ h) hmem hrest
        · have hcreate := tables_createTable_other env first m₁ hne
          rw [hm₁, hnone] at hcheck
          rw [hm₂, hcheck] at hcreate
          exact ih hcreate (heq ▸ h) hmem hrest
        · cases heq.symm.trans h

/-! ## The tables of a new database -/

/-- `t_user` as `Init` creates it. -/
def freshUser : Table where
  columns := [⟨"f_address", "varchar(256)", .const .null⟩,
    ⟨"f_birthday", "bigint(20)", .const (.int 19900101)⟩,
    ⟨"f_customface", "varchar(32)", .const .null⟩, ⟨"f_customfacefmt", "varchar(6)", .const .null⟩,
    ⟨"f_facetype", "int(10)", .const (.int 0)⟩, ⟨"f_gender", "int(2)", .const (.int 0)⟩,
    ⟨"f_id", "bigint(20)", .autoIncrement⟩, ⟨"f_mail", "varchar(256)", .const .null⟩,
    ⟨"f_nickname", "varchar(64)", .required⟩, ⟨"f_owner_id", "bigint(20)", .const (.int 0)⟩,
    ⟨"f_password", "varchar(64)", .required⟩, ⟨"f_phonenumber", "varchar(64)", .const .null⟩,
    ⟨"f_register_time", "datetime", .required⟩, ⟨"f_remark", "varchar(64)", .const .null⟩,
    ⟨"f_signature", "varchar(256)", .const .null⟩, ⟨"f_update_time", "timestamp", .now⟩,
    ⟨"f_user_id", "bigint(20)", .required⟩, ⟨"f_username", "varchar(64)", .required⟩]
  key := "f_user_id"
  rows := []

/-- `t_chatmsg` as `Init` creates it. -/
def freshChatmsg : Table where
  columns := [⟨"f_create_time", "timestamp", .now⟩, ⟨"f_id", "bigint(20)", .autoIncrement⟩,
    ⟨"f_msgcontent", "blob", .required⟩, ⟨"f_remark", "varchar(64)", .const .null⟩,
    ⟨"f_senderid", "bigint(20)", .required⟩, ⟨"f_targetid", "bigint(20)", .required⟩]
  key := "f_id"
  rows := []

/-- `t_user_relationship` as `Init` creates it. -/
def freshUserRelationship : Table where
  columns := [⟨"f_create_time", "timestamp", .now⟩, ⟨"f_id", "bigint(20)", .autoIncrement⟩,
    ⟨"f_remark", "varchar(64)", .const .null⟩, ⟨"f_user_id1", "bigint(20)", .required⟩,
    ⟨"f_user_id2", "bigint(20)", .required⟩]
  key := "f_id"
  rows := []

theorem described_tUser : described tUser = freshUser := by
  simp only [described, freshUser, Table.mk.injEq, and_true]
  exact ⟨by decide +kernel, by decide +kernel⟩

theorem described_tChatmsg : described tChatmsg = freshChatmsg := by
  simp only [described, freshChatmsg, Table.mk.injEq, and_true]
  exact ⟨by decide +kernel, by decide +kernel⟩

theorem described_tUserRelationship : described tUserRelationship = freshUserRelationship := by
  simp only [described, freshUserRelationship, Table.mk.injEq, and_true]
  exact ⟨by decide +kernel, by decide +kernel⟩

/-- The database `Init` makes of an empty one. -/
def freshDb : Db :=
  ((Db.empty.set "t_chatmsg" freshChatmsg).set "t_user" freshUser).set "t_user_relationship"
    freshUserRelationship

/-- A server that carries out everything creates a missing table as described. -/
theorem checkTable_ideal {info : TableInfo} (hfields : info.mapField.entries ≠ []) {m : MySql}
    (hnone : m.db.tables info.sName = none) :
    checkTable SqlEnv.ideal info m = (true, ⟨m.db.set info.sName (described info), m.sent + 2⟩) := by
  have hexec : m.db.exec 0 (.create info.sName
      (info.mapField.values.map fun f => (f.sName, f.sType)) info.sKey) =
      some (m.db.set info.sName (described info)) := by
    simp only [Db.exec, hnone, List.map_map]
    rfl
  rw [checkTable_of_none hnone, createTable, if_neg hfields, MySql.execute]
  have hcut : MySql.cut (.create info.sName
      (info.mapField.values.map fun f => (f.sName, f.sType)) info.sKey) = false := rfl
  simp only [SqlEnv.ideal, hcut, Bool.not_false, Bool.and_self, if_true, hexec]

/-- `Init` on an empty database, every statement succeeding. -/
theorem init_empty : init SqlEnv.ideal ⟨Db.empty, 0⟩ = (true, ⟨freshDb, 6⟩) := by
  rw [init, mapTable_values]
  rw [initTables, checkTable_ideal (by decide +kernel) rfl]
  dsimp only
  rw [initTables, checkTable_ideal (by decide +kernel) rfl]
  dsimp only
  rw [initTables, checkTable_ideal (by decide +kernel) rfl]
  dsimp only
  rw [initTables, described_tUser, described_tChatmsg, described_tUserRelationship]
  rfl

end MySqlManager

end AimChat
