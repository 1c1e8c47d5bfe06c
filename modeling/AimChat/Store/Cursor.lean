import AimChat.Store.Load

/-! # The cursor behind the readers

`QueryResult` with its members: the vector of the current row, the memory `data()` points at once the vector has
been cleared, and the result `NextRow` fetches from. The loop of the readers goes over this cursor as over the
shorter `QueryResult` of the store (`read_new`). Of a result that has a row it uses exactly the rows; of an empty
one it uses what the memory behind the vector holds (`usesExactly_iff`). -/

namespace AimChat

open Sql

/-- `QueryResult`, as far as the rows are concerned. -/
structure Cursor (ρ : Type) where
  /-- `m_CurrentRow`; `none` when it has been cleared. -/
  currentRow : Option ρ
  /-- What `data()` of the cleared vector points at. -/
  stale : Option ρ
  /-- `m_result`, the rows that have not been fetched; `none` when it is NULL. -/
  result : Option (List ρ)
  deriving DecidableEq

namespace Cursor

variable {ρ σ : Type}

/-- `Fetch()` -/
def fetch (c : Cursor ρ) : Option ρ :=
  match c.currentRow with
  | some pRow => some pRow
  | none => c.stale

/-- `EndQuery()` -/
def endQuery (c : Cursor ρ) : Cursor ρ := { c with currentRow := none, result := none }

/-- `NextRow()` -/
def nextRow (c : Cursor ρ) : Bool × Cursor ρ :=
  match c.result with
  | none => (false, c)
  | some [] => (false, c.endQuery)
  | some (row :: rows) => (true, { c with currentRow := some row, result := some rows })

/-- `QueryResult(result, rowcount, cloumncount)`: it fetches the first row. -/
def new (stale : Option ρ) : List ρ → Cursor ρ
  | [] => endQuery ⟨none, stale, some []⟩
  | row :: rows => ⟨some row, stale, some rows⟩

/-- How many rows have not been fetched. -/
def left (c : Cursor ρ) : Nat := (c.result.getD []).length

theorem left_nextRow {c c' : Cursor ρ} (h : c.nextRow = (true, c')) : c'.left < c.left := by
  unfold nextRow at h
  unfold left
  cases hresult : c.result with
  | none =>
      rw [hresult] at h
      cases h
  | some rows =>
      rw [hresult] at h
      cases rows with
      | nil => cases h
      | cons row rows =>
          cases h
          exact Nat.lt_succ_self _

/-- The loop of the readers: `Fetch`, stop on null, use the row, stop when `NextRow` is false; `EndQuery` behind
it. -/
def read (use : σ → ρ → σ) (s : σ) (c : Cursor ρ) : σ × Cursor ρ :=
  match c.fetch with
  | none => (s, c.endQuery)
  | some pRow =>
      match _hnext : c.nextRow with
      | (false, c') => (use s pRow, c'.endQuery)
      | (true, c') => read use (use s pRow) c'
termination_by c.left
decreasing_by exact left_nextRow _hnext

/-! ## What the loop uses -/

variable (use : σ → ρ → σ) (s : σ) (stale : Option ρ)

/-- From a row on, the loop uses that row and the rows that have not been fetched, and leaves the cursor at its
end. -/
theorem read_row (row : ρ) (rows : List ρ) :
    read use s ⟨some row, stale, some rows⟩ = ((row :: rows).foldl use s, ⟨none, stale, none⟩) := by
  induction rows generalizing row s with
  | nil =>
      rw [read]
      rfl
  | cons row' rows ih =>
      rw [read]
      exact ih (use s row) row'

/-- Of an empty result it uses what is left behind the vector. -/
theorem read_empty : read use s (new stale []) = (stale.toList.foldl use s, ⟨none, stale, none⟩) := by
  rw [read]
  cases stale <;> rfl

/-- The loop over the cursor is the loop of the store over its shorter one. -/
theorem read_new (rows : List ρ) :
    (read use s (new stale rows)).1 = (QueryResult.ofRows stale rows).forEachRow use s := by
  rw [QueryResult.forEachRow_ofRows]
  cases rows with
  | nil =>
      rw [read_empty]
      rfl
  | cons row rows => exact congrArg Prod.fst (read_row use s stale row rows)

end Cursor

/-! ## The readers -/

namespace UserManager

/-- The server answers the query with these rows. -/
def Answered (env : SqlEnv) (q : Select) (m : MySql) (rows : List (List Value)) : Prop :=
  env.selectOk m.sent = true ∧ m.db.select q = some rows

/-- Of a result with these rows the loop, whatever it does with a row, uses exactly the rows, each once and in
order; so `LoadUserFromDB` adds their users, `LoadRelationshipFromDB` their friends and `GetChatHistory` their
messages, and nothing else. -/
structure UsesExactly (env : SqlEnv) (rows : List (List Value)) : Prop where
  loop : ∀ {σ : Type} (use : σ → List Value → σ) (s : σ) (n : Nat),
    (Cursor.read use s (Cursor.new (env.stale n) rows)).1 = rows.foldl use s
  users : ∀ st : Store, Answered env userQuery st.sql rows →
    (loadUserFromDB env st).2.users.users = st.users.users ++ rows.map userOfRow
  friends : ∀ userid friends (sql : MySql), Answered env (relationshipQuery userid) sql rows →
    (loadRelationshipFromDB env userid friends sql).2.1 = rows.foldl (loadFriend userid) friends
  history : ∀ userid targetid limit (st : Store), Answered env (historyQuery userid targetid limit) st.sql rows →
    (getChatHistory env userid targetid limit st).1 = some (rows.map chatMsgOfRow)

variable {env : SqlEnv} {rows : List (List Value)}

/-- An answered query gives its cursor. -/
theorem query_of_answered {q : Select} {m : MySql} (h : Answered env q m rows) :
    MySql.query env q m = (some (QueryResult.ofRows (env.stale m.sent) rows), ⟨m.db, m.sent + 1⟩) := by
  rw [MySql.query, if_pos h.1, h.2, Option.map_some]

/-- What holds of the loop holds of the readers. -/
theorem usesExactly_of_loop
    (hloop : ∀ {σ : Type} (use : σ → List Value → σ) (s : σ) (n : Nat),
      (QueryResult.ofRows (env.stale n) rows).forEachRow use s = rows.foldl use s) :
    UsesExactly env rows where
  loop use s n := (Cursor.read_new use s (env.stale n) rows).trans (hloop use s n)
  users st h := by
    rw [loadUserFromDB, query_of_answered h]
    dsimp only
    rw [hloop, users_foldl_loadUser]
  friends userid friends sql h := by
    rw [loadRelationshipFromDB, query_of_answered h]
    exact hloop _ _ _
  history userid targetid limit st h := by
    have happend : ∀ (rows : List (List Value)) (messages : List ChatMsg),
        rows.foldl (fun messages pRow => messages ++ [chatMsgOfRow pRow]) messages =
          messages ++ rows.map chatMsgOfRow := by
      intro rows
      induction rows with
      | nil => simp
      | cons row rows ih => simp [ih]
    rw [getChatHistory, query_of_answered h]
    dsimp only
    rw [hloop, happend, List.nil_append]

/-- **The readers use exactly the rows of a result if and only if it has one.** -/
theorem usesExactly_iff (hstale : ∀ n, env.stale n ≠ none) : UsesExactly env rows ↔ rows ≠ [] := by
  constructor
  · rintro h rfl
    obtain ⟨pRow, hpRow⟩ := Option.ne_none_iff_exists'.1 (hstale 0)
    -- the loop has used the row that is left behind the cleared vector
    have hnone := h.loop (fun used pRow => used ++ [pRow]) [] 0
    rw [Cursor.read_empty, hpRow] at hnone
    cases hnone
  · intro hne
    refine usesExactly_of_loop fun use s n => ?_
    rw [QueryResult.forEachRow_ofRows, QueryResult.visited, if_neg (by simpa using hne)]

/-- A server behind whose cleared vectors there is memory with no row in it. -/
def staleEnv : SqlEnv := { SqlEnv.ideal with stale := fun _ => some [] }

/-- Two rows, of which `NextRow` fetches the second. -/
theorem usesExactly_two :
    UsesExactly staleEnv [[.int 2, .text [98]], [.int 1, .text [97]]] ↔
      [[Value.int 2, .text [98]], [.int 1, .text [97]]] ≠ [] :=
  usesExactly_iff fun _ => Option.some_ne_none _

/-- From an empty `t_user` a user with the id 0 is loaded. -/
theorem loads_nobody : ¬ UsesExactly staleEnv [] ∧
    (loadUserFromDB staleEnv ⟨⟨MySqlManager.freshDb, 6⟩, new⟩).2.users.users.map User.userid = [0] := by
  constructor
  · intro h
    have hnone := h.loop (fun used pRow => used ++ [pRow]) [] 0
    rw [Cursor.read_empty] at hnone
    cases hnone
  · decide +kernel

end UserManager

end AimChat
