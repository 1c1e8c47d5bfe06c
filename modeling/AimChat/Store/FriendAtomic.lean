import AimChat.Store.Relationship

/-! # Making friends, all or nothing

`MakeFriendRelationship` inserts the row first and looks for the two records afterwards, one by one,
after the friends of the other one were changed. The answer `false` means that nothing happened unless
the statement was carried out and one of the records was missing. -/

namespace AimChat

open Sql

namespace UserManager

variable {env : SqlEnv} {smallid greatid : Int} {st : Store}

/-- The rows of `t_user_relationship` and the friends of every record are the same. -/
structure SameFriends (st st' : Store) : Prop where
  rows : st'.sql.db.rows "t_user_relationship" = st.sql.db.rows "t_user_relationship"
  friends : ∀ p, (st'.users.heap p).friends = (st.users.heap p).friends

/-- The relationship stands in all three places: a row, and each id in the friends of the other. -/
structure Befriended (smallid greatid : Int) (st : Store) : Prop where
  row : HasRow st.sql.db smallid greatid
  small : ∃ u, st.users.record smallid = some u ∧ greatid ∈ u.friends
  great : ∃ u, st.users.record greatid = some u ∧ smallid ∈ u.friends

/-- `MakeFriendRelationship` did everything or nothing: after `false` all is as before, after `true` the
relationship stands. -/
structure AllOrNothing (env : SqlEnv) (smallid greatid : Int) (st : Store) : Prop where
  nothing : (makeFriendRelationship env smallid greatid st).1 = false →
    SameFriends st (makeFriendRelationship env smallid greatid st).2
  all : (makeFriendRelationship env smallid greatid st).1 = true →
    Befriended smallid greatid (makeFriendRelationship env smallid greatid st).2

/-- The row goes in and one of the records is missing. -/
def RowWithoutRecord (env : SqlEnv) (smallid greatid : Int) (st : Store) : Prop :=
  smallid < greatid ∧ (MySql.execute env (makeFriendStmt smallid greatid) st.sql).1 = true ∧
    ¬ (st.users.mapUsers.get? smallid ≠ none ∧ st.users.mapUsers.get? greatid ≠ none)

/-! ## What each exit leaves -/

/-- An inserted row makes the table longer. -/
theorem rows_ne_of_inserted {m sql : MySql}
    (h : MySql.execute env (makeFriendStmt smallid greatid) m = (true, sql)) :
    sql.db.rows "t_user_relationship" ≠ m.db.rows "t_user_relationship" := by
  have hexec := MySql.db_exec_of_execute h
  obtain ⟨t, named, ht, -, -, -, hdb⟩ := Db.exec_insert hexec
  have hrows : m.db.rows "t_user_relationship" = t.rows := Db.rows_of_table ht
  rw [hdb, Db.rows_set, if_pos rfl, hrows]
  exact fun heq => absurd (List.append_right_eq_self.1 heq) (List.cons_ne_nil _ _)

/-- With both records there, the row that went in and the two entries are the relationship. -/
theorem befriended_of_inserted {sql : MySql} (hlt : smallid < greatid)
    (h : MySql.execute env (makeFriendStmt smallid greatid) st.sql = (true, sql)) {u v : User}
    (hu : st.users.record smallid = some u) (hv : st.users.record greatid = some v) :
    Befriended smallid greatid ⟨sql, linked smallid greatid st.users⟩ := by
  have hexec := MySql.db_exec_of_execute h
  have hlinked : linked smallid greatid st.users =
      (st.users.addFriend smallid greatid).addFriend greatid smallid := by
    rw [linked, hu, hv]
    rfl
  refine ⟨(hasRow_makeFriend hexec _ _).2 (.inr ⟨rfl, rfl⟩), ?_, ?_⟩
  · refine ⟨{ u with friends := u.friends.add greatid }, ?_, by simp⟩
    rw [hlinked, record_addFriend, if_neg hlt.ne, record_addFriend, if_pos rfl, hu]
    rfl
  · refine ⟨{ v with friends := v.friends.add smallid }, ?_, by simp⟩
    rw [hlinked, record_addFriend, if_pos rfl, record_addFriend, if_neg hlt.ne', hv]
    rfl

/-- A record stands behind every id in the map. -/
theorem isSome_record_iff {um : UserManager} {id : Int} :
    (um.record id).isSome = true ↔ um.mapUsers.get? id ≠ none := by
  rw [record, Option.isSome_map, Option.isSome_iff_ne_none]

/-- An exit with the answer `false` that has left rows and friends alone. -/
theorem AllOrNothing.of_false {st' : Store} (hexit : makeFriendRelationship env smallid greatid st = (false, st'))
    (hsame : SameFriends st st') : AllOrNothing env smallid greatid st where
  nothing _ := by
    rw [hexit]
    exact hsame
  all h := by
    rw [hexit] at h
    cases h

/-- Once the row is in, all is done exactly when both records are there. -/
theorem allOrNothing_iff_of_inserted {sql : MySql} (hlt : smallid < greatid)
    (hexec : MySql.execute env (makeFriendStmt smallid greatid) st.sql = (true, sql)) :
    AllOrNothing env smallid greatid st ↔
      ((st.users.record smallid).isSome && (st.users.record greatid).isSome) = true := by
  have hexit := makeFriendRelationship_of_inserted env hlt hexec
  constructor
  · intro hall
    by_contra hmissing
    -- the answer is false, and the new row is still there
    have hfalse := Bool.eq_false_iff.2 hmissing
    have hsame := hall.nothing (by rw [hexit]; exact hfalse)
    rw [hexit] at hsame
    exact rows_ne_of_inserted hexec hsame.rows
  · intro hboth
    -- both records are there, so both got the other id
    obtain ⟨hu, hv⟩ := Bool.and_eq_true_iff.1 hboth
    obtain ⟨u, hu⟩ := Option.isSome_iff_exists.1 hu
    obtain ⟨v, hv⟩ := Option.isSome_iff_exists.1 hv
    refine ⟨fun h => ?_, fun _ => ?_⟩
    · rw [hexit, hboth] at h
      cases h
    · rw [hexit]
      exact befriended_of_inserted hlt hexec hu hv

/-- **When making friends is all or nothing.** For every state, all ids and every outcome of the
statement: exactly unless the row goes in while one of the two records is missing. -/
theorem allOrNothing_iff (env : SqlEnv) (smallid greatid : Int) (st : Store) :
    AllOrNothing env smallid greatid st ↔ ¬ RowWithoutRecord env smallid greatid st := by
  rcases le_or_gt greatid smallid with hle | hlt
  · refine iff_of_true ?_ fun h => absurd h.1 (not_lt.2 hle)
    exact .of_false (makeFriendRelationship_of_le env st hle) ⟨rfl, fun _ => rfl⟩
  rcases MySql.execute_cases env (makeFriendStmt smallid greatid) st.sql with
    ⟨sql, hexec, hdb⟩ | ⟨sql, hexec⟩
  · -- nothing was changed, and the answer is false
    refine iff_of_true ?_ fun h => ?_
    · exact .of_false (makeFriendRelationship_of_refused env hlt hexec)
        ⟨congrArg (Db.rows · "t_user_relationship") hdb, fun _ => rfl⟩
    · rw [RowWithoutRecord, hexec] at h
      exact absurd h.2.1 Bool.false_ne_true
  · rw [allOrNothing_iff_of_inserted hlt hexec, RowWithoutRecord, hexec, Bool.and_eq_true,
      isSome_record_iff, isSome_record_iff]
    constructor
    · rintro hboth ⟨-, -, hmissing⟩
      exact hmissing hboth
    · intro hnot
      by_contra hmissing
      exact hnot ⟨hlt, rfl, hmissing⟩

/-- The server with user 1 only, on fresh tables. -/
def oneUserStore : Store :=
  (addUser SqlEnv.ideal (newUser (str "a") (str "a") (str "p") []) ⟨⟨MySqlManager.freshDb, 7⟩, new⟩).2

/-- User 1 befriends an id that nobody has: the answer is `false`, and the row is in the table. -/
theorem half_friends : ¬ AllOrNothing SqlEnv.ideal 1 2 oneUserStore := by
  intro h
  have hanswer : (makeFriendRelationship SqlEnv.ideal 1 2 oneUserStore).1 = false := by decide +kernel
  have hlonger :
      ((makeFriendRelationship SqlEnv.ideal 1 2 oneUserStore).2.sql.db.rows "t_user_relationship").length ≠
        (oneUserStore.sql.db.rows "t_user_relationship").length := by
    decide +kernel
  exact hlonger (congrArg List.length (h.nothing hanswer).rows)

end UserManager

end AimChat
