import AimChat.Store.FriendAtomic

/-! # Friends as the edges of a graph

Between two ids that exist, and with statements that are carried out, `MakeFriendRelationship`,
`ReleaseFriendRelationship` and `DeleteFriendToUser` turn one edge on or off and change nothing else. The
table may hold the edge in several rows, one for each time it was made; the sets of friends do not count
them, and ending the friendship takes them all. It takes those with the smaller id first: a row the other way
round is read like these at a start, and stays (`friends_are_edges_iff`). -/

namespace AimChat

open Sql

namespace UserManager

/-! ## The calls -/

/-- The calls that make and end a friendship. -/
inductive FriendCall
  | make
  | release
  | delete

namespace FriendCall

/-- The call for two ids; the smaller one first where the function asks for it. -/
def call (env : SqlEnv) (u v : Int) : FriendCall → Store → Bool × Store
  | make => makeFriendRelationship env (min u v) (max u v)
  | release => releaseFriendRelationship env (min u v) (max u v)
  | delete => deleteFriendToUser env u v

/-- The store after the call. -/
def after (env : SqlEnv) (u v : Int) (c : FriendCall) (st : Store) : Store := (c.call env u v st).2

/-- The call's statement. -/
def stmt (u v : Int) : FriendCall → Stmt
  | make => makeFriendStmt (min u v) (max u v)
  | release => deleteFriendStmt (min u v) (max u v)
  | delete => deleteFriendStmt (min u v) (max u v)

/-- The call's statement is carried out. -/
def Succeeds (env : SqlEnv) (u v : Int) (c : FriendCall) (st : Store) : Prop :=
  (MySql.execute env (c.stmt u v) st.sql).1 = true

instance (env : SqlEnv) (u v : Int) (c : FriendCall) (st : Store) : Decidable (c.Succeeds env u v st) :=
  inferInstanceAs (Decidable (_ = true))

/-- The edge is on after the call. -/
def on : FriendCall → Bool
  | make => true
  | release => false
  | delete => false

/-- The rows of the edge after the call, when there were `n`. -/
def count (n : Nat) : FriendCall → Nat
  | make => n + 1
  | release => 0
  | delete => 0

end FriendCall

/-- `k` calls that make the friendship, one after the other. -/
def makeTimes (env : SqlEnv) (u v : Int) : Nat → Store → Store
  | 0, st => st
  | k + 1, st => FriendCall.make.after env u v (makeTimes env u v k st)

/-- Each of them finds its statement carried out. -/
def MadeTimes (env : SqlEnv) (u v : Int) (k : Nat) (st : Store) : Prop :=
  ∀ i < k, FriendCall.make.Succeeds env u v (makeTimes env u v i st)

instance (env : SqlEnv) (u v : Int) (k : Nat) (st : Store) : Decidable (MadeTimes env u v k st) :=
  inferInstanceAs (Decidable (∀ i < k, _))

/-- The row is `(a, b)`. -/
def IsPair (a b : Int) (r : Row) : Prop := r "f_user_id1" = .int a ∧ r "f_user_id2" = .int b

instance (a b : Int) (r : Row) : Decidable (IsPair a b r) := inferInstanceAs (Decidable (_ ∧ _))

/-- How many rows of `t_user_relationship` are `(a, b)`. -/
def rowCount (db : Db) (a b : Int) : Nat := (db.rows "t_user_relationship").countP (IsPair a b ·)

/-- The managers differ in the friends of mapped records at most. -/
structure SameButFriends (um um' : UserManager) : Prop where
  fresh : um'.fresh = um.fresh
  cachedUsers : um'.cachedUsers = um.cachedUsers
  mapUsers : um'.mapUsers = um.mapUsers
  baseUserID : um'.baseUserID = um.baseUserID
  baseGroupID : um'.baseGroupID = um.baseGroupID
  heap : ∀ p, clearFriends (um'.heap p) = clearFriends (um.heap p)
  unmapped : ∀ p, (∀ id, um.mapUsers.get? id ≠ some p) → um'.heap p = um.heap p

/-- From `st` to `st'` the edge between `u` and `v` is turned on or off, `n` rows are there for it, and
nothing else is different. -/
structure EdgeTurned (on : Bool) (n : Nat) (u v : Int) (st st' : Store) : Prop where
  lists : ∀ a b, st'.copies.lists a b ↔ if EdgeCopies.Joins u v a b then on = true else st.copies.lists a b
  rows : ∀ a b, rowCount st'.sql.db a b = if a = min u v ∧ b = max u v then n else rowCount st.sql.db a b
  tables : ∀ name ≠ "t_user_relationship", st'.sql.db.tables name = st.sql.db.tables name
  users : SameButFriends st.users st'.users

/-- The stores are the same but for the order of the relationship rows. -/
structure SameEffect (st st' : Store) : Prop where
  users : st.users = st'.users
  rows : ∀ a b, rowCount st.sql.db a b = rowCount st'.sql.db a b
  tables : ∀ name ≠ "t_user_relationship", st.sql.db.tables name = st'.sql.db.tables name

/-- No later `init` on the database, whose cursor shows each matching row and nothing else, makes friends
of the two. -/
def StaysEnded (u v : Int) (st : Store) : Prop :=
  ∀ env st', StaleMisses env u → StaleMisses env v →
    init env ⟨st.sql, new⟩ = (true, st') → ¬ st'.copies.lists u v ∧ ¬ st'.copies.lists v u

/-- The calls for two ids act as on the edges of an undirected graph: one that is carried out turns the edge on
or off and nothing else; making it again adds rows and no friends; ended after that it is gone from both sets and
the table, and no start brings it back; the ways of ending it are one; calls for different edges commute. -/
structure FriendsAreEdges (env : SqlEnv) (u v : Int) (st : Store) : Prop where
  turned : ∀ c : FriendCall, c.Succeeds env u v st → (c.call env u v st).1 = true ∧
    EdgeTurned c.on (c.count (rowCount st.sql.db (min u v) (max u v))) u v st (c.after env u v st)
  again : ∀ k, MadeTimes env u v (k + 1) st →
    (makeTimes env u v (k + 1) st).users = (makeTimes env u v 1 st).users ∧
      EdgeTurned true (rowCount st.sql.db (min u v) (max u v) + (k + 1)) u v st (makeTimes env u v (k + 1) st)
  ended : ∀ k, MadeTimes env u v k st → FriendCall.delete.Succeeds env u v (makeTimes env u v k st) →
    (FriendCall.delete.call env u v (makeTimes env u v k st)).1 = true ∧
      EdgeTurned false 0 u v st (FriendCall.delete.after env u v (makeTimes env u v k st))
  staysEnded : RelationshipTable st.sql.db → ∀ k, MadeTimes env u v k st →
    FriendCall.delete.Succeeds env u v (makeTimes env u v k st) →
      StaysEnded u v (FriendCall.delete.after env u v (makeTimes env u v k st))
  oneWay : FriendCall.delete.call env u v st = FriendCall.delete.call env v u st ∧
    FriendCall.delete.call env u v st = FriendCall.release.call env u v st
  commute : ∀ (c d : FriendCall) (x y : Int), x ≠ y →
    st.users.mapUsers.get? x ≠ none → st.users.mapUsers.get? y ≠ none → ¬ EdgeCopies.Joins u v x y →
    c.Succeeds env u v st → d.Succeeds env x y st →
    d.Succeeds env x y (c.after env u v st) → c.Succeeds env u v (d.after env x y st) →
    (c.call env u v (d.after env x y st)).1 = (c.call env u v st).1 ∧
      SameEffect (d.after env x y (c.after env u v st)) (c.after env u v (d.after env x y st))

/-- `LoadUserFromDB` reads a row of the user. -/
def Loaded (db : Db) (id : Int) : Prop :=
  ∃ rows, db.select userQuery = some rows ∧ ∃ pRow ∈ rows, (userOfRow pRow).userid = id

/-- A row of the pair stands with the greater id first, a start reads one of the two users, and the pair's
`DELETE` can be carried out. -/
structure ComesBack (env : SqlEnv) (u v : Int) (st : Store) : Prop where
  table : RelationshipTable st.sql.db
  reversed : HasRow st.sql.db (max u v) (min u v)
  loaded : Loaded st.sql.db u ∨ Loaded st.sql.db v
  deleted : ∃ k, MadeTimes env u v k st ∧ FriendCall.delete.Succeeds env u v (makeTimes env u v k st)

variable {env : SqlEnv} {st st' : Store} {u v : Int} {c : FriendCall}

/-! ## Rows -/

/-- A row is there when there are some. -/
theorem hasRow_iff_rowCount {db : Db} {a b : Int} : HasRow db a b ↔ 0 < rowCount db a b := by
  unfold HasRow rowCount
  rw [List.countP_pos_iff]
  exact exists_congr fun r => and_congr_right fun _ => decide_eq_true_iff.symm

/-- A row is one pair. -/
theorem IsPair.unique {a b a' b' : Int} {r : Row} (h : IsPair a b r) (h' : IsPair a' b' r) : a = a' ∧ b = b' :=
  ⟨Value.int.inj (h.1.symm.trans h'.1), Value.int.inj (h.2.symm.trans h'.2)⟩

/-- An `INSERT` adds a row to those of its pair. -/
theorem rowCount_makeFriend {now : Int} {db db' : Db} {smallid greatid : Int}
    (h : db.exec now (makeFriendStmt smallid greatid) = some db') (a b : Int) :
    rowCount db' a b =
      if a = smallid ∧ b = greatid then rowCount db smallid greatid + 1 else rowCount db a b := by
  obtain ⟨t, named, ht, hnamed, -, -, rfl⟩ := Db.exec_insert h
  have hrows : db.rows "t_user_relationship" = t.rows := Db.rows_of_table ht
  have hnew : IsPair smallid greatid (t.newRow now named) := by
    cases hnamed
    exact ⟨rfl, rfl⟩
  unfold rowCount
  rw [Db.rows_set, if_pos rfl, hrows, List.countP_append, List.countP_singleton]
  -- the new row counts for its own pair and for no other
  split_ifs with hother hpair hpair
  · rw [hpair.1, hpair.2]
  · exact absurd ((of_decide_eq_true hother).unique hnew) hpair
  · refine absurd (decide_eq_true ?_) hother
    rw [hpair.1, hpair.2]
    exact hnew
  · rfl

/-- The condition of the `DELETE` is that the row is the pair. -/
theorem holds_pair (a b : Int) (r : Row) :
    Cond.holds r (.and (.eq "f_user_id1" a) (.eq "f_user_id2" b)) = decide (IsPair a b r) := by
  rw [Bool.eq_iff_iff, decide_eq_true_iff]
  simp [Cond.holds, IsPair]

/-- A `DELETE` takes all rows of its pair and no other. -/
theorem rowCount_deleteFriend {now : Int} {db db' : Db} {smallid greatid : Int}
    (h : db.exec now (deleteFriendStmt smallid greatid) = some db') (a b : Int) :
    rowCount db' a b = if a = smallid ∧ b = greatid then 0 else rowCount db a b := by
  obtain ⟨t, ht, rfl⟩ := Db.exec_delete h
  have hrows : db.rows "t_user_relationship" = t.rows := Db.rows_of_table ht
  unfold rowCount
  rw [Db.rows_set, if_pos rfl, hrows, List.countP_filter]
  simp only [holds_pair]
  split_ifs with hpair
  · obtain ⟨rfl, rfl⟩ := hpair
    refine List.countP_eq_zero.2 fun r _ hr => ?_
    simp at hr
  · refine List.countP_congr fun r _ => ?_
    rw [Bool.and_eq_true, Bool.not_eq_true', decide_eq_false_iff_not]
    exact and_iff_left_of_imp fun hr hr' => hpair ((of_decide_eq_true hr).unique hr')

/-! ## Records -/

theorem SameButFriends.refl (um : UserManager) : SameButFriends um um :=
  ⟨rfl, rfl, rfl, rfl, rfl, fun _ => rfl, fun _ _ => rfl⟩

theorem SameButFriends.trans {um um' um'' : UserManager} (h : SameButFriends um um')
    (h' : SameButFriends um' um'') : SameButFriends um um'' where
  fresh := h'.fresh.trans h.fresh
  cachedUsers := h'.cachedUsers.trans h.cachedUsers
  mapUsers := h'.mapUsers.trans h.mapUsers
  baseUserID := h'.baseUserID.trans h.baseUserID
  baseGroupID := h'.baseGroupID.trans h.baseGroupID
  heap p := (h'.heap p).trans (h.heap p)
  unmapped p hp := by
    refine (h'.unmapped p ?_).trans (h.unmapped p hp)
    rw [h.mapUsers]
    exact hp

/-- Changing the friends under an id. -/
theorem sameButFriends_modifyById (um : UserManager) (id : Int) (f : User → User)
    (hf : ∀ u, (f u).userid = u.userid) (hclear : ∀ u, clearFriends (f u) = clearFriends u) :
    SameButFriends um (um.modifyById id f hf) := by
  unfold modifyById
  cases hid : um.mapUsers.get? id with
  | none => exact SameButFriends.refl um
  | some q =>
      refine ⟨rfl, rfl, rfl, rfl, rfl, fun p => ?_, fun p hp => ?_⟩
      · show clearFriends (if p = q then f (um.heap p) else um.heap p) = _
        split_ifs
        · exact hclear _
        · rfl
      · show (if p = q then f (um.heap p) else um.heap p) = _
        rw [if_neg]
        rintro rfl
        exact hp id hid

theorem sameButFriends_linked (smallid greatid : Int) (um : UserManager) :
    SameButFriends um (linked smallid greatid um) := by
  have hadd : ∀ (um : UserManager) (id friendid : Int), SameButFriends um (um.addFriend id friendid) :=
    fun um id friendid => sameButFriends_modifyById um id _ _ fun _ => rfl
  unfold linked
  split_ifs
  · exact (hadd ..).trans (hadd ..)
  · exact hadd ..
  · exact SameButFriends.refl um

theorem sameButFriends_unlinked (userid friendid : Int) (um : UserManager) :
    SameButFriends um (unlinked userid friendid um) := by
  have hremove : ∀ (um : UserManager) (id friendid : Int), SameButFriends um (um.removeFriend id friendid) :=
    fun um id friendid => sameButFriends_modifyById um id _ _ fun _ => rfl
  exact (hremove ..).trans (hremove ..)

/-- What the mapped records list is all that can differ. -/
theorem SameButFriends.eq {um um₁ um₂ : UserManager} (h₁ : SameButFriends um um₁) (h₂ : SameButFriends um um₂)
    (hlists : ∀ a b, (∃ r, um₁.record a = some r ∧ b ∈ r.friends) ↔ ∃ r, um₂.record a = some r ∧ b ∈ r.friends) :
    um₁ = um₂ := by
  have hheap : um₁.heap = um₂.heap := by
    funext p
    by_cases hp : ∀ id, um.mapUsers.get? id ≠ some p
    · rw [h₁.unmapped p hp, h₂.unmapped p hp]
    · obtain ⟨id, hid⟩ := not_forall.1 hp
      have hid := not_not.1 hid
      have hclear : clearFriends (um₁.heap p) = clearFriends (um₂.heap p) := by rw [h₁.heap, h₂.heap]
      have hfriends : (um₁.heap p).friends = (um₂.heap p).friends := by
        refine OrdSet.ext fun b => ?_
        have hid₁ : um₁.record id = some (um₁.heap p) := by rw [record, h₁.mapUsers, hid]; rfl
        have hid₂ : um₂.record id = some (um₂.heap p) := by rw [record, h₂.mapUsers, hid]; rfl
        have := hlists id b
        simpa [hid₁, hid₂] using this
      calc um₁.heap p = { clearFriends (um₁.heap p) with friends := (um₁.heap p).friends } := rfl
        _ = { clearFriends (um₂.heap p) with friends := (um₂.heap p).friends } := by rw [hclear, hfriends]
        _ = um₂.heap p := rfl
  have hfresh := h₁.fresh.trans h₂.fresh.symm
  have hcached := h₁.cachedUsers.trans h₂.cachedUsers.symm
  have hmap := h₁.mapUsers.trans h₂.mapUsers.symm
  have huser := h₁.baseUserID.trans h₂.baseUserID.symm
  have hgroup := h₁.baseGroupID.trans h₂.baseGroupID.symm
  cases um₁
  cases um₂
  simp only [mk.injEq] at *
  exact ⟨hheap, hfresh, hcached, hmap, huser, hgroup⟩

/-! ## One call -/

/-- A mapped id has a record. -/
theorem here_of_mapped {a : Int} (h : st.users.mapUsers.get? a ≠ none) : st.copies.here a :=
  Option.isSome_iff_exists.1 (isSome_record_iff.2 h)

/-- Ending a friendship has no direction. -/
theorem unlinked_comm (userid friendid : Int) (um : UserManager) :
    unlinked userid friendid um = unlinked friendid userid um := by
  refine (sameButFriends_unlinked userid friendid um).eq (sameButFriends_unlinked friendid userid um) ?_
  intro a b
  unfold unlinked
  rw [lists_removeFriend, lists_removeFriend, lists_removeFriend, lists_removeFriend]
  exact and_right_comm

theorem deleteFriendToUser_comm (env : SqlEnv) (userid friendid : Int) (st : Store) :
    deleteFriendToUser env userid friendid st = deleteFriendToUser env friendid userid st := by
  rcases MySql.execute_cases env (deleteFriendStmt (min userid friendid) (max userid friendid)) st.sql with
    ⟨sql, h, -⟩ | ⟨sql, h⟩
  · rw [deleteFriendToUser_of_refused env h]
    rw [min_comm, max_comm] at h
    rw [deleteFriendToUser_of_refused env h]
  · rw [deleteFriendToUser_of_deleted env h]
    rw [min_comm, max_comm] at h
    rw [deleteFriendToUser_of_deleted env h, unlinked_comm]

/-- The two ways of ending a friendship are one, for ids in order. -/
theorem releaseFriendRelationship_eq (env : SqlEnv) {smallid greatid : Int} (hlt : smallid < greatid) (st : Store) :
    releaseFriendRelationship env smallid greatid st = deleteFriendToUser env smallid greatid st := by
  have hmin : min smallid greatid = smallid := min_eq_left hlt.le
  have hmax : max smallid greatid = greatid := max_eq_right hlt.le
  unfold releaseFriendRelationship
  rw [if_neg (not_le.2 hlt)]
  rcases MySql.execute_cases env (deleteFriendStmt smallid greatid) st.sql with ⟨sql, h, -⟩ | ⟨sql, h⟩
  · rw [h, deleteFriendToUser_of_refused env (by rw [hmin, hmax]; exact h)]
  · rw [h, deleteFriendToUser_of_deleted env (by rw [hmin, hmax]; exact h)]
    rfl

/-- So are they for any two ids. -/
theorem call_release (env : SqlEnv) (hne : u ≠ v) (st : Store) :
    FriendCall.release.call env u v st = FriendCall.delete.call env u v st := by
  show releaseFriendRelationship env (min u v) (max u v) st = deleteFriendToUser env u v st
  rw [releaseFriendRelationship_eq env (min_lt_max.2 hne)]
  rcases le_total u v with h | h
  · rw [min_eq_left h, max_eq_right h]
  · rw [min_eq_right h, max_eq_left h, deleteFriendToUser_comm]

/-- What the call does to the records. -/
def FriendCall.change (u v : Int) : FriendCall → UserManager → UserManager
  | make => linked (min u v) (max u v)
  | release => unlinked u v
  | delete => unlinked u v

/-- Between two ids that exist a call whose statement is carried out answers `true`. -/
theorem FriendCall.call_eq (hne : u ≠ v) (hu : st.copies.here u) (hv : st.copies.here v) {sql : MySql}
    (h : MySql.execute env (c.stmt u v) st.sql = (true, sql)) :
    c.call env u v st = (true, ⟨sql, c.change u v st.users⟩) := by
  cases c with
  | make =>
      have hboth : (st.users.record (min u v)).isSome ∧ (st.users.record (max u v)).isSome := by
        rw [Option.isSome_iff_exists, Option.isSome_iff_exists]
        exact EdgeCopies.here_min_max hu hv
      show makeFriendRelationship env (min u v) (max u v) st = _
      rw [makeFriendRelationship_of_inserted env (min_lt_max.2 hne) h, hboth.1, hboth.2]
      rfl
  | release =>
      rw [call_release env hne]
      exact deleteFriendToUser_of_deleted env h
  | delete => exact deleteFriendToUser_of_deleted env h

theorem FriendCall.copies_change {sql : MySql} (h : MySql.execute env (c.stmt u v) st.sql = (true, sql)) :
    Store.copies ⟨sql, c.change u v st.users⟩ = st.copies.turn c.on u v := by
  cases c with
  | make => exact copies_linked h
  | release => exact copies_unlinked h
  | delete => exact copies_unlinked h

theorem FriendCall.rowCount_stmt {now : Int} {db db' : Db} (h : db.exec now (c.stmt u v) = some db') (a b : Int) :
    rowCount db' a b =
      if a = min u v ∧ b = max u v then c.count (rowCount db (min u v) (max u v)) else rowCount db a b := by
  cases c with
  | make => exact rowCount_makeFriend h a b
  | release => exact rowCount_deleteFriend h a b
  | delete => exact rowCount_deleteFriend h a b

theorem FriendCall.sameButFriends_change (u v : Int) (c : FriendCall) (um : UserManager) :
    SameButFriends um (c.change u v um) := by
  cases c with
  | make => exact sameButFriends_linked ..
  | release => exact sameButFriends_unlinked ..
  | delete => exact sameButFriends_unlinked ..

theorem FriendCall.table_stmt (u v : Int) (c : FriendCall) : (c.stmt u v).table = "t_user_relationship" := by
  cases c <;> rfl

/-- **One call.** It answers `true` and turns the edge on or off in all three copies. -/
theorem FriendCall.outcome (hne : u ≠ v) (hu : st.copies.here u) (hv : st.copies.here v)
    (h : c.Succeeds env u v st) :
    (c.call env u v st).1 = true ∧ (c.after env u v st).copies = st.copies.turn c.on u v ∧
      EdgeTurned c.on (c.count (rowCount st.sql.db (min u v) (max u v))) u v st (c.after env u v st) := by
  obtain ⟨sql, hexec⟩ : ∃ sql, MySql.execute env (c.stmt u v) st.sql = (true, sql) := ⟨_, Prod.ext h rfl⟩
  have hdb := MySql.db_exec_of_execute hexec
  have hcall := call_eq hne hu hv hexec
  have hafter : c.after env u v st = ⟨sql, c.change u v st.users⟩ := congrArg Prod.snd hcall
  rw [hcall, hafter]
  refine ⟨rfl, copies_change hexec, fun a b => ?_, rowCount_stmt hdb, fun name hname => ?_, ?_⟩
  · rw [copies_change hexec, EdgeCopies.lists_turn hu hv]
  · exact Db.exec_other hdb (by rw [table_stmt]; exact hname)
  · exact sameButFriends_change u v c st.users

/-- Everybody stays in place. -/
theorem FriendCall.here_after (hne : u ≠ v) (hu : st.copies.here u) (hv : st.copies.here v)
    (h : c.Succeeds env u v st) (a : Int) : (c.after env u v st).copies.here a ↔ st.copies.here a := by
  rw [(outcome hne hu hv h).2.1, EdgeCopies.here_turn]

/-- One turn after another of the same edge: the last one counts. -/
theorem EdgeTurned.trans {st'' : Store} {on on' : Bool} {n n' : Nat} (h : EdgeTurned on n u v st st')
    (h' : EdgeTurned on' n' u v st' st'') : EdgeTurned on' n' u v st st'' where
  lists a b := by
    rw [h'.lists, h.lists]
    split_ifs <;> rfl
  rows a b := by
    rw [h'.rows, h.rows]
    split_ifs <;> rfl
  tables name hname := (h'.tables name hname).trans (h.tables name hname)
  users := h.users.trans h'.users

/-- Two states with the same edges after calls have the same records. -/
theorem users_eq_of_copies {st₁ st₂ : Store} (h₁ : SameButFriends st.users st₁.users)
    (h₂ : SameButFriends st.users st₂.users) (hcopies : st₁.copies = st₂.copies) : st₁.users = st₂.users :=
  h₁.eq h₂ fun a b => iff_of_eq (congrArg (fun c : EdgeCopies Int => c.lists a b) hcopies)

/-! ## Made again and again, and ended -/

/-- After some calls the edge is on, with a row more for each. -/
theorem makeTimes_outcome (hne : u ≠ v) (hu : st.copies.here u) (hv : st.copies.here v) {k : Nat}
    (h : MadeTimes env u v (k + 1) st) :
    (makeTimes env u v (k + 1) st).copies = st.copies.turn true u v ∧
      EdgeTurned true (rowCount st.sql.db (min u v) (max u v) + (k + 1)) u v st (makeTimes env u v (k + 1) st) := by
  induction k with
  | zero => exact (FriendCall.outcome hne hu hv (h 0 Nat.one_pos)).2
  | succ k ih =>
      obtain ⟨hcopies, hturned⟩ := ih fun i hi => h i (Nat.lt_succ_of_lt hi)
      have hhere : ∀ a, (makeTimes env u v (k + 1) st).copies.here a ↔ st.copies.here a := fun a => by
        rw [hcopies, EdgeCopies.here_turn]
      obtain ⟨-, hcopies', hturned'⟩ :=
        FriendCall.outcome hne ((hhere u).2 hu) ((hhere v).2 hv) (h (k + 1) (Nat.lt_succ_self _))
      rw [hcopies, FriendCall.on, EdgeCopies.turn_turn hu hv] at hcopies'
      refine ⟨hcopies', ?_⟩
      have hcount := hturned.rows (min u v) (max u v)
      rw [if_pos ⟨rfl, rfl⟩] at hcount
      rw [hcount] at hturned'
      exact hturned.trans hturned'

/-- After them everybody is still in place. -/
theorem here_makeTimes (hne : u ≠ v) (hu : st.copies.here u) (hv : st.copies.here v) {k : Nat}
    (h : MadeTimes env u v k st) (a : Int) : (makeTimes env u v k st).copies.here a ↔ st.copies.here a := by
  cases k with
  | zero => rfl
  | succ k => rw [(makeTimes_outcome hne hu hv h).1, EdgeCopies.here_turn]

/-- Ended after any number of calls that made it, the edge is off and has no row. -/
theorem delete_outcome (hne : u ≠ v) (hu : st.copies.here u) (hv : st.copies.here v) {k : Nat}
    (hmade : MadeTimes env u v k st) (h : FriendCall.delete.Succeeds env u v (makeTimes env u v k st)) :
    (FriendCall.delete.call env u v (makeTimes env u v k st)).1 = true ∧
      EdgeTurned false 0 u v st (FriendCall.delete.after env u v (makeTimes env u v k st)) := by
  cases k with
  | zero =>
      obtain ⟨hok, -, hturned⟩ := FriendCall.outcome hne hu hv h
      exact ⟨hok, hturned⟩
  | succ k =>
      obtain ⟨hcopies, hmade⟩ := makeTimes_outcome hne hu hv hmade
      have hhere : ∀ a, st.copies.here a → (makeTimes env u v (k + 1) st).copies.here a := fun a ha => by
        rw [hcopies, EdgeCopies.here_turn]
        exact ha
      obtain ⟨hok, -, hturned⟩ := FriendCall.outcome hne (hhere u hu) (hhere v hv) h
      exact ⟨hok, hmade.trans hturned⟩

/-! ## After a restart -/

/-- The rows that are not the pair's, and the columns, are the same. -/
structure SameOthers (u v : Int) (db db' : Db) : Prop where
  columns : ∀ t, db.tables "t_user_relationship" = some t →
    ∃ t', db'.tables "t_user_relationship" = some t' ∧ t'.columns = t.columns
  rows : (db'.rows "t_user_relationship").filter (fun r => !decide (IsPair (min u v) (max u v) r)) =
    (db.rows "t_user_relationship").filter fun r => !decide (IsPair (min u v) (max u v) r)

theorem SameOthers.refl (u v : Int) (db : Db) : SameOthers u v db db := ⟨fun t ht => ⟨t, ht, rfl⟩, rfl⟩

theorem SameOthers.trans {db db' db'' : Db} (h : SameOthers u v db db') (h' : SameOthers u v db' db'') :
    SameOthers u v db db'' where
  columns t ht := by
    obtain ⟨t', ht', hcolumns'⟩ := h.columns t ht
    obtain ⟨t'', ht'', hcolumns''⟩ := h'.columns t' ht'
    exact ⟨t'', ht'', hcolumns''.trans hcolumns'⟩
  rows := h'.rows.trans h.rows

/-- A call's statement leaves them. -/
theorem FriendCall.sameOthers_stmt {now : Int} {db db' : Db} (h : db.exec now (c.stmt u v) = some db') :
    SameOthers u v db db' := by
  have hdelete : ∀ {db' : Db}, db.exec now (deleteFriendStmt (min u v) (max u v)) = some db' →
      SameOthers u v db db' := by
    intro db' h
    obtain ⟨t, ht, rfl⟩ := Db.exec_delete h
    have hrows : db.rows "t_user_relationship" = t.rows := Db.rows_of_table ht
    refine ⟨fun t₀ ht₀ => ?_, ?_⟩
    · obtain rfl := Option.some.inj (ht.symm.trans ht₀)
      exact ⟨_, rfl, rfl⟩
    · rw [Db.rows_set, if_pos rfl, hrows, List.filter_filter]
      simp only [holds_pair, Bool.and_self]
  cases c with
  | make =>
      obtain ⟨t, named, ht, hnamed, -, -, rfl⟩ := Db.exec_insert h
      have hrows : db.rows "t_user_relationship" = t.rows := Db.rows_of_table ht
      have hnew : IsPair (min u v) (max u v) (t.newRow now named) := by
        cases hnamed
        exact ⟨rfl, rfl⟩
      refine ⟨fun t₀ ht₀ => ?_, ?_⟩
      · obtain rfl := Option.some.inj (ht.symm.trans ht₀)
        exact ⟨_, rfl, rfl⟩
      · rw [Db.rows_set, if_pos rfl, hrows, List.filter_append, List.filter_cons_of_neg (by simpa using hnew)]
        exact List.append_nil _
  | release => exact hdelete h
  | delete => exact hdelete h

theorem FriendCall.sameOthers_after (hne : u ≠ v) (hu : st.copies.here u) (hv : st.copies.here v)
    (h : c.Succeeds env u v st) : SameOthers u v st.sql.db (c.after env u v st).sql.db := by
  obtain ⟨sql, hexec⟩ : ∃ sql, MySql.execute env (c.stmt u v) st.sql = (true, sql) := ⟨_, Prod.ext h rfl⟩
  rw [after, call_eq hne hu hv hexec]
  exact sameOthers_stmt (MySql.db_exec_of_execute hexec)

theorem sameOthers_makeTimes (hne : u ≠ v) (hu : st.copies.here u) (hv : st.copies.here v) {k : Nat}
    (h : MadeTimes env u v k st) : SameOthers u v st.sql.db (makeTimes env u v k st).sql.db := by
  induction k with
  | zero => exact SameOthers.refl u v _
  | succ k ih =>
      have hmade : MadeTimes env u v k st := fun i hi => h i (Nat.lt_succ_of_lt hi)
      have hhere := here_makeTimes hne hu hv hmade
      exact (ih hmade).trans
        (FriendCall.sameOthers_after hne ((hhere u).2 hu) ((hhere v).2 hv) (h k (Nat.lt_succ_self k)))

/-- With no row of the pair left the table is in order if it was before. -/
theorem SameOthers.relationshipTable {db db' : Db} (h : SameOthers u v db db')
    (hnone : rowCount db' (min u v) (max u v) = 0) (htable : RelationshipTable db) : RelationshipTable db' := by
  obtain ⟨t, ht, hcol1, hcol2⟩ := htable.table
  obtain ⟨t', ht', hcolumns⟩ := h.columns t ht
  refine ⟨⟨t', ht', ?_, ?_⟩, fun r hr => htable.int32 r ?_⟩
  · rwa [Table.hasColumn, hcolumns]
  · rwa [Table.hasColumn, hcolumns]
  · have hkept : r ∈ (db'.rows "t_user_relationship").filter
        fun r => !decide (IsPair (min u v) (max u v) r) := by
      refine List.mem_filter.2 ⟨hr, ?_⟩
      rw [Bool.not_eq_true', decide_eq_false_iff_not]
      exact fun hpair => List.countP_eq_zero.1 hnone r hr (decide_eq_true hpair)
    rw [h.rows] at hkept
    exact List.mem_of_mem_filter hkept

/-- A start lists nobody for a record without a row that joins them. -/
theorem not_lists_init {sql : MySql} (h : init env ⟨sql, new⟩ = (true, st)) (htable : RelationshipTable sql.db)
    {a b : Int} (hstale : StaleMisses env a) (hab : ¬ HasRow sql.db a b) (hba : ¬ HasRow sql.db b a) :
    ¬ st.copies.lists a b := by
  rintro ⟨r, hr, hb⟩
  obtain ⟨p, hp, rfl⟩ := Option.map_eq_some_iff.1 hr
  obtain ⟨hmem, hid⟩ := st.users.mapped hp
  have hrow := hasRow_of_mem_friends_init h htable hmem (by rw [hid]; exact hstale) hb
  rw [hid] at hrow
  exact hrow.elim hab hba

/-- A start has the users of the rows its cursor visits. -/
theorem here_init {sql : MySql} (h : init env ⟨sql, new⟩ = (true, st)) (id : Int) :
    st.copies.here id ↔ ∃ rows, sql.db.select userQuery = some rows ∧
      ∃ pRow ∈ QueryResult.visited (env.stale sql.sent) rows, (userOfRow pRow).userid = id := by
  obtain ⟨rows, hrows, hst⟩ := init_eq h
  have hrecord : st.copies.here id ↔
      (((QueryResult.visited (env.stale sql.sent) rows).foldl loadUser new).record id).isSome = true := by
    rw [isSome_record_iff, ← (loadAllFriends_frame env
      ((QueryResult.visited (env.stale sql.sent) rows).foldl loadUser new).cachedUsers
      ⟨⟨sql.db, sql.sent + 1⟩, (QueryResult.visited (env.stale sql.sent) rows).foldl loadUser new⟩).2.1, ← hst,
      ← isSome_record_iff, Option.isSome_iff_exists]
    rfl
  have hnew : new.record id = none := rfl
  rw [hrecord, record_foldl_loadUser, hnew, Option.or_none, List.find?_isSome]
  constructor
  · rintro ⟨u, hu, hid⟩
    obtain ⟨pRow, hpRow, rfl⟩ := List.mem_map.1 (List.mem_reverse.1 hu)
    exact ⟨rows, hrows, pRow, hpRow, of_decide_eq_true hid⟩
  · rintro ⟨rows', hrows', pRow, hpRow, hid⟩
    obtain rfl := Option.some.inj (hrows.symm.trans hrows')
    exact ⟨_, List.mem_reverse.2 (List.mem_map_of_mem hpRow), decide_eq_true hid⟩

/-- What the cursor finds behind an empty result is no user it is not about. -/
theorem loaded_of_here_init {sql : MySql} (h : init env ⟨sql, new⟩ = (true, st)) {id : Int}
    (hstale : StaleMisses env id) (hhere : st.copies.here id) : Loaded sql.db id := by
  obtain ⟨rows, hrows, pRow, hpRow, hid⟩ := (here_init h id).1 hhere
  rcases QueryResult.mem_visited.1 hpRow with hlisted | ⟨-, hbehind⟩
  · exact ⟨rows, hrows, pRow, hlisted, hid⟩
  · exact absurd hid (hstale _ pRow hbehind).1

/-- An edge that is off comes back with a start if and only if it has a row left and a start reads one of the
two users. -/
theorem staysEnded_iff (htable : RelationshipTable st.sql.db) :
    StaysEnded u v st ↔
      ¬ ((HasRow st.sql.db u v ∨ HasRow st.sql.db v u) ∧ (Loaded st.sql.db u ∨ Loaded st.sql.db v)) := by
  constructor
  · rintro h ⟨hrow, hloaded⟩
    obtain ⟨rows, hrows⟩ : ∃ rows, st.sql.db.select userQuery = some rows :=
      hloaded.elim (fun ⟨rows, hrows, _⟩ => ⟨rows, hrows⟩) fun ⟨rows, hrows, _⟩ => ⟨rows, hrows⟩
    -- a server that answers every query and has nothing behind an empty result
    have hstale : ∀ id, StaleMisses SqlEnv.ideal id := fun id n pRow hpRow => absurd hpRow (by simp [SqlEnv.ideal])
    obtain ⟨st', hinit⟩ : ∃ st', init SqlEnv.ideal ⟨st.sql, new⟩ = (true, st') := by
      have hquery : MySql.query SqlEnv.ideal userQuery st.sql =
          (some (QueryResult.ofRows none rows), ⟨st.sql.db, st.sql.sent + 1⟩) := by
        rw [MySql.query, if_pos (show SqlEnv.ideal.selectOk st.sql.sent = true from rfl), hrows]
        rfl
      rw [init, loadUserFromDB, hquery]
      exact ⟨_, rfl⟩
    have hhere : ∀ {id}, Loaded st.sql.db id → st'.copies.here id := by
      rintro id ⟨rows', hrows', pRow, hpRow, hid⟩
      exact (here_init hinit id).2 ⟨rows', hrows', pRow, QueryResult.mem_visited.2 (.inl hpRow), hid⟩
    have hlists : ∀ {a b}, Loaded st.sql.db a → HasRow st.sql.db a b ∨ HasRow st.sql.db b a →
        st'.copies.lists a b := fun ha hab =>
      (lists_init_of_answered hinit htable (fun _ _ _ => rfl) (hstale _) (hhere ha) _).2 hab
    obtain ⟨huv, hvu⟩ := h SqlEnv.ideal st' (hstale u) (hstale v) hinit
    rcases hloaded with hu | hv
    · exact huv (hlists hu hrow)
    · exact hvu (hlists hv hrow.symm)
  · intro h env' st' hu hv hinit
    rcases not_and_or.1 h with hrow | hloaded
    · obtain ⟨huv, hvu⟩ := not_or.1 hrow
      exact ⟨not_lists_init hinit htable hu huv hvu, not_lists_init hinit htable hv hvu huv⟩
    · obtain ⟨hnu, hnv⟩ := not_or.1 hloaded
      constructor
      · rintro ⟨r, hr, -⟩
        exact hnu (loaded_of_here_init hinit hu ⟨r, hr⟩)
      · rintro ⟨r, hr, -⟩
        exact hnv (loaded_of_here_init hinit hv ⟨r, hr⟩)

/-- Of the rows of a pair that is off, only those with the greater id first are left. -/
theorem EdgeTurned.hasRow_iff (hne : u ≠ v) (h : EdgeTurned false 0 u v st st') :
    HasRow st'.sql.db u v ∨ HasRow st'.sql.db v u ↔ HasRow st.sql.db (max u v) (min u v) := by
  simp only [hasRow_iff_rowCount, h.rows]
  -- whichever of the two is the smaller, the row with it first is gone
  rcases lt_or_gt_of_ne hne with hlt | hlt
  · rw [min_eq_left hlt.le, max_eq_right hlt.le, if_pos ⟨rfl, rfl⟩, if_neg fun h => hne h.1.symm]
    simp
  · rw [min_eq_right hlt.le, max_eq_left hlt.le, if_neg fun h => hne h.1, if_pos ⟨rfl, rfl⟩]
    simp

/-- Every row has the smaller id first. -/
def RowsOrdered (db : Db) : Prop := ∀ a b, HasRow db a b → a < b

/-- The operations of the store, a restart included, write such rows only. -/
theorem RowsOrdered.step {op : StoreOp} (h : RowsOrdered st.sql.db) (hstep : step env st op = .ok st') :
    RowsOrdered st'.sql.db := by
  by_cases hop : op = .restart
  · subst hop
    rw [db_init (step_restart hstep)]
    exact h
  · intro a b hrow
    have hrow : st'.copies.row a b := hrow
    rcases copies_step hop hstep with ⟨n, -, hcopies⟩ | ⟨-, hcopies⟩
    · rw [hcopies] at hrow
      exact h a b hrow
    · rcases hcopies with hcopies | ⟨smallid, greatid, -, hlt, hcopies⟩ | ⟨x, y, hcopies⟩ <;> rw [hcopies] at hrow
      · exact h a b hrow
      · rcases hrow with hrow | ⟨rfl, rfl⟩
        · exact h a b hrow
        · exact hlt
      · exact h a b hrow.1

/-- So a run of the store from such a table leaves no row the other way round. -/
theorem RowsOrdered.not_comesBack {ops : List StoreOp} (h : RowsOrdered st.sql.db)
    (hrun : Run.run (UserManager.step env) st ops = .ok st') (env' : SqlEnv) (u v : Int) :
    ¬ ComesBack env' u v st' := by
  have hordered : RowsOrdered st'.sql.db :=
    Run.run_invariant (I := fun st => RowsOrdered st.sql.db) (P := fun _ _ => True)
      (fun _ _ _ hst _ hstep => hst.step hstep) h (Run.always_of_forall (fun _ _ => trivial) _ _) hrun
  exact fun hback => absurd (hordered _ _ hback.reversed) (not_lt.2 min_le_max)

/-! ## Different edges -/

/-- Calls for different edges lead to the same state in either order. -/
theorem calls_comm {x y : Int} {d : FriendCall} (hne : u ≠ v) (hu : st.copies.here u) (hv : st.copies.here v)
    (hne' : x ≠ y) (hx : st.copies.here x) (hy : st.copies.here y) (hother : ¬ EdgeCopies.Joins u v x y)
    (hc : c.Succeeds env u v st) (hd : d.Succeeds env x y st)
    (hcd : d.Succeeds env x y (c.after env u v st)) (hdc : c.Succeeds env u v (d.after env x y st)) :
    (c.call env u v (d.after env x y st)).1 = (c.call env u v st).1 ∧
      SameEffect (d.after env x y (c.after env u v st)) (c.after env u v (d.after env x y st)) := by
  have hhere := FriendCall.here_after hne hu hv hc
  have hhere' := FriendCall.here_after hne' hx hy hd
  obtain ⟨hok₁, hcopies₁, hturned₁⟩ := FriendCall.outcome hne hu hv hc
  obtain ⟨-, hcopies₂, hturned₂⟩ := FriendCall.outcome hne' hx hy hd
  obtain ⟨-, hcopies₁₂, hturned₁₂⟩ := FriendCall.outcome hne' ((hhere x).2 hx) ((hhere y).2 hy) hcd
  obtain ⟨hok₂₁, hcopies₂₁, hturned₂₁⟩ := FriendCall.outcome hne ((hhere' u).2 hu) ((hhere' v).2 hv) hdc
  refine ⟨hok₂₁.trans hok₁.symm, ?_, fun a b => ?_, fun name hname => ?_⟩
  · refine users_eq_of_copies (hturned₁.users.trans hturned₁₂.users) (hturned₂.users.trans hturned₂₁.users) ?_
    rw [hcopies₁₂, hcopies₂₁, hcopies₁, hcopies₂, EdgeCopies.turn_comm hu hv hx hy hother]
  · have hpairs : ¬ (min x y = min u v ∧ max x y = max u v) := fun h => hother (EdgeCopies.joins_iff.2 h)
    -- what a call counts on was not touched by the other
    have hcount₁ := hturned₁.rows (min x y) (max x y)
    have hcount₂ := hturned₂.rows (min u v) (max u v)
    rw [if_neg hpairs] at hcount₁
    rw [if_neg fun h => hpairs ⟨h.1.symm, h.2.symm⟩] at hcount₂
    rw [hturned₁₂.rows, hturned₂₁.rows, hcount₁, hcount₂, hturned₁.rows a b, hturned₂.rows a b]
    split_ifs with h' h
    · exact absurd ⟨h'.1.symm.trans h.1, h'.2.symm.trans h.2⟩ hpairs
    · rfl
    · rfl
    · rfl
  · rw [hturned₁₂.tables name hname, hturned₁.tables name hname, hturned₂₁.tables name hname,
      hturned₂.tables name hname]

/-- What a start makes of the pair behind a `DELETE` that is carried out. -/
theorem delete_staysEnded_iff (hne : u ≠ v) (hu : st.copies.here u) (hv : st.copies.here v) {k : Nat}
    (htable : RelationshipTable st.sql.db) (hmade : MadeTimes env u v k st)
    (hdelete : FriendCall.delete.Succeeds env u v (makeTimes env u v k st)) :
    StaysEnded u v (FriendCall.delete.after env u v (makeTimes env u v k st)) ↔
      ¬ (HasRow st.sql.db (max u v) (min u v) ∧ (Loaded st.sql.db u ∨ Loaded st.sql.db v)) := by
  obtain ⟨-, hturned⟩ := delete_outcome hne hu hv hmade hdelete
  have hhere := here_makeTimes hne hu hv hmade
  have hothers := (sameOthers_makeTimes hne hu hv hmade).trans
    (FriendCall.sameOthers_after hne ((hhere u).2 hu) ((hhere v).2 hv) hdelete)
  have hnone := (hturned.rows (min u v) (max u v)).trans (if_pos ⟨rfl, rfl⟩)
  have hloaded : ∀ id, Loaded (FriendCall.delete.after env u v (makeTimes env u v k st)).sql.db id ↔
      Loaded st.sql.db id := by
    intro id
    unfold Loaded Db.select
    rw [hturned.tables userQuery.table (by decide)]
  rw [staysEnded_iff (hothers.relationshipTable hnone htable), hturned.hasRow_iff hne, hloaded, hloaded]

/-- A row the other way round comes back. -/
theorem ComesBack.not_friendsAreEdges (hne : u ≠ v) (hu : st.copies.here u) (hv : st.copies.here v)
    (h : ComesBack env u v st) : ¬ FriendsAreEdges env u v st := by
  intro hedges
  obtain ⟨htable, hreversed, hloaded, k, hmade, hdelete⟩ := h
  exact (delete_staysEnded_iff hne hu hv htable hmade hdelete).1 (hedges.staysEnded htable k hmade hdelete)
    ⟨hreversed, hloaded⟩

/-- The server with the users 1 and 2, on fresh tables. -/
def twoUserStore : Store :=
  (addUser SqlEnv.ideal (newUser (str "b") (str "b") (str "q") []) oneUserStore).2

/-- The server started on the same tables when a row `(2, 1)` has been put in. -/
def reversedStore : Store :=
  (init SqlEnv.ideal ⟨⟨(twoUserStore.sql.db.exec 0 (makeFriendStmt 2 1)).getD Db.empty, 0⟩, new⟩).2

/-- The row is there, both users are read, and the `DELETE` of the pair is carried out. -/
theorem comesBack_reversed : ComesBack SqlEnv.ideal 1 2 reversedStore := by
  refine ⟨⟨?_, ?_⟩, hasRow_iff_rowCount.2 (by decide +kernel), .inl ?_, 0, ?_, ?_⟩
  · have hcolumns : (reversedStore.sql.db.tables "t_user_relationship").any
        (fun t => t.hasColumn "f_user_id1" && t.hasColumn "f_user_id2") = true := by decide +kernel
    obtain ⟨t, ht, hboth⟩ := (Option.any_eq_true _ _).1 hcolumns
    exact ⟨t, ht, (Bool.and_eq_true_iff.1 hboth).1, (Bool.and_eq_true_iff.1 hboth).2⟩
  · have hrows : ∀ r ∈ reversedStore.sql.db.rows "t_user_relationship",
        r "f_user_id1" = .int 2 ∧ r "f_user_id2" = .int 1 := by decide +kernel
    exact fun r hr => ⟨2, 1, (hrows r hr).1, (hrows r hr).2, by decide, by decide⟩
  · have hread : (reversedStore.sql.db.select userQuery).any
        (fun rows => rows.any fun pRow => (userOfRow pRow).userid = 1) = true := by decide +kernel
    obtain ⟨rows, hrows, hany⟩ := (Option.any_eq_true _ _).1 hread
    obtain ⟨pRow, hpRow, hid⟩ := List.any_eq_true.1 hany
    exact ⟨rows, hrows, pRow, hpRow, of_decide_eq_true hid⟩
  · exact fun i hi => absurd hi (Nat.not_lt_zero i)
  · decide +kernel

end UserManager

end AimChat
