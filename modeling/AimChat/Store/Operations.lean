import AimChat.Lib.Run
import AimChat.Store.Load

/-! # Runs of the user store

The operations the session handlers call on the store, and a restart of the server, as one step
function. Each operation's effect on the record under an id is one lemma. -/

namespace AimChat

open Sql

namespace UserManager

variable {um : UserManager}

/-! ## The record under an id -/

/-- Changing the record under an id changes that record only. -/
theorem record_modifyById (id : Int) (f : User → User) (hf : ∀ u, (f u).userid = u.userid)
    (um : UserManager) (id' : Int) :
    (um.modifyById id f hf).record id' =
      if id' = id then (um.record id').map f else um.record id' := by
  unfold modifyById
  cases hid : um.mapUsers.get? id with
  | none =>
      split_ifs with h
      · rw [h, record, hid]
        rfl
      · rfl
  | some p =>
      change ((um.mapUsers.get? id').map fun q => if q = p then f (um.heap q) else um.heap q) = _
      unfold record
      cases hid' : um.mapUsers.get? id' with
      | none => split_ifs <;> rfl
      | some q =>
          -- each record is under its own userid only
          have hqp : q = p ↔ id' = id := by
            constructor
            · rintro rfl
              rw [← (um.mapped hid').2, (um.mapped hid).2]
            · rintro rfl
              rw [hid] at hid'
              exact (Option.some.inj hid').symm
          simp only [Option.map_some, hqp]
          split_ifs <;> rfl

theorem record_addFriend (id friendid : Int) (um : UserManager) (id' : Int) :
    (um.addFriend id friendid).record id' =
      if id' = id then (um.record id').map fun u => { u with friends := u.friends.add friendid }
      else um.record id' :=
  record_modifyById ..

theorem record_removeFriend (id friendid : Int) (um : UserManager) (id' : Int) :
    (um.removeFriend id friendid).record id' =
      if id' = id then (um.record id').map fun u => { u with friends := u.friends.remove friendid }
      else um.record id' :=
  record_modifyById ..

/-! ## Operations -/

/-- The operations on the user store, with the arguments the session handlers give them, and a restart
of the server. -/
inductive StoreOp
  | addUser (username nickname password mail : Bytes)
  | addGroup (groupname : Bytes) (ownerid : Int)
  | updateUserInfo (userid : Int) (newuserinfo : User)
  | modifyUserPassword (userid : Int) (newpassword : Bytes)
  | makeFriendRelationship (smallid greatid : Int)
  | releaseFriendRelationship (smallid greatid : Int)
  | deleteFriendToUser (userid friendid : Int)
  | restart

/-- The `User` `OnRegisterResponse` hands to `AddUser`. -/
def newUser (username nickname password mail : Bytes) : User :=
  { username := username, nickname := nickname, password := password, mail := mail }

/-- One operation; a restart whose `init` fails ends the server. -/
def step (env : SqlEnv) (st : Store) : StoreOp → Except Unit Store
  | .addUser username nickname password mail =>
      .ok (addUser env (newUser username nickname password mail) st).2
  | .addGroup groupname ownerid => .ok (addGroup env groupname ownerid st).2.2
  | .updateUserInfo userid newuserinfo => .ok (updateUserInfo env userid newuserinfo st).2
  | .modifyUserPassword userid newpassword => .ok (modifyUserPassword env userid newpassword st).2
  | .makeFriendRelationship smallid greatid => .ok (makeFriendRelationship env smallid greatid st).2
  | .releaseFriendRelationship smallid greatid =>
      .ok (releaseFriendRelationship env smallid greatid st).2
  | .deleteFriendToUser userid friendid => .ok (deleteFriendToUser env userid friendid st).2
  | .restart =>
      match init env ⟨st.sql, new⟩ with
      | (true, st) => .ok st
      | (false, _) => .error ()

/-- Every operation but a restart leads somewhere. -/
theorem step_ok (env : SqlEnv) {op : StoreOp} (hop : op ≠ .restart) (st : Store) :
    ∃ st', step env st op = .ok st' := by
  cases op with
  | restart => exact absurd rfl hop
  | _ => exact ⟨_, rfl⟩

/-- A restart that succeeds is a start on what the database holds. -/
theorem step_restart {env : SqlEnv} {st st' : Store} (h : step env st .restart = .ok st') :
    init env ⟨st.sql, new⟩ = (true, st') := by
  change (match init env ⟨st.sql, new⟩ with
    | (true, st) => Except.ok st
    | (false, _) => .error ()) = _ at h
  cases hinit : init env ⟨st.sql, new⟩ with
  | mk ok st₁ =>
      rw [hinit] at h
      cases ok <;> cases h
      rfl

/-! ## What an operation that succeeds has done -/

variable (env : SqlEnv)

/-- `AddUser` takes the next id, and either fails or inserts a row and shares a record. -/
theorem addUser_cases (user : User) (st : Store) :
    (∃ sql, addUser env user st = (false, ⟨sql, st.users.takeUserID⟩) ∧ sql.db = st.sql.db ∧
        MySql.execute env (addUserStmt (nextId st.users.baseUserID) user) st.sql = (false, sql)) ∨
      ∃ sql, addUser env user st = (true, ⟨sql, st.users.takeUserID.share
          (addedUser (nextId st.users.baseUserID) user)⟩) ∧
        MySql.execute env (addUserStmt (nextId st.users.baseUserID) user) st.sql = (true, sql) := by
  have hid : st.users.takeUserID.baseUserID = nextId st.users.baseUserID := rfl
  unfold addUser addUserBy
  dsimp only
  rw [hid]
  rcases MySql.execute_cases env (addUserStmt (nextId st.users.baseUserID) user) st.sql with
    ⟨sql, h, hdb⟩ | ⟨sql, h⟩
  · rw [h]
    exact Or.inl ⟨sql, rfl, hdb, rfl⟩
  · rw [h]
    exact Or.inr ⟨sql, rfl, rfl⟩

/-- `AddGroup` takes the next id, and either fails or inserts a row and shares a record. -/
theorem addGroup_cases (groupname : Bytes) (ownerid : Int) (st : Store) :
    (∃ sql, addGroup env groupname ownerid st =
        (false, nextId st.users.baseGroupID, ⟨sql, st.users.takeGroupID⟩) ∧ sql.db = st.sql.db ∧
        MySql.execute env (addGroupStmt (nextId st.users.baseGroupID) (cStr groupname) ownerid)
          st.sql = (false, sql)) ∨
      ∃ sql, addGroup env groupname ownerid st =
          (true, nextId st.users.baseGroupID, ⟨sql, st.users.takeGroupID.share
            (addedGroup (nextId st.users.baseGroupID) (cStr groupname) ownerid)⟩) ∧
        MySql.execute env (addGroupStmt (nextId st.users.baseGroupID) (cStr groupname) ownerid)
          st.sql = (true, sql) := by
  have hid : st.users.takeGroupID.baseGroupID = nextId st.users.baseGroupID := rfl
  unfold addGroup addGroupBy
  dsimp only
  rw [hid]
  rcases MySql.execute_cases env (addGroupStmt (nextId st.users.baseGroupID) (cStr groupname) ownerid) st.sql with
    ⟨sql, h, hdb⟩ | ⟨sql, h⟩
  · rw [h]
    exact Or.inl ⟨sql, rfl, hdb, rfl⟩
  · rw [h]
    exact Or.inr ⟨sql, rfl, rfl⟩

/-- A group created has its id; every other record keeps the one it had. -/
theorem userid_addGroup {env : SqlEnv} {groupname : Bytes} {ownerid groupid : Int} {st st' : Store}
    (h : addGroup env groupname ownerid st = (true, groupid, st')) (p : UserPtr) :
    (st'.users.heap p).userid = (st.users.heap p).userid ∨ (st'.users.heap p).userid = groupid := by
  rcases addGroup_cases env groupname ownerid st with ⟨sql, heq, -⟩ | ⟨sql, heq, -⟩
  · rw [heq] at h
    cases h
  · rw [heq] at h
    cases h
    show (if p = st.users.fresh then _ else st.users.heap p : User).userid = _ ∨
      (if p = st.users.fresh then _ else st.users.heap p : User).userid = _
    split_ifs
    · exact Or.inr rfl
    · exact Or.inl rfl

/-- `UpdateUserInfo` either fails or updates the row and the record. -/
theorem updateUserInfo_cases (userid : Int) (info : User) (st : Store) :
    (∃ sql, updateUserInfo env userid info st = (false, ⟨sql, st.users⟩) ∧ sql.db = st.sql.db ∧
        MySql.execute env (updateUserInfoStmt userid info) st.sql = (false, sql)) ∨
      ∃ sql, updateUserInfo env userid info st = (true, ⟨sql,
          st.users.modifyById userid (copyProfile info) fun _ => rfl⟩) ∧
        MySql.execute env (updateUserInfoStmt userid info) st.sql = (true, sql) := by
  unfold updateUserInfo updateUserInfoBy
  rcases MySql.execute_cases env (updateUserInfoStmt userid info) st.sql with ⟨sql, h, hdb⟩ | ⟨sql, h⟩
  · rw [h]
    exact Or.inl ⟨sql, rfl, hdb, rfl⟩
  · rw [h]
    exact Or.inr ⟨sql, rfl, rfl⟩

/-- `ModifyUserPassword` either fails or updates the row and the record. -/
theorem modifyUserPassword_cases (userid : Int) (newpassword : Bytes) (st : Store) :
    (∃ sql, modifyUserPassword env userid newpassword st = (false, ⟨sql, st.users⟩) ∧
        sql.db = st.sql.db ∧
        MySql.execute env (modifyUserPasswordStmt userid newpassword) st.sql = (false, sql)) ∨
      ∃ sql, modifyUserPassword env userid newpassword st = (true, ⟨sql,
          st.users.modifyById userid (withPassword newpassword) fun _ => rfl⟩) ∧
        MySql.execute env (modifyUserPasswordStmt userid newpassword) st.sql = (true, sql) := by
  unfold modifyUserPassword modifyUserPasswordBy
  rcases MySql.execute_cases env (modifyUserPasswordStmt userid newpassword) st.sql with ⟨sql, h, hdb⟩ | ⟨sql, h⟩
  · rw [h]
    exact Or.inl ⟨sql, rfl, hdb, rfl⟩
  · rw [h]
    exact Or.inr ⟨sql, rfl, rfl⟩

/-- What `MakeFriendRelationship` does to the records once its row is in. -/
def linked (smallid greatid : Int) (um : UserManager) : UserManager :=
  if (um.record smallid).isSome then
    if (um.record greatid).isSome then (um.addFriend smallid greatid).addFriend greatid smallid
    else um.addFriend smallid greatid
  else um

/-- The smaller id does not come first. -/
theorem makeFriendRelationship_of_le {smallid greatid : Int} (st : Store) (h : greatid ≤ smallid) :
    makeFriendRelationship env smallid greatid st = (false, st) := by
  rw [makeFriendRelationship, if_pos h]

/-- The statement is not carried out. -/
theorem makeFriendRelationship_of_refused {smallid greatid : Int} {st : Store} {sql : MySql}
    (hlt : smallid < greatid)
    (h : MySql.execute env (makeFriendStmt smallid greatid) st.sql = (false, sql)) :
    makeFriendRelationship env smallid greatid st = (false, ⟨sql, st.users⟩) := by
  rw [makeFriendRelationship, if_neg (not_le.2 hlt), h]

/-- The row is in: the answer says whether both records are there, and what was reached by then stays. -/
theorem makeFriendRelationship_of_inserted {smallid greatid : Int} {st : Store} {sql : MySql}
    (hlt : smallid < greatid)
    (h : MySql.execute env (makeFriendStmt smallid greatid) st.sql = (true, sql)) :
    makeFriendRelationship env smallid greatid st =
      ((st.users.record smallid).isSome && (st.users.record greatid).isSome,
        ⟨sql, linked smallid greatid st.users⟩) := by
  have hmap : (st.users.addFriend smallid greatid).mapUsers = st.users.mapUsers := by
    unfold addFriend modifyById
    split <;> rfl
  rw [makeFriendRelationship, if_neg (not_le.2 hlt), h]
  simp only [hmap, linked, record, Option.isSome_map]
  cases st.users.mapUsers.get? smallid with
  | none => rfl
  | some p => cases st.users.mapUsers.get? greatid <;> rfl

/-- `MakeFriendRelationship` does nothing without `smallid < greatid` or when its statement fails, and
else inserts a row and reaches the ends that exist. -/
theorem makeFriendRelationship_cases (smallid greatid : Int) (st : Store) :
    ((makeFriendRelationship env smallid greatid st).2.users = st.users ∧
        (makeFriendRelationship env smallid greatid st).2.sql.db = st.sql.db) ∨
      smallid < greatid ∧ ∃ sql,
        (makeFriendRelationship env smallid greatid st).2 = ⟨sql, linked smallid greatid st.users⟩ ∧
        MySql.execute env (makeFriendStmt smallid greatid) st.sql = (true, sql) := by
  rcases le_or_gt greatid smallid with hle | hlt
  · rw [makeFriendRelationship_of_le env st hle]
    exact Or.inl ⟨rfl, rfl⟩
  rcases MySql.execute_cases env (makeFriendStmt smallid greatid) st.sql with ⟨sql, h, hdb⟩ | ⟨sql, h⟩
  · rw [makeFriendRelationship_of_refused env hlt h]
    exact Or.inl ⟨rfl, hdb⟩
  · rw [makeFriendRelationship_of_inserted env hlt h]
    exact Or.inr ⟨hlt, sql, rfl, h⟩

/-- What deleting a relationship does to the records. -/
def unlinked (userid friendid : Int) (um : UserManager) : UserManager :=
  (um.removeFriend userid friendid).removeFriend friendid userid

/-- `ReleaseFriendRelationship` does nothing without `smallid < greatid` or when its statement fails,
and else deletes the rows and the entries at both ends. -/
theorem releaseFriendRelationship_cases (smallid greatid : Int) (st : Store) :
    ((releaseFriendRelationship env smallid greatid st).2.users = st.users ∧
        (releaseFriendRelationship env smallid greatid st).2.sql.db = st.sql.db) ∨
      smallid < greatid ∧ ∃ sql,
        (releaseFriendRelationship env smallid greatid st).2 =
          ⟨sql, unlinked smallid greatid st.users⟩ ∧
        MySql.execute env (deleteFriendStmt smallid greatid) st.sql = (true, sql) := by
  unfold releaseFriendRelationship
  split_ifs with hlt
  · exact Or.inl ⟨rfl, rfl⟩
  rcases MySql.execute_cases env (deleteFriendStmt smallid greatid) st.sql with ⟨sql, h, hdb⟩ | ⟨sql, h⟩
  · rw [h]
    exact Or.inl ⟨rfl, hdb⟩
  · rw [h]
    exact Or.inr ⟨not_le.1 hlt, sql, rfl, rfl⟩

theorem ite_lt_eq_min (a b : Int) : (if a < b then a else b) = min a b := by
  rw [Int.min_def]
  split_ifs <;> omega

theorem ite_lt_eq_max (a b : Int) : (if a < b then b else a) = max a b := by
  rw [Int.max_def]
  split_ifs <;> omega

/-- The statement is not carried out. -/
theorem deleteFriendToUser_of_refused {userid friendid : Int} {st : Store} {sql : MySql}
    (h : MySql.execute env (deleteFriendStmt (min userid friendid) (max userid friendid)) st.sql =
      (false, sql)) :
    deleteFriendToUser env userid friendid st = (false, ⟨sql, st.users⟩) := by
  unfold deleteFriendToUser
  simp only [ite_lt_eq_min, ite_lt_eq_max, h]

/-- The rows are gone, and the entries at both ends. -/
theorem deleteFriendToUser_of_deleted {userid friendid : Int} {st : Store} {sql : MySql}
    (h : MySql.execute env (deleteFriendStmt (min userid friendid) (max userid friendid)) st.sql =
      (true, sql)) :
    deleteFriendToUser env userid friendid st = (true, ⟨sql, unlinked userid friendid st.users⟩) := by
  unfold deleteFriendToUser
  simp only [ite_lt_eq_min, ite_lt_eq_max, h]
  rfl

/-- `DeleteFriendToUser` does nothing when its statement fails, and else deletes the rows and the
entries at both ends. -/
theorem deleteFriendToUser_cases (userid friendid : Int) (st : Store) :
    ((deleteFriendToUser env userid friendid st).2.users = st.users ∧
        (deleteFriendToUser env userid friendid st).2.sql.db = st.sql.db) ∨
      ∃ sql, (deleteFriendToUser env userid friendid st).2 =
          ⟨sql, unlinked userid friendid st.users⟩ ∧
        MySql.execute env (deleteFriendStmt (min userid friendid) (max userid friendid)) st.sql =
          (true, sql) := by
  rcases MySql.execute_cases env (deleteFriendStmt (min userid friendid) (max userid friendid)) st.sql with
    ⟨sql, h, hdb⟩ | ⟨sql, h⟩
  · rw [deleteFriendToUser_of_refused env h]
    exact Or.inl ⟨rfl, hdb⟩
  · rw [deleteFriendToUser_of_deleted env h]
    exact Or.inr ⟨sql, rfl, h⟩

/-! ## What an operation does -/

/-- The statement an operation sends, if it sends one. -/
def StoreOp.stmt (um : UserManager) : StoreOp → Option Stmt
  | .addUser username nickname password mail =>
      some (addUserStmt (nextId um.baseUserID) (newUser username nickname password mail))
  | .addGroup groupname ownerid =>
      some (addGroupStmt (nextId um.baseGroupID) (cStr groupname) ownerid)
  | .updateUserInfo userid info => some (updateUserInfoStmt userid info)
  | .modifyUserPassword userid newpassword => some (modifyUserPasswordStmt userid newpassword)
  | .makeFriendRelationship smallid greatid =>
      if smallid ≥ greatid then none else some (makeFriendStmt smallid greatid)
  | .releaseFriendRelationship smallid greatid =>
      if smallid ≥ greatid then none else some (deleteFriendStmt smallid greatid)
  | .deleteFriendToUser userid friendid =>
      some (deleteFriendStmt (min userid friendid) (max userid friendid))
  | .restart => none

/-- The manager when `AddUser` and `AddGroup` have advanced their counter. -/
def advanced (um : UserManager) : StoreOp → UserManager
  | .addUser .. => um.takeUserID
  | .addGroup .. => um.takeGroupID
  | _ => um

/-- An operation creates a record under `n`. -/
def Creates (env : SqlEnv) (st : Store) (n : Int) : StoreOp → Prop
  | .addUser username nickname password mail =>
      (addUser env (newUser username nickname password mail) st).1 = true ∧
        n = nextId st.users.baseUserID
  | .addGroup groupname ownerid =>
      (addGroup env groupname ownerid st).1 = true ∧ n = nextId st.users.baseGroupID
  | _ => False

theorem fst_addUser (user : User) (st : Store) : (addUser env user st).1 =
    (MySql.execute env (addUserStmt (nextId st.users.baseUserID) user) st.sql).1 := by
  rcases addUser_cases env user st with ⟨sql, heq, -, hexec⟩ | ⟨sql, heq, hexec⟩ <;> rw [heq, hexec]

theorem fst_addGroup (groupname : Bytes) (ownerid : Int) (st : Store) : (addGroup env groupname ownerid st).1 =
    (MySql.execute env (addGroupStmt (nextId st.users.baseGroupID) (cStr groupname) ownerid) st.sql).1 := by
  rcases addGroup_cases env groupname ownerid st with ⟨sql, heq, -, hexec⟩ | ⟨sql, heq, hexec⟩ <;> rw [heq, hexec]

theorem fst_modifyUserPassword (userid : Int) (newpassword : Bytes) (st : Store) :
    (modifyUserPassword env userid newpassword st).1 =
      (MySql.execute env (modifyUserPasswordStmt userid newpassword) st.sql).1 := by
  rcases modifyUserPassword_cases env userid newpassword st with ⟨sql, heq, -, hexec⟩ | ⟨sql, heq, hexec⟩ <;>
    rw [heq, hexec]

/-- A record is created when the operation's statement succeeds. -/
theorem Creates.execute {st : Store} {n : Int} {op : StoreOp} (h : Creates env st n op) :
    ∃ stmt, op.stmt st.users = some stmt ∧ (MySql.execute env stmt st.sql).1 = true := by
  cases op with
  | addUser username nickname password mail => exact ⟨_, rfl, (fst_addUser env _ st).symm.trans h.1⟩
  | addGroup groupname ownerid => exact ⟨_, rfl, (fst_addGroup env _ _ st).symm.trans h.1⟩
  | _ => exact absurd h id

/-- The counters have nothing to do with the records. -/
theorem record_advanced (op : StoreOp) (id : Int) : (um.advanced op).record id = um.record id := by
  cases op <;> rfl

/-- The operation is one on relationships. -/
def StoreOp.OnFriends : StoreOp → Prop
  | .makeFriendRelationship .. => True
  | .releaseFriendRelationship .. => True
  | .deleteFriendToUser .. => True
  | _ => False

theorem StoreOp.OnFriends.cases {op : StoreOp} (h : op.OnFriends) :
    (∃ smallid greatid, op = .makeFriendRelationship smallid greatid) ∨
      (∃ smallid greatid, op = .releaseFriendRelationship smallid greatid) ∨
      ∃ userid friendid, op = .deleteFriendToUser userid friendid := by
  cases op with
  | makeFriendRelationship smallid greatid => exact .inl ⟨_, _, rfl⟩
  | releaseFriendRelationship smallid greatid => exact .inr (.inl ⟨_, _, rfl⟩)
  | deleteFriendToUser userid friendid => exact .inr (.inr ⟨_, _, rfl⟩)
  | _ => exact absurd h id

/-- Operations on relationships advance no counter. -/
theorem StoreOp.OnFriends.advanced {op : StoreOp} (h : op.OnFriends) (um : UserManager) :
    um.advanced op = um := by
  rcases h.cases with ⟨_, _, rfl⟩ | ⟨_, _, rfl⟩ | ⟨_, _, rfl⟩ <;> rfl

/-- Operations on relationships create no record. -/
theorem StoreOp.OnFriends.not_creates {st : Store} {op : StoreOp} (h : op.OnFriends) (n : Int) :
    ¬ Creates env st n op := by
  rcases h.cases with ⟨_, _, rfl⟩ | ⟨_, _, rfl⟩ | ⟨_, _, rfl⟩ <;> exact id

/-- Neither does an operation whose statement fails. -/
theorem not_creates_of_failed {st : Store} {op : StoreOp} {stmt : Stmt} {sql : MySql}
    (hstmt : op.stmt st.users = some stmt) (hfalse : MySql.execute env stmt st.sql = (false, sql)) (n : Int) :
    ¬ Creates env st n op := by
  intro h
  obtain ⟨stmt', hstmt', htrue⟩ := h.execute
  rw [hstmt] at hstmt'
  cases hstmt'
  rw [hfalse] at htrue
  cases htrue

/-- What an operation that is no restart leads to. -/
inductive Operated (st : Store) : StoreOp → Store → Prop
  /-- The statement about a user failed, after a counter was advanced. -/
  | failed (op : StoreOp) {stmt : Stmt} {sql : MySql} (hstmt : op.stmt st.users = some stmt)
      (hfalse : MySql.execute env stmt st.sql = (false, sql)) : Operated st op ⟨sql, st.users.advanced op⟩
  /-- The ids were out of order, or the statement about a relationship failed. -/
  | idle (op : StoreOp) (hop : op.OnFriends) {sql : MySql} (hdb : sql.db = st.sql.db) :
      Operated st op ⟨sql, st.users⟩
  | addUser (username nickname password mail : Bytes) {sql : MySql}
      (hexec : MySql.execute env (addUserStmt (nextId st.users.baseUserID)
        (newUser username nickname password mail)) st.sql = (true, sql)) :
      Operated st (.addUser username nickname password mail)
        ⟨sql, st.users.takeUserID.share
          (addedUser (nextId st.users.baseUserID) (newUser username nickname password mail))⟩
  | addGroup (groupname : Bytes) (ownerid : Int) {sql : MySql}
      (hexec : MySql.execute env (addGroupStmt (nextId st.users.baseGroupID) (cStr groupname) ownerid)
        st.sql = (true, sql)) :
      Operated st (.addGroup groupname ownerid)
        ⟨sql, st.users.takeGroupID.share
          (addedGroup (nextId st.users.baseGroupID) (cStr groupname) ownerid)⟩
  | updateUserInfo (userid : Int) (info : User) {sql : MySql}
      (hexec : MySql.execute env (updateUserInfoStmt userid info) st.sql = (true, sql)) :
      Operated st (.updateUserInfo userid info)
        ⟨sql, st.users.modifyById userid (copyProfile info) fun _ => rfl⟩
  | modifyUserPassword (userid : Int) (newpassword : Bytes) {sql : MySql}
      (hexec : MySql.execute env (modifyUserPasswordStmt userid newpassword) st.sql = (true, sql)) :
      Operated st (.modifyUserPassword userid newpassword)
        ⟨sql, st.users.modifyById userid (withPassword newpassword) fun _ => rfl⟩
  | linked (smallid greatid : Int) {sql : MySql} (hlt : smallid < greatid)
      (hexec : MySql.execute env (makeFriendStmt smallid greatid) st.sql = (true, sql)) :
      Operated st (.makeFriendRelationship smallid greatid) ⟨sql, linked smallid greatid st.users⟩
  | unlinked (op : StoreOp) (hop : op.OnFriends) (x y : Int) {sql : MySql}
      (hexec : MySql.execute env (deleteFriendStmt (min x y) (max x y)) st.sql = (true, sql)) :
      Operated st op ⟨sql, unlinked x y st.users⟩

/-- An operation on relationships that changes nothing. -/
theorem Operated.of_eq {st st' : Store} {op : StoreOp} (hop : op.OnFriends) (husers : st'.users = st.users)
    (hdb : st'.sql.db = st.sql.db) : Operated env st op st' := by
  obtain ⟨sql, users⟩ := st'
  cases husers
  exact .idle op hop hdb

/-- **One operation.** -/
theorem operated {st st' : Store} {op : StoreOp} (hop : op ≠ .restart) (h : step env st op = .ok st') :
    Operated env st op st' := by
  cases op with
  | addUser username nickname password mail =>
      cases h
      rcases addUser_cases env (newUser username nickname password mail) st with
        ⟨sql, heq, -, hfalse⟩ | ⟨sql, heq, hexec⟩ <;> rw [heq]
      · exact .failed _ rfl hfalse
      · exact .addUser _ _ _ _ hexec
  | addGroup groupname ownerid =>
      cases h
      rcases addGroup_cases env groupname ownerid st with
        ⟨sql, heq, -, hfalse⟩ | ⟨sql, heq, hexec⟩ <;> rw [heq]
      · exact .failed (.addGroup groupname ownerid) rfl hfalse
      · exact .addGroup _ _ hexec
  | updateUserInfo userid info =>
      cases h
      rcases updateUserInfo_cases env userid info st with
        ⟨sql, heq, -, hfalse⟩ | ⟨sql, heq, hexec⟩ <;> rw [heq]
      · exact .failed (.updateUserInfo userid info) rfl hfalse
      · exact .updateUserInfo _ _ hexec
  | modifyUserPassword userid newpassword =>
      cases h
      rcases modifyUserPassword_cases env userid newpassword st with
        ⟨sql, heq, -, hfalse⟩ | ⟨sql, heq, hexec⟩ <;> rw [heq]
      · exact .failed (.modifyUserPassword userid newpassword) rfl hfalse
      · exact .modifyUserPassword _ _ hexec
  | makeFriendRelationship smallid greatid =>
      cases h
      rcases makeFriendRelationship_cases env smallid greatid st with
        ⟨husers, hdb⟩ | ⟨hlt, sql, heq, hexec⟩
      · exact .of_eq env trivial husers hdb
      · rw [heq]
        exact .linked _ _ hlt hexec
  | releaseFriendRelationship smallid greatid =>
      cases h
      rcases releaseFriendRelationship_cases env smallid greatid st with
        ⟨husers, hdb⟩ | ⟨hlt, sql, heq, hexec⟩
      · exact .of_eq env trivial husers hdb
      · have hunlink : MySql.execute env (deleteFriendStmt (min smallid greatid) (max smallid greatid)) st.sql =
            (true, sql) := by
          rw [min_eq_left hlt.le, max_eq_right hlt.le]
          exact hexec
        rw [heq]
        exact .unlinked (.releaseFriendRelationship smallid greatid) trivial smallid greatid hunlink
  | deleteFriendToUser userid friendid =>
      cases h
      rcases deleteFriendToUser_cases env userid friendid st with ⟨husers, hdb⟩ | ⟨sql, heq, hexec⟩
      · exact .of_eq env trivial husers hdb
      · rw [heq]
        exact .unlinked (.deleteFriendToUser userid friendid) trivial userid friendid hexec
  | restart => exact absurd rfl hop

/-! ## Records keep their ids -/

/-- No record is lost and each keeps its `userid`. -/
def Extends (um um' : UserManager) : Prop :=
  um.fresh ≤ um'.fresh ∧ ∀ p < um.fresh, (um'.heap p).userid = (um.heap p).userid

theorem Extends.refl (um : UserManager) : Extends um um := ⟨le_refl _, fun _ _ => rfl⟩

theorem Extends.trans {a b c : UserManager} (hab : Extends a b) (hbc : Extends b c) : Extends a c :=
  ⟨hab.1.trans hbc.1, fun p hp => (hbc.2 p (lt_of_lt_of_le hp hab.1)).trans (hab.2 p hp)⟩

theorem extends_modify (um : UserManager) (p : UserPtr) (f : User → User) (hf : ∀ u, (f u).userid = u.userid) :
    Extends um (um.modify p f hf) := by
  refine ⟨le_refl _, fun q _ => ?_⟩
  show (if q = p then f (um.heap q) else um.heap q).userid = _
  split_ifs
  · exact hf _
  · rfl

theorem extends_modifyById (um : UserManager) (userid : Int) (f : User → User) (hf : ∀ u, (f u).userid = u.userid) :
    Extends um (um.modifyById userid f hf) := by
  unfold modifyById
  cases um.mapUsers.get? userid with
  | none => exact Extends.refl um
  | some p => exact extends_modify um p f hf

/-- Changing the record under an id changes no `userid`. -/
@[simp] theorem userid_modifyById (um : UserManager) (id : Int) (f : User → User)
    (hf : ∀ u, (f u).userid = u.userid) (p : UserPtr) :
    ((um.modifyById id f hf).heap p).userid = (um.heap p).userid := by
  unfold modifyById
  cases um.mapUsers.get? id with
  | none => rfl
  | some q =>
      show (if p = q then f (um.heap p) else um.heap p).userid = _
      split_ifs
      · exact hf _
      · rfl

/-- It leaves every record, or changes the one that has the id. -/
theorem heap_modifyById (um : UserManager) (id : Int) (f : User → User) (hf : ∀ u, (f u).userid = u.userid)
    (p : UserPtr) :
    (um.modifyById id f hf).heap p = um.heap p ∨
      (um.heap p).userid = id ∧ (um.modifyById id f hf).heap p = f (um.heap p) := by
  unfold modifyById
  cases hid : um.mapUsers.get? id with
  | none => exact Or.inl rfl
  | some q =>
      show (if p = q then f (um.heap p) else um.heap p) = _ ∨
        _ ∧ (if p = q then f (um.heap p) else um.heap p) = _
      split_ifs with hp
      · exact Or.inr ⟨hp ▸ (um.mapped hid).2, rfl⟩
      · exact Or.inl rfl

@[simp] theorem cachedUsers_modifyById (um : UserManager) (id : Int) (f : User → User)
    (hf : ∀ u, (f u).userid = u.userid) : (um.modifyById id f hf).cachedUsers = um.cachedUsers := by
  unfold modifyById
  cases um.mapUsers.get? id <;> rfl

theorem extends_share (um : UserManager) (u : User) : Extends um (um.share u) := by
  refine ⟨Nat.le_succ _, fun p hp => ?_⟩
  show (if p = um.fresh then u else um.heap p).userid = _
  rw [if_neg (Nat.ne_of_lt hp)]

theorem extends_addUser (user : User) (st : Store) : Extends st.users (addUser env user st).2.users := by
  rcases addUser_cases env user st with ⟨sql, h, -⟩ | ⟨sql, h, -⟩
  · rw [h]
    exact ⟨le_refl _, fun _ _ => rfl⟩
  · rw [h]
    exact extends_share _ _

theorem extends_addGroup (groupname : Bytes) (ownerid : Int) (st : Store) :
    Extends st.users (addGroup env groupname ownerid st).2.2.users := by
  rcases addGroup_cases env groupname ownerid st with ⟨sql, h, -⟩ | ⟨sql, h, -⟩
  · rw [h]
    exact ⟨le_refl _, fun _ _ => rfl⟩
  · rw [h]
    exact extends_share _ _

theorem extends_updateUserInfo (userid : Int) (info : User) (st : Store) :
    Extends st.users (updateUserInfo env userid info st).2.users := by
  rcases updateUserInfo_cases env userid info st with ⟨sql, h, -⟩ | ⟨sql, h, -⟩
  · rw [h]
    exact Extends.refl _
  · rw [h]
    exact extends_modifyById ..

theorem extends_modifyUserPassword (userid : Int) (newpassword : Bytes) (st : Store) :
    Extends st.users (modifyUserPassword env userid newpassword st).2.users := by
  rcases modifyUserPassword_cases env userid newpassword st with ⟨sql, h, -⟩ | ⟨sql, h, -⟩
  · rw [h]
    exact Extends.refl _
  · rw [h]
    exact extends_modifyById ..

theorem extends_makeFriendRelationship (smallid greatid : Int) (st : Store) :
    Extends st.users (makeFriendRelationship env smallid greatid st).2.users := by
  rcases makeFriendRelationship_cases env smallid greatid st with ⟨h, -⟩ | ⟨-, sql, h, -⟩
  · rw [h]
    exact Extends.refl _
  · rw [h]
    show Extends _ (linked smallid greatid st.users)
    unfold linked
    split_ifs
    · exact (extends_modifyById ..).trans (extends_modifyById ..)
    · exact extends_modifyById ..
    · exact Extends.refl _

theorem extends_deleteFriendToUser (userid friendid : Int) (st : Store) :
    Extends st.users (deleteFriendToUser env userid friendid st).2.users := by
  rcases deleteFriendToUser_cases env userid friendid st with ⟨h, -⟩ | ⟨sql, h, -⟩
  · rw [h]
    exact Extends.refl _
  · rw [h]
    exact (extends_modifyById ..).trans (extends_modifyById ..)

/-- `GetChatHistory` sends a query and leaves the store. -/
theorem snd_getChatHistory (userid targetid limit : Int) (st : Store) :
    (getChatHistory env userid targetid limit st).2 = ⟨⟨st.sql.db, st.sql.sent + 1⟩, st.users⟩ := by
  unfold getChatHistory
  rcases hquery : MySql.query env (historyQuery userid targetid limit) st.sql with ⟨_ | result, sql⟩ <;>
    exact congrArg (Store.mk · st.users) (congrArg Prod.snd hquery).symm

theorem extends_getChatHistory (userid targetid limit : Int) (st : Store) :
    Extends st.users (getChatHistory env userid targetid limit st).2.users := by
  rw [snd_getChatHistory]
  exact Extends.refl _

end UserManager

end AimChat
