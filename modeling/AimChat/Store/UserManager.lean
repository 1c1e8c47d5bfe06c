import AimChat.Store.MySqlManager
import AimChat.Proto.Im

/-! # The user store

`User` and `UserManager`: the records of users and groups, shared between the list `m_cachedUsers`
and the map `m_mapUsers` (and the sessions, see `AimChat.Server`), and the statements that keep
`t_user`, `t_user_relationship` and `t_chatmsg` in step with them. A `UserPtr` is a `shared_ptr` to a
record on the heap. -/

namespace AimChat

open Sql

/-- The members of `User` the server reads; a new one has the constructor's values. -/
structure User where
  userid : Int := -1
  username : Bytes := []
  nickname : Bytes := []
  password : Bytes := []
  facetype : Int := -1
  customface : Bytes := []
  gender : Int := -1
  birthday : Int := -1
  signature : Bytes := []
  address : Bytes := []
  phonenumber : Bytes := []
  mail : Bytes := []
  status : Int := 0
  ownerid : Int := -1
  friends : OrdSet Int := ∅

/-- `std::shared_ptr<User>`, never null: the place of the record on the heap. -/
abbrev UserPtr := Nat

/-- `UserManager`, with the heap its records are on. A record in the map is in the list, under its own
id; the list holds no record twice and only records that have been made. -/
structure UserManager where
  /-- The record a pointer points at. -/
  heap : UserPtr → User
  /-- Where `make_shared` puts the next record. -/
  fresh : UserPtr
  /-- `m_cachedUsers` -/
  cachedUsers : List UserPtr
  /-- `m_mapUsers` -/
  mapUsers : OrdMap Int UserPtr
  /-- `m_baseUserID` -/
  baseUserID : Int
  /-- `m_baseGroupID` -/
  baseGroupID : Int
  cached_lt : ∀ p ∈ cachedUsers, p < fresh
  cached_nodup : cachedUsers.Nodup
  mapped : ∀ {id p}, mapUsers.get? id = some p → p ∈ cachedUsers ∧ (heap p).userid = id

/-- The user store: the manager and its database connection. -/
structure Store where
  sql : MySql
  users : UserManager

/-- `EscapeSqlString`: every quote doubled. -/
def escapeSqlString (s : Bytes) : Bytes := s.flatMap fun c => if c = 39 then [39, 39] else [c]

/-- `'" << EscapeSqlString(s) << "'` -/
def quoted (s : Bytes) : Literal := .quoted (escapeSqlString s)

/-- Escaping brings in no NUL and takes none away. -/
theorem zero_mem_escapeSqlString {s : Bytes} : 0 ∈ escapeSqlString s ↔ 0 ∈ s := by
  rw [escapeSqlString, List.mem_flatMap]
  constructor
  · rintro ⟨c, hc, hmem⟩
    split_ifs at hmem
    · exact absurd hmem (by decide)
    · exact List.mem_singleton.1 hmem ▸ hc
  · intro h
    exact ⟨0, h, by rw [if_neg (by decide)]; exact List.mem_singleton_self _⟩

namespace UserManager

/-- A `UserManager` as its members are initialised. -/
def new : UserManager where
  heap := fun _ => {}
  fresh := 0
  cachedUsers := []
  mapUsers := ∅
  baseUserID := 0
  baseGroupID := 0xFFFFFFF
  cached_lt := by simp
  cached_nodup := List.nodup_nil
  mapped := by simp

/-- Change the record a pointer points at, its `userid` excepted. -/
def modify (p : UserPtr) (f : User → User) (hf : ∀ u, (f u).userid = u.userid)
    (um : UserManager) : UserManager :=
  { um with
    heap := fun q => if q = p then f (um.heap q) else um.heap q
    mapped := fun h => by
      obtain ⟨hmem, hid⟩ := um.mapped h
      refine ⟨hmem, ?_⟩
      split_ifs
      · rw [hf, hid]
      · exact hid }

/-- Put a new record into both indexes: `make_shared`, `m_cachedUsers.push_back`, `m_mapUsers[id] =`. -/
def share (u : User) (um : UserManager) : UserManager :=
  { um with
    heap := fun q => if q = um.fresh then u else um.heap q
    fresh := um.fresh + 1
    cachedUsers := um.cachedUsers ++ [um.fresh]
    mapUsers := um.mapUsers.set u.userid um.fresh
    cached_lt := by
      intro p hp
      rcases List.mem_append.1 hp with hp | hp
      · exact Nat.lt_succ_of_lt (um.cached_lt p hp)
      · rw [List.mem_singleton.1 hp]
        exact Nat.lt_succ_self _
    cached_nodup := by
      refine List.nodup_append.2 ⟨um.cached_nodup, List.nodup_singleton _, ?_⟩
      intro p hp q hq
      rw [List.mem_singleton.1 hq]
      exact Nat.ne_of_lt (um.cached_lt p hp)
    mapped := by
      intro id p h
      rw [OrdMap.get?_set] at h
      split_ifs at h with hid
      · cases h
        exact ⟨List.mem_append_right _ (List.mem_singleton_self _), by rw [if_pos rfl, hid]⟩
      · obtain ⟨hmem, hid'⟩ := um.mapped h
        have hne : p ≠ um.fresh := Nat.ne_of_lt (um.cached_lt p hmem)
        exact ⟨List.mem_append_left _ hmem, by rw [if_neg hne, hid']⟩ }

/-- Change the record `m_mapUsers` holds under an id, if there is one. -/
def modifyById (userid : Int) (f : User → User) (hf : ∀ u, (f u).userid = u.userid)
    (um : UserManager) : UserManager :=
  match um.mapUsers.get? userid with
  | none => um
  | some p => um.modify p f hf

/-! ## Reading -/

/-- `GetUserInfoUsername(name, user)`: the first record of that name in `m_cachedUsers`; the caller's
`user` is assigned only then. -/
def getUserInfoUsername (name : Bytes) (um : UserManager) : Option UserPtr :=
  um.cachedUsers.find? fun p => (um.heap p).username = name

/-- `GetFriendInfoByUserID(userid, friends)`: the records of the friends that exist, `none` when it
returns false. -/
def getFriendInfoByUserID (userid : Int) (um : UserManager) : Option (List UserPtr) :=
  (um.mapUsers.get? userid).map fun p => (um.heap p).friends.keys.filterMap um.mapUsers.get?

/-- `GetUserByID(userid)` -/
def getUserByID (userid : Int) (um : UserManager) : Option UserPtr := um.mapUsers.get? userid

/-- What `OnLoginResponse` decides on a parsed request: the code of its answer, and the record
`GetUserInfoUsername` found, which it assigns to the session's `m_user` before the password is looked
at. -/
def checkLogin (username password : Bytes) (um : UserManager) : Int × Option UserPtr :=
  if username = [] ∨ password = [] then (102, none)
  else
    match um.getUserInfoUsername username with
    | none => (103, none)
    | some p => if password ≠ (um.heap p).password then (104, some p) else (0, some p)

variable (env : SqlEnv)

/-! ## Loading -/

/-- `LoadUserFromDB`'s query. -/
def userQuery : Select where
  exprs := [.col "f_user_id", .col "f_username", .col "f_nickname", .col "f_password",
    .col "f_facetype", .col "f_customface", .col "f_gender", .col "f_birthday",
    .col "f_signature", .col "f_address", .col "f_phonenumber", .col "f_mail"]
  table := "t_user"
  orderDesc := some "f_user_id"

/-- The record `LoadUserFromDB` makes of a row. -/
def userOfRow (pRow : List Value) : User where
  userid := Field.toInt32 (column pRow 0)
  username := Field.getString (column pRow 1)
  nickname := Field.getString (column pRow 2)
  password := Field.getString (column pRow 3)
  facetype := Field.toInt32 (column pRow 4)
  customface := Field.getString (column pRow 5)
  gender := Field.toInt32 (column pRow 6)
  birthday := Field.toInt32 (column pRow 7)
  signature := Field.getString (column pRow 8)
  address := Field.getString (column pRow 9)
  phonenumber := Field.getString (column pRow 10)
  mail := Field.getString (column pRow 11)

/-- One row of `LoadUserFromDB`. -/
def loadUser (um : UserManager) (pRow : List Value) : UserManager :=
  let u := userOfRow pRow
  let um := um.share u
  let um :=
    if u.userid < 0xFFFFFFF ∧ u.userid > um.baseUserID then { um with baseUserID := u.userid } else um
  -- the boundary itself is a group's id, but the counter starts there already
  if u.userid ≥ 0xFFFFFFF ∧ u.userid > um.baseGroupID then { um with baseGroupID := u.userid } else um

/-- `LoadUserFromDB()` -/
def loadUserFromDB (st : Store) : Bool × Store :=
  match MySql.query env userQuery st.sql with
  | (none, sql) => (false, ⟨sql, st.users⟩)
  | (some result, sql) => (true, ⟨sql, result.forEachRow loadUser st.users⟩)

/-- `LoadRelationshipFromDB`'s query. -/
def relationshipQuery (userid : Int) : Select where
  exprs := [.col "f_user_id1", .col "f_user_id2"]
  table := "t_user_relationship"
  cond := some (.or (.eq "f_user_id1" userid) (.eq "f_user_id2" userid))

/-- One row of `LoadRelationshipFromDB`. -/
def loadFriend (userid : Int) (friends : OrdSet Int) (pRow : List Value) : OrdSet Int :=
  let friendid1 := Field.toInt32 (column pRow 0)
  let friendid2 := Field.toInt32 (column pRow 1)
  if friendid1 = userid then friends.add friendid2
  else if friendid2 = userid then friends.add friendid1
  else friends

/-- `LoadRelationshipFromDB(userid, friends)` -/
def loadRelationshipFromDB (userid : Int) (friends : OrdSet Int) (sql : MySql) :
    Bool × OrdSet Int × MySql :=
  match MySql.query env (relationshipQuery userid) sql with
  | (none, sql) => (false, friends, sql)
  | (some result, sql) => (true, result.forEachRow (loadFriend userid) friends, sql)

/-- The relationships of one record in `init`; a failure is only printed. -/
def loadFriendsOf (st : Store) (p : UserPtr) : Store :=
  let (_, friends, sql) :=
    loadRelationshipFromDB env (st.users.heap p).userid (st.users.heap p).friends st.sql
  ⟨sql, st.users.modify p (fun u => { u with friends := friends }) fun _ => rfl⟩

/-- `init()` -/
def init (st : Store) : Bool × Store :=
  match loadUserFromDB env st with
  | (false, st) => (false, st)
  | (true, st) => (true, st.users.cachedUsers.foldl (loadFriendsOf env) st)

/-! ## Users and groups -/

/-- The next id: `++` on an `int32_t`. -/
def nextId (base : Int) : Int := wrap32 (base + 1)

/-- `m_baseUserID++` -/
def takeUserID (um : UserManager) : UserManager := { um with baseUserID := nextId um.baseUserID }

/-- `m_baseGroupID++` -/
def takeGroupID (um : UserManager) : UserManager := { um with baseGroupID := nextId um.baseGroupID }

/-- The statement of `AddUser`. -/
def addUserStmt (userid : Int) (user : User) : Stmt :=
  .insert "t_user" [("f_user_id", .int userid), ("f_username", quoted user.username),
    ("f_nickname", quoted user.nickname), ("f_password", quoted user.password),
    ("f_mail", quoted user.mail), ("f_register_time", .now)]

/-- The record `AddUser` makes of the caller's. -/
def addedUser (userid : Int) (user : User) : User :=
  { user with userid := userid, facetype := 0, birthday := 20000101, gender := 0, ownerid := 0 }

/-- `AddUser(user)`, given `Execute(sql)`. -/
def addUserBy (execute : Stmt → MySql → Bool × MySql) (user : User) (st : Store) : Bool × Store :=
  -- the counter moves on whether the INSERT succeeds or not
  let users := st.users.takeUserID
  match execute (addUserStmt users.baseUserID user) st.sql with
  | (false, sql) => (false, ⟨sql, users⟩)
  | (true, sql) => (true, ⟨sql, users.share (addedUser users.baseUserID user)⟩)

/-- `AddUser(user)` -/
def addUser (user : User) (st : Store) : Bool × Store := addUserBy (MySql.execute env) user st

/-- The statement of `AddGroup`. -/
def addGroupStmt (groupid : Int) (groupname : Bytes) (ownerid : Int) : Stmt :=
  .insert "t_user" [("f_user_id", .int groupid), ("f_username", quoted groupname),
    ("f_nickname", quoted groupname), ("f_password", .quoted []), ("f_owner_id", .int ownerid),
    ("f_register_time", .now)]

/-- The record `AddGroup` makes: the group as a special user. -/
def addedGroup (groupid : Int) (groupname : Bytes) (ownerid : Int) : User :=
  { userid := groupid, username := groupname, nickname := groupname, ownerid := ownerid,
    facetype := 0, gender := 0, birthday := 20000101 }

/-- `AddGroup(groupname, ownerid, groupid)`, given `Execute(sql)`; the id is written back whatever happens, and
the name is a C string. -/
def addGroupBy (execute : Stmt → MySql → Bool × MySql) (groupname : Bytes) (ownerid : Int) (st : Store) :
    Bool × Int × Store :=
  -- the counter moves on whether the INSERT succeeds or not
  let users := st.users.takeGroupID
  let groupid := users.baseGroupID
  match execute (addGroupStmt groupid (cStr groupname) ownerid) st.sql with
  | (false, sql) => (false, groupid, ⟨sql, users⟩)
  | (true, sql) => (true, groupid, ⟨sql, users.share (addedGroup groupid (cStr groupname) ownerid)⟩)

/-- `AddGroup(groupname, ownerid, groupid)` -/
def addGroup (groupname : Bytes) (ownerid : Int) (st : Store) : Bool × Int × Store :=
  addGroupBy (MySql.execute env) groupname ownerid st

/-- The nine members `UpdateUserInfo` copies. -/
def copyProfile (newuserinfo u : User) : User :=
  { u with
    nickname := newuserinfo.nickname
    facetype := newuserinfo.facetype
    customface := newuserinfo.customface
    gender := newuserinfo.gender
    birthday := newuserinfo.birthday
    signature := newuserinfo.signature
    address := newuserinfo.address
    phonenumber := newuserinfo.phonenumber
    mail := newuserinfo.mail }

/-- The statement of `UpdateUserInfo`. -/
def updateUserInfoStmt (userid : Int) (newuserinfo : User) : Stmt :=
  .update "t_user" [("f_nickname", quoted newuserinfo.nickname),
    ("f_facetype", .int newuserinfo.facetype), ("f_customface", quoted newuserinfo.customface),
    ("f_gender", .int newuserinfo.gender), ("f_birthday", .int newuserinfo.birthday),
    ("f_signature", quoted newuserinfo.signature), ("f_address", quoted newuserinfo.address),
    ("f_phonenumber", quoted newuserinfo.phonenumber), ("f_mail", quoted newuserinfo.mail)]
    (.eq "f_user_id" userid)

/-- `UpdateUserInfo(userid, newuserinfo)`, given `Execute(sql)`. -/
def updateUserInfoBy (execute : Stmt → MySql → Bool × MySql) (userid : Int) (newuserinfo : User) (st : Store) :
    Bool × Store :=
  match execute (updateUserInfoStmt userid newuserinfo) st.sql with
  | (false, sql) => (false, ⟨sql, st.users⟩)
  | (true, sql) =>
      (true, ⟨sql, st.users.modifyById userid (copyProfile newuserinfo) fun _ => rfl⟩)

/-- `UpdateUserInfo(userid, newuserinfo)` -/
def updateUserInfo (userid : Int) (newuserinfo : User) (st : Store) : Bool × Store :=
  updateUserInfoBy (MySql.execute env) userid newuserinfo st

/-- The record with another password. -/
def withPassword (newpassword : Bytes) (u : User) : User := { u with password := newpassword }

/-- The statement of `ModifyUserPassword`. -/
def modifyUserPasswordStmt (userid : Int) (newpassword : Bytes) : Stmt :=
  .update "t_user" [("f_password", quoted newpassword)] (.eq "f_user_id" userid)

/-- `ModifyUserPassword(userid, newpassword)`, given `Execute(sql)`. -/
def modifyUserPasswordBy (execute : Stmt → MySql → Bool × MySql) (userid : Int) (newpassword : Bytes) (st : Store) :
    Bool × Store :=
  match execute (modifyUserPasswordStmt userid newpassword) st.sql with
  | (false, sql) => (false, ⟨sql, st.users⟩)
  | (true, sql) =>
      (true, ⟨sql, st.users.modifyById userid (withPassword newpassword) fun _ => rfl⟩)

/-- `ModifyUserPassword(userid, newpassword)` -/
def modifyUserPassword (userid : Int) (newpassword : Bytes) (st : Store) : Bool × Store :=
  modifyUserPasswordBy (MySql.execute env) userid newpassword st

/-! ## Relationships -/

/-- Add to the friends of the record under an id. -/
def addFriend (userid friendid : Int) (um : UserManager) : UserManager :=
  um.modifyById userid (fun u => { u with friends := u.friends.add friendid }) fun _ => rfl

/-- Take from the friends of the record under an id. -/
def removeFriend (userid friendid : Int) (um : UserManager) : UserManager :=
  um.modifyById userid (fun u => { u with friends := u.friends.remove friendid }) fun _ => rfl

/-- The statement of `MakeFriendRelationship`. -/
def makeFriendStmt (smallid greatid : Int) : Stmt :=
  .insert "t_user_relationship" [("f_user_id1", .int smallid), ("f_user_id2", .int greatid)]

/-- `MakeFriendRelationship(smallid, greatid)` -/
def makeFriendRelationship (smallid greatid : Int) (st : Store) : Bool × Store :=
  if smallid ≥ greatid then (false, st)
  else
    match MySql.execute env (makeFriendStmt smallid greatid) st.sql with
    | (false, sql) => (false, ⟨sql, st.users⟩)
    | (true, sql) =>
        -- the row is there now, and stays when a record is missing
        match st.users.mapUsers.get? smallid with
        | none => (false, ⟨sql, st.users⟩)
        | some _ =>
            let users := st.users.addFriend smallid greatid
            match users.mapUsers.get? greatid with
            | none => (false, ⟨sql, users⟩)
            | some _ => (true, ⟨sql, users.addFriend greatid smallid⟩)

/-- The statement of `ReleaseFriendRelationship` and `DeleteFriendToUser`. -/
def deleteFriendStmt (smallid greatid : Int) : Stmt :=
  .delete "t_user_relationship" (.and (.eq "f_user_id1" smallid) (.eq "f_user_id2" greatid))

/-- `ReleaseFriendRelationship(smallid, greatid)` -/
def releaseFriendRelationship (smallid greatid : Int) (st : Store) : Bool × Store :=
  if smallid ≥ greatid then (false, st)
  else
    match MySql.execute env (deleteFriendStmt smallid greatid) st.sql with
    | (false, sql) => (false, ⟨sql, st.users⟩)
    | (true, sql) =>
        (true, ⟨sql, (st.users.removeFriend smallid greatid).removeFriend greatid smallid⟩)

/-- `DeleteFriendToUser(userid, friendid)` -/
def deleteFriendToUser (userid friendid : Int) (st : Store) : Bool × Store :=
  -- no early return for equal ids, other than in ReleaseFriendRelationship
  let smallid := if userid < friendid then userid else friendid
  let greatid := if userid < friendid then friendid else userid
  match MySql.execute env (deleteFriendStmt smallid greatid) st.sql with
  | (false, sql) => (false, ⟨sql, st.users⟩)
  | (true, sql) =>
      (true, ⟨sql, (st.users.removeFriend userid friendid).removeFriend friendid userid⟩)

/-! ## Chat messages -/

/-- The statement of `SaveChatMsgToDb`. -/
def saveChatMsgStmt (senderid targetid : Int) (chatmsg : Bytes) : Stmt :=
  .insert "t_chatmsg" [("f_senderid", .int senderid), ("f_targetid", .int targetid),
    ("f_msgcontent", quoted chatmsg), ("f_createtime", .now)]

/-- `SaveChatMsgToDb(senderid, targetid, chatmsg)` -/
def saveChatMsgToDb (senderid targetid : Int) (chatmsg : Bytes) (st : Store) : Bool × Store :=
  let (saved, sql) := MySql.execute env (saveChatMsgStmt senderid targetid chatmsg) st.sql
  (saved, ⟨sql, st.users⟩)

/-- `GetChatHistory`'s query: all messages to a group, or those between two users in both
directions. -/
def historyQuery (userid targetid limit : Int) : Select where
  exprs := [.col "f_senderid", .col "f_targetid", .col "f_msgcontent", .unixTimestamp "f_createtime"]
  table := "t_chatmsg"
  cond :=
    if targetid ≥ 0xFFFFFFF then some (.eq "f_targetid" targetid)
    else some (.or (.and (.eq "f_senderid" userid) (.eq "f_targetid" targetid))
      (.and (.eq "f_senderid" targetid) (.eq "f_targetid" userid)))
  orderDesc := some "f_createtime"
  limit := some limit

/-- The `ChatMsg` `GetChatHistory` makes of a row. -/
def chatMsgOfRow (pRow : List Value) : ChatMsg where
  senderid := Field.toInt32 (column pRow 0)
  targetid := Field.toInt32 (column pRow 1)
  content := Field.getString (column pRow 2)
  timestamp := Field.toInt64 (column pRow 3)

/-- `GetChatHistory(userid, targetid, messages, limit)`; `none` when it returns false. -/
def getChatHistory (userid targetid limit : Int) (st : Store) : Option (List ChatMsg) × Store :=
  match MySql.query env (historyQuery userid targetid limit) st.sql with
  | (none, sql) => (none, ⟨sql, st.users⟩)
  | (some result, sql) =>
      (some (result.forEachRow (fun messages pRow => messages ++ [chatMsgOfRow pRow]) []),
        ⟨sql, st.users⟩)

/-- The connection after `Init` created the tables of an empty database. -/
def freshTables : MySql := (MySqlManager.init SqlEnv.ideal ⟨Db.empty, 0⟩).2

theorem freshTables_eq : freshTables = ⟨MySqlManager.freshDb, 6⟩ := by
  rw [freshTables, MySqlManager.init_empty]

/-- The server started on fresh tables. -/
def freshStore : Store := (init SqlEnv.ideal ⟨freshTables, new⟩).2

theorem init_fresh : init SqlEnv.ideal ⟨freshTables, new⟩ = (true, ⟨⟨MySqlManager.freshDb, 7⟩, new⟩) := by
  rw [freshTables_eq]
  rfl

theorem freshStore_eq : freshStore = ⟨⟨MySqlManager.freshDb, 7⟩, new⟩ := by
  rw [freshStore, init_fresh]

end UserManager

end AimChat
