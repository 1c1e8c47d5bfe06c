import AimChat.Store.Relationship
import AimChat.Store.UserTable

/-! # Memory and tables in step

Over operations whose statements are carried out and store what they name (`CarriedOut`), memory and the
tables stay in step in all that `t_user` keeps of a record, and in the relationships (`Mirrored`). -/

namespace AimChat

open Sql

namespace UserManager

/-! ## Operations that are carried out -/

/-- The texts an operation writes. -/
def StoreOp.texts : StoreOp → List Bytes
  | .addUser username nickname password mail => [username, nickname, password, mail]
  | .addGroup groupname _ => [cStr groupname]
  | .updateUserInfo _ info =>
      [info.nickname, info.customface, info.signature, info.address, info.phonenumber, info.mail]
  | .modifyUserPassword _ newpassword => [newpassword]
  | _ => []

/-- The arguments an operation may have: numbers are `int32_t`, friends are made between ids that exist;
and it is no restart. -/
def StoreOp.Allowed (um : UserManager) : StoreOp → Prop
  | .updateUserInfo _ info => IsInt32 info.facetype ∧ IsInt32 info.gender ∧ IsInt32 info.birthday
  | .makeFriendRelationship smallid greatid =>
      (∃ u, um.record smallid = some u) ∧ ∃ u, um.record greatid = some u
  | .restart => False
  | _ => True

/-- An allowed operation whose statement succeeds and stores exactly the values it names. -/
structure CarriedOut (env : SqlEnv) (st : Store) (op : StoreOp) : Prop where
  allowed : op.Allowed st.users
  succeeds : ∀ stmt ∈ op.stmt st.users, (MySql.execute env stmt st.sql).1 = true
  asIs : ∀ s ∈ op.texts, StoredAsIs s

variable {env : SqlEnv} {st st' : Store}

/-- A restart is no operation that is carried out. -/
theorem CarriedOut.ne_restart {op : StoreOp} (h : CarriedOut env st op) : op ≠ .restart := by
  rintro rfl
  exact h.allowed

/-- A statement that succeeds did not fail. -/
theorem not_execute_false {stmt : Stmt} {m sql : MySql}
    (h : (MySql.execute env stmt m).1 = true) : MySql.execute env stmt m ≠ (false, sql) := by
  intro heq
  rw [heq] at h
  cases h

/-! ## Memory and table in step -/

/-- What both memory and `t_user` keep of a record, whatever made it. -/
def lasting (u : User) : User := { u with birthday := 0, status := 0, ownerid := 0, friends := ∅ }

/-- What an operation that is carried out does to the records in memory and in the table. -/
inductive RecordsStep (env : SqlEnv) (op : StoreOp) (st st' : Store) : Prop
  | create (n : Int) (u w : User) (hcreates : Creates env st n op) (hnone : stored st.sql.db n = none)
      (hrecord : ∀ id, st'.users.record id = if id = n then some u else st.users.record id)
      (hstored : ∀ id, stored st'.sql.db id = if id = n then some w else stored st.sql.db id)
      (hlasting : lasting w = lasting u) (hbirthday : u.birthday ≠ w.birthday)
      (hop : (∃ username nickname password mail, op = .addUser username nickname password mail ∧
          u.ownerid = 0) ∨
        ∃ groupname, op = .addGroup groupname u.ownerid ∧ st'.users.baseGroupID = n)
  | profile (n : Int) (info : User) (hop : op = .updateUserInfo n info)
      (hrecord : ∀ id, st'.users.record id =
        if id = n then (st.users.record id).map (copyProfile info) else st.users.record id)
      (hstored : ∀ id, stored st'.sql.db id =
        if id = n then (stored st.sql.db id).map (copyProfile info) else stored st.sql.db id)
      (hbase : st'.users.baseGroupID = st.users.baseGroupID)
  | password (n : Int) (newpassword : Bytes) (hop : op = .modifyUserPassword n newpassword)
      (hrecord : ∀ id, st'.users.record id =
        if id = n then (st.users.record id).map (withPassword newpassword)
        else st.users.record id)
      (hstored : ∀ id, stored st'.sql.db id =
        if id = n then (stored st.sql.db id).map (withPassword newpassword)
        else stored st.sql.db id)
      (hbase : st'.users.baseGroupID = st.users.baseGroupID)
  | friends
      (hop : (∃ smallid greatid, op = .makeFriendRelationship smallid greatid) ∨
        (∃ smallid greatid, op = .releaseFriendRelationship smallid greatid) ∨
        ∃ userid friendid, op = .deleteFriendToUser userid friendid)
      (hrecord : ∀ id, (st'.users.record id).map clearFriends =
        (st.users.record id).map clearFriends)
      (hstored : stored st'.sql.db = stored st.sql.db)
      (hbase : st'.users.baseGroupID = st.users.baseGroupID)

/-- Changing friends changes nothing else of a record. -/
theorem clearFriends_modifyById {id : Int} {f : User → User} {hf : ∀ u, (f u).userid = u.userid}
    (hclear : ∀ u, clearFriends (f u) = clearFriends u) (um : UserManager) (id' : Int) :
    ((um.modifyById id f hf).record id').map clearFriends = (um.record id').map clearFriends := by
  rw [record_modifyById]
  split_ifs
  · rw [Option.map_map]
    exact congrArg (fun g => (um.record id').map g) (funext hclear)
  · rfl

theorem clearFriends_addFriend (id friendid : Int) (um : UserManager) (id' : Int) :
    ((um.addFriend id friendid).record id').map clearFriends = (um.record id').map clearFriends :=
  clearFriends_modifyById (f := fun u => { u with friends := u.friends.add friendid })
    (fun _ => rfl) um id'

theorem clearFriends_removeFriend (id friendid : Int) (um : UserManager) (id' : Int) :
    ((um.removeFriend id friendid).record id').map clearFriends =
      (um.record id').map clearFriends :=
  clearFriends_modifyById (f := fun u => { u with friends := u.friends.remove friendid })
    (fun _ => rfl) um id'

/-- Changing records creates no group. -/
theorem baseGroupID_modifyById (id : Int) (f : User → User) (hf : ∀ u, (f u).userid = u.userid)
    (um : UserManager) : (um.modifyById id f hf).baseGroupID = um.baseGroupID := by
  unfold modifyById
  split <;> rfl

/-- Making friends changes nothing but friends. -/
theorem linked_frame (smallid greatid : Int) (um : UserManager) :
    (∀ id, ((linked smallid greatid um).record id).map clearFriends =
        (um.record id).map clearFriends) ∧
      (linked smallid greatid um).baseGroupID = um.baseGroupID := by
  unfold linked
  split_ifs
  · refine ⟨fun id => ?_, ?_⟩
    · rw [clearFriends_addFriend, clearFriends_addFriend]
    · rw [addFriend, baseGroupID_modifyById, addFriend, baseGroupID_modifyById]
  · exact ⟨fun id => clearFriends_addFriend .., baseGroupID_modifyById ..⟩
  · exact ⟨fun _ => rfl, rfl⟩

/-- Neither does releasing them. -/
theorem unlinked_frame (userid friendid : Int) (um : UserManager) :
    (∀ id, ((unlinked userid friendid um).record id).map clearFriends =
        (um.record id).map clearFriends) ∧
      (unlinked userid friendid um).baseGroupID = um.baseGroupID := by
  unfold unlinked
  refine ⟨fun id => ?_, ?_⟩
  · rw [clearFriends_removeFriend, clearFriends_removeFriend]
  · rw [removeFriend, baseGroupID_modifyById, removeFriend, baseGroupID_modifyById]

/-- **One operation, in memory and in the table.** -/
theorem records_step {op : StoreOp} (htable : UserTable st.sql.db) (hcarried : CarriedOut env st op)
    (h : step env st op = .ok st') : RecordsStep env op st st' := by
  have hop := hcarried.ne_restart
  obtain ⟨hallowed, hsucceeds, hasIs⟩ := hcarried
  have hne : "t_user" ≠ "t_user_relationship" := by decide
  -- AddUser and AddGroup set one birthday in memory, and the table's default is another
  have hbirthday : (20000101 : Int) ≠ 19900101 := by decide
  cases operated env hop h with
  | failed op hstmt hfalse => exact absurd hfalse (not_execute_false (hsucceeds _ hstmt))
  | idle op hfriends hdb => exact .friends hfriends.cases (fun id => rfl) (by rw [hdb]) rfl
  | addUser username nickname password mail hexec =>
      obtain ⟨-, hnone, hstored⟩ := htable.addUser (MySql.db_exec_of_execute hexec)
        (isInt32_wrap32 _) hasIs
      refine .create _ _ _ ⟨?_, rfl⟩ hnone (record_share _ _) hstored rfl hbirthday
        (Or.inl ⟨_, _, _, _, rfl, rfl⟩)
      rw [fst_addUser, hexec]
  | addGroup groupname ownerid hexec =>
      obtain ⟨-, hnone, hstored⟩ := htable.addGroup (MySql.db_exec_of_execute hexec)
        (isInt32_wrap32 _) (hasIs _ (List.mem_singleton_self _))
      refine .create _ _ _ ⟨?_, rfl⟩ hnone (record_share _ _) hstored rfl hbirthday
        (Or.inr ⟨_, rfl, rfl⟩)
      rw [fst_addGroup, hexec]
  | updateUserInfo userid info hexec =>
      obtain ⟨-, hstored⟩ := htable.updateUserInfo (MySql.db_exec_of_execute hexec) hasIs hallowed
      exact .profile userid info rfl (record_modifyById _ _ _ _) hstored (baseGroupID_modifyById ..)
  | modifyUserPassword userid newpassword hexec =>
      obtain ⟨-, hstored⟩ := htable.modifyUserPassword (MySql.db_exec_of_execute hexec)
        (hasIs _ (List.mem_singleton_self _))
      exact .password userid newpassword rfl (record_modifyById _ _ _ _) hstored (baseGroupID_modifyById ..)
  | linked smallid greatid hlt hexec =>
      obtain ⟨hrecord, hbase⟩ := linked_frame smallid greatid st.users
      have hstored := (htable.of_other (MySql.db_exec_of_execute hexec) hne).2
      exact .friends (Or.inl ⟨_, _, rfl⟩) hrecord hstored hbase
  | unlinked op hfriends x y hexec =>
      obtain ⟨hrecord, hbase⟩ := unlinked_frame x y st.users
      have hstored := (htable.of_other (MySql.db_exec_of_execute hexec) hne).2
      exact .friends hfriends.cases hrecord hstored hbase

/-- A statement about another table leaves the relationships. -/
theorem RelationshipTable.of_other {now : Int} {stmt : Stmt} {db db' : Db}
    (h : RelationshipTable db) (hexec : db.exec now stmt = some db')
    (hne : "t_user_relationship" ≠ stmt.table) : RelationshipTable db' := by
  refine ⟨?_, ?_⟩
  · rw [Db.exec_other hexec hne]
    exact h.table
  · rw [Db.rows_exec_other hexec hne]
    exact h.int32

/-- A relationship of two `int32_t` ids keeps the table of relationships in order. -/
theorem RelationshipTable.makeFriend {now smallid greatid : Int} {db db' : Db}
    (h : RelationshipTable db) (hexec : db.exec now (makeFriendStmt smallid greatid) = some db')
    (hsmall : IsInt32 smallid) (hgreat : IsInt32 greatid) : RelationshipTable db' := by
  obtain ⟨t, named, ht, hnamed, -, -, rfl⟩ := Db.exec_insert hexec
  obtain ⟨t', ht', hcol1, hcol2⟩ := h.table
  rw [ht] at ht'
  cases ht'
  have hrows : db.rows "t_user_relationship" = t.rows := Db.rows_of_table ht
  refine ⟨⟨_, rfl, hcol1, hcol2⟩, ?_⟩
  intro r hr
  rw [Db.rows_set, if_pos rfl] at hr
  rcases List.mem_append.1 hr with hr | hr
  · exact h.int32 r (by rw [hrows]; exact hr)
  · rw [List.mem_singleton.1 hr]
    cases hnamed
    exact ⟨smallid, greatid, rfl, rfl, hsmall, hgreat⟩

/-- Deleting relationships keeps it so. -/
theorem RelationshipTable.deleteFriend {now smallid greatid : Int} {db db' : Db}
    (h : RelationshipTable db)
    (hexec : db.exec now (deleteFriendStmt smallid greatid) = some db') : RelationshipTable db' := by
  obtain ⟨t, ht, rfl⟩ := Db.exec_delete hexec
  obtain ⟨t', ht', hcol1, hcol2⟩ := h.table
  rw [ht] at ht'
  cases ht'
  have hrows : db.rows "t_user_relationship" = t.rows := Db.rows_of_table ht
  refine ⟨⟨_, rfl, hcol1, hcol2⟩, ?_⟩
  intro r hr
  rw [Db.rows_set, if_pos rfl] at hr
  exact h.int32 r (by rw [hrows]; exact List.mem_of_mem_filter hr)

/-- Memory and tables are in step: both tables are in order, the three copies of the relationships agree
and name only ids that exist, and `t_user` holds what lasts of every record. -/
structure Mirrored (st : Store) : Prop where
  users : UserTable st.sql.db
  links : RelationshipTable st.sql.db
  agree : st.copies.Agree
  closed : st.copies.Closed
  kept : ∀ id, (stored st.sql.db id).map lasting = (st.users.record id).map lasting

/-- The ids in memory are those in the table. -/
theorem Mirrored.here_iff (h : Mirrored st) (id : Int) :
    (∃ u, st.users.record id = some u) ↔ ∃ w, stored st.sql.db id = some w := by
  have hkept := h.kept id
  cases hr : st.users.record id <;> cases hs : stored st.sql.db id <;> rw [hr, hs] at hkept <;>
    simp at hkept ⊢

/-- And they are values of `int32_t`. -/
theorem Mirrored.isInt32 (h : Mirrored st) {id : Int} (hid : ∃ u, st.users.record id = some u) :
    IsInt32 id := by
  obtain ⟨w, hw⟩ := (h.here_iff id).1 hid
  obtain ⟨hmem, rfl⟩ := h.users.stored_eq_some.1 hw
  obtain ⟨r, hr, rfl⟩ := List.mem_map.1 hmem
  obtain ⟨n, hn, hn32⟩ := h.users.ids r hr
  rw [userid_rowUser hn hn32]
  exact hn32

/-- An operation keeps the table of relationships in order, where the ids that are there are values of
`int32_t`. -/
theorem RelationshipTable.step {op : StoreOp} (h : RelationshipTable st.sql.db)
    (hint : ∀ id, (∃ u, st.users.record id = some u) → IsInt32 id) (hcarried : CarriedOut env st op)
    (hstep : UserManager.step env st op = .ok st') : RelationshipTable st'.sql.db := by
  have hne : "t_user_relationship" ≠ "t_user" := by decide
  have hop := hcarried.ne_restart
  cases operated env hop hstep with
  | failed op hstmt hfalse =>
      rw [MySql.db_of_execute_false hfalse]
      exact h
  | idle op hfriends hdb =>
      rw [hdb]
      exact h
  | addUser username nickname password mail hexec =>
      exact h.of_other (MySql.db_exec_of_execute hexec) hne
  | addGroup groupname ownerid hexec => exact h.of_other (MySql.db_exec_of_execute hexec) hne
  | updateUserInfo userid info hexec =>
      exact h.of_other (MySql.db_exec_of_execute hexec) hne
  | modifyUserPassword userid newpassword hexec =>
      exact h.of_other (MySql.db_exec_of_execute hexec) hne
  | linked smallid greatid hlt hexec =>
      exact h.makeFriend (MySql.db_exec_of_execute hexec) (hint _ hcarried.allowed.1)
        (hint _ hcarried.allowed.2)
  | unlinked op hfriends x y hexec => exact h.deleteFriend (MySql.db_exec_of_execute hexec)

/-- A new id names nobody yet: its record and its row are both missing. -/
theorem Mirrored.unnamed_of_creates {op : StoreOp} (h : Mirrored st) (hrecords : RecordsStep env op st st')
    {n : Int} (hn : Creates env st n op) : st.copies.Unnamed n := by
  refine h.closed.unnamed fun hhere => ?_
  cases hrecords with
  | create m u w hcreates hnone =>
      rw [← hn.unique hcreates] at hnone
      obtain ⟨w', hw'⟩ := (h.here_iff n).1 hhere
      rw [hnone] at hw'
      cases hw'
  | profile m info hop => rw [hop] at hn; exact hn
  | password m newpassword hop => rw [hop] at hn; exact hn
  | friends hop =>
      rcases hop with ⟨_, _, hop⟩ | ⟨_, _, hop⟩ | ⟨_, _, hop⟩ <;> rw [hop] at hn <;> exact hn

/-- An operation names ids that are there only. -/
theorem Mirrored.closed_step {op : StoreOp} (h : Mirrored st) (hcarried : CarriedOut env st op)
    (hrestart : op ≠ .restart) (hstep : UserManager.step env st op = .ok st') : st'.copies.Closed := by
  rcases copies_step hrestart hstep with ⟨n, -, heq⟩ | ⟨-, heq | ⟨smallid, greatid, hop, hlt, heq⟩ |
    ⟨x, y, heq⟩⟩ <;> rw [heq]
  · exact h.closed.create n
  · exact h.closed
  · have hallowed := hcarried.allowed
    rw [hop] at hallowed
    exact h.closed.link hlt hallowed.1 hallowed.2
  · exact h.closed.unlink x y

/-- A change of what lasts that depends on what lasts only is the same in both. -/
theorem map_lasting_congr {f : User → User} (hf : ∀ u, lasting (f u) = lasting (f (lasting u)))
    {a b : Option User} (h : a.map lasting = b.map lasting) :
    (a.map f).map lasting = (b.map f).map lasting := by
  have hcomp : ∀ a : Option User, (a.map f).map lasting = (a.map lasting).map (lasting ∘ f) := by
    intro a
    cases a with
    | none => rfl
    | some u => exact congrArg some (hf u)
  rw [hcomp, hcomp, h]

/-- An operation changes what lasts alike in memory and in the table. -/
theorem Mirrored.kept_step {op : StoreOp} (h : Mirrored st) (hrecords : RecordsStep env op st st') (id : Int) :
    (stored st'.sql.db id).map lasting = (st'.users.record id).map lasting := by
  have hkept := h.kept id
  cases hrecords with
  | create n u w hcreates hnone hrecord hstored hlasting =>
      rw [hrecord, hstored]
      split_ifs
      · exact congrArg some hlasting
      · exact hkept
  | profile n info hop hrecord hstored =>
      rw [hrecord, hstored]
      split_ifs
      · exact map_lasting_congr (fun _ => rfl) hkept
      · exact hkept
  | password n newpassword hop hrecord hstored =>
      rw [hrecord, hstored]
      split_ifs
      · exact map_lasting_congr (fun _ => rfl) hkept
      · exact hkept
  | friends hop hrecord hstored =>
      have hclear : ∀ a : Option User, a.map lasting = (a.map clearFriends).map lasting := by
        intro a
        rw [Option.map_map]
        rfl
      rw [hstored, hkept, hclear (st'.users.record id), hrecord, ← hclear]

/-- **One operation keeps memory and tables in step.** -/
theorem Mirrored.step {op : StoreOp} (h : Mirrored st) (hcarried : CarriedOut env st op)
    (hstep : step env st op = .ok st') : Mirrored st' := by
  have hrestart := hcarried.ne_restart
  have hrecords := records_step h.users hcarried hstep
  refine ⟨h.users.step hrestart hstep, h.links.step (fun _ => h.isInt32) hcarried hstep, ?_,
    h.closed_step hcarried hrestart hstep, h.kept_step hrecords⟩
  rw [agree_step_iff hrestart hstep h.agree]
  exact fun n hn => h.unnamed_of_creates hrecords hn

end UserManager

end AimChat
