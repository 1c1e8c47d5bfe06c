import AimChat.Server.ChatDelivery
import AimChat.Server.StoreMoves
import AimChat.Store.UserIds

/-! # The records of the sessions

A login finds its record in `m_cachedUsers` by name. A record with a name has a row in `t_user` and is the one
that `m_mapUsers` has under its id: what a start on an empty table finds behind the result has no name, and
every other record comes with its row. So `m_user` of a session, the list and the map are one record
(`backed_of_run`). A statement that MySQL reads otherwise than it was put together can take the row away; it has
no effect in these runs. -/

namespace AimChat

open Sql ClientSession UserManager

/-- What `Fetch()` points at behind an empty result reads as a row without a username, as cleared fields do. -/
def NamelessCursor (env : SqlEnv) : Prop := ∀ n, ∀ pRow ∈ env.stale n, (userOfRow pRow).username = []

/-- The record is in the list, under its id in the map, and has a row. -/
structure Backed (st : Store) (p : UserPtr) : Prop where
  cached : p ∈ st.users.cachedUsers
  mapped : st.users.mapUsers.get? (st.users.heap p).userid = some p
  row : .int (st.users.heap p).userid ∈ userIds st.sql.db

/-- Every record of the list that has a name is backed. -/
structure NamesBacked (st : Store) : Prop where
  table : IdTable st.sql.db
  backed : ∀ p ∈ st.users.cachedUsers, (st.users.heap p).username ≠ [] → Backed st p

/-- The step keeps the names backed, and the records of the list and their names. -/
def KeepsNames (st st' : Store) : Prop :=
  NamesBacked st → NamesBacked st' ∧ ∀ p ∈ st.users.cachedUsers,
    p ∈ st'.users.cachedUsers ∧ (st'.users.heap p).username = (st.users.heap p).username

/-- Nothing has changed in the list, in the map and in the ids and names of the records. -/
structure SameNames (um um' : UserManager) : Prop where
  cached : um'.cachedUsers = um.cachedUsers
  map : um'.mapUsers = um.mapUsers
  userid : ∀ p, (um'.heap p).userid = (um.heap p).userid
  username : ∀ p, (um'.heap p).username = (um.heap p).username

namespace SameNames

theorem of_sameUsers {um um' : UserManager} (h : SameUsers (fun u => (u.userid, u.username)) um um') :
    SameNames um um' :=
  ⟨h.cached, h.map, fun p => congrArg Prod.fst (h.record p), fun p => congrArg Prod.snd (h.record p)⟩

theorem refl (um : UserManager) : SameNames um um := of_sameUsers (SameUsers.refl um)

theorem modifyById (um : UserManager) (id : Int) (f : User → User) (hf : ∀ u, (f u).userid = u.userid)
    (husername : ∀ u, (f u).username = u.username) : SameNames um (um.modifyById id f hf) :=
  of_sameUsers (SameUsers.modifyById um id f hf fun u => Prod.ext (hf u) (husername u))

theorem modify (um : UserManager) (p : UserPtr) (f : User → User) (hf : ∀ u, (f u).userid = u.userid)
    (husername : ∀ u, (f u).username = u.username) : SameNames um (um.modify p f hf) :=
  of_sameUsers (SameUsers.modify um p f hf fun u => Prod.ext (hf u) (husername u))

theorem trans {um um' um'' : UserManager} (h : SameNames um um') (h' : SameNames um' um'') : SameNames um um'' :=
  ⟨h'.cached.trans h.cached, h'.map.trans h.map, fun p => (h'.userid p).trans (h.userid p),
    fun p => (h'.username p).trans (h.username p)⟩

end SameNames

namespace KeepsNames

variable {st st' : Store}

theorem refl (st : Store) : KeepsNames st st := fun h => ⟨h, fun _ hp => ⟨hp, rfl⟩⟩

theorem trans {st'' : Store} (h : KeepsNames st st') (h' : KeepsNames st' st'') : KeepsNames st st'' := by
  intro hst
  obtain ⟨hst', hkept⟩ := h hst
  obtain ⟨hst'', hkept'⟩ := h' hst'
  refine ⟨hst'', fun p hp => ?_⟩
  obtain ⟨hp', hname⟩ := hkept p hp
  exact ⟨(hkept' p hp').1, (hkept' p hp').2.trans hname⟩

/-- A step that leaves the key of `t_user` and both indexes. -/
theorem of_same (hdb : st'.sql.db = st.sql.db ∨
      ∃ now stmt, st.sql.db.exec now stmt = some st'.sql.db ∧ KeepsKey stmt)
    (husers : SameNames st.users st'.users) : KeepsNames st st' := by
  intro hst
  have htable : IdTable st'.sql.db ∧ userIds st'.sql.db = userIds st.sql.db := by
    rcases hdb with hdb | ⟨now, stmt, hexec, hkeeps⟩
    · rw [hdb]
      exact ⟨hst.table, rfl⟩
    · exact hst.table.keepsKey hexec hkeeps
  refine ⟨⟨htable.1, fun p hp hname => ?_⟩, fun p hp => ⟨by rwa [husers.cached], husers.username p⟩⟩
  rw [husers.cached] at hp
  rw [husers.username] at hname
  have hbacked := hst.backed p hp hname
  refine ⟨by rwa [husers.cached], ?_, ?_⟩
  · rw [husers.map, husers.userid]
    exact hbacked.mapped
  · rw [husers.userid, htable.2]
    exact hbacked.row

/-- A backed record stays backed when a new row and its record come, under an id that no row has. -/
theorem backed_share {um : UserManager} {u : User} (hum : SameNames st.users um) (husers : st'.users = um.share u)
    (hfresh : .int u.userid ∉ userIds st.sql.db) (hids : userIds st'.sql.db = userIds st.sql.db ++ [.int u.userid])
    {p : UserPtr} (hp : Backed st p) : Backed st' p := by
  have hold : st'.users.heap p = um.heap p := by
    rw [husers]
    refine if_neg (Nat.ne_of_lt (um.cached_lt p ?_))
    rw [hum.cached]
    exact hp.cached
  -- its row keeps the id from being given out again
  have hne : (st.users.heap p).userid ≠ u.userid := by
    intro heq
    rw [← heq] at hfresh
    exact hfresh hp.row
  refine ⟨?_, ?_, ?_⟩
  · rw [husers]
    show p ∈ um.cachedUsers ++ [um.fresh]
    rw [hum.cached]
    exact List.mem_append_left _ hp.cached
  · rw [hold, hum.userid, husers]
    show (um.mapUsers.set u.userid um.fresh).get? (st.users.heap p).userid = some p
    rw [OrdMap.get?_set, if_neg hne, hum.map]
    exact hp.mapped
  · rw [hold, hum.userid, hids]
    exact List.mem_append_left _ hp.row

/-- The new record is backed by the new row. -/
theorem backed_fresh {um : UserManager} {u : User} (husers : st'.users = um.share u)
    (hids : userIds st'.sql.db = userIds st.sql.db ++ [.int u.userid]) : Backed st' um.fresh := by
  have hrecord : st'.users.heap um.fresh = u := by
    rw [husers]
    exact if_pos rfl
  refine ⟨?_, ?_, ?_⟩
  · rw [husers]
    exact List.mem_append_right _ (List.mem_singleton_self _)
  · rw [hrecord, husers]
    show (um.mapUsers.set u.userid um.fresh).get? u.userid = some um.fresh
    rw [OrdMap.get?_set, if_pos rfl]
  · rw [hrecord, hids]
    exact List.mem_append_right _ (List.mem_singleton_self _)

/-- A new row and its record. -/
theorem share {um : UserManager} {u : User} {now : Int} {values : List (String × Literal)}
    (husers : st'.users = um.share u) (hum : SameNames st.users um)
    (hexec : st.sql.db.exec now (.insert "t_user" values) = some st'.sql.db)
    (hid : values.lookup "f_user_id" = some (.int u.userid)) (hn : IsInt32 u.userid) : KeepsNames st st' := by
  intro hst
  obtain ⟨htable, hfresh, hids⟩ := hst.table.insert hexec hid hn
  have hcached : st'.users.cachedUsers = st.users.cachedUsers ++ [um.fresh] := by
    rw [husers, ← hum.cached]
    rfl
  have hname : ∀ p ∈ st.users.cachedUsers, (st'.users.heap p).username = (st.users.heap p).username := by
    intro p hp
    rw [← hum.cached] at hp
    rw [husers, ← hum.username]
    exact congrArg User.username (if_neg (Nat.ne_of_lt (um.cached_lt p hp)))
  refine ⟨⟨htable, fun p hp hnamed => ?_⟩, fun p hp => ⟨?_, hname p hp⟩⟩
  · rw [hcached] at hp
    rcases List.mem_append.1 hp with hp | hp
    · rw [hname p hp] at hnamed
      exact backed_share hum husers hfresh hids (hst.backed p hp hnamed)
    · rw [List.mem_singleton] at hp
      rw [hp]
      exact backed_fresh husers hids
  · rw [hcached]
    exact List.mem_append_left _ hp

end KeepsNames

/-! ## The moves -/

/-- A move keeps the names backed. -/
theorem keepsNames_move {env : SqlEnv} {st st' : Store} (h : StoreMove env st st') : KeepsNames st st' := by
  have hrelationship : "t_user" ≠ "t_user_relationship" := by decide
  have hchatmsg : "t_user" ≠ "t_chatmsg" := by decide
  cases h with
  | addUser user =>
      rcases addUser_cases env user st with ⟨sql, heq, hdb, -⟩ | ⟨sql, heq, hinsert⟩ <;> rw [heq]
      · exact .of_same (.inl hdb) ⟨rfl, rfl, fun _ => rfl, fun _ => rfl⟩
      · exact .share rfl ⟨rfl, rfl, fun _ => rfl, fun _ => rfl⟩ (MySql.db_exec_of_execute hinsert) rfl
          (isInt32_wrap32 _)
  | addGroup groupname ownerid =>
      rcases addGroup_cases env groupname ownerid st with ⟨sql, heq, hdb, -⟩ | ⟨sql, heq, hinsert⟩ <;> rw [heq]
      · exact .of_same (.inl hdb) ⟨rfl, rfl, fun _ => rfl, fun _ => rfl⟩
      · exact .share rfl ⟨rfl, rfl, fun _ => rfl, fun _ => rfl⟩ (MySql.db_exec_of_execute hinsert) rfl
          (isInt32_wrap32 _)
  | updateUserInfo userid info =>
      rcases updateUserInfo_cases env userid info st with ⟨sql, heq, hdb, -⟩ | ⟨sql, heq, hupdate⟩ <;> rw [heq]
      · exact .of_same (.inl hdb) (SameNames.refl _)
      · exact .of_same (.inr ⟨_, _, MySql.db_exec_of_execute hupdate, .inr ⟨_, _, rfl, rfl⟩⟩)
          (SameNames.modifyById _ _ _ _ fun _ => rfl)
  | @modifyUserPassword _ _ p newpassword _ hchanged =>
      rcases modifyUserPassword_cases env (st.users.heap p).userid newpassword st with
        ⟨sql, heq, -⟩ | ⟨sql, heq, hupdate⟩ <;> rw [heq] at hchanged <;> cases hchanged
      exact .of_same (.inr ⟨_, _, MySql.db_exec_of_execute hupdate, .inr ⟨_, _, rfl, rfl⟩⟩)
        ((SameNames.modifyById _ _ (withPassword newpassword) (fun _ => rfl) fun _ => rfl).trans
          (SameNames.modify _ p (withPassword newpassword) (fun _ => rfl) fun _ => rfl))
  | @modifyUserPassword_failed _ _ userid newpassword hfailed =>
      rcases modifyUserPassword_cases env userid newpassword st with ⟨sql, heq, hdb, -⟩ | ⟨sql, heq, -⟩ <;>
        rw [heq] at hfailed <;> cases hfailed
      exact .of_same (.inl hdb) (SameNames.refl _)
  | makeFriendRelationship smallid greatid =>
      rcases makeFriendRelationship_cases env smallid greatid st with ⟨husers, hdb⟩ | ⟨-, sql, heq, hinsert⟩
      · refine .of_same (.inl hdb) ?_
        rw [husers]
        exact SameNames.refl _
      · rw [heq]
        exact .of_same (.inr ⟨_, _, MySql.db_exec_of_execute hinsert, .inl hrelationship⟩)
          (SameNames.of_sameUsers (SameUsers.linked (fun _ => rfl) ..))
  | deleteFriendToUser userid friendid =>
      rcases deleteFriendToUser_cases env userid friendid st with ⟨husers, hdb⟩ | ⟨sql, heq, hdelete⟩
      · refine .of_same (.inl hdb) ?_
        rw [husers]
        exact SameNames.refl _
      · rw [heq]
        exact .of_same (.inr ⟨_, _, MySql.db_exec_of_execute hdelete, .inl hrelationship⟩)
          (SameNames.of_sameUsers (SameUsers.unlinked (fun _ => rfl) ..))
  | saveChatMsgToDb senderid targetid chatmsg =>
      unfold saveChatMsgToDb
      rcases hsave : MySql.execute env (saveChatMsgStmt senderid targetid chatmsg) st.sql with ⟨_ | _, sql⟩
      · exact .of_same (.inl (MySql.db_of_execute_false hsave)) (SameNames.refl _)
      · exact .of_same (.inr ⟨_, _, MySql.db_exec_of_execute hsave, .inl hchatmsg⟩) (SameNames.refl _)
  | getChatHistory userid targetid limit =>
      rw [snd_getChatHistory]
      exact .of_same (.inl rfl) (SameNames.refl _)
  | setRecord _ p f hf _ husername => exact .of_same (.inl rfl) (SameNames.modify _ p f hf husername)

/-! ## A start -/

/-- A start backs the names of the list. -/
theorem namesBacked_init {env : SqlEnv} {sql : MySql} {st : Store} (htable : IdTable sql.db)
    (hcursor : userIds sql.db = [] → NamelessCursor env) (hinit : init env ⟨sql, new⟩ = (true, st)) :
    NamesBacked st := by
  obtain ⟨hindexed, hdb⟩ := indexed_init htable (fun _ _ => id) hinit
  refine ⟨hindexed.table, fun p hp hname => ⟨hp, (hindexed.indexes.2 _ p).2 ⟨hp, rfl⟩, ?_⟩⟩
  rcases @record_init _ (fun u => (u.userid, u.username)) (fun _ => rfl) _ _ _ htable hinit p with
    hblank | ⟨r, hr, hrow⟩ | ⟨hnil, pRow, hpRow, hshown⟩
  · exact absurd (congrArg Prod.snd hblank) hname
  · obtain ⟨n, hn, hn32⟩ := htable.int32 _ (List.mem_map_of_mem hr)
    have hid : (st.users.heap p).userid = n := (congrArg Prod.fst hrow).trans (userid_rowUser hn hn32)
    rw [hdb, hid, ← hn]
    exact List.mem_map_of_mem hr
  · exact absurd ((congrArg Prod.snd hshown).trans (hcursor hnil _ pRow hpRow)) hname

/-! ## Runs -/

/-- The names are backed, and the sessions' records are in the list and have names. -/
structure OnNames (w : World) : Prop where
  inv : Inv w
  names : NamesBacked w.store
  users : ∀ n p, (w.session n).user = some p → p ∈ w.store.users.cachedUsers ∧ (w.record p).username ≠ []

namespace OnNames

/-- The record of a session is backed. -/
theorem backed {w : World} (h : OnNames w) {n : Nat} {p : UserPtr} (huser : (w.session n).user = some p) :
    Backed w.store p :=
  h.names.backed p (h.users n p huser).1 (h.users n p huser).2

theorem init {env : SqlEnv} {sql : MySql} {st : Store} (htable : IdTable sql.db)
    (hcursor : userIds sql.db = [] → NamelessCursor env) (hinit : UserManager.init env ⟨sql, new⟩ = (true, st)) :
    OnNames (World.init st) :=
  ⟨inv_init st, namesBacked_init htable hcursor hinit, fun _ _ h => by cases h⟩

/-- An event keeps the sessions on backed records. -/
theorem step {env : Env} (w : World) (e : Event) (w' : World) (hw : OnNames w) (hstep : step env w e = .ok w') :
    OnNames w' := by
  obtain ⟨hnames, hkept⟩ :=
    (moves_step hstep).induct KeepsNames.refl KeepsNames.trans keepsNames_move hw.names
  refine ⟨inv_step w e w' hw.inv hstep, hnames, fun n p huser => ?_⟩
  -- the record of a session is from before, or the one that a login named
  have hlisted : p ∈ w.store.users.cachedUsers ∧ (w.record p).username ≠ [] := by
    rw [((step_effect hw.inv.made hstep).session n).1] at huser
    rcases user_cases huser with hold | ⟨msg, -, -, -, hnamed⟩
    · exact hw.users n p hold
    · obtain ⟨req, -, hname, -, hfound, -⟩ := loginCode_eq_some env (Prod.ext rfl hnamed)
      refine ⟨List.mem_of_find?_eq_some hfound, ?_⟩
      have heq := List.find?_some hfound
      rw [decide_eq_true_eq] at heq
      show (w.store.users.heap p).username ≠ []
      rw [heq]
      exact hname
  obtain ⟨hp, hname⟩ := hkept p hlisted.1
  refine ⟨hp, ?_⟩
  show (w'.store.users.heap p).username ≠ []
  rw [hname]
  exact hlisted.2

/-- A run keeps them there. -/
theorem run {env : Env} {w w' : World} {es : List Event} (hw : OnNames w)
    (hrun : Run.run (AimChat.step env) w es = .ok w') : OnNames w' :=
  Run.run_invariant (P := fun _ _ => True) (fun w e w' hw _ hstep => step w e w' hw hstep) hw
    (Run.always_of_forall_mem fun _ _ => trivial) hrun

end OnNames

/-- **The records of the sessions.** A server is started on any `t_user` with distinct `int32` ids, behind which,
when it is empty, the cursor shows cleared fields. In every run each session acts as a record of the list, which is
the one under its id in the map and has a row. -/
theorem backed_of_run {env : Env} {sql : MySql} {st : Store} {es : List Event} {w : World} (htable : IdTable sql.db)
    (hcursor : userIds sql.db = [] → NamelessCursor env.sql) (hinit : init env.sql ⟨sql, new⟩ = (true, st))
    (hrun : Run.run (step env) (World.init st) es = .ok w) {n : Nat} {p : UserPtr}
    (huser : (w.session n).user = some p) : Backed w.store p :=
  ((OnNames.init htable hcursor hinit).run hrun).backed huser

end AimChat
