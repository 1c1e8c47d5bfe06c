import AimChat.Server.GroupLinks

/-! # Groups and their owners

`OnCreateGroupResponse` inserts the group, and then makes its creator a member without a look at the
result. A group whose second statement is refused is answered with code 0 all the same.
`group_has_owner_iff` says when a group that is reported as created has its owner. -/

namespace AimChat

open Sql ClientSession

variable {env : Env}

/-- In `w` the event is a request of session `n`, which acts as the record `p`, to create a group. -/
def AsksForGroup (w : World) (n : Nat) (p : UserPtr) (msg : MessageContainer) (e : Event) : Prop :=
  e = .recv n msg ∧ w.im.Connected n ∧ msg.cmd = msg_type_creategroup ∧ (w.session n).user = some p

/-- What the handler of the request makes: its answer, and the world before that is sent. -/
def creation (env : Env) (w : World) (n : Nat) (msg : MessageContainer) : Except Fault (CreateGroupRsp × World) :=
  createGroupRsp env n msg (w.setSession n fun s => { s with seq := msg.seq })

/-- `g` is a group in `m_mapUsers`, and the relationship with `u` is in both sets of friends and the table. -/
structure GroupHasOwner (st : Store) (g u : Int) : Prop where
  group : GROUPID_BOUNDARY ≤ g
  owner : ∃ r, st.users.record u = some r ∧ g ∈ r.friends
  member : ∃ r, st.users.record g = some r ∧ u ∈ r.friends
  row : HasRow st.sql.db (min u g) (max u g)

/-- No record, no set of friends and no row is different. -/
structure SameContent (st st' : Store) : Prop where
  heap : st'.users.heap = st.users.heap
  cachedUsers : st'.users.cachedUsers = st.users.cachedUsers
  mapUsers : st'.users.mapUsers = st.users.mapUsers
  db : st'.sql.db = st.sql.db

/-- When the event is a request to create a group, it is answered, with code 0 for a group that has its owner
or else with nothing changed. -/
def CreatesWithOwner (env : Env) (w : World) (e : Event) : Prop :=
  ∀ n p msg, AsksForGroup w n p msg e → ∃ rsp v, creation env w n msg = .ok (rsp, v) ∧
    step env w e = .ok (v.respond n msg_type_creategroup (env.pb.createGroupRsp.serialize rsp)) ∧
    (rsp.code = 0 → GroupHasOwner v.store rsp.groupid (w.record p).userid) ∧
    (rsp.code ≠ 0 → SameContent w.store v.store)

/-- The id the next group gets. -/
def newGroupid (w : World) : Int := UserManager.nextId w.store.users.baseGroupID

/-- The statement for the group, of this creator. -/
def groupStmt (w : World) (p : UserPtr) (groupname : Bytes) : Stmt :=
  UserManager.addGroupStmt (newGroupid w) (cStr groupname) (w.record p).userid

/-- The statement for the membership of the creator. -/
def ownerStmt (w : World) (p : UserPtr) : Stmt :=
  UserManager.makeFriendStmt (min (w.record p).userid (newGroupid w)) (max (w.record p).userid (newGroupid w))

/-- The new id is a group's and not the creator's own, the creator is in `m_mapUsers`, and the statement for
the membership is carried out. -/
def JoinsGroup (env : Env) (w : World) (p : UserPtr) (sql : MySql) : Prop :=
  GROUPID_BOUNDARY ≤ newGroupid w ∧ (w.record p).userid ≠ newGroupid w ∧
    w.store.users.mapUsers.get? (w.record p).userid ≠ none ∧
    (MySql.execute env.sql (ownerStmt w p) sql).1 = true

/-- When the event is a request to create a group whose statement is carried out, then the creator joins it. -/
def OwnerJoins (env : Env) (w : World) (e : Event) : Prop :=
  ∀ n p msg, AsksForGroup w n p msg e →
    ∀ req, env.pb.createGroupReq.parse msg.payload = some req → req.groupname ≠ [] →
      ∀ sql, MySql.execute env.sql (groupStmt w p req.groupname) w.store.sql = (true, sql) →
        JoinsGroup env w p sql

/-! ## The two statements -/

section Statements

open UserManager

variable {env : SqlEnv} {st : Store} {u g : Int}

/-- Nobody is in a group that has no friends. -/
theorem not_groupHasOwner {st' : Store} {r : User} (hr : st.users.record g = some r) (hnone : r.friends = ∅)
    (husers : st'.users = st.users) : ¬ GroupHasOwner st' g u := by
  intro hhas
  obtain ⟨r', hr', hmem⟩ := hhas.member
  rw [husers, hr] at hr'
  cases hr'
  rw [hnone] at hmem
  exact OrdSet.not_mem_empty u hmem

/-- A relationship that is inserted between two records is in both sets and in the table. -/
theorem groupHasOwner_made (hgroup : GROUPID_BOUNDARY ≤ g) (hself : u ≠ g) (hu : st.copies.here u)
    (hg : st.copies.here g) {sql : MySql}
    (hexec : MySql.execute env (makeFriendStmt (min u g) (max u g)) st.sql = (true, sql)) :
    GroupHasOwner (makeFriendRelationship env (min u g) (max u g) st).2 g u := by
  obtain ⟨-, -, hturned⟩ := @FriendCall.outcome env st u g .make hself hu hg (congrArg Prod.fst hexec)
  refine ⟨hgroup, ?_, ?_, ?_⟩
  · have hlists := (hturned.lists u g).2
    rw [if_pos (.inl ⟨rfl, rfl⟩)] at hlists
    exact hlists rfl
  · have hlists := (hturned.lists g u).2
    rw [if_pos (.inr ⟨rfl, rfl⟩)] at hlists
    exact hlists rfl
  · have hrows := hturned.rows (min u g) (max u g)
    rw [if_pos ⟨rfl, rfl⟩] at hrows
    refine hasRow_iff_rowCount.2 ?_
    show 0 < rowCount (FriendCall.make.after env u g st).sql.db (min u g) (max u g)
    rw [hrows]
    exact Nat.succ_pos _

/-- A relationship of a new group, which has no friends yet: it is there when it was inserted between two
records. -/
theorem groupHasOwner_makeFriend_iff {r : User} (hr : st.users.record g = some r) (hnone : r.friends = ∅) :
    GroupHasOwner (makeFriendRelationship env (min u g) (max u g) st).2 g u ↔
      GROUPID_BOUNDARY ≤ g ∧ u ≠ g ∧ st.users.mapUsers.get? u ≠ none ∧
        (MySql.execute env (makeFriendStmt (min u g) (max u g)) st.sql).1 = true := by
  by_cases hself : u = g
  · have hle : max u g ≤ min u g := by rw [hself, max_self, min_self]
    rw [makeFriendRelationship_of_le env st hle]
    exact iff_of_false (not_groupHasOwner hr hnone rfl) fun hall => hall.2.1 hself
  have hlt : min u g < max u g := min_lt_max.2 hself
  rcases MySql.execute_cases env (makeFriendStmt (min u g) (max u g)) st.sql with ⟨sql, hexec, -⟩ | ⟨sql, hexec⟩
  · rw [makeFriendRelationship_of_refused env hlt hexec, hexec]
    exact iff_of_false (not_groupHasOwner hr hnone rfl) fun hall => Bool.false_ne_true hall.2.2.2
  constructor
  · intro hhas
    refine ⟨hhas.group, hself, ?_, congrArg Prod.fst hexec⟩
    -- linking puts nobody into the map
    obtain ⟨r', hr', -⟩ := hhas.owner
    rw [makeFriendRelationship_of_inserted env hlt hexec] at hr'
    have hhere : (Store.copies ⟨sql, linked (min u g) (max u g) st.users⟩).here u := ⟨r', hr'⟩
    rw [copies_linked hexec] at hhere
    exact isSome_record_iff.1 (Option.isSome_iff_exists.2 hhere)
  · rintro ⟨hgroup, -, hu, -⟩
    exact groupHasOwner_made hgroup hself (here_of_mapped hu) ⟨r, hr⟩ hexec

end Statements

/-! ## The request -/

/-- Nothing is created: the request is not readable, has no name, or its statement is refused. -/
def NothingCreated (env : Env) (w : World) (p : UserPtr) (msg : MessageContainer) : Prop :=
  ∀ req, env.pb.createGroupReq.parse msg.payload = some req → req.groupname ≠ [] →
    ∀ sql, MySql.execute env.sql (groupStmt w p req.groupname) w.store.sql ≠ (true, sql)

/-- The answer to a request with a name is `AddGroup`'s, and with a group its owner is made a member. -/
theorem creation_of_named {w : World} {n : Nat} {p : UserPtr} {msg : MessageContainer} {req : CreateGroupReq}
    (huser : (w.session n).user = some p) (hparse : env.pb.createGroupReq.parse msg.payload = some req)
    (hname : req.groupname ≠ []) {b : Bool} {groupid : Int} {st : Store}
    (hadd : UserManager.addGroup env.sql req.groupname (w.record p).userid w.store = (b, groupid, st)) :
    creation env w n msg = .ok (if b then
      ({ code := 0, msg := str "ok", groupid := groupid, groupname := req.groupname },
        onAddGroupResponse env p groupid ((w.setSession n fun s => { s with seq := msg.seq }).withStore st))
    else
      ({ code := 100, msg := str "create group failed!" },
        (w.setSession n fun s => { s with seq := msg.seq }).withStore st)) := by
  have huser₀ : ((w.setSession n fun s => { s with seq := msg.seq }).session n).user = some p :=
    (World.user_setSeq n w msg.seq).trans huser
  have hstore : (w.setSession n fun s => { s with seq := msg.seq }).store = w.store := rfl
  unfold creation createGroupRsp
  rw [hparse, World.theUser_of_user huser₀]
  unfold World.record at hadd ⊢
  simp only [bind, Except.bind, pure, Except.pure, if_neg hname, hstore, hadd]
  cases b <;> rfl

/-- A request without a name, or that cannot be read, has no group. -/
theorem creation_of_unnamed {w : World} {n : Nat} {msg : MessageContainer}
    (h : ∀ req, env.pb.createGroupReq.parse msg.payload = some req → req.groupname = []) :
    ∃ rsp, creation env w n msg = .ok (rsp, w.setSession n fun s => { s with seq := msg.seq }) ∧ rsp.code ≠ 0 := by
  unfold creation createGroupRsp
  cases hparse : env.pb.createGroupReq.parse msg.payload with
  | none => exact ⟨_, rfl, by decide⟩
  | some req => exact ⟨_, if_pos (h req hparse), by decide⟩

/-- The new group has its owner when the creator joins it. -/
theorem groupHasOwner_created_iff {w v : World} {p : UserPtr} (hp : p < w.store.users.fresh) {groupname : Bytes}
    {sql : MySql} (hv : v.store = ⟨sql, w.store.users.takeGroupID.share
      (UserManager.addedGroup (newGroupid w) (cStr groupname) (w.record p).userid)⟩) :
    GroupHasOwner (onAddGroupResponse env p (newGroupid w) v).store (newGroupid w) (w.record p).userid ↔
      JoinsGroup env w p sql := by
  have hid : (v.record p).userid = (w.record p).userid := by
    rw [World.record, hv]
    show (if p = w.store.users.fresh then _ else w.store.users.heap p : User).userid = _
    rw [if_neg (Nat.ne_of_lt hp), World.record]
  have hgroup : v.store.users.record (newGroupid w) =
      some (UserManager.addedGroup (newGroupid w) (cStr groupname) (w.record p).userid) := by
    rw [hv, UserManager.record_share]
    exact if_pos rfl
  show GroupHasOwner (makeFriends env v (v.record p).userid (newGroupid w)).2 _ _ ↔ _
  rw [hid, ClientSession.makeFriends, UserManager.ite_lt_eq_min, UserManager.ite_lt_eq_max]
  refine (groupHasOwner_makeFriend_iff hgroup rfl).trans ?_
  rw [hv]
  refine and_congr_right fun _ => and_congr_right fun hne => and_congr_left fun _ => ?_
  -- the group is put under its own id only
  show (w.store.users.mapUsers.set (newGroupid w) w.store.users.fresh).get? (w.record p).userid ≠ none ↔ _
  rw [OrdMap.get?_set, if_neg hne]

/-- **The handler.** It answers with another code than 0 and has changed nothing, or the group is created and
answered with code 0, and has its owner exactly when the creator joins it. -/
theorem creation_cases {w : World} {n : Nat} {p : UserPtr} (msg : MessageContainer) (hw : w.Made)
    (huser : (w.session n).user = some p) : ∃ rsp v, creation env w n msg = .ok (rsp, v) ∧
      ((rsp.code ≠ 0 ∧ SameContent w.store v.store ∧ NothingCreated env w p msg) ∨
        ∃ req sql, env.pb.createGroupReq.parse msg.payload = some req ∧ req.groupname ≠ [] ∧
          MySql.execute env.sql (groupStmt w p req.groupname) w.store.sql = (true, sql) ∧
          rsp.code = 0 ∧ rsp.groupid = newGroupid w ∧
          (GroupHasOwner v.store (newGroupid w) (w.record p).userid ↔ JoinsGroup env w p sql)) := by
  by_cases hnamed : ∃ req, env.pb.createGroupReq.parse msg.payload = some req ∧ req.groupname ≠ []
  · obtain ⟨req, hparse, hname⟩ := hnamed
    rcases UserManager.addGroup_cases env.sql req.groupname (w.record p).userid w.store with
      ⟨sql, heq, hdb, hexec⟩ | ⟨sql, heq, hexec⟩
    · have hcode : (100 : Int) ≠ 0 := by decide
      refine ⟨_, _, creation_of_named huser hparse hname heq, .inl ⟨hcode, ⟨rfl, rfl, rfl, hdb⟩, ?_⟩⟩
      intro req' hreq _ sql' hexec'
      rw [hparse] at hreq
      cases hreq
      have hfalse : MySql.execute env.sql (groupStmt w p req.groupname) w.store.sql = (false, sql) := hexec
      rw [hfalse] at hexec'
      cases hexec'
    · refine ⟨_, _, creation_of_named huser hparse hname heq,
        .inr ⟨req, sql, hparse, hname, hexec, rfl, rfl, ?_⟩⟩
      exact groupHasOwner_created_iff (hw n p huser) rfl
  · have hnone : ∀ req, env.pb.createGroupReq.parse msg.payload = some req → req.groupname = [] := by
      intro req hparse
      by_contra hname
      exact hnamed ⟨req, hparse, hname⟩
    obtain ⟨rsp, hrsp, hcode⟩ := @creation_of_unnamed env w n msg hnone
    exact ⟨rsp, _, hrsp, .inl ⟨hcode, ⟨rfl, rfl, rfl, rfl⟩, fun req hparse hname => absurd (hnone req hparse) hname⟩⟩

/-- A message of a connected session is handled by its own handler. -/
theorem step_asksForGroup {w : World} {n : Nat} {p : UserPtr} {msg : MessageContainer} {e : Event}
    (h : AsksForGroup w n p msg e) {rsp : CreateGroupRsp} {v : World} (hrsp : creation env w n msg = .ok (rsp, v)) :
    step env w e = .ok (v.respond n msg_type_creategroup (env.pb.createGroupRsp.serialize rsp)) := by
  obtain ⟨rfl, hn, hcmd, -⟩ := h
  rw [step_of_connected hn, onMessageReceived, dispatch_creategroup env n msg _ hcmd, onCreateGroupResponse]
  unfold creation at hrsp
  rw [hrsp]
  rfl

/-- For one event. -/
theorem createsWithOwner_iff {w : World} (hw : w.Made) (e : Event) :
    CreatesWithOwner env w e ↔ OwnerJoins env w e := by
  constructor
  · intro h n p msg hasks req hparse hname sql hexec
    obtain ⟨rsp, v, hrsp, -, hcreated, -⟩ := h n p msg hasks
    obtain ⟨rsp', v', hrsp', ⟨-, -, hnothing⟩ | ⟨req', sql', hparse', -, hexec', hcode, hgroupid, hiff⟩⟩ :=
      @creation_cases env _ _ _ msg hw hasks.2.2.2
    · exact absurd hexec (hnothing req hparse hname sql)
    · rw [hrsp] at hrsp'
      cases hrsp'
      rw [hparse] at hparse'
      cases hparse'
      rw [hexec] at hexec'
      cases hexec'
      have hhas := hcreated hcode
      rw [hgroupid] at hhas
      exact hiff.1 hhas
  · intro h n p msg hasks
    obtain ⟨rsp, v, hrsp, hcases⟩ := @creation_cases env _ _ _ msg hw hasks.2.2.2
    refine ⟨rsp, v, hrsp, step_asksForGroup hasks hrsp, ?_⟩
    rcases hcases with ⟨hcode, hsame, -⟩ | ⟨req, sql, hparse, hname, hexec, hcode, hgroupid, hiff⟩
    · exact ⟨fun hzero => absurd hzero hcode, fun _ => hsame⟩
    · refine ⟨fun _ => ?_, fun hne => absurd hcode hne⟩
      rw [hgroupid]
      exact hiff.2 (h n p msg hasks req hparse hname sql hexec)

/-- **A created group has its owner.** In every run, each request to create a group is answered with code 0
for a group that has its owner, or else with nothing changed, exactly when the creator joins every group
whose statement is carried out. -/
theorem group_has_owner_iff (env : Env) (st : Store) (es : List Event) :
    Run.Always (step env) (CreatesWithOwner env) (World.init st) es ↔
      Run.Always (step env) (OwnerJoins env) (World.init st) es :=
  Run.always_congr (I := Inv) inv_step (fun _ e hw => createsWithOwner_iff hw.made e) (inv_init st)

/-- A server whose statement 10 is refused. -/
def refusedOnce : Env :=
  { Env.ideal none with sql := { SqlEnv.ideal with execOk := fun n => n != 10 } }

/-- `a` logs in and creates a group; the statement for the membership is refused, and the answer has code 0
all the same. -/
theorem group_without_owner :
    ¬ Run.Always (step refusedOnce) (CreatesWithOwner refusedOnce) (World.init twoUsers)
      ([.connect 1, .recv 0 (loginMessage (str "a") (str "p"))] ++ [.recv 0 (createGroupMessage (str "g"))]) := by
  intro h
  obtain ⟨w, hrun, hn, huser, hgroup, howner⟩ := @Run.exists_of_eval _ _
    (Run.run (step refusedOnce) (World.init twoUsers) [.connect 1, .recv 0 (loginMessage (str "a") (str "p"))])
    (fun w => w.im.Connected 0 ∧ (w.session 0).user = some 0 ∧
      (MySql.execute refusedOnce.sql (groupStmt w 0 (str "g")) w.store.sql).1 = true ∧
      (MySql.execute refusedOnce.sql (ownerStmt w 0)
        (MySql.execute refusedOnce.sql (groupStmt w 0 (str "g")) w.store.sql).2).1 = false) _ (by decide +kernel)
  have hjoins := (createsWithOwner_iff (inv_run (inv_init twoUsers) hrun).made _).1 (h.at_snoc hrun)
  have hparse : Protobuf.wire.createGroupReq.parse (createGroupMessage (str "g")).payload =
      some { groupname := str "g" } := by decide +kernel
  have hbad := hjoins 0 0 _ ⟨rfl, hn, rfl, huser⟩ _ hparse (by decide) _ (Prod.ext hgroup rfl)
  rw [hbad.2.2.2] at howner
  cases howner

end AimChat
