import AimChat.Server.FriendRequests
import AimChat.Store.FriendEdges

/-! # Members of groups

A relationship with a group makes a member. Adding a friend refuses ids of groups and a group is created by
a user, but an invitation takes the group from the container and the member from the request, and looks at
the first only. `group_links_iff` says when every member stays a user. -/

namespace AimChat

open Sql ClientSession

/-- No row of `t_user_relationship` joins two groups, and no group is in the friends of a group. -/
structure NoGroupLinks (st : Store) : Prop where
  rows : ∀ a b, HasRow st.sql.db a b → a < GROUPID_BOUNDARY ∨ b < GROUPID_BOUNDARY
  friends : ∀ p ∈ st.users.cachedUsers, GROUPID_BOUNDARY ≤ (st.users.heap p).userid →
    ∀ b ∈ (st.users.heap p).friends, b < GROUPID_BOUNDARY

/-- Requests about friends and groups come from users. -/
def ByUsers (w : World) : Event → Prop
  | .recv n msg => OnRelationships msg → ∀ p ∈ (w.session n).user, (w.record p).userid < GROUPID_BOUNDARY
  | _ => True

instance (msg : MessageContainer) : Decidable (OnRelationships msg) := inferInstanceAs (Decidable (_ ∨ _))

instance : ∀ w e, Decidable (ByUsers w e)
  | _, .recv _ _ => inferInstanceAs (Decidable (_ → _))
  | _, .connect _ => .isTrue trivial
  | _, .malformed _ => .isTrue trivial
  | _, .close _ => .isTrue trivial
  | _, .agentDone _ _ => .isTrue trivial

/-- In `w` the event is an invitation of `friendid` into the group. -/
def Invites (env : Env) (w : World) (e : Event) (friendid groupid : Int) : Prop :=
  ∃ n msg, e = .recv n msg ∧ w.im.Connected n ∧ msg.cmd = msg_type_operatefriend ∧
    msg.targetId = groupid ∧ GROUPID_BOUNDARY ≤ groupid ∧
    env.pb.operateFriendReq.parse msg.payload = some { type := 3, friendid := friendid }

/-- A group that is invited into another is not inserted. -/
def InvitesNoGroup (env : Env) (w : World) (e : Event) : Prop :=
  ∀ friendid groupid, Invites env w e friendid groupid → GROUPID_BOUNDARY ≤ friendid → friendid ≠ groupid →
    (MySql.execute env.sql (UserManager.makeFriendStmt (min friendid groupid) (max friendid groupid))
      w.store.sql).1 = false

namespace NoGroupLinks

open UserManager

variable {env : SqlEnv} {st st' : Store}

/-! ## What keeps it -/

/-- Fewer rows, and records that have no friends yet or are old ones with fewer friends. -/
theorem of_less (h : NoGroupLinks st) (hrows : ∀ a b, HasRow st'.sql.db a b → HasRow st.sql.db a b)
    (hfriends : ∀ p ∈ st'.users.cachedUsers, (st'.users.heap p).friends = ∅ ∨
      p ∈ st.users.cachedUsers ∧ (st'.users.heap p).userid = (st.users.heap p).userid ∧
        ∀ b ∈ (st'.users.heap p).friends, b ∈ (st.users.heap p).friends) : NoGroupLinks st' where
  rows a b hrow := h.rows a b (hrows a b hrow)
  friends p hp hgroup b hb := by
    rcases hfriends p hp with hnone | ⟨hold, hid, hless⟩
    · rw [hnone] at hb
      exact absurd hb (OrdSet.not_mem_empty b)
    · exact h.friends p hold (hid ▸ hgroup) b (hless b hb)

/-- The same rows. -/
theorem of_rows (h : NoGroupLinks st) {sql : MySql}
    (hrows : sql.db.rows "t_user_relationship" = st.sql.db.rows "t_user_relationship") :
    NoGroupLinks ⟨sql, st.users⟩ where
  rows a b hrow := h.rows a b (by rwa [HasRow, hrows] at hrow)
  friends := h.friends

/-- A record more, which has no friends. -/
theorem share (h : NoGroupLinks st) {u : User} (hnone : u.friends = ∅) :
    NoGroupLinks ⟨st.sql, st.users.share u⟩ := by
  refine h.of_less (fun _ _ hrow => hrow) fun p hp => ?_
  show ((if p = st.users.fresh then u else st.users.heap p).friends = ∅) ∨
    _ ∧ (if p = st.users.fresh then u else st.users.heap p).userid = _ ∧
      ∀ b ∈ (if p = st.users.fresh then u else st.users.heap p).friends, _
  split_ifs with hnew
  · exact Or.inl hnone
  · have hold : p ∈ st.users.cachedUsers ++ [st.users.fresh] := hp
    refine Or.inr ⟨(List.mem_append.1 hold).resolve_right fun hmem => ?_, rfl, fun _ hb => hb⟩
    exact hnew (List.mem_singleton.1 hmem)

/-- A record changed, with no more friends than before. -/
theorem modify (h : NoGroupLinks st) (q : UserPtr) {f : User → User} {hf : ∀ u, (f u).userid = u.userid}
    (hless : ∀ u, ∀ b ∈ (f u).friends, b ∈ u.friends) : NoGroupLinks ⟨st.sql, st.users.modify q f hf⟩ := by
  refine h.of_less (fun _ _ hrow => hrow) fun p hp => Or.inr ⟨hp, ?_⟩
  show (if p = q then f (st.users.heap p) else st.users.heap p).userid = _ ∧
    ∀ b ∈ (if p = q then f (st.users.heap p) else st.users.heap p).friends, _
  split_ifs
  · exact ⟨hf _, hless _⟩
  · exact ⟨rfl, fun _ hb => hb⟩

theorem modifyById (h : NoGroupLinks st) (id : Int) {f : User → User} {hf : ∀ u, (f u).userid = u.userid}
    (hless : ∀ u, ∀ b ∈ (f u).friends, b ∈ u.friends) :
    NoGroupLinks ⟨st.sql, st.users.modifyById id f hf⟩ := by
  unfold UserManager.modifyById
  cases st.users.mapUsers.get? id with
  | none => exact h
  | some q => exact h.modify q hless

/-- What makes and deletes no relationship. -/
theorem quiet (h : NoGroupLinks st) (hmove : QuietMove env st st') : NoGroupLinks st' := by
  have hne : "t_user_relationship" ≠ "t_user" := by decide
  have hne' : "t_user_relationship" ≠ "t_chatmsg" := by decide
  cases hmove with
  | addUser user hfriends =>
      rcases addUser_cases env user st with ⟨sql, heq, -, hexec⟩ | ⟨sql, heq, hexec⟩ <;>
        rw [heq] <;> have hrows := h.of_rows (MySql.rows_of_execute hexec hne)
      · exact ⟨hrows.rows, hrows.friends⟩
      · exact @share ⟨sql, st.users.takeUserID⟩ ⟨hrows.rows, hrows.friends⟩ _ hfriends
  | addGroup groupname ownerid =>
      rcases addGroup_cases env groupname ownerid st with ⟨sql, heq, -, hexec⟩ | ⟨sql, heq, hexec⟩ <;>
        rw [heq] <;> have hrows := h.of_rows (MySql.rows_of_execute hexec hne)
      · exact ⟨hrows.rows, hrows.friends⟩
      · exact @share ⟨sql, st.users.takeGroupID⟩ ⟨hrows.rows, hrows.friends⟩ _ rfl
  | updateUserInfo userid info =>
      rcases updateUserInfo_cases env userid info st with ⟨sql, heq, -, hexec⟩ | ⟨sql, heq, hexec⟩ <;>
        rw [heq] <;> have hrows := h.of_rows (MySql.rows_of_execute hexec hne)
      · exact hrows
      · exact hrows.modifyById userid fun _ _ hb => hb
  | @modifyUserPassword _ _ p newpassword _ hchanged =>
      rcases modifyUserPassword_cases env (st.users.heap p).userid newpassword st with ⟨sql, heq, -⟩ | ⟨sql, heq, hexec⟩
      · rw [heq] at hchanged
        cases hchanged
      · obtain rfl := (Prod.mk.inj (heq.symm.trans hchanged)).2
        have hrows := h.of_rows (MySql.rows_of_execute hexec hne)
        have hmapped : NoGroupLinks ⟨sql, st.users.modifyById (st.users.heap p).userid (withPassword newpassword)
            fun _ => rfl⟩ := hrows.modifyById _ fun _ _ hb => hb
        exact hmapped.modify p fun _ _ hb => hb
  | @modifyUserPassword_failed _ _ userid newpassword hfailed =>
      rcases modifyUserPassword_cases env userid newpassword st with ⟨sql, heq, -, hexec⟩ | ⟨sql, heq, -⟩
      · obtain rfl := (Prod.mk.inj (heq.symm.trans hfailed)).2
        exact h.of_rows (MySql.rows_of_execute hexec hne)
      · rw [heq] at hfailed
        cases hfailed
  | saveChatMsgToDb senderid targetid chatmsg =>
      exact h.of_rows (MySql.rows_of_execute rfl hne')
  | getChatHistory userid targetid limit =>
      rw [snd_getChatHistory]
      exact h.of_rows rfl
  | setRecord _ p f hf _ _ hfriends =>
      exact h.modify p fun u b hb => by rwa [hfriends] at hb

/-- Deleting a relationship. -/
theorem deleteFriend (h : NoGroupLinks st) (userid friendid : Int) :
    NoGroupLinks (deleteFriendToUser env userid friendid st).2 := by
  have hremove : ∀ (st : Store) (id friendid : Int), NoGroupLinks st →
      NoGroupLinks ⟨st.sql, st.users.removeFriend id friendid⟩ := fun st id friendid h =>
    h.modifyById id fun u b hb => (OrdSet.mem_remove.1 hb).2
  rcases deleteFriendToUser_cases env userid friendid st with ⟨husers, hdb⟩ | ⟨sql, heq, hexec⟩
  · generalize (deleteFriendToUser env userid friendid st).2 = st' at husers hdb
    obtain ⟨sql, users⟩ := st'
    cases husers
    exact h.of_rows (by rw [hdb])
  · have hdelete := MySql.db_exec_of_execute hexec
    have hrows : NoGroupLinks ⟨sql, st.users⟩ :=
      ⟨fun a b hrow => h.rows a b ((hasRow_deleteFriend hdelete a b).1 hrow).1, h.friends⟩
    rw [heq]
    exact hremove _ friendid userid (hremove _ userid friendid hrows)

/-- A friend more, where one of the two is no group. -/
theorem addFriend (h : NoGroupLinks st) {id friendid : Int}
    (huser : id < GROUPID_BOUNDARY ∨ friendid < GROUPID_BOUNDARY) :
    NoGroupLinks ⟨st.sql, st.users.addFriend id friendid⟩ where
  rows := h.rows
  friends p hp' hgroup' b hb' := by
    have hp : p ∈ st.users.cachedUsers := by simpa [UserManager.addFriend] using hp'
    have hgroup : GROUPID_BOUNDARY ≤ (st.users.heap p).userid := by simpa [UserManager.addFriend] using hgroup'
    rcases heap_modifyById st.users id (fun u => { u with friends := u.friends.add friendid }) (fun _ => rfl) p with
      hsame | ⟨hid, hadded⟩
    · exact h.friends p hp hgroup b (by rw [← hsame]; exact hb')
    · have hb : b ∈ (st.users.heap p).friends.add friendid := by
        show b ∈ ({ st.users.heap p with friends := (st.users.heap p).friends.add friendid } : User).friends
        rw [← hadded]
        exact hb'
      rcases OrdSet.mem_add.1 hb with rfl | hold
      · exact huser.resolve_left (not_lt.2 (hid ▸ hgroup))
      · exact h.friends p hp hgroup b hold

/-- A relationship of a user reaches both records. -/
theorem linked (h : NoGroupLinks st) {smallid : Int} (hsmall : smallid < GROUPID_BOUNDARY) (greatid : Int) :
    NoGroupLinks ⟨st.sql, UserManager.linked smallid greatid st.users⟩ := by
  have hone : NoGroupLinks ⟨st.sql, st.users.addFriend smallid greatid⟩ := h.addFriend (Or.inl hsmall)
  unfold UserManager.linked
  split_ifs
  · exact hone.addFriend (Or.inr hsmall)
  · exact hone
  · exact h

/-- **Making a relationship** keeps it exactly when it is none of two groups that is inserted. -/
theorem makeFriend_iff (h : NoGroupLinks st) (smallid greatid : Int) :
    NoGroupLinks (makeFriendRelationship env smallid greatid st).2 ↔
      ¬ (GROUPID_BOUNDARY ≤ smallid ∧ smallid < greatid ∧
        (MySql.execute env (makeFriendStmt smallid greatid) st.sql).1 = true) := by
  rcases le_or_gt greatid smallid with hle | hlt
  · rw [makeFriendRelationship_of_le env st hle]
    exact iff_of_true h fun hbad => absurd hbad.2.1 (not_lt.2 hle)
  rcases MySql.execute_cases env (makeFriendStmt smallid greatid) st.sql with ⟨sql, hexec, hdb⟩ | ⟨sql, hexec⟩
  · rw [makeFriendRelationship_of_refused env hlt hexec, hexec]
    exact iff_of_true (h.of_rows (by rw [hdb])) fun hbad => absurd hbad.2.2 Bool.false_ne_true
  have hinsert := MySql.db_exec_of_execute hexec
  rw [makeFriendRelationship_of_inserted env hlt hexec, hexec]
  constructor
  · rintro hafter ⟨hgroup, -, -⟩
    rcases hafter.rows smallid greatid ((hasRow_makeFriend hinsert _ _).2 (.inr ⟨rfl, rfl⟩)) with hsmall | hgreat
    · omega
    · omega
  · intro hnot
    have hsmall : smallid < GROUPID_BOUNDARY := not_le.1 fun hgroup => hnot ⟨hgroup, hlt, rfl⟩
    have hrows : NoGroupLinks ⟨sql, st.users⟩ := by
      refine ⟨fun a b hrow => ?_, h.friends⟩
      rcases (hasRow_makeFriend hinsert a b).1 hrow with hold | ⟨rfl, -⟩
      · exact h.rows a b hold
      · exact Or.inl hsmall
    exact hrows.linked hsmall greatid

/-- A relationship with one who is no group. -/
theorem makeFriends (h : NoGroupLinks st) {a b : Int} (huser : a < GROUPID_BOUNDARY ∨ b < GROUPID_BOUNDARY) :
    NoGroupLinks (makeFriendRelationship env (if a < b then a else b) (if a < b then b else a) st).2 := by
  refine (h.makeFriend_iff _ _).2 fun hbad => ?_
  rw [ite_lt_eq_min] at hbad
  have hmin := le_min_iff.1 hbad.1
  omega

/-- **A start** on a table without such rows: what the cursor finds behind an empty result must not be about
a group. -/
theorem init {sql : MySql} (hinit : UserManager.init env ⟨sql, new⟩ = (true, st))
    (htable : RelationshipTable sql.db)
    (hcursor : ∀ p ∈ st.users.cachedUsers, GROUPID_BOUNDARY ≤ (st.users.heap p).userid →
      StaleMisses env (st.users.heap p).userid)
    (hrows : ∀ a b, HasRow sql.db a b → a < GROUPID_BOUNDARY ∨ b < GROUPID_BOUNDARY) : NoGroupLinks st where
  rows := by
    rw [db_init hinit]
    exact hrows
  friends p hp hgroup b hb := by
    rcases hasRow_of_mem_friends_init hinit htable hp (hcursor p hp hgroup) hb with hrow | hrow
    · exact (hrows _ _ hrow).resolve_left (not_lt.2 hgroup)
    · exact (hrows _ _ hrow).resolve_right (not_lt.2 hgroup)

end NoGroupLinks

/-! ## Requests -/

section Requests

variable {env : Env} {w : World} {n : Nat} {msg : MessageContainer}

theorem noGroupLinks_addFriendRsp (h : NoGroupLinks w.store) (friendid : Int) :
    Yields (fun a => NoGroupLinks a.2.store) (addFriendRsp env n w friendid) := by
  unfold addFriendRsp
  split_ifs with hgroup
  · exact .ok h
  · refine Yields.theUser fun p => ?_
    have hmade : NoGroupLinks (makeFriends env w (w.record p).userid friendid).2 :=
      h.makeFriends (.inr (not_le.1 hgroup))
    rcases hresult : makeFriends env w (w.record p).userid friendid with ⟨_ | _, st⟩ <;> rw [hresult] at hmade
    · exact .ok hmade
    · refine .ok ?_
      rw [store_notify]
      exact hmade

theorem noGroupLinks_deleteFriendRsp (h : NoGroupLinks w.store) (friendid : Int) :
    Yields (fun a => NoGroupLinks a.2.store) (deleteFriendRsp env n w friendid) := by
  unfold deleteFriendRsp
  refine Yields.theUser fun p => ?_
  have hdeleted := @NoGroupLinks.deleteFriend env.sql _ h (w.record p).userid friendid
  rcases hresult : UserManager.deleteFriendToUser env.sql (w.record p).userid friendid w.store with ⟨_ | _, st⟩ <;>
    rw [hresult] at hdeleted
  · exact .ok hdeleted
  · refine .ok ?_
    rw [store_notify]
    exact hdeleted

/-- What a request about friends does that is no invitation into a group. -/
theorem noGroupLinks_operateFriendRsp (h : NoGroupLinks w.store)
    (hother : ∀ req, env.pb.operateFriendReq.parse msg.payload = some req → req.type = 3 →
      msg.targetId < GROUPID_BOUNDARY) :
    Yields (fun a => NoGroupLinks a.2.store) (operateFriendRsp env n msg w) := by
  unfold operateFriendRsp
  cases hparse : env.pb.operateFriendReq.parse msg.payload with
  | none => exact .ok h
  | some req =>
      refine .ite (noGroupLinks_addFriendRsp h req.friendid) (.ite (noGroupLinks_deleteFriendRsp h req.friendid) ?_)
      split_ifs with hinvite
      · unfold inviteRsp
        rw [if_neg (not_le.2 (hother req hparse hinvite))]
        exact .ok h
      · exact .ok h

/-- A group is created by a user. -/
theorem noGroupLinks_createGroupRsp (h : NoGroupLinks w.store)
    (huser : ∀ p ∈ (w.session n).user, (w.record p).userid < GROUPID_BOUNDARY) :
    Yields (fun a => NoGroupLinks a.2.store) (createGroupRsp env n msg w) := by
  unfold createGroupRsp
  cases env.pb.createGroupReq.parse msg.payload with
  | none => exact .ok h
  | some req =>
      dsimp only
      split_ifs
      · exact .ok h
      · refine Yields.theUser_of_mem fun p hp => ?_
        have hadded : NoGroupLinks (UserManager.addGroup env.sql req.groupname (w.record p).userid w.store).2.2 :=
          @NoGroupLinks.quiet env.sql _ _ h (.addGroup req.groupname (w.record p).userid w.store)
        rcases hresult : UserManager.addGroup env.sql req.groupname (w.record p).userid w.store with
          ⟨_ | _, groupid, st⟩ <;> rw [hresult] at hadded
        · exact .ok hadded
        · refine .ok ?_
          show NoGroupLinks (makeFriends env (w.withStore st) ((w.withStore st).record p).userid groupid).2
          rcases UserManager.userid_addGroup hresult p with hold | hnew
          · refine hadded.makeFriends (.inl ?_)
            show (st.users.heap p).userid < GROUPID_BOUNDARY
            rw [hold]
            exact huser p hp
          · -- it would be the group itself, which is no friend of itself
            have hself : ((w.withStore st).record p).userid = groupid := hnew
            rw [hself]
            refine (hadded.makeFriend_iff _ _).2 fun hbad => absurd hbad.2.1 ?_
            rw [ite_self]
            exact lt_irrefl groupid

end Requests

/-! ## Events -/

variable {env : Env} {w w' : World} {e : Event}

/-- An event invites one into one group at most. -/
theorem Invites.unique {friendid groupid friendid' groupid' : Int} (h : Invites env w e friendid groupid)
    (h' : Invites env w e friendid' groupid') : friendid = friendid' ∧ groupid = groupid' := by
  obtain ⟨n, msg, rfl, -, -, rfl, -, hparse⟩ := h
  obtain ⟨n', msg', heq, -, -, htarget, -, hparse'⟩ := h'
  cases heq
  rw [hparse] at hparse'
  cases hparse'
  exact ⟨rfl, htarget⟩

/-- An invitation makes the relationship, and faults never. -/
theorem Invites.step {friendid groupid : Int} (h : Invites env w e friendid groupid) :
    ∃ w', step env w e = .ok w' ∧ w'.store = (makeFriends env w friendid groupid).2 := by
  obtain ⟨n, msg, rfl, hn, hcmd, rfl, hgroup, hparse⟩ := h
  generalize hw₀ : (w.setSession n fun s => { s with seq := msg.seq }) = w₀
  have hmade : (makeFriends env w₀ friendid msg.targetId).2 = (makeFriends env w friendid msg.targetId).2 := by
    rw [← hw₀]
    rfl
  have hinvite : (inviteRsp env w₀ friendid msg.targetId).2.store = (makeFriends env w₀ friendid msg.targetId).2 := by
    unfold inviteRsp
    rw [if_pos hgroup]
    rcases makeFriends env w₀ friendid msg.targetId with ⟨_ | _, st⟩ <;> rfl
  have hrsp : operateFriendRsp env n msg w₀ = .ok (inviteRsp env w₀ friendid msg.targetId) := by
    unfold operateFriendRsp
    rw [hparse]
    rfl
  rw [step_operatefriend hn hcmd, hw₀, onOperateFriendResponse, hrsp]
  exact ⟨_, rfl, hinvite.trans hmade⟩

/-- Every other event keeps it. -/
theorem noGroupLinks_step (h : NoGroupLinks w.store) (husers : ByUsers w e)
    (hother : ∀ friendid groupid, ¬ Invites env w e friendid groupid) (hstep : step env w e = .ok w') :
    NoGroupLinks w'.store := by
  rcases stored_or_dispatched hstep with hsame | ⟨n, msg, rfl, hn, hrun⟩
  · rw [hsame]
    exact h
  generalize hw₀ : (w.setSession n fun s => { s with seq := msg.seq }) = w₀ at hrun
  have h₀ : NoGroupLinks w₀.store := by
    rw [← hw₀]
    exact h
  by_cases hmsg : OnRelationships msg
  · have huser : ∀ p ∈ (w₀.session n).user, (w₀.record p).userid < GROUPID_BOUNDARY := by
      rw [← hw₀, World.session_setSession, if_pos rfl]
      exact husers hmsg
    rcases hmsg with hcmd | hcmd
    · -- an invitation names no group, or it would be one into a group
      have hinvite : ∀ req, env.pb.operateFriendReq.parse msg.payload = some req → req.type = 3 →
          msg.targetId < GROUPID_BOUNDARY := by
        intro req hparse htype
        by_contra hgroup
        refine hother req.friendid msg.targetId ⟨n, msg, rfl, hn, hcmd, rfl, not_lt.1 hgroup, ?_⟩
        rw [hparse, ← htype]
      rw [dispatch_operatefriend env n msg w₀ hcmd] at hrun
      exact (noGroupLinks_operateFriendRsp h₀ hinvite).bind
        (S := fun w' => NoGroupLinks w'.store) (fun a ha => .ok ha) w' hrun
    · rw [dispatch_creategroup env n msg w₀ hcmd] at hrun
      exact (noGroupLinks_createGroupRsp h₀ huser).bind
        (S := fun w' => NoGroupLinks w'.store) (fun a ha => .ok ha) w' hrun
  · exact (quiet_dispatch env n msg w₀ hmsg w' hrun).keep (I := NoGroupLinks) (fun hmove h => h.quiet hmove) h₀

/-- **One event** keeps it exactly when it inserts no group as the member of another. -/
theorem noGroupLinks_step_iff (h : NoGroupLinks w.store) (husers : ByUsers w e) (hstep : step env w e = .ok w') :
    NoGroupLinks w'.store ↔ InvitesNoGroup env w e := by
  by_cases hinvites : ∃ friendid groupid, Invites env w e friendid groupid
  · obtain ⟨friendid, groupid, hinvites⟩ := hinvites
    have hgroup : GROUPID_BOUNDARY ≤ groupid := by
      obtain ⟨n, msg, -, -, -, -, hgroup, -⟩ := hinvites
      exact hgroup
    obtain ⟨w'', hw'', hstore⟩ := hinvites.step
    obtain rfl := Except.ok.inj (hw''.symm.trans hstep)
    have hlt : min friendid groupid < max friendid groupid ↔ friendid ≠ groupid := min_lt_max
    rw [hstore, ClientSession.makeFriends, UserManager.ite_lt_eq_min, UserManager.ite_lt_eq_max,
      h.makeFriend_iff, hlt, le_min_iff]
    constructor
    · intro hnot friendid' groupid' hinvites' hfriend hne
      obtain ⟨rfl, rfl⟩ := hinvites.unique hinvites'
      exact Bool.eq_false_iff.2 fun hexec => hnot ⟨⟨hfriend, hgroup⟩, hne, hexec⟩
    · rintro hrefused ⟨⟨hfriend, -⟩, hne, hexec⟩
      rw [hrefused friendid groupid hinvites hfriend hne] at hexec
      cases hexec
  · have hother : ∀ friendid groupid, ¬ Invites env w e friendid groupid :=
      fun friendid groupid h => hinvites ⟨friendid, groupid, h⟩
    exact iff_of_true (noGroupLinks_step h husers hother hstep) fun friendid groupid h => absurd h (hother _ _)

/-- **Members of groups are users.** A server is started on a table of relationships without two groups in
a row, and requests about friends and groups come from users. Then no row and no set of friends ever joins
two groups exactly when every invitation of one group into another has its statement refused. -/
theorem group_links_iff {sql : MySql} {st : Store}
    (hinit : UserManager.init env.sql ⟨sql, UserManager.new⟩ = (true, st))
    (htable : UserManager.RelationshipTable sql.db)
    (hcursor : ∀ p ∈ st.users.cachedUsers, GROUPID_BOUNDARY ≤ (st.users.heap p).userid →
      UserManager.StaleMisses env.sql (st.users.heap p).userid)
    (hrows : ∀ a b, HasRow sql.db a b → a < GROUPID_BOUNDARY ∨ b < GROUPID_BOUNDARY) {es : List Event}
    (husers : Run.Always (step env) ByUsers (World.init st) es) :
    (∀ pre w, pre <+: es → Run.run (step env) (World.init st) pre = .ok w → NoGroupLinks w.store) ↔
      Run.Always (step env) (InvitesNoGroup env) (World.init st) es := by
  refine Run.forall_prefix_iff_always (I := fun _ => True) (H := ByUsers)
    (Q := fun w : World => NoGroupLinks w.store) (fun _ _ _ _ _ _ => trivial) ?_ ?_ trivial
    (NoGroupLinks.init hinit htable hcursor hrows) husers
  · exact fun w e w' _ h husers hstep => noGroupLinks_step_iff h husers hstep
  · intro w e f _ _ _ hfault friendid groupid hinvites
    -- an invitation faults never
    obtain ⟨w', hw', -⟩ := hinvites.step
    rw [hw'] at hfault
    cases hfault

/-- Users leave the table of relationships as it was made. -/
theorem relationships_twoUsers : UserManager.RelationshipTable twoUsers.sql.db ∧
    twoUsers.sql.db.rows "t_user_relationship" = [] := by
  have hne : "t_user_relationship" ≠ "t_user" := by decide
  have hadd : ∀ (user : User) (st : Store),
      (UserManager.addUser SqlEnv.ideal user st).2.sql.db.tables "t_user_relationship" =
        st.sql.db.tables "t_user_relationship" := by
    intro user st
    rcases UserManager.addUser_cases SqlEnv.ideal user st with ⟨sql, heq, hdb, -⟩ | ⟨sql, heq, hexec⟩
    · rw [heq]
      exact congrArg (Db.tables · "t_user_relationship") hdb
    · rw [heq]
      exact Db.exec_other (MySql.db_exec_of_execute hexec) hne
  have htable : twoUsers.sql.db.tables "t_user_relationship" = some MySqlManager.freshUserRelationship := by
    rw [twoUsers, hadd, UserManager.oneUser, hadd]
    rfl
  have hrows : twoUsers.sql.db.rows "t_user_relationship" = [] := Db.rows_of_table htable
  refine ⟨⟨⟨_, htable, by decide +kernel, by decide +kernel⟩, ?_⟩, hrows⟩
  rw [hrows]
  exact fun r hr => absurd hr List.not_mem_nil

/-- A request to create a group. -/
def createGroupMessage (groupname : Bytes) : MessageContainer :=
  { cmd := msg_type_creategroup, seq := 2
    payload := Protobuf.wire.createGroupReq.serialize { groupname := groupname } }

/-- A request to invite into a group. -/
def inviteMessage (friendid groupid : Int) : MessageContainer :=
  { cmd := msg_type_operatefriend, seq := 3, targetId := groupid
    payload := Protobuf.wire.operateFriendReq.serialize { type := 3, friendid := friendid } }

/-- `a` creates a group and invites `b`. -/
def inviteB : List Event :=
  [.connect 1, .recv 0 (loginMessage (str "a") (str "p")), .recv 0 (createGroupMessage (str "g")),
    .recv 0 (inviteMessage 2 0x10000000)]

theorem group_links_iff_inviteB :
    (∀ pre w, pre <+: inviteB → Run.run (step (Env.ideal none)) (World.init twoUsersStarted) pre = .ok w →
        NoGroupLinks w.store) ↔
      Run.Always (step (Env.ideal none)) (InvitesNoGroup (Env.ideal none)) (World.init twoUsersStarted) inviteB := by
  refine @group_links_iff (Env.ideal none) twoUsers.sql twoUsersStarted init_twoUsers relationships_twoUsers.1
    (fun p _ _ n pRow hpRow => ?_) ?_ inviteB (by decide +kernel)
  · cases hpRow
  · rintro a b ⟨r, hr, -⟩
    rw [relationships_twoUsers.2] at hr
    cases hr

/-- `a` creates two groups and invites the second into the first. -/
def groupInGroup : List Event :=
  [.connect 1, .recv 0 (loginMessage (str "a") (str "p")), .recv 0 (createGroupMessage (str "g")),
    .recv 0 (createGroupMessage (str "h")), .recv 0 (inviteMessage 0x10000001 0x10000000)]

/-- The second group is a member of the first then. -/
theorem group_in_group :
    NoGroupLinks twoUsersStarted ∧
      Run.Always (step (Env.ideal none)) ByUsers (World.init twoUsersStarted) groupInGroup ∧
      ¬ ∀ pre w, pre <+: groupInGroup →
        Run.run (step (Env.ideal none)) (World.init twoUsersStarted) pre = .ok w → NoGroupLinks w.store := by
  refine ⟨?_, by decide +kernel, fun h => ?_⟩
  · refine NoGroupLinks.init init_twoUsers relationships_twoUsers.1 (fun p _ _ n pRow hpRow => ?_) ?_
    · cases hpRow
    · rintro a b ⟨r, hr, -⟩
      rw [relationships_twoUsers.2] at hr
      cases hr
  · obtain ⟨w, hrun, hrow⟩ := @Run.exists_of_eval _ _
      (Run.run (step (Env.ideal none)) (World.init twoUsersStarted) groupInGroup)
      (fun w => ∃ r ∈ w.store.sql.db.rows "t_user_relationship",
        r "f_user_id1" = .int 0x10000000 ∧ r "f_user_id2" = .int 0x10000001) _ (by decide +kernel)
    have hlinked := (h groupInGroup w (List.prefix_refl _) hrun).rows 0x10000000 0x10000001 hrow
    exact absurd hlinked (by decide)

end AimChat
