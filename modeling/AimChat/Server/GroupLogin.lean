import AimChat.Server.Authentication
import AimChat.Server.StoreMoves
import AimChat.Store.Passwords

/-! # No login as a group

A group is found by its name as a user is, and a refused login binds the session to it. What keeps everybody
out is its empty password, which no login and no change of a password can carry. The server here may be
restarted, also after a fault has ended its process; what it goes on with then is the database. -/

namespace AimChat

open ClientSession UserManager

/-- A server: running, or down with the database it has left. -/
inductive Server
  | running (w : World)
  | down (sql : MySql)

/-- What happens to a server: an event, or the process ends and is started again. -/
inductive ServerEvent
  | event (e : Event)
  | restart

namespace Server

/-- The connection to the database. -/
def sql : Server → MySql
  | running w => w.store.sql
  | down sql => sql

/-- A start on a database; the server stays down when `init` fails. -/
def start (env : Env) (sql : MySql) : Server :=
  match UserManager.init env.sql ⟨sql, new⟩ with
  | (true, st) => running (World.init st)
  | (false, st) => down st.sql

/-- One event, or a restart. A fault ends the process; it comes before the handler's first statement. -/
def step (env : Env) (s : Server) : ServerEvent → Except Empty Server
  | .restart => .ok (start env s.sql)
  | .event e =>
      match s with
      | down sql => .ok (down sql)
      | running w =>
          match AimChat.step env w e with
          | .ok w' => .ok (running w')
          | .error _ => .ok (down w.store.sql)

end Server

/-- The id of the group that a message creates: `AddGroup` is called and returns true. -/
def createdGroup (env : Env) (w : World) (n : Nat) (msg : MessageContainer) : List Int :=
  match env.pb.createGroupReq.parse msg.payload, (w.session n).user with
  | some req, some p =>
      if w.im.Connected n ∧ msg.cmd = msg_type_creategroup ∧ req.groupname ≠ [] then
        match addGroup env.sql req.groupname (w.record p).userid w.store with
        | (true, groupid, _) => [groupid]
        | (false, _, _) => []
      else []
  | _, _ => []

/-- The id of the group that is created. -/
def Server.created (env : Env) : Server → ServerEvent → List Int
  | .running w, .event (.recv n msg) => createdGroup env w n msg
  | _, _ => []

/-- These groups have no password, in memory and in `t_user`, and no `LoginReq` is answered with code 0 for
the record of one. -/
def NoGroupLogin (env : Env) (groups : List Int) : Server → Prop
  | .running w => (∀ g ∈ groups, NoPassword w.store g) ∧
      ∀ payload p, loginCode env payload w.store.users = (0, some p) → (w.record p).userid ∉ groups
  | .down sql => ∀ g ∈ groups, EmptyRow sql.db g

variable {env : Env}

/-- A login answered with code 0 carries a password, which is the record's. -/
theorem userid_of_login {groups : List Int} {w : World} (h : ∀ g ∈ groups, NoPassword w.store g) {payload : Bytes}
    {p : UserPtr} (hcode : loginCode env payload w.store.users = (0, some p)) : (w.record p).userid ∉ groups := by
  intro hmem
  obtain ⟨req, -, -, hpassword, -, hzero⟩ := loginCode_eq_some env hcode
  have hright : req.password = (w.store.users.heap p).password := by
    by_contra hwrong
    rw [if_neg hwrong] at hzero
    cases hzero
  exact hpassword (hright.trans ((h _ hmem).records p rfl))

/-! ## One event -/

/-- A move keeps the groups. -/
theorem keepsGroups_move {env : SqlEnv} {st st' : Store} (h : StoreMove env st st') : KeepsGroups env st st' := by
  cases h with
  | addUser user => exact keepsGroups_addUser user st
  | addGroup groupname ownerid => exact (keepsGroups_addGroup groupname ownerid st).1
  | updateUserInfo userid info => exact keepsGroups_updateUserInfo userid info st
  | modifyUserPassword hpassword h => exact keepsGroups_modifyUserPassword hpassword h
  | @modifyUserPassword_failed _ _ userid newpassword h =>
      rcases modifyUserPassword_cases env userid newpassword st with ⟨sql, heq, hdb, -⟩ | ⟨sql, heq, -⟩ <;>
        rw [heq] at h <;> cases h
      exact .of_same (.inl hdb) (SameUsers.refl _)
  | makeFriendRelationship smallid greatid => exact keepsGroups_makeFriendRelationship smallid greatid st
  | deleteFriendToUser userid friendid => exact keepsGroups_deleteFriendToUser userid friendid st
  | saveChatMsgToDb senderid targetid chatmsg => exact keepsGroups_saveChatMsgToDb senderid targetid chatmsg st
  | getChatHistory userid targetid limit => exact keepsGroups_getChatHistory userid targetid limit st
  | setRecord _ p f hf hpassword _ => exact .modify st p f hf hpassword

/-- An event keeps the groups. -/
theorem keepsGroups_step {w w' : World} {e : Event} (h : step env w e = .ok w') :
    KeepsGroups env.sql w.store w'.store :=
  (moves_step h).induct KeepsGroups.refl KeepsGroups.trans keepsGroups_move

/-- A group is created by a named request of a session with a user. -/
theorem mem_createdGroup {w : World} {n : Nat} {msg : MessageContainer} {g : Int}
    (h : g ∈ createdGroup env w n msg) :
    ∃ req p st, env.pb.createGroupReq.parse msg.payload = some req ∧ (w.session n).user = some p ∧
      w.im.Connected n ∧ msg.cmd = msg_type_creategroup ∧ req.groupname ≠ [] ∧
      addGroup env.sql req.groupname (w.record p).userid w.store = (true, g, st) := by
  unfold createdGroup at h
  cases hparse : env.pb.createGroupReq.parse msg.payload with
  | none => rw [hparse] at h; cases h
  | some req =>
      cases huser : (w.session n).user with
      | none => rw [hparse, huser] at h; cases h
      | some p =>
          rw [hparse, huser] at h
          dsimp only at h
          split_ifs at h with hcond
          · obtain ⟨hn, hcmd, hname⟩ := hcond
            rcases hadd : addGroup env.sql req.groupname (w.record p).userid w.store with ⟨_ | _, groupid, st⟩ <;>
              rw [hadd] at h
            · cases h
            · rw [List.mem_singleton] at h
              exact ⟨req, p, st, rfl, rfl, hn, hcmd, hname, h ▸ hadd⟩
          · cases h

/-- Once `AddGroup` has returned true, `OnCreateGroupResponse` makes the owner a member. -/
theorem onCreateGroupResponse_added {w : World} {n : Nat} {msg : MessageContainer} {req : CreateGroupReq}
    {p : UserPtr} {groupid : Int} {st : Store} (hparse : env.pb.createGroupReq.parse msg.payload = some req)
    (huser : (w.session n).user = some p) (hname : req.groupname ≠ [])
    (hadd : addGroup env.sql req.groupname (w.record p).userid w.store = (true, groupid, st)) :
    ∃ w', onCreateGroupResponse env n msg w = .ok w' ∧
      w'.store = (makeFriends env (w.withStore st) ((w.withStore st).record p).userid groupid).2 := by
  unfold onCreateGroupResponse createGroupRsp World.theUser
  rw [hparse]
  dsimp only
  rw [if_neg hname, huser]
  simp only [bind, Except.bind, pure, Except.pure, hadd]
  exact ⟨_, rfl, rfl⟩

/-- An event that creates a group leads to a state where the group has no password. -/
theorem step_of_created {w : World} {e : Event} {g : Int} (h : g ∈ (Server.running w).created env (.event e)) :
    ∃ w', step env w e = .ok w' ∧ (Accounts env.sql w.store → NoPassword w'.store g) := by
  cases e with
  | recv n msg =>
      obtain ⟨req, p, st, hparse, huser, hn, hcmd, hname, hadd⟩ := mem_createdGroup h
      -- the handler starts when m_seq is set, which it does not look at before the answer
      have huser' : ((w.setSession n fun s => { s with seq := msg.seq }).session n).user = some p :=
        (World.user_setSeq n w msg.seq).trans huser
      obtain ⟨w', hrun, hstore⟩ := onCreateGroupResponse_added hparse huser' hname hadd
      have hdispatch : onMessageReceived env n msg w = .ok w' := by
        unfold onMessageReceived dispatch
        simp [hcmd, hrun]
      refine ⟨w', (step_of_connected hn msg).trans hdispatch, fun hst => ?_⟩
      obtain ⟨hkeeps, hnew⟩ := @keepsGroups_addGroup env.sql req.groupname (w.record p).userid w.store
      rw [hadd] at hkeeps hnew
      rw [hstore]
      exact (keepsGroups_makeFriendRelationship _ _ st (hkeeps hst).1).2 g (hnew rfl hst)
  | connect addr => cases h
  | malformed n => cases h
  | close n => cases h
  | agentDone k rpc => cases h

/-! ## Runs -/

/-- The server keeps the accounts of `t_user`, and these groups have no password. -/
def KeepsAccounts (env : Env) (groups : List Int) : Server → Prop
  | .running w => Accounts env.sql w.store ∧ ∀ g ∈ groups, NoPassword w.store g
  | .down sql => IdTable sql.db ∧ (userIds sql.db = [] → BlankCursor env.sql) ∧ ∀ g ∈ groups, EmptyRow sql.db g

/-- What is left when the process ends. -/
theorem KeepsAccounts.down {groups : List Int} {s : Server} (h : KeepsAccounts env groups s) :
    KeepsAccounts env groups (.down s.sql) := by
  cases s with
  | running w => exact ⟨h.1.table, h.1.cursor, fun g hg => (h.2 g hg).row⟩
  | down sql => exact h

theorem KeepsAccounts.start {groups : List Int} {sql : MySql} (h : KeepsAccounts env groups (.down sql)) :
    KeepsAccounts env groups (Server.start env sql) := by
  obtain ⟨htable, hcursor, hrows⟩ := h
  unfold Server.start
  rcases hinit : UserManager.init env.sql ⟨sql, new⟩ with ⟨_ | _, st⟩
  · show IdTable st.sql.db ∧ _ ∧ ∀ g ∈ groups, EmptyRow st.sql.db g
    rw [db_of_init_false hinit]
    exact ⟨htable, hcursor, hrows⟩
  · obtain ⟨haccounts, hgroups⟩ := accounts_init htable hcursor hinit
    exact ⟨haccounts, fun g hg => hgroups g (hrows g hg)⟩

/-- A step keeps the accounts, and the groups so far and the one it creates have no password. -/
theorem keepsAccounts_step {groups : List Int} {s s' : Server} {e : ServerEvent} (h : KeepsAccounts env groups s)
    (hstep : Server.step env s e = .ok s') : KeepsAccounts env (groups ++ s.created env e) s' := by
  cases e with
  | restart =>
      cases hstep
      have hnone : s.created env .restart = [] := by cases s <;> rfl
      rw [hnone, List.append_nil]
      exact h.down.start
  | event e =>
      cases s with
      | down sql =>
          cases hstep
          show KeepsAccounts env (groups ++ []) _
          rw [List.append_nil]
          exact h
      | running w =>
          obtain ⟨haccounts, hgroups⟩ := h
          change (match AimChat.step env w e with
            | .ok w' => Except.ok (Server.running w')
            | .error _ => .ok (Server.down w.store.sql)) = _ at hstep
          cases hw : AimChat.step env w e with
          | ok w' =>
              rw [hw] at hstep
              cases hstep
              obtain ⟨haccounts', hkeeps⟩ := keepsGroups_step hw haccounts
              refine ⟨haccounts', fun g hg => ?_⟩
              rcases List.mem_append.1 hg with hg | hg
              · exact hkeeps g (hgroups g hg)
              · obtain ⟨w'', hok, hnew⟩ := step_of_created hg
                rw [hw] at hok
                cases hok
                exact hnew haccounts
          | error fault =>
              rw [hw] at hstep
              cases hstep
              -- a faulting handler has created no group
              have hnone : (Server.running w).created env (.event e) = [] := by
                rw [List.eq_nil_iff_forall_not_mem]
                intro g hg
                obtain ⟨w', hok, -⟩ := step_of_created hg
                rw [hw] at hok
                cases hok
              rw [hnone, List.append_nil]
              exact ⟨haccounts.table, haccounts.cursor, fun g hg => (hgroups g hg).row⟩

/-- **No login as a group.** A server is started on any `t_user` with distinct `int32` ids, behind which,
when it is empty, the cursor shows cleared fields. In every state that events and restarts lead to, no group
created on the way has a password, and no login is answered with code 0 for one. -/
theorem noGroupLogin_run {sql : MySql} (htable : IdTable sql.db)
    (hcursor : userIds sql.db = [] → BlankCursor env.sql) {es : List ServerEvent} {s : Server}
    (hrun : Run.run (Server.step env) (.down sql) es = .ok s) :
    NoGroupLogin env (Run.log (Server.step env) (Server.created env) (.down sql) es) s := by
  have hkeeps : KeepsAccounts env (Run.log (Server.step env) (Server.created env) (.down sql) es) s := by
    have hinit : KeepsAccounts env [] (.down sql) := ⟨htable, hcursor, fun g hg => absurd hg List.not_mem_nil⟩
    refine Run.run_history (P := fun _ _ => True)
      (J := fun es s => KeepsAccounts env (Run.log (Server.step env) (Server.created env) (.down sql) es) s)
      hinit (fun es s e s' hes hJ _ hstep => ?_) (Run.always_of_forall (fun _ _ => trivial) _ _) hrun
    rw [Run.log_snoc _ hes]
    exact keepsAccounts_step hJ hstep
  cases s with
  | running w => exact ⟨hkeeps.2, fun payload p hcode => userid_of_login hkeeps.2 hcode⟩
  | down sql' => exact hkeeps.2.2

/-- A server with a mail service that accepts every code, and a database whose empty results show cleared
fields. -/
def withMail : Env :=
  { Env.ideal (some { agent := false, avatar := none, mail := some ⟨fun _ _ => .ok {}, fun _ _ _ => .ok {}⟩ }) with
    sql := clearedFields }

/-- A user registers, logs in and creates a group; after a restart somebody tries to log in as the group. -/
def asGroup : List ServerEvent :=
  [.restart, .event (.connect 1),
    .event (.recv 0
      { cmd := msg_type_register
        payload := Protobuf.wire.registerReq.serialize
          { username := str "a", nickname := str "a", password := str "p", email := str "m", code := str "c" } }),
    .event (.recv 0 (loginMessage (str "a") (str "p"))),
    .event (.recv 0
      { cmd := msg_type_creategroup
        payload := Protobuf.wire.createGroupReq.serialize { groupname := str "g" } }),
    .restart, .event (.connect 1), .event (.recv 0 (loginMessage (str "g") (str "p")))]

theorem noGroupLogin_asGroup :
    Run.log (Server.step withMail) (Server.created withMail) (.down ⟨MySqlManager.freshDb, 6⟩) asGroup =
        [0x10000000] ∧
      ∃ s, Run.run (Server.step withMail) (.down ⟨MySqlManager.freshDb, 6⟩) asGroup = .ok s ∧
        NoGroupLogin withMail (Run.log (Server.step withMail) (Server.created withMail)
          (.down ⟨MySqlManager.freshDb, 6⟩) asGroup) s := by
  refine ⟨by decide +kernel, ?_⟩
  cases hrun : Run.run (Server.step withMail) (.down ⟨MySqlManager.freshDb, 6⟩) asGroup with
  | ok s =>
      refine ⟨s, rfl, noGroupLogin_run idTable_fresh (fun _ n pRow hpRow => ?_) hrun⟩
      cases hpRow
      rfl
  | error fault => exact fault.elim

end AimChat
