import AimChat.Store.UserTable

/-! # Who a name and a password log in as

A login takes the first record of its name in `m_cachedUsers`. While the server runs new records go to
the end of the list, so a name keeps leading to the same record; a restart builds the list anew in
descending order of ids, and then the name leads to the row of that name with the greatest id. -/

namespace AimChat

open Sql

namespace UserManager

/-- A login with this name and password is answered with code 0 and this userid. -/
def LogsInAs (um : UserManager) (username password : Bytes) (userid : Int) : Prop :=
  ∃ p, checkLogin username password um = (0, some p) ∧ (um.heap p).userid = userid

variable {env : SqlEnv} {um um' : UserManager} {st st' : Store} {username password : Bytes}
  {userid : Int}

/-- It is when neither is empty and the first record of the name has the password and the userid. -/
theorem logsInAs_iff : LogsInAs um username password userid ↔
    username ≠ [] ∧ password ≠ [] ∧ ∃ p, um.getUserInfoUsername username = some p ∧
      (um.heap p).password = password ∧ (um.heap p).userid = userid := by
  unfold LogsInAs checkLogin
  by_cases hempty : username = [] ∨ password = []
  · simp only [if_pos hempty]
    refine iff_of_false ?_ fun ⟨h1, h2, _⟩ => hempty.elim h1 h2
    rintro ⟨p, hp, -⟩
    cases hp
  · rw [if_neg hempty]
    obtain ⟨h1, h2⟩ := not_or.1 hempty
    cases hfind : um.getUserInfoUsername username with
    | none => simp
    | some p =>
        by_cases hpassword : password = (um.heap p).password
        · simp [h1, h2, hpassword.symm]
        · simp [hpassword, Ne.symm hpassword]

/-! ## While the server runs -/

/-- A name leads to the same record as long as the list only grows at its end and no record of it is
renamed. -/
theorem getUserInfoUsername_of_grown {p : UserPtr} {new : List UserPtr}
    (hlist : um'.cachedUsers = um.cachedUsers ++ new)
    (hname : ∀ q ∈ um.cachedUsers, (um'.heap q).username = (um.heap q).username)
    (h : um.getUserInfoUsername username = some p) : um'.getUserInfoUsername username = some p := by
  unfold getUserInfoUsername at h ⊢
  have hsame : ∀ l : List UserPtr, (∀ q ∈ l, q ∈ um.cachedUsers) →
      (l.find? fun q => (um'.heap q).username = username) =
        l.find? fun q => (um.heap q).username = username := by
    intro l hl
    induction l with
    | nil => rfl
    | cons q l ih =>
        rw [List.find?_cons, List.find?_cons, hname q (hl q List.mem_cons_self),
          ih fun q' hq' => hl q' (List.mem_cons_of_mem _ hq')]
  rw [hlist, List.find?_append, hsame _ fun _ hq => hq, h]
  rfl

/-- Logging in as before, from the same record. -/
theorem LogsInAs.of_grown {new : List UserPtr} (hlogin : LogsInAs um username password userid)
    (hlist : um'.cachedUsers = um.cachedUsers ++ new)
    (hkept : ∀ q ∈ um.cachedUsers, (um'.heap q).username = (um.heap q).username ∧
      (um'.heap q).userid = (um.heap q).userid)
    (hpassword : ∀ q ∈ um.cachedUsers, (um.heap q).userid = userid → (um.heap q).password = password →
      (um'.heap q).password = password) :
    LogsInAs um' username password userid := by
  rw [logsInAs_iff] at hlogin ⊢
  obtain ⟨h1, h2, p, hfind, hpw, hid⟩ := hlogin
  have hmem : p ∈ um.cachedUsers := List.mem_of_find?_eq_some hfind
  refine ⟨h1, h2, p, ?_, hpassword p hmem hid hpw, (hkept p hmem).2.trans hid⟩
  exact getUserInfoUsername_of_grown hlist (fun q hq => (hkept q hq).1) hfind

/-- A new record does not come between. -/
theorem LogsInAs.share (hlogin : LogsInAs um username password userid) (u : User) :
    LogsInAs (um.share u) username password userid := by
  have hheap : ∀ q ∈ um.cachedUsers, (um.share u).heap q = um.heap q := fun q hq =>
    if_neg (Nat.ne_of_lt (um.cached_lt q hq))
  have hlist : (um.share u).cachedUsers = um.cachedUsers ++ [um.fresh] := rfl
  refine hlogin.of_grown hlist (fun q hq => ?_) fun q hq _ hpw => ?_
  · rw [hheap q hq]
    exact ⟨rfl, rfl⟩
  · rw [hheap q hq]
    exact hpw

/-- Neither does a change that keeps names, nor one that keeps the password of the id. -/
theorem LogsInAs.modifyById {id : Int} {f : User → User} {hf : ∀ u, (f u).userid = u.userid}
    (hlogin : LogsInAs um username password userid) (hname : ∀ u, (f u).username = u.username)
    (hpassword : id = userid → ∀ u, u.password = password → (f u).password = password) :
    LogsInAs (um.modifyById id f hf) username password userid := by
  unfold UserManager.modifyById
  cases hid : um.mapUsers.get? id with
  | none => exact hlogin
  | some p =>
      have hheap : ∀ q, (um.modify p f hf).heap q = if q = p then f (um.heap q) else um.heap q :=
        fun _ => rfl
      have hlist : (um.modify p f hf).cachedUsers = um.cachedUsers ++ [] := (List.append_nil _).symm
      refine hlogin.of_grown hlist (fun q _ => ?_) fun q _ hq hpw => ?_
      · rw [hheap]
        split_ifs
        · exact ⟨hname _, hf _⟩
        · exact ⟨rfl, rfl⟩
      · rw [hheap]
        split_ifs with hqp
        · refine hpassword ?_ _ hpw
          rw [← hq, hqp]
          exact (um.mapped hid).2.symm
        · exact hpw

/-- The password of the id is not changed: a `ModifyUserPassword` of it fails or sets the one it has. -/
def PasswordKept (env : SqlEnv) (userid : Int) (password : Bytes) (st : Store) (op : StoreOp) : Prop :=
  ∀ newpassword, op = .modifyUserPassword userid newpassword →
    (modifyUserPassword env userid newpassword st).1 = true → newpassword = password

/-- **While the server runs**, every operation keeps who a name and a password log in as. -/
theorem LogsInAs.step {op : StoreOp} (hlogin : LogsInAs st.users username password userid)
    (hop : op ≠ .restart) (hkept : PasswordKept env userid password st op)
    (h : step env st op = .ok st') : LogsInAs st'.users username password userid := by
  -- the friends of a record have nothing to do with it
  have hfriends : ∀ {um : UserManager} (id id' : Int), LogsInAs um username password userid →
      LogsInAs (um.addFriend id id') username password userid ∧
        LogsInAs (um.removeFriend id id') username password userid := fun id id' hlogin =>
    ⟨hlogin.modifyById (fun _ => rfl) fun _ _ hpw => hpw,
      hlogin.modifyById (fun _ => rfl) fun _ _ hpw => hpw⟩
  cases operated env hop h with
  | failed op hstmt hfalse => cases op <;> exact hlogin
  | idle op hop hdb => exact hlogin
  | addUser name nickname pw mail hexec =>
      exact (show LogsInAs st.users.takeUserID username password userid from hlogin).share _
  | addGroup groupname ownerid hexec =>
      exact (show LogsInAs st.users.takeGroupID username password userid from hlogin).share _
  | updateUserInfo id info hexec => exact hlogin.modifyById (fun _ => rfl) fun _ _ hpw => hpw
  | modifyUserPassword id newpassword hexec =>
      refine hlogin.modifyById (fun _ => rfl) fun hid u _ => ?_
      subst hid
      refine hkept newpassword rfl ?_
      rw [fst_modifyUserPassword, hexec]
  | linked smallid greatid hlt hexec =>
      change LogsInAs (linked smallid greatid st.users) _ _ _
      unfold linked
      split_ifs
      · exact (hfriends _ _ (hfriends _ _ hlogin).1).1
      · exact (hfriends _ _ hlogin).1
      · exact hlogin
  | unlinked op hop x y hexec => exact (hfriends _ _ (hfriends _ _ hlogin).2).2

/-! ## After a restart -/

/-- The records a start reads: those of the rows of `t_user`, or behind an empty table what the cursor
shows. -/
def shown (env : SqlEnv) (sql : MySql) : List User :=
  if (sql.db.rows "t_user").isEmpty then (env.stale sql.sent).toList.map userOfRow
  else (sql.db.rows "t_user").map rowUser

/-- The name leads to the id: a row that will be read has the name, the password and the id, and no such
row of that name has a greater id. -/
def NameLeadsTo (env : SqlEnv) (sql : MySql) (username password : Bytes) (userid : Int) : Prop :=
  ∃ w ∈ shown env sql, w.username = username ∧ w.password = password ∧ w.userid = userid ∧
    ∀ v ∈ shown env sql, v.username = username → v.userid ≤ userid

/-- The list a start makes has the shown records, in descending order of ids. -/
theorem users_init {sql : MySql} (htable : UserTable sql.db) (hinit : init env ⟨sql, new⟩ = (true, st)) :
    (∀ w, w ∈ st.users.users.map clearFriends ↔ w ∈ shown env sql) ∧
      (st.users.users.map clearFriends).Pairwise fun u v => v.userid < u.userid := by
  obtain ⟨rows, hrows, -, husers, -⟩ := init_loaded hinit
  have hrows' : rows = (userQuery.rows (sql.db.rows "t_user")).map fun r =>
      userQuery.exprs.map fun e => r e.column := Db.select_eq_some hrows
  have hperm := perm_userQuery (sql.db.rows "t_user")
  have hempty : rows.isEmpty = (sql.db.rows "t_user").isEmpty := by
    rw [hrows', List.isEmpty_map, hperm.isEmpty_eq]
  rw [husers]
  unfold QueryResult.visited shown
  rw [hempty]
  split_ifs
  · refine ⟨fun w => Iff.rfl, ?_⟩
    cases env.stale sql.sent with
    | none => exact List.Pairwise.nil
    | some pRow => exact List.pairwise_singleton _ _
  -- the order of the query is that of the list, so the greatest id of a name is found first
  · have horder : rows.map userOfRow = loadOrder sql.db := by
      rw [hrows', List.map_map]
      rfl
    rw [horder]
    refine ⟨fun w => ?_, htable.loadOrder_pairwise⟩
    rw [loadOrder, List.mem_map, List.mem_map]
    simp only [hperm.mem_iff]

/-- In a list with descending keys, `find?` finds the greatest key of those it looks for. -/
theorem find?_eq_some_of_descending {α : Type} {l : List α} {key : α → Int} {p : α → Bool}
    (h : l.Pairwise fun a b => key b < key a) {a : α} :
    l.find? p = some a ↔ a ∈ l ∧ p a = true ∧ ∀ b ∈ l, p b = true → key b ≤ key a := by
  induction l with
  | nil => simp
  | cons c l ih =>
      obtain ⟨hc, hl⟩ := List.pairwise_cons.1 h
      rw [List.find?_cons]
      cases hpc : p c with
      | true =>
          simp only [Option.some.injEq, List.mem_cons, forall_eq_or_imp]
          constructor
          · rintro rfl
            exact ⟨Or.inl rfl, hpc, fun _ => le_rfl, fun b hb _ => (hc b hb).le⟩
          · rintro ⟨rfl | hmem, hpa, hle, -⟩
            · rfl
            · exact absurd (hle hpc) (not_le.2 (hc a hmem))
      | false =>
          simp only [ih hl, List.mem_cons, forall_eq_or_imp]
          constructor
          · rintro ⟨hmem, hpa, hle⟩
            exact ⟨Or.inr hmem, hpa, fun hpc' => by simp [hpc] at hpc', hle⟩
          · rintro ⟨rfl | hmem, hpa, -, hle⟩
            · rw [hpc] at hpa
              cases hpa
            · exact ⟨hmem, hpa, hle⟩

/-- Logins only look at the records, not at their friends. -/
theorem logsInAs_iff_users : LogsInAs um username password userid ↔
    username ≠ [] ∧ password ≠ [] ∧ ∃ w,
      ((um.users.map clearFriends).find? fun u => u.username = username) = some w ∧
        w.password = password ∧ w.userid = userid := by
  rw [logsInAs_iff, users, List.map_map, List.find?_map]
  have hfind : (um.cachedUsers.find? ((fun u : User => decide (u.username = username)) ∘
      (clearFriends ∘ um.heap))) = um.getUserInfoUsername username := rfl
  rw [hfind]
  refine and_congr_right fun _ => and_congr_right fun _ => ?_
  constructor
  · rintro ⟨p, hp, hpw, hid⟩
    exact ⟨clearFriends (um.heap p), by rw [hp]; rfl, hpw, hid⟩
  · rintro ⟨w, hw, hpw, hid⟩
    obtain ⟨p, hp, rfl⟩ := Option.map_eq_some_iff.1 hw
    exact ⟨p, hp, hpw, hid⟩

/-- **After a restart** a name and a password log in as an id exactly when the name leads to it. -/
theorem logsInAs_init {sql : MySql} (htable : UserTable sql.db)
    (hinit : init env ⟨sql, new⟩ = (true, st)) (hname : username ≠ []) (hpassword : password ≠ []) :
    LogsInAs st.users username password userid ↔ NameLeadsTo env sql username password userid := by
  obtain ⟨hmem, hdescending⟩ := users_init htable hinit
  rw [logsInAs_iff_users]
  simp only [find?_eq_some_of_descending hdescending, hmem, decide_eq_true_eq]
  constructor
  · rintro ⟨-, -, w, ⟨hw, hwname, hle⟩, hpw, hid⟩
    exact ⟨w, hw, hwname, hpw, hid, fun v hv hvname => hid ▸ hle v hv hvname⟩
  · rintro ⟨w, hw, hwname, hpw, hid, hle⟩
    exact ⟨hname, hpassword, w, ⟨hw, hwname, fun v hv hvname => hid ▸ hle v hv hvname⟩, hpw, hid⟩

/-! ## Over a run -/

/-- Every restart keeps the table of users in order, as every other operation does. -/
theorem UserTable.step_any {op : StoreOp} (htable : UserTable st.sql.db)
    (h : UserManager.step env st op = .ok st') : UserTable st'.sql.db := by
  by_cases hop : op = .restart
  · subst hop
    obtain ⟨-, -, hdb, -⟩ := init_loaded (step_restart h)
    rw [hdb]
    exact htable
  · exact htable.step hop h

/-- At a restart that succeeds, the name leads to the id. -/
def RestartFinds (env : SqlEnv) (username password : Bytes) (userid : Int) (st : Store)
    (op : StoreOp) : Prop :=
  op = .restart → (init env ⟨st.sql, new⟩).1 = true →
    NameLeadsTo env st.sql username password userid

/-- **One step.** A login that succeeds goes on doing so exactly when the step is no restart that loses
the name. -/
theorem logsInAs_step_iff {op : StoreOp} (htable : UserTable st.sql.db)
    (hlogin : LogsInAs st.users username password userid)
    (hkept : PasswordKept env userid password st op) (h : step env st op = .ok st') :
    LogsInAs st'.users username password userid ↔ RestartFinds env username password userid st op := by
  by_cases hop : op = .restart
  · subst hop
    obtain ⟨hname, hpassword, -⟩ := logsInAs_iff.1 hlogin
    have hinit := step_restart h
    rw [logsInAs_init htable hinit hname hpassword, RestartFinds, hinit]
    simp
  · exact iff_of_true (hlogin.step hop hkept h) fun hrestart => absurd hrestart hop

/-- **When a login identity is stable.** On a server started on any `t_user` and run through any
operations and restarts: once a login with a name and a password succeeds as an id, it goes on doing so
for as long as the id's password is not changed, exactly when at every later restart the name leads to
the id. -/
theorem login_identity_iff {sql : MySql} {st₀ : Store} (htable : UserTable sql.db)
    (hstart : init env ⟨sql, new⟩ = (true, st₀)) {before after : List StoreOp}
    (hbefore : Run.run (step env) st₀ before = .ok st)
    (hlogin : LogsInAs st.users username password userid)
    (hkept : Run.Always (step env) (PasswordKept env userid password) st after) :
    (∀ pre st', pre <+: after → Run.run (step env) st pre = .ok st' →
        LogsInAs st'.users username password userid) ↔
      Run.Always (step env) (RestartFinds env username password userid) st after := by
  have hstarted : UserTable st₀.sql.db := by
    obtain ⟨-, -, hdb, -⟩ := init_loaded hstart
    rw [hdb]
    exact htable
  have hnow : UserTable st.sql.db :=
    Run.run_invariant (P := fun _ _ => True) (I := fun st : Store => UserTable st.sql.db)
      (fun _ _ _ ht _ h => ht.step_any h) hstarted (Run.always_of_forall_mem fun _ _ => trivial)
      hbefore
  refine Run.forall_prefix_iff_always (I := fun st : Store => UserTable st.sql.db)
    (Q := fun st : Store => LogsInAs st.users username password userid)
    (fun _ _ _ ht _ h => ht.step_any h) ?_ ?_ hnow hlogin hkept
  · intro st op st' ht hlogin hkept h
    exact logsInAs_step_iff ht hlogin hkept h
  · -- only a restart whose `init` fails ends the run
    intro st op _ _ _ _ h hop hinit
    subst hop
    unfold step at h
    dsimp only at h
    cases hst : init env ⟨st.sql, new⟩ with
    | mk ok st₁ =>
        rw [hst] at h hinit
        cases hinit
        cases h

/-- The server on fresh tables once one user has registered. -/
def oneUser : Store :=
  (addUser SqlEnv.ideal (newUser (str "a") (str "a") (str "p") []) ⟨⟨MySqlManager.freshDb, 7⟩, new⟩).2

/-- The user can log in. -/
theorem logsInAs_oneUser : LogsInAs oneUser.users (str "a") (str "p") 1 :=
  ⟨0, by decide +kernel, by decide +kernel⟩

/-- A user and a restart. -/
theorem login_identity_oneUser :
    (∀ pre st', pre <+: [StoreOp.restart] → Run.run (step SqlEnv.ideal) oneUser pre = .ok st' →
        LogsInAs st'.users (str "a") (str "p") 1) ↔
      Run.Always (step SqlEnv.ideal) (RestartFinds SqlEnv.ideal (str "a") (str "p") 1) oneUser
        [.restart] :=
  login_identity_iff userTable_fresh init_fresh
    (show Run.run (step SqlEnv.ideal) _ [.addUser (str "a") (str "a") (str "p") []] = .ok oneUser from rfl)
    logsInAs_oneUser ⟨fun _ h => (by cases h), fun _ _ => trivial⟩

/-- A group of the user's name takes the login over at the next restart: it has the greater id, stands
first in the list, and has another password. -/
theorem group_takes_login :
    LogsInAs oneUser.users (str "a") (str "p") 1 ∧
      ¬ ∀ st', Run.run (step SqlEnv.ideal) oneUser [.addGroup (str "a") 1, .restart] = .ok st' →
        LogsInAs st'.users (str "a") (str "p") 1 := by
  refine ⟨logsInAs_oneUser, fun h => ?_⟩
  have hok : (init SqlEnv.ideal ⟨(addGroup SqlEnv.ideal (str "a") 1 oneUser).2.2.sql, new⟩).1 = true := by
    decide +kernel
  have hcode : (checkLogin (str "a") (str "p") (init SqlEnv.ideal
      ⟨(addGroup SqlEnv.ideal (str "a") 1 oneUser).2.2.sql, new⟩).2.users).1 = 104 := by
    decide +kernel
  cases hinit : init SqlEnv.ideal ⟨(addGroup SqlEnv.ideal (str "a") 1 oneUser).2.2.sql, new⟩ with
  | mk ok st' =>
      rw [hinit] at hok hcode
      cases hok
      have hrestart : step SqlEnv.ideal (addGroup SqlEnv.ideal (str "a") 1 oneUser).2.2 .restart =
          .ok st' := by
        unfold step
        rw [hinit]
      obtain ⟨p, hp, -⟩ := h st' (Run.run_cons_eq_ok.2 ⟨_, rfl, Run.run_cons_eq_ok.2
        ⟨st', hrestart, rfl⟩⟩)
      rw [hp] at hcode
      cases hcode

end UserManager

end AimChat
