import AimChat.Store.Mirror

/-! # What a restart shows

A restart builds the user store anew from the two tables. Where memory and tables are in step
(`Mirrored`), what it can show is what they need not agree on: the owner, which the loader does not
read, and the birthday of a new record, which memory sets and the table defaults otherwise. They are in step
after a start on empty tables only where the cursor shows nothing behind an empty result; see
`AimChat.Store.EmptyRestart` for what it does where it shows something. -/

namespace AimChat

open Sql

namespace UserManager

variable {env : SqlEnv} {st st' : Store}

/-! ## What a restart can show -/

/-- What the rest of the program can see of a record; who is online a restart forgets. -/
def visible (u : User) : User := { u with status := 0 }

/-- A restart is unobservable: `init` on the database gives every id the record it has. -/
def RestartUnobservable (env : SqlEnv) (st : Store) : Prop :=
  ∃ st', init env ⟨st.sql, new⟩ = (true, st') ∧
    ∀ id, (st'.users.record id).map visible = (st.users.record id).map visible

/-- The table holds the birthday of the record under an id. -/
def BirthdayKept (st : Store) (id : Int) : Prop :=
  (stored st.sql.db id).map User.birthday = (st.users.record id).map User.birthday

/-- No record has an owner. -/
def OwnerKept (st : Store) : Prop := ∀ id u, st.users.record id = some u → u.ownerid = -1

/-- The server answers every query. -/
def Answers (env : SqlEnv) : Prop := ∀ n, env.selectOk n = true

/-- `data()` of a vector that has been cleared is null: `Fetch` shows nothing behind an empty result. -/
def NullCleared (env : SqlEnv) : Prop := ∀ n, env.stale n = none

/-- On tables in order `init` succeeds. -/
theorem init_ok (henv : Answers env) {sql : MySql} (h : UserTable sql.db) :
    ∃ st', init env ⟨sql, new⟩ = (true, st') := by
  obtain ⟨t, ht, hcols, -⟩ := h.table
  have hsel := Db.select_of_columns (q := userQuery) ht
    (by
      intro c hc
      rw [Table.hasColumn, hcols]
      revert c
      decide +kernel)
    (by intro n hn; cases hn)
  unfold init loadUserFromDB MySql.query
  rw [hsel, henv, if_pos rfl]
  exact ⟨_, rfl⟩

/-- The loader reads no owner. -/
theorem ownerid_stored {db : Db} {id : Int} {w : User} (h : stored db id = some w) :
    w.ownerid = -1 := by
  obtain ⟨r, -, rfl⟩ := List.mem_map.1 (List.mem_of_find?_eq_some h)
  rfl

/-- A record loaded from what lasts of another, with its friends, is that record exactly when it had no
owner and its birthday was stored. -/
theorem visible_eq_iff {u u' w : User} (hload : clearFriends u' = w) (hlasting : lasting w = lasting u)
    (hfriends : u'.friends = u.friends) (howner : w.ownerid = -1) :
    visible u' = visible u ↔ u.ownerid = -1 ∧ w.birthday = u.birthday := by
  subst hload
  cases u
  cases u'
  simp only [visible, lasting, clearFriends, User.mk.injEq, true_and, and_true] at *
  obtain ⟨h1, h2, h3, h4, h5, h6, h7, h8, h9, h10, h11⟩ := hlasting
  subst howner hfriends h1 h2 h3 h4 h5 h6 h7 h8 h9 h10 h11
  simp only [true_and, and_true]
  exact ⟨fun h => ⟨h.2.symm, h.1⟩, fun h => ⟨h.2, h.1.symm⟩⟩

/-- The friends a start loads are the friends there were. -/
theorem Mirrored.friends_init (henv : Answers env) (hnull : NullCleared env) (h : Mirrored st)
    (hinit : init env ⟨st.sql, new⟩ = (true, st')) {id : Int} {u u' : User}
    (hu : st.users.record id = some u) (hu' : st'.users.record id = some u') : u'.friends = u.friends := by
  -- rows stand with the smaller id first, so each is found at both of its ends
  have hlinks : LoadsLinks env st.sql st' := by
    refine ⟨h.links, fun n _ _ => henv n, fun a _ n pRow hpRow => ?_, ?_⟩
    · rw [hnull] at hpRow
      cases hpRow
    · intro a b _ _ hrow
      have hlt := (h.closed.row a b hrow).1
      rwa [min_eq_left hlt.le, max_eq_right hlt.le]
  refine OrdSet.ext fun b => ?_
  have hold := h.agree.lists_iff h.closed (a := id) ⟨u, hu⟩ b
  have hnew := lists_init hinit hlinks (a := id) ⟨u', hu'⟩ b
  have hlists : ∀ {st : Store} {u : User}, st.users.record id = some u →
      (st.copies.lists id b ↔ b ∈ u.friends) := by
    intro st u hu
    change (∃ r, st.users.record id = some r ∧ b ∈ r.friends) ↔ _
    rw [hu]
    simp
  rw [← hlists hu, ← hlists hu', hold, hnew]
  rfl

/-- What a start shows under an id is what was there, exactly when the record there has no owner and the
table holds its birthday. -/
theorem Mirrored.visible_record_iff (henv : Answers env) (hnull : NullCleared env) (h : Mirrored st)
    (hinit : init env ⟨st.sql, new⟩ = (true, st')) (id : Int) :
    (st'.users.record id).map visible = (st.users.record id).map visible ↔
      (∀ u, st.users.record id = some u → u.ownerid = -1) ∧ BirthdayKept st id := by
  have hload := (h.users.init (fun _ => hnull _) hinit).2 id
  have hkept := h.kept id
  unfold BirthdayKept
  -- memory, table and what is loaded have a record under the id, or none of them
  cases hu : st.users.record id with
  | none =>
      cases hw : stored st.sql.db id with
      | some w =>
          rw [hu, hw] at hkept
          cases hkept
      | none =>
          rw [hw] at hload
          cases hu' : st'.users.record id with
          | some u' =>
              rw [hu'] at hload
              cases hload
          | none => simp
  | some u =>
      cases hw : stored st.sql.db id with
      | none =>
          rw [hu, hw] at hkept
          cases hkept
      | some w =>
          rw [hw] at hload
          rw [hu, hw] at hkept
          cases hu' : st'.users.record id with
          | none =>
              rw [hu'] at hload
              cases hload
          | some u' =>
              rw [hu'] at hload
              simp only [Option.map_some, Option.some.injEq, forall_eq'] at hload hkept ⊢
              exact visible_eq_iff hload hkept (h.friends_init henv hnull hinit hu hu') (ownerid_stored hw)

/-- **What a restart can show in a state.** With memory and tables in step, a restart is unobservable
exactly when no record has an owner and the table holds every birthday. -/
theorem Mirrored.unobservable_iff (henv : Answers env) (hnull : NullCleared env) (h : Mirrored st) :
    RestartUnobservable env st ↔ OwnerKept st ∧ ∀ id, BirthdayKept st id := by
  obtain ⟨st₁, hinit⟩ := init_ok henv h.users
  have hone := h.visible_record_iff henv hnull hinit
  constructor
  · rintro ⟨st₂, hst₂, hsame⟩
    rw [hinit] at hst₂
    cases hst₂
    exact ⟨fun id u hu => ((hone id).1 (hsame id)).1 u hu, fun id => ((hone id).1 (hsame id)).2⟩
  · rintro ⟨howner, hbirthday⟩
    exact ⟨st₁, hinit, fun id => (hone id).2 ⟨howner id, hbirthday id⟩⟩

/-! ## What a restart can show after a run -/

/-- The operations leave nothing a restart can show: no user is added, and every group is created without
an owner and has its profile updated later on. The ids of the groups count up from `base`. -/
def SurviveRestart (base : Int) : List StoreOp → Prop
  | [] => True
  | .addUser .. :: _ => False
  | .addGroup _ ownerid :: ops =>
      ownerid = -1 ∧ (∃ info, .updateUserInfo (nextId base) info ∈ ops) ∧
        SurviveRestart (nextId base) ops
  | _ :: ops => SurviveRestart base ops

/-- Owners only matter as far as the records have them. -/
theorem ownerKept_congr
    (h : ∀ id, (st'.users.record id).map User.ownerid = (st.users.record id).map User.ownerid) :
    OwnerKept st' ↔ OwnerKept st := by
  have hkept : ∀ st : Store, OwnerKept st ↔
      ∀ id, ∀ n ∈ (st.users.record id).map User.ownerid, n = -1 := by
    intro st
    refine forall_congr' fun id => ?_
    cases st.users.record id <;> simp
  rw [hkept, hkept]
  simp only [h]

/-- Birthdays only matter as far as memory and table have them. -/
theorem birthdayKept_congr {id : Int}
    (hstored : (stored st'.sql.db id).map User.birthday = (stored st.sql.db id).map User.birthday)
    (hrecord : (st'.users.record id).map User.birthday = (st.users.record id).map User.birthday) :
    BirthdayKept st' id ↔ BirthdayKept st id := by
  unfold BirthdayKept
  rw [hstored, hrecord]

/-- A field that a change of one record keeps is the same under every id. -/
theorem map_changed {α : Type} {f : User → User} {g : User → α} {n : Int} {a b : Int → Option User}
    (h : ∀ id, a id = if id = n then (b id).map f else b id) (hg : ∀ u, g (f u) = g u) (id : Int) :
    (a id).map g = (b id).map g := by
  rw [h]
  split_ifs
  · rw [Option.map_map]
    exact congrArg (fun k => (b id).map k) (funext hg)
  · rfl

/-- A profile is updated by the operations from `op` on if it is by those after `op`, or by `op`. -/
theorem updated_cons_iff {id : Int} {op : StoreOp} {ops : List StoreOp} :
    (∃ info, .updateUserInfo id info ∈ op :: ops) ↔
      (∃ info, op = .updateUserInfo id info) ∨ ∃ info, .updateUserInfo id info ∈ ops := by
  simp only [List.mem_cons, exists_or, eq_comm]

/-- The record a group gets: it has the owner it was created with, and a birthday the table lacks. -/
theorem Mirrored.create_lost {n : Int} {u w : User} (h : Mirrored st)
    (hnone : stored st.sql.db n = none)
    (hrecord : ∀ id, st'.users.record id = if id = n then some u else st.users.record id)
    (hstored : ∀ id, stored st'.sql.db id = if id = n then some w else stored st.sql.db id)
    (hbirthday : u.birthday ≠ w.birthday) :
    (OwnerKept st' ↔ OwnerKept st ∧ u.ownerid = -1) ∧
      (∀ id, BirthdayKept st' id ↔ id ≠ n ∧ BirthdayKept st id) ∧ BirthdayKept st n := by
  have hnew : st.users.record n = none := by
    cases hu : st.users.record n with
    | none => rfl
    | some v =>
        obtain ⟨w', hw'⟩ := (h.here_iff n).1 ⟨v, hu⟩
        rw [hnone] at hw'
        cases hw'
  refine ⟨?_, fun id => ?_, ?_⟩
  · constructor
    · intro howner
      refine ⟨fun id v hv => ?_, howner n u (by rw [hrecord, if_pos rfl])⟩
      by_cases hid : id = n
      · rw [hid, hnew] at hv
        cases hv
      · exact howner id v (by rw [hrecord, if_neg hid, hv])
    · rintro ⟨howner, hu⟩ id v hv
      rw [hrecord] at hv
      split_ifs at hv
      · cases hv
        exact hu
      · exact howner id v hv
  · by_cases hid : id = n
    · refine iff_of_false (fun hkept => ?_) fun hne => hne.1 hid
      rw [BirthdayKept, hrecord, hstored, if_pos hid, if_pos hid] at hkept
      exact hbirthday (Option.some.inj hkept).symm
    · rw [BirthdayKept, hrecord, hstored, if_neg hid, if_neg hid]
      exact (and_iff_right hid).symm
  · rw [BirthdayKept, hnone, hnew]

/-- Nothing is left to show by what is there and what the operations do to it. -/
def Survives (st : Store) (ops : List StoreOp) : Prop :=
  OwnerKept st ∧ (∀ id, BirthdayKept st id ∨ ∃ info, .updateUserInfo id info ∈ ops) ∧
    SurviveRestart st.users.baseGroupID ops

/-- A new user has owner 0, which no start reads back. -/
theorem Mirrored.survives_addUser {n : Int} {u w : User} {username nickname password mail : Bytes}
    {ops : List StoreOp} (h : Mirrored st) (hnone : stored st.sql.db n = none)
    (hrecord : ∀ id, st'.users.record id = if id = n then some u else st.users.record id)
    (hstored : ∀ id, stored st'.sql.db id = if id = n then some w else stored st.sql.db id)
    (hbirthday : u.birthday ≠ w.birthday) (hzero : u.ownerid = 0) :
    Survives st' ops ↔ Survives st (.addUser username nickname password mail :: ops) := by
  refine iff_of_false (fun hall => ?_) fun hall => hall.2.2
  have hminus := ((h.create_lost hnone hrecord hstored hbirthday).1.1 hall.1).2
  rw [hzero] at hminus
  exact absurd hminus (by decide)

/-- A group has the owner it is given, and the birthday the table lacks until an update. -/
theorem Mirrored.survives_addGroup {n : Int} {u w : User} {groupname : Bytes} {ops : List StoreOp}
    (h : Mirrored st) (hnone : stored st.sql.db n = none)
    (hrecord : ∀ id, st'.users.record id = if id = n then some u else st.users.record id)
    (hstored : ∀ id, stored st'.sql.db id = if id = n then some w else stored st.sql.db id)
    (hbirthday : u.birthday ≠ w.birthday) (hn : nextId st.users.baseGroupID = n)
    (hbase : st'.users.baseGroupID = n) :
    Survives st' ops ↔ Survives st (.addGroup groupname u.ownerid :: ops) := by
  obtain ⟨howner, hkept, hkeptn⟩ := h.create_lost hnone hrecord hstored hbirthday
  simp only [Survives, SurviveRestart, hn, hbase, howner, hkept, updated_cons_iff, reduceCtorEq,
    exists_false, false_or]
  constructor
  · rintro ⟨⟨hown, hu⟩, hall, hrest⟩
    refine ⟨hown, fun id => ?_, hu, ?_, hrest⟩
    · exact (hall id).imp_left And.right
    · exact (hall n).resolve_left fun hne => hne.1 rfl
  · rintro ⟨hown, hall, hu, hupdated, hrest⟩
    refine ⟨⟨hown, hu⟩, fun id => ?_, hrest⟩
    by_cases hid : id = n
    · exact Or.inr (hid ▸ hupdated)
    · exact (hall id).imp_left fun hk => ⟨hid, hk⟩

/-- An update of a profile writes its birthday into both. -/
theorem Mirrored.survives_profile {n : Int} {info : User} {ops : List StoreOp} (h : Mirrored st)
    (hrecord : ∀ id, st'.users.record id =
      if id = n then (st.users.record id).map (copyProfile info) else st.users.record id)
    (hstored : ∀ id, stored st'.sql.db id =
      if id = n then (stored st.sql.db id).map (copyProfile info) else stored st.sql.db id)
    (hbase : st'.users.baseGroupID = st.users.baseGroupID) :
    Survives st' ops ↔ Survives st (.updateUserInfo n info :: ops) := by
  have howner : OwnerKept st' ↔ OwnerKept st := ownerKept_congr (map_changed hrecord fun _ => rfl)
  have hkept : ∀ id, BirthdayKept st' id ↔ id = n ∨ BirthdayKept st id := by
    intro id
    by_cases hid : id = n
    · refine iff_of_true ?_ (Or.inl hid)
      have hsame := h.kept id
      rw [BirthdayKept, hrecord, hstored, if_pos hid, if_pos hid]
      cases hu : st.users.record id <;> cases hw : stored st.sql.db id <;>
        rw [hu, hw] at hsame <;> first | rfl | cases hsame
    · rw [BirthdayKept, hrecord, hstored, if_neg hid, if_neg hid]
      exact (or_iff_right hid).symm
  have hthis : ∀ id, (∃ info', StoreOp.updateUserInfo n info = .updateUserInfo id info') ↔ id = n := by
    intro id
    simp [eq_comm]
  simp only [Survives, SurviveRestart, hbase, howner, hkept, updated_cons_iff, hthis, or_assoc,
    or_left_comm]

/-- **One operation.** What it changes of owners and birthdays, the rest of the run starts with. -/
theorem Mirrored.survives_step {op : StoreOp} {ops : List StoreOp} (h : Mirrored st)
    (hop : CarriedOut env st op) (hstep : UserManager.step env st op = .ok st') :
    Survives st' ops ↔ Survives st (op :: ops) := by
  cases records_step h.users hop hstep with
  | create n u w hcreates hnone hrecord hstored hlasting hbirthday hop' =>
      rcases hop' with ⟨_, _, _, _, rfl, hzero⟩ | ⟨groupname, rfl, hbase⟩
      · exact h.survives_addUser hnone hrecord hstored hbirthday hzero
      · exact h.survives_addGroup hnone hrecord hstored hbirthday hcreates.2.symm hbase
  | profile n info hop' hrecord hstored hbase =>
      subst hop'
      exact h.survives_profile hrecord hstored hbase
  | password n newpassword hop' hrecord hstored hbase =>
      subst hop'
      have howner : OwnerKept st' ↔ OwnerKept st := ownerKept_congr (map_changed hrecord fun _ => rfl)
      have hkept : ∀ id, BirthdayKept st' id ↔ BirthdayKept st id := fun id =>
        birthdayKept_congr (map_changed hstored (fun _ => rfl) id) (map_changed hrecord (fun _ => rfl) id)
      simp only [Survives, SurviveRestart, hbase, howner, hkept, updated_cons_iff, reduceCtorEq,
        exists_false, false_or]
  | friends hop' hrecord hstored hbase =>
      have hclear : ∀ {α : Type} (f : User → α), (∀ u, f (clearFriends u) = f u) →
          ∀ id, (st'.users.record id).map f = (st.users.record id).map f := by
        intro α f hf id
        have hcomp : f ∘ clearFriends = f := funext hf
        rw [← hcomp, ← Option.map_map, hrecord, Option.map_map]
      have howner : OwnerKept st' ↔ OwnerKept st := ownerKept_congr (hclear User.ownerid fun _ => rfl)
      have hkept : ∀ id, BirthdayKept st' id ↔ BirthdayKept st id := fun id =>
        birthdayKept_congr (by rw [hstored]) (hclear User.birthday (fun _ => rfl) id)
      rcases hop' with ⟨_, _, rfl⟩ | ⟨_, _, rfl⟩ | ⟨_, _, rfl⟩ <;>
        simp only [Survives, SurviveRestart, hbase, howner, hkept, updated_cons_iff, reduceCtorEq,
          exists_false, false_or]

/-- **A run, operation by operation.** From memory and tables in step, a restart after the run is
unobservable exactly when no record there had an owner, every birthday the table did not hold is
updated, and the operations survive a restart. -/
theorem Mirrored.unobservable_run_iff (henv : Answers env) (hnull : NullCleared env) {ops : List StoreOp}
    (h : Mirrored st)
    (hcarried : Run.Always (UserManager.step env) (CarriedOut env) st ops)
    (hrun : Run.run (UserManager.step env) st ops = .ok st') :
    RestartUnobservable env st' ↔ OwnerKept st ∧
      (∀ id, BirthdayKept st id ∨ ∃ info, .updateUserInfo id info ∈ ops) ∧
      SurviveRestart st.users.baseGroupID ops := by
  change _ ↔ Survives st ops
  -- from the back: each operation adds what it does
  induction ops generalizing st with
  | nil =>
      cases hrun
      rw [h.unobservable_iff henv hnull]
      simp [Survives, SurviveRestart]
  | cons op ops ih =>
      obtain ⟨st₁, hstep, hrest⟩ := Run.run_cons_eq_ok.1 hrun
      obtain ⟨hop, hops⟩ := hcarried
      rw [ih (h.step hop hstep) (hops st₁ hstep) hrest, h.survives_step hop hstep]

/-- Both tables are in order and have no rows. -/
structure EmptyTables (db : Db) : Prop where
  users : UserTable db
  nobody : ∀ id, stored db id = none
  links : RelationshipTable db
  norow : ∀ a b, ¬ HasRow db a b

/-- The tables `Init` has just created are. -/
theorem emptyTables_new {env₀ : SqlEnv} {sql₀ sql : MySql}
    (hnew : ∀ info ∈ [MySqlManager.tChatmsg, MySqlManager.tUser, MySqlManager.tUserRelationship],
      sql₀.db.tables info.sName = none)
    (hcreated : MySqlManager.init env₀ sql₀ = (true, sql)) : EmptyTables sql.db := by
  have htables : ∀ info ∈ [MySqlManager.tChatmsg, MySqlManager.tUser, MySqlManager.tUserRelationship],
      sql.db.tables info.sName = some (MySqlManager.described info) := fun info hinfo =>
    MySqlManager.tables_init hcreated hinfo (hnew info hinfo)
  have huser : sql.db.tables "t_user" = some MySqlManager.freshUser := by
    rw [← MySqlManager.described_tUser]
    exact htables MySqlManager.tUser (by simp)
  have hlink : sql.db.tables "t_user_relationship" = some MySqlManager.freshUserRelationship := by
    rw [← MySqlManager.described_tUserRelationship]
    exact htables MySqlManager.tUserRelationship (by simp)
  have hrows : sql.db.rows "t_user" = [] := Db.rows_of_table huser
  have hlinks : sql.db.rows "t_user_relationship" = [] := Db.rows_of_table hlink
  refine ⟨⟨⟨_, huser, rfl, rfl⟩, ?_, ?_⟩, stored_of_rows_nil hrows, ⟨⟨_, hlink, by decide, by decide⟩, ?_⟩, ?_⟩
  · rw [hrows]
    exact fun r hr => absurd hr List.not_mem_nil
  · rw [hrows]
    exact List.Pairwise.nil
  · rw [hlinks]
    exact fun r hr => absurd hr List.not_mem_nil
  · rintro a b ⟨r, hr, -⟩
    rw [hlinks] at hr
    exact List.not_mem_nil hr

/-- The loader's query lists no row then. -/
theorem EmptyTables.select_nil {db : Db} (h : EmptyTables db) {rows : List (List Value)}
    (hrows : db.select userQuery = some rows) : rows = [] := by
  have hnone : db.rows "t_user" = [] := by
    refine List.eq_nil_iff_forall_not_mem.2 fun r hr => ?_
    have hstored : stored db (rowUser r).userid = some (rowUser r) :=
      h.users.stored_eq_some.2 ⟨List.mem_map_of_mem hr, rfl⟩
    rw [h.nobody] at hstored
    cases hstored
  have hlisted := Db.select_eq_some hrows
  change rows = (userQuery.rows (db.rows "t_user")).map _ at hlisted
  rw [hlisted, hnone]
  rfl

/-- Where the cursor shows nothing behind an empty result, a start on them loads nothing. -/
theorem EmptyTables.mirrored_start {sql : MySql} (h : EmptyTables sql.db) (hnull : NullCleared env)
    (hstart : init env ⟨sql, new⟩ = (true, st)) : Mirrored st ∧ st.users = new := by
  obtain ⟨rows, hrows, hst⟩ := init_eq hstart
  have hvisited : QueryResult.visited (env.stale sql.sent) rows = [] := by
    rw [h.select_nil hrows, hnull]
    rfl
  rw [hvisited] at hst
  have hst' : st = ⟨⟨sql.db, sql.sent + 1⟩, new⟩ := hst
  subst hst'
  have hnobody : ∀ a, ¬ ∃ u, new.record a = some u := by
    rintro a ⟨u, hu⟩
    cases hu
  refine ⟨⟨h.users, h.links, fun a b ha _ => absurd ha (hnobody a),
    ⟨fun a b hrow => absurd hrow (h.norow a b), fun a b ⟨u, hu, _⟩ => absurd ⟨u, hu⟩ (hnobody a)⟩, fun id => ?_⟩, rfl⟩
  rw [h.nobody]
  rfl

/-- **What a restart can show where the cursor shows nothing.** From empty tables, after operations that are
carried out, a restart is unobservable exactly when no user was added, and every group was created without an
owner and had its profile updated later. -/
theorem EmptyTables.unobservable_null_iff {sql : MySql} {st₀ : Store} (h : EmptyTables sql.db) (henv : Answers env)
    (hnull : NullCleared env) (hstart : init env ⟨sql, new⟩ = (true, st₀)) {ops : List StoreOp}
    (hcarried : Run.Always (step env) (CarriedOut env) st₀ ops)
    (hrun : Run.run (step env) st₀ ops = .ok st) :
    RestartUnobservable env st ↔ SurviveRestart 0xFFFFFFF ops := by
  obtain ⟨hmirrored, husers⟩ := h.mirrored_start hnull hstart
  have hnobody : ∀ id, st₀.users.record id = none := by
    intro id
    rw [husers]
    rfl
  have howner : OwnerKept st₀ := by
    intro id u hu
    rw [hnobody] at hu
    cases hu
  have hbirthday : ∀ id, BirthdayKept st₀ id := by
    intro id
    have hkept := hmirrored.kept id
    rw [hnobody] at hkept
    rw [BirthdayKept, hnobody, Option.map_eq_none_iff.1 hkept]
  have hbase : st₀.users.baseGroupID = 0xFFFFFFF := by
    rw [husers]
    rfl
  rw [hmirrored.unobservable_run_iff henv hnull hcarried hrun, hbase]
  exact ⟨fun h => h.2.2, fun h => ⟨howner, fun id => Or.inl (hbirthday id), h⟩⟩

end UserManager

end AimChat
