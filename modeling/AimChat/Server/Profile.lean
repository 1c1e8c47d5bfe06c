import AimChat.Server.SessionRecords
import AimChat.Store.Injection
import AimChat.Store.ProfileRows

/-! # Updates of a profile

A request that sets some fields of a profile is merged into the record of its user: a field that is set
replaces the old one. `lastSet` is that merge for one field, with the two laws that make a request idempotent and
two requests one. What is written into `t_user` is the merged profile, but a text comes back from the table as
MySQL has read its literal, which is not always the text. -/

namespace AimChat

open Sql ClientSession UserManager

/-! ## Merging -/

/-- The later of two values where it is set, `unset` being the one that says nothing. -/
def lastSet {α : Type} [DecidableEq α] (unset old new : α) : α := if new = unset then old else new

section LastSet

variable {α : Type} [DecidableEq α] (unset : α)

theorem lastSet_self (old new : α) : lastSet unset (lastSet unset old new) new = lastSet unset old new := by
  unfold lastSet
  split_ifs <;> rfl

theorem lastSet_assoc (old new new' : α) :
    lastSet unset (lastSet unset old new) new' = lastSet unset old (lastSet unset new new') := by
  by_cases h : new' = unset
  · simp only [lastSet, if_pos h]
  · simp only [lastSet, if_neg h]

end LastSet

/-- The record with the fields that a request sets. -/
def merged (req : UpdateUserInfoReq) (u : User) : User :=
  { u with
    nickname := lastSet [] u.nickname req.nickname
    facetype := lastSet 0 u.facetype req.facetype
    customface := lastSet [] u.customface req.customface
    gender := lastSet 0 u.gender req.gender
    birthday := lastSet 0 u.birthday req.birthday
    signature := lastSet [] u.signature req.signature
    address := lastSet [] u.address req.address
    phonenumber := lastSet [] u.phonenumber req.phonenumber
    mail := lastSet [] u.mail req.mail }

/-- The request in which the fields that `req'` sets override those of `req`. -/
def overridden (req req' : UpdateUserInfoReq) : UpdateUserInfoReq where
  nickname := lastSet [] req.nickname req'.nickname
  facetype := lastSet 0 req.facetype req'.facetype
  customface := lastSet [] req.customface req'.customface
  gender := lastSet 0 req.gender req'.gender
  birthday := lastSet 0 req.birthday req'.birthday
  signature := lastSet [] req.signature req'.signature
  address := lastSet [] req.address req'.address
  phonenumber := lastSet [] req.phonenumber req'.phonenumber
  mail := lastSet [] req.mail req'.mail

/-- A request merged again changes nothing. -/
theorem merged_merged (req : UpdateUserInfoReq) (u : User) : merged req (merged req u) = merged req u := by
  simp only [merged, lastSet_self]

/-- Two requests are one. -/
theorem merged_overridden (req req' : UpdateUserInfoReq) (u : User) :
    merged (overridden req req') u = merged req' (merged req u) := by
  simp only [merged, overridden, lastSet_assoc]

/-- The record that `UpdateUserInfo` gets has the merged profile. -/
theorem copyProfile_newinfo (req : UpdateUserInfoReq) (u : User) :
    copyProfile (newinfo req u) u = merged req u := by
  simp only [copyProfile, newinfo, merged, lastSet, ne_eq, ite_not]

theorem updateUserInfoStmt_newinfo (userid : Int) (req : UpdateUserInfoReq) (u : User) :
    updateUserInfoStmt userid (newinfo req u) = updateUserInfoStmt userid (merged req u) := by
  rw [← copyProfile_newinfo]
  rfl

/-! ## Requests -/

/-- Session `n`, which acts as the record `p`, is connected, and the message is its request `req`. -/
structure AsksToUpdate (env : Env) (w : World) (n : Nat) (p : UserPtr) (msg : MessageContainer)
    (req : UpdateUserInfoReq) : Prop where
  connected : w.im.Connected n
  cmd : msg.cmd = msg_type_updateuserinfo
  user : (w.session n).user = some p
  parses : env.pb.updateUserInfoReq.parse msg.payload = some req

/-- The statement of the request. -/
def updateStmt (w : World) (p : UserPtr) (req : UpdateUserInfoReq) : Stmt :=
  updateUserInfoStmt (w.record p).userid (newinfo req (w.record p))

/-- MySQL carries out the statement of the request, which no text breaks out of. -/
def UpdateCarriedOut (env : Env) (w : World) (p : UserPtr) (req : UpdateUserInfoReq) : Prop :=
  Contained (updateStmt w p req) ∧ (MySql.execute env.sql (updateStmt w p req) w.store.sql).1 = true

/-- What the handler of the message makes: its answer, and the world before that is sent. -/
def profileUpdate (env : Env) (w : World) (n : Nat) (msg : MessageContainer) : Except Fault (CommonRsp × World) :=
  updateUserInfoRsp env n msg (w.setSession n fun s => { s with seq := msg.seq })

/-- The request is merged into the record `p` and into its row, and nothing else is different. -/
structure ProfileMerged (st st' : Store) (p : UserPtr) (req : UpdateUserInfoReq) : Prop where
  record : st'.users.heap p = merged req (st.users.heap p)
  others : ∀ q, q ≠ p → st'.users.heap q = st.users.heap q
  cachedUsers : st'.users.cachedUsers = st.users.cachedUsers
  mapUsers : st'.users.mapUsers = st.users.mapUsers
  backed : Backed st' p
  agrees : ∀ r ∈ st'.sql.db.rows "t_user", r "f_user_id" = .int (st.users.heap p).userid →
    RowShows r (st'.users.heap p)
  rows : st'.sql.db.rows "t_user" = (st.sql.db.rows "t_user").map
    (changed (profileColumns (st'.users.heap p)) (st.users.heap p).userid)
  tables : ∀ name, name ≠ "t_user" → st'.sql.db.tables name = st.sql.db.tables name

/-- The same records and the same tables. -/
def SameStore (st st' : Store) : Prop := st'.users = st.users ∧ st'.sql.db = st.sql.db

/-- The event happens again and changes nothing more. -/
def Repeats (env : Env) (w : World) (e : Event) : Prop :=
  ∀ w', step env w e = .ok w' → ∃ w'', step env w' e = .ok w'' ∧ SameStore w'.store w''.store

/-- A second request after this one does what the one request does that is both. -/
def Composes (env : Env) (w : World) (n : Nat) (p : UserPtr) (msg : MessageContainer)
    (req : UpdateUserInfoReq) : Prop :=
  ∀ msg' req' both w₁ w₂ w₃, AsksToUpdate env w₁ n p msg' req' → AsksToUpdate env w n p both (overridden req req') →
    step env w (.recv n msg) = .ok w₁ → step env w₁ (.recv n msg') = .ok w₂ →
    step env w (.recv n both) = .ok w₃ → UpdateCarriedOut env w₁ p req' →
    UpdateCarriedOut env w p (overridden req req') → SameStore w₃.store w₂.store

/-- When the event is a request to update a profile, it is answered with code 100 and changes nothing, or it is
answered with code 0 and merged, and then it repeats and composes. -/
def UpdatesProfile (env : Env) (w : World) (e : Event) : Prop :=
  ∀ n p msg req, e = .recv n msg → AsksToUpdate env w n p msg req →
    ∃ rsp v, profileUpdate env w n msg = .ok (rsp, v) ∧
      step env w e = .ok (v.respond n msg_type_updateuserinfo (env.pb.commonRsp.serialize rsp)) ∧
      (v.session n).user = some p ∧
      (¬ UpdateCarriedOut env w p req → rsp.code = 100 ∧ SameStore w.store v.store) ∧
      (UpdateCarriedOut env w p req → rsp.code = 0 ∧ ProfileMerged w.store v.store p req ∧
        Repeats env w e ∧ Composes env w n p msg req)

/-- When the event is a request to update a profile, then no text of the statement breaks out of its quotes. -/
def UpdateContained (env : Env) (w : World) (e : Event) : Prop :=
  ∀ n p msg req, e = .recv n msg → AsksToUpdate env w n p msg req → Contained (updateStmt w p req)

/-- When the event is a request to update a profile whose statement is carried out, then the record is the one under
its id and has a row, and each text of the merged profile is stored as it is. -/
def ProfileStoredAsIs (env : Env) (w : World) (e : Event) : Prop :=
  ∀ n p msg req, e = .recv n msg → AsksToUpdate env w n p msg req → UpdateCarriedOut env w p req →
    Backed w.store p ∧ ∀ s ∈ profileTexts (merged req (w.record p)), StoredAsIs s

/-! ## The handler -/

variable {env : Env} {w : World} {n : Nat} {p : UserPtr} {msg : MessageContainer} {req : UpdateUserInfoReq}

/-- What is left when the statement is carried out: the profile in the record, and in the table what the literals
stand for. -/
structure Updated (st st' : Store) (p : UserPtr) (req : UpdateUserInfoReq) : Prop where
  users : st'.users = st.users.modify p (copyProfile (newinfo req (st.users.heap p))) fun _ => rfl
  db : ∃ u, asStored (merged req (st.users.heap p)) = some u ∧
    st'.sql.db = withProfile (st.users.heap p).userid u st.sql.db

namespace Updated

variable {st st₁ st₂ st₃ : Store} {req' req'' : UpdateUserInfoReq}

theorem record (h : Updated st st₁ p req) : st₁.users.heap p = merged req (st.users.heap p) := by
  rw [h.users]
  exact (if_pos rfl).trans (copyProfile_newinfo req _)

/-- Two requests leave what one does that merges to the same record. -/
theorem sameStore (h₁ : Updated st st₁ p req) (h₂ : Updated st₁ st₂ p req') (h₃ : Updated st st₃ p req'')
    (hmerged : merged req'' (st.users.heap p) = merged req' (merged req (st.users.heap p))) :
    SameStore st₃ st₂ := by
  obtain ⟨u₁, -, hdb₁⟩ := h₁.db
  obtain ⟨u₂, hu₂, hdb₂⟩ := h₂.db
  obtain ⟨u₃, hu₃, hdb₃⟩ := h₃.db
  constructor
  · have husers := h₂.users
    generalize hi : newinfo req' (st₁.users.heap p) = info at husers
    rw [h₁.users] at husers
    rw [husers, h₃.users]
    refine modify_copyProfile ?_
    rw [copyProfile_newinfo, copyProfile_newinfo, hmerged, ← hi, h₁.record, copyProfile_newinfo]
  · -- the literals of the second statement are those of the one
    rw [h₁.record, ← hmerged, hu₃] at hu₂
    cases hu₂
    have hid : (st₁.users.heap p).userid = (st.users.heap p).userid := by
      rw [h₁.record]
      rfl
    rw [hdb₃, hdb₂, hdb₁, hid, withProfile_withProfile]

/-- The record is still backed. -/
theorem backed (h : Updated st st₁ p req) (hp : Backed st p) : Backed st₁ p := by
  obtain ⟨u, -, hdb⟩ := h.db
  have hid : (st₁.users.heap p).userid = (st.users.heap p).userid := by
    rw [h.record]
    rfl
  refine ⟨?_, ?_, ?_⟩
  · rw [h.users]
    exact hp.cached
  · rw [hid, h.users]
    exact hp.mapped
  · rw [hid, hdb, userIds_withProfile]
    exact hp.row

/-- The row has what the record has exactly when each text is stored as it is. -/
theorem profileMerged_iff (h : Updated st st₁ p req) (hp : Backed st p) :
    ProfileMerged st st₁ p req ↔ ∀ s ∈ profileTexts (merged req (st.users.heap p)), StoredAsIs s := by
  obtain ⟨u, hu, hdb⟩ := h.db
  constructor
  · intro hmerged
    obtain ⟨r, hr, hid, hshows⟩ := exists_rowShows hp.row u
    rw [← hdb] at hr
    have hagrees := hmerged.agrees r hr hid
    rw [h.record] at hagrees
    exact asStored_eq_self_iff.1 (asStored_eq_self_of_columns hu (hshows.columns_eq hagrees))
  · intro hexact
    -- what the literals stand for is the merged profile
    have hself := asStored_eq_self_iff.2 hexact
    rw [hu] at hself
    obtain rfl := Option.some.inj hself
    refine ⟨h.record, fun q hq => ?_, ?_, ?_, h.backed hp, fun r hr hid => ?_, ?_, fun name hname => ?_⟩
    · rw [h.users]
      exact if_neg hq
    · rw [h.users]
      rfl
    · rw [h.users]
      rfl
    · rw [hdb] at hr
      rw [h.record]
      exact rowShows_withProfile hr hid
    · rw [hdb, h.record]
      exact rows_withProfile ..
    · rw [hdb]
      exact tables_withProfile _ _ _ hname

end Updated

/-- A record that has the merged profile as its row has it was backed before. -/
theorem ProfileMerged.backed_before {st st' : Store} (h : ProfileMerged st st' p req) : Backed st p := by
  have hid : (st'.users.heap p).userid = (st.users.heap p).userid := by
    rw [h.record]
    rfl
  -- the profile has no column of the id
  have hids : userIds st'.sql.db = userIds st.sql.db := by
    rw [userIds, h.rows, List.map_map]
    exact List.map_congr_left fun r _ => @changed_id (profileColumns _) rfl _ r
  have hbacked := h.backed
  refine ⟨?_, ?_, ?_⟩
  · rw [← h.cachedUsers]
    exact hbacked.cached
  · rw [← hid, ← h.mapUsers]
    exact hbacked.mapped
  · rw [← hid, ← hids]
    exact hbacked.row

/-- The message of the session is handled by its own handler. -/
theorem AsksToUpdate.step_eq (h : AsksToUpdate env w n p msg req) {rsp : CommonRsp} {v : World}
    (hv : profileUpdate env w n msg = .ok (rsp, v)) :
    step env w (.recv n msg) =
      .ok (v.respond n msg_type_updateuserinfo (env.pb.commonRsp.serialize rsp)) := by
  rw [step_of_connected h.connected, onMessageReceived, dispatch_updateuserinfo env n msg _ h.cmd,
    onUpdateUserInfoResponse]
  unfold profileUpdate at hv
  rw [hv]
  rfl

/-- The handler runs `UpdateUserInfo`, and writes the profile once more when that gives true. -/
theorem AsksToUpdate.profileUpdate_eq (h : AsksToUpdate env w n p msg req) {b : Bool} {st : Store}
    (hresult : updateUserInfo env.sql (w.record p).userid (newinfo req (w.record p)) w.store = (b, st)) :
    profileUpdate env w n msg =
      .ok (if b then (⟨0, str "ok"⟩, ((w.setSession n fun s => { s with seq := msg.seq }).withStore st).setRecord p
          (copyProfile (newinfo req (w.record p))) fun _ => rfl)
        else (⟨100, str "update user info failed!"⟩,
          (w.setSession n fun s => { s with seq := msg.seq }).withStore st)) := by
  have huser : ((w.setSession n fun s => { s with seq := msg.seq }).session n).user = some p :=
    (World.user_setSeq n w msg.seq).trans h.user
  -- `m_seq` is all that was set before
  have hresult' : updateUserInfo env.sql ((w.setSession n fun s => { s with seq := msg.seq }).record p).userid
      (newinfo req ((w.setSession n fun s => { s with seq := msg.seq }).record p))
      (w.setSession n fun s => { s with seq := msg.seq }).store = (b, st) := hresult
  unfold profileUpdate updateUserInfoRsp
  rw [h.parses, World.theUser_of_user huser]
  simp only [bind, Except.bind, pure, Except.pure, hresult']
  cases b with
  | false => rfl
  | true => rfl

/-- **The handler, refused.** The request is answered with code 100 for nothing. -/
theorem AsksToUpdate.refused (h : AsksToUpdate env w n p msg req) (hnot : ¬ UpdateCarriedOut env w p req) :
    ∃ rsp v, profileUpdate env w n msg = .ok (rsp, v) ∧
      step env w (.recv n msg) = .ok (v.respond n msg_type_updateuserinfo (env.pb.commonRsp.serialize rsp)) ∧
      (v.session n).user = some p ∧ rsp.code = 100 ∧ SameStore w.store v.store := by
  rcases hexec : MySql.execute env.sql (updateStmt w p req) w.store.sql with ⟨_ | _, sql⟩
  · have hfailed : updateUserInfo env.sql (w.record p).userid (newinfo req (w.record p)) w.store =
        (false, ⟨sql, w.store.users⟩) := by
      rw [updateStmt] at hexec
      rw [updateUserInfo, updateUserInfoBy, hexec]
    have hfalse := h.profileUpdate_eq hfailed
    exact ⟨_, _, hfalse, h.step_eq hfalse, (World.user_setSeq n w msg.seq).trans h.user, rfl, rfl,
      MySql.db_of_execute_false hexec⟩
  · exact absurd ⟨contained_of_execute hexec, congrArg Prod.fst hexec⟩ hnot

/-- **The handler, carried out.** The request is answered with code 0. -/
theorem AsksToUpdate.carriedOut (h : AsksToUpdate env w n p msg req) (hp : Backed w.store p)
    (hout : UpdateCarriedOut env w p req) :
    ∃ rsp v, profileUpdate env w n msg = .ok (rsp, v) ∧
      step env w (.recv n msg) = .ok (v.respond n msg_type_updateuserinfo (env.pb.commonRsp.serialize rsp)) ∧
      v.im = w.im ∧ (v.session n).user = some p ∧ rsp.code = 0 ∧ Updated w.store v.store p req := by
  rcases hexec : MySql.execute env.sql (updateStmt w p req) w.store.sql with ⟨_ | _, sql⟩
  · rw [UpdateCarriedOut, hexec] at hout
    cases hout.2
  · rw [updateStmt] at hexec
    have htrue := h.profileUpdate_eq (updateUserInfo_eq hp.mapped hexec)
    refine ⟨_, _, htrue, h.step_eq htrue, rfl, (World.user_setSeq n w msg.seq).trans h.user, rfl, ?_, ?_⟩
    · -- the handler writes the same profile once more, through m_user
      exact modify_copyProfile rfl
    · rw [updateUserInfoStmt_newinfo] at hexec
      exact db_updateUserInfo hexec

/-- The session can ask for it again. -/
theorem AsksToUpdate.again (h : AsksToUpdate env w n p msg req) {v : World} (him : v.im = w.im)
    (huser : (v.session n).user = some p) (cmd : Int) (payload : Bytes) :
    AsksToUpdate env (v.respond n cmd payload) n p msg req where
  connected := by
    show v.im.Connected n
    rw [him]
    exact h.connected
  cmd := h.cmd
  user := huser
  parses := h.parses

/-! ## Runs -/

/-- What the step of an update leaves that is carried out. -/
theorem AsksToUpdate.updated (h : AsksToUpdate env w n p msg req) (hp : Backed w.store p)
    (hout : UpdateCarriedOut env w p req) {w' : World} (hstep : step env w (.recv n msg) = .ok w') :
    Updated w.store w'.store p req := by
  obtain ⟨rsp, v, -, hv, -, -, -, hupdated⟩ := h.carriedOut hp hout
  rw [hv] at hstep
  cases hstep
  exact hupdated

/-- An update that was carried out repeats. -/
theorem AsksToUpdate.repeats (hp : Backed w.store p) (h : AsksToUpdate env w n p msg req)
    (hout : UpdateCarriedOut env w p req) : Repeats env w (.recv n msg) := by
  intro w' hstep
  have hupdated := h.updated hp hout hstep
  have hp' := hupdated.backed hp
  obtain ⟨rsp, v, -, hv, him, huser, -⟩ := h.carriedOut hp hout
  rw [hv] at hstep
  cases hstep
  have hagain := h.again him huser msg_type_updateuserinfo (env.pb.commonRsp.serialize rsp)
  by_cases hout' : UpdateCarriedOut env (v.respond n msg_type_updateuserinfo (env.pb.commonRsp.serialize rsp)) p req
  · obtain ⟨rsp', v', -, hv', -, -, -, hupdated'⟩ := hagain.carriedOut hp' hout'
    exact ⟨_, hv', hupdated.sameStore hupdated' hupdated (merged_merged req _).symm⟩
  · obtain ⟨rsp', v', -, hv', -, -, hsame⟩ := hagain.refused hout'
    exact ⟨_, hv', hsame⟩

/-- Two updates that are carried out compose. -/
theorem AsksToUpdate.composes (hp : Backed w.store p) (h : AsksToUpdate env w n p msg req)
    (hout : UpdateCarriedOut env w p req) : Composes env w n p msg req := by
  intro msg' req' both w₁ w₂ w₃ h' hboth hstep hstep' hstep₃ hout' hout₃
  have hupdated := h.updated hp hout hstep
  have hupdated' := h'.updated (hupdated.backed hp) hout' hstep'
  have hupdated₃ := hboth.updated hp hout₃ hstep₃
  exact hupdated.sameStore hupdated' hupdated₃ (merged_overridden req req' _)

/-- For one event. -/
theorem updatesProfile_iff (env : Env) (w : World) (e : Event) :
    UpdatesProfile env w e ↔ ProfileStoredAsIs env w e := by
  constructor
  · intro hall n p msg req he h hout
    subst he
    -- a merge shows that there was a row to merge into
    obtain ⟨rsp, v, -, hv, -, -, hmerges⟩ := hall n p msg req rfl h
    have hmerged := (hmerges hout).2.1
    have hp := hmerged.backed_before
    exact ⟨hp, ((h.updated hp hout hv).profileMerged_iff hp).1 hmerged⟩
  · intro hstored n p msg req he h
    subst he
    by_cases hout : UpdateCarriedOut env w p req
    · obtain ⟨hp, hexact⟩ := hstored n p msg req rfl h hout
      obtain ⟨rsp, v, hrsp, hv, -, huser, hcode, hupdated⟩ := h.carriedOut hp hout
      exact ⟨rsp, v, hrsp, hv, huser, fun hnot => absurd hout hnot, fun _ =>
        ⟨hcode, (hupdated.profileMerged_iff hp).2 hexact, h.repeats hp hout, h.composes hp hout⟩⟩
    · obtain ⟨rsp, v, hrsp, hv, huser, hcode, hsame⟩ := h.refused hout
      exact ⟨rsp, v, hrsp, hv, huser, fun _ => ⟨hcode, hsame⟩, fun hyes => absurd hyes hout⟩

/-- A request to update a profile. -/
def updateMessage (req : UpdateUserInfoReq) : MessageContainer :=
  { cmd := msg_type_updateuserinfo, seq := 2, payload := Protobuf.wire.updateUserInfoReq.serialize req }

/-- `a` logs in and sets a nickname. -/
def nicknameA (nickname : Bytes) : List Event :=
  [.connect 1, .recv 0 (loginMessage (str "a") (str "p"))] ++ [.recv 0 (updateMessage { nickname := nickname })]

end AimChat
