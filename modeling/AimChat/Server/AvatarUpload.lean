import AimChat.Server.SessionRecords
import AimChat.Store.Injection
import AimChat.Store.ProfileRows

/-! # Uploads of avatars

`OnAvatarUploadResponse` sets the url in the record, calls `UpdateUserInfo` without a look at the result, and
answers with code 0. `confirms_stored_iff` says when the url that is confirmed is in the table too, of uploads whose
statement MySQL reads as it was put together. -/

namespace AimChat

open Sql ClientSession UserManager

/-- Session `n`, which acts as the record `p`, is connected, the message is its upload of an avatar, and the
service accepts it with this url. -/
structure UploadAccepted (env : Env) (w : World) (n : Nat) (p : UserPtr) (msg : MessageContainer)
    (url : Bytes) : Prop where
  connected : w.im.Connected n
  cmd : msg.cmd = msg_type_avatarupload
  user : (w.session n).user = some p
  accepts : ∃ req grpc avatar, env.pb.avatarUploadReq.parse msg.payload = some req ∧ env.grpc = some grpc ∧
    grpc.avatar = some avatar ∧
    (avatar.upload w.calls (w.record p).userid req.imageData req.format).ok = true ∧
    (avatar.upload w.calls (w.record p).userid req.imageData req.format).url = url

/-- What the handler of the message makes: its answer, and the world before that is sent. -/
def avatarUpload (env : Env) (w : World) (n : Nat) (msg : MessageContainer) :
    Except Fault (AvatarUploadRsp × World) :=
  avatarUploadRsp env n msg (w.setSession n fun s => { s with seq := msg.seq })

/-- The statement of the upload: the profile of the record with the new url. -/
def avatarStmt (w : World) (p : UserPtr) (url : Bytes) : Stmt :=
  updateUserInfoStmt (w.record p).userid { w.record p with customface := url }

/-- `t_user` has a row of the id, and what it has there in `f_customface` is `face`. -/
def CustomfaceIs (db : Db) (userid : Int) (face : Bytes) : Prop :=
  .int userid ∈ userIds db ∧
    ∀ r ∈ db.rows "t_user", r "f_user_id" = .int userid → r "f_customface" = .text face

/-- When the event is an upload that the service accepts, then afterwards the record and the row have the same
avatar, and only for the new one in the row the answer has code 0 and friends are notified. -/
def ConfirmsStored (env : Env) (w : World) (e : Event) : Prop :=
  ∀ n p msg url, e = .recv n msg → UploadAccepted env w n p msg url →
    ∃ rsp v, avatarUpload env w n msg = .ok (rsp, v) ∧
      step env w e = .ok (v.respond n msg_type_avatarupload (env.pb.avatarUploadRsp.serialize rsp)) ∧
      CustomfaceIs v.store.sql.db (w.record p).userid (v.record p).customface ∧
      (rsp.code = 0 → CustomfaceIs v.store.sql.db (w.record p).userid url) ∧
      (v.sent ≠ w.sent → CustomfaceIs v.store.sql.db (w.record p).userid url)

/-- When the event is an upload that the service accepts, then no text of the statement breaks out of its quotes. -/
def UploadContained (env : Env) (w : World) (e : Event) : Prop :=
  ∀ n p msg url, e = .recv n msg → UploadAccepted env w n p msg url → Contained (avatarStmt w p url)

/-- When the event is an upload that the service accepts, then its statement is carried out, the record has a row
and the url is stored as it is, or it is not carried out and the row has the url already. -/
def UrlStored (env : Env) (w : World) (e : Event) : Prop :=
  ∀ n p msg url, e = .recv n msg → UploadAccepted env w n p msg url →
    if (MySql.execute env.sql (avatarStmt w p url) w.store.sql).1 = true then
      .int (w.record p).userid ∈ userIds w.store.sql.db ∧ StoredAsIs url
    else CustomfaceIs w.store.sql.db (w.record p).userid url

variable {env : Env} {w : World} {n : Nat} {p : UserPtr} {msg : MessageContainer} {url : Bytes}

/-- The store afterwards: the record has the url before the statement is sent. -/
theorem store_avatarChanged (env : Env) (p : UserPtr) (url : Bytes) (w : World) :
    (avatarChanged env p url w).store =
      (updateUserInfo env.sql (w.record p).userid { w.record p with customface := url }
        ⟨w.store.sql, w.store.users.modify p (fun u => { u with customface := url }) fun _ => rfl⟩).2 := by
  have hset : (w.setRecord p (fun u => { u with customface := url }) fun _ => rfl).record p =
      { w.record p with customface := url } := if_pos rfl
  unfold avatarChanged
  rw [store_notifyAll, hset]
  rfl

theorem sql_avatarChanged (env : Env) (p : UserPtr) (url : Bytes) (w : World) :
    (avatarChanged env p url w).store.sql = (MySql.execute env.sql (avatarStmt w p url) w.store.sql).2 := by
  rw [store_avatarChanged]
  rcases updateUserInfo_cases env.sql (w.record p).userid { w.record p with customface := url }
    ⟨w.store.sql, w.store.users.modify p (fun u => { u with customface := url }) fun _ => rfl⟩ with
    ⟨sql, heq, -, hexec⟩ | ⟨sql, heq, hexec⟩ <;> rw [heq] <;> exact (congrArg Prod.snd hexec).symm

/-- The record has the url, whatever becomes of the statement. -/
theorem customface_avatarChanged (env : Env) (p : UserPtr) (url : Bytes) (w : World) :
    ((avatarChanged env p url w).record p).customface = url := by
  unfold World.record
  rw [store_avatarChanged]
  have hset : ((w.store.users.modify p (fun u => { u with customface := url }) fun _ => rfl).heap p).customface =
      url := congrArg User.customface (if_pos rfl)
  rcases updateUserInfo_cases env.sql (w.record p).userid { w.record p with customface := url }
    ⟨w.store.sql, w.store.users.modify p (fun u => { u with customface := url }) fun _ => rfl⟩ with
    ⟨sql, heq, -⟩ | ⟨sql, heq, -⟩
  · rw [heq]
    exact hset
  · rw [heq]
    rcases heap_modifyById (w.store.users.modify p (fun u => { u with customface := url }) fun _ => rfl)
      (w.record p).userid (copyProfile { w.record p with customface := url }) (fun _ => rfl) p with hsame | ⟨-, hcopied⟩
    · exact (congrArg User.customface hsame).trans hset
    · exact congrArg User.customface hcopied

/-- The handler changes the avatar, and confirms whatever came of it. -/
theorem UploadAccepted.avatarUpload_eq (h : UploadAccepted env w n p msg url) :
    avatarUpload env w n msg = .ok ({ code := 0, msg := str "上传成功", url := url },
      avatarChanged env p url (w.setSession n fun s => { s with seq := msg.seq }).called) := by
  obtain ⟨req, grpc, avatar, hparse, hgrpc, havatar, hok, hurl⟩ := h.accepts
  have huser : ((w.setSession n fun s => { s with seq := msg.seq }).session n).user = some p :=
    (World.user_setSeq n w msg.seq).trans h.user
  have hcalls : (w.setSession n fun s => { s with seq := msg.seq }).calls = w.calls := rfl
  have hrecord : (w.setSession n fun s => { s with seq := msg.seq }).record p = w.record p := rfl
  unfold avatarUpload avatarUploadRsp
  rw [hparse, World.theUser_of_user huser]
  simp only [hgrpc, havatar, bind, Except.bind, pure, Except.pure, hcalls, hrecord, hok, hurl, if_true]

/-- **The handler.** An upload that the service accepts is answered with code 0. -/
theorem UploadAccepted.outcome (h : UploadAccepted env w n p msg url) :
    ∃ rsp v, avatarUpload env w n msg = .ok (rsp, v) ∧
      step env w (.recv n msg) =
        .ok (v.respond n msg_type_avatarupload (env.pb.avatarUploadRsp.serialize rsp)) ∧
      rsp.code = 0 ∧ (v.record p).customface = url ∧
      v.store.sql = (MySql.execute env.sql (avatarStmt w p url) w.store.sql).2 := by
  have hrun := h.avatarUpload_eq
  refine ⟨_, _, hrun, ?_, rfl, customface_avatarChanged .., sql_avatarChanged ..⟩
  rw [step_of_connected h.connected, onMessageReceived, dispatch_avatarupload env n msg _ h.cmd,
    onAvatarUploadResponse]
  unfold avatarUpload at hrun
  rw [hrun]
  rfl

/-- The row has the url after the statement that is carried out when it is there and the url is stored as it is,
and after another when it had it before. -/
theorem customfaceIs_avatarStmt :
    CustomfaceIs (MySql.execute env.sql (avatarStmt w p url) w.store.sql).2.db (w.record p).userid url ↔
      if (MySql.execute env.sql (avatarStmt w p url) w.store.sql).1 = true then
        .int (w.record p).userid ∈ userIds w.store.sql.db ∧ StoredAsIs url
      else CustomfaceIs w.store.sql.db (w.record p).userid url := by
  rcases hexec : MySql.execute env.sql (avatarStmt w p url) w.store.sql with ⟨_ | _, sql⟩
  · rw [if_neg Bool.false_ne_true, MySql.db_of_execute_false hexec]
  · rw [if_pos rfl]
    obtain ⟨u, hu, hdb⟩ := db_updateUserInfo hexec
    have hface : unquote (escapeSqlString url) = some u.customface := customface_of_asStored hu
    have hids : userIds sql.db = userIds w.store.sql.db := by
      rw [hdb, userIds_withProfile]
    -- the row of the id has what the literal of the url stands for
    have hshows : ∀ r ∈ sql.db.rows "t_user", r "f_user_id" = .int (w.record p).userid →
        r "f_customface" = .text u.customface := by
      intro r hr hid
      rw [hdb] at hr
      exact rowShows_withProfile hr hid ("f_customface", .text u.customface)
        (List.mem_cons_of_mem _ (List.mem_cons_of_mem _ List.mem_cons_self))
    -- an `UPDATE` of no row is carried out too, so the row has to be there
    unfold CustomfaceIs
    rw [hids]
    refine and_congr_right fun hrow => ?_
    constructor
    · intro hhas
      obtain ⟨r, hr, hid, -⟩ := exists_rowShows hrow u
      rw [← hdb] at hr
      have hsame := (hshows r hr hid).symm.trans (hhas r hr hid)
      rw [StoredAsIs, hface, Value.text.inj hsame]
    · intro hexact
      rw [StoredAsIs, hface] at hexact
      rw [← Option.some.inj hexact]
      exact hshows

/-- For one event. -/
theorem confirmsStored_iff (env : Env) (w : World) (e : Event) : ConfirmsStored env w e ↔ UrlStored env w e := by
  constructor
  · intro hall n p msg url he h
    subst he
    obtain ⟨rsp, v, hrsp, -, hsame, -⟩ := hall n p msg url rfl h
    obtain ⟨rsp', v', hrsp', -, -, hface, hsql⟩ := h.outcome
    rw [hrsp] at hrsp'
    cases hrsp'
    rw [hface, hsql] at hsame
    exact customfaceIs_avatarStmt.1 hsame
  · intro hstored n p msg url he h
    subst he
    obtain ⟨rsp, v, hrsp, hv, -, hface, hsql⟩ := h.outcome
    have hhas := customfaceIs_avatarStmt.2 (hstored n p msg url rfl h)
    rw [← hsql] at hhas
    refine ⟨rsp, v, hrsp, hv, ?_, fun _ => hhas, fun _ => hhas⟩
    rw [hface]
    exact hhas

/-- **Confirmed avatars are stored.** In every run from any state, where no text breaks out of its quotes in the
statement of an upload, each upload that the service accepts leaves the same avatar in the record and the row, and is
answered with code 0 and told to friends only when the row has it, exactly when each of their urls is stored. -/
theorem confirms_stored_iff (env : Env) (w₀ : World) (es : List Event) :
    Run.Always (step env) (fun w e => UploadContained env w e ∧ ConfirmsStored env w e) w₀ es ↔
      Run.Always (step env) (fun w e => UploadContained env w e ∧ UrlStored env w e) w₀ es := by
  have hsame : (fun w e => UploadContained env w e ∧ ConfirmsStored env w e) =
      fun w e => UploadContained env w e ∧ UrlStored env w e := by
    funext w e
    rw [confirmsStored_iff]
  rw [hsame]

/-- The url of an avatar of user 1. -/
def avatarUrl : Bytes := str "http://127.0.0.1:8081/avatars/1_1700000000.png"

/-- A server whose avatar service accepts every image. -/
def withAvatars (sql : SqlEnv) : Env :=
  { Env.ideal (some { agent := false, avatar := some ⟨fun _ _ _ _ => .ok { url := avatarUrl }⟩, mail := none }) with
    sql := sql }

/-- An upload. -/
def avatarMessage : MessageContainer :=
  { cmd := msg_type_avatarupload, seq := 2
    payload := Protobuf.wire.avatarUploadReq.serialize { imageData := [137], format := str "png" } }

/-- `a` logs in and uploads an avatar. -/
def avatarA : List Event :=
  [.connect 1, .recv 0 (loginMessage (str "a") (str "p"))] ++ [.recv 0 avatarMessage]

/-- A server that refuses the statement with the url, which is longer than `varchar(32)`. -/
def urlTooLong : Env := withAvatars { SqlEnv.ideal with execOk := fun n => n != 12 }

/-- The upload is confirmed all the same, and the row does not have the url. -/
theorem avatar_not_stored :
    ¬ Run.Always (step urlTooLong) (ConfirmsStored urlTooLong) (World.init twoUsersStarted) avatarA := by
  intro h
  obtain ⟨w, hrun, hn, huser, hid, hrefused, r, hr, hrow, hface⟩ := @Run.exists_of_eval _ _
    (Run.run (step urlTooLong) (World.init twoUsersStarted) [.connect 1, .recv 0 (loginMessage (str "a") (str "p"))])
    (fun w => w.im.Connected 0 ∧ (w.session 0).user = some 1 ∧ (w.record 1).userid = 1 ∧
      (MySql.execute urlTooLong.sql (avatarStmt w 1 avatarUrl) w.store.sql).1 = false ∧
      ∃ r ∈ w.store.sql.db.rows "t_user", r "f_user_id" = .int 1 ∧ r "f_customface" ≠ .text avatarUrl) _
    (by decide +kernel)
  have hparse : Protobuf.wire.avatarUploadReq.parse avatarMessage.payload =
      some { imageData := [137], format := str "png" } := by decide +kernel
  have hstored := (confirmsStored_iff _ _ _).1 (h.at_snoc hrun) 0 1 _ avatarUrl rfl
    ⟨hn, rfl, huser, _, _, _, hparse, rfl, rfl, rfl, rfl⟩
  rw [hrefused, if_neg Bool.false_ne_true, hid] at hstored
  exact hface (hstored.2 r hr hrow)

end AimChat
