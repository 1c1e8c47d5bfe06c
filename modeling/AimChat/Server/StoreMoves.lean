import Mathlib.Logic.Relation
import AimChat.Server.Step

/-! # What the handlers do to the user store

A handler reaches the store through the operations of `UserManager` and through the record `m_user` points
at: `StoreMove` lists the ways, with what the handler has checked before. Each handler makes some moves one
after the other, so a relation that every move keeps holds between the stores before and after an event. -/

namespace AimChat

open UserManager

/-- One access of a handler to the user store. -/
inductive StoreMove (env : SqlEnv) : Store → Store → Prop
  | addUser (user : User) (st : Store) : StoreMove env st (addUser env user st).2
  | addGroup (groupname : Bytes) (ownerid : Int) (st : Store) :
      StoreMove env st (addGroup env groupname ownerid st).2.2
  | updateUserInfo (userid : Int) (info : User) (st : Store) :
      StoreMove env st (updateUserInfo env userid info st).2
  /-- The password of a record is not empty when `ModifyUserPassword` is called for it. -/
  | modifyUserPassword {st st' : Store} {p : UserPtr} {newpassword : Bytes}
      (hpassword : (st.users.heap p).password ≠ [])
      (h : modifyUserPassword env (st.users.heap p).userid newpassword st = (true, st')) :
      StoreMove env st ⟨st'.sql, st'.users.modify p (withPassword newpassword) fun _ => rfl⟩
  | modifyUserPassword_failed {st st' : Store} {userid : Int} {newpassword : Bytes}
      (h : modifyUserPassword env userid newpassword st = (false, st')) : StoreMove env st st'
  | makeFriendRelationship (smallid greatid : Int) (st : Store) :
      StoreMove env st (makeFriendRelationship env smallid greatid st).2
  | deleteFriendToUser (userid friendid : Int) (st : Store) :
      StoreMove env st (deleteFriendToUser env userid friendid st).2
  | saveChatMsgToDb (senderid targetid : Int) (chatmsg : Bytes) (st : Store) :
      StoreMove env st (saveChatMsgToDb env senderid targetid chatmsg st).2
  | getChatHistory (userid targetid limit : Int) (st : Store) :
      StoreMove env st (getChatHistory env userid targetid limit st).2
  /-- A write through `m_user`: the status, the profile or the avatar. -/
  | setRecord (st : Store) (p : UserPtr) (f : User → User) (hf : ∀ u, (f u).userid = u.userid)
      (hpassword : ∀ u, (f u).password = u.password) (husername : ∀ u, (f u).username = u.username) :
      StoreMove env st ⟨st.sql, st.users.modify p f hf⟩

/-- An access that makes and deletes no relationship. -/
inductive QuietMove (env : SqlEnv) : Store → Store → Prop
  | addUser (user : User) (hfriends : user.friends = ∅) (st : Store) : QuietMove env st (addUser env user st).2
  | addGroup (groupname : Bytes) (ownerid : Int) (st : Store) :
      QuietMove env st (addGroup env groupname ownerid st).2.2
  | updateUserInfo (userid : Int) (info : User) (st : Store) :
      QuietMove env st (updateUserInfo env userid info st).2
  | modifyUserPassword {st st' : Store} {p : UserPtr} {newpassword : Bytes}
      (hpassword : (st.users.heap p).password ≠ [])
      (h : modifyUserPassword env (st.users.heap p).userid newpassword st = (true, st')) :
      QuietMove env st ⟨st'.sql, st'.users.modify p (withPassword newpassword) fun _ => rfl⟩
  | modifyUserPassword_failed {st st' : Store} {userid : Int} {newpassword : Bytes}
      (h : modifyUserPassword env userid newpassword st = (false, st')) : QuietMove env st st'
  | saveChatMsgToDb (senderid targetid : Int) (chatmsg : Bytes) (st : Store) :
      QuietMove env st (saveChatMsgToDb env senderid targetid chatmsg st).2
  | getChatHistory (userid targetid limit : Int) (st : Store) :
      QuietMove env st (getChatHistory env userid targetid limit st).2
  | setRecord (st : Store) (p : UserPtr) (f : User → User) (hf : ∀ u, (f u).userid = u.userid)
      (hpassword : ∀ u, (f u).password = u.password) (husername : ∀ u, (f u).username = u.username)
      (hfriends : ∀ u, (f u).friends = u.friends) : QuietMove env st ⟨st.sql, st.users.modify p f hf⟩

theorem QuietMove.move {env : SqlEnv} {st st' : Store} (h : QuietMove env st st') : StoreMove env st st' := by
  cases h with
  | addUser user _ st => exact .addUser user st
  | addGroup groupname ownerid st => exact .addGroup groupname ownerid st
  | updateUserInfo userid info st => exact .updateUserInfo userid info st
  | modifyUserPassword hpassword h => exact .modifyUserPassword hpassword h
  | modifyUserPassword_failed h => exact .modifyUserPassword_failed h
  | saveChatMsgToDb senderid targetid chatmsg st => exact .saveChatMsgToDb senderid targetid chatmsg st
  | getChatHistory userid targetid limit st => exact .getChatHistory userid targetid limit st
  | setRecord st p f hf hpassword husername _ => exact .setRecord st p f hf hpassword husername

/-- The store after some moves. -/
def Moves (env : SqlEnv) : Store → Store → Prop := Relation.ReflTransGen (StoreMove env)

namespace Moves

variable {env : SqlEnv} {st st' st'' : Store}

theorem refl (st : Store) : Moves env st st := Relation.ReflTransGen.refl

theorem of_eq (h : st' = st) : Moves env st st' := by
  rw [h]
  exact refl st

theorem single (h : StoreMove env st st') : Moves env st st' := Relation.ReflTransGen.single h

theorem trans (h : Moves env st st') (h' : Moves env st' st'') : Moves env st st'' :=
  Relation.ReflTransGen.trans h h'

/-- **The rule of moves.** A reflexive and transitive relation that every move keeps holds along them. -/
theorem induct {R : Store → Store → Prop} (hrefl : ∀ st, R st st)
    (htrans : ∀ {st st' st''}, R st st' → R st' st'' → R st st'')
    (hmove : ∀ {st st'}, StoreMove env st st' → R st st') (h : Moves env st st') : R st st' := by
  induction h with
  | refl => exact hrefl st
  | tail _ hlast ih => exact htrans ih (hmove hlast)

end Moves

/-- The store after some quiet moves. -/
def QuietMoves (env : SqlEnv) : Store → Store → Prop := Relation.ReflTransGen (QuietMove env)

namespace QuietMoves

variable {env : SqlEnv} {st st' st'' : Store}

theorem refl (st : Store) : QuietMoves env st st := Relation.ReflTransGen.refl

theorem of_eq (h : st' = st) : QuietMoves env st st' := by
  rw [h]
  exact refl st

theorem single (h : QuietMove env st st') : QuietMoves env st st' := Relation.ReflTransGen.single h

theorem trans (h : QuietMoves env st st') (h' : QuietMoves env st' st'') : QuietMoves env st st'' :=
  Relation.ReflTransGen.trans h h'

theorem moves (h : QuietMoves env st st') : Moves env st st' := by
  induction h with
  | refl => exact Moves.refl _
  | tail _ hlast ih => exact ih.trans (.single hlast.move)

/-- What every quiet move keeps is kept by some of them. -/
theorem keep {I : Store → Prop} (hmove : ∀ {st st'}, QuietMove env st st' → I st → I st')
    (h : QuietMoves env st st') (hst : I st) : I st' := by
  induction h with
  | refl => exact hst
  | tail _ hlast ih => exact hmove hlast ih

end QuietMoves

/-- The result of a computation that gives one meets `R`. -/
def Yields {α : Type} (R : α → Prop) (x : Except Fault α) : Prop := ∀ a, x = .ok a → R a

namespace Yields

variable {α β : Type} {R : α → Prop} {S : β → Prop} {x : Except Fault α}

theorem ok {a : α} (h : R a) : Yields R (.ok a) := by
  intro a' ha
  cases ha
  exact h

theorem error (f : Fault) : Yields R (.error f) := by
  intro a ha
  cases ha

/-- A weaker relation holds of the result. -/
theorem mono {T : α → Prop} (hx : Yields R x) (h : ∀ a, R a → T a) : Yields T x :=
  fun a ha => h a (hx a ha)

/-- What comes after a computation sees its result. -/
theorem bind {f : α → Except Fault β} (hx : Yields R x) (hf : ∀ a, R a → Yields S (f a)) :
    Yields S (x >>= f) := by
  cases x with
  | ok a => exact hf a (hx a rfl)
  | error e => exact error e

/-- Either way of a test. -/
theorem ite {c : Prop} [Decidable c] {y : Except Fault α} (hx : Yields R x) (hy : Yields R y) :
    Yields R (if c then x else y) := by
  split_ifs
  · exact hx
  · exact hy

/-- Reading `m_user`, which does nothing else. -/
theorem theUser_of_mem {n : Nat} {w : World} {f : UserPtr → Except Fault β}
    (hf : ∀ p ∈ (w.session n).user, Yields S (f p)) : Yields S (w.theUser n >>= f) := by
  refine bind (R := fun p => p ∈ (w.session n).user) (fun p hp => ?_) hf
  unfold World.theUser at hp
  cases huser : (w.session n).user with
  | none =>
      rw [huser] at hp
      cases hp
  | some q =>
      rw [huser] at hp
      cases hp
      rfl

theorem theUser {n : Nat} {w : World} {f : UserPtr → Except Fault β} (hf : ∀ p, Yields S (f p)) :
    Yields S (w.theUser n >>= f) :=
  theUser_of_mem fun p _ => hf p

end Yields

namespace ClientSession

variable (env : Env) (n : Nat) (msg : MessageContainer) (w : World)

/-! ## Sending -/

theorem store_notify (target userid type : Int) (customface : Bytes) :
    (notify env target userid type customface w).store = w.store := by
  unfold notify
  cases w.getSessionByID target <;> rfl

theorem store_notifyAll (friends : List UserPtr) (userid type : Int) (customface : Bytes) :
    (notifyAll env friends userid type customface w).store = w.store := by
  unfold notifyAll
  induction friends generalizing w with
  | nil => rfl
  | cons q friends ih => rw [List.foldl_cons, ih, store_notify]

theorem store_sendCached (userid : Int) : (sendCached env n userid w).store = w.store := by
  have hraws : ∀ (l : List ChatMsgCache) (w : World),
      (l.foldl (fun w (cached : ChatMsgCache) => sendRaw env n cached.chatmsg w) w).store = w.store := by
    intro l
    induction l with
    | nil => exact fun w => rfl
    | cons cached l ih =>
        intro w
        rw [List.foldl_cons, ih]
        unfold sendRaw
        cases IMCodec.sendRaw env.lib cached.chatmsg <;> rfl
  exact hraws _ _

/-- A login sets the status of its user and changes nothing else of the store. -/
theorem store_loggedIn (p : UserPtr) :
    (loggedIn env n p w).store = (w.setRecord p (fun u => { u with status := 1 }) fun _ => rfl).store := by
  unfold loggedIn
  dsimp only
  rw [store_notifyAll, store_sendCached]
  rfl

theorem store_deliver (forwardMsg : MessageContainer) (userid : Int) :
    (deliver env forwardMsg userid w).store = w.store := by
  unfold deliver
  cases w.getSessionByID userid <;> rfl

theorem store_deliverToGroup (forwardMsg : MessageContainer) (sender : Int) (friends : List UserPtr) :
    (deliverToGroup env forwardMsg sender friends w).store = w.store := by
  unfold deliverToGroup
  induction friends generalizing w with
  | nil => rfl
  | cons q friends ih =>
      rw [List.foldl_cons, ih]
      split_ifs
      · rfl
      · exact store_deliver ..

/-! ## Handlers -/

theorem quiet_registerRsp : QuietMoves env.sql w.store (registerRsp env msg w).2.store := by
  unfold registerRsp
  cases env.pb.registerReq.parse msg.payload with
  | none => exact .refl _
  | some req =>
      dsimp only
      split_ifs
      · exact .refl _
      · cases env.grpc with
        | none => exact .refl _
        | some grpc =>
            dsimp only
            cases grpc.mail with
            | none => exact .refl _
            | some mail =>
                dsimp only
                by_cases hok : (mail.verifyCode w.calls req.email req.code).ok
                · rw [if_pos hok]
                  have hmove := @QuietMove.addUser env.sql
                    { username := req.username, nickname := req.nickname, password := req.password,
                      mail := req.email } rfl w.called.store
                  rcases hresult : UserManager.addUser env.sql _ w.called.store with ⟨_ | _, st⟩ <;>
                    rw [hresult] at hmove
                  · exact .single hmove
                  · exact .single hmove
                · rw [if_neg hok]
                  exact .refl _

theorem quiet_onLoginResponse :
    Yields (fun w' => QuietMoves env.sql w.store w'.store) (onLoginResponse env n msg w) := by
  have hfailed : ∀ (code : Int) (v : World), v.store = w.store →
      Yields (fun w' => QuietMoves env.sql w.store w'.store) (loginFailed env n code v) :=
    fun code v hv => Yields.theUser fun _ => .ok (.of_eq hv)
  unfold onLoginResponse
  rcases loginCode env msg.payload w.store.users with ⟨code, _ | p⟩
  · exact hfailed code w rfl
  · dsimp only
    split_ifs
    · refine .ok ?_
      rw [store_loggedIn]
      exact .single (.setRecord w.store p _ _ (fun _ => rfl) (fun _ => rfl) fun _ => rfl)
    · exact hfailed code _ rfl

/-- Making friends is one move. -/
theorem moves_makeFriends (a b : Int) : Moves env.sql w.store (makeFriends env w a b).2 :=
  .single (.makeFriendRelationship ..)

theorem moves_operateFriendRsp :
    Yields (fun a => Moves env.sql w.store a.2.store) (operateFriendRsp env n msg w) := by
  unfold operateFriendRsp
  cases env.pb.operateFriendReq.parse msg.payload with
  | none => exact .ok (.refl _)
  | some req =>
      dsimp only
      split_ifs
      · unfold addFriendRsp
        split_ifs
        · exact .ok (.refl _)
        · refine Yields.theUser fun p => ?_
          have hmove := moves_makeFriends env w (w.record p).userid req.friendid
          rcases hresult : makeFriends env w (w.record p).userid req.friendid with ⟨_ | _, st⟩ <;>
            rw [hresult] at hmove
          · exact .ok hmove
          · refine .ok ?_
            rw [store_notify]
            exact hmove
      · refine Yields.theUser fun p => ?_
        have hmove := @StoreMove.deleteFriendToUser env.sql (w.record p).userid req.friendid w.store
        rcases hresult : deleteFriendToUser env.sql (w.record p).userid req.friendid w.store with ⟨_ | _, st⟩ <;>
          rw [hresult] at hmove
        · exact .ok (.single hmove)
        · refine .ok ?_
          rw [store_notify]
          exact .single hmove
      · refine .ok ?_
        unfold inviteRsp
        split_ifs
        · have hmove := moves_makeFriends env w req.friendid msg.targetId
          rcases hresult : makeFriends env w req.friendid msg.targetId with ⟨_ | _, st⟩ <;>
            rw [hresult] at hmove <;> exact hmove
        · exact .refl _
      · exact .ok (.refl _)

theorem quiet_updateUserInfoRsp :
    Yields (fun a => QuietMoves env.sql w.store a.2.store) (updateUserInfoRsp env n msg w) := by
  unfold updateUserInfoRsp
  cases env.pb.updateUserInfoReq.parse msg.payload with
  | none => exact .ok (.refl _)
  | some req =>
      refine Yields.theUser fun p => ?_
      have hmove := @QuietMove.updateUserInfo env.sql (w.record p).userid (newinfo req (w.record p)) w.store
      dsimp only
      rcases hresult : updateUserInfo env.sql (w.record p).userid (newinfo req (w.record p)) w.store with
        ⟨_ | _, st⟩ <;> rw [hresult] at hmove
      · exact .ok (.single hmove)
      · exact .ok ((QuietMoves.single hmove).trans
          (.single (.setRecord st p _ _ (fun _ => rfl) (fun _ => rfl) fun _ => rfl)))

/-- The old password is given, and it is the record's. -/
theorem quiet_modifyPasswordRsp :
    Yields (fun a => QuietMoves env.sql w.store a.2.store) (modifyPasswordRsp env n msg w) := by
  unfold modifyPasswordRsp
  cases env.pb.modifyPasswordReq.parse msg.payload with
  | none => exact .ok (.refl _)
  | some req =>
      dsimp only
      split_ifs with hempty
      · exact .ok (.refl _)
      · refine Yields.theUser fun p => ?_
        by_cases hold : req.oldpassword ≠ (w.record p).password
        · rw [if_pos hold]
          exact .ok (.refl _)
        · rw [if_neg hold]
          have hpassword : (w.store.users.heap p).password ≠ [] := by
            intro hnone
            exact hempty (.inl ((not_not.1 hold).trans hnone))
          rcases hresult : modifyUserPassword env.sql (w.record p).userid req.newpassword w.store with ⟨_ | _, st⟩
          · exact .ok (.single (.modifyUserPassword_failed hresult))
          · exact .ok (.single (.modifyUserPassword hpassword hresult))

theorem moves_createGroupRsp :
    Yields (fun a => Moves env.sql w.store a.2.store) (createGroupRsp env n msg w) := by
  unfold createGroupRsp
  cases env.pb.createGroupReq.parse msg.payload with
  | none => exact .ok (.refl _)
  | some req =>
      dsimp only
      split_ifs
      · exact .ok (.refl _)
      · refine Yields.theUser fun p => ?_
        have hmove := @StoreMove.addGroup env.sql req.groupname (w.record p).userid w.store
        rcases hresult : addGroup env.sql req.groupname (w.record p).userid w.store with ⟨_ | _, groupid, st⟩ <;>
          rw [hresult] at hmove
        · exact .ok (.single hmove)
        · exact .ok ((Moves.single hmove).trans (moves_makeFriends env (w.withStore st) _ _))

theorem quiet_getChatHistoryRsp :
    Yields (fun a => QuietMoves env.sql w.store a.2.store) (getChatHistoryRsp env n msg w) := by
  unfold getChatHistoryRsp
  cases env.pb.chatHistoryReq.parse msg.payload with
  | none => exact .ok (.refl _)
  | some req =>
      refine Yields.theUser fun p => ?_
      have hmove := @QuietMove.getChatHistory env.sql (w.record p).userid req.targetid 50 w.store
      rcases hresult : getChatHistory env.sql (w.record p).userid req.targetid 50 w.store with ⟨_ | _, st⟩ <;>
        rw [hresult] at hmove <;> exact .ok (.single hmove)

theorem quiet_avatarChanged (p : UserPtr) (url : Bytes) :
    QuietMoves env.sql w.store (avatarChanged env p url w).store := by
  have hset : QuietMove env.sql w.store (w.setRecord p (fun u => { u with customface := url }) fun _ => rfl).store :=
    .setRecord w.store p _ _ (fun _ => rfl) (fun _ => rfl) fun _ => rfl
  unfold avatarChanged
  dsimp only
  rw [store_notifyAll]
  exact (QuietMoves.single hset).trans (.single (.updateUserInfo ..))

theorem quiet_avatarUploadRsp :
    Yields (fun a => QuietMoves env.sql w.store a.2.store) (avatarUploadRsp env n msg w) := by
  unfold avatarUploadRsp
  cases env.pb.avatarUploadReq.parse msg.payload with
  | none => exact .ok (.refl _)
  | some req =>
      cases env.grpc with
      | none => exact .ok (.refl _)
      | some grpc =>
          dsimp only
          cases grpc.avatar with
          | none => exact .ok (.refl _)
          | some avatar =>
              refine Yields.theUser fun p => ?_
              split_ifs
              · exact .ok (quiet_avatarChanged env w.called p _)
              · exact .ok (.refl _)

theorem store_sendEmailCodeRsp : (sendEmailCodeRsp env msg w).2.store = w.store := by
  unfold sendEmailCodeRsp
  cases env.pb.sendEmailCodeReq.parse msg.payload with
  | none => rfl
  | some req =>
      dsimp only
      split_ifs
      · rfl
      · cases env.grpc with
        | none => rfl
        | some grpc =>
            dsimp only
            cases grpc.mail <;> rfl

theorem quiet_onChatResponse :
    Yields (fun w' => QuietMoves env.sql w.store w'.store) (onChatResponse env n msg w) := by
  unfold onChatResponse
  refine Yields.theUser fun p => ?_
  dsimp only
  split_ifs
  · refine .ok (.of_eq ?_)
    unfold askAgent
    cases env.grpc with
    | none => rfl
    | some grpc =>
        dsimp only
        split_ifs <;> rfl
  · refine .ok ?_
    unfold forward
    dsimp only
    split_ifs
    · rw [store_deliver]
      exact .single (.saveChatMsgToDb ..)
    · rw [store_deliverToGroup]
      exact .single (.saveChatMsgToDb ..)

/-- The loop of `OnMultiChatResponse`. -/
theorem quiet_targets (content : Bytes) (targets : List Int) :
    Yields (fun w' => QuietMoves env.sql w.store w'.store) (targets.foldlM (chatTo env n content) w) := by
  induction targets generalizing w with
  | nil => exact .ok (.refl _)
  | cons target targets ih =>
      rw [List.foldlM_cons]
      have hfirst : Yields (fun w' => QuietMoves env.sql w.store w'.store) (chatTo env n content w target) :=
        quiet_onChatResponse env n _ (w.setSession n fun s => { s with target := target })
      exact hfirst.bind fun v hv w' hw' => hv.trans (ih v w' hw')

theorem quiet_onMultiChatResponse :
    Yields (fun w' => QuietMoves env.sql w.store w'.store) (onMultiChatResponse env n msg w) := by
  unfold onMultiChatResponse
  dsimp only
  cases env.pb.multiChatTargets.parse msg.payload with
  | none => exact Yields.theUser fun _ => .ok (.refl _)
  | some multiTargets =>
      have hloop := quiet_targets env n (w.setSession n fun s => { s with targets := msg.targets })
        multiTargets.content multiTargets.targets
      exact hloop.bind fun v hv => Yields.theUser fun _ => .ok hv

/-! ## Events -/

/-- The messages that make or delete relationships. -/
def OnRelationships (msg : MessageContainer) : Prop :=
  msg.cmd = msg_type_operatefriend ∨ msg.cmd = msg_type_creategroup

/-- Every other message is handled quietly. -/
theorem quiet_dispatch (hmsg : ¬ OnRelationships msg) :
    Yields (fun w' => QuietMoves env.sql w.store w'.store) (dispatch env n msg w) := by
  have hsame : ∀ (x : Except Fault World), Yields (fun w' => w'.store = w.store) x →
      Yields (fun w' => QuietMoves env.sql w.store w'.store) x :=
    fun x hx => hx.mono fun _ => .of_eq
  obtain ⟨hfriend, hgroup⟩ := not_or.1 hmsg
  unfold dispatch
  rw [if_neg hfriend, if_neg hgroup]
  refine .ite ?_ (.ite ?_ (.ite ?_ (.ite ?_ (.ite ?_ (.ite ?_ (.ite ?_ (.ite ?_ (.ite ?_
    (.ite ?_ (.ite ?_ (.ite ?_ (.ite ?_ ?_))))))))))))
  · exact hsame _ (.ok rfl)
  · exact .ok (quiet_registerRsp env msg w)
  · exact quiet_onLoginResponse env n msg w
  · exact Yields.theUser fun _ => hsame _ (.ok rfl)
  · exact Yields.bind (R := fun _ => True) (fun _ _ => trivial) fun _ _ => hsame _ (.ok rfl)
  · exact (quiet_updateUserInfoRsp env n msg w).bind fun a ha => .ok ha
  · exact (quiet_modifyPasswordRsp env n msg w).bind fun a ha => .ok ha
  · exact hsame _ (.ok rfl)
  · exact (quiet_getChatHistoryRsp env n msg w).bind fun a ha => Yields.theUser fun _ => .ok ha
  · exact (quiet_avatarUploadRsp env n msg w).bind fun a ha => .ok ha
  · exact hsame _ (.ok (store_sendEmailCodeRsp env msg w))
  · exact quiet_onChatResponse env n msg w
  · exact quiet_onMultiChatResponse env n msg w
  · exact hsame _ (.ok rfl)

theorem dispatch_operatefriend (h : msg.cmd = msg_type_operatefriend) :
    dispatch env n msg w = onOperateFriendResponse env n msg w := by
  unfold dispatch
  simp [h]

theorem dispatch_creategroup (h : msg.cmd = msg_type_creategroup) :
    dispatch env n msg w = onCreateGroupResponse env n msg w := by
  unfold dispatch
  simp [h]

theorem dispatch_updateuserinfo (h : msg.cmd = msg_type_updateuserinfo) :
    dispatch env n msg w = onUpdateUserInfoResponse env n msg w := by
  unfold dispatch
  simp [h]

theorem dispatch_avatarupload (h : msg.cmd = msg_type_avatarupload) :
    dispatch env n msg w = onAvatarUploadResponse env n msg w := by
  unfold dispatch
  simp [h]

theorem moves_dispatch : Yields (fun w' => Moves env.sql w.store w'.store) (dispatch env n msg w) := by
  by_cases hmsg : OnRelationships msg
  · rcases hmsg with hfriend | hgroup
    · rw [dispatch_operatefriend env n msg w hfriend]
      exact (moves_operateFriendRsp env n msg w).bind fun a ha => .ok ha
    · rw [dispatch_creategroup env n msg w hgroup]
      exact (moves_createGroupRsp env n msg w).bind fun a ha => .ok ha
  · exact (quiet_dispatch env n msg w hmsg).mono fun _ => QuietMoves.moves

end ClientSession

/-- A connected session's request about friends is handled when `m_seq` is set. -/
theorem step_operatefriend {env : Env} {w : World} {n : Nat} {msg : MessageContainer} (hn : w.im.Connected n)
    (hcmd : msg.cmd = msg_type_operatefriend) :
    step env w (.recv n msg) =
      ClientSession.onOperateFriendResponse env n msg (w.setSession n fun s => { s with seq := msg.seq }) := by
  rw [step_of_connected hn, ClientSession.onMessageReceived, ClientSession.dispatch_operatefriend env n msg _ hcmd]

/-- An event leaves the store, unless it is a message that is dispatched. -/
theorem stored_or_dispatched {env : Env} {w w' : World} {e : Event} (h : step env w e = .ok w') :
    w'.store = w.store ∨ ∃ n msg, e = .recv n msg ∧ w.im.Connected n ∧
      ClientSession.dispatch env n msg (w.setSession n fun s => { s with seq := msg.seq }) = .ok w' := by
  cases e with
  | connect addr =>
      rcases step_connect h with ⟨hfree, rfl⟩ | ⟨-, rfl⟩
      · exact .inl rfl
      · exact .inl rfl
  | recv n msg =>
      rcases step_recv h with ⟨hn, hrun⟩ | ⟨-, rfl⟩
      · exact .inr ⟨n, msg, rfl, hn, hrun⟩
      · exact .inl rfl
  | malformed n =>
      rw [step_malformed h]
      exact .inl rfl
  | close n =>
      rcases step_close h with ⟨hn, rfl⟩ | ⟨-, rfl⟩
      · exact .inl rfl
      · exact .inl rfl
  | agentDone k rpc =>
      rcases step_agentDone h with ⟨-, rfl⟩ | ⟨call, p, -, -, -, rfl⟩
      · exact .inl rfl
      · exact .inl rfl

/-- **The store after an event** is reached by moves. -/
theorem moves_step {env : Env} {w w' : World} {e : Event} (h : step env w e = .ok w') :
    Moves env.sql w.store w'.store := by
  rcases stored_or_dispatched h with hsame | ⟨n, msg, -, -, hrun⟩
  · exact .of_eq hsame
  · exact ClientSession.moves_dispatch env n msg (w.setSession n fun s => { s with seq := msg.seq }) w' hrun

end AimChat
