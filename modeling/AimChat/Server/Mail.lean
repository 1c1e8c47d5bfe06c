import AimChat.Server.Effect

/-! # Where chat messages go

A chat message is handed to the session `GetSessionByID` finds for its recipient, and is put into the
offline cache when there is none; a login takes the user's messages out of the cache and sends them.
`step_mail` says so of a whole event: `deliveries` are the recipients and messages of the event, in the
order they are handled, `cachedBy` and `sentBy` what becomes of them. -/

namespace AimChat

open ClientSession

variable (env : Env)

/-- The chat messages handed to the codecs, oldest first. -/
def World.chats (w : World) : List Sent := w.sent.filter (·.path = .chat)

/-- The container `OnChatResponse` makes of a message for a target. -/
def chatTo.container (seq target : Int) (payload : Bytes) : MessageContainer :=
  { cmd := msg_type_chat, seq := seq, targetId := target, payload := payload }

/-- The recipients of a chat message of session `n` for a target, with the container each gets. -/
def deliveriesTo (w : World) (n : Nat) (seq target : Int) (payload : Bytes) :
    List (Int × MessageContainer) :=
  if target = AGENT_USERID then []
  -- a single recipient, whether or not anybody has the id
  else if target < GROUPID_BOUNDARY then [(target, chatTo.container seq target payload)]
  else
    -- the members of a group are the friends of its record
    ((w.friendsOf target).map fun q => (w.record q).userid).filter (· ≠ w.userID n) |>.map
      fun userid => (userid, chatTo.container seq target payload)

/-- The recipients of a message that session `n` handles. -/
def deliveries (w : World) (n : Nat) (msg : MessageContainer) : List (Int × MessageContainer) :=
  if msg.cmd = msg_type_chat then deliveriesTo w n msg.seq msg.targetId msg.payload
  else if msg.cmd = msg_type_multichat then
    match env.pb.multiChatTargets.parse msg.payload with
    | none => []
    | some multi => multi.targets.flatMap fun target => deliveriesTo w n msg.seq target multi.content
  else []

/-- What is put into the cache of these deliveries: those nobody acts as the recipient of. -/
def cachedBy (w : World) (l : List (Int × MessageContainer)) : List ChatMsgCache :=
  (l.filter fun d => w.getSessionByID d.1 = none).map fun d => ⟨d.1, env.pb.container.serialize d.2⟩

/-- What is handed to the recipients' sessions of these deliveries. -/
def sentBy (w : World) (l : List (Int × MessageContainer)) : List Sent :=
  l.filterMap fun d => (w.getSessionByID d.1).map fun s => ⟨s, w.im.state s, d.1, .chat, d.2⟩

variable {env}

theorem cachedBy_append (w : World) (l l' : List (Int × MessageContainer)) :
    cachedBy env w (l ++ l') = cachedBy env w l ++ cachedBy env w l' := by
  simp [cachedBy]

theorem sentBy_append (w : World) (l l' : List (Int × MessageContainer)) :
    sentBy w (l ++ l') = sentBy w l ++ sentBy w l' := by
  simp [sentBy]

theorem mem_sentBy {w : World} {l : List (Int × MessageContainer)} {x : Sent} :
    x ∈ sentBy w l ↔ ∃ d ∈ l, ∃ s, w.getSessionByID d.1 = some s ∧ ⟨s, w.im.state s, d.1, .chat, d.2⟩ = x := by
  simp only [sentBy, List.mem_filterMap, Option.map_eq_some_iff]

/-- What is not a chat message leaves the chat messages as they are. -/
theorem Kept.chats {w w' : World} (h : Kept (·.path ≠ .chat) w w') : w'.chats = w.chats := by
  obtain ⟨new, heq, hnew⟩ := h.sent
  have hnone : new.filter (·.path = .chat) = [] :=
    List.filter_eq_nil_iff.2 fun x hx => by simpa using hnew x hx
  unfold World.chats
  rw [heq, List.filter_append, hnone, List.append_nil]

/-! ## Routing -/

/-- The routing of messages is the same: connections, the users of the sessions, and the records. -/
structure SameRouting (w v : World) : Prop where
  im : v.im = w.im
  user : ∀ m, (v.session m).user = (w.session m).user
  users : v.store.users = w.store.users

namespace SameRouting

variable {w v : World}

theorem refl (w : World) : SameRouting w w := ⟨rfl, fun _ => rfl, rfl⟩

theorem trans {x : World} (h : SameRouting w v) (h' : SameRouting v x) : SameRouting w x :=
  ⟨h'.im.trans h.im, fun m => (h'.user m).trans (h.user m), h'.users.trans h.users⟩

theorem setSession (n : Nat) {f : Session → Session} (hf : ∀ s, (f s).user = s.user) (w : World) :
    SameRouting w (w.setSession n f) := by
  refine ⟨rfl, fun m => ?_, rfl⟩
  rw [World.session_setSession]
  split_ifs
  · exact hf _
  · rfl

theorem record (h : SameRouting w v) (p : UserPtr) : v.record p = w.record p := by
  unfold World.record
  rw [h.users]

theorem userID (h : SameRouting w v) (n : Nat) : v.userID n = w.userID n := by
  unfold World.userID
  rw [h.user]
  cases (w.session n).user with
  | none => rfl
  | some p => exact congrArg User.userid (h.record p)

theorem getSessionByID (h : SameRouting w v) (userid : Int) :
    v.getSessionByID userid = w.getSessionByID userid := by
  unfold World.getSessionByID
  simp only [h.im, h.userID]

theorem friendsOf (h : SameRouting w v) (userid : Int) : v.friendsOf userid = w.friendsOf userid := by
  unfold World.friendsOf
  rw [h.users]

theorem deliveriesTo (h : SameRouting w v) (n : Nat) (seq target : Int) (payload : Bytes) :
    AimChat.deliveriesTo v n seq target payload = AimChat.deliveriesTo w n seq target payload := by
  unfold AimChat.deliveriesTo
  simp only [h.friendsOf, h.record, h.userID]

theorem cachedBy (h : SameRouting w v) (l : List (Int × MessageContainer)) :
    AimChat.cachedBy env v l = AimChat.cachedBy env w l := by
  unfold AimChat.cachedBy
  simp only [h.getSessionByID]

theorem sentBy (h : SameRouting w v) (l : List (Int × MessageContainer)) :
    AimChat.sentBy v l = AimChat.sentBy w l := by
  unfold AimChat.sentBy
  simp only [h.getSessionByID, h.im]

end SameRouting

/-- `v` is `w` after these deliveries. -/
structure Mailed (env : Env) (w v : World) (l : List (Int × MessageContainer)) : Prop where
  routing : SameRouting w v
  seq : ∀ m, (v.session m).seq = (w.session m).seq
  cache : v.chatMsgCache = w.chatMsgCache ++ cachedBy env w l
  chats : v.chats = w.chats ++ sentBy w l

namespace Mailed

variable {w v : World} {l : List (Int × MessageContainer)}

theorem refl (w : World) : Mailed env w w [] :=
  ⟨SameRouting.refl w, fun _ => rfl, (List.append_nil _).symm, (List.append_nil _).symm⟩

/-- What touches neither routing nor mail. -/
theorem skip {v' : World} (h : Mailed env w v l) (hrouting : SameRouting v v')
    (hseq : ∀ m, (v'.session m).seq = (v.session m).seq)
    (hcache : v'.chatMsgCache = v.chatMsgCache) (hchats : v'.chats = v.chats) : Mailed env w v' l :=
  ⟨h.routing.trans hrouting, fun m => (hseq m).trans (h.seq m), hcache.trans h.cache,
    hchats.trans h.chats⟩

/-- A session's members other than `m_user` and `m_seq`. -/
theorem setSession (h : Mailed env w v l) (n : Nat) {f : Session → Session}
    (hf : ∀ s, (f s).user = s.user ∧ (f s).seq = s.seq) : Mailed env w (v.setSession n f) l := by
  refine h.skip (SameRouting.setSession n (fun s => (hf s).1) v) (fun m => ?_) rfl rfl
  rw [World.session_setSession]
  split_ifs
  · exact (hf _).2
  · rfl

/-- One more delivery. -/
theorem deliver (h : Mailed env w v l) (userid : Int) (c : MessageContainer) :
    Mailed env w (ClientSession.deliver env c userid v) (l ++ [(userid, c)]) := by
  unfold ClientSession.deliver
  rw [h.routing.getSessionByID]
  cases hfound : w.getSessionByID userid with
  | none =>
      have hcached : cachedBy env w [(userid, c)] = [⟨userid, env.pb.container.serialize c⟩] := by
        simp [cachedBy, hfound]
      have hsent : sentBy w [(userid, c)] = [] := by simp [sentBy, hfound]
      refine ⟨h.routing.trans ⟨rfl, fun _ => rfl, rfl⟩, h.seq, ?_, ?_⟩
      · rw [cachedBy_append, hcached, ← List.append_assoc, ← h.cache]
        rfl
      · rw [sentBy_append, hsent, List.append_nil, ← h.chats]
        rfl
  | some s =>
      have hid : w.userID s = userid := by
        simpa using List.find?_some hfound
      have hcached : cachedBy env w [(userid, c)] = [] := by simp [cachedBy, hfound]
      have hsent : sentBy w [(userid, c)] = [⟨s, w.im.state s, userid, .chat, c⟩] := by
        simp [sentBy, hfound]
      refine ⟨h.routing.trans ⟨rfl, fun _ => rfl, rfl⟩, h.seq, ?_, ?_⟩
      · rw [cachedBy_append, hcached, List.append_nil, ← h.cache]
        rfl
      · rw [sentBy_append, hsent, ← List.append_assoc, ← h.chats, ← hid, ← h.routing.userID,
          ← h.routing.im]
        unfold World.chats World.send
        rw [List.filter_append]
        rfl

/-- The deliveries to the members of a group. -/
theorem deliverToGroup (h : Mailed env w v l) (c : MessageContainer) (sender : Int)
    (friends : List UserPtr) :
    Mailed env w (ClientSession.deliverToGroup env c sender friends v)
      (l ++ ((friends.map fun q => (w.record q).userid).filter (· ≠ sender)).map fun id => (id, c)) := by
  unfold ClientSession.deliverToGroup
  induction friends generalizing v l with
  | nil => simpa using h
  | cons q friends ih =>
      rw [List.foldl_cons, h.routing.record, List.map_cons]
      by_cases hq : (w.record q).userid = sender
      · rw [if_pos hq, List.filter_cons_of_neg (by simpa using hq)]
        exact ih h
      · rw [if_neg hq, List.filter_cons_of_pos (by simpa using hq), List.map_cons,
          List.append_cons]
        exact ih (h.deliver _ c)

end Mailed

/-! ## The handlers -/

theorem chats_send (n : Nat) (path : Path) (hpath : path ≠ .chat) (msg : MessageContainer) (w : World) :
    (w.send n path msg).chats = w.chats := by
  have hnone : List.filter (·.path = .chat) [(⟨n, w.im.state n, w.userID n, path, msg⟩ : Sent)] = [] :=
    List.filter_eq_nil_iff.2 fun x hx => by rw [List.mem_singleton.1 hx]; simpa using hpath
  unfold World.chats World.send
  rw [List.filter_append, hnone, List.append_nil]

theorem mailed_askAgent {w v : World} {l : List (Int × MessageContainer)} (h : Mailed env w v l) (n : Nat)
    (userid : Int) (c : MessageContainer) (content : Bytes) :
    Mailed env w (askAgent env n userid c content v) l := by
  unfold askAgent
  cases env.grpc with
  | none =>
      exact h.skip ⟨rfl, fun _ => rfl, rfl⟩ (fun _ => rfl) rfl (chats_send _ _ Path.noConfusion _ _)
  | some grpc =>
      dsimp only
      split_ifs
      · exact h.skip ⟨rfl, fun _ => rfl, rfl⟩ (fun _ => rfl) rfl rfl
      · exact h

/-- A session that gets through `OnChatResponse` has a user, and forwards the message or asks the
assistant. -/
theorem onChatResponse_eq_ok {v v' : World} {n : Nat} {msg : MessageContainer}
    (hrun : onChatResponse env n msg v = .ok v') :
    ∃ p, (v.session n).user = some p ∧
      v' = if msg.targetId = AGENT_USERID then
          askAgent env n (v.record p).userid (chatTo.container (v.session n).seq msg.targetId msg.payload)
            (env.pb.chatMsgFields msg.payload).content
            (v.setSession n fun s => { s with target := msg.targetId })
        else
          forward env (v.record p).userid (chatTo.container (v.session n).seq msg.targetId msg.payload)
            (env.pb.chatMsgFields msg.payload).content
            (v.setSession n fun s => { s with target := msg.targetId }) := by
  have hset : (v.setSession n fun s => { s with target := msg.targetId }).session n =
      { v.session n with target := msg.targetId } := by
    rw [World.session_setSession, if_pos rfl]
  unfold onChatResponse World.theUser forwardMsg at hrun
  dsimp only at hrun
  rw [hset] at hrun
  cases huser : (v.session n).user with
  | none =>
      dsimp only at hrun
      rw [huser] at hrun
      cases hrun
  | some p =>
      dsimp only at hrun
      rw [huser] at hrun
      refine ⟨p, rfl, ?_⟩
      change (if msg.targetId = AGENT_USERID then _ else _) = _ at hrun
      split_ifs at hrun ⊢
      · exact (Except.ok.inj hrun).symm
      · exact (Except.ok.inj hrun).symm

/-- Forwarding makes the deliveries. -/
theorem mailed_forward {w v : World} {l : List (Int × MessageContainer)} (h : Mailed env w v l) (n : Nat)
    (seq target : Int) (payload content : Bytes) (hagent : target ≠ AGENT_USERID) :
    Mailed env w (forward env (w.userID n) (chatTo.container seq target payload) content v)
      (l ++ deliveriesTo w n seq target payload) := by
  have hsaved : Mailed env w (v.withStore (UserManager.saveChatMsgToDb env.sql (w.userID n) target content
      v.store).2) l := h.skip ⟨rfl, fun _ => rfl, rfl⟩ (fun _ => rfl) rfl rfl
  unfold deliveriesTo
  rw [if_neg hagent]
  show Mailed env w (if target < GROUPID_BOUNDARY then _ else _) _
  split_ifs
  · exact hsaved.deliver _ _
  · rw [← hsaved.routing.friendsOf target]
    exact hsaved.deliverToGroup ..

/-- `OnChatResponse` makes the deliveries of its message. -/
theorem mailed_onChatResponse {w v v' : World} {l : List (Int × MessageContainer)}
    (h : Mailed env w v l) {n : Nat} {msg : MessageContainer}
    (hrun : onChatResponse env n msg v = .ok v') :
    Mailed env w v' (l ++ deliveriesTo w n (w.session n).seq msg.targetId msg.payload) := by
  obtain ⟨p, huser, rfl⟩ := onChatResponse_eq_ok hrun
  have hset : Mailed env w (v.setSession n fun s => { s with target := msg.targetId }) l :=
    h.setSession n fun _ => ⟨rfl, rfl⟩
  have hsender : (v.record p).userid = w.userID n := by
    rw [← h.routing.userID]
    unfold World.userID
    rw [huser]
  rw [h.seq, hsender]
  by_cases hagent : msg.targetId = AGENT_USERID
  · have hnone : deliveriesTo w n (w.session n).seq msg.targetId msg.payload = [] := if_pos hagent
    rw [if_pos hagent, hnone, List.append_nil]
    exact mailed_askAgent hset ..
  · rw [if_neg hagent]
    exact mailed_forward hset n _ _ _ _ hagent

/-- The loop of `OnMultiChatResponse`. -/
theorem mailed_targets {w v v' : World} {l : List (Int × MessageContainer)} {n : Nat} {content : Bytes}
    (targets : List Int) (h : Mailed env w v l)
    (hrun : targets.foldlM (chatTo env n content) v = .ok v') :
    Mailed env w v' (l ++ targets.flatMap fun target =>
      deliveriesTo w n (w.session n).seq target content) := by
  -- on the targets: each is a chat of its own, handled in the state the one before has left
  induction targets generalizing v l with
  | nil =>
      cases hrun
      simpa using h
  | cons target targets ih =>
      rw [List.foldlM_cons] at hrun
      cases hchat : chatTo env n content v target with
      | error f =>
          rw [hchat] at hrun
          cases hrun
      | ok x =>
          rw [hchat] at hrun
          have hset : Mailed env w (v.setSession n fun s => { s with target := target }) l :=
            h.setSession n fun _ => ⟨rfl, rfl⟩
          rw [List.flatMap_cons, ← List.append_assoc]
          exact ih (mailed_onChatResponse hset hchat) hrun

/-- `OnMultiChatResponse` makes the deliveries of each of its targets. -/
theorem mailed_onMultiChatResponse {w w' : World} {n : Nat} {msg : MessageContainer}
    (hrun : onMultiChatResponse env n msg w = .ok w') :
    Mailed env w w' (match env.pb.multiChatTargets.parse msg.payload with
      | none => []
      | some multi => multi.targets.flatMap fun target =>
          deliveriesTo w n (w.session n).seq target multi.content) := by
  have hset : Mailed env w (w.setSession n fun s => { s with targets := msg.targets }) [] :=
    (Mailed.refl w).setSession n fun _ => ⟨rfl, rfl⟩
  have hlast : ∀ {v : World}, (do let _ ← v.theUser n; return v) = Except.ok w' → w' = v := by
    intro v h
    unfold World.theUser at h
    cases huser : (v.session n).user with
    | none => rw [huser] at h; cases h
    | some p => rw [huser] at h; exact (Except.ok.inj h).symm
  unfold onMultiChatResponse at hrun
  dsimp only at hrun
  cases hparse : env.pb.multiChatTargets.parse msg.payload with
  | none =>
      rw [hparse] at hrun
      rw [hlast hrun]
      exact hset
  | some multi =>
      rw [hparse] at hrun
      dsimp only at hrun ⊢
      cases hloop : multi.targets.foldlM (chatTo env n multi.content)
          (w.setSession n fun s => { s with targets := msg.targets }) with
      | error f => rw [hloop] at hrun; cases hrun
      | ok v =>
          rw [hloop] at hrun
          rw [hlast hrun]
          exact mailed_targets multi.targets hset hloop

/-! ## The login -/

/-- What a login as a user sends of the offline cache. -/
def drained (env : Env) (w : World) (n : Nat) (userid : Int) : List Sent :=
  (w.chatMsgCache.filter (·.userid = userid)).filterMap fun cached =>
    (env.pb.container.parse cached.chatmsg).map fun c => ⟨n, w.im.state n, userid, .chat, c⟩

/-- The loop of `OnLoginResponse` over the offline messages. -/
theorem sent_sendRaws (n : Nat) (l : List ChatMsgCache) (w : World) :
    (l.foldl (fun w (cached : ChatMsgCache) => sendRaw env n cached.chatmsg w) w).sent =
      w.sent ++ l.filterMap fun cached =>
        (env.pb.container.parse cached.chatmsg).map fun c => ⟨n, w.im.state n, w.userID n, .chat, c⟩ := by
  -- on the cached messages, each sent behind those before it; sending leaves routing alone
  induction l generalizing w with
  | nil => exact (List.append_nil _).symm
  | cons cached l ih =>
      rw [List.foldl_cons, ih]
      have hparse : IMCodec.sendRaw env.lib cached.chatmsg = env.pb.container.parse cached.chatmsg := rfl
      rw [sendRaw, hparse]
      cases hc : env.pb.container.parse cached.chatmsg with
      | none =>
          rw [List.filterMap_cons_none (by rw [hc]; rfl)]
      | some c =>
          rw [List.filterMap_cons_some (by rw [hc]; rfl)]
          exact List.append_assoc ..

theorem sent_sendCached {n : Nat} {userid : Int} {w : World} (hid : w.userID n = userid) :
    (sendCached env n userid w).sent = w.sent ++ drained env w n userid := by
  subst hid
  exact sent_sendRaws n _ _

/-- Going online does not change who a user is. -/
theorem userid_online (u : User) : ({ u with status := 1 } : User).userid = u.userid := rfl

/-- The state once a login is answered: the user is online. -/
def welcomed (env : Env) (n : Nat) (p : UserPtr) (w : World) : World :=
  (w.setRecord p (fun u => { u with status := 1 }) userid_online).respond n msg_type_login
    (env.pb.loginRsp.serialize { code := 0, msg := loginMsg 0, user := some (userInfo (w.record p)) })

theorem userid_welcomed (n : Nat) (p : UserPtr) (w : World) :
    ((welcomed env n p w).record p).userid = (w.record p).userid := by
  show (if p = p then _ else _ : User).userid = _
  rw [if_pos rfl]
  rfl

/-- After the answer a login sends the offline messages, and then only status changes. -/
theorem kept_loggedIn (n : Nat) (p : UserPtr) (w : World) :
    Kept Sent.IsNotify (sendCached env n (w.record p).userid (welcomed env n p w))
      (loggedIn env n p w) := by
  rw [← @userid_welcomed env n p w]
  exact kept_notifyAll ..

/-- A login whose password is right sends the answer, the offline messages and then status changes. -/
theorem sent_loggedIn {n : Nat} {p : UserPtr} {w : World} (hp : (w.session n).user = some p) :
    ∃ payload new, (loggedIn env n p w).sent =
        w.sent ++ ⟨n, w.im.state n, (w.record p).userid, .answer,
          { cmd := msg_type_login, seq := (w.session n).seq, payload := payload }⟩ ::
            drained env w n (w.record p).userid ++ new ∧
      ∀ x ∈ new, x.IsNotify := by
  -- the session acts as the same user throughout, the login changes a status only
  have hid : ∀ v : World, v.session = w.session → (v.record p).userid = (w.record p).userid →
      v.userID n = (w.record p).userid := by
    intro v hsession hrecord
    unfold World.userID
    rw [hsession, hp]
    exact hrecord
  have hcached : (sendCached env n (w.record p).userid (welcomed env n p w)).sent =
      (welcomed env n p w).sent ++ drained env w n (w.record p).userid :=
    sent_sendCached (hid _ rfl (userid_welcomed n p w))
  have hanswer : (welcomed env n p w).sent = w.sent ++ [⟨n, w.im.state n, (w.record p).userid, .answer,
      { cmd := msg_type_login, seq := (w.session n).seq
        payload := env.pb.loginRsp.serialize
          { code := 0, msg := loginMsg 0, user := some (userInfo (w.record p)) } }⟩] := by
    rw [← hid (w.setRecord p (fun u => { u with status := 1 }) fun _ => rfl) rfl
      (@userid_welcomed env n p w)]
    rfl
  obtain ⟨new, heq, hnew⟩ := (@kept_loggedIn env n p w).sent
  refine ⟨env.pb.loginRsp.serialize
    { code := 0, msg := loginMsg 0, user := some (userInfo (w.record p)) }, new, ?_, hnew⟩
  rw [heq, hcached, hanswer, List.append_assoc w.sent]
  rfl

/-- The offline messages of the user leave the cache. -/
theorem chatMsgCache_loggedIn (n : Nat) (p : UserPtr) (w : World) :
    (loggedIn env n p w).chatMsgCache =
      w.chatMsgCache.filter (·.userid ≠ (w.record p).userid) := by
  have hsent : Kept (fun _ => True) ((welcomed env n p w).getChatMsgCache (w.record p).userid).2
      (sendCached env n (w.record p).userid (welcomed env n p w)) :=
    Kept.foldl (fun w (cached : ChatMsgCache) =>
      (kept_sendRaw env n w cached.chatmsg).mono fun _ _ => trivial) _ _
  exact (kept_loggedIn n p w).chatMsgCache.trans hsent.chatMsgCache

/-- Offline messages are sent as chat messages of the user to the session that logs in. -/
theorem mem_drained {w : World} {n : Nat} {userid : Int} {x : Sent} (hx : x ∈ drained env w n userid) :
    ∃ c, x = ⟨n, w.im.state n, userid, .chat, c⟩ := by
  obtain ⟨cached, -, h⟩ := List.mem_filterMap.1 hx
  obtain ⟨c, -, rfl⟩ := Option.map_eq_some_iff.1 h
  exact ⟨c, rfl⟩

/-- The chat messages of a login are the offline messages. -/
theorem chats_loggedIn {n : Nat} {p : UserPtr} {w : World} (hp : (w.session n).user = some p) :
    (loggedIn env n p w).chats = w.chats ++ drained env w n (w.record p).userid := by
  obtain ⟨payload, new, heq, hnew⟩ := @sent_loggedIn env n p w hp
  have hnone : new.filter (·.path = .chat) = [] :=
    List.filter_eq_nil_iff.2 fun x hx => by rw [(hnew x hx).1]; exact Bool.false_ne_true
  have hall : (drained env w n (w.record p).userid).filter (·.path = .chat) =
      drained env w n (w.record p).userid :=
    List.filter_eq_self.2 fun x hx => by
      obtain ⟨c, rfl⟩ := mem_drained hx
      rfl
  unfold World.chats
  rw [heq, List.filter_append, List.filter_append, hnone, List.append_nil,
    List.filter_cons_of_neg Bool.false_ne_true, hall]

/-! ## One event -/

/-- The chat messages an event brings and their recipients, in the order they are handled. -/
def delivered (env : Env) (w : World) : Event → List (Int × MessageContainer)
  | .recv n msg => if w.im.Connected n then deliveries env w n msg else []
  | _ => []

/-- The event is a login of session `n` as this record, with its password. -/
def LogsIn (env : Env) (w : World) (n : Nat) (p : UserPtr) (e : Event) : Prop :=
  ∃ msg, e = .recv n msg ∧ w.im.Connected n ∧ msg.cmd = msg_type_login ∧
    loginCode env msg.payload w.store.users = (0, some p)

/-- What an event does to the cache and the chat messages. -/
inductive MailStep (env : Env) (w : World) (e : Event) (w' : World) : Prop
  /-- A login takes the user's messages out of the cache and sends them. -/
  | login (n : Nat) (p : UserPtr) (h : LogsIn env w n p e)
      (cache : w'.chatMsgCache = w.chatMsgCache.filter (·.userid ≠ (w.record p).userid))
      (chats : w'.chats = w.chats ++ drained env w n (w.record p).userid)
  /-- The messages of any other event go to the sessions and into the cache. -/
  | handled (h : ∀ n p, ¬ LogsIn env w n p e)
      (cache : w'.chatMsgCache = w.chatMsgCache ++ cachedBy env w (delivered env w e))
      (chats : w'.chats = w.chats ++ sentBy w (delivered env w e))

/-- A login is no chat message. -/
theorem delivered_login {w : World} {n : Nat} {p : UserPtr} {e : Event} (h : LogsIn env w n p e) :
    delivered env w e = [] := by
  obtain ⟨msg, rfl, hn, hlogin, -⟩ := h
  unfold delivered deliveries
  simp [hlogin]

/-- A step that sends no chat message and keeps the cache. -/
theorem MailStep.of_kept {w w' : World} {e : Event} (h : ∀ n p, ¬ LogsIn env w n p e)
    (hnone : delivered env w e = []) (hcache : w'.chatMsgCache = w.chatMsgCache)
    (hchats : w'.chats = w.chats) : MailStep env w e w' := by
  refine .handled h ?_ ?_
  · rw [hnone, hcache]
    exact (List.append_nil _).symm
  · rw [hnone, hchats]
    exact (List.append_nil _).symm

/-- A refused login sends only its answer. -/
theorem mailStep_login {w w' : World} {n : Nat} {msg : MessageContainer} (hn : w.im.Connected n)
    (hlogin : msg.cmd = msg_type_login)
    (hrun : onLoginResponse env n msg (w.setSession n fun s => { s with seq := msg.seq }) = .ok w') :
    MailStep env w (.recv n msg) w' := by
  have hfailed : ∀ code v, loginFailed env n code v = .ok w' → v.chatMsgCache = w.chatMsgCache →
      v.chats = w.chats → w'.chatMsgCache = w.chatMsgCache ∧ w'.chats = w.chats := by
    intro code v h hcache hchats
    rw [loginFailed_eq_ok h]
    exact ⟨hcache, (chats_send _ _ Path.noConfusion _ _).trans hchats⟩
  have hnone : delivered env w (.recv n msg) = [] := by
    unfold delivered deliveries
    simp [hlogin]
  unfold onLoginResponse at hrun
  have husers : (w.setSession n fun s => { s with seq := msg.seq }).store.users = w.store.users := rfl
  rw [husers] at hrun
  cases hcode : loginCode env msg.payload w.store.users with
  | mk code found =>
      rw [hcode] at hrun
      -- the event is a login exactly when the answer is 0 and a record was found
      have hcases : ∀ m q, LogsIn env w m q (.recv n msg) → code = 0 ∧ found = some q := by
        rintro m q ⟨msg', heq, -, -, hcode'⟩
        cases heq
        rw [hcode] at hcode'
        cases hcode'
        exact ⟨rfl, rfl⟩
      cases found with
      | none =>
          obtain ⟨hcache, hchats⟩ := hfailed code _ hrun rfl rfl
          -- refused before a record was found
          exact .of_kept (fun m q h => by cases (hcases m q h).2) hnone hcache hchats
      | some p =>
          change (if code = 0 then _ else _) = _ at hrun
          split_ifs at hrun with hzero
          · cases hrun
            subst hzero
            have huser : (((w.setSession n fun s => { s with seq := msg.seq }).setSession n
                fun s => { s with user := some p }).session n).user = some p := by
              rw [World.session_setSession, if_pos rfl]
            exact .login n p ⟨msg, rfl, hn, hlogin, hcode⟩ (chatMsgCache_loggedIn ..) (chats_loggedIn huser)
          · obtain ⟨hcache, hchats⟩ := hfailed code _ hrun rfl rfl
            exact .of_kept (fun m q h => hzero (hcases m q h).1) hnone hcache hchats

/-- The deliveries made once `m_seq` is set are those of the event. -/
theorem MailStep.of_mailed {w w' : World} {n : Nat} {msg : MessageContainer}
    {l : List (Int × MessageContainer)} (h : ∀ m p, ¬ LogsIn env w m p (.recv n msg))
    (hmailed : Mailed env (w.setSession n fun s => { s with seq := msg.seq }) w' l)
    (heq : delivered env w (.recv n msg) = l) : MailStep env w (.recv n msg) w' := by
  have hrouting : SameRouting w (w.setSession n fun s => { s with seq := msg.seq }) := by
    apply SameRouting.setSession
    exact fun _ => rfl
  refine .handled h ?_ ?_
  · rw [heq, hmailed.cache, hrouting.cachedBy]
    rfl
  · rw [heq, hmailed.chats, hrouting.sentBy]
    rfl

/-- A message that is no login is delivered if it is a chat message, and otherwise sends none. -/
theorem mailStep_request {w w' : World} {n : Nat} {msg : MessageContainer} (hn : w.im.Connected n)
    (hlogin : msg.cmd ≠ msg_type_login)
    (hrun : dispatch env n msg (w.setSession n fun s => { s with seq := msg.seq }) = .ok w') :
    MailStep env w (.recv n msg) w' := by
  have hno : ∀ m p, ¬ LogsIn env w m p (.recv n msg) := by
    rintro m p ⟨msg', heq, -, hlogin', -⟩
    cases heq
    exact hlogin hlogin'
  have hrouting : SameRouting w (w.setSession n fun s => { s with seq := msg.seq }) := by
    apply SameRouting.setSession
    exact fun _ => rfl
  have hseq : ((w.setSession n fun s => { s with seq := msg.seq }).session n).seq = msg.seq := by
    rw [World.session_setSession, if_pos rfl]
  have hdelivered : delivered env w (.recv n msg) = deliveries env w n msg := if_pos hn
  by_cases hchat : msg.cmd = msg_type_chat
  · rw [dispatch_chat env n msg _ hchat] at hrun
    refine .of_mailed hno (mailed_onChatResponse (Mailed.refl _) hrun) ?_
    rw [hdelivered, hseq, hrouting.deliveriesTo]
    exact if_pos hchat
  by_cases hmulti : msg.cmd = msg_type_multichat
  · rw [dispatch_multichat env n msg _ hmulti] at hrun
    refine .of_mailed hno (mailed_onMultiChatResponse hrun) ?_
    rw [hdelivered, hseq]
    unfold deliveries
    rw [if_neg hchat, if_pos hmulti]
    simp only [hrouting.deliveriesTo]
  · -- every other handler answers, and sends no chat message
    have hserved := served_request env n msg
      (w.setSession n fun s => { s with seq := msg.seq }) hlogin hchat hmulti
    rw [hrun] at hserved
    have hnone : delivered env w (.recv n msg) = [] := by
      rw [hdelivered]
      unfold deliveries
      rw [if_neg hchat, if_neg hmulti]
    rcases hserved.of_ok with hanswers | ⟨-, rfl⟩
    · exact .of_kept hno hnone hanswers.kept.chatMsgCache hanswers.kept.chats
    · exact .of_kept hno hnone rfl rfl

/-- What one event does to the cache and the chat messages. -/
theorem step_mail {w w' : World} {e : Event} (h : step env w e = .ok w') : MailStep env w e w' := by
  cases e with
  | connect addr =>
      refine .of_kept (fun n p ⟨msg, heq, _⟩ => by cases heq) rfl ?_ ?_ <;>
        rcases step_connect h with ⟨-, rfl⟩ | ⟨-, rfl⟩ <;> rfl
  | malformed n =>
      rw [step_malformed h]
      exact .of_kept (fun n p ⟨msg, heq, _⟩ => by cases heq) rfl rfl rfl
  | close n =>
      refine .of_kept (fun n p ⟨msg, heq, _⟩ => by cases heq) rfl ?_ ?_ <;>
        rcases step_close h with ⟨-, rfl⟩ | ⟨-, rfl⟩ <;> rfl
  | agentDone k rpc =>
      rcases step_agentDone h with ⟨-, rfl⟩ | ⟨call, p, -, -, -, rfl⟩
      · exact .of_kept (fun n p ⟨msg, heq, _⟩ => by cases heq) rfl rfl rfl
      · exact .of_kept (fun n p ⟨msg, heq, _⟩ => by cases heq) rfl rfl
          (chats_send _ _ Path.noConfusion _ _)
  | recv n msg =>
      rcases step_recv h with ⟨hn, hrun⟩ | ⟨hn, rfl⟩
      · unfold onMessageReceived at hrun
        by_cases hlogin : msg.cmd = msg_type_login
        · rw [dispatch_login env n msg _ hlogin] at hrun
          exact mailStep_login hn hlogin hrun
        · exact mailStep_request hn hlogin hrun
      · -- nothing is read from a connection that is not up
        refine .of_kept ?_ (if_neg hn) rfl rfl
        rintro m p ⟨msg', heq, hm, -⟩
        cases heq
        exact hn hm

/-! ## What is handed on fits -/

/-- The messages of an event are what protobuf parsed: their numbers are `int32`s. -/
def EventFits : Event → Prop
  | .recv _ msg => Protobuf.ContainerFits msg
  | _ => True

instance : DecidablePred EventFits
  | .recv _ msg => inferInstanceAs (Decidable (Protobuf.ContainerFits msg))
  | .connect _ => .isTrue trivial
  | .malformed _ => .isTrue trivial
  | .close _ => .isTrue trivial
  | .agentDone _ _ => .isTrue trivial

theorem mem_deliveriesTo {w : World} {n : Nat} {seq target : Int} {payload : Bytes}
    {d : Int × MessageContainer} (hd : d ∈ deliveriesTo w n seq target payload) :
    target ≠ AGENT_USERID ∧ d.2 = chatTo.container seq target payload := by
  unfold deliveriesTo at hd
  split_ifs at hd with hagent
  · cases hd
  · rw [List.mem_singleton] at hd
    exact ⟨hagent, by rw [hd]⟩
  · obtain ⟨userid, -, rfl⟩ := List.mem_map.1 hd
    exact ⟨hagent, rfl⟩

/-- A chat message that is handed on has no `targets`. -/
theorem fits_chatTo {seq target : Int} {payload : Bytes} (hseq : IsInt32 seq) (htarget : IsInt32 target)
    (hpayload : payload.length < 10 ^ 9) : Protobuf.ContainerFits (chatTo.container seq target payload) :=
  ⟨(by decide : IsInt32 1100), hseq, htarget, Protobuf.isUtf8_nil, (by decide : 0 < 10 ^ 9), hpayload⟩

/-- A message is handed on under the command of chat messages, never for the assistant, and its numbers
are `int32`s. -/
theorem mem_delivered {w : World} {e : Event} (hpb : env.pb.Lawful) (he : EventFits e)
    {d : Int × MessageContainer} (hd : d ∈ delivered env w e) :
    d.2.cmd = msg_type_chat ∧ d.2.targetId ≠ AGENT_USERID ∧ Protobuf.ContainerFits d.2 := by
  cases e with
  | connect addr => cases hd
  | malformed n => cases hd
  | close n => cases hd
  | agentDone k rpc => cases hd
  | recv n msg =>
      obtain ⟨-, hseq, htarget, -, -, hpayload⟩ := he
      unfold delivered deliveries at hd
      dsimp only at hd
      split_ifs at hd
      -- a chat message: its own numbers
      · obtain ⟨hagent, heq⟩ := mem_deliveriesTo hd
        rw [heq]
        exact ⟨rfl, hagent, fits_chatTo hseq htarget hpayload⟩
      · cases hparse : env.pb.multiChatTargets.parse msg.payload with
        | none => rw [hparse] at hd; cases hd
        | some multi =>
            rw [hparse] at hd
            obtain ⟨htargets, -, hcontent⟩ := hpb.multiChatTargets hparse
            obtain ⟨target, hmem, hd⟩ := List.mem_flatMap.1 hd
            obtain ⟨hagent, heq⟩ := mem_deliveriesTo hd
            rw [heq]
            exact ⟨rfl, hagent, fits_chatTo hseq (htargets target hmem) (lt_of_le_of_lt hcontent hpayload)⟩
      · cases hd
      · cases hd

end AimChat
