import AimChat.Server.ChatContent

/-! # The fan-out of a group

A chat to a group goes to the members of the group that exist, the sender excepted, each of them once: to
the session `GetSessionByID` finds, or else into the offline cache. `group_chat_fan_out` says for every user
what the handler hands over for them. -/

namespace AimChat

open ClientSession

variable {env : Env}

/-- The user is to get the messages of this sender to the group: a member that exists, and not the sender
itself. -/
def IsRecipient (w : World) (sender group userid : Int) : Prop :=
  userid ≠ sender ∧ (∃ g, w.store.users.record group = some g ∧ userid ∈ g.friends) ∧
    w.store.users.mapUsers.get? userid ≠ none

instance (w : World) (sender group userid : Int) : Decidable (IsRecipient w sender group userid) :=
  have : Decidable (∃ g, w.store.users.record group = some g ∧ userid ∈ g.friends) :=
    decidable_of_iff ((w.store.users.record group).any (fun g => userid ∈ g.friends) = true)
      (by simp [Option.any_eq_true])
  inferInstanceAs (Decidable (_ ∧ _ ∧ _))

/-- What a message hands over for a user: one message to the session that acts as the user, or one entry of
the cache. -/
def handedTo (env : Env) (w : World) (c : MessageContainer) (userid : Int) :
    List Sent × List ChatMsgCache :=
  match w.getSessionByID userid with
  | some targetSession => ([⟨targetSession, w.im.state targetSession, userid, .chat, c⟩], [])
  | none => ([], [⟨userid, env.pb.container.serialize c⟩])

/-! ## The members -/

/-- `GetFriendInfoByUserID` lists the friends that exist, in ascending order. -/
theorem friendsOf_userids (w : World) {group : Int} {g : User} (hg : w.store.users.record group = some g) :
    (w.friendsOf group).map (fun q => (w.record q).userid) =
      g.friends.keys.filter fun id => (w.store.users.mapUsers.get? id).isSome := by
  obtain ⟨p, hp, rfl⟩ := Option.map_eq_some_iff.1 hg
  have hfriends : w.friendsOf group =
      (w.store.users.heap p).friends.keys.filterMap w.store.users.mapUsers.get? := by
    unfold World.friendsOf UserManager.getFriendInfoByUserID
    rw [hp]
    rfl
  rw [hfriends]
  generalize (w.store.users.heap p).friends.keys = l
  induction l with
  | nil => rfl
  | cons id l ih =>
      cases hid : w.store.users.mapUsers.get? id with
      | none => rw [List.filterMap_cons_none hid, ih, List.filter_cons_of_neg (by simp [hid])]
      | some q =>
          -- a record is under its own id
          have huserid : (w.record q).userid = id := (w.store.users.mapped hid).2
          rw [List.filterMap_cons_some hid, List.map_cons, ih, huserid,
            List.filter_cons_of_pos (by simp [hid])]

/-- The recipients of a message to a group, in the order they are handled. -/
def recipients (w : World) (sender group : Int) : List Int :=
  ((w.friendsOf group).map fun q => (w.record q).userid).filter (· ≠ sender)

theorem mem_recipients {w : World} {sender group userid : Int}
    (hgroup : w.store.users.record group ≠ none) :
    userid ∈ recipients w sender group ↔ IsRecipient w sender group userid := by
  obtain ⟨g, hg⟩ := Option.ne_none_iff_exists'.1 hgroup
  unfold recipients IsRecipient
  rw [friendsOf_userids w hg, List.mem_filter, List.mem_filter, OrdSet.mem_keys, Option.isSome_iff_ne_none]
  simp only [decide_eq_true_eq, hg, Option.some.injEq, exists_eq_left']
  tauto

/-- Nobody is listed twice. -/
theorem nodup_recipients (w : World) (sender group : Int) : (recipients w sender group).Nodup := by
  unfold recipients
  cases hg : w.store.users.record group with
  | none =>
      have hfriends : w.friendsOf group = [] := by
        unfold World.friendsOf UserManager.getFriendInfoByUserID
        rw [Option.map_eq_none_iff.1 hg]
        rfl
      rw [hfriends]
      exact List.nodup_nil
  | some g =>
      rw [friendsOf_userids w hg]
      exact (((OrdSet.pairwise_keys g.friends).imp ne_of_lt).filter _).filter _

/-! ## The deliveries -/

/-- Nothing but chat messages is sent on. -/
theorem onlyChats_deliver (env : Env) (c : MessageContainer) (userid : Int) (w : World) :
    ∃ new, (deliver env c userid w).sent = w.sent ++ new ∧ ∀ x ∈ new, x.path = .chat := by
  unfold deliver
  cases w.getSessionByID userid with
  | none => exact ⟨[], (List.append_nil _).symm, by simp⟩
  | some t => exact ⟨_, rfl, by simp⟩

theorem onlyChats_deliverToGroup (c : MessageContainer) (sender : Int) (friends : List UserPtr)
    (w : World) :
    ∃ new, (deliverToGroup env c sender friends w).sent = w.sent ++ new ∧ ∀ x ∈ new, x.path = .chat := by
  unfold deliverToGroup
  induction friends generalizing w with
  | nil => exact ⟨[], (List.append_nil _).symm, by simp⟩
  | cons q friends ih =>
      rw [List.foldl_cons]
      split_ifs with hq
      · exact ih w
      · obtain ⟨new, hsent, hnew⟩ := onlyChats_deliver env c (w.record q).userid w
        obtain ⟨rest, hrest, hall⟩ := ih (deliver env c (w.record q).userid w)
        refine ⟨new ++ rest, by rw [hrest, hsent, List.append_assoc], fun x hx => ?_⟩
        exact (List.mem_append.1 hx).elim (hnew x) (hall x)

/-- What was sent is known from the chat messages when nothing else was. -/
theorem sent_eq_of_onlyChats {w w' : World} {l : List Sent}
    (honly : ∃ new, w'.sent = w.sent ++ new ∧ ∀ x ∈ new, x.path = .chat)
    (hchats : w'.chats = w.chats ++ l) : w'.sent = w.sent ++ l := by
  obtain ⟨new, hsent, hnew⟩ := honly
  have hfilter : new.filter (·.path = .chat) = new :=
    List.filter_eq_self.2 fun x hx => by simpa using hnew x hx
  unfold World.chats at hchats
  rw [hsent, List.filter_append, hfilter] at hchats
  rw [hsent, List.append_cancel_left hchats]

/-- The entries for a user of what these deliveries send. -/
theorem filter_sentBy (w : World) (l : List (Int × MessageContainer)) (v : Int) :
    (sentBy w l).filter (·.userid = v) = sentBy w (l.filter (·.1 = v)) := by
  unfold sentBy
  induction l with
  | nil => rfl
  | cons d l ih =>
      cases hd : w.getSessionByID d.1 with
      | none =>
          rw [List.filterMap_cons_none (by rw [hd]; rfl), ih]
          by_cases hv : d.1 = v
          · rw [List.filter_cons_of_pos (by simpa using hv), List.filterMap_cons_none (by rw [hd]; rfl)]
          · rw [List.filter_cons_of_neg (by simpa using hv)]
      | some s =>
          rw [List.filterMap_cons_some (by rw [hd]; rfl)]
          by_cases hv : d.1 = v
          · rw [List.filter_cons_of_pos (by simpa using hv), List.filter_cons_of_pos (by simpa using hv),
              List.filterMap_cons_some (by rw [hd]; rfl), ih]
          · rw [List.filter_cons_of_neg (by simpa using hv), List.filter_cons_of_neg (by simpa using hv),
              ih]

/-- The entries for a user of what these deliveries cache. -/
theorem filter_cachedBy (w : World) (l : List (Int × MessageContainer)) (v : Int) :
    (cachedBy env w l).filter (·.userid = v) = cachedBy env w (l.filter (·.1 = v)) := by
  unfold cachedBy
  rw [List.filter_map, List.filter_filter, List.filter_filter]
  congr 1
  refine List.filter_congr fun d _ => ?_
  rw [Bool.and_comm]
  rfl

/-- Of deliveries to different users each user has one, or none. -/
theorem filter_deliveries {ids : List Int} (hnodup : ids.Nodup) (c : MessageContainer) (v : Int) :
    (ids.map fun id => (id, c)).filter (·.1 = v) = if v ∈ ids then [(v, c)] else [] := by
  have hcount : ids.filter (fun id => decide (id = v)) = List.replicate (ids.count v) v := by
    rw [← List.filter_beq]
    refine List.filter_congr fun id _ => ?_
    rw [beq_eq_decide]
  rw [List.filter_map]
  show (ids.filter fun id => decide (id = v)).map _ = _
  rw [hcount]
  split_ifs with hv
  · rw [List.count_eq_one_of_mem hnodup hv]
    rfl
  · rw [List.count_eq_zero_of_not_mem hv]
    rfl

/-- What is handed over for each user of deliveries to these users. -/
theorem handed_over (env : Env) (w : World) {ids : List Int} (hnodup : ids.Nodup) (c : MessageContainer) (v : Int) :
    ((sentBy w (ids.map fun id => (id, c))).filter (·.userid = v),
        (cachedBy env w (ids.map fun id => (id, c))).filter (·.userid = v)) =
      if v ∈ ids then handedTo env w c v else ([], []) := by
  rw [filter_sentBy, filter_cachedBy, filter_deliveries hnodup]
  split_ifs with hv
  · unfold sentBy cachedBy handedTo
    cases hfound : w.getSessionByID v with
    | none => simp [hfound]
    | some t => simp [hfound]
  · rfl

/-- A session that has a user handles every chat message. -/
theorem onChatResponse_of_user (env : Env) {w : World} {n : Nat} {p : UserPtr} (huser : (w.session n).user = some p)
    (msg : MessageContainer) : ∃ w', onChatResponse env n msg w = .ok w' := by
  have hset : ((w.setSession n fun s => { s with target := msg.targetId }).session n).user = some p := by
    rw [World.session_setSession, if_pos rfl]
    exact huser
  unfold onChatResponse World.theUser
  dsimp only
  rw [hset]
  show ∃ w', (if msg.targetId = AGENT_USERID then _ else _) = Except.ok w'
  split_ifs
  · exact ⟨_, rfl⟩
  · exact ⟨_, rfl⟩

/-- **A group message fans out exactly once.** A session that has a user handles every chat to a group
that exists. It sends and caches, for each member of the group that exists and is not the sender, one
message to the session that acts as the member, or one entry behind the cache when there is none; and
nothing for anybody else. -/
theorem group_chat_fan_out (env : Env) (w : World) {n : Nat} {msg : MessageContainer} {p : UserPtr}
    (huser : (w.session n).user = some p) (hgroup : msg.targetId ≥ GROUPID_BOUNDARY)
    (hexists : w.store.users.record msg.targetId ≠ none) :
    ∃ w' new cached, onChatResponse env n msg w = .ok w' ∧ w'.sent = w.sent ++ new ∧
      w'.chatMsgCache = w.chatMsgCache ++ cached ∧
      ∀ v,
        (IsRecipient w (w.userID n) msg.targetId v →
          (new.filter (·.userid = v), cached.filter (·.userid = v)) =
            handedTo env w (forwardMsg n msg w) v) ∧
        (¬ IsRecipient w (w.userID n) msg.targetId v →
          (new.filter (·.userid = v), cached.filter (·.userid = v)) = ([], [])) := by
  obtain ⟨w', hrun⟩ := onChatResponse_of_user env huser msg
  have hagent : msg.targetId ≠ AGENT_USERID := by
    unfold AGENT_USERID
    unfold GROUPID_BOUNDARY at hgroup
    omega
  have hdeliveries : deliveriesTo w n (w.session n).seq msg.targetId msg.payload =
      (recipients w (w.userID n) msg.targetId).map fun id => (id, forwardMsg n msg w) := by
    unfold deliveriesTo
    rw [if_neg hagent, if_neg (not_lt.2 hgroup)]
    rfl
  have hmailed := mailed_onChatResponse (Mailed.refl w) hrun
  rw [List.nil_append, hdeliveries] at hmailed
  have honly : ∃ new, w'.sent = w.sent ++ new ∧ ∀ x ∈ new, x.path = .chat := by
    obtain ⟨q, -, rfl⟩ := onChatResponse_eq_ok hrun
    rw [if_neg hagent]
    show ∃ new, (if msg.targetId < GROUPID_BOUNDARY then _ else _ : World).sent = _ ∧ _
    rw [if_neg (not_lt.2 hgroup)]
    exact onlyChats_deliverToGroup ..
  refine ⟨w', _, _, hrun, sent_eq_of_onlyChats honly hmailed.chats, hmailed.cache, fun v => ?_⟩
  -- the members are listed once each, so what is handed over for one is one delivery
  have hover := handed_over env w (nodup_recipients w (w.userID n) msg.targetId)
    (forwardMsg n msg w) v
  rw [hover]
  constructor
  · intro hv
    rw [if_pos ((mem_recipients hexists).2 hv)]
  · intro hv
    rw [if_neg fun h => hv ((mem_recipients hexists).1 h)]

/-- The users of `twoUsers` and a group both are members of. -/
def groupOfTwo : Store :=
  let (_, groupid, st) := UserManager.addGroup SqlEnv.ideal (str "g") 1 twoUsers
  let st := (UserManager.makeFriendRelationship SqlEnv.ideal 1 groupid st).2
  (UserManager.makeFriendRelationship SqlEnv.ideal 2 groupid st).2

/-- `a` writes to the group while `b` is offline: one entry for `b`, nothing for `a`. -/
theorem group_chat_fan_out_offline :
    ∃ w w' new cached, Run.run (step (Env.ideal none)) (World.init groupOfTwo)
        [.connect 1, .recv 0 (loginMessage (str "a") (str "p"))] = .ok w ∧
      onChatResponse (Env.ideal none) 0 { cmd := msg_type_chat, seq := 2, targetId := 0x10000000 } w =
        .ok w' ∧
      w'.sent = w.sent ++ new ∧ w'.chatMsgCache = w.chatMsgCache ++ cached ∧
      (new.filter (·.userid = 2)).length = 0 ∧ (cached.filter (·.userid = 2)).length = 1 ∧
      (new.filter (·.userid = 1)).length = 0 ∧ (cached.filter (·.userid = 1)).length = 0 := by
  obtain ⟨w, hw, huser, hexists, hb, ha, hoffline⟩ := @Run.exists_of_eval _ _
    (Run.run (step (Env.ideal none)) (World.init groupOfTwo)
      [.connect 1, .recv 0 (loginMessage (str "a") (str "p"))])
    (fun w => (w.session 0).user = some 0 ∧ (w.store.users.record 0x10000000).isSome ∧
      IsRecipient w (w.userID 0) 0x10000000 2 ∧ ¬ IsRecipient w (w.userID 0) 0x10000000 1 ∧
      w.getSessionByID 2 = none) _ (by decide +kernel)
  obtain ⟨w', new, cached, hrun, hsent, hcache, hover⟩ := @group_chat_fan_out (Env.ideal none) w 0
    { cmd := msg_type_chat, seq := 2, targetId := 0x10000000 } 0 huser (by decide)
    (Option.isSome_iff_ne_none.1 hexists)
  have hb' := (hover 2).1 hb
  have ha' := (hover 1).2 ha
  unfold handedTo at hb'
  rw [hoffline, Prod.mk.injEq] at hb'
  rw [Prod.mk.injEq] at ha'
  exact ⟨w, w', new, cached, hw, hrun, hsent, hcache, by rw [hb'.1]; rfl, by rw [hb'.2]; rfl,
    by rw [ha'.1]; rfl, by rw [ha'.2]; rfl⟩

end AimChat
