import AimChat.Server.GroupChat
import AimChat.Store.ChatRows

/-! # Multicast and single chats

`OnMultiChatResponse` makes a container for each of its targets and hands it to `OnChatResponse`, the text
of the message being the payload. The payload of a chat message is a serialized `ChatMsg`, and the text is
none: the recipients cannot read it, and what is saved is what a parse of the text happens to leave.
`multicast_iff` says when the effect is that of single chats to the targets. -/

namespace AimChat

open ClientSession

/-- The chat a client sends to one target. -/
def singleChat (env : Env) (seq sender target : Int) (content : Bytes) : MessageContainer :=
  { cmd := msg_type_chat, seq := seq, targetId := target
    payload := env.pb.chatMsg.serialize { senderid := sender, targetid := target, content := content } }

/-- The handling of such chats to these targets, one after the other. -/
def singleChats (env : Env) (n : Nat) (seq sender : Int) (content : Bytes) (targets : List Int) (w : World) :
    Except Fault World :=
  targets.foldlM (fun w target => onMessageReceived env n (singleChat env seq sender target content) w) w

/-- From `w`, the first state has the effect of the second: the same chats were saved, the same recipients
were reached in the same order, and each of them gets a `ChatMsg` with this content. What the assistant is asked
for the target -1, which has no recipient and no row, is not compared. -/
structure SameChats (env : Env) (content : Bytes) (w w₁ w₂ : World) : Prop where
  saved : w₁.store.sql.db.rows "t_chatmsg" = w₂.store.sql.db.rows "t_chatmsg"
  sent : (w₁.chats.drop w.chats.length).map (fun x => (x.conn, x.userid)) =
    (w₂.chats.drop w.chats.length).map fun x => (x.conn, x.userid)
  cached : (w₁.chatMsgCache.drop w.chatMsgCache.length).map ChatMsgCache.userid =
    (w₂.chatMsgCache.drop w.chatMsgCache.length).map ChatMsgCache.userid
  content : ∀ c, Forwarded env w w₁ c →
    ∃ m, env.pb.chatMsg.parse c.payload = some m ∧ m.content = content

/-- The multicast is handled with the effect of single chats to its targets. -/
def MulticastIsSingleChats (env : Env) (n : Nat) (msg : MessageContainer) (multi : MultiChatTargets)
    (seq : Int) (w : World) : Prop :=
  ∃ w₁ w₂, onMessageReceived env n msg w = .ok w₁ ∧
    singleChats env n seq (w.userID n) multi.content multi.targets w = .ok w₂ ∧
    SameChats env multi.content w w₁ w₂

/-! ## A series of chats -/

/-- The recipients of a chat of session `n` to a target. -/
def chatRecipients (w : World) (n : Nat) (target : Int) : List Int :=
  (deliveriesTo w n 0 target []).map Prod.fst

/-- Who the recipients are does not depend on what is sent. -/
theorem fst_deliveriesTo (w : World) (n : Nat) (seq target : Int) (payload : Bytes) :
    (deliveriesTo w n seq target payload).map Prod.fst = chatRecipients w n target := by
  unfold chatRecipients deliveriesTo
  split_ifs
  · rfl
  · rfl
  · rw [List.map_map, List.map_map]
    rfl

/-- The targets whose chats are saved. -/
def savedTargets (targets : List Int) : List Int := targets.filter (· ≠ AGENT_USERID)

/-- `w'` is `w` after chats of session `n` to these targets, whose saved text is `content`. -/
structure Chatted (env : Env) (n : Nat) (content : Bytes) (targets : List Int) (w w' : World) : Prop where
  routing : SameRouting w w'
  store : w'.store = (UserManager.saveAll env.sql
    (UserManager.chatsTo (w.userID n) content (savedTargets targets)) w.store).2
  mail : ∃ l : List (Int × MessageContainer), l.map Prod.fst = targets.flatMap (chatRecipients w n) ∧
    w'.chats = w.chats ++ sentBy w l ∧ w'.chatMsgCache = w.chatMsgCache ++ cachedBy env w l

variable {env : Env} {n : Nat} {content : Bytes}

namespace Chatted

variable {w v w' : World} {targets : List Int}

theorem refl (w : World) : Chatted env n content [] w w :=
  ⟨SameRouting.refl w, rfl, [], rfl, (List.append_nil _).symm, (List.append_nil _).symm⟩

/-- A series and then another one. -/
theorem trans {targets' : List Int} (h : Chatted env n content targets w v)
    (h' : Chatted env n content targets' v w') : Chatted env n content (targets ++ targets') w w' := by
  obtain ⟨l, hl, hchats, hcache⟩ := h.mail
  obtain ⟨l', hl', hchats', hcache'⟩ := h'.mail
  refine ⟨h.routing.trans h'.routing, ?_, l ++ l', ?_, ?_, ?_⟩
  · rw [h'.store, h.store, h.routing.userID, ← UserManager.snd_saveAll_append]
    unfold UserManager.chatsTo savedTargets
    rw [← List.map_append, ← List.filter_append]
  · have hsame : chatRecipients v n = chatRecipients w n := by
      funext target
      unfold chatRecipients
      rw [h.routing.deliveriesTo]
    rw [List.map_append, hl, hl', hsame, List.flatMap_append]
  · rw [hchats', hchats, h.routing.sentBy, sentBy_append, List.append_assoc]
  · rw [hcache', hcache, h.routing.cachedBy, cachedBy_append, List.append_assoc]

/-- A change of the session that leaves its user comes first. -/
theorem setSession {f : Session → Session} (hf : ∀ s, (f s).user = s.user)
    (h : Chatted env n content targets (w.setSession n f) w') : Chatted env n content targets w w' := by
  have hrouting := SameRouting.setSession n hf w
  obtain ⟨l, hl, hchats, hcache⟩ := h.mail
  refine ⟨hrouting.trans h.routing, ?_, l, ?_, ?_, ?_⟩
  · rw [h.store, hrouting.userID]
    rfl
  · rw [hl]
    congr 1
    funext target
    unfold chatRecipients
    rw [hrouting.deliveriesTo]
  · rw [hchats, hrouting.sentBy]
    rfl
  · rw [hcache, hrouting.cachedBy]
    rfl

end Chatted

theorem store_askAgent (userid : Int) (c : MessageContainer) (content : Bytes) (w : World) :
    (askAgent env n userid c content w).store = w.store := by
  unfold askAgent
  cases env.grpc with
  | none => rfl
  | some grpc =>
      dsimp only
      split_ifs
      · rfl
      · rfl

/-- `OnChatResponse` is such a series of one. -/
theorem chatted_onChatResponse {msg : MessageContainer} {w w' : World}
    (hcontent : (env.pb.chatMsgFields msg.payload).content = content)
    (hrun : onChatResponse env n msg w = .ok w') : Chatted env n content [msg.targetId] w w' := by
  have hmailed := mailed_onChatResponse (Mailed.refl w) hrun
  rw [List.nil_append] at hmailed
  refine ⟨hmailed.routing, ?_, _, ?_, hmailed.chats, hmailed.cache⟩
  · unfold savedTargets
    by_cases hagent : msg.targetId = AGENT_USERID
    · obtain ⟨p, -, rfl⟩ := onChatResponse_eq_ok hrun
      rw [if_pos hagent, store_askAgent, List.filter_cons_of_neg (by simpa using hagent)]
      rfl
    · rw [store_onChatResponse hagent hrun, hcontent, List.filter_cons_of_pos (by simpa using hagent)]
      rfl
  · rw [fst_deliveriesTo, List.flatMap_singleton]

/-- The steps of a loop over targets, each a chat to its own. -/
theorem chatted_foldlM {f : World → Int → Except Fault World}
    (hf : ∀ v target v', f v target = .ok v' → Chatted env n content [target] v v')
    (targets : List Int) {w w' : World} (hrun : targets.foldlM f w = .ok w') :
    Chatted env n content targets w w' := by
  induction targets generalizing w with
  | nil =>
      cases hrun
      exact Chatted.refl _
  | cons target targets ih =>
      rw [List.foldlM_cons] at hrun
      cases hstep : f w target with
      | error e =>
          rw [hstep] at hrun
          cases hrun
      | ok v =>
          rw [hstep] at hrun
          exact (hf _ _ _ hstep).trans (ih hrun)

/-- A loop whose steps succeed for a session that has a user, and leave it its user, succeeds. -/
theorem exists_foldlM {f : World → Int → Except Fault World} {p : UserPtr}
    (hf : ∀ v target, (v.session n).user = some p →
      ∃ v', f v target = .ok v' ∧ (v'.session n).user = some p)
    (targets : List Int) {w : World} (huser : (w.session n).user = some p) :
    ∃ w', targets.foldlM f w = .ok w' ∧ (w'.session n).user = some p := by
  induction targets generalizing w with
  | nil => exact ⟨w, rfl, huser⟩
  | cons target targets ih =>
      obtain ⟨v, hstep, hv⟩ := hf w target huser
      obtain ⟨w', hrun, hw'⟩ := ih hv
      refine ⟨w', ?_, hw'⟩
      rw [List.foldlM_cons, hstep]
      exact hrun

/-! ## What the recipients get -/

/-- The containers these deliveries forward. -/
theorem forwarded_iff_mem (hpb : env.pb.Lawful) {w w' : World} {l : List (Int × MessageContainer)}
    (hfits : ∀ d ∈ l, Protobuf.ContainerFits d.2) (hchats : w'.chats = w.chats ++ sentBy w l)
    (hcache : w'.chatMsgCache = w.chatMsgCache ++ cachedBy env w l) (c : MessageContainer) :
    Forwarded env w w' c ↔ ∃ d ∈ l, d.2 = c := by
  unfold Forwarded
  rw [hchats, hcache, List.drop_left, List.drop_left]
  constructor
  · rintro (⟨x, hx, rfl⟩ | ⟨cached, hcached, hparse⟩)
    · obtain ⟨d, hd, s, -, rfl⟩ := mem_sentBy.1 hx
      exact ⟨d, hd, rfl⟩
    · obtain ⟨d, hd, rfl⟩ := List.mem_map.1 hcached
      have hmem := (List.mem_filter.1 hd).1
      rw [hpb.container (hfits d hmem)] at hparse
      exact ⟨d, hmem, Option.some.inj hparse⟩
  · rintro ⟨d, hd, rfl⟩
    cases hfound : w.getSessionByID d.1 with
    | some s => exact .inl ⟨_, mem_sentBy.2 ⟨d, hd, s, hfound, rfl⟩, rfl⟩
    | none =>
        refine .inr ⟨_, List.mem_map.2 ⟨d, List.mem_filter.2 ⟨hd, by simp [hfound]⟩, rfl⟩, ?_⟩
        exact hpb.container (hfits d hd)

/-- Who is sent to is known from the recipients. -/
theorem map_sentBy (w : World) (l : List (Int × MessageContainer)) :
    (sentBy w l).map (fun x => (x.conn, x.userid)) =
      (l.map Prod.fst).filterMap fun id => (w.getSessionByID id).map fun s => (s, id) := by
  unfold sentBy
  rw [List.map_filterMap, List.filterMap_map]
  congr 1
  funext d
  show Option.map _ (Option.map _ _) = Option.map _ _
  rw [Option.map_map]
  rfl

/-- Who is cached for is known from the recipients. -/
theorem map_cachedBy (w : World) (l : List (Int × MessageContainer)) :
    (cachedBy env w l).map ChatMsgCache.userid =
      (l.map Prod.fst).filter fun id => w.getSessionByID id = none := by
  unfold cachedBy
  rw [List.map_map, List.filter_map]
  rfl

/-- Two series of chats to the same targets reach the same recipients. -/
theorem same_recipients {content' : Bytes} {targets : List Int} {w w₁ w₂ : World}
    (h₁ : Chatted env n content targets w w₁) (h₂ : Chatted env n content' targets w w₂) :
    (w₁.chats.drop w.chats.length).map (fun x => (x.conn, x.userid)) =
        (w₂.chats.drop w.chats.length).map (fun x => (x.conn, x.userid)) ∧
      (w₁.chatMsgCache.drop w.chatMsgCache.length).map ChatMsgCache.userid =
        (w₂.chatMsgCache.drop w.chatMsgCache.length).map ChatMsgCache.userid := by
  obtain ⟨l₁, hl₁, hchats₁, hcache₁⟩ := h₁.mail
  obtain ⟨l₂, hl₂, hchats₂, hcache₂⟩ := h₂.mail
  rw [hchats₁, hchats₂, hcache₁, hcache₂, List.drop_left, List.drop_left, List.drop_left, List.drop_left,
    map_sentBy, map_sentBy, map_cachedBy, map_cachedBy, hl₁, hl₂]
  exact ⟨rfl, rfl⟩

/-! ## The two runs -/

/-- Handling one of the single chats. -/
theorem onMessageReceived_single (env : Env) (n : Nat) (seq sender target : Int) (content : Bytes) (w : World) :
    onMessageReceived env n (singleChat env seq sender target content) w =
      onChatResponse env n (singleChat env seq sender target content)
        (w.setSession n fun s => { s with seq := seq }) :=
  dispatch_chat _ _ _ _ rfl

/-- A session that has a user handles the single chats, and they are a series with their text. -/
theorem chatted_singleChats (hback : env.pb.ContentComesBack) {w : World} {p : UserPtr}
    (huser : (w.session n).user = some p) (seq sender : Int) (hutf8 : Protobuf.isUtf8 content = true)
    (hlen : content.length < 10 ^ 9) (targets : List Int) :
    ∃ w₂, singleChats env n seq sender content targets w = .ok w₂ ∧
      Chatted env n content targets w w₂ := by
  have hone : ∀ v target v', onMessageReceived env n (singleChat env seq sender target content) v = .ok v' →
      Chatted env n content [target] v v' := by
    intro v target v' hrun
    rw [onMessageReceived_single] at hrun
    obtain ⟨m, hparse, hcontent⟩ := hback ⟨sender, target, content, 0⟩ hutf8 hlen
    have hfields : (env.pb.chatMsgFields (singleChat env seq sender target content).payload).content =
        content := (congrArg ChatMsg.content (env.pb.chatMsgFields_eq hparse)).trans hcontent
    exact Chatted.setSession (f := fun s => { s with seq := seq }) (fun _ => rfl)
      (chatted_onChatResponse hfields hrun)
  have hsucceeds : ∀ v target, (v.session n).user = some p →
      ∃ v', onMessageReceived env n (singleChat env seq sender target content) v = .ok v' ∧
        (v'.session n).user = some p := by
    intro v target hv
    have hset : ((v.setSession n fun s => { s with seq := seq }).session n).user = some p :=
      (World.user_setSeq n v seq).trans hv
    obtain ⟨v', hrun⟩ := onChatResponse_of_user env hset (singleChat env seq sender target content)
    rw [← onMessageReceived_single] at hrun
    refine ⟨v', hrun, ?_⟩
    rw [(hone v target v' hrun).routing.user, hv]
  obtain ⟨w₂, hrun, -⟩ := exists_foldlM hsucceeds targets huser
  exact ⟨w₂, hrun, chatted_foldlM hone targets hrun⟩

/-- The handler of a session that has a user makes a series of chats whose saved text is what a parse of the
text leaves. -/
theorem chatted_onMultiChatResponse {w : World} {p : UserPtr} (huser : (w.session n).user = some p)
    {msg : MessageContainer} {multi : MultiChatTargets}
    (hparse : env.pb.multiChatTargets.parse msg.payload = some multi) :
    ∃ w₁, onMultiChatResponse env n msg w = .ok w₁ ∧
      Chatted env n (env.pb.chatMsgFields multi.content).content multi.targets w w₁ := by
  -- the states the loop starts from and what it does to them
  have hset : ((w.setSession n fun s => { s with targets := msg.targets }).session n).user = some p := by
    rw [World.session_setSession, if_pos rfl]
    exact huser
  have hone : ∀ v target v', chatTo env n multi.content v target = .ok v' →
      Chatted env n (env.pb.chatMsgFields multi.content).content [target] v v' := by
    intro v target v' hrun
    exact Chatted.setSession (f := fun s => { s with target := target }) (fun _ => rfl)
      (chatted_onChatResponse rfl hrun)
  have hsucceeds : ∀ v target, (v.session n).user = some p →
      ∃ v', chatTo env n multi.content v target = .ok v' ∧ (v'.session n).user = some p := by
    intro v target hv
    have hvset : ((v.setSession n fun s => { s with target := target }).session n).user = some p := by
      rw [World.session_setSession, if_pos rfl]
      exact hv
    obtain ⟨v', hrun⟩ := onChatResponse_of_user env hvset
      { cmd := msg_type_chat, seq := ((v.setSession n fun s => { s with target := target }).session n).seq
        targetId := target, payload := multi.content }
    exact ⟨v', hrun, by rw [(hone v target v' hrun).routing.user, hv]⟩
  obtain ⟨w₁, hloop, huser₁⟩ := exists_foldlM hsucceeds multi.targets hset
  refine ⟨w₁, ?_, Chatted.setSession (f := fun s => { s with targets := msg.targets }) (fun _ => rfl)
    (chatted_foldlM hone multi.targets hloop)⟩
  unfold onMultiChatResponse
  simp only [hparse, hloop, World.theUser_of_user huser₁, bind, Except.bind, pure, Except.pure]

/-- A session that has a user handles a multicast. It is a series of chats, and each recipient is handed a
container with the text as its payload. -/
theorem chatted_multicast {w : World} {p : UserPtr} (huser : (w.session n).user = some p)
    {msg : MessageContainer} (hcmd : msg.cmd = msg_type_multichat) {multi : MultiChatTargets}
    (hparse : env.pb.multiChatTargets.parse msg.payload = some multi) :
    ∃ w₁, onMessageReceived env n msg w = .ok w₁ ∧
      Chatted env n (env.pb.chatMsgFields multi.content).content multi.targets w w₁ ∧
      ∃ l, l = multi.targets.flatMap (fun target => deliveriesTo w n msg.seq target multi.content) ∧
        w₁.chats = w.chats ++ sentBy w l ∧ w₁.chatMsgCache = w.chatMsgCache ++ cachedBy env w l := by
  have huser₀ := (World.user_setSeq n w msg.seq).trans huser
  have hseq₀ : ((w.setSession n fun s => { s with seq := msg.seq }).session n).seq = msg.seq := by
    rw [World.session_setSession, if_pos rfl]
  have hrouting := SameRouting.setSession (f := fun s => { s with seq := msg.seq }) n (fun _ => rfl) w
  obtain ⟨w₁, hmulti, hchatted⟩ := chatted_onMultiChatResponse huser₀ hparse
  have hmailed := mailed_onMultiChatResponse hmulti
  rw [hparse, hseq₀] at hmailed
  dsimp only at hmailed
  refine ⟨w₁, ?_, Chatted.setSession (f := fun s => { s with seq := msg.seq }) (fun _ => rfl) hchatted, _, rfl, ?_, ?_⟩
  · rw [onMessageReceived, dispatch_multichat _ _ _ _ hcmd]
    exact hmulti
  · have hchats := hmailed.chats
    simp only [hrouting.deliveriesTo, hrouting.sentBy] at hchats
    exact hchats
  · have hcache := hmailed.cache
    simp only [hrouting.deliveriesTo, hrouting.cachedBy] at hcache
    exact hcache

/-! ## When the multicast is single chats -/

/-- A chat to a target reaches somebody. -/
def Reaches (w : World) (n : Nat) (target : Int) : Prop := target ≠ AGENT_USERID ∧ HasRecipient w n target

theorem deliveriesTo_ne_nil_iff {w : World} {seq target : Int} {payload : Bytes} :
    deliveriesTo w n seq target payload ≠ [] ↔ Reaches w n target := by
  unfold Reaches
  by_cases hagent : target = AGENT_USERID
  · have hnil : deliveriesTo w n seq target payload = [] := if_pos hagent
    exact iff_of_false (not_not.2 hnil) fun h => h.1 hagent
  · rw [Ne, deliveriesTo_eq_nil_iff hagent, not_not, and_iff_right hagent]

/-- Every recipient reads the text when it reads as itself; without a recipient there is nobody to. -/
theorem reads_iff {w w₁ : World} {seq : Int} {targets : List Int}
    (hforwarded : ∀ c, Forwarded env w w₁ c ↔
      ∃ d ∈ targets.flatMap fun target => deliveriesTo w n seq target content, d.2 = c) :
    (∀ c, Forwarded env w w₁ c → ∃ m, env.pb.chatMsg.parse c.payload = some m ∧ m.content = content) ↔
      (∃ m, env.pb.chatMsg.parse content = some m ∧ m.content = content) ∨
        ∀ target ∈ targets, ¬ Reaches w n target := by
  -- every container has the text as its payload
  have hpayload : ∀ d ∈ targets.flatMap (fun target => deliveriesTo w n seq target content),
      d.2.payload = content := by
    intro d hd
    obtain ⟨target, -, hd⟩ := List.mem_flatMap.1 hd
    rw [(mem_deliveriesTo hd).2]
    rfl
  constructor
  · intro h
    by_cases hreaches : ∀ target ∈ targets, ¬ Reaches w n target
    · exact .inr hreaches
    · simp only [not_forall, not_not] at hreaches
      obtain ⟨target, hmem, hreach⟩ := hreaches
      obtain ⟨d, hd⟩ := List.exists_mem_of_ne_nil _
        ((@deliveriesTo_ne_nil_iff n w seq target content).2 hreach)
      have hd : d ∈ targets.flatMap fun target => deliveriesTo w n seq target content :=
        List.mem_flatMap.2 ⟨target, hmem, hd⟩
      have hread := h d.2 ((hforwarded d.2).2 ⟨d, hd, rfl⟩)
      rw [hpayload d hd] at hread
      exact .inl hread
  · rintro (hread | hnobody) c hc
    · obtain ⟨d, hd, rfl⟩ := (hforwarded c).1 hc
      rw [hpayload d hd]
      exact hread
    · obtain ⟨d, hd, -⟩ := (hforwarded c).1 hc
      obtain ⟨target, hmem, hd⟩ := List.mem_flatMap.1 hd
      exact absurd (deliveriesTo_ne_nil_iff.1 (List.ne_nil_of_mem hd)) (hnobody target hmem)

/-- **Multicast and single chats.** A session's multicast has the effect of single chats to its targets
exactly when the text, as bytes, is a serialized `ChatMsg` whose content is the text itself; or when no
target reaches anybody, and the text and what a parse of the text leaves are saved as the same bytes, or no
save of either is carried out. -/
theorem multicast_iff (hpb : env.pb.Lawful) (hback : env.pb.ContentComesBack) {w : World} {p : UserPtr}
    (huser : (w.session n).user = some p) {msg : MessageContainer} (hcmd : msg.cmd = msg_type_multichat)
    (hmsg : Protobuf.ContainerFits msg) {multi : MultiChatTargets}
    (hparse : env.pb.multiChatTargets.parse msg.payload = some multi) (seq : Int) :
    MulticastIsSingleChats env n msg multi seq w ↔
      (∃ m, env.pb.chatMsg.parse multi.content = some m ∧ m.content = multi.content) ∨
      (∀ target ∈ multi.targets, ¬ Reaches w n target) ∧
        (UserManager.literalValue (env.pb.chatMsgFields multi.content).content =
            UserManager.literalValue multi.content ∨
          UserManager.Refused env.sql (w.userID n) (env.pb.chatMsgFields multi.content).content
              (savedTargets multi.targets) w.store.sql ∧
            UserManager.Refused env.sql (w.userID n) multi.content (savedTargets multi.targets)
              w.store.sql) := by
  obtain ⟨-, hseq, -, -, -, hpayload⟩ := hmsg
  obtain ⟨htargets, hutf8, hcontent⟩ := hpb.multiChatTargets hparse
  have hlen : multi.content.length < 10 ^ 9 := lt_of_le_of_lt hcontent hpayload
  obtain ⟨w₁, hrun₁, h₁, l, rfl, hchats, hcache⟩ := chatted_multicast huser hcmd hparse
  obtain ⟨w₂, hrun₂, h₂⟩ := chatted_singleChats hback huser seq (w.userID n) hutf8 hlen multi.targets
  have hfits : ∀ d ∈ multi.targets.flatMap fun target => deliveriesTo w n msg.seq target multi.content,
      Protobuf.ContainerFits d.2 := by
    intro d hd
    obtain ⟨target, hmem, hd⟩ := List.mem_flatMap.1 hd
    rw [(mem_deliveriesTo hd).2]
    exact fits_chatTo hseq (htargets target hmem) hlen
  have hiff : MulticastIsSingleChats env n msg multi seq w ↔ SameChats env multi.content w w₁ w₂ := by
    constructor
    · rintro ⟨v₁, v₂, hv₁, hv₂, hsame⟩
      obtain rfl := Except.ok.inj (hrun₁.symm.trans hv₁)
      obtain rfl := Except.ok.inj (hrun₂.symm.trans hv₂)
      exact hsame
    · exact fun hsame => ⟨w₁, w₂, hrun₁, hrun₂, hsame⟩
  have hrows := @UserManager.rows_saveAll_eq_iff env.sql (env.pb.chatMsgFields multi.content).content
    multi.content (w.userID n) (savedTargets multi.targets) w.store
  rw [← h₁.store, ← h₂.store] at hrows
  have hreads := reads_iff (forwarded_iff_mem hpb hfits hchats hcache)
  rw [hiff]
  constructor
  · intro hsame
    rcases hreads.1 hsame.content with hreads | hnobody
    · exact .inl hreads
    · exact .inr ⟨hnobody, hrows.1 hsame.saved⟩
  · rintro (hself | ⟨hnobody, hsaved⟩)
    · obtain ⟨m, hm, hmcontent⟩ := hself
      have hsaved : (env.pb.chatMsgFields multi.content).content = multi.content := by
        rw [env.pb.chatMsgFields_eq hm, hmcontent]
      exact ⟨hrows.2 (.inl (by rw [hsaved])), (same_recipients h₁ h₂).1, (same_recipients h₁ h₂).2,
        hreads.2 (.inl ⟨m, hm, hmcontent⟩)⟩
    · exact ⟨hrows.2 hsaved, (same_recipients h₁ h₂).1, (same_recipients h₁ h₂).2, hreads.2 (.inr hnobody)⟩

/-- A multicast of this text to user 2. -/
def multicastTo2 (content : Bytes) : MessageContainer :=
  { cmd := msg_type_multichat, seq := 2
    payload := Protobuf.wire.multiChatTargets.serialize { targets := [2], content := content } }

/-- Session 0 after `a` has logged in; `b`, who has id 2, is offline. -/
def loggedInAsA : Except Fault World :=
  Run.run (step (Env.ideal none)) (World.init twoUsers)
    [.connect 1, .recv 0 (loginMessage (str "a") (str "p"))]

/-- A multicast of the empty text. -/
theorem multicast_iff_empty :
    ∃ w, loggedInAsA = .ok w ∧
      (MulticastIsSingleChats (Env.ideal none) 0 (multicastTo2 []) { targets := [2], content := [] } 3 w ↔
        (∃ m, Protobuf.wire.chatMsg.parse [] = some m ∧ m.content = []) ∨
        (∀ target ∈ [(2 : Int)], ¬ Reaches w 0 target) ∧
          (UserManager.literalValue (Protobuf.wire.chatMsgFields []).content = UserManager.literalValue [] ∨
            UserManager.Refused SqlEnv.ideal (w.userID 0) (Protobuf.wire.chatMsgFields []).content
                (savedTargets [2]) w.store.sql ∧
              UserManager.Refused SqlEnv.ideal (w.userID 0) [] (savedTargets [2]) w.store.sql)) := by
  obtain ⟨w, hw, huser⟩ := @Run.exists_of_eval _ _ loggedInAsA (fun w => (w.session 0).user = some 0) _
    (by decide +kernel)
  exact ⟨w, hw, @multicast_iff (Env.ideal none) 0 Protobuf.wire_lawful Protobuf.wire_contentComesBack w 0
    huser (multicastTo2 []) rfl (by decide +kernel) { targets := [2], content := [] } (by decide +kernel) 3⟩

/-- What a multicast of a text puts into the cache for `b` is no `ChatMsg` with the text. -/
theorem multicast_unreadable :
    ∃ w, loggedInAsA = .ok w ∧
      Protobuf.wire.multiChatTargets.parse (multicastTo2 (str "hi")).payload =
        some { targets := [2], content := str "hi" } ∧
      ∀ seq, ¬ MulticastIsSingleChats (Env.ideal none) 0 (multicastTo2 (str "hi"))
        { targets := [2], content := str "hi" } seq w := by
  obtain ⟨w, hw, huser, hreaches⟩ := @Run.exists_of_eval _ _ loggedInAsA (fun w =>
    (w.session 0).user = some 0 ∧ deliveriesTo w 0 2 2 (str "hi") ≠ []) _ (by decide +kernel)
  have hparse : Protobuf.wire.multiChatTargets.parse (multicastTo2 (str "hi")).payload =
      some { targets := [2], content := str "hi" } := by decide +kernel
  refine ⟨w, hw, hparse, ?_⟩
  rintro seq ⟨w₁, w₂, hrun₁, -, hsame⟩
  obtain ⟨v₁, hv₁, -, l, rfl, hchats, hcache⟩ :=
    @chatted_multicast (Env.ideal none) 0 w 0 huser (multicastTo2 (str "hi")) rfl _ hparse
  obtain rfl := Except.ok.inj (hrun₁.symm.trans hv₁)
  obtain ⟨d, hd⟩ := List.exists_mem_of_ne_nil _ hreaches
  have hcontainer : d.2 = chatTo.container 2 2 (str "hi") := (mem_deliveriesTo hd).2
  -- the container of the delivery is among those forwarded, and has the text as its payload
  have hforwarded : Forwarded (Env.ideal none) w w₁ d.2 := by
    refine (forwarded_iff_mem Protobuf.wire_lawful ?_ hchats hcache d.2).2 ⟨d, ?_, rfl⟩
    · intro e he
      obtain ⟨target, hmem, he⟩ := List.mem_flatMap.1 he
      rw [(mem_deliveriesTo he).2, List.mem_singleton.1 hmem]
      show Protobuf.ContainerFits (chatTo.container 2 2 (str "hi"))
      decide +kernel
    · exact List.mem_flatMap.2 ⟨2, List.mem_singleton_self _, hd⟩
  obtain ⟨m, hm, hcontent⟩ := hsame.content d.2 hforwarded
  rw [hcontainer] at hm
  exact absurd (Protobuf.eq_nil_of_wire_chatMsg hm hcontent) (by decide +kernel)

end AimChat
