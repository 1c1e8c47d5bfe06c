import AimChat.Server.ChatDelivery
import AimChat.Server.StoreMoves

/-! # What a chat message says

`OnChatResponse` stores the session's own user and the container's target, and forwards the payload as the
client sent it. What a recipient reads is what the history holds exactly when the payload says the same:
`forwarded_agrees_iff`. -/

namespace AimChat

open ClientSession

/-! ## The history -/

/-- A chat message is saved as the session's user's. -/
theorem store_onChatResponse {env : Env} {n : Nat} {msg : MessageContainer} {w w' : World}
    (hagent : msg.targetId ≠ AGENT_USERID) (hrun : onChatResponse env n msg w = .ok w') :
    w'.store = (UserManager.saveChatMsgToDb env.sql (w.userID n) msg.targetId
      (env.pb.chatMsgFields msg.payload).content w.store).2 := by
  obtain ⟨p, huser, rfl⟩ := onChatResponse_eq_ok hrun
  have hid : w.userID n = (w.record p).userid := by
    unfold World.userID
    rw [huser]
  rw [if_neg hagent, hid]
  unfold forward
  dsimp only
  split_ifs
  · exact store_deliver ..
  · exact store_deliverToGroup ..

/-! ## The recipients -/

/-- Somebody gets a chat message of session `n` for a target: the target, or a member of the group besides
the sender. -/
def HasRecipient (w : World) (n : Nat) (target : Int) : Prop :=
  target < GROUPID_BOUNDARY ∨ ∃ q ∈ w.friendsOf target, (w.record q).userid ≠ w.userID n

/-- The containers a handler has forwarded or cached: those handed to the codecs of other sessions, and
those the cached bytes hold. -/
def Forwarded (env : Env) (w w' : World) (c : MessageContainer) : Prop :=
  (∃ x ∈ w'.chats.drop w.chats.length, x.msg = c) ∨
    ∃ cached ∈ w'.chatMsgCache.drop w.chatMsgCache.length,
      env.pb.container.parse cached.chatmsg = some c

/-- What every recipient reads is what was saved: the session's user, the container's target and the
content. -/
def ForwardedAgrees (env : Env) (n : Nat) (msg : MessageContainer) (w w' : World) : Prop :=
  w'.store = (UserManager.saveChatMsgToDb env.sql (w.userID n) msg.targetId
      (env.pb.chatMsgFields msg.payload).content w.store).2 ∧
    ∀ c, Forwarded env w w' c → ∀ m, env.pb.chatMsg.parse c.payload = some m →
      m.senderid = w.userID n ∧ m.targetid = c.targetId ∧
        m.content = (env.pb.chatMsgFields msg.payload).content

variable {env : Env}

/-- A message that has a recipient is delivered, each time with the container `OnChatResponse` makes. -/
theorem deliveriesTo_eq_nil_iff {w : World} {n : Nat} {seq target : Int} {payload : Bytes}
    (hagent : target ≠ AGENT_USERID) :
    deliveriesTo w n seq target payload = [] ↔ ¬ HasRecipient w n target := by
  unfold deliveriesTo HasRecipient
  rw [if_neg hagent]
  split_ifs with hsingle
  · simp [hsingle]
  · simp [hsingle, List.filter_eq_nil_iff]

/-- Every recipient gets the same container. -/
theorem forwarded_iff (hpb : env.pb.Lawful) {n : Nat} {msg : MessageContainer} {w w' : World}
    (hfits : Protobuf.ContainerFits (forwardMsg n msg w)) (hagent : msg.targetId ≠ AGENT_USERID)
    (hrun : onChatResponse env n msg w = .ok w') (c : MessageContainer) :
    Forwarded env w w' c ↔ HasRecipient w n msg.targetId ∧ c = forwardMsg n msg w := by
  have hmailed := mailed_onChatResponse (Mailed.refl w) hrun
  rw [List.nil_append] at hmailed
  have hall : ∀ d ∈ deliveriesTo w n (w.session n).seq msg.targetId msg.payload,
      d.2 = forwardMsg n msg w := fun d hd => (mem_deliveriesTo hd).2
  have hnil := @deliveriesTo_eq_nil_iff w n (w.session n).seq msg.targetId msg.payload hagent
  unfold Forwarded
  rw [hmailed.cache, hmailed.chats, List.drop_left, List.drop_left]
  generalize deliveriesTo w n (w.session n).seq msg.targetId msg.payload = l at hall hnil
  constructor
  · have hmem : ∀ d ∈ l, HasRecipient w n msg.targetId := fun d hd =>
      not_not.1 fun h => by rw [hnil.2 h] at hd; cases hd
    rintro (⟨x, hx, rfl⟩ | ⟨cached, hcached, hparse⟩)
    · obtain ⟨d, hd, hx⟩ := List.mem_filterMap.1 hx
      obtain ⟨s, -, rfl⟩ := Option.map_eq_some_iff.1 hx
      exact ⟨hmem d hd, hall d hd⟩
    · obtain ⟨d, hd, rfl⟩ := List.mem_map.1 hcached
      have hd := (List.mem_filter.1 hd).1
      rw [hall d hd, hpb.container hfits] at hparse
      exact ⟨hmem d hd, (Option.some.inj hparse).symm⟩
  · rintro ⟨hrecipient, rfl⟩
    obtain ⟨d, hd⟩ := List.exists_mem_of_ne_nil l fun h => hnil.1 h hrecipient
    cases hfound : w.getSessionByID d.1 with
    | some s =>
        exact .inl ⟨_, List.mem_filterMap.2 ⟨d, hd, by rw [hfound]; rfl⟩, hall d hd⟩
    | none =>
        refine .inr ⟨_, List.mem_map.2 ⟨d, List.mem_filter.2 ⟨hd, by simp [hfound]⟩, rfl⟩, ?_⟩
        rw [hall d hd]
        exact hpb.container hfits

/-- **Live delivery and history.** What the recipients of a chat message read agrees with what is saved of
it exactly when there is no recipient, or the payload is no `ChatMsg`, or it names the session's user as its
sender and the container's target as its target. -/
theorem forwarded_agrees_iff (hpb : env.pb.Lawful) {n : Nat} {msg : MessageContainer} {w w' : World}
    (hfits : Protobuf.ContainerFits (forwardMsg n msg w)) (hagent : msg.targetId ≠ AGENT_USERID)
    (hrun : onChatResponse env n msg w = .ok w') :
    ForwardedAgrees env n msg w w' ↔
      ¬ HasRecipient w n msg.targetId ∨ ∀ m, env.pb.chatMsg.parse msg.payload = some m →
        m.senderid = w.userID n ∧ m.targetid = msg.targetId := by
  constructor
  · rintro ⟨-, h⟩
    by_cases hrecipient : HasRecipient w n msg.targetId
    · refine .inr fun m hm => ?_
      obtain ⟨hsender, htarget, -⟩ :=
        h _ ((forwarded_iff hpb hfits hagent hrun _).2 ⟨hrecipient, rfl⟩) m hm
      exact ⟨hsender, htarget⟩
    · exact .inl hrecipient
  · intro h
    refine ⟨store_onChatResponse hagent hrun, fun c hc m hm => ?_⟩
    obtain ⟨hrecipient, rfl⟩ := (forwarded_iff hpb hfits hagent hrun c).1 hc
    obtain ⟨hsender, htarget⟩ := (h.resolve_left (not_not.2 hrecipient)) m hm
    have hcontent : env.pb.chatMsgFields msg.payload = m := env.pb.chatMsgFields_eq hm
    exact ⟨hsender, htarget, by rw [hcontent]⟩

/-- A chat message to user 1 whose payload names this sender. -/
def chatFrom (senderid : Int) : MessageContainer :=
  { cmd := msg_type_chat, seq := 2, targetId := 1
    payload := Protobuf.wire.chatMsg.serialize { senderid := senderid, targetid := 1, content := str "x" } }

/-- Session 0 after `b`, who has id 2, has logged in. -/
def loggedInAsB : Except Fault World :=
  Run.run (step (Env.ideal none)) (World.init twoUsers)
    [.connect 1, .recv 0 (loginMessage (str "b") (str "q"))]

theorem forwarded_agrees_chatFrom :
    ∃ w w', loggedInAsB = .ok w ∧ onChatResponse (Env.ideal none) 0 (chatFrom 2) w = .ok w' ∧
      (ForwardedAgrees (Env.ideal none) 0 (chatFrom 2) w w' ↔
        ¬ HasRecipient w 0 1 ∨ ∀ m, (Env.ideal none).pb.chatMsg.parse (chatFrom 2).payload = some m →
          m.senderid = w.userID 0 ∧ m.targetid = 1) := by
  obtain ⟨w, hw, hok⟩ := @Run.exists_of_eval _ _ loggedInAsB (fun w =>
    Protobuf.ContainerFits (forwardMsg 0 (chatFrom 2) w) ∧
      (onChatResponse (Env.ideal none) 0 (chatFrom 2) w).toOption.isSome) _ (by decide +kernel)
  cases hrun : onChatResponse (Env.ideal none) 0 (chatFrom 2) w with
  | error f =>
      rw [hrun] at hok
      cases hok.2
  | ok w' =>
      exact ⟨w, w', hw, hrun, forwarded_agrees_iff Protobuf.wire_lawful hok.1 (by decide) hrun⟩

/-- `b` sends a message in the name of user 7. -/
theorem sender_of_client :
    ¬ ∀ w w', loggedInAsB = .ok w → onChatResponse (Env.ideal none) 0 (chatFrom 7) w = .ok w' →
      ForwardedAgrees (Env.ideal none) 0 (chatFrom 7) w w' := by
  intro h
  obtain ⟨w, hw, hid, hfits, hok⟩ := @Run.exists_of_eval _ _ loggedInAsB (fun w =>
    w.userID 0 = 2 ∧ Protobuf.ContainerFits (forwardMsg 0 (chatFrom 7) w) ∧
      (onChatResponse (Env.ideal none) 0 (chatFrom 7) w).toOption.isSome) _ (by decide +kernel)
  cases hrun : onChatResponse (Env.ideal none) 0 (chatFrom 7) w with
  | error f =>
      rw [hrun] at hok
      cases hok
  | ok w' =>
      obtain ⟨-, hagrees⟩ := h w w' hw hrun
      have hforwarded := (forwarded_iff Protobuf.wire_lawful hfits (by decide) hrun _).2
        ⟨.inl (by decide), rfl⟩
      have hparse : Protobuf.wire.chatMsg.parse (chatFrom 7).payload =
          some { senderid := 7, targetid := 1, content := str "x" } := by decide +kernel
      have hsender := (hagrees _ hforwarded _ hparse).1
      rw [hid] at hsender
      exact absurd hsender (by decide)

end AimChat
