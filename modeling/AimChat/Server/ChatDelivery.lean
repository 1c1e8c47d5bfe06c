import AimChat.Server.Mail
import AimChat.Server.Authentication

/-! # Whether chat messages arrive, and in which order

A message goes to the session `GetSessionByID` finds, or into the offline cache. A session stays in
`m_mapclient` after a malformed frame has shut its connection down, and what is written there is dropped:
`accepted_le_held` says that nothing else is lost. A refused login opens the live path to a session while
the cache still holds messages for it: `written_in_order` says that nothing else changes the order. -/

namespace AimChat

open ClientSession

variable (env : Env)

/-- The chat messages a run accepts, each with a recipient, in the order `OnChatResponse` handles them. -/
def accepted (st : Store) (es : List Event) : List (Int × MessageContainer) :=
  Run.log (step env) (delivered env) (World.init st) es

/-! ## No message is lost -/

/-- How often a message is in a user's entries of the cache, or was taken by a connection of a session that
acted as the user. -/
def held (w : World) (userid : Int) (c : MessageContainer) : Nat :=
  w.chatMsgCache.countP (fun cached =>
      cached.userid = userid ∧ env.pb.container.parse cached.chatmsg = some c) +
    w.chats.countP fun x => x.state = .kConnected ∧ x.userid = userid ∧ x.msg = c

/-- The session a chat message to a user is handed to is on an established connection. -/
def RecipientConnected (w : World) (e : Event) : Prop :=
  ∀ d ∈ delivered env w e, d.2.targetId < GROUPID_BOUNDARY → ∀ s ∈ w.getSessionByID d.1,
    w.im.state s = .kConnected

instance (w : World) (e : Event) : Decidable (RecipientConnected env w e) :=
  inferInstanceAs (Decidable (∀ d ∈ delivered env w e, d.2.targetId < GROUPID_BOUNDARY →
    ∀ s ∈ w.getSessionByID d.1, w.im.state s = .kConnected))

variable {env}

/-- A login moves messages from the cache to its connection. -/
theorem held_login {w w' : World} {n : Nat} {p : UserPtr} (hn : w.im.Connected n)
    (hcache : w'.chatMsgCache = w.chatMsgCache.filter (·.userid ≠ (w.record p).userid))
    (hchats : w'.chats = w.chats ++ drained env w n (w.record p).userid) (userid : Int)
    (c : MessageContainer) : held env w userid c ≤ held env w' userid c := by
  unfold held
  rw [hcache, hchats, List.countP_append, List.countP_filter]
  by_cases hid : userid = (w.record p).userid
  · have hdrained : (drained env w n (w.record p).userid).countP
        (fun x => x.state = .kConnected ∧ x.userid = userid ∧ x.msg = c) =
        w.chatMsgCache.countP (fun cached =>
          cached.userid = userid ∧ env.pb.container.parse cached.chatmsg = some c) := by
      unfold drained
      rw [List.countP_filterMap, List.countP_filter]
      refine List.countP_congr fun cached _ => ?_
      cases hparse : env.pb.container.parse cached.chatmsg with
      | none => simp
      | some c' => simp [hn.2, hid, and_comm]
    omega
  · have hsame : w.chatMsgCache.countP (fun cached =>
        cached.userid = userid ∧ env.pb.container.parse cached.chatmsg = some c) =
        w.chatMsgCache.countP (fun cached =>
          decide (cached.userid = userid ∧ env.pb.container.parse cached.chatmsg = some c) &&
            decide (cached.userid ≠ (w.record p).userid)) := by
      refine List.countP_congr fun cached _ => ?_
      simp only [Bool.and_eq_true, decide_eq_true_eq]
      exact ⟨fun h => ⟨h, fun heq => hid (h.1.symm.trans heq)⟩, fun h => h.1⟩
    omega

/-- A message that is handed on goes into the cache or to a connection. -/
theorem held_handled {w w' : World} {e : Event} (hpb : env.pb.Lawful) (he : EventFits e)
    (hconn : RecipientConnected env w e)
    (hcache : w'.chatMsgCache = w.chatMsgCache ++ cachedBy env w (delivered env w e))
    (hchats : w'.chats = w.chats ++ sentBy w (delivered env w e)) {userid : Int} {c : MessageContainer}
    (hc : c.targetId < GROUPID_BOUNDARY) :
    held env w userid c + (delivered env w e).count (userid, c) ≤ held env w' userid c := by
  unfold held
  rw [hcache, hchats, List.countP_append, List.countP_append, List.count_eq_countP]
  cases hfound : w.getSessionByID userid with
  | none =>
      have hcached : (delivered env w e).countP (· == (userid, c)) ≤
          (cachedBy env w (delivered env w e)).countP (fun cached =>
            cached.userid = userid ∧ env.pb.container.parse cached.chatmsg = some c) := by
        unfold cachedBy
        rw [List.countP_map, List.countP_filter]
        refine List.countP_mono_left fun d hd h => ?_
        rw [beq_iff_eq] at h
        subst h
        have hparse := hpb.container (mem_delivered hpb he hd).2.2
        simp [hfound, hparse]
      omega
  | some s =>
      have hsent : (delivered env w e).countP (· == (userid, c)) ≤
          (sentBy w (delivered env w e)).countP
            (fun x => x.state = .kConnected ∧ x.userid = userid ∧ x.msg = c) := by
        unfold sentBy
        rw [List.countP_filterMap]
        refine List.countP_mono_left fun d hd h => ?_
        rw [beq_iff_eq] at h
        subst h
        have hstate := hconn _ hd hc s hfound
        simp [hfound, hstate]
      omega

/-- **No accepted chat message is lost.** In a run that hands each chat message to a user to an established
connection, or finds no session for it, every such message it has accepted is in the cache or was taken by
a connection of its recipient: as often as it was accepted. -/
theorem accepted_le_held (hpb : env.pb.Lawful) (st : Store) {es : List Event} {w : World}
    (hfits : ∀ e ∈ es, EventFits e)
    (hconn : Run.Always (step env) (RecipientConnected env) (World.init st) es)
    (hrun : Run.run (step env) (World.init st) es = .ok w) (c : MessageContainer)
    (hc : c.targetId < GROUPID_BOUNDARY) (userid : Int) :
    (accepted env st es).count (userid, c) ≤ held env w userid c := by
  refine Run.run_history (J := fun es w => (accepted env st es).count (userid, c) ≤ held env w userid c)
    (Nat.zero_le _) (fun es v e v' hes hle hP hstep => ?_)
    (Run.always_and.2 ⟨hconn, Run.always_of_forall_mem hfits⟩) hrun
  unfold accepted
  rw [Run.log_snoc _ hes, List.count_append]
  unfold accepted at hle
  cases step_mail hstep with
  | login n p h hcache hchats =>
      have hn : v.im.Connected n := by
        obtain ⟨msg, -, hn, -⟩ := h
        exact hn
      rw [delivered_login h, List.count_nil, Nat.add_zero]
      exact hle.trans (held_login hn hcache hchats userid c)
  | handled h hcache hchats =>
      have hhandled : held env v userid c + _ ≤ held env v' userid c :=
        held_handled hpb hP.2 hP.1 hcache hchats hc
      omega

/-- A user chats with somebody who is not there. -/
def offlineChat : List Event :=
  [.connect 1, .recv 0 (loginMessage (str "a") (str "p")),
    .recv 0 { cmd := msg_type_chat, seq := 2, targetId := 7 }]

theorem accepted_le_held_offlineChat :
    ∃ w, Run.run (step (Env.ideal none)) (World.init UserManager.oneUser) offlineChat = .ok w ∧
      (accepted (Env.ideal none) UserManager.oneUser offlineChat).count (7, chatTo.container 2 7 []) ≤
        held (Env.ideal none) w 7 (chatTo.container 2 7 []) := by
  obtain ⟨w, hrun, -⟩ := @Run.exists_of_eval _ _
    (Run.run (step (Env.ideal none)) (World.init UserManager.oneUser) offlineChat) (fun _ => True) _
    (by decide +kernel)
  exact ⟨w, hrun, accepted_le_held Protobuf.wire_lawful _ (by decide +kernel) (by decide +kernel) hrun _
    (by decide) 7⟩

/-- A user whose connection was shut down after a malformed frame, and who has logged in again, gets a
message. -/
def shutDownChat : List Event :=
  [.connect 1, .recv 0 (loginMessage (str "a") (str "p")), .malformed 0, .connect 2,
    .recv 1 (loginMessage (str "a") (str "p")), .recv 1 { cmd := msg_type_chat, seq := 2, targetId := 1 }]

/-- The first session is found, and its connection drops the message. -/
theorem lost_after_malformed :
    ¬ ∀ w, Run.run (step (Env.ideal none)) (World.init UserManager.oneUser) shutDownChat = .ok w →
      ∀ c, c.targetId < GROUPID_BOUNDARY → ∀ userid,
        (accepted (Env.ideal none) UserManager.oneUser shutDownChat).count (userid, c) ≤
          held (Env.ideal none) w userid c := by
  intro h
  obtain ⟨w, hrun, hlost⟩ := @Run.exists_of_eval _ _
    (Run.run (step (Env.ideal none)) (World.init UserManager.oneUser) shutDownChat)
    (fun w => held (Env.ideal none) w 1 (chatTo.container 2 1 []) <
      (accepted (Env.ideal none) UserManager.oneUser shutDownChat).count (1, chatTo.container 2 1 []))
    _ (by decide +kernel)
  exact absurd (h w hrun _ (by decide) 1) (not_le.2 hlost)

/-! ## The order of messages -/

/-- Which of these messages are chat messages to a user itself on a session's connection. -/
def writtenTo (n : Nat) (userid : Int) (l : List Sent) : List MessageContainer :=
  (l.filter fun x => x.conn = n ∧ x.state = .kConnected ∧ x.userid = userid ∧
    x.msg.targetId = userid).map (·.msg)

/-- Which of these deliveries are chat messages to a user itself. -/
def toUser (userid : Int) (l : List (Int × MessageContainer)) : List MessageContainer :=
  (l.filter fun d => d.1 = userid ∧ d.2.targetId = userid).map (·.2)

/-- The chat messages to a user itself that are written to a session's connection while it acts as the
user. -/
def written (w : World) (n : Nat) (userid : Int) : List MessageContainer := writtenTo n userid w.chats

/-- The chat messages to a user itself, as they are accepted. -/
def acceptedFor (env : Env) (st : Store) (es : List Event) (userid : Int) : List MessageContainer :=
  toUser userid (accepted env st es)

/-- Which of these entries of the cache are chat messages to a user itself. -/
def waiting (env : Env) (userid : Int) (l : List ChatMsgCache) : List MessageContainer :=
  (l.filter (·.userid = userid)).filterMap fun cached =>
    (env.pb.container.parse cached.chatmsg).filter (·.targetId = userid)

/-- A login refused for its password names no user who has messages in the cache. -/
def RefusedHasNoMail (env : Env) (w : World) : Event → Prop
  | .recv n msg => w.im.Connected n → msg.cmd = msg_type_login →
      (loginCode env msg.payload w.store.users).1 ≠ 0 →
        ∀ p ∈ (loginCode env msg.payload w.store.users).2, ∀ cached ∈ w.chatMsgCache,
          cached.userid ≠ (w.record p).userid
  | _ => True

instance (w : World) (e : Event) : Decidable (RefusedHasNoMail env w e) :=
  match e with
  | .recv n msg => inferInstanceAs (Decidable (w.im.Connected n → msg.cmd = msg_type_login →
      (loginCode env msg.payload w.store.users).1 ≠ 0 →
        ∀ p ∈ (loginCode env msg.payload w.store.users).2, ∀ cached ∈ w.chatMsgCache,
          cached.userid ≠ (w.record p).userid))
  | .connect _ => .isTrue trivial
  | .malformed _ => .isTrue trivial
  | .close _ => .isTrue trivial
  | .agentDone _ _ => .isTrue trivial

/-- A user somebody acts as has no messages in the cache. -/
def Drained (w : World) : Prop :=
  ∀ m p, w.im.Live m → (w.session m).user = some p → ∀ cached ∈ w.chatMsgCache,
    cached.userid ≠ (w.record p).userid

/-- The session that is found for a user acts as it, and a live session that acts as one is a reason to
find a session. -/
theorem getSessionByID_ne_none {w : World} {m : Nat} (hm : w.im.Live m) :
    w.getSessionByID (w.userID m) ≠ none := by
  intro h
  have := List.find?_eq_none.1 h m (IMSer.mem_values_iff.2 hm)
  simp at this

/-- What is cached of a chat is for somebody nobody acts as. -/
theorem ne_of_mem_cachedBy {w : World} {l : List (Int × MessageContainer)} {m : Nat} {p : UserPtr}
    (hlive : w.im.Live m) (hp : (w.session m).user = some p) {cached : ChatMsgCache} (h : cached ∈ cachedBy env w l) :
    cached.userid ≠ (w.record p).userid := by
  unfold cachedBy at h
  obtain ⟨d, hd, rfl⟩ := List.mem_map.1 h
  have hnone : w.getSessionByID d.1 = none := by simpa using (List.mem_filter.1 hd).2
  intro heq
  have hid : w.userID m = (w.record p).userid := by
    unfold World.userID
    rw [hp]
  apply getSessionByID_ne_none hlive
  rw [hid, ← heq]
  exact hnone

/-- Every event keeps the users somebody acts as without messages in the cache. -/
theorem drained_step {w w' : World} {e : Event} (hw : Inv w) (hdrained : Drained w)
    (hrefused : RefusedHasNoMail env w e) (hstep : step env w e = .ok w') : Drained w' := by
  -- a session that has a user had one before or is the one that logs in
  have heffect := step_effect hw.made hstep
  intro m p hlive hp cached hcached
  rw [(heffect.session m).1] at hp
  rw [heffect.im] at hlive
  have hrecord : (w'.record p).userid = (w.record p).userid :=
    heffect.users.2 p (made_sessionAfter hw.made e hp)
  rw [hrecord]
  have hold : w.im.Live m := by
    rcases @live_imAfter env _ _ _ hlive with h | h
    · exact h
    · rw [h] at hp
      cases hp
  cases step_mail hstep with
  | login n q h hcache hchats =>
      rw [hcache, List.mem_filter, decide_eq_true_eq] at hcached
      obtain ⟨hmem, hother⟩ := hcached
      rcases user_cases hp with hp | ⟨msg, rfl, -, -, hfound⟩
      -- the user of another session: the cache has only shrunk
      · exact hdrained m p hold hp cached hmem
      · obtain ⟨msg', heq, -, -, hcode⟩ := h
        cases heq
        rw [hcode] at hfound
        cases hfound
        exact hother
  | handled h hcache hchats =>
      rw [hcache, List.mem_append] at hcached
      rcases user_cases hp with hp | ⟨msg, rfl, hm, hlogin, hfound⟩
      · rcases hcached with hcached | hcached
        · exact hdrained m p hold hp cached hcached
        · exact ne_of_mem_cachedBy hold hp hcached
      · have hcode : (loginCode env msg.payload w.store.users).1 ≠ 0 := by
          intro hzero
          exact h m p ⟨msg, rfl, hm, hlogin, Prod.ext hzero hfound⟩
        have hnone : delivered env w (.recv m msg) = [] := by
          unfold delivered deliveries
          simp [hlogin]
        rw [hnone] at hcached
        -- a refused login that has found a record binds the session all the same
        rcases hcached with hcached | hcached
        · exact hrefused hm hlogin hcode p hfound cached hcached
        · cases hcached

theorem writtenTo_append (n : Nat) (userid : Int) (l l' : List Sent) :
    writtenTo n userid (l ++ l') = writtenTo n userid l ++ writtenTo n userid l' := by
  unfold writtenTo
  rw [List.filter_append, List.map_append]

/-- A login as the user on this session writes what is waiting. -/
theorem writtenTo_drained_self {w : World} {n : Nat} {userid : Int} (hn : w.im.Connected n) :
    writtenTo n userid (drained env w n userid) = waiting env userid w.chatMsgCache := by
  unfold writtenTo drained waiting
  induction w.chatMsgCache.filter (·.userid = userid) with
  | nil => rfl
  | cons cached l ih =>
      cases hparse : env.pb.container.parse cached.chatmsg with
      | none =>
          rw [List.filterMap_cons_none (by rw [hparse]; rfl),
            List.filterMap_cons_none (by rw [hparse]; rfl)]
          exact ih
      | some c =>
          rw [List.filterMap_cons_some (by rw [hparse]; rfl)]
          by_cases hc : c.targetId = userid
          · rw [List.filter_cons_of_pos (by simp [hn.2, hc]), List.map_cons, ih,
              List.filterMap_cons_some (show _ = some c by rw [hparse]; simp [hc])]
          · rw [List.filter_cons_of_neg (by simp [hc]), ih,
              List.filterMap_cons_none (by rw [hparse]; simp [hc])]

/-- Messages of other sessions and of other users are not written there. -/
theorem writtenTo_eq_nil {n : Nat} {userid : Int} {l : List Sent}
    (h : ∀ x ∈ l, x.conn = n → x.userid = userid → x.msg.targetId ≠ userid) : writtenTo n userid l = [] := by
  unfold writtenTo
  rw [List.map_eq_nil_iff, List.filter_eq_nil_iff]
  intro x hx hall
  simp only [decide_eq_true_eq] at hall
  obtain ⟨hconn, -, hid, htarget⟩ := hall
  exact h x hx hconn hid htarget

/-- Any other login writes nothing there. -/
theorem writtenTo_drained_other {w : World} {m n : Nat} {userid userid' : Int}
    (h : ¬ (m = n ∧ userid' = userid)) : writtenTo n userid (drained env w m userid') = [] := by
  refine writtenTo_eq_nil fun x hx hconn hid => ?_
  obtain ⟨c, rfl⟩ := mem_drained hx
  exact absurd ⟨hconn, hid⟩ h

/-- Nothing is written for a user nobody acts as. -/
theorem writtenTo_sentBy_nobody {w : World} {userid : Int} (hnone : w.getSessionByID userid = none) (n : Nat)
    (l : List (Int × MessageContainer)) : writtenTo n userid (sentBy w l) = [] := by
  refine writtenTo_eq_nil fun x hx _ hid => ?_
  obtain ⟨d, -, s, hs, rfl⟩ := mem_sentBy.1 hx
  have hfound : w.getSessionByID userid = some s := by
    rw [← hid]
    exact hs
  rw [hnone] at hfound
  cases hfound

/-- What is written to a session of these deliveries is some of them, in their order. -/
theorem writtenTo_sentBy_sublist (w : World) (n : Nat) (userid : Int) (l : List (Int × MessageContainer)) :
    (writtenTo n userid (sentBy w l)).Sublist (toUser userid l) := by
  induction l with
  | nil => exact List.Sublist.refl _
  | cons d l ih =>
      have hhead : (writtenTo n userid (sentBy w [d])).Sublist (toUser userid [d]) := by
        by_cases hd : d.1 = userid ∧ d.2.targetId = userid
        · cases hfound : w.getSessionByID d.1 with
          | none => simp [writtenTo, sentBy, hfound]
          | some s =>
              have heq : toUser userid [d] = [d.2] := by simp [toUser, hd]
              have hsent : (sentBy w [d]) = [⟨s, w.im.state s, d.1, .chat, d.2⟩] := by
                simp [sentBy, hfound]
              rw [heq, hsent]
              exact List.filter_sublist.map Sent.msg
        · have hnone : writtenTo n userid (sentBy w [d]) = [] := by
            refine writtenTo_eq_nil fun x hx _ hid htarget => hd ?_
            obtain ⟨d', hd', s, -, rfl⟩ := mem_sentBy.1 hx
            rw [List.mem_singleton.1 hd'] at hid htarget
            exact ⟨hid, htarget⟩
          rw [hnone]
          exact List.nil_sublist _
      have hcons : sentBy w (d :: l) = sentBy w [d] ++ sentBy w l := sentBy_append w [d] l
      have hsplit : toUser userid (d :: l) = toUser userid [d] ++ toUser userid l := by
        unfold toUser
        rw [← List.map_append, ← List.filter_append]
        rfl
      rw [hcons, writtenTo_append, hsplit]
      exact hhead.append ih

theorem toUser_append (userid : Int) (l l' : List (Int × MessageContainer)) :
    toUser userid (l ++ l') = toUser userid l ++ toUser userid l' := by
  unfold toUser
  rw [List.filter_append, List.map_append]

theorem waiting_append (userid : Int) (l l' : List ChatMsgCache) :
    waiting env userid (l ++ l') = waiting env userid l ++ waiting env userid l' := by
  unfold waiting
  rw [List.filter_append, List.filterMap_append]

/-- Of these deliveries those to a user nobody acts as wait. -/
theorem waiting_cachedBy {w : World} {userid : Int} {l : List (Int × MessageContainer)}
    (hparse : ∀ d ∈ l, env.pb.container.parse (env.pb.container.serialize d.2) = some d.2) :
    waiting env userid (cachedBy env w l) =
      if w.getSessionByID userid = none then toUser userid l else [] := by
  induction l with
  | nil => simp [waiting, cachedBy, toUser]
  | cons d l ih =>
      have hcached : cachedBy env w (d :: l) = cachedBy env w [d] ++ cachedBy env w l :=
        cachedBy_append w [d] l
      have huser : toUser userid (d :: l) = toUser userid [d] ++ toUser userid l :=
        toUser_append userid [d] l
      have hd := hparse d List.mem_cons_self
      rw [hcached, waiting_append, ih fun d' hd' => hparse d' (List.mem_cons_of_mem d hd'), huser]
      by_cases hid : d.1 = userid
      · subst hid
        cases hfound : w.getSessionByID d.1 with
        | none =>
            have hhead : waiting env d.1 (cachedBy env w [d]) = toUser d.1 [d] := by
              by_cases htarget : d.2.targetId = d.1 <;>
                simp [waiting, cachedBy, toUser, Option.filter_some, hfound, hd, htarget]
            rw [if_pos rfl, if_pos rfl, hhead]
        | some s => simp [waiting, cachedBy, hfound]
      · have hnone : waiting env userid (cachedBy env w [d]) = [] := by
          by_cases hfound : w.getSessionByID d.1 = none <;> simp [waiting, cachedBy, hfound, hid]
        have hnone' : toUser userid [d] = [] := by simp [toUser, hid]
        rw [hnone, hnone', List.nil_append, List.nil_append]

/-- Nothing waits for a user somebody acts as. -/
theorem waiting_eq_nil {w : World} {userid : Int} {s : Nat} (hdrained : Drained w)
    (hfound : w.getSessionByID userid = some s) (hagent : userid ≠ AGENT_USERID) :
    waiting env userid w.chatMsgCache = [] := by
  have hid : w.userID s = userid := by simpa using List.find?_some hfound
  have hlive : w.im.Live s := IMSer.mem_values_iff.1 (List.mem_of_find?_eq_some hfound)
  unfold World.userID at hid
  cases huser : (w.session s).user with
  | none =>
      -- the UserID() of a session without a user is the assistant's
      rw [huser] at hid
      exact absurd hid.symm hagent
  | some p =>
      rw [huser] at hid
      have hfilter : w.chatMsgCache.filter (·.userid = userid) = [] := by
        rw [List.filter_eq_nil_iff]
        intro cached hcached heq
        simp only [decide_eq_true_eq] at heq
        exact hdrained s p hlive huser cached hcached (heq.trans hid.symm)
      unfold waiting
      rw [hfilter]
      rfl

/-- The messages of an event are written or wait behind those before them. -/
theorem sublist_handled {w w' : World} {e : Event} {n : Nat} {userid : Int} {l : List MessageContainer}
    (hdrained : Drained w) (hpb : env.pb.Lawful) (he : EventFits e)
    (hsub : (written w n userid ++ waiting env userid w.chatMsgCache).Sublist l)
    (hcache : w'.chatMsgCache = w.chatMsgCache ++ cachedBy env w (delivered env w e))
    (hchats : w'.chats = w.chats ++ sentBy w (delivered env w e)) :
    (written w' n userid ++ waiting env userid w'.chatMsgCache).Sublist
      (l ++ toUser userid (delivered env w e)) := by
  have hparse : ∀ d ∈ delivered env w e,
      env.pb.container.parse (env.pb.container.serialize d.2) = some d.2 :=
    fun d hd => hpb.container (mem_delivered hpb he hd).2.2
  unfold written at hsub ⊢
  rw [hcache, waiting_append, waiting_cachedBy hparse, hchats, writtenTo_append]
  -- what is delivered live goes behind what was written; with no session it waits
  have hwritten := writtenTo_sentBy_sublist w n userid (delivered env w e)
  cases hfound : w.getSessionByID userid with
  | none =>
      rw [if_pos rfl, writtenTo_sentBy_nobody hfound, List.append_nil, ← List.append_assoc]
      exact hsub.append (List.Sublist.refl _)
  | some s =>
      rw [if_neg (by simp), List.append_nil]
      cases hto : toUser userid (delivered env w e) with
      | nil =>
          rw [hto] at hwritten
          rw [List.sublist_nil.1 hwritten, List.append_nil, List.append_nil]
          exact hsub
      | cons c _ =>
          -- there is a message to the user, so the user is not the assistant
          have hmem : c ∈ toUser userid (delivered env w e) := by rw [hto]; exact List.mem_cons_self
          obtain ⟨d, hd, rfl⟩ := List.mem_map.1 hmem
          obtain ⟨hd, hall⟩ := List.mem_filter.1 hd
          simp only [decide_eq_true_eq] at hall
          have hagent := (mem_delivered hpb he hd).2.1
          rw [hall.2] at hagent
          rw [waiting_eq_nil hdrained hfound hagent, List.append_nil] at hsub ⊢
          rw [← hto]
          exact hsub.append hwritten

/-- A login writes what was waiting for its user, behind what was written before. -/
theorem sublist_login {w w' : World} {m n : Nat} {userid userid' : Int} {l : List MessageContainer}
    (hm : w.im.Connected m) (hsub : (written w n userid ++ waiting env userid w.chatMsgCache).Sublist l)
    (hcache : w'.chatMsgCache = w.chatMsgCache.filter (·.userid ≠ userid'))
    (hchats : w'.chats = w.chats ++ drained env w m userid') :
    (written w' n userid ++ waiting env userid w'.chatMsgCache).Sublist l := by
  unfold written at hsub ⊢
  rw [hchats, writtenTo_append]
  by_cases hid : userid' = userid
  · subst hid
    have hnone : waiting env userid' w'.chatMsgCache = [] := by
      unfold waiting
      rw [hcache, List.filter_filter]
      simp
    rw [hnone, List.append_nil]
    -- the session that logs in gets all of it, any other session of the user none
    by_cases hmn : m = n
    · subst hmn
      rw [writtenTo_drained_self hm]
      exact hsub
    · rw [writtenTo_drained_other fun h => hmn h.1, List.append_nil]
      exact (List.sublist_append_left _ _).trans hsub
  · have hsame : waiting env userid w'.chatMsgCache = waiting env userid w.chatMsgCache := by
      unfold waiting
      rw [hcache, List.filter_filter]
      congr 1
      refine List.filter_congr fun cached _ => ?_
      by_cases hc : cached.userid = userid <;> simp [hc, Ne.symm hid]
    rw [hsame, writtenTo_drained_other fun h => hid h.2, List.append_nil]
    exact hsub

/-- **Chats arrive in order.** In a run where no login is refused that names a user with messages in the
cache, the messages to a user itself that are written to a session while it acts as the user are written
in the order in which they were accepted. -/
theorem written_in_order (hpb : env.pb.Lawful) (st : Store) {es : List Event} {w : World}
    (hfits : ∀ e ∈ es, EventFits e)
    (hrefused : Run.Always (step env) (RefusedHasNoMail env) (World.init st) es)
    (hrun : Run.run (step env) (World.init st) es = .ok w) (n : Nat) (userid : Int) :
    (written w n userid).Sublist (acceptedFor env st es userid) := by
  suffices h : Drained w ∧ (written w n userid ++ waiting env userid w.chatMsgCache).Sublist
      (acceptedFor env st es userid) from
    (List.sublist_append_left _ _).trans h.2
  refine Run.run_history (J := fun es w => Drained w ∧
      (written w n userid ++ waiting env userid w.chatMsgCache).Sublist (acceptedFor env st es userid))
    ⟨fun _ _ _ hp => (by cases hp), List.Sublist.refl _⟩ (fun es v e v' hes hJ hP hstep => ?_)
    (Run.always_and.2 ⟨hrefused, Run.always_of_forall_mem hfits⟩) hrun
  obtain ⟨hdrained, hsub⟩ := hJ
  have hv := inv_run (inv_init st) hes
  -- what is written and then what waits: both are accepted in this order, and every step keeps that
  refine ⟨drained_step hv hdrained hP.1 hstep, ?_⟩
  unfold acceptedFor accepted at hsub ⊢
  rw [Run.log_snoc _ hes, toUser_append]
  cases step_mail hstep with
  | handled h hcache hchats => exact sublist_handled hdrained hpb hP.2 hsub hcache hchats
  | login m p h hcache hchats =>
      have hm : v.im.Connected m := by
        obtain ⟨msg, -, hm, -⟩ := h
        exact hm
      have hnone : toUser userid (delivered env v e) = [] := by
        rw [delivered_login h]
        rfl
      rw [hnone, List.append_nil]
      exact sublist_login hm hsub hcache hchats

/-- The server started on the tables of `a` and `b`. -/
def twoUsersStarted : Store := (UserManager.init SqlEnv.ideal ⟨twoUsers.sql, UserManager.new⟩).2

theorem init_twoUsers : UserManager.init SqlEnv.ideal ⟨twoUsers.sql, UserManager.new⟩ = (true, twoUsersStarted) :=
  Prod.ext (by decide +kernel) rfl

/-- `b` writes to `a`, who logs in. -/
def chatThenLogin : List Event :=
  [.connect 1, .recv 0 (loginMessage (str "b") (str "q")),
    .recv 0 { cmd := msg_type_chat, seq := 2, targetId := 1 }, .connect 2,
    .recv 1 (loginMessage (str "a") (str "p")),
    .recv 0 { cmd := msg_type_chat, seq := 3, targetId := 1 }]

theorem written_in_order_chatThenLogin :
    ∃ w, Run.run (step (Env.ideal none)) (World.init twoUsers) chatThenLogin = .ok w ∧
      written w 1 1 = [chatTo.container 2 1 [], chatTo.container 3 1 []] ∧
      (written w 1 1).Sublist (acceptedFor (Env.ideal none) twoUsers chatThenLogin 1) := by
  obtain ⟨w, hrun, hwritten⟩ := @Run.exists_of_eval _ _
    (Run.run (step (Env.ideal none)) (World.init twoUsers) chatThenLogin)
    (fun w => written w 1 1 = [chatTo.container 2 1 [], chatTo.container 3 1 []]) _ (by decide +kernel)
  exact ⟨w, hrun, hwritten, written_in_order Protobuf.wire_lawful _ (by decide +kernel)
    (by decide +kernel) hrun 1 1⟩

/-- `b` writes to `a`, who tries a wrong password, gets another message and then logs in. -/
def chatBeforeLogin : List Event :=
  [.connect 1, .recv 0 (loginMessage (str "b") (str "q")),
    .recv 0 { cmd := msg_type_chat, seq := 2, targetId := 1 }, .connect 2,
    .recv 1 (loginMessage (str "a") (str "x")),
    .recv 0 { cmd := msg_type_chat, seq := 3, targetId := 1 },
    .recv 1 (loginMessage (str "a") (str "p"))]

/-- The second message is written first. -/
theorem live_before_offline :
    ¬ ∀ w, Run.run (step (Env.ideal none)) (World.init twoUsers) chatBeforeLogin = .ok w →
      ∀ n userid, (written w n userid).Sublist
        (acceptedFor (Env.ideal none) twoUsers chatBeforeLogin userid) := by
  intro h
  obtain ⟨w, hrun, horder⟩ := @Run.exists_of_eval _ _
    (Run.run (step (Env.ideal none)) (World.init twoUsers) chatBeforeLogin)
    (fun w => ¬ (written w 1 1).Sublist (acceptedFor (Env.ideal none) twoUsers chatBeforeLogin 1)) _
    (by decide +kernel)
  exact horder (h w hrun 1 1)

end AimChat
