import AimChat.Server.Mail
import AimChat.Server.Authentication

/-! # Requests and their answers

A client matches an answer to its request by command and sequence number. A session that has a user
answers each request once, whatever the payload and whatever the database and the other services do:
`request_answered`. What else is sent meanwhile are status changes and chat messages, the offline messages
of a login among them; that those are chat messages is an invariant of the cache, `CachedChats`. -/

namespace AimChat

open ClientSession

/-- What the cache holds are chat messages. -/
def CachedChats (env : Env) (w : World) : Prop :=
  ∀ cached ∈ w.chatMsgCache, ∀ c, env.pb.container.parse cached.chatmsg = some c →
    c.cmd = msg_type_chat

/-- The handler of a message hands the codecs one answer on its own connection, with the command and the
sequence number of the message; everything else is a status change or a chat message. -/
def AnsweredOnce (n : Nat) (msg : MessageContainer) (w w' : World) : Prop :=
  ∃ before answer after, w'.sent = w.sent ++ (before ++ answer :: after) ∧ answer.conn = n ∧
    answer.msg.cmd = msg.cmd ∧ answer.msg.seq = msg.seq ∧
      ∀ x ∈ before ++ after, x.msg.cmd = msg_type_userstatuschange ∨ x.msg.cmd = msg_type_chat

variable {env : Env}

/-- Every event keeps the cache to chat messages. -/
theorem cachedChats_step {w w' : World} {e : Event} (hpb : env.pb.Lawful) (he : EventFits e)
    (hw : CachedChats env w) (hstep : step env w e = .ok w') : CachedChats env w' := by
  intro cached hcached c hparse
  cases step_mail hstep with
  | login n p h hcache hchats =>
      rw [hcache] at hcached
      exact hw cached (List.mem_of_mem_filter hcached) c hparse
  | handled h hcache hchats =>
      rw [hcache] at hcached
      rcases List.mem_append.1 hcached with hcached | hcached
      · exact hw cached hcached c hparse
      · obtain ⟨d, hd, rfl⟩ := List.mem_map.1 hcached
        obtain ⟨hcmd, -, hfits⟩ := mem_delivered hpb he (List.mem_of_mem_filter hd)
        rw [hpb.container hfits] at hparse
        cases hparse
        exact hcmd

theorem cachedChats_run {st : Store} {es : List Event} {w : World} (hpb : env.pb.Lawful)
    (hfits : ∀ e ∈ es, EventFits e) (hrun : Run.run (step env) (World.init st) es = .ok w) :
    CachedChats env w :=
  Run.run_invariant (P := fun _ e => EventFits e) (I := CachedChats env)
    (fun _ _ _ hs he hstep => cachedChats_step hpb he hs hstep)
    (fun _ h => absurd h List.not_mem_nil) (Run.always_of_forall_mem hfits) hrun

/-- The answer to a request that pushes status changes comes after them. -/
theorem Answers.answeredOnce {n : Nat} {msg : MessageContainer} {w w' : World}
    (hseq : (w.session n).seq = msg.seq) (h : Answers n msg.cmd w w') : AnsweredOnce n msg w w' := by
  obtain ⟨v, payload, hkept, rfl⟩ := h
  obtain ⟨new, heq, hnew⟩ := hkept.sent
  refine ⟨new, ⟨n, v.im.state n, v.userID n, .answer,
    { cmd := msg.cmd, seq := (v.session n).seq, payload := payload }⟩, [], ?_, rfl, rfl, ?_,
    fun x hx => ?_⟩
  · rw [← List.append_assoc, ← heq]
    rfl
  · show (v.session n).seq = msg.seq
    rw [hkept.session, hseq]
  · rw [List.append_nil] at hx
    exact .inl (hnew x hx).2

/-- A login is answered once, whether it is refused or not. -/
theorem answeredOnce_login {n : Nat} {msg : MessageContainer} {w w' : World} (hw : CachedChats env w)
    (hseq : (w.session n).seq = msg.seq) (hlogin : msg.cmd = msg_type_login)
    (hrun : onLoginResponse env n msg w = .ok w') : AnsweredOnce n msg w w' := by
  have hfailed : ∀ code v, loginFailed env n code v = .ok w' → v.sent = w.sent →
      (v.session n).seq = (w.session n).seq → AnsweredOnce n msg w w' := by
    intro code v h hsent hkept
    rw [loginFailed_eq_ok h]
    refine ⟨[], ⟨n, v.im.state n, v.userID n, .answer,
      { cmd := msg_type_login, seq := (v.session n).seq
        payload := env.pb.loginRsp.serialize { code := code, msg := loginMsg code } }⟩, [], ?_, rfl,
      hlogin.symm, hkept.trans hseq, fun x hx => by cases hx⟩
    rw [← hsent]
    rfl
  unfold onLoginResponse at hrun
  cases hcode : loginCode env msg.payload w.store.users with
  | mk code found =>
      rw [hcode] at hrun
      cases found with
      | none => exact hfailed code _ hrun rfl rfl
      | some p =>
          have hset : ((w.setSession n fun s => { s with user := some p }).session n) =
              { w.session n with user := some p } := by
            rw [World.session_setSession, if_pos rfl]
          change (if code = 0 then _ else _) = _ at hrun
          split_ifs at hrun
          · cases hrun
            obtain ⟨payload, new, heq, hnew⟩ := @sent_loggedIn env n p
              (w.setSession n fun s => { s with user := some p }) (by rw [hset])
            -- behind the answer: the offline messages, and status changes
            refine ⟨[], _, drained env _ n _ ++ new, heq.trans (List.append_assoc ..), rfl, hlogin.symm,
              ?_, fun x hx => ?_⟩
            · rw [hset]
              exact hseq
            · rw [List.nil_append] at hx
              rcases List.mem_append.1 hx with hx | hx
              · right
                obtain ⟨cached, hcached, hx⟩ := List.mem_filterMap.1 hx
                obtain ⟨c, hparse, rfl⟩ := Option.map_eq_some_iff.1 hx
                exact hw cached (List.mem_of_mem_filter hcached) c hparse
              · exact .inl (hnew x hx).2
          · exact hfailed code _ hrun rfl (by rw [hset])

/-- **One request, one answer.** In every state a run leads to, a session that has a user answers each
request, other than a search by id, exactly once. -/
theorem request_answered (hpb : env.pb.Lawful) (st : Store) {es : List Event} {w : World}
    (hfits : ∀ e ∈ es, EventFits e) (hrun : Run.run (step env) (World.init st) es = .ok w) {n : Nat}
    {msg : MessageContainer} (huser : (w.session n).user ≠ none) (hrequest : IsRequest msg.cmd)
    (hsearch : msg.cmd = msg_type_finduser → ∀ req, env.pb.findUserReq.parse msg.payload = some req →
      req.type ≠ str "userid") :
    ∃ w', onMessageReceived env n msg w = .ok w' ∧ AnsweredOnce n msg w w' := by
  have hw := inv_run (inv_init st) hrun
  have hcached := cachedChats_run hpb hfits hrun
  have hserved := served_onMessageReceived env n msg w hw.made
  cases hhandled : onMessageReceived env n msg w with
  | error f =>
      exfalso
      rw [hhandled] at hserved
      cases hserved with
      -- the session has a user, and std::stoi is called in a search by id only
      | nullUser hnone _ => exact huser hnone
      | uncaught hthrows _ =>
          obtain ⟨hfind, req, hparse, hid, -⟩ := hthrows
          exact hsearch hfind req hparse hid
  | ok w' =>
      refine ⟨w', rfl, ?_⟩
      have hseq : ((w.setSession n fun s => { s with seq := msg.seq }).session n).seq = msg.seq := by
        rw [World.session_setSession, if_pos rfl]
      have hsent : (w.setSession n fun s => { s with seq := msg.seq }).sent = w.sent := rfl
      suffices h : AnsweredOnce n msg (w.setSession n fun s => { s with seq := msg.seq }) w' from h
      unfold onMessageReceived at hhandled
      by_cases hlogin : msg.cmd = msg_type_login
      · rw [dispatch_login env n msg _ hlogin] at hhandled
        exact answeredOnce_login hcached hseq hlogin hhandled
      · have hchat : msg.cmd ≠ msg_type_chat ∧ msg.cmd ≠ msg_type_multichat := by
          obtain ⟨-, hle, -⟩ := hrequest
          simp only [msg_type_sendemailcode, msg_type_chat, msg_type_multichat] at hle ⊢
          omega
        have hdispatch := served_request env n msg (w.setSession n fun s => { s with seq := msg.seq })
          hlogin hchat.1 hchat.2
        rw [hhandled] at hdispatch
        rcases hdispatch.of_ok with hanswers | ⟨hnot, -⟩
        · exact hanswers.answeredOnce hseq
        · exact absurd hrequest hnot

/-- `a` logs in and writes to `b`, who is not there. -/
def writesToB : List Event :=
  [.connect 1, .recv 0 (loginMessage (str "a") (str "p")),
    .recv 0 { cmd := msg_type_chat, seq := 2, targetId := 2, payload := str "hi" }]

/-- The session of `a` logs in as `b` then: the message waits for it in the cache. -/
theorem request_answered_cachedMail :
    ∃ w w', Run.run (step (Env.ideal none)) (World.init twoUsers) writesToB = .ok w ∧
      w.chatMsgCache.map ChatMsgCache.userid = [2] ∧
      onMessageReceived (Env.ideal none) 0 (loginMessage (str "b") (str "q")) w = .ok w' ∧
      AnsweredOnce 0 (loginMessage (str "b") (str "q")) w w' := by
  obtain ⟨w, hrun, huser, hcached⟩ := @Run.exists_of_eval _ _
    (Run.run (step (Env.ideal none)) (World.init twoUsers) writesToB)
    (fun w => (w.session 0).user ≠ none ∧ w.chatMsgCache.map ChatMsgCache.userid = [2]) _ (by decide +kernel)
  obtain ⟨w', hhandled, hanswered⟩ := @request_answered (Env.ideal none) Protobuf.wire_lawful _ _ _
    (by decide +kernel) hrun 0 (loginMessage (str "b") (str "q")) huser (by decide +kernel)
    (fun h => absurd h (by decide +kernel))
  exact ⟨w, w', hrun, hcached, hhandled, hanswered⟩

end AimChat
