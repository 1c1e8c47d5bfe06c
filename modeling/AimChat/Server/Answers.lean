import AimChat.Server.NetworkRuns
import AimChat.Server.Requests

/-! # Answers on the wire

A run of the server on its connections that no handler ends has answered each request that came in as bytes, with
bytes, once and in order, whoever else writes to the connection meanwhile: `answers_of_run`. -/

namespace AimChat

open ClientSession Net

variable {env : Env} {w w' : World}

/-! ## What an event hands on -/

/-- What a client matches an answer by: the connection, the command and the sequence number. -/
def Sent.tag (x : Sent) : Nat × Int × Int := (x.conn, x.msg.cmd, x.msg.seq)

/-- The answers among what was handed on. -/
def answersOf (l : List Sent) : List (Nat × Int × Int) := (l.filter fun x => IsRequest x.msg.cmd).map Sent.tag

@[simp] theorem answersOf_append (l l' : List Sent) : answersOf (l ++ l') = answersOf l ++ answersOf l' := by
  rw [answersOf, List.filter_append, List.map_append]
  rfl

theorem answersOf_cons {x : Sent} (hx : IsRequest x.msg.cmd) (l : List Sent) :
    answersOf (x :: l) = x.tag :: answersOf l := by
  simp [answersOf, hx]

theorem answersOf_eq_nil {l : List Sent} (h : ∀ x ∈ l, ¬ IsRequest x.msg.cmd) : answersOf l = [] := by
  simpa [answersOf] using h

/-- Of what was handed on these are the answers, and the assistant speaks in none of them. -/
def Replies (due : List (Nat × Int × Int)) (w w' : World) : Prop :=
  ∃ new, w'.sent = w.sent ++ new ∧ (∀ x ∈ new, x.path = .agent → ¬ IsRequest x.msg.cmd) ∧
    answersOf new = due

/-- Nothing that was handed on is an answer. -/
def Quiet (w w' : World) : Prop := ∃ new, w'.sent = w.sent ++ new ∧ ∀ x ∈ new, ¬ IsRequest x.msg.cmd

theorem not_isRequest_chat : ¬ IsRequest msg_type_chat := by decide

theorem not_isRequest_userstatuschange : ¬ IsRequest msg_type_userstatuschange := by decide

theorem Sent.IsNotify.not_isRequest {x : Sent} (h : x.IsNotify) : ¬ IsRequest x.msg.cmd := by
  rw [h.2]
  exact not_isRequest_userstatuschange

namespace Quiet

theorem of_sent_eq (h : w'.sent = w.sent) : Quiet w w' := ⟨[], by rw [h, List.append_nil], by simp⟩

theorem of_kept (h : Kept Sent.IsNotify w w') : Quiet w w' := by
  obtain ⟨new, heq, hnew⟩ := h.sent
  exact ⟨new, heq, fun x hx => (hnew x hx).not_isRequest⟩

theorem trans {v : World} (h : Quiet w v) (h' : Quiet v w') : Quiet w w' := by
  obtain ⟨new, heq, hnew⟩ := h
  obtain ⟨new', heq', hnew'⟩ := h'
  refine ⟨new ++ new', by rw [heq', heq, List.append_assoc], fun x hx => ?_⟩
  exact (List.mem_append.1 hx).elim (hnew x) (hnew' x)

theorem foldl {α : Type} {f : World → α → World} (hf : ∀ v a, Quiet v (f v a)) (l : List α) (w : World) :
    Quiet w (l.foldl f w) := by
  induction l generalizing w with
  | nil => exact of_sent_eq rfl
  | cons a l ih => exact (hf w a).trans (ih _)

theorem send {n : Nat} {path : Path} {c : MessageContainer} (hc : ¬ IsRequest c.cmd) (w : World) :
    Quiet w (w.send n path c) := by
  refine ⟨_, rfl, fun x hx => ?_⟩
  rw [List.mem_singleton.1 hx]
  exact hc

theorem deliver {c : MessageContainer} (hc : ¬ IsRequest c.cmd) (userid : Int) (w : World) :
    Quiet w (ClientSession.deliver env c userid w) := by
  unfold ClientSession.deliver
  cases w.getSessionByID userid with
  | none => exact of_sent_eq rfl
  | some s => exact send hc w

theorem deliverToGroup {c : MessageContainer} (hc : ¬ IsRequest c.cmd) (sender : Int) (friends : List UserPtr)
    (w : World) : Quiet w (ClientSession.deliverToGroup env c sender friends w) := by
  refine foldl (fun v q => ?_) friends w
  split_ifs
  · exact of_sent_eq rfl
  · exact deliver hc _ v

theorem askAgent {c : MessageContainer} (hc : ¬ IsRequest c.cmd) (n : Nat) (userid : Int) (content : Bytes)
    (w : World) : Quiet w (ClientSession.askAgent env n userid c content w) := by
  unfold ClientSession.askAgent
  cases env.grpc with
  | none =>
      have hcalled : Quiet w w.called := of_sent_eq rfl
      have hreply : ∀ payload, Quiet w.called (w.called.send n .agent { c with payload := payload }) :=
        fun payload => send (c := { c with payload := payload }) hc _
      exact hcalled.trans (hreply _)
  | some grpc =>
      dsimp only
      split_ifs
      · exact of_sent_eq rfl
      · exact of_sent_eq rfl

theorem forward {c : MessageContainer} (hc : ¬ IsRequest c.cmd) (userid : Int) (content : Bytes) (w : World) :
    Quiet w (ClientSession.forward env userid c content w) := by
  have hsaved : Quiet w
      (w.withStore (UserManager.saveChatMsgToDb env.sql userid c.targetId content w.store).2) := of_sent_eq rfl
  show Quiet w (if c.targetId < GROUPID_BOUNDARY then _ else _)
  split_ifs
  · exact hsaved.trans (deliver hc _ _)
  · exact hsaved.trans (deliverToGroup hc ..)

/-- A chat message is not answered. -/
theorem onChatResponse {n : Nat} {msg : MessageContainer}
    (hrun : ClientSession.onChatResponse env n msg w = .ok w') : Quiet w w' := by
  obtain ⟨p, -, rfl⟩ := onChatResponse_eq_ok hrun
  have hset : Quiet w (w.setSession n fun s => { s with target := msg.targetId }) := of_sent_eq rfl
  split_ifs
  · exact hset.trans (askAgent not_isRequest_chat ..)
  · exact hset.trans (forward not_isRequest_chat ..)

theorem foldlM_chatTo {n : Nat} {content : Bytes} (targets : List Int)
    (hrun : targets.foldlM (chatTo env n content) w = .ok w') : Quiet w w' := by
  induction targets generalizing w with
  | nil =>
      cases hrun
      exact of_sent_eq rfl
  | cons target targets ih =>
      rw [List.foldlM_cons] at hrun
      cases hchat : chatTo env n content w target with
      | error f =>
          rw [hchat] at hrun
          cases hrun
      | ok v =>
          rw [hchat] at hrun
          have hset : Quiet w (w.setSession n fun s => { s with target := target }) := of_sent_eq rfl
          exact (hset.trans (onChatResponse hchat)).trans (ih hrun)

theorem theUser {v : World} {n : Nat} (h : Quiet w v) (hrun : (do let _ ← v.theUser n; return v) = Except.ok w') :
    Quiet w w' := by
  unfold World.theUser at hrun
  cases huser : (v.session n).user with
  | none =>
      rw [huser] at hrun
      cases hrun
  | some p =>
      rw [huser] at hrun
      cases hrun
      exact h

/-- Nor is one to several targets. -/
theorem onMultiChatResponse {n : Nat} {msg : MessageContainer}
    (hrun : ClientSession.onMultiChatResponse env n msg w = .ok w') : Quiet w w' := by
  have hset : Quiet w (w.setSession n fun s => { s with targets := msg.targets }) := of_sent_eq rfl
  unfold ClientSession.onMultiChatResponse at hrun
  dsimp only at hrun
  cases hparse : env.pb.multiChatTargets.parse msg.payload with
  | none =>
      rw [hparse] at hrun
      exact hset.theUser hrun
  | some multi =>
      rw [hparse] at hrun
      dsimp only at hrun
      cases hloop : multi.targets.foldlM (chatTo env n multi.content)
          (w.setSession n fun s => { s with targets := msg.targets }) with
      | error f =>
          rw [hloop] at hrun
          cases hrun
      | ok v =>
          rw [hloop] at hrun
          exact (hset.trans (foldlM_chatTo _ hloop)).theUser hrun

theorem replies (h : Quiet w w') : Replies [] w w' := by
  obtain ⟨new, heq, hnew⟩ := h
  exact ⟨new, heq, fun x hx _ => hnew x hx, answersOf_eq_nil hnew⟩

end Quiet

theorem Replies.trans {due due' : List (Nat × Int × Int)} {v : World} (h : Replies due w v)
    (h' : Replies due' v w') : Replies (due ++ due') w w' := by
  obtain ⟨new, heq, hagent, hdue⟩ := h
  obtain ⟨new', heq', hagent', hdue'⟩ := h'
  refine ⟨new ++ new', by rw [heq', heq, List.append_assoc], fun x hx => ?_, ?_⟩
  · exact (List.mem_append.1 hx).elim (hagent x) (hagent' x)
  · rw [answersOf_append, hdue, hdue']

theorem replies_respond {n : Nat} {cmd : Int} {payload : Bytes} (hcmd : IsRequest cmd) (w : World) :
    Replies [(n, cmd, (w.session n).seq)] w (w.respond n cmd payload) := by
  refine ⟨_, rfl, fun x hx hpath => ?_, answersOf_cons hcmd []⟩
  rw [List.mem_singleton.1 hx] at hpath
  cases hpath

/-- What is no request would have no answer. -/
theorem Answers.quiet {n : Nat} {cmd : Int} (hcmd : ¬ IsRequest cmd) (h : Answers n cmd w w') : Quiet w w' := by
  obtain ⟨v, payload, hkept, rfl⟩ := h
  exact (Quiet.of_kept hkept).trans (Quiet.send hcmd v)

theorem Answers.replies {n : Nat} {cmd : Int} (hcmd : IsRequest cmd) (h : Answers n cmd w w') :
    Replies [(n, cmd, (w.session n).seq)] w w' := by
  obtain ⟨v, payload, hkept, rfl⟩ := h
  have hrespond := @replies_respond n cmd payload hcmd v
  rw [hkept.session] at hrespond
  exact (Quiet.of_kept hkept).replies.trans hrespond

/-- A login is answered before the offline messages go out. -/
theorem replies_login {n : Nat} {msg : MessageContainer} (hw : CachedChats env w)
    (hrun : onLoginResponse env n msg w = .ok w') :
    Replies [(n, msg_type_login, (w.session n).seq)] w w' := by
  have hrequest : IsRequest msg_type_login := by decide
  have hfailed : ∀ code v, loginFailed env n code v = .ok w' → v.sent = w.sent →
      (v.session n).seq = (w.session n).seq → Replies [(n, msg_type_login, (w.session n).seq)] w w' := by
    intro code v h hsent hkept
    rw [loginFailed_eq_ok h, ← hkept]
    exact (Quiet.of_sent_eq hsent).replies.trans (replies_respond hrequest v)
  unfold onLoginResponse at hrun
  cases hcode : loginCode env msg.payload w.store.users with
  | mk code found =>
      rw [hcode] at hrun
      cases found with
      | none => exact hfailed code _ hrun rfl rfl
      | some p =>
          have hset : ((w.setSession n fun s => { s with user := some p }).session n) =
              { w.session n with user := some p } := by
            rw [World.session_setSession, if_pos rfl]
          change (if code = 0 then _ else _) = _ at hrun
          split_ifs at hrun
          · cases hrun
            obtain ⟨payload, new, heq, hnew⟩ := @sent_loggedIn env n p
              (w.setSession n fun s => { s with user := some p }) (by rw [hset])
            have hquiet : ∀ x ∈ drained env (w.setSession n fun s => { s with user := some p }) n
                ((w.setSession n fun s => { s with user := some p }).record p).userid ++ new,
                ¬ IsRequest x.msg.cmd := by
              intro x hx
              rcases List.mem_append.1 hx with hx | hx
              · obtain ⟨cached, hcached, hx⟩ := List.mem_filterMap.1 hx
                obtain ⟨c, hparse, rfl⟩ := Option.map_eq_some_iff.1 hx
                show ¬ IsRequest c.cmd
                rw [hw cached (List.mem_of_mem_filter hcached) c hparse]
                exact not_isRequest_chat
              · exact (hnew x hx).not_isRequest
            refine ⟨_, heq.trans (List.append_assoc ..), fun x hx hpath => ?_, ?_⟩
            · rcases List.mem_cons.1 hx with rfl | hx
              · cases hpath
              · exact hquiet x hx
            · rw [List.cons_append, answersOf_cons hrequest, answersOf_eq_nil hquiet, hset]
              rfl
          · exact hfailed code _ hrun rfl (by rw [hset])

/-- The answers an event calls for. -/
def due (w : World) : Event → List (Nat × Int × Int)
  | .recv n msg => if w.im.Connected n ∧ IsRequest msg.cmd then [(n, msg.cmd, msg.seq)] else []
  | .connect _ => []
  | .malformed _ => []
  | .close _ => []
  | .agentDone _ _ => []

/-- A message that is handled is answered once, if it is a request. -/
theorem replies_onMessageReceived {n : Nat} {msg : MessageContainer} (hw : CachedChats env w)
    (hrun : onMessageReceived env n msg w = .ok w') :
    Replies (if IsRequest msg.cmd then [(n, msg.cmd, msg.seq)] else []) w w' := by
  have hseq : ((w.setSession n fun s => { s with seq := msg.seq }).session n).seq = msg.seq := by
    rw [World.session_setSession, if_pos rfl]
  have hset : Quiet w (w.setSession n fun s => { s with seq := msg.seq }) := Quiet.of_sent_eq rfl
  unfold onMessageReceived at hrun
  by_cases hlogin : msg.cmd = msg_type_login
  · rw [dispatch_login env n msg _ hlogin] at hrun
    have hrequest : IsRequest msg.cmd := by
      rw [hlogin]
      decide
    have hreplies := hset.replies.trans (replies_login hw hrun)
    rw [hseq, ← hlogin] at hreplies
    rwa [if_pos hrequest]
  · by_cases hchat : msg.cmd = msg_type_chat
    · rw [dispatch_chat env n msg _ hchat] at hrun
      rw [if_neg (by rw [hchat]; exact not_isRequest_chat)]
      exact (hset.trans (Quiet.onChatResponse hrun)).replies
    · by_cases hmulti : msg.cmd = msg_type_multichat
      · rw [dispatch_multichat env n msg _ hmulti] at hrun
        rw [if_neg (by rw [hmulti]; decide)]
        exact (hset.trans (Quiet.onMultiChatResponse hrun)).replies
      · have hdispatch := served_request env n msg (w.setSession n fun s => { s with seq := msg.seq })
          hlogin hchat hmulti
        rw [hrun] at hdispatch
        rcases hdispatch.of_ok with hanswers | ⟨hnot, rfl⟩
        · split_ifs with hrequest
          · have hreplies := hset.replies.trans (hanswers.replies hrequest)
            rwa [hseq] at hreplies
          · exact (hset.trans (hanswers.quiet hrequest)).replies
        · rw [if_neg hnot]
          exact hset.replies

/-- **What an event hands on**: one answer to a request that is handled, and nothing else that could be taken for an
answer. -/
theorem step_replies {e : Event} (hw : CachedChats env w) (hstep : step env w e = .ok w') :
    Replies (due w e) w w' := by
  have hnone : w'.sent = w.sent → Replies [] w w' := fun hsent => (Quiet.of_sent_eq hsent).replies
  cases e with
  | connect addr =>
      rcases step_connect hstep with ⟨_, rfl⟩ | ⟨-, rfl⟩
      · exact hnone rfl
      · exact hnone rfl
  | recv n msg =>
      rw [due]
      rcases step_recv hstep with ⟨hn, hrun⟩ | ⟨hn, rfl⟩
      · simp only [hn, true_and]
        exact replies_onMessageReceived hw hrun
      · rw [if_neg fun hall => hn hall.1]
        exact hnone rfl
  | malformed n =>
      rw [step_malformed hstep] at hnone ⊢
      exact hnone rfl
  | close n =>
      rcases step_close hstep with ⟨_, rfl⟩ | ⟨-, rfl⟩
      · exact hnone rfl
      · exact hnone rfl
  | agentDone k rpc =>
      rcases step_agentDone hstep with ⟨-, rfl⟩ | ⟨call, p, -, -, -, rfl⟩
      · exact hnone rfl
      · have hcalled : Quiet w (w.forget k).called := Quiet.of_sent_eq rfl
        exact (hcalled.trans (Quiet.send not_isRequest_chat _)).replies

/-! ## What a run hands to a connection -/

namespace Network

/-- Command and sequence number of those of the messages that are requests, or answers to some. -/
def tags (msgs : List MessageContainer) : List (Int × Int) :=
  (msgs.filter fun m => IsRequest m.cmd).map fun m => (m.cmd, m.seq)

@[simp] theorem tags_append (msgs msgs' : List MessageContainer) : tags (msgs ++ msgs') = tags msgs ++ tags msgs' := by
  rw [tags, List.filter_append, List.map_append]
  rfl

theorem tags_conn (n : Nat) (l : List Sent) :
    tags ((l.filter (·.conn = n)).map Sent.msg) = ((answersOf l).filter (·.1 = n)).map Prod.snd := by
  induction l with
  | nil => rfl
  | cons x l ih =>
      by_cases hx : IsRequest x.msg.cmd <;> by_cases hn : x.conn = n <;>
        simp_all [tags, answersOf, Sent.tag]

/-- A connection is handed its answer, and the assistant speaks in none. -/
theorem answers_handedBy {e : AimChat.Event} (hcached : CachedChats env w) (hheard : Heard w e)
    (hstep : AimChat.step env w e = .ok w') (n : Nat) :
    tags ((handedBy env n w e).map Sent.msg) = tags (received n e).toList ∧
      ∀ x ∈ handedBy env n w e, x.path = .agent → ¬ IsRequest x.msg.cmd := by
  obtain ⟨new, hsent, hagent, hdue⟩ := step_replies hcached hstep
  have hnew : w'.sent.drop w.sent.length = new := by rw [hsent, List.drop_left]
  rw [handedBy, hstep]
  dsimp only
  rw [hnew]
  split_ifs with hn
  · refine ⟨?_, fun x hx => hagent x (List.mem_of_mem_filter hx)⟩
    rw [tags_conn, hdue]
    cases e with
    | connect addr => rfl
    | malformed m => rfl
    | close m => rfl
    | agentDone k rpc => rfl
    | recv m msg =>
        rw [due, Network.received]
        by_cases hm : m = n
        · subst hm
          by_cases hrequest : IsRequest msg.cmd <;> simp [tags, hn, hrequest]
        · by_cases hrequest : w.im.Connected m ∧ IsRequest msg.cmd <;> simp [tags, hm, hrequest]
  · rw [hheard.received hn]
    exact ⟨rfl, fun x hx => absurd hx List.not_mem_nil⟩

/-- A run hands a connection one answer for each request that was decoded on it, in order. -/
theorem answers_handed (hpb : env.pb.Lawful) {es : List AimChat.Event} (hcached : CachedChats env w)
    (hfits : ∀ e ∈ es, EventFits e) (hheard : Run.Always (AimChat.step env) Heard w es)
    (hrun : Run.run (AimChat.step env) w es = .ok w') (n : Nat) :
    tags ((handed env n w es).map Sent.msg) = tags (recvs n es) ∧
      ∀ x ∈ handed env n w es, x.path = .agent → ¬ IsRequest x.msg.cmd := by
  induction es generalizing w with
  | nil => exact ⟨rfl, fun x hx => absurd hx List.not_mem_nil⟩
  | cons e es ih =>
      obtain ⟨v, hstep, hrest⟩ := Run.run_cons_eq_ok.1 hrun
      have hfit : EventFits e := hfits e List.mem_cons_self
      obtain ⟨htags, hagent⟩ := answers_handedBy hcached hheard.1 hstep n
      obtain ⟨htags', hagent'⟩ := ih (cachedChats_step hpb hfit hcached hstep)
        (fun e' he' => hfits e' (List.mem_cons_of_mem e he')) (hheard.2 v hstep) hrest
      have hhanded : handed env n w (e :: es) = handedBy env n w e ++ handed env n v es := by
        rw [handed, Run.log, hstep]
        rfl
      have hrecvs : recvs n (e :: es) = (received n e).toList ++ recvs n es := by
        rw [recvs, List.filterMap_cons]
        cases received n e <;> rfl
      rw [hhanded, hrecvs, List.map_append, tags_append, tags_append, htags, htags']
      exact ⟨rfl, fun x hx => (List.mem_append.1 hx).elim (hagent x) (hagent' x)⟩

/-- What another thread posts to a connection does not answer. -/
theorem tags_posted {l : List Sent} (h : ∀ x ∈ l, x.posted env = true → ¬ IsRequest x.msg.cmd) :
    tags (l.map Sent.msg) = tags ((l.filter fun m => !m.posted env).map Sent.msg) := by
  induction l with
  | nil => rfl
  | cons x l ih =>
      have hrest := ih fun y hy => h y (List.mem_cons_of_mem x hy)
      by_cases hx : x.posted env = true
      · have hnot := h x List.mem_cons_self hx
        rw [List.filter_cons_of_neg (by simp [hx]), ← hrest]
        simp [tags, hnot]
      · rw [List.filter_cons_of_pos (by simp [hx]), List.map_cons, List.map_cons, ← List.singleton_append,
          tags_append, hrest, ← tags_append, List.singleton_append]

/-! ## Whole runs -/

/-- A message in a well-formed frame is of the C++ type. -/
theorem fits_of_framed (ht : env.pb.Typed) {frame : Bytes} {msg : MessageContainer}
    (h : IMCodec.Framed env.lib frame msg) : Protobuf.ContainerFits msg := by
  obtain ⟨length, body, sum, -, -, -, hread, -, hmax, -, hparse⟩ := h
  refine ht body msg ?_ hparse
  rw [hread, List.length_append, List.length_append] at hmax
  omega

theorem fits_of_frames (ht : env.pb.Typed) {frames : List Bytes} {msgs : List MessageContainer}
    (h : List.Forall₂ (IMCodec.Framed env.lib) frames msgs) : ∀ msg ∈ msgs, Protobuf.ContainerFits msg := by
  induction h with
  | nil => exact fun msg hmsg => absurd hmsg List.not_mem_nil
  | cons hframed _ ih => exact List.forall_mem_cons.2 ⟨fits_of_framed ht hframed, ih⟩

variable {kernel : Nat → Nat → Written} {st : Store} {es : List AimChat.Event} {net : Network}

/-- What the server's run handles came in frames. -/
theorem Traced.fits (h : Traced env kernel st (fun _ => {}) es net) (ht : env.pb.Typed) :
    ∀ e ∈ es, EventFits e := by
  intro e he
  cases e with
  | connect addr => trivial
  | malformed n => trivial
  | close n => trivial
  | agentDone k rpc => trivial
  | recv n msg =>
      have hmem : msg ∈ recvs n es := List.mem_filterMap.2 ⟨_, he, if_pos rfl⟩
      by_cases hn : n < net.world.im.fresh
      · obtain ⟨frames, -, hframes⟩ := (h.carried n hn).serves.decoded
        exact fits_of_frames ht hframes msg hmem
      · rw [(h.later n (Nat.le_of_not_lt hn)).1] at hmem
        cases hmem

/-- **One request in, one answer out.** When no handler has ended the process, the bytes that went out or wait on a
connection are, until a write fails, the frames of messages of which the answers are, in order, one for each request
in the frames that the bytes read start with, by command and sequence number. -/
theorem answers_of_run (env : Env) (hpb : env.pb.Lawful) (ht : env.pb.Typed) (kernel : Nat → Nat → Written)
    (st : Store) {events : List Event} (hevents : ∀ e ∈ events, Event.Plain e) {net : Network}
    (hrun : Run.run (step env kernel) (start st) events = .ok net) {n : Nat} (hn : n < net.world.im.fresh) :
    ∃ frames requests answers,
      (net.conn n).received = List.flatten frames ++ (net.conn n).inputBuffer.contents ∧
      List.Forall₂ (IMCodec.Framed env.lib) frames requests ∧
      (¬ TcpConnection.GaveUp (kernel n) (net.conn n) →
        (net.conn n).socket.wire ++ (net.conn n).outputBuffer.contents = IMCodec.stream env.lib answers) ∧
      tags answers = tags requests := by
  rcases goes_run hevents (steady_start env kernel st) with ⟨net', hrun', es, htraced⟩ | ⟨f, es, hrun', -⟩
  · rw [hrun] at hrun'
    cases hrun'
    have hserves := (htraced.carried n hn).serves
    obtain ⟨frames, hreceived, hframes⟩ := hserves.decoded
    obtain ⟨taken, hwire, hdirect, hposted, -⟩ := hserves.sent
    have hcached : CachedChats env (World.init st) := fun _ hmem => absurd hmem List.not_mem_nil
    obtain ⟨htags, hagent⟩ := answers_handed hpb hcached (htraced.fits ht) htraced.heard htraced.run n
    have hnot : ∀ x ∈ handed env n (World.init st) es, x.posted env = true → ¬ IsRequest x.msg.cmd := by
      intro x hx hpost
      rw [Sent.posted, Bool.and_eq_true, decide_eq_true_eq] at hpost
      exact hagent x hx hpost.1
    refine ⟨frames, recvs n es, taken.map Sent.msg, hreceived, hframes, hwire, ?_⟩
    have hnot' : ∀ x ∈ taken, x.posted env = true → ¬ IsRequest x.msg.cmd := fun x hx hpost =>
      hnot x (List.mem_of_mem_filter (hposted.subset (List.mem_filter.2 ⟨hx, hpost⟩))) hpost
    rw [tags_posted hnot', hdirect, ← tags_posted hnot, htags]
  · rw [hrun] at hrun'
    cases hrun'

/-- A heartbeat in two pieces. -/
theorem answers_of_run_heartbeat :
    let frame := IMCodec.send (Env.ideal none).lib { cmd := msg_type_heartbeart, seq := 7 }
    let events : List Event := [.newConnection 1, .handleEvent 0 { pollin := true } (.bytes (frame.take 3)),
      .handleEvent 0 { pollin := true } (.bytes (frame.drop 3))]
    ∃ net, Run.run (step (Env.ideal none) fun _ _ => .took 9) (start UserManager.freshStore) events = .ok net ∧
      ∃ frames requests answers,
        (net.conn 0).received = List.flatten frames ++ (net.conn 0).inputBuffer.contents ∧
        List.Forall₂ (IMCodec.Framed (Env.ideal none).lib) frames requests ∧
        (¬ TcpConnection.GaveUp (fun _ => .took 9) (net.conn 0) →
          (net.conn 0).socket.wire ++ (net.conn 0).outputBuffer.contents =
            IMCodec.stream (Env.ideal none).lib answers) ∧
        tags answers = tags requests := by
  intro frame events
  have hevents : ∀ e ∈ events, Event.Plain e := by
    intro e he
    simp only [events, List.mem_cons, List.not_mem_nil, or_false] at he
    rcases he with rfl | rfl | rfl
    · trivial
    · exact fun hhup => by cases hhup
    · exact fun hhup => by cases hhup
  obtain ⟨net, hrun, hfresh⟩ := @Run.exists_of_eval _ _
    (Run.run (step (Env.ideal none) fun _ _ => .took 9) (start UserManager.freshStore) events)
    (fun net => net.world.im.fresh = 1) _ (by decide +kernel)
  exact ⟨net, hrun, answers_of_run (Env.ideal none) Protobuf.wire_lawful Protobuf.wire_typed _ _ hevents hrun
    (by rw [hfresh]; exact Nat.one_pos)⟩

end Network

end AimChat
