import AimChat.Server.Authentication

/-! # Replies of the assistant

The callback of a call to the assistant holds the session and nothing of the request: `m_seq` and `m_user`
are read when the call ends. It replies to its request exactly while the session hears nothing else that
changes them and stays registered, whenever the call may end: `replies_iff`. -/

namespace AimChat

open ClientSession

variable (env : Env)

/-- Whatever call to the assistant ends now, and however it does: its session is registered, and one
container goes to it, with the sequence number of the request and for the user that made it. -/
def RepliesToRequest (w : World) : Prop :=
  ∀ k call rpc, w.agentCalls[k]? = some call →
    w.im.Live call.session ∧ ∃ w' reply, step env w (.agentDone k rpc) = .ok w' ∧
      w'.sent = w.sent ++ [⟨call.session, w.im.state call.session, w.userID call.session, .agent,
        { cmd := msg_type_chat, seq := call.seq, targetId := call.userid
          payload := env.pb.chatMsg.serialize reply }⟩] ∧
      reply.targetid = call.userid

/-- While a call to the assistant is under way, its session handles only messages with the sequence number
of the request and no login that names another user, and its connection is not closed. A handler that
throws ends the process. -/
def Undisturbed (w : World) : Event → Prop
  | .recv n msg => w.im.Connected n → ¬ Throws env msg → ∀ call ∈ w.agentCalls, call.session = n →
      call.seq = msg.seq ∧ ∀ p, Names env w.store.users msg p → (w.record p).userid = call.userid
  | .close n => ∀ call ∈ w.agentCalls, call.session ≠ n
  | _ => True

/-- The session still is as it was when it made the call. -/
def StillAsks (w : World) (call : AgentCall) : Prop :=
  w.im.Live call.session ∧ (w.session call.session).seq = call.seq ∧
    w.userID call.session = call.userid

variable {env}

/-- The callback of a registered session sends one container, made of what the session is now. -/
theorem agentDone_of_live {w : World} (hw : Inv w) {k : Nat} {call : AgentCall}
    (rpc : RpcResult Agent.ProcessMessageRsp) (hcall : w.agentCalls[k]? = some call)
    (hlive : w.im.Live call.session) :
    ∃ w' p, step env w (.agentDone k rpc) = .ok w' ∧ (w.session call.session).user = some p ∧
      w'.sent = w.sent ++ [⟨call.session, w.im.state call.session, w.userID call.session, .agent,
        agentContainer env call.session (AgentGrpcClient.processMessageSync rpc).1
          (AgentGrpcClient.processMessageSync rpc).2 p w⟩] := by
  obtain ⟨-, p, hp⟩ := hw.agentCalls call (List.mem_of_getElem? hcall)
  have hstep : step env w (.agentDone k rpc) = .ok ((w.forget k).called.send call.session .agent
      (agentContainer env call.session (AgentGrpcClient.processMessageSync rpc).1
        (AgentGrpcClient.processMessageSync rpc).2 p w)) := by
    change w.agentDone env k rpc = _
    unfold World.agentDone
    rw [hcall]
    dsimp only
    rw [if_pos hlive]
    unfold agentReplied World.theUser
    have hsome : ((w.forget k).session call.session).user = some p := hp
    rw [hsome]
    rfl
  exact ⟨_, p, hstep, hp, rfl⟩

/-- The calls under way reply to their requests exactly when their sessions are as they were. -/
theorem repliesToRequest_iff {w : World} (hw : Inv w) :
    RepliesToRequest env w ↔ ∀ call ∈ w.agentCalls, StillAsks w call := by
  constructor
  · intro h call hmem
    obtain ⟨k, hcall⟩ := List.getElem?_of_mem hmem
    obtain ⟨hlive, w', reply, hstep, hsent, hreply⟩ := h k call (.error []) hcall
    obtain ⟨v, p, hstep', hp, hsent'⟩ := agentDone_of_live hw (.error []) hcall hlive
    rw [hstep] at hstep'
    cases hstep'
    -- the one container sent is both the claimed one and the session's
    have heq := (List.append_right_inj _).1 (hsent.symm.trans hsent')
    simp only [List.cons.injEq, Sent.mk.injEq, agentContainer, MessageContainer.mk.injEq, true_and,
      and_true] at heq
    refine ⟨hlive, heq.1.symm, ?_⟩
    unfold World.userID
    rw [hp]
    exact heq.2.1.symm
  · intro h k call rpc hcall
    obtain ⟨hlive, hseq, hid⟩ := h call (List.mem_of_getElem? hcall)
    obtain ⟨w', p, hstep, hp, hsent⟩ := agentDone_of_live hw rpc hcall hlive
    have hrecord : (w.record p).userid = call.userid := by
      unfold World.userID at hid
      rw [hp] at hid
      exact hid
    refine ⟨hlive, w',
      { senderid := -1, targetid := (w.record p).userid
        content := if (AgentGrpcClient.processMessageSync rpc).1 then
            (AgentGrpcClient.processMessageSync rpc).2
          else str "[Agent不可用] " ++ (AgentGrpcClient.processMessageSync rpc).2
        timestamp := env.time w.calls }, hstep, ?_, hrecord⟩
    rw [hsent]
    unfold agentContainer
    rw [hseq, hrecord]

/-- A message leaves the calls under way and adds calls of its own session. -/
theorem agentCalls_recv {w w' : World} {n : Nat} {msg : MessageContainer} (hw : w.Made)
    (hrun : onMessageReceived env n msg w = .ok w') :
    ∃ new, w'.agentCalls = w.agentCalls ++ new ∧ ∀ call ∈ new, call.session = n ∧ call.seq = msg.seq ∧
      w'.userID n = call.userid := by
  have hserved := served_onMessageReceived env n msg w hw
  rw [hrun] at hserved
  have hacted := hserved.of_ok
  obtain ⟨new, heq, hnew⟩ := hacted.agentCalls
  refine ⟨new, heq, fun call hcall => ?_⟩
  obtain ⟨hsession, hseq, p, hp, hid⟩ := hnew call hcall
  refine ⟨hsession, ?_, ?_⟩
  · rw [hseq, World.session_setSession, if_pos rfl]
    unfold received assigned
    split <;> rfl
  · unfold World.userID
    rw [(hacted.session n).1, hp, hid]
    exact hacted.record (made_received env hw n msg) hp

/-- The user of a session after a message: the one a login names, or the one before. -/
theorem userID_recv {w w' : World} {n : Nat} {msg : MessageContainer} (hw : w.Made)
    (hn : w.im.Connected n) (hstep : step env w (.recv n msg) = .ok w') (userid : Int)
    (hid : w.userID n = userid) :
    w'.userID n = userid ↔ ∀ p, Names env w.store.users msg p → (w.record p).userid = userid := by
  have heffect := step_effect hw hstep
  -- only a login that finds a record changes the user
  by_cases hnames : ∃ p, Names env w.store.users msg p
  · obtain ⟨p, hp⟩ := hnames
    have huser := (heffect.session n).1.trans (user_of_names hn hp)
    have hafter : w'.userID n = (w.record p).userid := by
      unfold World.userID
      rw [huser]
      exact heffect.users.2 p (made_sessionAfter hw _ (user_of_names hn hp))
    rw [hafter]
    constructor
    · intro h q hq
      cases hp.2.symm.trans hq.2
      exact h
    · exact fun h => h p hp
  · have hnone := not_exists.1 hnames
    have huser := (heffect.session n).1.trans (user_of_not_names hnone)
    rw [userID_eq hw heffect.users huser]
    exact iff_of_true hid fun p hp => absurd hp (hnone p)

/-- A session that an event leaves alone still asks. -/
theorem StillAsks.kept {w w' : World} {e : Event} {call : AgentCall} (h : StillAsks w call) (hw : w.Made)
    (heffect : Effect env w e w') (hlive : w'.im.Live call.session)
    (hsession : sessionAfter env w call.session e = w.session call.session) : StillAsks w' call := by
  obtain ⟨-, hseq, hid⟩ := h
  refine ⟨hlive, ?_, ?_⟩
  · rw [(heffect.session call.session).2, hsession]
    exact hseq
  · rw [userID_eq hw heffect.users (by rw [(heffect.session call.session).1, hsession])]
    exact hid

/-- A close is noticed by the calls of its session. -/
theorem stillAsks_close {w w' : World} {n : Nat} (hw : w.Made)
    (hasks : ∀ call ∈ w.agentCalls, StillAsks w call) (hstep : step env w (.close n) = .ok w') :
    (∀ call ∈ w'.agentCalls, StillAsks w' call) ↔ Undisturbed env w (.close n) := by
  have heffect := step_effect hw hstep
  have hcalls : w'.agentCalls = w.agentCalls := by
    rcases step_close hstep with ⟨_, rfl⟩ | ⟨_, rfl⟩ <;> rfl
  rw [hcalls]
  have hlive : ∀ call ∈ w.agentCalls, w'.im.Live call.session ↔ call.session ≠ n := by
    intro call hcall
    have hold := (hasks call hcall).1
    rw [heffect.im, imAfter_close]
    split_ifs with hn
    · rw [IMSer.live_onClose]
      exact and_iff_left hold
    · exact iff_of_true hold fun h => hn (h ▸ hold)
  constructor
  · exact fun h call hcall => (hlive call hcall).1 (h call hcall).1
  · intro h call hcall
    apply (hasks call hcall).kept hw heffect
    · exact (hlive call hcall).2 (h call hcall)
    · rfl

/-- A message sets the number and perhaps the user of its session, and may make a call, which asks. -/
theorem stillAsks_recv {w w' : World} {n : Nat} {msg : MessageContainer} (hw : w.Made) (hn : w.im.Connected n)
    (hasks : ∀ call ∈ w.agentCalls, StillAsks w call) (hrun : onMessageReceived env n msg w = .ok w') :
    (∀ call ∈ w'.agentCalls, StillAsks w' call) ↔ Undisturbed env w (.recv n msg) := by
  have hstep : step env w (.recv n msg) = .ok w' := (step_of_connected hn msg).trans hrun
  have heffect := step_effect hw hstep
  have him : w'.im = w.im := heffect.im
  have hthrows : ¬ Throws env msg := by
    intro h
    unfold onMessageReceived at hrun
    rw [dispatch_throws env n msg _ h] at hrun
    cases hrun
  obtain ⟨new, hcalls, hnew⟩ := agentCalls_recv hw hrun
  have hseq : (w'.session n).seq = msg.seq := by
    rw [(heffect.session n).2, sessionAfter_recv, if_pos ⟨hn, rfl⟩]
    unfold received assigned
    split <;> rfl
  rw [hcalls]
  constructor
  · rintro h - - call hcall rfl
    obtain ⟨-, hasked, hid⟩ := h call (List.mem_append_left new hcall)
    exact ⟨hasked.symm.trans hseq, (userID_recv hw hn hstep _ (hasks call hcall).2.2).1 hid⟩
  · intro h call hcall
    rcases List.mem_append.1 hcall with hcall | hcall
    · have hlive : w'.im.Live call.session := by
        rw [him]
        exact (hasks call hcall).1
      by_cases hsession : call.session = n
      · obtain ⟨hmsg, hnames⟩ := h hn hthrows call hcall hsession
        subst hsession
        exact ⟨hlive, hseq.trans hmsg.symm, (userID_recv hw hn hstep _ (hasks call hcall).2.2).2 hnames⟩
      · apply (hasks call hcall).kept hw heffect hlive
        rw [sessionAfter_recv, if_neg fun hall => hsession hall.2]
    · -- a call of this very message
      obtain ⟨rfl, hmsg, hid⟩ := hnew call hcall
      refine ⟨?_, hseq.trans hmsg.symm, hid⟩
      rw [him]
      exact hn.live

/-- One event keeps the calls under way replying exactly when it does not disturb them. -/
theorem stillAsks_step {w w' : World} {e : Event} (hw : Inv w)
    (hasks : ∀ call ∈ w.agentCalls, StillAsks w call) (hstep : step env w e = .ok w') :
    (∀ call ∈ w'.agentCalls, StillAsks w' call) ↔ Undisturbed env w e := by
  have heffect := step_effect hw.made hstep
  cases e with
  | connect addr =>
      refine iff_of_true (fun call hcall => ?_) trivial
      have hcall : call ∈ w.agentCalls := by
        rcases step_connect hstep with ⟨_, rfl⟩ | ⟨_, rfl⟩ <;> exact hcall
      apply (hasks call hcall).kept hw.made heffect
      · rw [heffect.im, imAfter_connect]
        split_ifs
        · exact (IMSer.live_onConnection ..).2 (.inr (hasks call hcall).1)
        · exact (hasks call hcall).1
      · -- the new session is not the one that made the call
        have hlt := (hw.agentCalls call hcall).1
        rw [sessionAfter_connect, if_neg fun h => absurd h.2.2 (Nat.ne_of_lt hlt)]
  | malformed n =>
      refine iff_of_true (fun call hcall => ?_) trivial
      rw [step_malformed hstep] at hcall
      apply (hasks call hcall).kept hw.made heffect
      · rw [heffect.im]
        exact (IMSer.live_shutdown n).2 (hasks call hcall).1
      · rfl
  | agentDone k rpc =>
      refine iff_of_true (fun call hcall => ?_) trivial
      have hcall : call ∈ w.agentCalls := by
        rcases step_agentDone hstep with ⟨-, rfl⟩ | ⟨_, _, -, -, -, rfl⟩
        · exact hcall
        · exact List.mem_of_mem_eraseIdx hcall
      apply (hasks call hcall).kept hw.made heffect
      · rw [heffect.im]
        exact (hasks call hcall).1
      · rfl
  | close n => exact stillAsks_close hw.made hasks hstep
  | recv n msg =>
      rcases step_recv hstep with ⟨hn, hrun⟩ | ⟨hn, rfl⟩
      · exact stillAsks_recv hw.made hn hasks hrun
      · exact iff_of_true hasks fun hconnected => absurd hconnected hn

/-- An event that ends the process disturbs no call. -/
theorem undisturbed_of_error {w : World} {e : Event} {f : Fault} (hw : Inv w)
    (hstep : step env w e = .error f) : Undisturbed env w e := by
  cases e with
  | connect addr => trivial
  | malformed n => trivial
  | agentDone k rpc => trivial
  | close n =>
      change (if hn : w.im.Live n then Except.ok { w with im := w.im.onClose n hn } else .ok w) = _ at hstep
      split_ifs at hstep
  | recv n msg =>
      intro hn hthrows call hcall hsession
      exfalso
      rw [step_of_connected hn] at hstep
      have hserved := served_onMessageReceived env n msg w hw.made
      rw [hstep] at hserved
      obtain ⟨-, p, hp⟩ := hw.agentCalls call hcall
      cases hserved with
      | nullUser hnone _ =>
          rw [← hsession, hp] at hnone
          cases hnone
      | uncaught h _ => exact hthrows h

/-- **Replies stay with their requests.** From any store, the calls to the assistant under way reply to
their requests in every state a run passes through, whenever they may end, exactly when no event disturbs
one. -/
theorem replies_iff (st : Store) (es : List Event) :
    (∀ pre w, pre <+: es → Run.run (step env) (World.init st) pre = .ok w → RepliesToRequest env w) ↔
      Run.Always (step env) (Undisturbed env) (World.init st) es := by
  have htrue : Run.Always (step env) (fun _ _ => True) (World.init st) es :=
    Run.always_of_forall (fun _ _ => trivial) _ es
  have hexact := Run.forall_prefix_iff_always (I := Inv)
    (Q := fun w => ∀ call ∈ w.agentCalls, StillAsks w call) (H := fun _ _ => True)
    (fun s e s' hs _ hstep => inv_step s e s' hs hstep)
    (fun s e s' hs hasks _ hstep => stillAsks_step hs hasks hstep)
    (fun s e f hs _ _ hstep => undisturbed_of_error hs hstep)
    (inv_init st) (fun call hcall => absurd hcall List.not_mem_nil)
    htrue
  rw [← hexact]
  refine forall₄_congr fun pre w _ hrun => ?_
  exact repliesToRequest_iff (inv_run (inv_init st) hrun)

/-- The server with an assistant. -/
def withAgent : Env := Env.ideal (some { agent := true, avatar := none, mail := none })

/-- A user asks the assistant and then sends a heartbeat. -/
def askThenHeartbeat : List Event :=
  [.connect 1, .recv 0 (loginMessage (str "a") (str "p")),
    .recv 0 { cmd := msg_type_chat, seq := 2, targetId := -1 },
    .recv 0 { cmd := msg_type_heartbeart, seq := 3 }]

/-- The reply would carry the sequence number of the heartbeat. -/
theorem reply_to_heartbeat :
    ¬ ∀ pre w, pre <+: askThenHeartbeat →
      Run.run (step withAgent) (World.init UserManager.oneUser) pre = .ok w → RepliesToRequest withAgent w := by
  intro h
  obtain ⟨w, hrun, hcall⟩ := @Run.exists_of_eval _ _
    (Run.run (step withAgent) (World.init UserManager.oneUser) askThenHeartbeat)
    (fun w => ∃ call ∈ w.agentCalls, (w.session call.session).seq ≠ call.seq) _ (by decide +kernel)
  obtain ⟨call, hmem, hseq⟩ := hcall
  have hreplies := h _ w List.prefix_rfl hrun
  rw [repliesToRequest_iff (inv_run (inv_init _) hrun)] at hreplies
  exact hseq (hreplies call hmem).2.1

end AimChat
