import AimChat.Lib.Run
import AimChat.Server.ClientSession

/-! # The server as a machine

The loop of the server takes one event at a time: a connection is established, a message was decoded on
one, a codec reports a malformed frame, a connection is closed, a call to the assistant ends. An event
that cannot occur in a state (a message on a connection that is not established) changes nothing. -/

namespace AimChat

/-- What the server reacts to. -/
inductive Event
  /-- A connection is established; its `TcpConnection` is at this address. -/
  | connect (addr : Nat)
  /-- The codec of a connection has decoded a message. -/
  | recv (n : Nat) (msg : MessageContainer)
  /-- The codec of a connection has come to a malformed frame: `defaultErrorCallback`. -/
  | malformed (n : Nat)
  /-- The peer has closed a connection. -/
  | close (n : Nat)
  /-- The stub call of an `AgentCall` has ended. -/
  | agentDone (k : Nat) (rpc : RpcResult Agent.ProcessMessageRsp)

variable (env : Env)

/-- A new connection and its session. -/
def World.connect (w : World) (addr : Nat) (hfree : w.im.Free addr) : World :=
  { w with
    im := w.im.onConnection addr hfree
    session := fun m => if m = w.im.fresh then {} else w.session m }

/-- Call number `k` to the assistant is under way no more. -/
def World.forget (w : World) (k : Nat) : World := { w with agentCalls := w.agentCalls.eraseIdx k }

/-- The end of call number `k` to the assistant. Its callback uses the session, which is gone when its
connection was closed. -/
def World.agentDone (w : World) (k : Nat) (rpc : RpcResult Agent.ProcessMessageRsp) : Except Fault World :=
  match w.agentCalls[k]? with
  | none => .ok w
  | some call =>
      -- the callback holds this, not a shared pointer
      if w.im.Live call.session then
        let (ok, reply) := AgentGrpcClient.processMessageSync rpc
        ClientSession.agentReplied env call.session ok reply (w.forget k)
      else .error .dangling

/-- One event. -/
def step (w : World) : Event → Except Fault World
  | .connect addr =>
      if hfree : addr ≠ 0 ∧ w.im.Free addr then .ok (w.connect addr hfree.2) else .ok w
  | .recv n msg => if w.im.Connected n then ClientSession.onMessageReceived env n msg w else .ok w
  | .malformed n => .ok { w with im := w.im.shutdown n }
  | .close n => if hn : w.im.Live n then .ok { w with im := w.im.onClose n hn } else .ok w
  | .agentDone k rpc => w.agentDone env k rpc

/-! ## What a step that gives a state did -/

variable {env} {w w' : World}

theorem step_connect {addr : Nat} (h : step env w (.connect addr) = .ok w') :
    (∃ hfree : addr ≠ 0 ∧ w.im.Free addr, w' = w.connect addr hfree.2) ∨
      ¬ (addr ≠ 0 ∧ w.im.Free addr) ∧ w' = w := by
  change (if hfree : addr ≠ 0 ∧ w.im.Free addr then Except.ok (w.connect addr hfree.2) else .ok w) = _ at h
  split_ifs at h with hfree
  · exact .inl ⟨hfree, (Except.ok.inj h).symm⟩
  · exact .inr ⟨hfree, (Except.ok.inj h).symm⟩

theorem step_connect_of_free {addr : Nat} (hfree : addr ≠ 0 ∧ w.im.Free addr) :
    step env w (.connect addr) = .ok (w.connect addr hfree.2) := by
  change (if hfree : addr ≠ 0 ∧ w.im.Free addr then Except.ok (w.connect addr hfree.2) else .ok w) = _
  rw [dif_pos hfree]

/-- The first connection. -/
theorem step_connect_init (st : Store) :
    step env (World.init st) (.connect 1) =
      .ok ((World.init st).connect 1 fun m hm => absurd hm (Nat.not_lt_zero m)) :=
  step_connect_of_free ⟨Nat.one_ne_zero, fun m hm => absurd hm (Nat.not_lt_zero m)⟩

theorem step_recv {n : Nat} {msg : MessageContainer} (h : step env w (.recv n msg) = .ok w') :
    (w.im.Connected n ∧ ClientSession.onMessageReceived env n msg w = .ok w') ∨
      ¬ w.im.Connected n ∧ w' = w := by
  change (if w.im.Connected n then ClientSession.onMessageReceived env n msg w else .ok w) = _ at h
  split_ifs at h with hn
  · exact .inl ⟨hn, h⟩
  · exact .inr ⟨hn, (Except.ok.inj h).symm⟩

/-- Over an open connection a message reaches the session. -/
theorem step_of_connected {n : Nat} (hn : w.im.Connected n) (msg : MessageContainer) :
    step env w (.recv n msg) = ClientSession.onMessageReceived env n msg w := if_pos hn

theorem step_malformed {n : Nat} (h : step env w (.malformed n) = .ok w') :
    w' = { w with im := w.im.shutdown n } := (Except.ok.inj h).symm

theorem step_close {n : Nat} (h : step env w (.close n) = .ok w') :
    (∃ hn : w.im.Live n, w' = { w with im := w.im.onClose n hn }) ∨ ¬ w.im.Live n ∧ w' = w := by
  change (if hn : w.im.Live n then Except.ok { w with im := w.im.onClose n hn } else .ok w) = _ at h
  split_ifs at h with hn
  · exact .inl ⟨hn, (Except.ok.inj h).symm⟩
  · exact .inr ⟨hn, (Except.ok.inj h).symm⟩

theorem step_agentDone {k : Nat} {rpc : RpcResult Agent.ProcessMessageRsp}
    (h : step env w (.agentDone k rpc) = .ok w') :
    (w.agentCalls[k]? = none ∧ w' = w) ∨
      ∃ call p, w.agentCalls[k]? = some call ∧ w.im.Live call.session ∧
        (w.session call.session).user = some p ∧
        w' = (w.forget k).called.send call.session .agent
          (ClientSession.agentContainer env call.session (AgentGrpcClient.processMessageSync rpc).1
            (AgentGrpcClient.processMessageSync rpc).2 p w) := by
  change w.agentDone env k rpc = _ at h
  unfold World.agentDone at h
  cases hcall : w.agentCalls[k]? with
  | none =>
      rw [hcall] at h
      exact .inl ⟨rfl, (Except.ok.inj h).symm⟩
  | some call =>
      rw [hcall] at h
      dsimp only at h
      split_ifs at h with hlive
      unfold ClientSession.agentReplied World.theUser at h
      cases huser : (w.session call.session).user with
      | none =>
          have hnone : ((w.forget k).session call.session).user = none := huser
          rw [hnone] at h
          cases h
      | some p =>
          have hsome : ((w.forget k).session call.session).user = some p := huser
          rw [hsome] at h
          exact .inr ⟨call, p, rfl, hlive, huser, (Except.ok.inj h).symm⟩

end AimChat
