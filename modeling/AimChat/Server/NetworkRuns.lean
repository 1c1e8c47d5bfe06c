import AimChat.Server.Network

/-! # Runs of the server on its connections

Every part of an event takes the connections and the run of the server so far to connections and a longer run that
fit together again (`Traced`), or a handler ends both (`Goes`). While a connection is read its messages are handled
before its bytes are in the books, so `Traced` says what is under way (`Underway`). -/

namespace AimChat

open Net (Action App Functor Incoming Revents TcpConnection Written)

namespace Network

variable {env : Env} {k : Nat → Written} {conn conn' : TcpConnection Unit} {hs : List Sent}

/-! ## The server's own run -/

/-- A connection that is in order, and a sender all along. -/
structure Sound (k : Nat → Written) (conn : TcpConnection Unit) : Prop where
  orderly : conn.Orderly
  outbox : Outbox.Moves k Net.Errno.isFault (TcpConnection.Gives fun _ => True)
    (TcpConnection.established ()).outbox conn.outbox

theorem sound_established : Sound k (TcpConnection.established ()) :=
  ⟨TcpConnection.orderly_established (), Outbox.Moves.refl⟩

theorem Sound.moves (h : Sound k conn) (horderly : conn'.Orderly)
    (hmoves : TcpConnection.Moves k (fun _ => True) conn conn') : Sound k conn' :=
  ⟨horderly, h.outbox.trans (hmoves.1.mono fun _ he => he.elim .inl And.right)⟩

theorem Sound.foldl_hand (h : Sound k conn) (ms : List Sent) : Sound k (ms.foldl (Network.hand env k) conn) := by
  induction ms generalizing conn with
  | nil => exact h
  | cons m ms ih =>
      refine ih ?_
      have hplain : Action.Plain (.send (IMCodec.send env.lib m.msg)) := trivial
      unfold Network.hand
      dsimp only
      split_ifs
      · exact h.moves (h.orderly.stays (TcpConnection.stays_post hplain)) (TcpConnection.moves_post _)
      · exact h.moves (h.orderly.stays (TcpConnection.stays_perform hplain))
          (TcpConnection.moves_perform (Action.sends_true _))

/-- What of a connection is being read: the bytes, and those of their messages that were handled. -/
structure Underway where
  handled : List MessageContainer := []
  bytes : Bytes := []

/-- More messages are handled. -/
def Underway.more (u : Underway) (msgs : List MessageContainer) : Underway :=
  { u with handled := u.handled ++ msgs }

/-- A connection and what the server's run says of it: the state of its session, the messages decoded on it and
those handed to its codec. It is shut down only for a malformed frame. -/
structure Carried (env : Env) (k : Nat → Written) (state : ConnState) (rs : List MessageContainer) (u : Underway)
    (hs : List Sent) (conn : TcpConnection Unit) : Prop where
  state : state = connState conn.state
  sound : Sound k conn
  rest : conn.inputBuffer.contents = ((IMCodec env.lib).framer.decode conn.received).rest
  decoded : rs = ((IMCodec env.lib).framer.decode conn.received).out ++ u.handled
  stuck : conn.state = .kDisconnecting →
    ((IMCodec env.lib).framer.decode (conn.received ++ u.bytes)).err ≠ none
  sends : Sends env hs conn

variable (env) in
theorem carried_established : Carried env k .kConnected [] {} [] (TcpConnection.established ()) where
  state := rfl
  sound := sound_established
  rest := by
    have hreceived : (TcpConnection.established ()).received = [] := rfl
    rw [hreceived, IMCodec.decode_nil]
    exact Net.Buffer.contents_empty
  decoded := by
    have hreceived : (TcpConnection.established ()).received = [] := rfl
    rw [hreceived, IMCodec.decode_nil]
    rfl
  stuck hstate := by cases hstate
  sends := ⟨[], [], [], rfl, rfl, rfl, rfl, fun _ => rfl⟩

/-- An operation of a connection that reads nothing. -/
theorem Carried.goesOn {state state' : ConnState} {rs : List MessageContainer} {u : Underway} {hs' : List Sent}
    (h : Carried env k state rs u hs conn) (hstate : state' = connState conn'.state) (hsound : Sound k conn')
    (hinput : conn'.input = conn.input) (hsends : Sends env hs' conn')
    (hstuck : conn'.state = .kDisconnecting → conn.state = .kDisconnecting ∨
      ((IMCodec env.lib).framer.decode (conn.received ++ u.bytes)).err ≠ none) :
    Carried env k state' rs u hs' conn' := by
  have hbuffer : conn'.inputBuffer = conn.inputBuffer := congrArg Prod.fst hinput
  have hreceived : conn'.received = conn.received := congrArg (fun i => i.2.2) hinput
  refine ⟨hstate, hsound, ?_, ?_, fun hclosing => ?_, hsends⟩
  · rw [hbuffer, hreceived]
    exact h.rest
  · rw [hreceived]
    exact h.decoded
  · rw [hreceived]
    exact (hstuck hclosing).elim h.stuck id

/-- More messages are decoded. -/
theorem Carried.decodes {state : ConnState} {rs : List MessageContainer} {u : Underway}
    (h : Carried env k state rs u hs conn) (msgs : List MessageContainer) :
    Carried env k state (rs ++ msgs) (u.more msgs) hs conn :=
  { h with decoded := by rw [h.decoded, List.append_assoc]; rfl }

/-- A message is handled while its connection is connected. -/
def Heard (w : World) (e : AimChat.Event) : Prop := ∀ n msg, e = .recv n msg → w.im.Connected n

/-- No message is handled on a connection that is not connected. -/
theorem Heard.received {w : World} {e : AimChat.Event} (h : Heard w e) {n : Nat} (hn : ¬ w.im.Connected n) :
    Network.received n e = none := by
  cases e with
  | recv m msg => exact if_neg fun (hm : m = n) => hn (hm ▸ h m msg rfl)
  | connect addr => rfl
  | malformed m => rfl
  | close m => rfl
  | agentDone k rpc => rfl

theorem heard_of_received {w : World} {e : AimChat.Event} (h : ∀ n, received n e = none) : Heard w e := by
  rintro n msg rfl
  have hsome : received n (.recv n msg) = some msg := if_pos rfl
  rw [h] at hsome
  cases hsome

/-- The events that the server has reacted to, and the connections with them. -/
structure Traced (env : Env) (kernel : Nat → Nat → Written) (st : Store) (u : Nat → Underway)
    (es : List AimChat.Event) (net : Network) : Prop where
  run : Run.run (AimChat.step env) (World.init st) es = .ok net.world
  heard : Run.Always (AimChat.step env) Heard (World.init st) es
  later : ∀ n, net.world.im.fresh ≤ n → recvs n es = [] ∧ handed env n (World.init st) es = []
  carried : ∀ n < net.world.im.fresh, Carried env (kernel n) (net.world.im.state n) (recvs n es) (u n)
    (handed env n (World.init st) es) (net.conn n)

section Traced

variable {kernel : Nat → Nat → Written} {st : Store} {u : Nat → Underway}
  {es : List AimChat.Event} {net : Network}

theorem recvs_snoc (n : Nat) (es : List AimChat.Event) (e : AimChat.Event) :
    recvs n (es ++ [e]) = recvs n es ++ (received n e).toList := by
  rw [recvs, List.filterMap_append]
  cases hreceived : received n e <;> simp [recvs, hreceived]

theorem Traced.handed_snoc (h : Traced env kernel st u es net) (n : Nat) (e : AimChat.Event) :
    handed env n (World.init st) (es ++ [e]) =
      handed env n (World.init st) es ++ handedBy env n net.world e :=
  Run.log_snoc _ h.run e

theorem Traced.run_snoc (h : Traced env kernel st u es net) {e : AimChat.Event} {w : World}
    (hstep : AimChat.step env net.world e = .ok w) :
    Run.run (AimChat.step env) (World.init st) (es ++ [e]) = .ok w :=
  Run.run_snoc_eq_ok.2 ⟨net.world, h.run, hstep⟩

theorem Traced.heard_snoc (h : Traced env kernel st u es net) {e : AimChat.Event} (he : Heard net.world e) :
    Run.Always (AimChat.step env) Heard (World.init st) (es ++ [e]) := by
  refine Run.always_append.2 ⟨h.heard, fun w hw => ⟨?_, fun _ _ => trivial⟩⟩
  rw [h.run] at hw
  cases hw
  exact he

theorem Traced.inv (h : Traced env kernel st u es net) : Inv net.world := inv_run (inv_init st) h.run

/-- The table of the sessions and the connections agree on who is connected. -/
theorem Traced.connected_iff (h : Traced env kernel st u es net) {n : Nat} (hn : n < net.world.im.fresh) :
    net.world.im.Connected n ↔ (net.conn n).state = .kConnected := by
  rw [IMSer.Connected, (h.carried n hn).state]
  cases (net.conn n).state <;> simp [connState, hn]

theorem Traced.live_iff (h : Traced env kernel st u es net) {n : Nat} (hn : n < net.world.im.fresh) :
    net.world.im.Live n ↔ (net.conn n).state ≠ .kDisconnected := by
  rw [IMSer.Live, (h.carried n hn).state]
  cases (net.conn n).state <;> simp [connState, hn]

theorem handedBy_eq_nil {n : Nat} {w w' : World} {e : AimChat.Event} (hstep : AimChat.step env w e = .ok w')
    (hsent : w'.sent = w.sent) : handedBy env n w e = [] := by
  rw [handedBy, hstep]
  dsimp only
  rw [hsent, List.drop_length, List.filter_nil, ite_self]

/-- An event that is about the state of one connection only. -/
theorem Traced.turn (h : Traced env kernel st u es net) {e : AimChat.Event} {w : World} {n : Nat}
    (hstep : AimChat.step env net.world e = .ok w) (hreceived : ∀ m, received m e = none)
    (hsent : w.sent = net.world.sent) (hfresh : w.im.fresh = net.world.im.fresh)
    (hother : ∀ m ≠ n, w.im.state m = net.world.im.state m) (hstate : w.im.state n = connState conn'.state)
    (hsound : Sound (kernel n) conn') (hinput : conn'.input = (net.conn n).input)
    (hsends : ∀ hs, Sends env hs (net.conn n) → Sends env hs conn')
    (hstuck : conn'.state = .kDisconnecting → (net.conn n).state = .kDisconnecting ∨
      ((IMCodec env.lib).framer.decode ((net.conn n).received ++ (u n).bytes)).err ≠ none) :
    Traced env kernel st u (es ++ [e]) ⟨w, Function.update net.conn n conn'⟩ where
  run := h.run_snoc hstep
  heard := h.heard_snoc (heard_of_received hreceived)
  later m hm := by
    dsimp only at hm
    rw [hfresh] at hm
    rw [recvs_snoc, h.handed_snoc, hreceived, handedBy_eq_nil hstep hsent, Option.toList_none, List.append_nil,
      List.append_nil]
    exact h.later m hm
  carried m hm := by
    dsimp only at hm ⊢
    rw [hfresh] at hm
    rw [recvs_snoc, h.handed_snoc, hreceived, handedBy_eq_nil hstep hsent, Option.toList_none, List.append_nil,
      List.append_nil]
    have hcarried := h.carried m hm
    by_cases hmn : m = n
    · subst hmn
      rw [Function.update_self]
      exact hcarried.goesOn hstate hsound hinput (hsends _ hcarried.sends) hstuck
    · rw [Function.update_of_ne hmn]
      exact hcarried.goesOn ((hother m hmn).trans hcarried.state) hcarried.sound rfl hcarried.sends .inl

theorem advance_ok (net : Network) (n : Nat) (conn' : TcpConnection Unit) :
    net.advance env n (.ok conn') =
      (if conn'.state = .kDisconnected ∧ (net.conn n).state ≠ .kDisconnected then
        (AimChat.step env net.world (.close n)).mapError .handler else .ok net.world) >>= fun world =>
      .ok ⟨world, Function.update net.conn n conn'⟩ := rfl

/-- A connection goes on, and if it was disconnected the server hears of it. -/
theorem Traced.advance (h : Traced env kernel st u es net) {n : Nat} (hn : n < net.world.im.fresh)
    (hsound : Sound (kernel n) conn') (hinput : conn'.input = (net.conn n).input)
    (hsends : ∀ hs, Sends env hs (net.conn n) → Sends env hs conn')
    (hstate : conn'.state = (net.conn n).state ∨ conn'.state = .kDisconnected) :
    ∃ w es', net.advance env n (.ok conn') = .ok ⟨w, Function.update net.conn n conn'⟩ ∧
      w.im.fresh = net.world.im.fresh ∧
      Traced env kernel st u es' ⟨w, Function.update net.conn n conn'⟩ := by
  by_cases hclosed : conn'.state = .kDisconnected ∧ (net.conn n).state ≠ .kDisconnected
  · have hlive := (h.live_iff hn).2 hclosed.2
    have hstep : AimChat.step env net.world (.close n) =
        .ok { net.world with im := net.world.im.onClose n hlive } := dif_pos hlive
    refine ⟨{ net.world with im := net.world.im.onClose n hlive }, es ++ [.close n], ?_, rfl,
      h.turn hstep (fun _ => rfl) rfl rfl (fun m hm => if_neg hm) ?_ hsound hinput hsends
        fun hclosing => by rw [hclosed.1] at hclosing; cases hclosing⟩
    · rw [advance_ok, if_pos hclosed, hstep]
      rfl
    · rw [hclosed.1]
      exact if_pos rfl
  · have hsame : conn'.state = (net.conn n).state := hstate.elim id fun hdisc => by
      by_contra hne
      exact hclosed ⟨hdisc, fun hold => hne (hdisc.trans hold.symm)⟩
    refine ⟨net.world, es, ?_, rfl, h.run, h.heard, h.later, fun m hm => ?_⟩
    · rw [advance_ok, if_neg hclosed]
      rfl
    · dsimp only at hm ⊢
      have hcarried := h.carried m hm
      by_cases hmn : m = n
      · subst hmn
        rw [Function.update_self]
        exact hcarried.goesOn (hcarried.state.trans (congrArg connState hsame.symm)) hsound hinput
          (hsends _ hcarried.sends) fun hclosing => .inl (hsame.symm.trans hclosing)
      · rwa [Function.update_of_ne hmn]

end Traced

/-! ## What the handlers send -/

@[simp] theorem world_foldl_send {kernel : Nat → Nat → Written} (ms : List Sent) (net : Network) :
    (ms.foldl (send env kernel) net).world = net.world := by
  induction ms generalizing net with
  | nil => rfl
  | cons m ms ih => exact ih _

/-- Each connection is handed the messages that are for it. -/
theorem conn_foldl_send {kernel : Nat → Nat → Written} (ms : List Sent) (net : Network) (n : Nat) :
    (ms.foldl (send env kernel) net).conn n =
      (ms.filter (·.conn = n)).foldl (hand env (kernel n)) (net.conn n) := by
  induction ms generalizing net with
  | nil => rfl
  | cons m ms ih =>
      rw [List.foldl_cons, ih, send]
      dsimp only
      by_cases hm : m.conn = n
      · subst hm
        rw [Function.update_self, List.filter_cons_of_pos (by simp), List.foldl_cons]
      · rw [Function.update_of_ne (Ne.symm hm), List.filter_cons_of_neg (by simpa using hm)]

/-- A part of an event is done, or a handler ended the process as it ends a run of the server. -/
def Goes (env : Env) (st : Store) (P : Network → Prop) (x : Except NetFault Network) : Prop :=
  (∃ net, x = .ok net ∧ P net) ∨
    ∃ f es, x = .error (.handler f) ∧ Run.run (AimChat.step env) (World.init st) es = .error f

section Goes

variable {kernel : Nat → Nat → Written} {st : Store} {u : Nat → Underway}
  {es : List AimChat.Event} {net : Network} {P Q : Network → Prop} {x : Except NetFault Network}

theorem Goes.ok (h : P net) : Goes env st P (.ok net) := .inl ⟨net, rfl, h⟩

theorem Goes.bind (h : Goes env st P x) {f : Network → Except NetFault Network}
    (hf : ∀ net, P net → Goes env st Q (f net)) : Goes env st Q (x >>= f) := by
  rcases h with ⟨net, rfl, hnet⟩ | ⟨fault, es, rfl, hrun⟩
  · exact hf net hnet
  · exact .inr ⟨fault, es, rfl, hrun⟩

theorem Goes.mono (h : Goes env st P x) (hPQ : ∀ net, P net → Q net) : Goes env st Q x :=
  h.imp_left fun ⟨net, hx, hnet⟩ => ⟨net, hx, hPQ net hnet⟩

/-- A connected connection takes what an event hands to it, and another one nothing. -/
theorem Sends.handedBy {n : Nat} {w w' : World} {e : AimChat.Event} (h : Sends env hs conn)
    (hconnected : w.im.Connected n ↔ conn.state = .kConnected) (hstep : AimChat.step env w e = .ok w') :
    Sends env (hs ++ Network.handedBy env n w e)
      (((w'.sent.drop w.sent.length).filter (·.conn = n)).foldl (Network.hand env k) conn) := by
  rw [Network.handedBy, hstep]
  dsimp only
  split_ifs with hn
  · exact h.foldl_hand (hconnected.1 hn) _
  · rw [foldl_hand_of_not_connected (fun hstate => hn (hconnected.2 hstate)), List.append_nil]
    exact h

/-- The server handles an event that is not about the state of a connection. -/
theorem Traced.serve (h : Traced env kernel st u es net) {e : AimChat.Event}
    (him : imAfter net.world e = net.world.im) (hheard : Heard net.world e) :
    Goes env st (fun net' => net'.world.im.fresh = net.world.im.fresh ∧
        (∀ m, (net'.conn m).state = (net.conn m).state ∧ (net'.conn m).input = (net.conn m).input) ∧
        Traced env kernel st (fun m => (u m).more (received m e).toList) (es ++ [e]) net')
      (net.serve env kernel e) := by
  cases hstep : AimChat.step env net.world e with
  | error f =>
      refine .inr ⟨f, es ++ [e], by rw [Network.serve, hstep]; rfl, ?_⟩
      rw [Run.run_append, h.run]
      exact (Run.run_singleton _ _).trans hstep
  | ok w =>
      have hw : w.im = net.world.im := (step_effect h.inv.made hstep).im.trans him
      refine .inl ⟨(w.sent.drop net.world.sent.length).foldl (send env kernel) { net with world := w },
        ?_, ?_, ?_, ?_⟩
      · rw [Network.serve, hstep]
        rfl
      · rw [world_foldl_send, hw]
      · intro m
        rw [conn_foldl_send]
        exact ⟨foldl_hand_state _, foldl_hand_input _⟩
      · refine ⟨?_, h.heard_snoc hheard, fun m hm => ?_, fun m hm => ?_⟩
        · rw [world_foldl_send]
          exact h.run_snoc hstep
        · rw [world_foldl_send, hw] at hm
          have hnot : ¬ net.world.im.Connected m := fun hconn => absurd hconn.1 (Nat.not_lt.2 hm)
          have hnone : handedBy env m net.world e = [] := by
            rw [handedBy, hstep]
            exact if_neg hnot
          rw [recvs_snoc, h.handed_snoc, hheard.received hnot, hnone, Option.toList_none, List.append_nil,
            List.append_nil]
          exact h.later m hm
        · rw [world_foldl_send, hw] at hm ⊢
          have hcarried := h.carried m hm
          rw [conn_foldl_send, recvs_snoc, h.handed_snoc]
          refine (hcarried.goesOn ?_ (hcarried.sound.foldl_hand _) (foldl_hand_input _) ?_ fun hclosing => ?_).decodes _
          · rw [foldl_hand_state]
            exact hcarried.state
          · exact hcarried.sends.handedBy (h.connected_iff hm) hstep
          · rw [foldl_hand_state] at hclosing
            exact .inl hclosing

/-! ## Reading -/

/-- Connection `n` is being read. -/
def readingAt (n : Nat) (data : Bytes) (msgs : List MessageContainer) (m : Nat) : Underway :=
  if m = n then ⟨msgs, data⟩ else {}

/-- What handling these messages of the bytes leaves while connection `n` is read. -/
structure Reads (env : Env) (kernel : Nat → Nat → Written) (st : Store) (n : Nat) (data : Bytes) (net : Network)
    (msgs : List MessageContainer) (net' : Network) : Prop where
  made : n < net'.world.im.fresh
  opened : (net'.conn n).state ≠ .kDisconnected
  input : (net'.conn n).input = (net.conn n).input
  traced : ∃ es, Traced env kernel st (readingAt n data msgs) es net'

variable {n : Nat} {data : Bytes}

/-- The codec hands over the messages of the bytes, in order. -/
theorem Reads.foldl_recv {done : List MessageContainer}
    (h : Goes env st (fun net' => Reads env kernel st n data net done net' ∧ (net'.conn n).state = .kConnected) x)
    (msgs : List MessageContainer) :
    Goes env st
      (fun net' => Reads env kernel st n data net (done ++ msgs) net' ∧ (net'.conn n).state = .kConnected)
      (msgs.foldl (fun r msg => r >>= fun net => net.serve env kernel (.recv n msg)) x) := by
  induction msgs generalizing done x with
  | nil => rwa [List.append_nil]
  | cons msg msgs ih =>
      have hnext : Goes env st
          (fun net' => Reads env kernel st n data net (done ++ [msg]) net' ∧ (net'.conn n).state = .kConnected)
          (x >>= fun net => net.serve env kernel (.recv n msg)) := by
        refine h.bind fun net' hnet' => ?_
        obtain ⟨⟨hn, hopen, hinput, es, htraced⟩, hstate⟩ := hnet'
        have hheard : Heard net'.world (.recv n msg) := by
          rintro m msg' heq
          cases heq
          exact (htraced.connected_iff hn).2 hstate
        refine (htraced.serve (e := .recv n msg) rfl hheard).mono fun net'' hnet'' => ?_
        obtain ⟨hfresh, hsame, htraced'⟩ := hnet''
        refine ⟨⟨hfresh ▸ hn, ?_, (hsame n).2.trans hinput, es ++ [.recv n msg], ?_⟩,
          (hsame n).1.trans hstate⟩
        · rw [(hsame n).1]
          exact hopen
        · have hunderway : (fun m => (readingAt n data done m).more (received m (.recv n msg)).toList) =
              readingAt n data (done ++ [msg]) := by
            funext m
            by_cases hm : m = n
            · simp [readingAt, received, hm, Underway.more]
            · simp [readingAt, received, hm, Ne.symm hm, Underway.more]
          rwa [hunderway] at htraced'
      have hrest := ih hnext
      rwa [List.append_assoc] at hrest

/-- A malformed frame shuts the connection down. -/
theorem Reads.onError {done : List MessageContainer} {net' : Network} (h : Reads env kernel st n data net done net')
    (herr : ((IMCodec env.lib).framer.decode ((net.conn n).received ++ data)).err ≠ none) :
    Goes env st (Reads env kernel st n data net done) (net'.onError env kernel n) := by
  obtain ⟨hn, hopen, hinput, es, htraced⟩ := h
  have hplain : Action.Plain .shutdown := trivial
  have hreceived : (net'.conn n).received = (net.conn n).received := congrArg (fun i => i.2.2) hinput
  have hstate : (({ net'.world with im := net'.world.im.shutdown n } : World).im.state n) =
      connState ((net'.conn n).perform callbacks (kernel n) .shutdown).state := by
    have hold := (htraced.carried n hn).state
    have hnew : (net'.world.im.shutdown n).state n =
        if n = n ∧ net'.world.im.state n = .kConnected then .kDisconnecting else net'.world.im.state n := rfl
    refine hnew.trans ?_
    rw [TcpConnection.perform, hold]
    cases hconn : (net'.conn n).state <;> simp [connState, hconn]
  have hsound := (htraced.carried n hn).sound
  have hnext := htraced.turn (n := n) (e := .malformed n) rfl (fun _ => rfl) rfl rfl
    (fun m hm => if_neg fun hall => hm hall.1) hstate
    (hsound.moves (hsound.orderly.stays (TcpConnection.stays_perform hplain))
      (TcpConnection.moves_perform (Action.sends_true _)))
    (TcpConnection.input_perform _) (fun _ hs => hs.shutdown) fun _ => .inr (by
      rw [readingAt, if_pos rfl, hreceived]
      exact herr)
  refine .inl ⟨_, rfl, hn, ?_, ?_, _, hnext⟩
  · dsimp only
    rw [Function.update_self]
    exact fun hclosed => hopen ((TcpConnection.stays_perform hplain).state.1 hclosed)
  · dsimp only
    rw [Function.update_self]
    exact (TcpConnection.input_perform _).trans hinput

/-- A connection begins to be read. -/
theorem Traced.reads (h : Traced env kernel st (fun _ => {}) es net) (hn : n < net.world.im.fresh)
    (hopen : (net.conn n).state ≠ .kDisconnected) (data : Bytes) : Reads env kernel st n data net [] net := by
  refine ⟨hn, hopen, rfl, es, h.run, h.heard, h.later, fun m hm => ?_⟩
  have hcarried := h.carried m hm
  by_cases hmn : m = n
  · rw [readingAt, if_pos hmn]
    refine ⟨hcarried.state, hcarried.sound, hcarried.rest, hcarried.decoded, fun hclosing => ?_, hcarried.sends⟩
    have hstuck := hcarried.stuck hclosing
    rw [List.append_nil] at hstuck
    exact fun hnone => hstuck (Framing.Framer.err_eq_none_of_append hnone)
  · rwa [readingAt, if_neg hmn]

/-- What the codec does with the input buffer. -/
theorem Traced.onMessage (h : Traced env kernel st (fun _ => {}) es net) (hn : n < net.world.im.fresh)
    (hopen : (net.conn n).state ≠ .kDisconnected) (data : Bytes) :
    ∃ buf r, Net.BufferCodec.onMessage (IMCodec env.lib)
        (fun msg r => r >>= fun net => net.serve env kernel (.recv n msg))
        (fun _ r => r >>= fun net => net.onError env kernel n) ((net.conn n).inputBuffer.readFd data)
        (.ok net : Except NetFault Network) = .ok (buf, r) ∧
      buf.contents = ((IMCodec env.lib).framer.decode ((net.conn n).received ++ data)).rest ∧
      ∃ msgs, ((IMCodec env.lib).framer.decode ((net.conn n).received ++ data)).out =
          ((IMCodec env.lib).framer.decode (net.conn n).received).out ++ msgs ∧
        Goes env st (Reads env kernel st n data net msgs) r := by
  have happend := Framing.Framer.decode_append (F := (IMCodec env.lib).framer) (net.conn n).received data
  obtain ⟨buf, hcontents, hloop⟩ := Net.BufferCodec.onMessage_decode (IMCodec env.lib)
    (fun msg r => r >>= fun net => net.serve env kernel (.recv n msg))
    (fun _ r => r >>= fun net => net.onError env kernel n) ((net.conn n).inputBuffer.readFd data)
    (.ok net : Except NetFault Network)
  rw [Net.Buffer.contents_readFd, (h.carried n hn).rest] at hcontents hloop
  have hreads := h.reads hn hopen data
  refine ⟨buf, _, hloop, hcontents.trans (congrArg Framing.Outcome.rest happend).symm, _,
    congrArg Framing.Outcome.out happend, ?_⟩
  have hmsgs : Goes env st (Reads env kernel st n data net
      ((IMCodec env.lib).framer.decode (((IMCodec env.lib).framer.decode (net.conn n).received).rest ++ data)).out)
      (((IMCodec env.lib).framer.decode
        (((IMCodec env.lib).framer.decode (net.conn n).received).rest ++ data)).out.foldl
          (fun r msg => r >>= fun net => net.serve env kernel (.recv n msg)) (.ok net)) := by
    cases hstate : (net.conn n).state with
    | kDisconnected => exact absurd hstate hopen
    | kConnected => exact (Reads.foldl_recv (.ok ⟨hreads, hstate⟩) _).mono fun _ hnet' => hnet'.1
    | kDisconnecting =>
        -- behind a malformed frame nothing is decoded
        have hstuck := (h.carried n hn).stuck hstate
        rw [List.append_nil] at hstuck
        obtain ⟨e, he⟩ := Option.ne_none_iff_exists'.1 hstuck
        have hnone := congrArg Framing.Outcome.out (happend.symm.trans (Framing.Framer.decode_append_of_err he data))
        have hempty := List.append_right_eq_self.1 hnone
        rw [hempty]
        exact .ok hreads
  cases herr : ((IMCodec env.lib).framer.decode
      (((IMCodec env.lib).framer.decode (net.conn n).received).rest ++ data)).err with
  | none => exact hmsgs
  | some e =>
      refine hmsgs.bind fun net' hnet' => hnet'.onError ?_
      rw [happend]
      dsimp only
      rw [herr]
      exact Option.some_ne_none e

/-- The server and its connections between two events. -/
def Steady (env : Env) (kernel : Nat → Nat → Written) (st : Store) (net : Network) : Prop :=
  ∃ es, Traced env kernel st (fun _ => {}) es net

/-- A connection is read: the messages in the bytes are handled, and the bytes are in the books. -/
theorem Traced.onRead (h : Traced env kernel st (fun _ => {}) es net) (hn : n < net.world.im.fresh)
    (hopen : (net.conn n).state ≠ .kDisconnected) (data : Bytes) :
    Goes env st (fun net' => n < net'.world.im.fresh ∧ Steady env kernel st net')
      (net.onRead env kernel n data) := by
  obtain ⟨buf, r, hloop, hcontents, msgs, hout, hr⟩ := h.onMessage hn hopen data
  rw [Network.onRead, hloop]
  refine hr.bind fun net' hnet' => ?_
  obtain ⟨hn', hopen', hinput, es', htraced⟩ := hnet'
  have hreceived : (net'.conn n).received = (net.conn n).received := congrArg (fun i => i.2.2) hinput
  refine .ok ⟨hn', es', htraced.run, htraced.heard, htraced.later, fun m hm => ?_⟩
  have hcarried := htraced.carried m hm
  dsimp only at hm ⊢
  by_cases hmn : m = n
  · subst hmn
    rw [Function.update_self]
    rw [readingAt, if_pos rfl] at hcarried
    have hbytes : (TcpConnection.callback
        { net'.conn m with inputBuffer := buf, received := (net'.conn m).received ++ data } .message).received =
          (net.conn m).received ++ data := congrArg (· ++ data) hreceived
    refine ⟨hcarried.state, hcarried.sound.moves (hcarried.sound.orderly.message hopen' _ _ _) (.of_eq rfl id),
      ?_, ?_, fun hclosing => ?_, hcarried.sends.of_eq rfl rfl id⟩
    · rw [hbytes]
      exact hcontents
    · rw [hbytes, hcarried.decoded, hreceived, List.append_nil]
      exact hout.symm
    · rw [hbytes, List.append_nil, ← hreceived]
      exact hcarried.stuck hclosing
  · rw [Function.update_of_ne hmn]
    rwa [readingAt, if_neg hmn] at hcarried

/-! ## One event -/

/-- The peer has closed the connection. -/
theorem Traced.close (h : Traced env kernel st (fun _ => {}) es net) {n : Nat} (hn : n < net.world.im.fresh)
    (hopen : (net.conn n).state ≠ .kDisconnected) :
    Goes env st (fun net' => n < net'.world.im.fresh ∧ Steady env kernel st net')
      (net.advance env n (net.conn n).handleClose) := by
  have hsound := (h.carried n hn).sound
  obtain ⟨conn', hclose, hstate, horderly⟩ := hsound.orderly.handleClose hopen
  obtain ⟨w, es', hadvance, hfresh, htraced⟩ := h.advance hn
    (hsound.moves horderly (TcpConnection.moves_handleClose hclose)) (TcpConnection.input_handleClose hclose)
    (fun _ hs => hs.handleClose hclose) (.inr hstate)
  rw [hclose, hadvance]
  exact .ok ⟨by rw [hfresh]; exact hn, es', htraced⟩

theorem Traced.handleWrite (h : Traced env kernel st (fun _ => {}) es net) {n : Nat}
    (hn : n < net.world.im.fresh) :
    Goes env st (Steady env kernel st)
      (net.advance env n (.ok ((net.conn n).handleWrite callbacks (kernel n)))) := by
  have hsound := (h.carried n hn).sound
  obtain ⟨w, es', hadvance, -, htraced⟩ := h.advance hn
    (hsound.moves hsound.orderly.handleWrite TcpConnection.moves_handleWrite) TcpConnection.input_handleWrite
    (fun _ hs => hs.handleWrite) (.inl TcpConnection.handleWrite_state)
  rw [hadvance]
  exact .ok ⟨es', htraced⟩

theorem Traced.handleRead (h : Traced env kernel st (fun _ => {}) es net) {n : Nat} (hn : n < net.world.im.fresh)
    (hopen : (net.conn n).state ≠ .kDisconnected) (incoming : Incoming) :
    Goes env st (fun net' => n < net'.world.im.fresh ∧ Steady env kernel st net')
      (net.handleRead env kernel n incoming) := by
  cases incoming with
  | failed => exact .ok ⟨hn, es, h⟩
  | bytes waiting =>
      rw [Network.handleRead]
      split_ifs
      · exact h.close hn hopen
      · exact h.onRead hn hopen _

theorem Traced.handleEvent (h : Traced env kernel st (fun _ => {}) es net) {n : Nat}
    (hn : n < net.world.im.fresh) (hwatched : (net.conn n).channel.Watched) {revents : Revents}
    (hrevents : revents.Plain) (incoming : Incoming) :
    Goes env st (Steady env kernel st) (net.handleEvent env kernel n revents incoming) := by
  have hopen := (h.carried n hn).sound.orderly.open_of_watched hwatched
  have hread : Goes env st (fun net' => n < net'.world.im.fresh ∧ Steady env kernel st net')
      ((if revents.pollhup && !revents.pollin then net.advance env n (net.conn n).handleClose
        else .ok net) >>= fun net =>
      if revents.pollin || revents.pollpri || revents.pollrdhup then net.handleRead env kernel n incoming
      else .ok net) := by
    by_cases hclose : (revents.pollhup && !revents.pollin) = true
    · rw [if_pos hclose]
      refine (h.close hn hopen).bind fun net' hnet' => ?_
      -- a hangup that is not readable reports nothing to read
      simp only [Bool.and_eq_true, Bool.not_eq_true'] at hclose
      obtain ⟨hpri, hrdhup⟩ := hrevents hclose.1 hclose.2
      rw [hclose.2, hpri, hrdhup, if_neg (by decide)]
      exact .ok hnet'
    · rw [if_neg hclose]
      refine Goes.bind (P := (· = net)) (.ok rfl) fun net' hnet' => ?_
      rw [hnet']
      split_ifs
      · exact h.handleRead hn hopen incoming
      · exact .ok ⟨hn, es, h⟩
  have hevent : net.handleEvent env kernel n revents incoming =
      ((if revents.pollhup && !revents.pollin then net.advance env n (net.conn n).handleClose
        else .ok net) >>= fun net =>
      if revents.pollin || revents.pollpri || revents.pollrdhup then net.handleRead env kernel n incoming
      else .ok net) >>= fun net =>
      if revents.pollout then net.advance env n (.ok ((net.conn n).handleWrite callbacks (kernel n)))
      else .ok net := by
    rw [bind_assoc]
    rfl
  rw [hevent]
  refine hread.bind fun net' hnet' => ?_
  obtain ⟨hn', es', htraced⟩ := hnet'
  split_ifs
  · exact htraced.handleWrite hn'
  · exact .ok ⟨es', htraced⟩

theorem Traced.doPendingFunctor (h : Traced env kernel st (fun _ => {}) es net) {n : Nat}
    (hn : n < net.world.im.fresh) :
    Goes env st (Steady env kernel st)
      (net.advance env n ((net.conn n).step callbacks (kernel n) .doPendingFunctor)) := by
  have hsound := (h.carried n hn).sound
  have happ : App.Plain callbacks := fun _ _ _ ha => absurd ha List.not_mem_nil
  obtain ⟨conn', hstep, horderly⟩ := hsound.orderly.step (kernel n) happ (e := .doPendingFunctor) trivial
  have hsound' : Sound (kernel n) conn' := ⟨horderly, hsound.outbox.trans
    (TcpConnection.step_moves (fun _ _ a _ => a.sends_true) (e := .doPendingFunctor) trivial
      (fun f _ => f.sends_true) hstep)⟩
  have hinput : conn'.input = (net.conn n).input := by
    rcases TcpConnection.input_step hstep with hsame | ⟨_, _, hevent, -⟩
    · exact hsame
    · cases hevent
  obtain ⟨hsends, hstate⟩ := turn_doPendingFunctor env hstep
  obtain ⟨w, es', hadvance, -, htraced⟩ := h.advance hn hsound' hinput hsends hstate
  rw [hstep, hadvance]
  exact .ok ⟨es', htraced⟩

/-- A connection is accepted, or its address is not free. -/
theorem Traced.newConnection (h : Traced env kernel st (fun _ => {}) es net) (addr : Nat) :
    Goes env st (Steady env kernel st) (net.newConnection env addr) := by
  by_cases hfree : addr ≠ 0 ∧ net.world.im.Free addr
  · have hstep : AimChat.step env net.world (.connect addr) = .ok (net.world.connect addr hfree.2) :=
      step_connect_of_free hfree
    refine .inl ⟨⟨net.world.connect addr hfree.2, fun n =>
      if n < net.world.im.fresh then net.conn n else TcpConnection.established ()⟩, ?_, ?_⟩
    · rw [Network.newConnection, hstep]
      rfl
    · refine ⟨es ++ [.connect addr], h.run_snoc hstep, h.heard_snoc (heard_of_received fun _ => rfl),
        fun n hn => ?_, fun n hn => ?_⟩
      · have hlater : net.world.im.fresh ≤ n := Nat.le_of_succ_le hn
        rw [recvs_snoc, h.handed_snoc, handedBy_eq_nil hstep rfl, List.append_nil]
        exact ⟨(List.append_nil _).trans (h.later n hlater).1, (h.later n hlater).2⟩
      · rw [recvs_snoc, h.handed_snoc, handedBy_eq_nil hstep rfl, List.append_nil]
        have hnone : (received n (.connect addr)).toList = [] := rfl
        rw [hnone, List.append_nil]
        have hstate : (net.world.connect addr hfree.2).im.state n =
            if n = net.world.im.fresh then .kConnected else net.world.im.state n := rfl
        dsimp only
        rw [hstate]
        rcases Nat.lt_succ_iff_lt_or_eq.1 hn with hlt | rfl
        · rw [if_pos hlt, if_neg (Nat.ne_of_lt hlt)]
          exact h.carried n hlt
        · obtain ⟨hrecvs, hhanded⟩ := h.later _ (Nat.le_refl _)
          rw [if_neg (Nat.lt_irrefl _), if_pos rfl, hrecvs, hhanded]
          exact carried_established env
  · have hstep : AimChat.step env net.world (.connect addr) = .ok net.world := dif_neg hfree
    refine .inl ⟨⟨net.world, fun n =>
      if n < net.world.im.fresh then net.conn n else TcpConnection.established ()⟩, ?_, es, h.run, h.heard, h.later,
      fun n hn => ?_⟩
    · rw [Network.newConnection, hstep]
      rfl
    · dsimp only at hn ⊢
      rw [if_pos hn]
      exact h.carried n hn

/-- An event whose hangups are readable, as `epoll` reports them. -/
def Event.Plain : Event → Prop
  | .handleEvent _ revents _ => revents.Plain
  | .newConnection _ => True
  | .doPendingFunctor _ => True
  | .agentDone _ _ => True

theorem Traced.step (h : Traced env kernel st (fun _ => {}) es net) {e : Event} (he : e.Plain) :
    Goes env st (Steady env kernel st) (step env kernel net e) := by
  cases e with
  | newConnection addr => exact h.newConnection addr
  | handleEvent n revents incoming =>
      rw [Network.step]
      split_ifs with hn
      · exact h.handleEvent hn.1 hn.2 he incoming
      · exact .ok ⟨es, h⟩
  | doPendingFunctor n =>
      rw [Network.step]
      split_ifs with hn
      · exact h.doPendingFunctor hn
      · exact .ok ⟨es, h⟩
  | agentDone k rpc =>
      refine (h.serve (e := .agentDone k rpc) rfl (heard_of_received fun _ => rfl)).mono fun net' hnet' => ?_
      exact ⟨es ++ [AimChat.Event.agentDone k rpc], hnet'.2.2⟩

end Goes

/-! ## Whole runs -/

/-- What a run of the server says of a connection: its state; that the bytes it read are well-formed frames of the
messages that were decoded, followed by the input buffer, which begins with no whole frame; and that what went out
or waits are the frames of the messages that were handed to its codec while it was connected, those of the loop's
thread all and in order, the replies of the assistant in order, and all of them when no functor waits. -/
structure Serves (env : Env) (k : Nat → Written) (st : Store) (es : List AimChat.Event) (n : Nat)
    (net : Network) : Prop where
  state : net.world.im.state n = connState (net.conn n).state
  decoded : ∃ frames, (net.conn n).received = List.flatten frames ++ (net.conn n).inputBuffer.contents ∧
    List.Forall₂ (IMCodec.Framed env.lib) frames (recvs n es)
  waiting : ∀ frame msg, IMCodec.Framed env.lib frame msg → ¬ frame <+: (net.conn n).inputBuffer.contents
  sent : ∃ taken : List Sent,
    (¬ TcpConnection.GaveUp k (net.conn n) →
      (net.conn n).socket.wire ++ (net.conn n).outputBuffer.contents =
        IMCodec.stream env.lib (taken.map Sent.msg)) ∧
      taken.filter (fun m => !m.posted env) =
        (handed env n (World.init st) es).filter (fun m => !m.posted env) ∧
      taken.filter (Sent.posted env) <+: (handed env n (World.init st) es).filter (Sent.posted env) ∧
      ((net.conn n).state ≠ .kDisconnected → (net.conn n).pending = [] →
        taken.filter (Sent.posted env) = (handed env n (World.init st) es).filter (Sent.posted env))

section Runs

variable {kernel : Nat → Nat → Written} {st : Store} {es : List AimChat.Event} {net : Network}

theorem Carried.serves {n : Nat}
    (h : Carried env k (net.world.im.state n) (recvs n es) {} (handed env n (World.init st) es) (net.conn n)) :
    Serves env k st es n net where
  state := h.state
  decoded := by
    rw [h.rest, h.decoded, List.append_nil]
    exact TcpConnection.frames_decode _
  waiting frame msg hframed := by
    rw [h.rest]
    exact TcpConnection.not_framed_rest hframed _
  sent := by
    obtain ⟨taken, dropped, queued, hgiven, hqueued, hdirect, hposted, hdropped⟩ := h.sends
    refine ⟨taken, fun hgave => ?_, hdirect, ?_, fun hopen hpending => ?_⟩
    · rw [← hgiven]
      exact h.sound.outbox.kept (fun _ => Net.Buffer.contents_empty) fun i hi hdrops => hgave ⟨i, hi, hdrops⟩
    · rw [← hposted, List.append_assoc]
      exact List.prefix_append _ _
    · rw [hpending] at hqueued
      rw [← hposted, hdropped hopen, List.map_eq_nil_iff.1 hqueued.symm, List.append_nil, List.append_nil]

theorem steady_start (env : Env) (kernel : Nat → Nat → Written) (st : Store) :
    Steady env kernel st (start st) :=
  ⟨[], rfl, trivial, fun _ _ => ⟨rfl, rfl⟩, fun _ hn => absurd hn (Nat.not_lt_zero _)⟩

theorem goes_run {events : List Event} (hevents : ∀ e ∈ events, Event.Plain e) (h : Steady env kernel st net) :
    Goes env st (Steady env kernel st) (Run.run (step env kernel) net events) := by
  induction events generalizing net with
  | nil => exact .ok h
  | cons e events ih =>
      obtain ⟨es, htraced⟩ := h
      have hcons : Run.run (step env kernel) net (e :: events) =
          step env kernel net e >>= fun net => Run.run (step env kernel) net events := by
        rw [← List.singleton_append, Run.run_append, Run.run_singleton]
      rw [hcons]
      exact (htraced.step (hevents e List.mem_cons_self)).bind fun net' hnet' =>
        ih (fun e' he' => hevents e' (List.mem_cons_of_mem e he')) hnet'

/-- **The server on its connections is the server.** Whatever the poller reports on which connection, in whatever
pieces the bytes come and whatever `write` takes of what is sent: the process ends in a handler, as a run of the
server on the messages in the bytes does, or no assert fails, and the server is where such a run leaves it, with
every message handled while its connection was connected and every connection as that run says. -/
theorem refines_of_run (env : Env) (kernel : Nat → Nat → Written) (st : Store) (events : List Event)
    (hevents : ∀ e ∈ events, Event.Plain e) :
    (∃ net es, Run.run (step env kernel) (start st) events = .ok net ∧
        Run.run (AimChat.step env) (World.init st) es = .ok net.world ∧
        Run.Always (AimChat.step env) Heard (World.init st) es ∧
        ∀ n < net.world.im.fresh, Serves env (kernel n) st es n net) ∨
      ∃ f es, Run.run (step env kernel) (start st) events = .error (.handler f) ∧
        Run.run (AimChat.step env) (World.init st) es = .error f := by
  rcases goes_run hevents (steady_start env kernel st) with ⟨net, hrun, es, htraced⟩ | hfault
  · exact .inl ⟨net, es, hrun, htraced.run, htraced.heard, fun n hn => (htraced.carried n hn).serves⟩
  · exact .inr hfault

/-- A heartbeat, of which the first three bytes come alone, on the first connection. -/
theorem refines_of_run_heartbeat :
    let frame := IMCodec.send (Env.ideal none).lib { cmd := msg_type_heartbeart, seq := 7 }
    let events : List Event := [.newConnection 1, .handleEvent 0 { pollin := true } (.bytes (frame.take 3)),
      .handleEvent 0 { pollin := true } (.bytes (frame.drop 3))]
    (∀ e ∈ events, Event.Plain e) ∧
      ((∃ net es, Run.run (step (Env.ideal none) fun _ _ => .took 9) (start UserManager.freshStore) events =
            .ok net ∧
          Run.run (AimChat.step (Env.ideal none)) (World.init UserManager.freshStore) es = .ok net.world ∧
          Run.Always (AimChat.step (Env.ideal none)) Heard (World.init UserManager.freshStore) es ∧
          ∀ n < net.world.im.fresh, Serves (Env.ideal none) (fun _ => .took 9) UserManager.freshStore es n net) ∨
        ∃ f es, Run.run (step (Env.ideal none) fun _ _ => .took 9) (start UserManager.freshStore) events =
            .error (.handler f) ∧
          Run.run (AimChat.step (Env.ideal none)) (World.init UserManager.freshStore) es = .error f) := by
  intro frame events
  have hevents : ∀ e ∈ events, Event.Plain e := by
    intro e he
    simp only [events, List.mem_cons, List.not_mem_nil, or_false] at he
    rcases he with rfl | rfl | rfl
    · trivial
    · exact fun hhup => by cases hhup
    · exact fun hhup => by cases hhup
  exact ⟨hevents, refines_of_run (Env.ideal none) (fun _ _ => .took 9) UserManager.freshStore events hevents⟩

end Runs

end Network

end AimChat
