import AimChat.Lib.Run
import AimChat.Server.IMSer

/-! # The table of sessions

`IMSer` keeps its sessions under the printed addresses of their connections, `std::map::insert` drops a
session whose key is taken, and an address is used again once nothing keeps its connection alive. `Clients`
is that table with no invariant built in. `clients_correspond` says that it holds one session for each
connected connection, in every run: what keeps a connection alive is its own session, and that leaves the
table with the connection. So the table is the one of `IMSer`, where the correspondence is part of the type
(`Refines`). -/

namespace AimChat

/-- A `ClientSession`, as far as its connection goes. -/
structure ClientSessionPtr where
  /-- `m_sessionid` -/
  sessionid : String
  /-- `m_conn` -/
  conn : Nat
  deriving DecidableEq, Repr

/-- The connections made so far and `m_mapclient`. -/
structure Clients where
  /-- The number of the next connection. -/
  fresh : Nat
  /-- `conn.get()` -/
  addr : Nat → Nat
  /-- `conn->connected()` -/
  connected : Nat → Bool
  mapclient : OrdMap String ClientSessionPtr

/-- A call of `IMSer::OnConnection`. -/
inductive ConnEvent
  /-- A connection was established; its object is at this address. -/
  | up (addr : Nat)
  /-- A connection is gone. -/
  | down (n : Nat)

namespace Clients

/-- The server before the first connection. -/
def init : Clients where
  fresh := 0
  addr := fun _ => 0
  connected := fun _ => false
  mapclient := ∅

variable (s : Clients)

/-- A session holds the connection in `m_conn`. -/
def Held (n : Nat) : Prop := ∃ client ∈ s.mapclient.values, client.conn = n

instance (n : Nat) : Decidable (s.Held n) :=
  inferInstanceAs (Decidable (∃ client ∈ s.mapclient.values, client.conn = n))

/-- The object of the connection exists. -/
def Live (n : Nat) : Prop := n < s.fresh ∧ (s.connected n = true ∨ s.Held n)

instance (n : Nat) : Decidable (s.Live n) := inferInstanceAs (Decidable (_ ∧ _))

/-- An object can be made at this address. -/
def Free (addr : Nat) : Prop := ∀ m < s.fresh, s.Live m → s.addr m ≠ addr

instance (addr : Nat) : Decidable (s.Free addr) :=
  inferInstanceAs (Decidable (∀ m < s.fresh, s.Live m → s.addr m ≠ addr))

/-- `ClientSession(conn)` -/
def newClient (n : Nat) : ClientSessionPtr := ⟨printPtr (s.addr n), n⟩

/-- `OnClose(conn)` -/
def onClose (n : Nat) : Clients :=
  match s.mapclient.get? (printPtr (s.addr n)) with
  | some _ => { s with mapclient := s.mapclient.erase (printPtr (s.addr n)) }
  | none => s

/-- `OnConnection(conn)` -/
def onConnection (n : Nat) : Clients :=
  if s.connected n then
    { s with mapclient := s.mapclient.insert (s.newClient n).sessionid (s.newClient n) }
  else s.onClose n

/-- A new connection, established. -/
def establish (addr : Nat) : Clients :=
  { s with
    fresh := s.fresh + 1
    addr := fun m => if m = s.fresh then addr else s.addr m
    connected := fun m => if m = s.fresh then true else s.connected m }

/-- A connection is no longer connected. -/
def disconnect (n : Nat) : Clients :=
  { s with connected := fun m => if m = n then false else s.connected m }

/-- One call of `OnConnection`. What cannot occur, an object where another one is and a connection that is
not connected going down, changes nothing. -/
def step : ConnEvent → Except Empty Clients
  | .up addr => if s.Free addr then .ok ((s.establish addr).onConnection s.fresh) else .ok s
  | .down n =>
      if n < s.fresh ∧ s.connected n = true then .ok ((s.disconnect n).onConnection n) else .ok s

/-- One session for each connected connection, under its printed address. -/
structure OneToOne : Prop where
  session : ∀ n < s.fresh, s.connected n = true →
    s.mapclient.get? (printPtr (s.addr n)) = some ⟨printPtr (s.addr n), n⟩
  client : ∀ key client, s.mapclient.get? key = some client →
    client.conn < s.fresh ∧ s.connected client.conn = true ∧ key = printPtr (s.addr client.conn)

/-- The insert of an event finds its key free, the erase finds the session of the connection. -/
def KeyFits : ConnEvent → Prop
  | .up addr => s.Free addr → s.mapclient.get? (printPtr addr) = none
  | .down n => n < s.fresh → s.connected n = true →
      ∃ client, s.mapclient.get? (printPtr (s.addr n)) = some client ∧ client.conn = n

variable {s}

theorem step_up {addr : Nat} (hfree : s.Free addr) :
    step s (.up addr) = .ok ((s.establish addr).onConnection s.fresh) := if_pos hfree

theorem step_down {n : Nat} (hn : n < s.fresh ∧ s.connected n = true) :
    step s (.down n) = .ok ((s.disconnect n).onConnection n) := if_pos hn

theorem oneToOne_init : OneToOne init :=
  ⟨fun n hn => absurd hn (Nat.not_lt_zero n), fun key client h => by cases h⟩

namespace OneToOne

/-- Only its session keeps a connection alive, so the address of a live one is taken in the table. -/
theorem live_iff (h : OneToOne s) {n : Nat} : s.Live n ↔ n < s.fresh ∧ s.connected n = true := by
  constructor
  · rintro ⟨hn, hconnected | ⟨client, hclient, rfl⟩⟩
    · exact ⟨hn, hconnected⟩
    · obtain ⟨key, hkey⟩ := OrdMap.mem_values_iff.1 hclient
      obtain ⟨hlt, hconnected, -⟩ := h.client key client hkey
      exact ⟨hlt, hconnected⟩
  · rintro ⟨hn, hconnected⟩
    exact ⟨hn, .inl hconnected⟩

/-- Connected connections are at different addresses. -/
theorem addr_injective (h : OneToOne s) {m n : Nat} (hm : m < s.fresh) (hn : n < s.fresh)
    (hm' : s.connected m = true) (hn' : s.connected n = true) (heq : s.addr m = s.addr n) : m = n := by
  have hboth := h.session m hm hm'
  rw [heq, h.session n hn hn'] at hboth
  exact (congrArg ClientSessionPtr.conn (Option.some.inj hboth)).symm

/-- The keys fit. -/
theorem keyFits (h : OneToOne s) (e : ConnEvent) : s.KeyFits e := by
  cases e with
  | up addr =>
      intro hfree
      rw [Option.eq_none_iff_forall_ne_some]
      intro client hclient
      obtain ⟨hlt, hconnected, hkey⟩ := h.client _ client hclient
      exact hfree _ hlt (h.live_iff.2 ⟨hlt, hconnected⟩) (printPtr_injective hkey).symm
  | down n => exact fun hn hconnected => ⟨_, h.session n hn hconnected, rfl⟩

/-- A new connection gets its session. -/
theorem up (h : OneToOne s) {addr : Nat} (hfree : s.Free addr) :
    OneToOne ((s.establish addr).onConnection s.fresh) := by
  have hnew : s.mapclient.get? (printPtr addr) = none := h.keyFits (.up addr) hfree
  have hself : (s.establish addr).addr s.fresh = addr := if_pos rfl
  have hconnected : (s.establish addr).connected s.fresh = true := if_pos rfl
  unfold onConnection
  rw [if_pos hconnected]
  have hget : ∀ key, (s.mapclient.insert (printPtr addr) ⟨printPtr addr, s.fresh⟩).get? key =
      if key = printPtr addr then some ⟨printPtr addr, s.fresh⟩ else s.mapclient.get? key := by
    intro key
    rw [OrdMap.get?_insert, hnew]
    rfl
  have hclients : (s.establish addr).mapclient.insert ((s.establish addr).newClient s.fresh).sessionid
      ((s.establish addr).newClient s.fresh) =
        s.mapclient.insert (printPtr addr) ⟨printPtr addr, s.fresh⟩ := by
    unfold newClient
    rw [hself]
    rfl
  rw [hclients]
  refine ⟨fun n hn hn' => ?_, fun key client hclient => ?_⟩
  · show (s.mapclient.insert _ _).get? (printPtr (if n = s.fresh then addr else s.addr n)) =
      some ⟨printPtr (if n = s.fresh then addr else s.addr n), n⟩
    rw [hget]
    by_cases hfresh : n = s.fresh
    · rw [if_pos hfresh, if_pos rfl, hfresh]
    · have hlt : n < s.fresh := Nat.lt_of_le_of_ne (Nat.le_of_lt_succ hn) hfresh
      have hold : s.connected n = true := by
        change (if n = s.fresh then true else s.connected n) = true at hn'
        rwa [if_neg hfresh] at hn'
      have hother : printPtr (s.addr n) ≠ printPtr addr := fun heq =>
        hfree n hlt (h.live_iff.2 ⟨hlt, hold⟩) (printPtr_injective heq)
      rw [if_neg hfresh, if_neg hother]
      exact h.session n hlt hold
  · change (s.mapclient.insert _ _).get? key = some client at hclient
    rw [hget] at hclient
    show client.conn < s.fresh + 1 ∧ (if client.conn = s.fresh then true else s.connected client.conn) = true ∧
      key = printPtr (if client.conn = s.fresh then addr else s.addr client.conn)
    split_ifs at hclient with hkey
    · cases hclient
      exact ⟨Nat.lt_succ_self _, if_pos rfl, by rw [if_pos rfl, hkey]⟩
    · obtain ⟨hlt, hold, hkey'⟩ := h.client key client hclient
      have hfresh : client.conn ≠ s.fresh := Nat.ne_of_lt hlt
      rw [if_neg hfresh, if_neg hfresh]
      exact ⟨Nat.lt_succ_of_lt hlt, hold, hkey'⟩

/-- A connection that goes down has its session erased. -/
theorem onConnection_disconnect (h : OneToOne s) {n : Nat} (hn : n < s.fresh)
    (hconnected : s.connected n = true) :
    (s.disconnect n).onConnection n =
      { s.disconnect n with mapclient := s.mapclient.erase (printPtr (s.addr n)) } := by
  have hdown : (s.disconnect n).connected n ≠ true := by
    show (if n = n then false else s.connected n) ≠ true
    rw [if_pos rfl]
    exact Bool.false_ne_true
  have hfound : (s.disconnect n).mapclient.get? (printPtr ((s.disconnect n).addr n)) =
      some ⟨printPtr (s.addr n), n⟩ := h.session n hn hconnected
  unfold onConnection onClose
  rw [if_neg hdown, hfound]
  rfl

/-- A connection that goes down takes its session along. -/
theorem down (h : OneToOne s) {n : Nat} (hn : n < s.fresh) (hconnected : s.connected n = true) :
    OneToOne ((s.disconnect n).onConnection n) := by
  rw [h.onConnection_disconnect hn hconnected]
  refine ⟨fun m hm hm' => ?_, fun key client hclient => ?_⟩
  · change (if m = n then false else s.connected m) = true at hm'
    show (s.mapclient.erase (printPtr (s.addr n))).get? (printPtr (s.addr m)) = _
    split_ifs at hm' with hmn
    have hother : printPtr (s.addr m) ≠ printPtr (s.addr n) := fun heq =>
      hmn (h.addr_injective hm hn hm' hconnected (printPtr_injective heq))
    rw [OrdMap.get?_erase, if_neg hother]
    exact h.session m hm hm'
  · change (s.mapclient.erase (printPtr (s.addr n))).get? key = some client at hclient
    rw [OrdMap.get?_erase] at hclient
    split_ifs at hclient with hkey
    obtain ⟨hlt, hold, hkey'⟩ := h.client key client hclient
    have hmn : client.conn ≠ n := by
      rintro rfl
      exact hkey hkey'
    refine ⟨hlt, ?_, hkey'⟩
    show (if client.conn = n then false else s.connected client.conn) = true
    rw [if_neg hmn]
    exact hold

end OneToOne

/-- Every event keeps the correspondence. -/
theorem oneToOne_step {s' : Clients} {e : ConnEvent} (h : OneToOne s) (hstep : step s e = .ok s') :
    OneToOne s' := by
  cases e with
  | up addr =>
      change (if s.Free addr then Except.ok ((s.establish addr).onConnection s.fresh) else .ok s) = _ at hstep
      split_ifs at hstep with hfree
      · cases hstep
        exact h.up hfree
      · cases hstep
        exact h
  | down n =>
      change (if n < s.fresh ∧ s.connected n = true then
        Except.ok ((s.disconnect n).onConnection n) else .ok s) = _ at hstep
      split_ifs at hstep with hn
      · cases hstep
        exact h.down hn.1 hn.2
      · cases hstep
        exact h

theorem oneToOne_run {es : List ConnEvent} (hrun : Run.run step init es = .ok s) : OneToOne s :=
  Run.run_invariant (P := fun _ _ => True) (fun _ _ _ h _ hstep => oneToOne_step h hstep) oneToOne_init
    (Run.always_of_forall_mem fun _ _ => trivial) hrun

/-- **Sessions and connections correspond.** In every run the table holds exactly one session for each
connected connection, under the printed address, with the connection in `m_conn`; no insert finds its key
taken, and every erase finds the session of its connection. -/
theorem clients_correspond (es : List ConnEvent) :
    (∀ s, Run.run step init es = .ok s → OneToOne s) ∧ Run.Always step KeyFits init es :=
  ⟨fun _ hrun => oneToOne_run hrun,
    Run.always_of_invariant (P := fun _ _ => True) (fun _ _ _ h _ hstep => oneToOne_step h hstep)
      (fun _ e h _ => h.keyFits e) oneToOne_init (Run.always_of_forall_mem fun _ _ => trivial)⟩

/-! ## The table of `IMSer` -/

/-- The connections of `IMSer` are these; a connection that is shutting down still is connected here. -/
structure Refines (s : Clients) (im : IMSer) : Prop where
  fresh : im.fresh = s.fresh
  addr : ∀ n < s.fresh, im.addr n = s.addr n
  state : ∀ n < s.fresh, im.state n ≠ .kDisconnected ↔ s.connected n = true

namespace Refines

variable {im : IMSer}

theorem live_iff (h : Refines s im) {n : Nat} : im.Live n ↔ n < s.fresh ∧ s.connected n = true := by
  unfold IMSer.Live
  rw [h.fresh]
  exact and_congr_right fun hn => h.state n hn

/-- The sessions are the same, under the same keys. -/
theorem mapclient (h : Refines s im) (hs : OneToOne s) (key : String) :
    im.mapclient.get? key = (s.mapclient.get? key).map (·.conn) := by
  apply Option.ext
  intro n
  rw [im.registered, Option.map_eq_some_iff, ← and_assoc]
  constructor
  · rintro ⟨hlive, rfl⟩
    obtain ⟨hn, hconnected⟩ := h.live_iff.1 hlive
    rw [h.addr n hn]
    exact ⟨_, hs.session n hn hconnected, rfl⟩
  · rintro ⟨client, hclient, rfl⟩
    obtain ⟨hn, hconnected, hkey⟩ := hs.client key client hclient
    exact ⟨h.live_iff.2 ⟨hn, hconnected⟩, by rw [h.addr _ hn, hkey]⟩

theorem free_iff (h : Refines s im) (hs : OneToOne s) (addr : Nat) : im.Free addr ↔ s.Free addr := by
  unfold IMSer.Free Free
  rw [h.fresh]
  refine forall₂_congr fun m hm => ?_
  rw [h.addr m hm, hs.live_iff, h.state m hm]
  exact ⟨fun hfree hlive => hfree hlive.2, fun hfree hconnected => hfree ⟨hm, hconnected⟩⟩

/-- `IMSer.onConnection` is the table's insert. -/
theorem up (h : Refines s im) {addr : Nat} (hfree : im.Free addr) :
    Refines ((s.establish addr).onConnection s.fresh) (im.onConnection addr hfree) := by
  have hconnected : (s.establish addr).connected s.fresh = true := if_pos rfl
  unfold onConnection
  rw [if_pos hconnected]
  refine ⟨congrArg (· + 1) h.fresh, fun n hn => ?_, fun n hn => ?_⟩
  · show (if n = im.fresh then addr else im.addr n) = if n = s.fresh then addr else s.addr n
    rw [h.fresh]
    split_ifs with hfresh
    · rfl
    · exact h.addr n (Nat.lt_of_le_of_ne (Nat.le_of_lt_succ hn) hfresh)
  · show (if n = im.fresh then ConnState.kConnected else im.state n) ≠ .kDisconnected ↔
      (if n = s.fresh then true else s.connected n) = true
    rw [h.fresh]
    split_ifs with hfresh
    · simp
    · exact h.state n (Nat.lt_of_le_of_ne (Nat.le_of_lt_succ hn) hfresh)

/-- `IMSer.onClose` is the table's erase. -/
theorem down (h : Refines s im) {n : Nat} (hn : im.Live n) (hs : OneToOne s) :
    Refines ((s.disconnect n).onConnection n) (im.onClose n hn) := by
  obtain ⟨hlt, hconnected⟩ := h.live_iff.1 hn
  rw [hs.onConnection_disconnect hlt hconnected]
  refine ⟨h.fresh, h.addr, fun m hm => ?_⟩
  show (if m = n then ConnState.kDisconnected else im.state m) ≠ .kDisconnected ↔
    (if m = n then false else s.connected m) = true
  split_ifs
  · simp
  · exact h.state m hm

/-- A connection that is shut down is not gone. -/
theorem shutdown (h : Refines s im) (n : Nat) : Refines s (im.shutdown n) := by
  refine ⟨h.fresh, h.addr, fun m hm => ?_⟩
  rw [← h.state m hm]
  show (if m = n ∧ im.state m = .kConnected then ConnState.kDisconnecting else im.state m) ≠ _ ↔ _
  split_ifs with hshut
  · simp [hshut.2]
  · rfl

end Refines

end Clients

end AimChat
