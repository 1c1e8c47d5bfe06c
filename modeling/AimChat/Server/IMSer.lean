import AimChat.Base.Bytes
import AimChat.Lib.OrdMap
import Mathlib.Data.String.Basic

/-! # The connections and their sessions

A `TcpConnection` has an address and a state. `IMSer` makes one `ClientSession` for each connection
that is established, holds it in `m_mapclient` under the printed address of the connection, and drops
it when the connection is closed; nothing else holds a session. Connections are numbered as they are
established and a session has the number of its connection, so "the session is registered" and "its
connection is not closed" are the same: that is the field `registered` of the table. -/

namespace AimChat

/-- `TcpConnection::StateE` -/
inductive ConnState
  | kDisconnected
  | kConnecting
  | kConnected
  | kDisconnecting
  deriving DecidableEq, Repr

/-- The connections made so far and `IMSer::m_mapclient`. -/
structure IMSer where
  /-- The number of the next connection. -/
  fresh : Nat
  /-- Where a connection is: `conn.get()`. -/
  addr : Nat → Nat
  /-- `state_` of a connection. -/
  state : Nat → ConnState
  /-- `m_mapclient`: the sessions by printed address. -/
  mapclient : OrdMap String Nat
  registered : ∀ {key n}, mapclient.get? key = some n ↔
    n < fresh ∧ state n ≠ .kDisconnected ∧ key = printPtr (addr n)

namespace IMSer

/-- The server before the first connection. -/
def init : IMSer where
  fresh := 0
  addr := fun _ => 0
  state := fun _ => .kConnecting
  mapclient := ∅
  registered := by simp

variable {im : IMSer} {n : Nat}

/-- The connection was established and is not closed. -/
def Live (im : IMSer) (n : Nat) : Prop := n < im.fresh ∧ im.state n ≠ .kDisconnected

instance (im : IMSer) (n : Nat) : Decidable (im.Live n) := inferInstanceAs (Decidable (_ ∧ _))

/-- The connection is established: `TcpConnection::connected()`. -/
def Connected (im : IMSer) (n : Nat) : Prop := n < im.fresh ∧ im.state n = .kConnected

instance (im : IMSer) (n : Nat) : Decidable (im.Connected n) := inferInstanceAs (Decidable (_ ∧ _))

/-- A session is in `m_mapclient` exactly while its connection is not closed. -/
theorem mem_values_iff : n ∈ im.mapclient.values ↔ im.Live n := by
  rw [OrdMap.mem_values_iff]
  constructor
  · rintro ⟨key, h⟩
    obtain ⟨hlt, hstate, -⟩ := im.registered.1 h
    exact ⟨hlt, hstate⟩
  · intro h
    exact ⟨printPtr (im.addr n), im.registered.2 ⟨h.1, h.2, rfl⟩⟩

theorem Connected.live (h : im.Connected n) : im.Live n :=
  ⟨h.1, by rw [h.2]; exact ConnState.noConfusion⟩

/-- The address is free: no open connection is there. -/
def Free (im : IMSer) (addr : Nat) : Prop := ∀ m < im.fresh, im.state m ≠ .kDisconnected → im.addr m ≠ addr

instance (im : IMSer) (addr : Nat) : Decidable (im.Free addr) :=
  inferInstanceAs (Decidable (∀ m < im.fresh, im.state m ≠ .kDisconnected → im.addr m ≠ addr))

/-- The session's own key: `(std::string)*client`. -/
def sessionid (im : IMSer) (n : Nat) : String := printPtr (im.addr n)

/-- A new connection at a free address: `connectEstablished()` sets its state, and `OnConnection`
inserts its session. -/
def onConnection (im : IMSer) (addr : Nat) (hfree : im.Free addr) : IMSer where
  fresh := im.fresh + 1
  addr := fun m => if m = im.fresh then addr else im.addr m
  state := fun m => if m = im.fresh then .kConnected else im.state m
  mapclient := im.mapclient.insert (printPtr addr) im.fresh
  registered := by
    intro key n
    have hnew : im.mapclient.get? (printPtr addr) = none := by
      rw [Option.eq_none_iff_forall_ne_some]
      intro m hm
      obtain ⟨hlt, hstate, hkey⟩ := im.registered.1 hm
      exact hfree m hlt hstate (printPtr_injective hkey).symm
    rw [OrdMap.get?_insert, hnew, Option.getD_none]
    by_cases hn : n = im.fresh
    · subst hn
      rw [if_pos rfl, if_pos rfl]
      have hold : im.mapclient.get? key ≠ some im.fresh := fun h => by
        have := (im.registered.1 h).1
        omega
      by_cases hkey : key = printPtr addr <;> simp [hkey, hold]
    · rw [if_neg hn, if_neg hn]
      by_cases hkey : key = printPtr addr
      · subst hkey
        rw [if_pos rfl]
        refine iff_of_false (fun h => hn (Option.some.inj h).symm) ?_
        rintro ⟨hlt, hstate, heq⟩
        exact hfree n (by omega) hstate (printPtr_injective heq).symm
      · rw [if_neg hkey, im.registered]
        have hlt : n < im.fresh + 1 ↔ n < im.fresh := by omega
        rw [hlt]

/-- `TcpConnection::shutdown()` -/
def shutdown (im : IMSer) (n : Nat) : IMSer :=
  { im with
    state := fun m => if m = n ∧ im.state m = .kConnected then .kDisconnecting else im.state m
    registered := by
      intro key m
      rw [im.registered]
      split_ifs with h
      · simp [h.2]
      · rfl }

/-- `TcpConnection::handleClose()` of an open connection: its state, and `OnClose`, which erases what
`m_mapclient` holds under the printed address. -/
def onClose (im : IMSer) (n : Nat) (hn : im.Live n) : IMSer :=
  { im with
    state := fun m => if m = n then .kDisconnected else im.state m
    mapclient := im.mapclient.erase (im.sessionid n)
    registered := by
      intro key m
      have hself : im.mapclient.get? (im.sessionid n) = some n := im.registered.2 ⟨hn.1, hn.2, rfl⟩
      rw [OrdMap.get?_erase]
      by_cases hm : m = n
      · subst hm
        rw [if_pos rfl]
        refine iff_of_false ?_ fun h => h.2.1 rfl
        split_ifs with hkey
        · exact fun h => by cases h
        · intro h
          exact hkey (im.registered.1 h).2.2
      · rw [if_neg hm]
        split_ifs with hkey
        · -- the key is the closed session's, and another session has another key
          refine iff_of_false (fun h => by cases h) fun h => hm ?_
          have hboth := im.registered.2 h
          rw [hkey, hself] at hboth
          exact (Option.some.inj hboth).symm
        · exact im.registered }

@[simp] theorem live_onConnection (addr : Nat) (hfree : im.Free addr) :
    (im.onConnection addr hfree).Live n ↔ n = im.fresh ∨ im.Live n := by
  unfold Live onConnection
  dsimp only
  by_cases hn : n = im.fresh
  · simp [hn]
  · simp only [hn, if_false, false_or]
    have hlt : n < im.fresh + 1 ↔ n < im.fresh := by omega
    rw [hlt]

@[simp] theorem live_shutdown (m : Nat) : (im.shutdown m).Live n ↔ im.Live n := by
  rw [← mem_values_iff, ← mem_values_iff]
  rfl

@[simp] theorem live_onClose (m : Nat) (hm : im.Live m) :
    (im.onClose m hm).Live n ↔ n ≠ m ∧ im.Live n := by
  unfold Live onClose
  by_cases hn : n = m <;> simp [hn]

end IMSer

end AimChat
