import AimChat.Lib.IndexedTable
import AimChat.Lib.Run
import AimChat.Net.Channel

/-! # The two pollers

`PollPoller` keeps an array for `poll(2)` in which a channel knows its place, and takes a channel out by
moving the last one into the gap; `EPollPoller` keeps the kernel's interest list up to date. `Interest` is
what both are for: which descriptor asks for which events. Used in order, neither trips an assert, and they
wait for the same (`pollers_agree`). A channel is the one of its descriptor: a descriptor has one channel at
a time. -/

namespace AimChat

namespace Net

/-- `events_` of a channel. -/
structure Events where
  reading : Bool
  writing : Bool
  deriving DecidableEq, Repr

/-- `isNoneEvent()` -/
def Events.isNone (ev : Events) : Bool := !ev.reading && !ev.writing

def Channel.events (ch : Channel) : Events := ⟨ch.reading, ch.writing⟩

namespace Poller

/-- A call on a poller, through the channel of a descriptor. -/
inductive Call
  /-- A new channel. -/
  | create (fd : Nat)
  /-- The channel sets its events and calls `update()`. -/
  | update (fd : Nat) (ev : Events)
  /-- `remove()` -/
  | remove (fd : Nat)

/-! ## What a poller is for -/

/-- The life of the channel of a descriptor. -/
inductive Phase
  | gone
  | fresh
  /-- It asks for these events, and was updated again since the first time. -/
  | asks (ev : Events) (again : Bool)
  deriving DecidableEq

/-- What each descriptor asks for. -/
abbrev Interest := Nat → Phase

/-- A call out of order. -/
inductive Misuse
  | create
  | update
  | remove
  deriving DecidableEq, Repr

/-- One call, in order: a channel is removed when it asks for nothing any more, and is then gone. -/
def Interest.step (m : Interest) : Call → Except Misuse Interest
  | .create fd =>
      match m fd with
      | .asks _ _ => .error .create
      | .gone => .ok (Function.update m fd .fresh)
      | .fresh => .ok (Function.update m fd .fresh)
  | .update fd ev =>
      match m fd with
      | .gone => .error .update
      | .fresh => .ok (Function.update m fd (.asks ev false))
      | .asks _ _ => .ok (Function.update m fd (.asks ev true))
  | .remove fd =>
      match m fd with
      | .asks ev again => if ev.isNone && again then .ok (Function.update m fd .gone) else .error .remove
      | .gone => .error .remove
      | .fresh => .error .remove

/-- No channel yet. -/
def Interest.start : Interest := fun _ => .gone

/-- The assert that fails. -/
inductive Assert
  /-- `assert(!loop_->hasChannel(this))` of `~Channel` -/
  | hasChannel
  /-- `assert(channels_.find(fd) == channels_.end())` -/
  | found
  /-- `assert(channels_.find(fd) != channels_.end())` -/
  | notFound
  /-- `assert(0 <= idx && idx < pollfds_.size())` -/
  | index
  /-- The entry at the channel's place is not its own. -/
  | pollfd
  /-- `assert(isNoneEvent())` -/
  | isNoneEvent
  /-- `epoll_ctl` fails for `EPOLL_CTL_ADD` or `EPOLL_CTL_MOD`, which is fatal. -/
  | epollCtl
  deriving DecidableEq, Repr

end Poller

/-! ## `PollPoller` -/

/-- A channel of a `PollPoller`: its index is negative until it is in the array. -/
structure PollChannel where
  events : Events
  index : Option Nat

/-- A `pollfd`. -/
structure PollFd where
  fd : Int
  events : Events
  deriving DecidableEq, Repr

/-- The descriptor of an entry; `poll` ignores an entry with a negative one. -/
def PollFd.owner (pfd : PollFd) : Nat := if pfd.fd < 0 then (-pfd.fd - 1).toNat else pfd.fd.toNat

/-- The descriptor as it stands in an entry. -/
def PollFd.encode (fd : Nat) (ignored : Bool) : Int := if ignored then -(fd : Int) - 1 else fd

structure PollPoller where
  channel : Nat → PollChannel
  /-- The descriptors in `channels_`. -/
  channels : Nat → Bool
  pollfds : List PollFd

namespace PollPoller

open Poller

variable (p : PollPoller)

/-- `updateChannel(channel)` -/
def updateChannel (fd : Nat) : Except Assert PollPoller :=
  let ev := (p.channel fd).events
  match (p.channel fd).index with
  | none =>
      if p.channels fd then .error .found
      else
        .ok { channel := Function.update p.channel fd ⟨ev, some p.pollfds.length⟩
              channels := Function.update p.channels fd true
              pollfds := p.pollfds ++ [⟨fd, ev⟩] }
  | some idx =>
      if !p.channels fd then .error .notFound
      else
        match p.pollfds[idx]? with
        | none => .error .index
        | some pfd =>
            if pfd.fd = fd ∨ pfd.fd = -(fd : Int) - 1 then
              .ok { p with pollfds := p.pollfds.set idx ⟨PollFd.encode fd ev.isNone, ev⟩ }
            else .error .pollfd

/-- `removeChannel(channel)` -/
def removeChannel (fd : Nat) : Except Assert PollPoller :=
  let ev := (p.channel fd).events
  if !p.channels fd then .error .notFound
  else if !ev.isNone then .error .isNoneEvent
  else
    match (p.channel fd).index with
    | none => .error .index
    | some idx =>
        match p.pollfds[idx]?, p.pollfds[p.pollfds.length - 1]? with
        | some pfd, some back =>
            if pfd.fd = -(fd : Int) - 1 ∧ pfd.events = ev then
              let channels := Function.update p.channels fd false
              if idx = p.pollfds.length - 1 then
                .ok { p with channels := channels, pollfds := p.pollfds.dropLast }
              else
                let channelAtEnd := back.owner
                if channels channelAtEnd then
                  .ok { channel := Function.update p.channel channelAtEnd
                          { p.channel channelAtEnd with index := some idx }
                        channels := channels
                        pollfds := (p.pollfds.set idx back).dropLast }
                else .error .notFound
            else .error .pollfd
        | _, _ => .error .index

/-- One call. -/
def step : Call → Except Assert PollPoller
  | .create fd =>
      if p.channels fd then .error .hasChannel
      else .ok { p with channel := Function.update p.channel fd ⟨⟨false, false⟩, none⟩ }
  | .update fd ev =>
      updateChannel { p with channel := Function.update p.channel fd { p.channel fd with events := ev } } fd
  | .remove fd => p.removeChannel fd

/-- `fillActiveChannels(numEvents, activeChannels)`; beside each entry what `poll` wrote into its `revents`. -/
def fillActiveChannels : Nat → List (PollFd × Option Revents) → Except Assert (List (Nat × Revents))
  | 0, _ => .ok []
  | _, [] => .ok []
  | n + 1, (_, none) :: rest => fillActiveChannels (n + 1) rest
  | n + 1, (pfd, some revents) :: rest =>
      if 0 ≤ pfd.fd ∧ p.channels pfd.fd.toNat then
        (fillActiveChannels n rest).map fun active => (pfd.fd.toNat, revents) :: active
      else .error .notFound

/-- No channel yet. -/
def start : PollPoller where
  channel _ := ⟨⟨false, false⟩, none⟩
  channels _ := false
  pollfds := []

/-- `poll` waits for these events on the descriptor. -/
def Waits (fd : Nat) (ev : Events) : Prop := ⟨fd, ev⟩ ∈ p.pollfds

end PollPoller

/-! ## `EPollPoller` -/

structure EPollPoller where
  channel : Nat → Channel
  /-- The descriptors in `channels_`. -/
  channels : Nat → Bool
  /-- The interest list of the kernel. -/
  interest : Nat → Option Events
  /-- The descriptors that `EPOLL_CTL_DEL` was refused for, which is only logged. -/
  refused : List Nat

namespace EPollPoller

open Poller

/-- `EPOLL_CTL_ADD`, `EPOLL_CTL_MOD`, `EPOLL_CTL_DEL` -/
inductive Operation
  | add
  | mod
  | del

variable (p : EPollPoller)

/-- `update(operation, channel)` -/
def update (op : Operation) (fd : Nat) : Except Assert EPollPoller :=
  let ev := (p.channel fd).events
  match op, p.interest fd with
  | .add, none => .ok { p with interest := Function.update p.interest fd (some ev) }
  | .add, some _ => .error .epollCtl
  | .mod, none => .error .epollCtl
  | .mod, some _ => .ok { p with interest := Function.update p.interest fd (some ev) }
  | .del, none => .ok { p with refused := p.refused ++ [fd] }
  | .del, some _ => .ok { p with interest := Function.update p.interest fd none }

/-- `channel->set_index(index)` -/
def setIndex (fd : Nat) (index : Index) : EPollPoller :=
  { p with channel := Function.update p.channel fd { p.channel fd with index := index } }

/-- `updateChannel(channel)` -/
def updateChannel (fd : Nat) : Except Assert EPollPoller :=
  match (p.channel fd).index with
  | .kNew =>
      if p.channels fd then .error .found
      else (setIndex { p with channels := Function.update p.channels fd true } fd .kAdded).update .add fd
  | .kDeleted => if !p.channels fd then .error .notFound else (p.setIndex fd .kAdded).update .add fd
  | .kAdded =>
      if !p.channels fd then .error .notFound
      else if (p.channel fd).isNoneEvent then (p.update .del fd).map fun p => p.setIndex fd .kDeleted
      else p.update .mod fd

/-- `removeChannel(channel)` -/
def removeChannel (fd : Nat) : Except Assert EPollPoller :=
  if !p.channels fd then .error .notFound
  else if !(p.channel fd).isNoneEvent then .error .isNoneEvent
  else
    match (p.channel fd).index with
    | .kNew => .error .index
    | .kAdded =>
        (update { p with channels := Function.update p.channels fd false } .del fd).map fun p =>
          p.setIndex fd .kNew
    | .kDeleted => .ok (setIndex { p with channels := Function.update p.channels fd false } fd .kNew)

/-- One call. -/
def step : Call → Except Assert EPollPoller
  | .create fd =>
      if p.channels fd then .error .hasChannel
      else .ok { p with channel := Function.update p.channel fd .new }
  | .update fd ev =>
      updateChannel
        { p with
          channel := Function.update p.channel fd
            { p.channel fd with reading := ev.reading, writing := ev.writing } } fd
  | .remove fd => p.removeChannel fd

/-- No channel yet. -/
def start : EPollPoller where
  channel _ := .new
  channels _ := false
  interest _ := none
  refused := []

/-- `epoll_wait` waits for these events on the descriptor. -/
def Waits (fd : Nat) (ev : Events) : Prop := p.interest fd = some ev

end EPollPoller

/-! ## `PollPoller` is right -/

@[simp] theorem PollFd.owner_encode (fd : Nat) (ignored : Bool) (ev : Events) :
    PollFd.owner ⟨encode fd ignored, ev⟩ = fd := by
  cases ignored with
  | true =>
      have hneg : -(fd : Int) - 1 < 0 := by omega
      simp only [encode, owner, if_true, if_pos hneg]
      omega
  | false =>
      have hpos : ¬ (fd : Int) < 0 := by omega
      simp [encode, owner, hpos]

namespace PollPoller

open Poller

variable {p p' : PollPoller} {m m' : Interest}

/-- Where the channel of a descriptor stands, if it is in the array. -/
def place (p : PollPoller) (fd : Nat) : Option Nat := if p.channels fd then (p.channel fd).index else none

/-- The array and the channels agree with what the descriptors ask for. -/
structure Represents (p : PollPoller) (m : Interest) : Prop where
  inverse : IndexedTable.Inverse (p.pollfds.map PollFd.owner) p.place
  registered : ∀ fd, p.channels fd = true ↔ ∃ ev again, m fd = .asks ev again
  fresh : ∀ fd, m fd = .fresh → (p.channel fd).index = none
  asks : ∀ fd ev again, m fd = .asks ev again →
    (p.channel fd).events = ev ∧ ∃ idx, (p.channel fd).index = some idx ∧
      p.pollfds[idx]? = some ⟨PollFd.encode fd (ev.isNone && again), ev⟩

theorem represents_start : Represents start .start where
  inverse := IndexedTable.inverse_nil
  registered _ := iff_of_false Bool.false_ne_true (by simp [Interest.start])
  fresh _ _ := rfl
  asks _ _ _ h := nomatch h

theorem Represents.not_registered (h : p.Represents m) {fd : Nat} (hm : ∀ ev again, m fd ≠ .asks ev again) :
    p.channels fd = false := by
  rw [Bool.eq_false_iff, ne_eq, h.registered]
  exact fun ⟨ev, again, hasks⟩ => hm ev again hasks

/-- What one descriptor's call leaves of the others. -/
theorem registered_update {channels : Nat → Bool} {fd : Nat} {phase : Phase} {b : Bool}
    (h : ∀ k, channels k = true ↔ ∃ ev again, m k = .asks ev again)
    (hb : b = true ↔ ∃ ev again, phase = .asks ev again) (k : Nat) :
    Function.update channels fd b k = true ↔ ∃ ev again, Function.update m fd phase k = .asks ev again := by
  rcases eq_or_ne k fd with rfl | hne
  · rw [Function.update_self, Function.update_self, hb]
  · rw [Function.update_of_ne hne, Function.update_of_ne hne, h]

theorem registered_of_eq {channels : Nat → Bool} {fd : Nat} {phase : Phase}
    (h : ∀ k, channels k = true ↔ ∃ ev again, m k = .asks ev again)
    (hfd : channels fd = true ↔ ∃ ev again, phase = .asks ev again) (k : Nat) :
    channels k = true ↔ ∃ ev again, Function.update m fd phase k = .asks ev again := by
  have hk : Function.update channels fd (channels fd) k = true ↔
      ∃ ev again, Function.update m fd phase k = .asks ev again := registered_update h hfd k
  rwa [Function.update_eq_self] at hk

/-- A new channel on a descriptor that has none. -/
theorem Represents.create (h : p.Represents m) {fd : Nat} (hm : ∀ ev again, m fd ≠ .asks ev again) :
    ∃ p', p.step (.create fd) = .ok p' ∧ p'.Represents (Function.update m fd .fresh) := by
  have hchannels := h.not_registered hm
  refine ⟨{ p with channel := Function.update p.channel fd ⟨⟨false, false⟩, none⟩ }, ?_, ?_, ?_, ?_, ?_⟩
  · rw [step, hchannels, if_neg (by decide)]
  · have hplace : place { p with channel := Function.update p.channel fd ⟨⟨false, false⟩, none⟩ } = p.place := by
      funext k
      rcases eq_or_ne k fd with rfl | hne
      · simp [place, hchannels]
      · simp [place, Function.update_of_ne hne]
    rw [hplace]
    exact h.inverse
  · exact registered_of_eq h.registered (by simp [hchannels])
  · intro k hk
    rcases eq_or_ne k fd with rfl | hne
    · simp
    · rw [Function.update_of_ne hne] at hk
      simp only [Function.update_of_ne hne]
      exact h.fresh k hk
  · intro k ev again hk
    rcases eq_or_ne k fd with rfl | hne
    · rw [Function.update_self] at hk
      cases hk
    · rw [Function.update_of_ne hne] at hk
      simp only [Function.update_of_ne hne]
      exact h.asks k ev again hk

/-- The first update puts the channel at the end of the array. -/
theorem Represents.add (h : p.Represents m) {fd : Nat} (hm : m fd = .fresh) (ev : Events) :
    ∃ p', p.step (.update fd ev) = .ok p' ∧ p'.Represents (Function.update m fd (.asks ev false)) := by
  have hchannels : p.channels fd = false := h.not_registered (by simp [hm])
  have hindex := h.fresh fd hm
  refine ⟨{ channel := Function.update p.channel fd ⟨ev, some p.pollfds.length⟩
            channels := Function.update p.channels fd true
            pollfds := p.pollfds ++ [⟨fd, ev⟩] }, ?_, ?_, ?_, ?_, ?_⟩
  · simp [step, updateChannel, hindex, hchannels]
  · have hplace : place { channel := Function.update p.channel fd ⟨ev, some p.pollfds.length⟩
                          channels := Function.update p.channels fd true
                          pollfds := p.pollfds ++ [⟨fd, ev⟩] } =
        Function.update p.place fd (some (p.pollfds.map PollFd.owner).length) := by
      funext k
      rcases eq_or_ne k fd with rfl | hne
      · simp [place]
      · simp [place, Function.update_of_ne hne]
    have hnone : p.place fd = none := by simp [place, hchannels]
    have howner : PollFd.owner ⟨fd, ev⟩ = fd := PollFd.owner_encode fd false ev
    rw [hplace, List.map_append, List.map_singleton, howner]
    exact h.inverse.push hnone
  · exact registered_update h.registered (by simp)
  · intro k hk
    rcases eq_or_ne k fd with rfl | hne
    · rw [Function.update_self] at hk
      cases hk
    · rw [Function.update_of_ne hne] at hk
      simp only [Function.update_of_ne hne]
      exact h.fresh k hk
  · intro k ev' again hk
    rcases eq_or_ne k fd with rfl | hne
    · rw [Function.update_self] at hk
      cases hk
      simp only [Function.update_self]
      refine ⟨trivial, _, rfl, ?_⟩
      rw [List.getElem?_concat_length, Bool.and_false]
      rfl
    · rw [Function.update_of_ne hne] at hk
      obtain ⟨hev, idx, hidx, hentry⟩ := h.asks k ev' again hk
      simp only [Function.update_of_ne hne]
      refine ⟨hev, idx, hidx, ?_⟩
      rw [List.getElem?_append_left (List.getElem?_eq_some_iff.1 hentry).1, hentry]

/-- An entry replaced by one of the same descriptor. -/
theorem map_owner_set {pollfds : List PollFd} {idx : Nat} {pfd pfd' : PollFd} (hidx : pollfds[idx]? = some pfd)
    (howner : pfd'.owner = pfd.owner) : (pollfds.set idx pfd').map PollFd.owner = pollfds.map PollFd.owner := by
  refine List.ext_getElem? fun i => ?_
  rw [List.getElem?_map, List.getElem?_map, List.getElem?_set]
  split_ifs with hi hlt
  · subst hi
    rw [hidx, Option.map_some, Option.map_some, howner]
  · subst hi
    exact absurd (List.getElem?_eq_some_iff.1 hidx).1 hlt
  · rfl

/-- A later update changes the entry of the channel. -/
theorem Represents.modify (h : p.Represents m) {fd : Nat} {ev₀ : Events} {again₀ : Bool}
    (hm : m fd = .asks ev₀ again₀) (ev : Events) :
    ∃ p', p.step (.update fd ev) = .ok p' ∧ p'.Represents (Function.update m fd (.asks ev true)) := by
  have hchannels : p.channels fd = true := (h.registered fd).2 ⟨ev₀, again₀, hm⟩
  obtain ⟨-, idx, hindex, hentry⟩ := h.asks fd ev₀ again₀ hm
  have hlt := (List.getElem?_eq_some_iff.1 hentry).1
  have howns : PollFd.encode fd (ev₀.isNone && again₀) = fd ∨
      PollFd.encode fd (ev₀.isNone && again₀) = -(fd : Int) - 1 := by
    cases ev₀.isNone && again₀ with
    | true => exact .inr rfl
    | false => exact .inl rfl
  refine ⟨{ p with
            channel := Function.update p.channel fd { p.channel fd with events := ev }
            pollfds := p.pollfds.set idx ⟨PollFd.encode fd ev.isNone, ev⟩ }, ?_, ?_, ?_, ?_, ?_⟩
  · simp [step, updateChannel, hindex, hchannels, hentry, howns]
  · have hplace : place { p with
        channel := Function.update p.channel fd { p.channel fd with events := ev }
        pollfds := p.pollfds.set idx ⟨PollFd.encode fd ev.isNone, ev⟩ } = p.place := by
      funext k
      rcases eq_or_ne k fd with rfl | hne
      · simp [place]
      · simp [place, Function.update_of_ne hne]
    rw [hplace, map_owner_set hentry (by rw [PollFd.owner_encode, PollFd.owner_encode])]
    exact h.inverse
  · exact registered_of_eq h.registered (by simp [hchannels])
  · intro k hk
    rcases eq_or_ne k fd with rfl | hne
    · rw [Function.update_self] at hk
      cases hk
    · rw [Function.update_of_ne hne] at hk
      simp only [Function.update_of_ne hne]
      exact h.fresh k hk
  · intro k ev' again hk
    rcases eq_or_ne k fd with rfl | hne
    · rw [Function.update_self] at hk
      cases hk
      simp only [Function.update_self]
      refine ⟨trivial, idx, hindex, ?_⟩
      rw [List.getElem?_set_self hlt, Bool.and_true]
    · rw [Function.update_of_ne hne] at hk
      obtain ⟨hev, idx', hidx', hentry'⟩ := h.asks k ev' again hk
      simp only [Function.update_of_ne hne]
      refine ⟨hev, idx', hidx', ?_⟩
      -- two channels have two places
      have hidxne : idx ≠ idx' := by
        rintro rfl
        have heq := congrArg (Option.map PollFd.owner) (hentry.symm.trans hentry')
        rw [Option.map_some, Option.map_some, PollFd.owner_encode, PollFd.owner_encode, Option.some.injEq] at heq
        exact hne heq.symm
      rw [List.getElem?_set_ne hidxne, hentry']

/-- Where a channel that is in the array stands. -/
theorem Represents.place_eq (h : p.Represents m) {fd : Nat} {ev : Events} {again : Bool}
    (hm : m fd = .asks ev again) :
    ∃ idx, p.place fd = some idx ∧ (p.channel fd).index = some idx ∧
      p.pollfds[idx]? = some ⟨PollFd.encode fd (ev.isNone && again), ev⟩ := by
  obtain ⟨-, idx, hindex, hentry⟩ := h.asks fd ev again hm
  refine ⟨idx, ?_, hindex, hentry⟩
  rw [place, (h.registered fd).2 ⟨ev, again, hm⟩, if_pos rfl, hindex]

/-- What `removeChannel` does to a channel that asks for nothing any more. -/
theorem removeChannel_eq {fd idx : Nat} {ev : Events} {back : PollFd} (hchannels : p.channels fd = true)
    (hevents : (p.channel fd).events = ev) (hev : ev.isNone = true) (hindex : (p.channel fd).index = some idx)
    (hentry : p.pollfds[idx]? = some ⟨PollFd.encode fd true, ev⟩)
    (hback : p.pollfds[p.pollfds.length - 1]? = some back) :
    p.removeChannel fd =
      if idx = p.pollfds.length - 1 then
        .ok { p with channels := Function.update p.channels fd false, pollfds := p.pollfds.dropLast }
      else if Function.update p.channels fd false back.owner then
        .ok { channel := Function.update p.channel back.owner { p.channel back.owner with index := some idx }
              channels := Function.update p.channels fd false
              pollfds := (p.pollfds.set idx back).dropLast }
      else .error .notFound := by
  have hpfd : PollFd.encode fd true = -(fd : Int) - 1 := rfl
  unfold removeChannel
  simp only [hchannels, hevents, hev, hindex, hentry, hback, hpfd, Bool.not_true, Bool.false_eq_true, if_false,
    and_self, if_true]

/-- The other channels after one was taken out. -/
theorem asks_of_update_gone {fd k : Nat} {ev : Events} {again : Bool}
    (h : Function.update m fd .gone k = .asks ev again) : k ≠ fd ∧ m k = .asks ev again := by
  rcases eq_or_ne k fd with rfl | hne
  · rw [Function.update_self] at h
    cases h
  · rw [Function.update_of_ne hne] at h
    exact ⟨hne, h⟩

theorem fresh_of_update_gone {fd k : Nat} (h : Function.update m fd .gone k = .fresh) :
    k ≠ fd ∧ m k = .fresh := by
  rcases eq_or_ne k fd with rfl | hne
  · rw [Function.update_self] at h
    cases h
  · rw [Function.update_of_ne hne] at h
    exact ⟨hne, h⟩

/-- The channel at the end of the array is taken out. -/
theorem Represents.removeLast (h : p.Represents m) {fd idx : Nat} (hplace : p.place fd = some idx)
    (hlast : idx = p.pollfds.length - 1) :
    Represents { p with channels := Function.update p.channels fd false, pollfds := p.pollfds.dropLast }
      (Function.update m fd .gone) := by
  have hkeys : (p.pollfds.map PollFd.owner).length = p.pollfds.length := List.length_map _
  have hstands := (h.inverse fd idx).1 hplace
  refine ⟨?_, registered_update h.registered (by simp), fun k hk => ?_, fun k ev again hk => ?_⟩
  · have hnew : place { p with channels := Function.update p.channels fd false, pollfds := p.pollfds.dropLast } =
        Function.update p.place fd none := by
      funext k
      rcases eq_or_ne k fd with rfl | hne
      · simp [place]
      · simp [place, Function.update_of_ne hne]
    rw [hnew, List.map_dropLast]
    exact h.inverse.pop hplace (by rw [hkeys, hlast])
  · exact h.fresh k (fresh_of_update_gone hk).2
  · obtain ⟨hne, hm⟩ := asks_of_update_gone hk
    obtain ⟨idx', hplace', hindex', hentry'⟩ := h.place_eq hm
    refine ⟨(h.asks k ev again hm).1, idx', hindex', ?_⟩
    -- no other channel stands at the end
    have hidx : idx' ≠ idx := by
      rintro rfl
      exact hne (Option.some.inj (((h.inverse k idx').1 hplace').symm.trans hstands))
    have hlt := (List.getElem?_eq_some_iff.1 hentry').1
    rw [List.getElem?_dropLast, if_pos (by omega), hentry']

/-- The channel at the end is moved into the gap. -/
theorem Represents.removeSwap (h : p.Represents m) {fd idx : Nat} {back : PollFd}
    (hplace : p.place fd = some idx) (hlast : idx ≠ p.pollfds.length - 1)
    (hback : p.pollfds[p.pollfds.length - 1]? = some back) :
    Function.update p.channels fd false back.owner = true ∧
      Represents
        { channel := Function.update p.channel back.owner { p.channel back.owner with index := some idx }
          channels := Function.update p.channels fd false
          pollfds := (p.pollfds.set idx back).dropLast }
        (Function.update m fd .gone) := by
  have hkeys : (p.pollfds.map PollFd.owner).length = p.pollfds.length := List.length_map _
  have hstands := (h.inverse fd idx).1 hplace
  have hlt := h.inverse.lt_length hplace
  rw [hkeys] at hlt
  have howner : (p.pollfds.map PollFd.owner)[p.pollfds.length - 1]? = some back.owner := by
    rw [List.getElem?_map, hback, Option.map_some]
  have hback' : p.place back.owner = some (p.pollfds.length - 1) := (h.inverse _ _).2 howner
  have hne : back.owner ≠ fd := by
    intro heq
    rw [heq, hplace] at hback'
    exact hlast (Option.some.inj hback')
  have hregistered : p.channels back.owner = true := by
    by_contra hnot
    rw [place, if_neg hnot] at hback'
    cases hback'
  have hchannels : Function.update p.channels fd false back.owner = true := by
    rw [Function.update_of_ne hne, hregistered]
  refine ⟨hchannels, ?_, registered_update h.registered (by simp), fun k hk => ?_, fun k ev again hk => ?_⟩
  · have hnew : place
        { channel := Function.update p.channel back.owner { p.channel back.owner with index := some idx }
          channels := Function.update p.channels fd false
          pollfds := (p.pollfds.set idx back).dropLast } =
        Function.update (Function.update p.place fd none) back.owner (some idx) := by
      funext k
      rcases eq_or_ne k back.owner with rfl | hk
      · simp [place, hchannels]
      · rcases eq_or_ne k fd with rfl | hk'
        · simp [place, Function.update_of_ne hk]
        · simp [place, Function.update_of_ne hk, Function.update_of_ne hk']
    rw [hnew, List.map_dropLast, List.map_set]
    exact h.inverse.swapRemove hplace (by rwa [hkeys]) (by rwa [hkeys])
  · obtain ⟨-, hm⟩ := fresh_of_update_gone hk
    have hko : k ≠ back.owner := by
      rintro rfl
      obtain ⟨ev, again, hasks⟩ := (h.registered back.owner).1 hregistered
      rw [hm] at hasks
      cases hasks
    simp only [Function.update_of_ne hko]
    exact h.fresh k hm
  · obtain ⟨hkfd, hm⟩ := asks_of_update_gone hk
    obtain ⟨idx', hplace', hindex', hentry'⟩ := h.place_eq hm
    have hevents := (h.asks k ev again hm).1
    have hlt' := (List.getElem?_eq_some_iff.1 hentry').1
    rcases eq_or_ne k back.owner with rfl | hko
    · simp only [Function.update_self]
      refine ⟨hevents, idx, rfl, ?_⟩
      -- its entry is the one that was at the end
      rw [hback'] at hplace'
      cases hplace'
      rw [hback] at hentry'
      rw [List.getElem?_dropLast, List.length_set, if_pos (by omega), List.getElem?_set_self hlt, hentry']
    · simp only [Function.update_of_ne hko]
      refine ⟨hevents, idx', hindex', ?_⟩
      have hgap : idx ≠ idx' := by
        rintro rfl
        exact hkfd (Option.some.inj (((h.inverse k idx).1 hplace').symm.trans hstands))
      have hend : idx' ≠ p.pollfds.length - 1 := by
        rintro rfl
        exact hko (Option.some.inj (((h.inverse k _).1 hplace').symm.trans howner))
      rw [List.getElem?_dropLast, List.length_set, if_pos (by omega), List.getElem?_set_ne hgap, hentry']

/-- A channel that asks for nothing any more is taken out. -/
theorem Represents.remove (h : p.Represents m) {fd : Nat} {ev : Events} (hm : m fd = .asks ev true)
    (hev : ev.isNone = true) :
    ∃ p', p.step (.remove fd) = .ok p' ∧ p'.Represents (Function.update m fd .gone) := by
  have hchannels : p.channels fd = true := (h.registered fd).2 ⟨ev, true, hm⟩
  obtain ⟨idx, hplace, hindex, hentry⟩ := h.place_eq hm
  have hevents := (h.asks fd ev true hm).1
  rw [hev, Bool.and_true] at hentry
  have hlt := (List.getElem?_eq_some_iff.1 hentry).1
  obtain ⟨back, hback⟩ : ∃ back, p.pollfds[p.pollfds.length - 1]? = some back :=
    ⟨_, List.getElem?_eq_getElem (by omega)⟩
  rw [step, removeChannel_eq hchannels hevents hev hindex hentry hback]
  by_cases hlast : idx = p.pollfds.length - 1
  · rw [if_pos hlast]
    exact ⟨_, rfl, h.removeLast hplace hlast⟩
  · obtain ⟨hregistered, hrepresents⟩ := h.removeSwap hplace hlast hback
    rw [if_neg hlast, if_pos hregistered]
    exact ⟨_, rfl, hrepresents⟩

/-- **One call in order** goes through and leaves the array right. -/
theorem Represents.step (h : p.Represents m) {c : Call} (hm : m.step c = .ok m') :
    ∃ p', p.step c = .ok p' ∧ p'.Represents m' := by
  cases c with
  | create fd =>
      rw [Interest.step] at hm
      cases hphase : m fd with
      | asks ev again => rw [hphase] at hm; cases hm
      | gone => rw [hphase] at hm; cases hm; exact h.create (by simp [hphase])
      | fresh => rw [hphase] at hm; cases hm; exact h.create (by simp [hphase])
  | update fd ev =>
      rw [Interest.step] at hm
      cases hphase : m fd with
      | gone => rw [hphase] at hm; cases hm
      | fresh => rw [hphase] at hm; cases hm; exact h.add hphase ev
      | asks ev₀ again₀ => rw [hphase] at hm; cases hm; exact h.modify hphase ev
  | remove fd =>
      rw [Interest.step] at hm
      cases hphase : m fd with
      | gone => rw [hphase] at hm; cases hm
      | fresh => rw [hphase] at hm; cases hm
      | asks ev again =>
          rw [hphase] at hm
          dsimp only at hm
          split_ifs at hm with hdone
          cases hm
          rw [Bool.and_eq_true] at hdone
          rw [hdone.2] at hphase
          exact h.remove hphase hdone.1

/-- What `poll` waits for is what the descriptors ask for. -/
theorem Represents.waits_iff (h : p.Represents m) {fd : Nat} {ev : Events} (hev : ev.isNone = false) :
    p.Waits fd ev ↔ ∃ again, m fd = .asks ev again := by
  constructor
  · intro hmem
    obtain ⟨idx, hidx⟩ := List.mem_iff_getElem?.1 hmem
    have howner : PollFd.owner ⟨fd, ev⟩ = fd := PollFd.owner_encode fd false ev
    have hkey : (p.pollfds.map PollFd.owner)[idx]? = some fd := by
      rw [List.getElem?_map, hidx, Option.map_some, howner]
    have hplace := (h.inverse fd idx).2 hkey
    have hregistered : p.channels fd = true := by
      by_contra hnot
      rw [place, if_neg hnot] at hplace
      cases hplace
    obtain ⟨ev', again, hasks⟩ := (h.registered fd).1 hregistered
    obtain ⟨idx', hplace', -, hentry⟩ := h.place_eq hasks
    rw [hplace] at hplace'
    cases hplace'
    rw [hidx, Option.some.injEq, PollFd.mk.injEq] at hentry
    rw [hentry.2]
    exact ⟨again, hasks⟩
  · rintro ⟨again, hasks⟩
    obtain ⟨-, idx, -, hentry⟩ := h.asks fd ev again hasks
    rw [hev, Bool.false_and] at hentry
    exact List.mem_of_getElem? hentry

/-- What `poll` may write into the array: nothing into an entry with a negative descriptor. -/
def Reported (reports : List (PollFd × Option Revents)) : Prop :=
  ∀ pfd revents, (pfd, some revents) ∈ reports → 0 ≤ pfd.fd

/-- The channels that something was reported on, in the order of the array. -/
def active (reports : List (PollFd × Option Revents)) : List (Nat × Revents) :=
  reports.filterMap fun report => report.2.map fun revents => (report.1.owner, revents)

/-- **What is reported reaches its channel.** Every entry that something is reported on is that of a channel
in the map. -/
theorem Represents.fillActiveChannels (h : p.Represents m) {reports : List (PollFd × Option Revents)}
    (hentries : ∀ report ∈ reports, report.1 ∈ p.pollfds) (hreported : Reported reports) :
    p.fillActiveChannels (active reports).length reports = .ok (active reports) := by
  induction reports with
  | nil => rfl
  | cons report rest ih =>
      obtain ⟨pfd, revents⟩ := report
      have hrest := ih (fun report hreport => hentries report (List.mem_cons_of_mem _ hreport))
        fun pfd' revents' hmem => hreported pfd' revents' (List.mem_cons_of_mem _ hmem)
      cases revents with
      | none =>
          have hactive : active ((pfd, none) :: rest) = active rest := rfl
          rw [hactive]
          cases hlen : (active rest).length with
          | zero =>
              rw [List.eq_nil_of_length_eq_zero hlen]
              rfl
          | succ n =>
              rw [PollPoller.fillActiveChannels, ← hlen]
              exact hrest
      | some revents =>
          have hpos : 0 ≤ pfd.fd := hreported pfd revents List.mem_cons_self
          have howner : pfd.owner = pfd.fd.toNat := by
            rw [PollFd.owner, if_neg (by omega)]
          have hactive : active ((pfd, some revents) :: rest) = (pfd.owner, revents) :: active rest := rfl
          have hregistered : p.channels pfd.fd.toNat = true := by
            have hkey : pfd.owner ∈ p.pollfds.map PollFd.owner :=
              List.mem_map_of_mem (hentries (pfd, some revents) List.mem_cons_self)
            have hplace := h.inverse.mem_iff.1 hkey
            by_contra hnot
            rw [howner, place, if_neg hnot] at hplace
            exact hplace rfl
          rw [hactive, List.length_cons, PollPoller.fillActiveChannels, if_pos ⟨hpos, hregistered⟩, hrest, howner]
          rfl

end PollPoller

/-! ## `EPollPoller` is right -/

namespace EPollPoller

open Poller

variable {p p' : EPollPoller} {m m' : Interest}

/-- The kernel's interest list and the channels agree with what the descriptors ask for. -/
structure Represents (p : EPollPoller) (m : Interest) : Prop where
  unused : ∀ fd, (∀ ev again, m fd ≠ .asks ev again) →
    p.channels fd = false ∧ (p.channel fd).index = .kNew ∧ p.interest fd = none
  asks : ∀ fd ev again, m fd = .asks ev again →
    p.channels fd = true ∧ (p.channel fd).events = ev ∧
      ((p.channel fd).index = .kAdded ∧ p.interest fd = some ev ∨
        (p.channel fd).index = .kDeleted ∧ ev.isNone = true ∧ p.interest fd = none)
  refused : p.refused = []

theorem represents_start : Represents start .start where
  unused _ _ := ⟨rfl, rfl, rfl⟩
  asks _ _ _ h := nomatch h
  refused := rfl

/-- A call on one descriptor, that leaves the others as they are. -/
theorem Represents.of_eq (h : p.Represents m) {fd : Nat} {phase : Phase}
    (hchannel : ∀ k ≠ fd, p'.channel k = p.channel k) (hchannels : ∀ k ≠ fd, p'.channels k = p.channels k)
    (hinterest : ∀ k ≠ fd, p'.interest k = p.interest k) (hrefused : p'.refused = p.refused)
    (hunused : (∀ ev again, phase ≠ .asks ev again) →
      p'.channels fd = false ∧ (p'.channel fd).index = .kNew ∧ p'.interest fd = none)
    (hasks : ∀ ev again, phase = .asks ev again →
      p'.channels fd = true ∧ (p'.channel fd).events = ev ∧
        ((p'.channel fd).index = .kAdded ∧ p'.interest fd = some ev ∨
          (p'.channel fd).index = .kDeleted ∧ ev.isNone = true ∧ p'.interest fd = none)) :
    p'.Represents (Function.update m fd phase) where
  unused k hk := by
    rcases eq_or_ne k fd with rfl | hne
    · rw [Function.update_self] at hk
      exact hunused hk
    · rw [Function.update_of_ne hne] at hk
      rw [hchannel k hne, hchannels k hne, hinterest k hne]
      exact h.unused k hk
  asks k ev again hk := by
    rcases eq_or_ne k fd with rfl | hne
    · rw [Function.update_self] at hk
      exact hasks ev again hk
    · rw [Function.update_of_ne hne] at hk
      rw [hchannel k hne, hchannels k hne, hinterest k hne]
      exact h.asks k ev again hk
  refused := hrefused.trans h.refused

/-- A new channel on a descriptor that has none. -/
theorem Represents.create (h : p.Represents m) {fd : Nat} (hm : ∀ ev again, m fd ≠ .asks ev again) :
    ∃ p', p.step (.create fd) = .ok p' ∧ p'.Represents (Function.update m fd .fresh) := by
  obtain ⟨hchannels, -, hinterest⟩ := h.unused fd hm
  refine ⟨{ p with channel := Function.update p.channel fd .new }, ?_, ?_⟩
  · rw [step, hchannels, if_neg (by decide)]
  · refine h.of_eq (fun k hk => Function.update_of_ne hk _ _) (fun _ _ => rfl) (fun _ _ => rfl) rfl
      (fun _ => ⟨hchannels, ?_, hinterest⟩) (fun _ _ hasks => nomatch hasks)
    simp [Channel.new]

/-- The poller after an update. -/
def updated (p : EPollPoller) (fd : Nat) (ev : Events) (index : Index) (interest : Option Events) :
    EPollPoller where
  channel := Function.update p.channel fd ⟨ev.reading, ev.writing, index⟩
  channels := Function.update p.channels fd true
  interest := Function.update p.interest fd interest
  refused := p.refused

/-- A channel that the kernel does not watch is added, whatever it asks for. -/
theorem step_update_add {fd : Nat} (ev : Events) (hinterest : p.interest fd = none)
    (hindex : (p.channel fd).index = .kNew ∧ p.channels fd = false ∨
      (p.channel fd).index = .kDeleted ∧ p.channels fd = true) :
    p.step (.update fd ev) = .ok (p.updated fd ev .kAdded (some ev)) := by
  rcases hindex with ⟨hindex, hchannels⟩ | ⟨hindex, hchannels⟩
  · simp [step, updateChannel, hindex, hchannels, setIndex, EPollPoller.update, hinterest, Channel.events, updated]
  · have hsame : Function.update p.channels fd true = p.channels := by
      rw [← hchannels, Function.update_eq_self]
    simp [step, updateChannel, hindex, hchannels, setIndex, EPollPoller.update, hinterest, Channel.events, updated,
      hsame]

/-- A channel that the kernel watches is changed, or deleted when it asks for nothing. -/
theorem step_update_added {fd : Nat} (ev : Events) {ev₀ : Events} (hinterest : p.interest fd = some ev₀)
    (hindex : (p.channel fd).index = .kAdded) (hchannels : p.channels fd = true) :
    p.step (.update fd ev) =
      .ok (if ev.isNone then p.updated fd ev .kDeleted none else p.updated fd ev .kAdded (some ev)) := by
  have hsame : Function.update p.channels fd true = p.channels := by
    rw [← hchannels, Function.update_eq_self]
  have hnone : Channel.isNoneEvent ⟨ev.reading, ev.writing, .kAdded⟩ = ev.isNone := rfl
  cases hev : ev.isNone with
  | true =>
      simp [step, updateChannel, hindex, hchannels, setIndex, EPollPoller.update, hinterest, updated, hsame,
        hnone, hev, Except.map]
  | false =>
      simp [step, updateChannel, hindex, hchannels, EPollPoller.update, hinterest, Channel.events, updated,
        hsame, hnone, hev]

theorem Represents.updated (h : p.Represents m) {fd : Nat} {ev : Events} {index : Index}
    {interest : Option Events} (again : Bool)
    (hend : index = .kAdded ∧ interest = some ev ∨ index = .kDeleted ∧ ev.isNone = true ∧ interest = none) :
    (p.updated fd ev index interest).Represents (Function.update m fd (.asks ev again)) := by
  refine h.of_eq (fun k hk => Function.update_of_ne hk _ _) (fun k hk => Function.update_of_ne hk _ _)
    (fun k hk => Function.update_of_ne hk _ _) rfl (fun hnot => absurd rfl (hnot ev again)) ?_
  intro ev' again' heq
  cases heq
  simp only [EPollPoller.updated, Function.update_self]
  exact ⟨trivial, rfl, hend⟩

/-- An update puts what the channel asks for into the interest list, or takes it out. -/
theorem Represents.update (h : p.Represents m) {fd : Nat} (ev : Events) (again : Bool)
    (hm : m fd = .fresh ∨ ∃ ev₀ again₀, m fd = .asks ev₀ again₀) :
    ∃ p', p.step (.update fd ev) = .ok p' ∧ p'.Represents (Function.update m fd (.asks ev again)) := by
  rcases hm with hfresh | ⟨ev₀, again₀, hasks⟩
  · obtain ⟨hchannels, hindex, hinterest⟩ := h.unused fd (by simp [hfresh])
    exact ⟨_, step_update_add ev hinterest (.inl ⟨hindex, hchannels⟩), h.updated again (.inl ⟨rfl, rfl⟩)⟩
  · obtain ⟨hchannels, -, ⟨hindex, hinterest⟩ | ⟨hindex, -, hinterest⟩⟩ := h.asks fd ev₀ again₀ hasks
    · refine ⟨_, step_update_added ev hinterest hindex hchannels, ?_⟩
      split_ifs with hev
      · exact h.updated again (.inr ⟨rfl, hev, rfl⟩)
      · exact h.updated again (.inl ⟨rfl, rfl⟩)
    · exact ⟨_, step_update_add ev hinterest (.inr ⟨hindex, hchannels⟩), h.updated again (.inl ⟨rfl, rfl⟩)⟩

/-- A channel that asks for nothing any more is taken out, also where the kernel was told to watch it for
nothing. -/
theorem Represents.remove (h : p.Represents m) {fd : Nat} {ev : Events} {again : Bool}
    (hm : m fd = .asks ev again) (hev : ev.isNone = true) :
    ∃ p', p.step (.remove fd) = .ok p' ∧ p'.Represents (Function.update m fd .gone) := by
  obtain ⟨hchannels, hevents, hindex⟩ := h.asks fd ev again hm
  have hnone : (p.channel fd).isNoneEvent = true := by
    rw [← hev, ← hevents]
    rfl
  have hinterest : p.interest fd = none → Function.update p.interest fd none = p.interest := fun hnone' => by
    rw [← hnone', Function.update_eq_self]
  refine ⟨{ channel := Function.update p.channel fd { p.channel fd with index := .kNew }
            channels := Function.update p.channels fd false
            interest := Function.update p.interest fd none
            refused := p.refused }, ?_, ?_⟩
  · rcases hindex with ⟨hindex, hwatched⟩ | ⟨hindex, -, hwatched⟩
    · simp [step, removeChannel, hchannels, hnone, hindex, EPollPoller.update, hwatched, setIndex, Except.map]
    · simp [step, removeChannel, hchannels, hnone, hindex, setIndex, hinterest hwatched]
  · refine h.of_eq (fun k hk => Function.update_of_ne hk _ _) (fun k hk => Function.update_of_ne hk _ _)
      (fun k hk => Function.update_of_ne hk _ _) rfl (fun _ => ?_) (fun _ _ hasks => nomatch hasks)
    simp

/-- **One call in order** goes through and leaves the interest list right. -/
theorem Represents.step (h : p.Represents m) {c : Call} (hm : m.step c = .ok m') :
    ∃ p', p.step c = .ok p' ∧ p'.Represents m' := by
  cases c with
  | create fd =>
      rw [Interest.step] at hm
      cases hphase : m fd with
      | asks ev again => rw [hphase] at hm; cases hm
      | gone => rw [hphase] at hm; cases hm; exact h.create (by simp [hphase])
      | fresh => rw [hphase] at hm; cases hm; exact h.create (by simp [hphase])
  | update fd ev =>
      rw [Interest.step] at hm
      cases hphase : m fd with
      | gone => rw [hphase] at hm; cases hm
      | fresh => rw [hphase] at hm; cases hm; exact h.update ev false (.inl hphase)
      | asks ev₀ again₀ => rw [hphase] at hm; cases hm; exact h.update ev true (.inr ⟨ev₀, again₀, hphase⟩)
  | remove fd =>
      rw [Interest.step] at hm
      cases hphase : m fd with
      | gone => rw [hphase] at hm; cases hm
      | fresh => rw [hphase] at hm; cases hm
      | asks ev again =>
          rw [hphase] at hm
          dsimp only at hm
          split_ifs at hm with hdone
          cases hm
          rw [Bool.and_eq_true] at hdone
          exact h.remove hphase hdone.1

/-- What `epoll_wait` waits for is what the descriptors ask for. -/
theorem Represents.waits_iff (h : p.Represents m) {fd : Nat} {ev : Events} (hev : ev.isNone = false) :
    p.Waits fd ev ↔ ∃ again, m fd = .asks ev again := by
  constructor
  · intro hwaits
    by_cases hm : ∃ ev' again, m fd = .asks ev' again
    · obtain ⟨ev', again, hasks⟩ := hm
      rcases (h.asks fd ev' again hasks).2.2 with ⟨-, hinterest⟩ | ⟨-, -, hinterest⟩
      · rw [Waits, hinterest] at hwaits
        cases hwaits
        exact ⟨again, hasks⟩
      · rw [Waits, hinterest] at hwaits
        cases hwaits
    · have hnone := (h.unused fd fun ev' again hasks => hm ⟨ev', again, hasks⟩).2.2
      rw [Waits, hnone] at hwaits
      cases hwaits
  · rintro ⟨again, hasks⟩
    rcases (h.asks fd ev again hasks).2.2 with ⟨-, hinterest⟩ | ⟨-, hnone, -⟩
    · exact hinterest
    · rw [hev] at hnone
      cases hnone

end EPollPoller

namespace Poller

/-- Both pollers go through a run in order. -/
theorem represents_of_run {m m' : Interest} {p : PollPoller} {e : EPollPoller} {calls : List Call}
    (hp : p.Represents m) (he : e.Represents m) (hrun : Run.run Interest.step m calls = .ok m') :
    ∃ p' e', Run.run PollPoller.step p calls = .ok p' ∧ Run.run EPollPoller.step e calls = .ok e' ∧
      p'.Represents m' ∧ e'.Represents m' := by
  induction calls generalizing m p e with
  | nil =>
      cases hrun
      exact ⟨p, e, rfl, rfl, hp, he⟩
  | cons c calls ih =>
      obtain ⟨m₁, hstep, hrest⟩ := Run.run_cons_eq_ok.1 hrun
      obtain ⟨p₁, hpstep, hp₁⟩ := hp.step hstep
      obtain ⟨e₁, hestep, he₁⟩ := he.step hstep
      obtain ⟨p', e', hprun, herun, hp', he'⟩ := ih hp₁ he₁ hrest
      exact ⟨p', e', Run.run_cons_eq_ok.2 ⟨p₁, hpstep, hprun⟩, Run.run_cons_eq_ok.2 ⟨e₁, hestep, herun⟩, hp', he'⟩

/-- **The two pollers wait for the same.** In every run in which channels are used in order, whatever the order
across channels: neither poller trips an assert and `epoll_ctl` never fails; `poll` and `epoll_wait` wait for
the same events on the same descriptors, which are those their channels ask for; and everything `poll`
reports reaches the channel it is about. -/
theorem pollers_agree (calls : List Call) (m : Interest)
    (hrun : Run.run Interest.step .start calls = .ok m) :
    ∃ p e, Run.run PollPoller.step .start calls = .ok p ∧ Run.run EPollPoller.step .start calls = .ok e ∧
      e.refused = [] ∧
      (∀ fd ev, ev.isNone = false →
        (p.Waits fd ev ↔ ∃ again, m fd = .asks ev again) ∧ (p.Waits fd ev ↔ e.Waits fd ev)) ∧
      ∀ reports, (∀ report ∈ reports, report.1 ∈ p.pollfds) → PollPoller.Reported reports →
        p.fillActiveChannels (PollPoller.active reports).length reports = .ok (PollPoller.active reports) := by
  obtain ⟨p, e, hp, he, hprep, herep⟩ :=
    represents_of_run PollPoller.represents_start EPollPoller.represents_start hrun
  refine ⟨p, e, hp, he, herep.refused, fun fd ev hev => ⟨hprep.waits_iff hev, ?_⟩, fun reports hentries hreported =>
    hprep.fillActiveChannels hentries hreported⟩
  rw [hprep.waits_iff hev, herep.waits_iff hev]

/-- Three channels, of which the first is taken out and a fourth takes its descriptor. -/
theorem pollers_agree_three :
    let both : Events := ⟨true, true⟩
    let none : Events := ⟨false, false⟩
    let calls : List Call := [.create 5, .update 5 both, .create 7, .update 7 both, .create 9, .update 9 both,
      .update 5 none, .remove 5, .create 5, .update 5 both]
    ∃ m, Run.run Interest.step .start calls = .ok m ∧
      ∃ p e, Run.run PollPoller.step .start calls = .ok p ∧ Run.run EPollPoller.step .start calls = .ok e ∧
        e.refused = [] ∧
        (∀ fd ev, ev.isNone = false →
          (p.Waits fd ev ↔ ∃ again, m fd = .asks ev again) ∧ (p.Waits fd ev ↔ e.Waits fd ev)) ∧
        ∀ reports, (∀ report ∈ reports, report.1 ∈ p.pollfds) → PollPoller.Reported reports →
          p.fillActiveChannels (PollPoller.active reports).length reports =
            .ok (PollPoller.active reports) := by
  intro both none calls
  exact ⟨_, rfl, pollers_agree calls _ rfl⟩

/-- They differ on a channel that asks for nothing twice: the kernel is then told to watch it for nothing,
and `poll` still ignores it. -/
example :
    (Run.run EPollPoller.step .start
        [.create 5, .update 5 ⟨true, false⟩, .update 5 ⟨false, false⟩, .update 5 ⟨false, false⟩]).toOption.map
      (fun e => e.interest 5) = some (some ⟨false, false⟩) ∧
    (Run.run PollPoller.step .start
        [.create 5, .update 5 ⟨true, false⟩, .update 5 ⟨false, false⟩, .update 5 ⟨false, false⟩]).toOption.map
      PollPoller.pollfds = some [⟨-6, ⟨false, false⟩⟩] := ⟨rfl, rfl⟩

end Poller

end Net

end AimChat
