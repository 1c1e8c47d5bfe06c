import Mathlib.Data.Bool.Basic

/-! # Channels

A `Channel` is a descriptor and the events it asks for. `EPollPoller`, the default, keeps in the channel's
index whether the kernel watches the descriptor: the index says what the next update does. -/

namespace AimChat

namespace Net

/-- `kNew`, `kAdded`, `kDeleted` -/
inductive Index
  | kNew
  | kAdded
  | kDeleted
  deriving DecidableEq, Repr

/-- A `Channel`: `events_` as its two bits, and `index_`. -/
structure Channel where
  /-- `events_ & kReadEvent` -/
  reading : Bool
  /-- `events_ & kWriteEvent` -/
  writing : Bool
  index : Index
  deriving DecidableEq, Repr

/-- What the poller reports on a descriptor: `revents_`. -/
structure Revents where
  pollin : Bool := false
  pollpri : Bool := false
  pollrdhup : Bool := false
  pollout : Bool := false
  pollhup : Bool := false
  pollerr : Bool := false
  pollnval : Bool := false
  deriving DecidableEq, Repr

namespace Channel

/-- `Channel(loop, fd)` -/
def new : Channel := ⟨false, false, .kNew⟩

variable (ch : Channel)

/-- `isNoneEvent()` -/
def isNoneEvent : Bool := !ch.reading && !ch.writing

/-- `update()`, as `EPollPoller::updateChannel` does it: a descriptor that is not watched is added,
whatever its events, one that is watched is deleted when it asks for none. -/
def update : Channel :=
  match ch.index with
  | .kNew => { ch with index := .kAdded }
  | .kDeleted => { ch with index := .kAdded }
  | .kAdded => if ch.isNoneEvent then { ch with index := .kDeleted } else ch

/-- `enableReading()` -/
def enableReading : Channel := update { ch with reading := true }

/-- `disableReading()` -/
def disableReading : Channel := update { ch with reading := false }

/-- `enableWriting()` -/
def enableWriting : Channel := update { ch with writing := true }

/-- `if (!isWriting()) enableWriting();` -/
def ensureWriting : Channel := if ch.writing then ch else ch.enableWriting

/-- `disableWriting()` -/
def disableWriting : Channel := update { ch with writing := false }

/-- `disableAll()` -/
def disableAll : Channel := update { ch with reading := false, writing := false }

/-- `remove()`, whose `assert(isNoneEvent())` may fail. -/
def remove : Option Channel := if ch.isNoneEvent then some { ch with index := .kNew } else none

/-- The kernel watches the descriptor. -/
def Watched : Prop := ch.index = .kAdded

instance : Decidable ch.Watched := inferInstanceAs (Decidable (_ = _))

variable {ch}

@[simp] theorem update_reading : ch.update.reading = ch.reading := by
  unfold update
  cases ch.index with
  | kNew => rfl
  | kDeleted => rfl
  | kAdded =>
      dsimp only
      split_ifs <;> rfl

@[simp] theorem update_writing : ch.update.writing = ch.writing := by
  unfold update
  cases ch.index with
  | kNew => rfl
  | kDeleted => rfl
  | kAdded =>
      dsimp only
      split_ifs <;> rfl

@[simp] theorem enableReading_writing : ch.enableReading.writing = ch.writing := update_writing
@[simp] theorem disableReading_writing : ch.disableReading.writing = ch.writing := update_writing
@[simp] theorem enableWriting_writing : ch.enableWriting.writing = true := update_writing
@[simp] theorem ensureWriting_writing : ch.ensureWriting.writing = true := by
  unfold ensureWriting
  split_ifs with h
  · exact h
  · exact enableWriting_writing

@[simp] theorem disableWriting_writing : ch.disableWriting.writing = false := update_writing
@[simp] theorem disableAll_writing : ch.disableAll.writing = false := update_writing
@[simp] theorem disableAll_reading : ch.disableAll.reading = false := update_reading

end Channel

end Net

end AimChat
