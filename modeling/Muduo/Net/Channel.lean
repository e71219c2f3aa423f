/-
`Channel`, and what `EventLoop` and `EPollPoller` do with it.

A channel is the interest of one file descriptor in events.  The poller keeps a map of the
channels it knows, and in each channel an index that says whether epoll watches its
descriptor.  All of it is guarded by assertions, which are steps of the functions here.
-/
import Mathlib.Tactic

namespace Net

/-! ### What must not happen -/

inductive Fault where
  | assertion
  | useAfterFree
  | doubleFree
deriving DecidableEq

def assertThat (p : Prop) [Decidable p] : Except Fault Unit :=
  if p then .ok () else .error .assertion

theorem assertThat_of {p : Prop} [Decidable p] (hp : p) : assertThat p = .ok () := if_pos hp

theorem assertThat_of_not {p : Prop} [Decidable p] (hp : ¬p) :
    assertThat p = .error .assertion := if_neg hp

theorem assertThat_ok {p : Prop} [Decidable p] {r : Unit} (h : assertThat p = .ok r) : p := by
  by_contra hp
  rw [assertThat_of_not hp] at h
  cases h

/-! ### Channels -/

/-- `index_`, as `EPollPoller` uses it. -/
inductive Index where
  | kNew
  | kAdded
  | kDeleted
deriving DecidableEq

structure Channel where
  /-- `events_ & kReadEvent` -/
  reading : Bool
  /-- `events_ & kWriteEvent` -/
  writing : Bool
  index : Index
  /-- `channels_` of the poller has the channel. -/
  polled : Bool
deriving DecidableEq

/-- What `EventLoop::removeChannel` looks at. -/
structure Handling where
  eventHandling : Bool
  /-- `currentActiveChannel_ == channel` -/
  current : Bool
  /-- `activeChannels_` has the channel. -/
  active : Bool

namespace Channel

def init : Channel := ⟨false, false, .kNew, false⟩

def isNoneEvent (c : Channel) : Bool := !c.reading && !c.writing

def isWriting (c : Channel) : Bool := c.writing

/-- `EPollPoller::updateChannel` -/
def update (c : Channel) : Except Fault Channel :=
  match c.index with
  | .kNew => do
      assertThat (c.polled = false)
      return { c with polled := true, index := .kAdded }
  | .kDeleted => do
      assertThat (c.polled = true)
      return { c with index := .kAdded }
  | .kAdded => do
      assertThat (c.polled = true)
      if c.isNoneEvent then return { c with index := .kDeleted }
      return c

def enableReading (c : Channel) : Except Fault Channel := { c with reading := true }.update

def enableWriting (c : Channel) : Except Fault Channel := { c with writing := true }.update

def disableWriting (c : Channel) : Except Fault Channel := { c with writing := false }.update

def disableAll (c : Channel) : Except Fault Channel :=
  { c with reading := false, writing := false }.update

/-- `remove`, with `EventLoop::removeChannel` and `EPollPoller::removeChannel`. -/
def remove (c : Channel) (loop : Handling) : Except Fault Channel := do
  assertThat (c.isNoneEvent = true)
  if loop.eventHandling then
    assertThat (loop.current = true ∨ loop.active = false)
  assertThat (c.polled = true)
  assertThat (c.isNoneEvent = true)
  assertThat (c.index = .kAdded ∨ c.index = .kDeleted)
  return { c with polled := false, index := .kNew }

/-! ### The channels of a connection -/

/-- Epoll watches the descriptor for what there is to read, and perhaps for room to write. -/
def open_ (writing : Bool) : Channel := ⟨true, writing, .kAdded, true⟩

/-- The poller has the channel still, with no events. -/
def closed : Channel := ⟨false, false, .kDeleted, true⟩

@[simp] theorem enableReading_init : init.enableReading = .ok (open_ false) := rfl

@[simp] theorem enableWriting_open (w : Bool) : (open_ w).enableWriting = .ok (open_ true) := rfl

@[simp] theorem disableWriting_open (w : Bool) : (open_ w).disableWriting = .ok (open_ false) := rfl

@[simp] theorem disableAll_open (w : Bool) : (open_ w).disableAll = .ok closed := rfl

/-- A channel without events can be removed, unless its turn in the batch is past or still
to come. -/
theorem remove_closed {loop : Handling}
    (h : loop.eventHandling = true → loop.current = true ∨ loop.active = false) :
    closed.remove loop = .ok init := by
  obtain ⟨eventHandling, current, active⟩ := loop
  cases eventHandling with
  | false => rfl
  | true =>
      rcases h rfl with h | h
      · cases h
        rfl
      · cases h
        cases current <;> rfl

theorem remove_closed_not {loop : Handling}
    (h : ¬(loop.eventHandling = true → loop.current = true ∨ loop.active = false)) :
    closed.remove loop = .error .assertion := by
  obtain ⟨eventHandling, current, active⟩ := loop
  cases eventHandling <;> cases current <;> cases active <;> first | rfl | simp at h

/-- A channel that the poller does not know cannot be removed. -/
theorem remove_init (loop : Handling) : init.remove loop = .error .assertion := by
  obtain ⟨eventHandling, current, active⟩ := loop
  cases eventHandling <;> cases current <;> cases active <;> rfl

/-- A channel with events cannot be removed. -/
theorem remove_open (w : Bool) (loop : Handling) :
    (open_ w).remove loop = .error .assertion := rfl

end Channel

end Net
