/-
`PollPoller` and `EPollPoller`, with the kernel they ask.

Both keep a map from descriptors to channels and an index in each channel, and mean different
things by the index: a position in the array that `poll` is given, or whether the kernel's
interest set has the descriptor.  A channel has a descriptor for life, and channels have
different ones.
-/
import Muduo.Lib.Runs
import Muduo.Net.Channel

namespace Net

open Lib

/-! ### What channels ask for -/

/-- An event mask, `events_`. -/
abbrev Events := UInt32

def Events.kNoneEvent : Events := 0

/-- `POLLIN | POLLPRI` -/
def Events.kReadEvent : Events := 3

/-- `POLLOUT` -/
def Events.kWriteEvent : Events := 4

/-- The operations of a channel. -/
inductive ChannelOp (C : Type) where
  | enableReading (c : C)
  | enableWriting (c : C)
  | disableWriting (c : C)
  | disableAll (c : C)
  | remove (c : C)

/-- What a channel asks of its poller. -/
inductive PollerOp (C : Type) where
  /-- `updateChannel`, with these events. -/
  | update (c : C) (events : Events)
  /-- `removeChannel` -/
  | remove (c : C)

/-- The request that an operation makes, from the events the channel has. -/
def ChannelOp.request {C : Type} (events : C → Events) : ChannelOp C → PollerOp C
  | enableReading c => .update c (events c ||| Events.kReadEvent)
  | enableWriting c => .update c (events c ||| Events.kWriteEvent)
  | disableWriting c => .update c (events c &&& ~~~Events.kWriteEvent)
  | disableAll c => .update c Events.kNoneEvent
  | remove c => .remove c

/-- The descriptors of the channels. -/
structure Fds (C : Type) where
  fd : C → Nat
  distinct : Function.Injective fd

variable {C : Type} [DecidableEq C]

/-! ### EPollPoller -/

namespace EPollPoller

def kNew : Int := -1

def kAdded : Int := 1

def kDeleted : Int := 2

inductive CtlOp where
  | EPOLL_CTL_ADD
  | EPOLL_CTL_MOD
  | EPOLL_CTL_DEL
deriving DecidableEq

end EPollPoller

structure EPollPoller (C : Type) where
  events : C → Events
  index : C → Int
  /-- `channels_` -/
  channels : Nat → Option C
  /-- The interest set of the kernel: the events and the `data.ptr` of each descriptor. -/
  interest : Nat → Option (Events × C)
  /-- How many calls of `epoll_ctl` have failed. -/
  failed : Nat

namespace EPollPoller

def init : EPollPoller C := ⟨fun _ => 0, fun _ => kNew, fun _ => none, fun _ => none, 0⟩

variable (F : Fds C)

/-- `epoll_ctl`, which fails for a descriptor that is there already or is not there. -/
def epollCtl (interest : Nat → Option (Events × C)) (operation : CtlOp) (fd : Nat)
    (event : Events × C) : Option (Nat → Option (Events × C)) :=
  match operation, interest fd with
  | .EPOLL_CTL_ADD, none => some (Function.update interest fd (some event))
  | .EPOLL_CTL_MOD, some _ => some (Function.update interest fd (some event))
  | .EPOLL_CTL_DEL, some _ => some (Function.update interest fd none)
  | _, _ => none

/-- `update`: a failed `EPOLL_CTL_DEL` is logged, any other is fatal. -/
def update (p : EPollPoller C) (operation : CtlOp) (c : C) : Except Fault (EPollPoller C) :=
  match epollCtl p.interest operation (F.fd c) (p.events c, c) with
  | some interest => .ok { p with interest := interest }
  | none =>
      if operation = .EPOLL_CTL_DEL then .ok { p with failed := p.failed + 1 }
      else .error .assertion

def setIndex (p : EPollPoller C) (c : C) (index : Int) : EPollPoller C :=
  { p with index := Function.update p.index c index }

def updateChannel (p : EPollPoller C) (c : C) : Except Fault (EPollPoller C) :=
  if p.index c = kNew ∨ p.index c = kDeleted then do
    if p.index c = kNew then
      assertThat (p.channels (F.fd c) = none)
      let p := { p with channels := Function.update p.channels (F.fd c) (some c) }
      (p.setIndex c kAdded).update F .EPOLL_CTL_ADD c
    else
      assertThat (p.channels (F.fd c) ≠ none)
      assertThat (p.channels (F.fd c) = some c)
      (p.setIndex c kAdded).update F .EPOLL_CTL_ADD c
  else do
    assertThat (p.channels (F.fd c) ≠ none)
    assertThat (p.channels (F.fd c) = some c)
    assertThat (p.index c = kAdded)
    if p.events c = 0 then
      let p ← p.update F .EPOLL_CTL_DEL c
      return p.setIndex c kDeleted
    else p.update F .EPOLL_CTL_MOD c

def removeChannel (p : EPollPoller C) (c : C) : Except Fault (EPollPoller C) := do
  assertThat (p.channels (F.fd c) ≠ none)
  assertThat (p.channels (F.fd c) = some c)
  assertThat (p.events c = 0)
  assertThat (p.index c = kAdded ∨ p.index c = kDeleted)
  let index := p.index c
  let p := { p with channels := Function.update p.channels (F.fd c) none }
  let p ← if index = kAdded then p.update F .EPOLL_CTL_DEL c else .ok p
  return p.setIndex c kNew

def step : PollerOp C → EPollPoller C → Except Fault (EPollPoller C)
  | .update c events, p => { p with events := Function.update p.events c events }.updateChannel F c
  | .remove c, p => p.removeChannel F c

/-- `fillActiveChannels`, for what `epoll_wait` has returned: the pointers and their events. -/
def fillActiveChannels (p : EPollPoller C) : List (C × Events) → Except Fault (List (C × Events))
  | [] => .ok []
  | (channel, revents) :: rest => do
      assertThat (p.channels (F.fd channel) ≠ none)
      assertThat (p.channels (F.fd channel) = some channel)
      let active ← p.fillActiveChannels rest
      return (channel, revents) :: active

/-- What the kernel watches. -/
def monitored (p : EPollPoller C) : Set (Nat × Events) :=
  {x | ∃ c, p.interest x.1 = some (x.2, c) ∧ x.2 ≠ 0}

end EPollPoller

/-! ### PollPoller -/

/-- `struct pollfd` -/
structure PollFd where
  fd : Int
  events : UInt16
deriving DecidableEq

structure PollPoller (C : Type) where
  events : C → Events
  index : C → Int
  channels : Nat → Option C
  pollfds : List PollFd

namespace PollPoller

def init : PollPoller C := ⟨fun _ => 0, fun _ => -1, fun _ => none, []⟩

variable (F : Fds C)

/-- The number that stands for a descriptor that is to be ignored. -/
def ignored (fd : Nat) : Int := -(fd : Int) - 1

def updateChannel (p : PollPoller C) (c : C) : Except Fault (PollPoller C) :=
  if p.index c < 0 then do
    assertThat (p.channels (F.fd c) = none)
    let pollfds := p.pollfds ++ [⟨F.fd c, (p.events c).toUInt16⟩]
    let idx : Int := pollfds.length - 1
    return { p with
      pollfds := pollfds
      index := Function.update p.index c idx
      channels := Function.update p.channels (F.fd c) (some c) }
  else do
    assertThat (p.channels (F.fd c) ≠ none)
    assertThat (p.channels (F.fd c) = some c)
    let idx := p.index c
    assertThat (0 ≤ idx ∧ idx < p.pollfds.length)
    match p.pollfds[idx.toNat]? with
    | none => throw .assertion
    | some pfd =>
        assertThat (pfd.fd = F.fd c ∨ pfd.fd = ignored (F.fd c))
        let pfd := { pfd with events := (p.events c).toUInt16 }
        -- the descriptor of an entry that was ignored is not set again
        let pfd := if p.events c = 0 then { pfd with fd := ignored (F.fd c) } else pfd
        return { p with pollfds := p.pollfds.set idx.toNat pfd }

def removeChannel (p : PollPoller C) (c : C) : Except Fault (PollPoller C) := do
  assertThat (p.channels (F.fd c) ≠ none)
  assertThat (p.channels (F.fd c) = some c)
  assertThat (p.events c = 0)
  let idx := p.index c
  assertThat (0 ≤ idx ∧ idx < p.pollfds.length)
  match p.pollfds[idx.toNat]?, p.pollfds.getLast? with
  | some pfd, some back =>
      assertThat (pfd.fd = ignored (F.fd c) ∧ pfd.events = (p.events c).toUInt16)
      let channels := Function.update p.channels (F.fd c) none
      if idx = p.pollfds.length - 1 then
        return { p with channels := channels, pollfds := p.pollfds.dropLast }
      else
        let channelAtEnd := if back.fd < 0 then -back.fd - 1 else back.fd
        match channels channelAtEnd.toNat with
        | none => throw .useAfterFree
        | some c' =>
            return { p with
              channels := channels
              index := Function.update p.index c' idx
              pollfds := (p.pollfds.set idx.toNat back).dropLast }
  | _, _ => throw .assertion

def step : PollerOp C → PollPoller C → Except Fault (PollPoller C)
  | .update c events, p => { p with events := Function.update p.events c events }.updateChannel F c
  | .remove c, p => p.removeChannel F c

/-- What the kernel watches. -/
def monitored (p : PollPoller C) : Set (Nat × Events) :=
  {x | ∃ pfd ∈ p.pollfds, pfd.fd = x.1 ∧ pfd.events.toUInt32 = x.2}

end PollPoller

/-! ### What a poller is for -/

/-- A channel in the eyes of its users. -/
inductive Registration where
  /-- It has never been used. -/
  | fresh
  /-- The poller knows it, with these events. -/
  | known (events : Events)
  /-- It has been removed. -/
  | removed
deriving DecidableEq

namespace Registration

/-- `events_` of the channel. -/
def events : Registration → Events
  | known e => e
  | _ => 0

end Registration

/-- The channels with their registrations. -/
abbrev Registry (C : Type) := C → Registration

namespace Registry

def init : Registry C := fun _ => .fresh

def step : PollerOp C → Registry C → Registry C
  | .update c events, r => Function.update r c (.known events)
  | .remove c, r => Function.update r c .removed

/-- The channels with events. -/
def monitored (F : Fds C) (r : Registry C) : Set (Nat × Events) :=
  {x | ∃ c, F.fd c = x.1 ∧ r c = .known x.2 ∧ x.2 ≠ 0}

end Registry

/-- Both pollers on the same channels. -/
structure BothPollers (C : Type) where
  poll : PollPoller C
  epoll : EPollPoller C
  registry : Registry C

namespace BothPollers

def init : BothPollers C := ⟨.init, .init, .init⟩

def step (F : Fds C) (op : ChannelOp C) (s : BothPollers C) : Except Fault (BothPollers C) := do
  let poll ← s.poll.step F (op.request s.poll.events)
  let epoll ← s.epoll.step F (op.request s.epoll.events)
  return ⟨poll, epoll, s.registry.step (op.request fun c => (s.registry c).events)⟩

/-- Both kernels watch the channels with events. -/
def Agree (F : Fds C) (s : BothPollers C) : Prop :=
  s.poll.monitored = s.registry.monitored F ∧ s.epoll.monitored = s.registry.monitored F

end BothPollers

end Net
