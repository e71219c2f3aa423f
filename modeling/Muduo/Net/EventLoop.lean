/-
`EventLoop`: the loop thread, its pending functors, and the `eventfd` that wakes it.

Any thread may queue a functor or ask the loop to quit.  Both are two steps for it: first
what it leaves in the loop, then, if it is another thread than the loop's, a write to the
`eventfd`, and the loop thread may get in between.  The loop thread has steps of its own, one
for each thing that other threads can see.

A functor is known by its number in the order in which functors are pushed.
-/
import Muduo.Lib.Runs
import Muduo.Net.Channel

namespace Net

open Lib

/-- Where the loop thread is. -/
inductive LoopPhase where
  /-- Not in `loop()`. -/
  | outside
  /-- `while (!quit_)` -/
  | testing
  /-- In `poll`. -/
  | polling
  /-- The events are handled; that of the `eventfd` is still to be. -/
  | handling (toRead : Bool)
  /-- `doPendingFunctors`, before the swap. -/
  | swapping
  /-- `doPendingFunctors`, with the functors that have not been started. -/
  | running (functors : List Nat)
deriving DecidableEq

structure EventLoop where
  looping : Bool
  quit : Bool
  callingPendingFunctors : Bool
  pendingFunctors : List Nat
  /-- The counter of the `eventfd`, which is readable unless it is 0. -/
  wakeupFd : Nat
  phase : LoopPhase
  /-- Calls of `queueInLoop` in other threads with their `wakeup` to do. -/
  waking : Nat
  /-- The loop thread's own call has its `wakeup` to do. -/
  wakingHere : Bool
  /-- Calls of `quit` in other threads with their `wakeup` to do. -/
  quitting : Nat
  /-- How many functors have been pushed. -/
  pushed : Nat
  /-- The functors that have been called. -/
  executed : List Nat
  /-- A call of `quit` has returned. -/
  quitReturned : Bool
deriving DecidableEq

namespace EventLoop

def init : EventLoop :=
  ⟨false, false, false, [], 0, .outside, 0, false, 0, 0, [], false⟩

/-- The loop thread runs code of the user: before and behind `loop()`, in an event handler, or
in a functor. -/
def UserCode (l : EventLoop) : Prop :=
  l.wakingHere = false ∧
    match l.phase with
    | .outside => True
    | .handling _ => True
    | .running _ => True
    | _ => False

instance (l : EventLoop) : Decidable l.UserCode := by
  unfold UserCode
  cases l.phase <;> exact inferInstance

/-- `wakeup`; the counter does not pass its maximum. -/
def wakeup (l : EventLoop) : EventLoop :=
  { l with wakeupFd := if l.wakeupFd < 2 ^ 64 - 2 then l.wakeupFd + 1 else l.wakeupFd }

/-- `pendingFunctors_.push_back` -/
def push (l : EventLoop) : EventLoop :=
  { l with pendingFunctors := l.pendingFunctors ++ [l.pushed], pushed := l.pushed + 1 }

/-- What the threads do. -/
inductive LoopAct where
  /-- `queueInLoop` in another thread, or `runInLoop`, up to the push. -/
  | queueInLoop
  /-- The rest of it. -/
  | queueWakeup
  /-- `quit` in another thread, up to the store. -/
  | quit
  /-- The rest of it. -/
  | quitWakeup
  /-- `queueInLoop` in the loop thread, up to the push. -/
  | queueHere
  /-- Its `wakeup`, which it does while functors are called. -/
  | wakeupHere
  /-- `quit` in the loop thread. -/
  | quitHere
  /-- `loop()` is entered. -/
  | loop
  /-- `quit_` is looked at. -/
  | test
  /-- `poll` returns, with or without the `eventfd` among the active channels. -/
  | pollReturns (woken : Bool)
  /-- `EventLoop::handleRead` -/
  | handleRead
  /-- The handlers have been called. -/
  | doPendingFunctors
  /-- `functors.swap(pendingFunctors_)` -/
  | swap
  /-- The next functor is called. -/
  | runFunctor
  /-- `doPendingFunctors` returns. -/
  | endFunctors
deriving DecidableEq

def step (a : LoopAct) (l : EventLoop) : Except Fault EventLoop :=
  match a with
  | .queueInLoop => .ok { l.push with waking := l.waking + 1 }
  | .queueWakeup =>
      if l.waking = 0 then .ok l else .ok { l.wakeup with waking := l.waking - 1 }
  | .quit => .ok { l with quit := true, quitting := l.quitting + 1 }
  | .quitWakeup =>
      if l.quitting = 0 then .ok l
      else .ok { l.wakeup with quitting := l.quitting - 1, quitReturned := true }
  | .queueHere =>
      if l.UserCode then .ok { l.push with wakingHere := l.callingPendingFunctors } else .ok l
  | .wakeupHere => if l.wakingHere then .ok { l.wakeup with wakingHere := false } else .ok l
  | .quitHere => if l.UserCode then .ok { l with quit := true, quitReturned := true } else .ok l
  | .loop =>
      if l.phase = .outside ∧ l.wakingHere = false then do
        assertThat (l.looping = false)
        return { l with looping := true, quit := false, phase := .testing }
      else .ok l
  | .test =>
      if l.phase = .testing then
        if l.quit then .ok { l with looping := false, phase := .outside }
        else .ok { l with phase := .polling }
      else .ok l
  | .pollReturns woken =>
      if l.phase = .polling ∧ (woken = true → l.wakeupFd ≠ 0) then
        .ok { l with phase := .handling woken }
      else .ok l
  | .handleRead =>
      if l.phase = .handling true then .ok { l with wakeupFd := 0, phase := .handling false }
      else .ok l
  | .doPendingFunctors =>
      if l.phase = .handling false then
        .ok { l with callingPendingFunctors := true, phase := .swapping }
      else .ok l
  | .swap =>
      if l.phase = .swapping then
        .ok { l with pendingFunctors := [], phase := .running l.pendingFunctors }
      else .ok l
  | .runFunctor =>
      match l.phase with
      | .running (f :: functors) =>
          if l.wakingHere then .ok l
          else .ok { l with executed := l.executed ++ [f], phase := .running functors }
      | _ => .ok l
  | .endFunctors =>
      if l.phase = .running [] ∧ l.wakingHere = false then
        .ok { l with callingPendingFunctors := false, phase := .testing }
      else .ok l

/-- The functors of the batch that have not been called. -/
def batch (l : EventLoop) : List Nat :=
  match l.phase with
  | .running functors => functors
  | _ => []

/-- Every functor that has been pushed has been called, once and in this order, or waits to be. -/
def InOrder (l : EventLoop) : Prop :=
  l.executed ++ l.batch ++ l.pendingFunctors = List.range l.pushed

/-- The loop thread does not wait in `poll` for functors that nobody will wake it for. -/
def NoStall (l : EventLoop) : Prop :=
  l.phase = .polling → l.pendingFunctors ≠ [] → l.wakeupFd ≠ 0 ∨ l.waking ≠ 0

end EventLoop

end Net
