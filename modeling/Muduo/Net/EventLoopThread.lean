/-
`EventLoopThread`: a thread with an `EventLoop` on its stack.

The owner starts the thread, waits until the thread has published the loop, and some time
destroys it, which asks the loop to quit and joins the thread.  Other threads have the
pointer that `startLoop` returned.  The loop is gone when `threadFunc` returns, and the
pointer in the object is not reset.
-/
import Muduo.Net.EventLoop

namespace Net

open Lib

/-- Where the thread is. -/
inductive ThreadStage where
  | notStarted
  /-- The loop has been constructed; the callback is run. -/
  | starting
  /-- `loop_` has been set. -/
  | published
  /-- In `loop.loop()`. -/
  | looping
  /-- `threadFunc` has returned, and the loop is destroyed. -/
  | finished
deriving DecidableEq

/-- Where the owner is. -/
inductive OwnerStage where
  /-- Before `startLoop`. -/
  | idle
  /-- `startLoop` waits for `loop_`. -/
  | waiting
  /-- `startLoop` has returned. -/
  | started
  /-- In the destructor, between the two steps of `loop_->quit()`. -/
  | quitting
  /-- In `thread_.join()`. -/
  | joining
  | gone
deriving DecidableEq

structure EventLoopThread where
  loop : EventLoop
  thread : ThreadStage
  owner : OwnerStage
  /-- `loop_ != NULL` -/
  loop_ : Bool
deriving DecidableEq

namespace EventLoopThread

inductive ThreadFault where
  | assertion
  | nullLoop
  | deadLoop
deriving DecidableEq

def init : EventLoopThread := ⟨.init, .notStarted, .idle, false⟩

/-- The loop has been constructed and not destroyed. -/
def Alive (t : EventLoopThread) : Prop := t.thread ≠ .notStarted ∧ t.thread ≠ .finished

instance (t : EventLoopThread) : Decidable t.Alive := inferInstanceAs (Decidable (_ ∧ _))

inductive ThreadAct where
  /-- `startLoop`, up to the wait. -/
  | startLoop
  /-- The rest of it. -/
  | startLoopReturns
  /-- The thread sets `loop_`. -/
  | publish
  /-- A step of the loop: of its own thread, or of another one that has a pointer to it. -/
  | act (a : EventLoop.LoopAct)
  /-- `loop()` has returned, and `threadFunc` does. -/
  | finish
  /-- `~EventLoopThread`: `loop_->quit()` up to the store. -/
  | destroy
  /-- The rest of that call. -/
  | destroyWakeup
  | join
deriving DecidableEq

/-- Whether the loop thread is where it takes this step. -/
def Takes (t : EventLoopThread) : EventLoop.LoopAct → Prop
  | .loop => t.thread = .published
  -- between setting `loop_` and entering `loop()` the thread runs no code of the user
  | .queueHere => t.thread ≠ .published
  | .quitHere => t.thread ≠ .published
  | _ => True

instance (t : EventLoopThread) (a : EventLoop.LoopAct) : Decidable (t.Takes a) := by
  cases a <;> unfold Takes <;> exact inferInstance

/-- A step of the loop, in the words of this module. -/
def stepLoop (a : EventLoop.LoopAct) (l : EventLoop) : Except ThreadFault EventLoop :=
  match l.step a with
  | .ok l => .ok l
  | .error _ => .error .assertion

def step (a : ThreadAct) (t : EventLoopThread) : Except ThreadFault EventLoopThread :=
  match a with
  | .startLoop =>
      if t.owner = .idle then .ok { t with owner := .waiting, thread := .starting } else .ok t
  | .startLoopReturns =>
      if t.owner = .waiting ∧ t.loop_ = true then .ok { t with owner := .started } else .ok t
  | .publish =>
      if t.thread = .starting ∧ t.loop.wakingHere = false then
        .ok { t with thread := .published, loop_ := true }
      else .ok t
  | .act a =>
      if t.Alive ∧ t.Takes a then do
        let loop ← stepLoop a t.loop
        return { t with loop := loop, thread := if a = .loop then .looping else t.thread }
      else .ok t
  | .finish =>
      if t.thread = .looping ∧ t.loop.phase = .outside then .ok { t with thread := .finished }
      else .ok t
  | .destroy =>
      if t.owner = .idle ∨ t.owner = .started then
        if t.loop_ = false then .error .nullLoop
        else if t.thread = .finished then .error .deadLoop
        else .ok { t with owner := .quitting, loop := { t.loop with quit := true } }
      else .ok t
  | .destroyWakeup =>
      if t.owner = .quitting then
        if t.thread = .finished then .error .deadLoop
        else .ok { t with owner := .joining, loop := { t.loop.wakeup with quitReturned := true } }
      else .ok t
  | .join =>
      if t.owner = .joining ∧ t.thread = .finished then .ok { t with owner := .gone } else .ok t

/-- Once a call of `quit` has returned, the flag is set, so that `loop()` ends at its next test,
and the loop does not wait in `poll` without a wakeup. -/
def QuitKept (t : EventLoopThread) : Prop :=
  t.loop.quitReturned = true →
    t.loop.quit = true ∧ (t.loop.phase = .polling → t.loop.wakeupFd ≠ 0)

/-- The loop thread is in `loop()`, behind the reset of `quit_`. -/
def InLoop (t : EventLoopThread) : Prop := t.thread = .looping ∧ t.loop.looping = true

instance (t : EventLoopThread) : Decidable t.InLoop := inferInstanceAs (Decidable (_ ∧ _))

/-- Calls of `quit` come while the loop thread is in `loop()`, and it does not leave `threadFunc`
before their `wakeup` is done. -/
def Timely : ThreadAct → EventLoopThread → Prop
  | .act .quit, t => t.InLoop
  | .act .quitHere, t => t.InLoop
  | .destroy, t => t.owner = .idle ∨ t.owner = .started → t.InLoop
  | .finish, t => t.loop.quitting = 0 ∧ t.owner ≠ .quitting
  | _, _ => True

end EventLoopThread

end Net
