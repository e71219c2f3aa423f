/-
Who owns a connection.

`connections_` owns one, and so do the copies of its `TcpConnectionPtr` that user code has,
the functors bound to one, which live until the batch that they are run in is over, and
`handleEvent` while it runs.  `send` and `shutdown`, called in another thread, look at
`state_` first and then queue a functor with a raw pointer, which owns nothing.

The connection starts established.  What it writes is left out, and so is how it comes to
be closed.
-/
import Mathlib.Data.List.Count
import Muduo.Lib.Runs
import Muduo.Net.TcpConnection

namespace Net

open Lib

/-- A functor in the loop of the connection. -/
inductive PtrFunctor where
  /-- With a raw pointer. -/
  | sendInLoop
  | shutdownInLoop
  /-- With a `TcpConnectionPtr`. -/
  | connectDestroyed
  | callback
deriving DecidableEq

namespace PtrFunctor

/-- The functor owns the connection. -/
def owns : PtrFunctor → Bool
  | sendInLoop => false
  | shutdownInLoop => false
  | connectDestroyed => true
  | callback => true

end PtrFunctor

/-- What another thread calls. -/
inductive UserCall where
  | send
  | shutdown
deriving DecidableEq

def UserCall.functor : UserCall → PtrFunctor
  | send => .sendInLoop
  | shutdown => .shutdownInLoop

/-- A connection and its owners. -/
structure ConnectionPtr where
  state : StateE
  /-- The channel has events. -/
  listening : Bool
  /-- The poller has the channel. -/
  polled : Bool
  /-- `~TcpConnection` has not run. -/
  alive : Bool
  /-- `connections_` has the connection. -/
  inConnections : Bool
  /-- Copies of the pointer in user code. -/
  users : Nat
  /-- Calls in other threads that have found the connection up and have not queued their functor;
  each has a copy of the pointer. -/
  calls : List UserCall
  /-- Queued calls of `removeConnectionInLoop`, in the loop of the server. -/
  removing : Nat
  pendingFunctors : List PtrFunctor
  /-- The batch of `doPendingFunctors`, and what is still to be run of it. -/
  batch : List PtrFunctor
  todo : List PtrFunctor
  /-- `handleEvent` has locked `tie_`. -/
  guard : Bool

inductive PtrAction where
  /-- User code copies a pointer, and lets one go. -/
  | acquire
  | release
  /-- A call in another thread finds the connection up, and queues its functor. -/
  | call (c : UserCall)
  | queue (c : UserCall)
  /-- `handleEvent`, the close handler in it, and its end. -/
  | handleEvent
  | handleClose
  | endEvent
  /-- The loop thread queues a callback of the user. -/
  | queueCallback
  /-- The functor in the loop of the server. -/
  | removeConnectionInLoop
  /-- `doPendingFunctors`: the batch is taken, a functor of it is run, the batch is deleted. -/
  | beginBatch
  | runFunctor
  | endBatch

namespace ConnectionPtr

def init : ConnectionPtr where
  state := .kConnected
  listening := true
  polled := true
  alive := true
  inConnections := true
  users := 0
  calls := []
  removing := 0
  pendingFunctors := []
  batch := []
  todo := []
  guard := false

/-- The owners of the connection. -/
def owners (s : ConnectionPtr) : Nat :=
  (if s.inConnections then 1 else 0) + s.users + s.calls.length + s.removing
    + s.pendingFunctors.countP PtrFunctor.owns + s.batch.countP PtrFunctor.owns
    + (if s.guard then 1 else 0)

/-- `~TcpConnection`, when the last owner has gone. -/
def settle (s : ConnectionPtr) : Except Fault ConnectionPtr :=
  if s.alive = true ∧ s.owners = 0 then do
    assertThat (s.polled = false)
    return { s with alive := false }
  else .ok s

def removeConnectionInLoop (s : ConnectionPtr) : Except Fault ConnectionPtr := do
  assertThat (s.inConnections = true)
  return { s with
    inConnections := false
    pendingFunctors := s.pendingFunctors ++ [.connectDestroyed] }

/-- `handleClose`, with `closeCallback_`. -/
def handleClose (sameLoop : Bool) (s : ConnectionPtr) : Except Fault ConnectionPtr :=
  let s := { s with state := .kDisconnected, listening := false }
  if sameLoop then s.removeConnectionInLoop else .ok { s with removing := s.removing + 1 }

def runFunctor (s : ConnectionPtr) : PtrFunctor → Except Fault ConnectionPtr
  | .connectDestroyed => do
      assertThat (s.polled = true)
      return { s with listening := false, polled := false }
  | _ => if s.alive then .ok s else .error .useAfterFree

/-- One step.  `sameLoop` says that the loop of the connection is that of its server. -/
def step (sameLoop : Bool) : PtrAction → ConnectionPtr → Except Fault ConnectionPtr
  | .acquire, s => if s.alive then .ok { s with users := s.users + 1 } else .ok s
  | .release, s => if 0 < s.users then { s with users := s.users - 1 }.settle else .ok s
  | .call c, s =>
      if 0 < s.users ∧ s.state = .kConnected then
        .ok { s with users := s.users - 1, calls := c :: s.calls }
      else .ok s
  | .queue c, s =>
      if c ∈ s.calls then
        .ok { s with
          state := if c = .shutdown then .kDisconnecting else s.state
          users := s.users + 1
          calls := s.calls.erase c
          pendingFunctors := s.pendingFunctors ++ [c.functor] }
      else .ok s
  | .handleEvent, s =>
      if s.alive = true ∧ s.listening = true ∧ s.batch = [] then .ok { s with guard := true } else .ok s
  | .handleClose, s =>
      if s.guard = true ∧ s.listening = true then s.handleClose sameLoop else .ok s
  | .endEvent, s => { s with guard := false }.settle
  | .queueCallback, s =>
      if s.alive then .ok { s with pendingFunctors := s.pendingFunctors ++ [.callback] } else .ok s
  | .removeConnectionInLoop, s =>
      if 0 < s.removing then { s with removing := s.removing - 1 }.removeConnectionInLoop else .ok s
  | .beginBatch, s =>
      if s.batch = [] ∧ s.guard = false then
        .ok { s with pendingFunctors := [], batch := s.pendingFunctors, todo := s.pendingFunctors }
      else .ok s
  | .runFunctor, s =>
      match s.todo with
      | f :: rest => { s with todo := rest }.runFunctor f
      | [] => .ok s
  | .endBatch, s => if s.todo = [] then { s with batch := [] }.settle else .ok s

end ConnectionPtr

end Net
