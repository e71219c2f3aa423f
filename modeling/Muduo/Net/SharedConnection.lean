/-
A connection that several threads send through.

In the loop thread `send` and `shutdown` do their work at once.  In another thread they
look at `state_`, and what is left to do goes into the queue of the loop; between the two
the loop thread, and other callers, may do anything.

A clock counts the steps, and every message carries the times at which its `send` was made
and returned.  One call came before another if it returned before the other was made.
-/
import Muduo.Lib.Runs
import Muduo.Net.TcpConnection

namespace Net

open Lib

/-- A message that has been given to `sendInLoop`, or to the queue. -/
structure Message where
  data : Bytes
  /-- `send` was called in the loop thread. -/
  fromLoop : Bool
  /-- When `send` was called, and when it returned. -/
  called : Nat
  returned : Nat

/-- A call of `send` in another thread that has found the connection up. -/
structure PendingCall where
  data : Bytes
  called : Nat
deriving DecidableEq

inductive SendFunctor where
  | sendInLoop (m : Message)
  | shutdownInLoop

structure SharedConnection where
  conn : TcpConnection
  clock : Nat
  /-- Calls of `send` in other threads, in front of `queueInLoop`. -/
  calls : List PendingCall
  /-- Calls of `shutdown` in other threads, in front of `setState` and of `queueInLoop`. -/
  checked : Nat
  disconnecting : Nat
  pendingFunctors : List SendFunctor
  /-- The messages that `sendInLoop` has taken, less those that `EPIPE` has lost. -/
  sent : List Message
  /-- `handleClose` or `connectDestroyed` has run. -/
  closed : Bool
  /-- When the first `shutdown` set `state_`, and how many messages had been taken by then. -/
  shutdownAt : Option (Nat × Nat)

inductive SharedAction where
  /-- The loop thread sends, and shuts down. -/
  | send (data : Bytes) (result : WriteResult)
  | shutdown
  /-- Another thread calls `send`, and queues its functor. -/
  | callSend (data : Bytes)
  | queueSend (call : PendingCall)
  /-- Another thread calls `shutdown`, sets the state, and queues its functor. -/
  | callShutdown
  | setState
  | queueShutdown
  /-- The loop thread runs the functor that has waited longest, and handles events. -/
  | runFunctor (result : WriteResult)
  | handleWrite (result : WriteResult)
  | handleClose
  | connectDestroyed (loop : Handling)

namespace SharedConnection

/-- An established connection. -/
def init : SharedConnection where
  conn := { TcpConnection.init with state := .kConnected, channel := .open_ false, ups := 1 }
  clock := 0
  calls := []
  checked := 0
  disconnecting := 0
  pendingFunctors := []
  sent := []
  closed := false
  shutdownAt := none

/-- `sendInLoop`, with the record of what it has taken. -/
def sendInLoop (s : SharedConnection) (m : Message) (result : WriteResult) :
    Except Fault SharedConnection := do
  let lost := s.conn.writesDirectly && (result.nwrote m.data.length).2
  return { s with
    conn := ← s.conn.sendInLoop m.data result
    sent := if s.conn.state ≠ .kDisconnected ∧ lost = false then s.sent ++ [m] else s.sent }

/-- `setState(kDisconnecting)`, in `shutdown`. -/
def setDisconnecting (s : SharedConnection) : SharedConnection :=
  { s with
    conn := { s.conn with state := .kDisconnecting }
    shutdownAt := some (s.shutdownAt.getD (s.clock, s.sent.length)) }

def runFunctor (s : SharedConnection) (result : WriteResult) :
    SendFunctor → Except Fault SharedConnection
  | .sendInLoop m => s.sendInLoop m result
  | .shutdownInLoop => .ok { s with conn := s.conn.shutdownInLoop }

/-- What a step does, but for the clock. -/
def act (s : SharedConnection) : SharedAction → Except Fault SharedConnection
  | .send data result =>
      if s.conn.state = .kConnected then s.sendInLoop ⟨data, true, s.clock, s.clock⟩ result else .ok s
  | .shutdown =>
      if s.conn.state = .kConnected then
        let s := s.setDisconnecting
        .ok { s with conn := s.conn.shutdownInLoop }
      else .ok s
  | .callSend data =>
      .ok (if s.conn.state = .kConnected then { s with calls := ⟨data, s.clock⟩ :: s.calls } else s)
  | .queueSend call =>
      .ok (if call ∈ s.calls then
        { s with
          calls := s.calls.erase call
          pendingFunctors := s.pendingFunctors ++
            [.sendInLoop ⟨call.data, false, call.called, s.clock⟩] }
      else s)
  | .callShutdown =>
      .ok (if s.conn.state = .kConnected then { s with checked := s.checked + 1 } else s)
  | .setState =>
      .ok (if 0 < s.checked then
        { s with checked := s.checked - 1, disconnecting := s.disconnecting + 1 }.setDisconnecting
      else s)
  | .queueShutdown =>
      .ok (if 0 < s.disconnecting then
        { s with
          disconnecting := s.disconnecting - 1
          pendingFunctors := s.pendingFunctors ++ [.shutdownInLoop] }
      else s)
  | .runFunctor result =>
      match s.pendingFunctors with
      | f :: rest => { s with pendingFunctors := rest }.runFunctor result f
      | [] => .ok s
  | .handleWrite result => do return { s with conn := ← s.conn.handleWrite result }
  | .handleClose =>
      -- the channel reports nothing when it has no events
      if s.conn.channel.isNoneEvent then .ok s
      else do return { s with conn := ← s.conn.handleClose, closed := true }
  | .connectDestroyed loop => do
      return { s with conn := ← s.conn.connectDestroyed loop, closed := true }

def step (a : SharedAction) (s : SharedConnection) : Except Fault SharedConnection :=
  (s.act a).map fun s => { s with clock := s.clock + 1 }

end SharedConnection

end Net
