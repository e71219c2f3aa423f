/-
`TcpServer`, with all its connections and the loops they live in.

`TcpConnection` says what happens inside one loop.  Here a connection is no more than
whether it is open, and what counts is who calls whom: the close callback is a call of a
member of the server in the loop of the connection, it queues one in the loop of the
server, and that one queues `connectDestroyed` in the loop of the connection.  The
destructor takes its way through `connections_` connection by connection, while the other
loops go on.
-/
import Mathlib.Data.List.Count
import Mathlib.Logic.Function.Basic
import Muduo.Lib.Runs
import Muduo.Net.Channel

namespace Net

open Lib

/-- A functor that the server or one of its connections has queued in a loop. -/
inductive ServerFunctor where
  | connectEstablished (c : Nat)
  | removeConnectionInLoop (c : Nat)
  | connectDestroyed (c : Nat)
deriving DecidableEq

/-- How far the server is from its end. -/
inductive ServerPhase where
  | alive
  /-- In `~TcpServer`, with the connections that it has not come to. -/
  | destructing (rest : List Nat)
  | gone
deriving DecidableEq

/-- The server and its loops.  Connections are numbered as they come, and loop `0` is that of
the server. -/
structure TcpServer where
  phase : ServerPhase
  /-- `nextConnId_` -/
  nextConnId : Nat
  connections : List Nat
  /-- The loop of each connection. -/
  loop : Nat → Nat
  /-- The connection is established and not closed. -/
  isOpen : Nat → Bool
  /-- Calls of `connectDestroyed` for each connection. -/
  destroyed : Nat → Nat
  /-- `pendingFunctors_` of each loop. -/
  queues : Nat → List ServerFunctor
  /-- The connection whose `handleClose` the thread of a loop is in. -/
  closing : Nat → Option Nat

/-- What the threads do. -/
inductive ServerAction where
  /-- `newConnection`, with the loop that it takes. -/
  | newConnection (loop : Nat)
  /-- `handleClose` of a connection, up to the close callback. -/
  | handleClose (c : Nat)
  /-- The close callback, in the thread of a loop. -/
  | closeCallback (loop : Nat)
  /-- A loop runs the functor that has waited longest. -/
  | runFunctor (loop : Nat)
  /-- `~TcpServer` is called, comes to the next connection, and returns. -/
  | beginDestroy
  | destroyNext
  | endDestroy

namespace TcpServer

def init : TcpServer :=
  ⟨.alive, 0, [], fun _ => 0, fun _ => false, fun _ => 0, fun _ => [], fun _ => none⟩

/-- The thread of the server is in its destructor. -/
def destructing (s : TcpServer) : Bool :=
  match s.phase with
  | .destructing _ => true
  | _ => false

def queueInLoop (s : TcpServer) (loop : Nat) (f : ServerFunctor) : TcpServer :=
  { s with queues := Function.update s.queues loop (s.queues loop ++ [f]) }

def connectEstablished (s : TcpServer) (c : Nat) : TcpServer :=
  { s with isOpen := Function.update s.isOpen c true }

def connectDestroyed (s : TcpServer) (c : Nat) : TcpServer :=
  { s with
    isOpen := Function.update s.isOpen c false
    destroyed := Function.update s.destroyed c (s.destroyed c + 1) }

def newConnection (s : TcpServer) (ioLoop : Nat) : TcpServer :=
  let c := s.nextConnId
  let s := { s with
    nextConnId := c + 1
    connections := s.connections ++ [c]
    loop := Function.update s.loop c ioLoop }
  if ioLoop = 0 then s.connectEstablished c else s.queueInLoop ioLoop (.connectEstablished c)

def removeConnectionInLoop (s : TcpServer) (c : Nat) : Except Fault TcpServer := do
  if s.phase = .gone then throw .useAfterFree
  assertThat (c ∈ s.connections)
  return { s with connections := s.connections.erase c }.queueInLoop (s.loop c) (.connectDestroyed c)

/-- `removeConnection`, in the loop of the connection. -/
def removeConnection (s : TcpServer) (c : Nat) : Except Fault TcpServer := do
  if s.phase = .gone then throw .useAfterFree
  if s.loop c = 0 then s.removeConnectionInLoop c
  else return s.queueInLoop 0 (.removeConnectionInLoop c)

def runFunctor (s : TcpServer) : ServerFunctor → Except Fault TcpServer
  | .connectEstablished c => .ok (s.connectEstablished c)
  | .removeConnectionInLoop c => s.removeConnectionInLoop c
  | .connectDestroyed c => .ok (s.connectDestroyed c)

/-- What `~TcpServer` does with one connection. -/
def destroyNext (s : TcpServer) (c : Nat) : TcpServer :=
  if s.loop c = 0 then s.connectDestroyed c
  else s.queueInLoop (s.loop c) (.connectDestroyed c)

def step : ServerAction → TcpServer → Except Fault TcpServer
  | .newConnection ioLoop, s =>
      if s.phase = .alive ∧ s.closing 0 = none then .ok (s.newConnection ioLoop) else .ok s
  | .handleClose c, s =>
      if s.isOpen c = true ∧ s.closing (s.loop c) = none ∧
          (s.loop c = 0 → s.destructing = false) then
        .ok { s with
          isOpen := Function.update s.isOpen c false
          closing := Function.update s.closing (s.loop c) (some c) }
      else .ok s
  | .closeCallback loop, s =>
      match s.closing loop with
      | some c =>
          if loop = 0 ∧ s.destructing = true then .ok s
          else { s with closing := Function.update s.closing loop none }.removeConnection c
      | none => .ok s
  | .runFunctor loop, s =>
      match s.queues loop with
      | f :: rest =>
          if s.closing loop = none ∧ (loop = 0 → s.destructing = false) then
            { s with queues := Function.update s.queues loop rest }.runFunctor f
          else .ok s
      | [] => .ok s
  | .beginDestroy, s =>
      if s.phase = .alive then .ok { s with phase := .destructing s.connections } else .ok s
  | .destroyNext, s =>
      match s.phase with
      | .destructing (c :: rest) => .ok ({ s with phase := .destructing rest }.destroyNext c)
      | _ => .ok s
  | .endDestroy, s =>
      match s.phase with
      | .destructing [] => .ok { s with phase := .gone }
      | _ => .ok s

end TcpServer

end Net
