/-
`TcpConnection`, with the parts of `EventLoop` and `TcpServer` that decide what happens to
one connection.

The functions are those of the source, up to the callbacks of the user: a callback is
whatever user code the loop thread runs before it goes on, so a function that does something
behind a callback is cut there, and the handlers of a batch of events are taken one by one.
What the system answers to `read` and `write` is an argument.

Besides its own fields a connection records what can be observed of it: the bytes the
socket has accepted, when its write side was shut down, and how often it told the user and
the server.
-/
import Muduo.Net.Buffer
import Muduo.Net.Channel

namespace Net

open Lib

inductive StateE where
  | kDisconnected
  | kConnecting
  | kConnected
  | kDisconnecting
deriving DecidableEq

/-- What `read` returns. -/
inductive ReadResult where
  | bytes
  | endOfFile
  | failed
deriving DecidableEq

/-- What `write` returns. -/
inductive WriteResult where
  /-- So many bytes, or all there are. -/
  | wrote (n : Nat)
  | wouldBlock
  | brokenPipe
  | failed

/-- How many of `len` bytes a `write` has taken, and whether `sendInLoop` gives up. -/
def WriteResult.nwrote (len : Nat) : WriteResult → Nat × Bool
  | .wrote n => (min n len, false)
  | .wouldBlock => (0, false)
  | .brokenPipe => (0, true)
  | .failed => (0, false)

/-- One `shutdownWrite`: what had been written, and what was waiting. -/
structure ShutdownWrite where
  accepted : Bytes
  waiting : Bytes

structure TcpConnection where
  state : StateE
  channel : Channel
  outputBuffer : Buffer
  /-- The bytes that the socket has accepted. -/
  accepted : Bytes
  shutdownWrites : List ShutdownWrite
  /-- Calls of `connectionCallback_`, with the connection up and down. -/
  ups : Nat
  downs : Nat
  /-- Calls of `handleClose`. -/
  closes : Nat
  /-- The channel at each `channel_->remove()`. -/
  removals : List Channel

namespace TcpConnection

/-- A new connection. -/
def init : TcpConnection := ⟨.kConnecting, .init, .init, [], [], 0, 0, 0, []⟩

/-- The connection is up, perhaps with its write side to be shut down. -/
def isOpen (c : TcpConnection) : Prop := c.state = .kConnected ∨ c.state = .kDisconnecting

instance (c : TcpConnection) : Decidable c.isOpen := inferInstanceAs (Decidable (_ ∨ _))

/-! ### Writing -/

/-- `sendInLoop` writes before it buffers. -/
def writesDirectly (c : TcpConnection) : Bool :=
  !c.channel.isWriting && c.outputBuffer.readableBytes == 0

/-- What `sendInLoop` does with the part of a message that has not been written. -/
def enqueue (c : TcpConnection) (rest : Bytes) : Except Fault TcpConnection := do
  let c := { c with outputBuffer := c.outputBuffer.append rest }
  if c.channel.isWriting then return c
  return { c with channel := ← c.channel.enableWriting }

def sendInLoop (c : TcpConnection) (data : Bytes) (result : WriteResult) :
    Except Fault TcpConnection :=
  if c.state = .kDisconnected then .ok c
  else do
    let written := if c.writesDirectly then result.nwrote data.length else (0, false)
    let nwrote := written.1
    let error := written.2
    let remaining := data.length - nwrote
    let c := { c with accepted := c.accepted ++ data.take nwrote }
    assertThat (remaining ≤ data.length)
    if error = false ∧ 0 < remaining then c.enqueue (data.drop nwrote)
    else return c

/-- `send`, in the loop thread. -/
def send (c : TcpConnection) (data : Bytes) (result : WriteResult) : Except Fault TcpConnection :=
  if c.state = .kConnected then c.sendInLoop data result else .ok c

def shutdownInLoop (c : TcpConnection) : TcpConnection :=
  if c.channel.isWriting then c
  else { c with
    shutdownWrites := c.shutdownWrites ++ [⟨c.accepted, c.outputBuffer.readable⟩] }

/-- `shutdown`, in the loop thread. -/
def shutdown (c : TcpConnection) : TcpConnection :=
  if c.state = .kConnected then { c with state := .kDisconnecting }.shutdownInLoop else c

/-- `outputBuffer_.retrieve(n)`, when the socket has taken `n` of its bytes. -/
def drain (c : TcpConnection) (n : Nat) : TcpConnection :=
  let n := min n c.outputBuffer.readableBytes
  { c with
    accepted := c.accepted ++ c.outputBuffer.readable.take n
    outputBuffer := c.outputBuffer.retrieve n (Nat.min_le_right _ _) }

def handleWrite (c : TcpConnection) (result : WriteResult) : Except Fault TcpConnection := do
  if c.channel.isWriting = false then return c
  match result with
  | .wrote n =>
      if min n c.outputBuffer.readableBytes = 0 then return c
      let c := c.drain n
      if c.outputBuffer.readableBytes = 0 then
        let c := { c with channel := ← c.channel.disableWriting }
        return if c.state = .kDisconnecting then c.shutdownInLoop else c
      return c
  | _ => return c

/-! ### Opening and closing -/

def connectEstablished (c : TcpConnection) : Except Fault TcpConnection := do
  assertThat (c.state = .kConnecting)
  let c := { c with state := .kConnected }
  return { c with channel := ← c.channel.enableReading, ups := c.ups + 1 }

/-- `handleClose`, up to `closeCallback_`. -/
def handleClose (c : TcpConnection) : Except Fault TcpConnection := do
  assertThat c.isOpen
  let c := { c with closes := c.closes + 1, state := .kDisconnected }
  return { c with channel := ← c.channel.disableAll, downs := c.downs + 1 }

def connectDestroyed (c : TcpConnection) (loop : Handling) : Except Fault TcpConnection := do
  let c ← if c.state = .kConnected then do
      let c := { c with state := .kDisconnected }
      pure { c with channel := ← c.channel.disableAll, downs := c.downs + 1 }
    else pure c
  return { c with channel := ← c.channel.remove loop, removals := c.removals ++ [c.channel] }

end TcpConnection

/-! ### Events -/

/-- `revents_` -/
structure Revents where
  pollIn : Bool
  pollPri : Bool
  pollOut : Bool
  pollHup : Bool
  pollRdHup : Bool
  pollErr : Bool
  pollNval : Bool
deriving DecidableEq

/-- What is still to be called for an event. -/
inductive Handler where
  | handleClose
  /-- What `handleClose` does behind the callback of the user. -/
  | closeCallback
  | handleError
  | handleRead
  | handleWrite
deriving DecidableEq

namespace Revents

/-- The peer has hung up and there is nothing to read. -/
def hungUp (r : Revents) : Bool := r.pollHup && !r.pollIn

/-- `handleEventWithGuard`: what it calls, in its order. -/
def handlers (r : Revents) : List Handler :=
  (if r.hungUp then [.handleClose] else []) ++
    ((if r.pollErr || r.pollNval then [.handleError] else []) ++
      ((if r.pollIn || r.pollPri || r.pollRdHup then [.handleRead] else []) ++
        (if r.pollOut then [.handleWrite] else [])))

end Revents

/-! ### The loop and the server -/

/-- Where the loop thread of the connection is. -/
inductive Phase where
  /-- It runs functors, or waits. -/
  | functors
  /-- It handles the events of other channels; the channel of the connection may be among the
  active ones, and its turn may still come. -/
  | events (active pending : Bool)
  /-- It handles those of the connection; `user` says that it is in user code. -/
  | handling (revents : Revents) (user : Bool) (todo : List Handler)

/-- One connection, the loop it lives in, and what its server does with it. -/
structure ConnectionLoop where
  conn : TcpConnection
  phase : Phase
  /-- The messages sent while the connection was up, less those that `EPIPE` has lost. -/
  sent : List Bytes
  /-- `connections_` has the connection. -/
  inConnections : Bool
  /-- Queued calls of `removeConnectionInLoop`, in the loop of the server. -/
  removing : Nat
  /-- Queued calls of `connectDestroyed`, in the loop of the connection. -/
  destroying : Nat
  /-- `~TcpServer` has run. -/
  serverGone : Bool
  /-- Calls of `closeCallback_`. -/
  closeCallbacks : Nat
  /-- Calls of `connectDestroyed`. -/
  destroyed : Nat

/-- What the threads of the program do. -/
inductive LoopAction where
  | connectEstablished
  /-- User code in the loop thread. -/
  | send (data : Bytes) (result : WriteResult)
  | shutdown
  /-- `poll` returns, perhaps with the channel of the connection. -/
  | poll (active : Bool)
  /-- The turn of the channel has come. -/
  | handleEvent (revents : Revents)
  /-- The next of its handlers. -/
  | handle (read : ReadResult) (result : WriteResult)
  /-- The last handler has returned. -/
  | handled
  /-- The last channel has been handled. -/
  | doPendingFunctors
  /-- The functor in the loop of the server. -/
  | removeConnectionInLoop
  /-- The functor in the loop of the connection. -/
  | connectDestroyed
  /-- `~TcpServer`, in the loop of the server. -/
  | destroyServer

namespace ConnectionLoop

def init : ConnectionLoop := ⟨.init, .functors, [], true, 0, 0, false, 0, 0⟩

/-- User code may be running in the loop thread. -/
def userCode (l : ConnectionLoop) : Bool :=
  match l.phase with
  | .functors => true
  | .events _ _ => true
  | .handling _ user _ => user

/-- The loop thread may run a functor. -/
def runsFunctors (l : ConnectionLoop) : Bool :=
  match l.phase with
  | .functors => true
  | _ => false

/-- What `removeChannel` sees of the loop. -/
def handlingOf : Phase → Handling
  | .functors => ⟨false, false, false⟩
  | .events active _ => ⟨true, false, active⟩
  | .handling _ _ _ => ⟨true, true, true⟩

/-- `send`, with the record of what has been sent. -/
def send (l : ConnectionLoop) (data : Bytes) (result : WriteResult) :
    Except Fault ConnectionLoop := do
  let lost := l.conn.writesDirectly && (WriteResult.nwrote data.length result).2
  let sent := if l.conn.state = .kConnected ∧ lost = false then l.sent ++ [data] else l.sent
  return { l with conn := ← l.conn.send data result, sent := sent }

def removeConnectionInLoop (l : ConnectionLoop) : Except Fault ConnectionLoop := do
  if l.serverGone then throw .useAfterFree
  assertThat (l.inConnections = true)
  return { l with inConnections := false, destroying := l.destroying + 1 }

/-- `closeCallback_`: `TcpServer::removeConnection`. -/
def closeCallback (sameLoop : Bool) (l : ConnectionLoop) : Except Fault ConnectionLoop := do
  let l := { l with closeCallbacks := l.closeCallbacks + 1 }
  if l.serverGone then throw .useAfterFree
  if sameLoop then l.removeConnectionInLoop
  else return { l with removing := l.removing + 1 }

def connectDestroyed (l : ConnectionLoop) : Except Fault ConnectionLoop := do
  return { l with conn := ← l.conn.connectDestroyed (handlingOf l.phase), destroyed := l.destroyed + 1 }

def handleClose (l : ConnectionLoop) (revents : Revents) (todo : List Handler) :
    Except Fault ConnectionLoop := do
  return { l with
    conn := ← l.conn.handleClose
    phase := .handling revents true (.closeCallback :: todo) }

/-- One handler of an event. -/
def handle (sameLoop : Bool) (l : ConnectionLoop) (revents : Revents) (todo : List Handler)
    (read : ReadResult) (result : WriteResult) : Handler → Except Fault ConnectionLoop
  | .handleClose => l.handleClose revents todo
  | .closeCallback => { l with phase := .handling revents false todo }.closeCallback sameLoop
  | .handleError => .ok { l with phase := .handling revents false todo }
  | .handleRead =>
      match read with
      | .bytes => .ok { l with phase := .handling revents true todo }
      | .endOfFile => l.handleClose revents todo
      | .failed => .ok { l with phase := .handling revents false todo }
  | .handleWrite => do
      return { l with conn := ← l.conn.handleWrite result, phase := .handling revents false todo }

/-- `~TcpServer`, as far as the connection is concerned. -/
def destroyServer (sameLoop : Bool) (l : ConnectionLoop) : Except Fault ConnectionLoop :=
  if l.serverGone then .ok l
  else if l.inConnections then
    if sameLoop then { l with serverGone := true }.connectDestroyed
    else .ok { l with serverGone := true, destroying := l.destroying + 1 }
  else .ok { l with serverGone := true }

/-- One step.  `sameLoop` says that the loop of the connection is that of its server. -/
def step (sameLoop : Bool) : LoopAction → ConnectionLoop → Except Fault ConnectionLoop
  | .connectEstablished, l =>
      if l.conn.state = .kConnecting then do
        return { l with conn := ← l.conn.connectEstablished }
      else .ok l
  | .send data result, l => if l.userCode then l.send data result else .ok l
  | .shutdown, l => if l.userCode then .ok { l with conn := l.conn.shutdown } else .ok l
  | .poll active, l =>
      match l.phase with
      | .functors =>
          if active = true ∧ l.conn.channel.index ≠ .kAdded then .ok l
          else .ok { l with phase := .events active active }
      | _ => .ok l
  | .handleEvent revents, l =>
      match l.phase with
      | .events true true => .ok { l with phase := .handling revents false revents.handlers }
      | _ => .ok l
  | .handle read result, l =>
      match l.phase with
      | .handling revents _ (h :: todo) => l.handle sameLoop revents todo read result h
      | _ => .ok l
  | .handled, l =>
      match l.phase with
      | .handling _ _ [] => .ok { l with phase := .events true false }
      | _ => .ok l
  | .doPendingFunctors, l =>
      match l.phase with
      | .events _ false => .ok { l with phase := .functors }
      | _ => .ok l
  | .removeConnectionInLoop, l =>
      if 0 < l.removing then { l with removing := l.removing - 1 }.removeConnectionInLoop
      else .ok l
  | .connectDestroyed, l =>
      -- `connectEstablished` has been queued before it
      if l.runsFunctors = true ∧ 0 < l.destroying ∧ l.conn.state ≠ .kConnecting then
        { l with destroying := l.destroying - 1 }.connectDestroyed
      else .ok l
  | .destroyServer, l =>
      -- in one loop `newConnection` establishes the connection itself
      if sameLoop = true ∧ (l.userCode = false ∨ l.conn.state = .kConnecting) then .ok l
      else l.destroyServer sameLoop

end ConnectionLoop

end Net
