/-
One loop thread, with all the clients, servers and connections that have channels in it.

`Connector` and `TcpConnection` say what happens inside one object.  Here there are any number
of them, and what counts is which channels are in the batch that `poll` has returned, which of
them have had their turn, who removes a channel from the poller and who destroys it.  `send`
and `shutdown` change what a channel is interested in and remove none; timers of the user run
user code, and so they are any sequence of its actions.

A channel is known by its address.  A connection has one channel as long as it lives, and so has
the acceptor of a server; both are known by that address, too.  A connector has a new one for
each attempt.  `runInLoop` is a call, since this is the thread of the loop.
-/
import Mathlib.Logic.Function.Basic
import Muduo.Net.Connector
import Muduo.Net.TcpConnection

namespace Net

open Lib

/-! ### Objects -/

/-- What can go wrong. -/
inductive DispatchFault where
  /-- The assertion of `EventLoop::removeChannel`. -/
  | removeChannel
  /-- A channel is destroyed that is among the active ones and still to have its turn. -/
  | destroyed
  /-- Any other assertion, or a call of an object that is gone. -/
  | other
deriving DecidableEq

/-- A functor that waits in the loop. -/
inductive DispatchFunctor where
  | startInLoop (k : Nat)
  | stopInLoop (k : Nat)
  | resetChannel (k : Nat)
  | connectDestroyed (a : Nat)
deriving DecidableEq

/-- What `poll` has returned, and how far the loop has come. -/
structure ActiveChannels where
  list : List Nat
  it : Nat
  nodup : list.Nodup

inductive DispatchPhase where
  | functors (batch : List DispatchFunctor)
  /-- `eventHandling_` -/
  | events (active : ActiveChannels)

namespace DispatchPhase

/-- `activeChannels_`, as long as it counts. -/
def active : DispatchPhase → List Nat
  | .functors _ => []
  | .events b => b.list

/-- `currentActiveChannel_` -/
def current : DispatchPhase → Option Nat
  | .functors _ => none
  | .events b => b.list[b.it]?

/-- The channels that are still to have their turn. -/
def pending : DispatchPhase → List Nat
  | .functors _ => []
  | .events b => b.list.drop (b.it + 1)

/-- The functors that have been taken out to be run. -/
def batch : DispatchPhase → List DispatchFunctor
  | .functors fs => fs
  | .events _ => []

end DispatchPhase

/-- A connector, as far as channels are concerned. -/
structure DispatchConnector where
  connect_ : Bool
  state : Connector.States
  channel : Option Nat
  /-- The timers of `retry`, and those that keep the connector of a client that is gone. -/
  retries : Nat
  keeps : Nat
deriving DecidableEq

structure DispatchClient where
  retry_ : Bool
  connect_ : Bool
  connection : Option Nat
deriving DecidableEq

structure DispatchServer where
  /-- The connections in `connections_` that live in this loop. -/
  connections : List Nat
  /-- `~TcpServer` has been called. -/
  destructing : Bool
deriving DecidableEq

/-- `closeCallback_` -/
inductive CloseCallback where
  | client (k : Nat)
  | server (v : Nat)
  /-- Of a server in another loop. -/
  | elsewhere
  /-- `detail::removeConnection` -/
  | detached
deriving DecidableEq

structure DispatchConnection where
  state : StateE
  closeCallback : CloseCallback
  /-- Its client or its server holds it. -/
  held : Bool
  /-- The user's pointers to it. -/
  users : Nat
  /-- `handleClose` has come to `closeCallback_`. -/
  closing : Bool
deriving DecidableEq

structure Dispatcher where
  phase : DispatchPhase
  pendingFunctors : List DispatchFunctor
  /-- The channels there are, and those that the poller watches. -/
  live : Nat → Bool
  polled : Nat → Bool
  clients : Nat → Option DispatchClient
  connectors : Nat → Option DispatchConnector
  servers : Nat → Option DispatchServer
  connections : Nat → Option DispatchConnection

/-- What the loop thread does. -/
inductive DispatchAct where
  /-- The public functions. -/
  | newClient (k : Nat)
  | enableRetry (k : Nat)
  | connect (k : Nat) (savedErrno : Connector.Errno) (a : Nat)
  | disconnect (k : Nat)
  | stop (k : Nat)
  | destroyClient (k : Nat)
  | newServer (v : Nat)
  | start (v : Nat)
  /-- `~TcpServer` is called, comes to the next connection, and returns. -/
  | beginDestroy (v : Nat)
  | destroyNext (v : Nat)
  | endDestroy (v : Nat)
  | shutdown (a : Nat)
  /-- The user copies a pointer to a connection, and drops one. -/
  | hold (a : Nat)
  | release (a : Nat)
  /-- The loop. -/
  | poll (active : ActiveChannels)
  | next
  | doPendingFunctors
  | runFunctor (savedErrno : Connector.Errno) (a : Nat)
  /-- The events of a connector, with the address of the channel of a new connection. -/
  | connectorEvent (k : Nat) (error write err isSelfConnect : Bool) (a : Nat)
  /-- A connection that is given to this loop, or to another one. -/
  | accept (v : Nat) (here : Option Nat)
  | handleClose (a : Nat)
  | closeCallback (a : Nat) (savedErrno : Connector.Errno) (fresh : Nat)
  | retryTimer (k : Nat) (savedErrno : Connector.Errno) (a : Nat)
  | keepTimer (k : Nat)
  /-- Other threads start and stop a connector, and give a connection to this loop and take it
  back. -/
  | queueStart (k : Nat)
  | queueStop (k : Nat)
  | connectionHere (a : Nat)
  | connectionGone (a : Nat)

namespace Dispatcher

/-- The channels of the wakeup descriptor and of the timers. -/
def wakeupChannel : Nat := 0

def timerfdChannel : Nat := 1

def init : Dispatcher where
  phase := .functors []
  pendingFunctors := []
  live := fun a => decide (a < 2)
  polled := fun a => decide (a < 2)
  clients := fun _ => none
  connectors := fun _ => none
  servers := fun _ => none
  connections := fun _ => none

/-! ### Channels -/

/-- A channel is constructed and enabled. -/
def newChannel (l : Dispatcher) (a : Nat) : Dispatcher :=
  { l with
    live := Function.update l.live a true
    polled := Function.update l.polled a true }

/-- What `EventLoop::removeChannel` asserts, if it handles events. -/
def Removable (l : Dispatcher) (a : Nat) : Prop := l.phase.current = some a ∨ a ∉ l.phase.active

instance (l : Dispatcher) (a : Nat) : Decidable (l.Removable a) :=
  inferInstanceAs (Decidable (_ ∨ _))

def removeChannel (l : Dispatcher) (a : Nat) : Except DispatchFault Dispatcher :=
  if ¬ l.Removable a then .error .removeChannel
  else if l.polled a = false then .error .other
  else .ok { l with polled := Function.update l.polled a false }

/-- `~Channel` -/
def destroyChannel (l : Dispatcher) (a : Nat) : Except DispatchFault Dispatcher :=
  if a ∈ l.phase.pending then .error .destroyed
  else if l.phase.current = some a then .error .other
  else .ok { l with live := Function.update l.live a false }

def queueInLoop (l : Dispatcher) (f : DispatchFunctor) : Dispatcher :=
  { l with pendingFunctors := l.pendingFunctors ++ [f] }

/-! ### Connectors -/

def setConnector (l : Dispatcher) (k : Nat) (c : DispatchConnector) : Dispatcher :=
  { l with connectors := Function.update l.connectors k (some c) }

def retry (c : DispatchConnector) : DispatchConnector :=
  { c with
    state := .kDisconnected
    retries := if c.connect_ then c.retries + 1 else c.retries }

def removeAndResetChannel (l : Dispatcher) (k : Nat) (c : DispatchConnector) :
    Except DispatchFault Dispatcher :=
  match c.channel with
  | none => .error .other
  | some a => do return (← l.removeChannel a).queueInLoop (.resetChannel k)

def stopInLoop (l : Dispatcher) (k : Nat) : Except DispatchFault Dispatcher :=
  match l.connectors k with
  | none => .error .other
  | some c =>
      if c.state = .kConnecting then do
        return (← l.removeAndResetChannel k c).setConnector k (retry c)
      else .ok l

/-- A channel at `a`, if the attempt is in progress. -/
def connectConnector (l : Dispatcher) (k : Nat) (c : DispatchConnector)
    (savedErrno : Connector.Errno) (a : Nat) : Except DispatchFault Dispatcher :=
  match savedErrno with
  | .zero | .EINPROGRESS | .EINTR | .EISCONN =>
      if c.channel ≠ none then .error .other
      else .ok ((l.newChannel a).setConnector k
        { c with state := .kConnecting, channel := some a })
  | .EAGAIN | .EADDRINUSE | .EADDRNOTAVAIL | .ECONNREFUSED | .ENETUNREACH =>
      .ok (l.setConnector k (retry c))
  | .EACCES | .EPERM | .EAFNOSUPPORT | .EALREADY | .EBADF | .EFAULT | .ENOTSOCK => .ok l
  | .unexpected => .ok l

def startInLoop (l : Dispatcher) (k : Nat) (savedErrno : Connector.Errno) (a : Nat) :
    Except DispatchFault Dispatcher :=
  match l.connectors k with
  | none => .error .other
  | some c =>
      if c.state ≠ .kDisconnected then .error .other
      else if c.connect_ then l.connectConnector k c savedErrno a
      else .ok l

def resetChannel (l : Dispatcher) (k : Nat) : Except DispatchFault Dispatcher :=
  match l.connectors k with
  | none => .error .other
  | some c =>
      match c.channel with
      | none => .ok l
      | some a => do return (← l.destroyChannel a).setConnector k { c with channel := none }

/-- `~Connector`, when nothing holds it any more. -/
def releaseConnector (l : Dispatcher) (k : Nat) : Except DispatchFault Dispatcher :=
  match l.connectors k with
  | none => .ok l
  | some c =>
      if (l.clients k).isSome ∨ 0 < c.retries ∨ 0 < c.keeps then .ok l
      else if c.channel ≠ none then .error .other
      else .ok { l with connectors := Function.update l.connectors k none }

/-! ### Connections -/

def setClient (l : Dispatcher) (k : Nat) (client : DispatchClient) : Dispatcher :=
  { l with clients := Function.update l.clients k (some client) }

def setServer (l : Dispatcher) (v : Nat) (server : DispatchServer) : Dispatcher :=
  { l with servers := Function.update l.servers v (some server) }

def setConnection (l : Dispatcher) (a : Nat) (conn : DispatchConnection) : Dispatcher :=
  { l with connections := Function.update l.connections a (some conn) }

/-- Something holds the connection: its owner, the user, a functor, or its own event. -/
def Owned (l : Dispatcher) (a : Nat) (conn : DispatchConnection) : Prop :=
  conn.held = true ∨ 0 < conn.users ∨ .connectDestroyed a ∈ l.pendingFunctors ∨
    .connectDestroyed a ∈ l.phase.batch ∨ l.phase.current = some a

instance (l : Dispatcher) (a : Nat) (conn : DispatchConnection) : Decidable (l.Owned a conn) :=
  inferInstanceAs (Decidable (_ ∨ _))

/-- `~TcpConnection`, when the last pointer is gone. -/
def settle (l : Dispatcher) (a : Nat) : Except DispatchFault Dispatcher :=
  match l.connections a with
  | none => .ok l
  | some conn =>
      if l.Owned a conn then .ok l
      else do
        return { ← l.destroyChannel a with connections := Function.update l.connections a none }

/-- A connection is established. -/
def newConnection (l : Dispatcher) (a : Nat) (closeCallback : CloseCallback) : Dispatcher :=
  (l.newChannel a).setConnection a ⟨.kConnected, closeCallback, true, 0, false⟩

def shutdownConnection (l : Dispatcher) (a : Nat) : Dispatcher :=
  match l.connections a with
  | none => l
  | some conn =>
      if conn.state = .kConnected then l.setConnection a { conn with state := .kDisconnecting }
      else l

def connectDestroyed (l : Dispatcher) (a : Nat) : Except DispatchFault Dispatcher :=
  match l.connections a with
  | none => .error .other
  | some conn =>
      -- the channel still has events if the connection is being shut down
      if conn.state = .kDisconnecting then .error .other
      else do
        return (← l.removeChannel a).setConnection a { conn with state := .kDisconnected }

/-- The connection is not held by its client or its server any more. -/
def letGo (l : Dispatcher) (a : Nat) (closeCallback : CloseCallback) : Dispatcher :=
  match l.connections a with
  | none => l
  | some conn => l.setConnection a { conn with held := false, closeCallback := closeCallback }

/-! ### Clients and servers -/

def stopConnector (l : Dispatcher) (k : Nat) : Except DispatchFault Dispatcher :=
  match l.connectors k with
  | none => .error .other
  | some c => (l.setConnector k { c with connect_ := false }).stopInLoop k

/-- A connection has been closed. -/
def removeConnection (l : Dispatcher) (a : Nat) (conn : DispatchConnection)
    (savedErrno : Connector.Errno) (fresh : Nat) : Except DispatchFault Dispatcher :=
  let gone := (l.setConnection a { conn with held := false, closing := false }).queueInLoop
    (.connectDestroyed a)
  match conn.closeCallback with
  | .client k =>
      match l.clients k, l.connectors k with
      | some client, some c =>
          if client.connection ≠ some a then .error .other
          else
            let l := gone.setClient k { client with connection := none }
            if client.retry_ ∧ client.connect_ then
              (l.setConnector k { c with state := .kDisconnected, connect_ := true }).startInLoop
                k savedErrno fresh
            else .ok l
      | _, _ => .error .other
  | .server v =>
      match l.servers v with
      | none => .error .other
      | some server =>
          if a ∉ server.connections then .error .other
          else .ok (gone.setServer v { server with connections := server.connections.erase a })
  | .elsewhere => .ok (l.setConnection a { conn with closing := false })
  | .detached => .ok gone

/-! ### Events -/

def handleError (l : Dispatcher) (k : Nat) : Except DispatchFault Dispatcher :=
  match l.connectors k with
  | none => .error .other
  | some c =>
      if c.state ≠ .kConnecting then .error .other
      else do return (← l.removeAndResetChannel k c).setConnector k (retry c)

def handleWrite (l : Dispatcher) (k : Nat) (err isSelfConnect : Bool) (a : Nat) :
    Except DispatchFault Dispatcher :=
  match l.connectors k with
  | none => .error .other
  | some c =>
      if c.state = .kConnecting then do
        let l ← l.removeAndResetChannel k c
        if err then return l.setConnector k (retry c)
        else if isSelfConnect then return l.setConnector k (retry c)
        else
          let l := l.setConnector k { c with state := .kConnected }
          if c.connect_ then
            match l.clients k with
            | none => throw .other
            | some client =>
                return (l.newConnection a (.client k)).setClient k
                  { client with connection := some a }
          else return l
      else if c.state = .kDisconnected then .ok l
      else .error .other

/-- The handlers of a connector, that for errors first. -/
def connectorEvent (l : Dispatcher) (k : Nat) (error write err isSelfConnect : Bool) (a : Nat) :
    Except DispatchFault Dispatcher := do
  let l ← if error then l.handleError k else pure l
  if write then l.handleWrite k err isSelfConnect a else return l

def runFunctor (l : Dispatcher) (savedErrno : Connector.Errno) (fresh : Nat) :
    DispatchFunctor → Except DispatchFault Dispatcher
  | .startInLoop k => l.startInLoop k savedErrno fresh
  | .stopInLoop k => l.stopInLoop k
  | .resetChannel k => l.resetChannel k
  | .connectDestroyed a => do (← l.connectDestroyed a).settle a

/-! ### The public functions

A call that is not possible changes nothing; a new channel is somewhere where there is none.
-/

def newClient (l : Dispatcher) (k : Nat) : Except DispatchFault Dispatcher :=
  if (l.connectors k).isSome then .ok l
  else .ok ((l.setConnector k ⟨false, .kDisconnected, none, 0, 0⟩).setClient k ⟨false, true, none⟩)

def enableRetry (l : Dispatcher) (k : Nat) : Except DispatchFault Dispatcher :=
  match l.clients k with
  | none => .ok l
  | some client => .ok (l.setClient k { client with retry_ := true })

def connect (l : Dispatcher) (k : Nat) (savedErrno : Connector.Errno) (a : Nat) :
    Except DispatchFault Dispatcher :=
  match l.clients k, l.connectors k with
  | some client, some c =>
      if l.live a then .ok l
      else
        ((l.setClient k { client with connect_ := true }).setConnector k
          { c with connect_ := true }).startInLoop k savedErrno a
  | _, _ => .ok l

def disconnect (l : Dispatcher) (k : Nat) : Except DispatchFault Dispatcher :=
  match l.clients k with
  | none => .ok l
  | some client =>
      let l := l.setClient k { client with connect_ := false }
      match client.connection with
      | none => .ok l
      | some a => .ok (l.shutdownConnection a)

def stop (l : Dispatcher) (k : Nat) : Except DispatchFault Dispatcher :=
  match l.clients k with
  | none => .ok l
  | some client => (l.setClient k { client with connect_ := false }).stopConnector k

/-- `~TcpClient` -/
def destroyClient (l : Dispatcher) (k : Nat) : Except DispatchFault Dispatcher :=
  match l.clients k with
  | none => .ok l
  | some client => do
      let l := { l with clients := Function.update l.clients k none }
      match client.connection with
      | some a =>
          let l ← (l.letGo a .detached).settle a
          l.releaseConnector k
      | none =>
          let l ← l.stopConnector k
          match l.connectors k with
          | none => return l
          | some c => return l.setConnector k { c with keeps := c.keeps + 1 }

def newServer (l : Dispatcher) (v : Nat) : Except DispatchFault Dispatcher :=
  if l.live v then .ok l
  else .ok ({ l with live := Function.update l.live v true }.setServer v ⟨[], false⟩)

/-- `start`, and with it `Acceptor::listen`. -/
def startServer (l : Dispatcher) (v : Nat) : Except DispatchFault Dispatcher :=
  match l.servers v with
  | none => .ok l
  | some _ => .ok { l with polled := Function.update l.polled v true }

/-- `~TcpServer` -/
def beginDestroy (l : Dispatcher) (v : Nat) : Except DispatchFault Dispatcher :=
  match l.servers v with
  | none => .ok l
  | some server => .ok (l.setServer v { server with destructing := true })

def destroyNext (l : Dispatcher) (v : Nat) : Except DispatchFault Dispatcher :=
  match l.servers v with
  | some ⟨a :: rest, true⟩ => do
      let l := (l.setServer v ⟨rest, true⟩).letGo a (.server v)
      (← l.connectDestroyed a).settle a
  | _ => .ok l

/-- `~Acceptor`; `disableAll` makes the channel known to the poller if it was not. -/
def endDestroy (l : Dispatcher) (v : Nat) : Except DispatchFault Dispatcher :=
  match l.servers v with
  | some ⟨[], true⟩ => do
      let l := { l with polled := Function.update l.polled v true }
      let l ← (← l.removeChannel v).destroyChannel v
      return { l with servers := Function.update l.servers v none }
  | _ => .ok l

/-- The user copies a pointer to a connection, and drops one. -/
def hold (l : Dispatcher) (a : Nat) : Except DispatchFault Dispatcher :=
  match l.connections a with
  | none => .ok l
  | some conn => .ok (l.setConnection a { conn with users := conn.users + 1 })

def release (l : Dispatcher) (a : Nat) : Except DispatchFault Dispatcher :=
  match l.connections a with
  | none => .ok l
  | some conn =>
      if 0 < conn.users then
        (l.setConnection a { conn with users := conn.users - 1 }).settle a
      else .ok l

/-! ### The loop -/

def poll (l : Dispatcher) (active : ActiveChannels) : Except DispatchFault Dispatcher :=
  match l.phase with
  | .functors [] =>
      if ∀ a ∈ active.list, l.polled a = true ∧ l.live a = true then
        .ok { l with phase := .events { active with it := 0 } }
      else .ok l
  | _ => .ok l

/-- The handlers of the current channel have returned, and with them `handleEvent`. -/
def next (l : Dispatcher) : Except DispatchFault Dispatcher :=
  match l.phase with
  | .events b =>
      match b.list[b.it]? with
      | none => .ok l
      | some a =>
          if (l.connections a).any (fun conn => conn.closing) then .ok l
          else { l with phase := .events { b with it := b.it + 1 } }.settle a
  | .functors _ => .ok l

def doPendingFunctors (l : Dispatcher) : Except DispatchFault Dispatcher :=
  match l.phase with
  | .events b =>
      if b.list.length ≤ b.it then
        .ok { l with phase := .functors l.pendingFunctors, pendingFunctors := [] }
      else .ok l
  | .functors _ => .ok l

def runNext (l : Dispatcher) (savedErrno : Connector.Errno) (a : Nat) :
    Except DispatchFault Dispatcher :=
  match l.phase with
  | .functors (f :: rest) =>
      if l.live a then .ok l
      else { l with phase := .functors rest }.runFunctor savedErrno a f
  | _ => .ok l

def handleConnector (l : Dispatcher) (k : Nat) (error write err isSelfConnect : Bool) (a : Nat) :
    Except DispatchFault Dispatcher :=
  match (l.connectors k).bind (fun c => c.channel) with
  | none => .ok l
  | some b =>
      if l.phase.current = some b ∧ l.live a = false then
        l.connectorEvent k error write err isSelfConnect a
      else .ok l

/-- `Acceptor::handleRead`, with the address of the connection if it is to live in this loop. -/
def accept (l : Dispatcher) (v : Nat) (here : Option Nat) : Except DispatchFault Dispatcher :=
  match l.servers v, here with
  | some server, some a =>
      if l.phase.current = some v ∧ l.live a = false then
        .ok ((l.newConnection a (.server v)).setServer v
          { server with connections := server.connections ++ [a] })
      else .ok l
  | _, _ => .ok l

def handleClose (l : Dispatcher) (a : Nat) : Except DispatchFault Dispatcher :=
  match l.connections a with
  | none => .ok l
  | some conn =>
      if l.phase.current = some a ∧
          (conn.state = .kConnected ∨ conn.state = .kDisconnecting) then
        .ok (l.setConnection a { conn with state := .kDisconnected, closing := true })
      else .ok l

def callCloseCallback (l : Dispatcher) (a : Nat) (savedErrno : Connector.Errno) (fresh : Nat) :
    Except DispatchFault Dispatcher :=
  match l.connections a with
  | none => .ok l
  | some conn =>
      if conn.closing = true ∧ l.live fresh = false then
        l.removeConnection a conn savedErrno fresh
      else .ok l

/-- A timer of `retry` fires. -/
def retryTimer (l : Dispatcher) (k : Nat) (savedErrno : Connector.Errno) (a : Nat) :
    Except DispatchFault Dispatcher :=
  match l.connectors k with
  | none => .ok l
  | some c =>
      if l.phase.current = some timerfdChannel ∧ 0 < c.retries ∧ l.live a = false then do
        let l ← l.startInLoop k savedErrno a
        match l.connectors k with
        | none => return l
        | some c => (l.setConnector k { c with retries := c.retries - 1 }).releaseConnector k
      else .ok l

/-- `detail::removeConnector` -/
def keepTimer (l : Dispatcher) (k : Nat) : Except DispatchFault Dispatcher :=
  match l.connectors k with
  | none => .ok l
  | some c =>
      if l.phase.current = some timerfdChannel ∧ 0 < c.keeps then
        (l.setConnector k { c with keeps := c.keeps - 1 }).releaseConnector k
      else .ok l

/-- `start` and `stop` of a connector in another thread. -/
def queueStart (l : Dispatcher) (k : Nat) : Except DispatchFault Dispatcher :=
  match l.connectors k with
  | none => .ok l
  | some c => .ok ((l.setConnector k { c with connect_ := true }).queueInLoop (.startInLoop k))

def queueStop (l : Dispatcher) (k : Nat) : Except DispatchFault Dispatcher :=
  match l.connectors k with
  | none => .ok l
  | some c => .ok ((l.setConnector k { c with connect_ := false }).queueInLoop (.stopInLoop k))

/-- A server in another loop gives a connection to this loop, and is done with it. -/
def connectionHere (l : Dispatcher) (a : Nat) : Except DispatchFault Dispatcher :=
  if l.live a then .ok l else .ok (l.newConnection a .elsewhere)

def connectionGone (l : Dispatcher) (a : Nat) : Except DispatchFault Dispatcher :=
  match l.connections a with
  | none => .ok l
  | some conn =>
      if conn.closeCallback = .elsewhere ∧ conn.held = true then
        .ok ((l.setConnection a { conn with held := false }).queueInLoop (.connectDestroyed a))
      else .ok l

/-- One step. -/
def step : DispatchAct → Dispatcher → Except DispatchFault Dispatcher
  | .newClient k, l => l.newClient k
  | .enableRetry k, l => l.enableRetry k
  | .connect k savedErrno a, l => l.connect k savedErrno a
  | .disconnect k, l => l.disconnect k
  | .stop k, l => l.stop k
  | .destroyClient k, l => l.destroyClient k
  | .newServer v, l => l.newServer v
  | .start v, l => l.startServer v
  | .beginDestroy v, l => l.beginDestroy v
  | .destroyNext v, l => l.destroyNext v
  | .endDestroy v, l => l.endDestroy v
  | .shutdown a, l => .ok (l.shutdownConnection a)
  | .hold a, l => l.hold a
  | .release a, l => l.release a
  | .poll active, l => l.poll active
  | .next, l => l.next
  | .doPendingFunctors, l => l.doPendingFunctors
  | .runFunctor savedErrno a, l => l.runNext savedErrno a
  | .connectorEvent k error write err isSelfConnect a, l =>
      l.handleConnector k error write err isSelfConnect a
  | .accept v here, l => l.accept v here
  | .handleClose a, l => l.handleClose a
  | .closeCallback a savedErrno fresh, l => l.callCloseCallback a savedErrno fresh
  | .retryTimer k savedErrno a, l => l.retryTimer k savedErrno a
  | .keepTimer k, l => l.keepTimer k
  | .queueStart k, l => l.queueStart k
  | .queueStop k, l => l.queueStop k
  | .connectionHere a, l => l.connectionHere a
  | .connectionGone a, l => l.connectionGone a

end Dispatcher

end Net
