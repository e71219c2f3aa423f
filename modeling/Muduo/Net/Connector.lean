/-
`Connector`, and the loop it lives in.

A connector has one attempt at a time: a socket whose `connect` is in progress, and a channel
that waits for it to become writable.  `start` and `stop` may be called in any thread, where
they store `connect_` first and queue a functor afterwards; in the loop thread the functor is
called at once.  A failed attempt is followed by a timer, and a channel is destroyed by a
functor of its own.

Sockets are numbered as they are created, and the connector records what has become of each.
What `connect`, `getsockopt` and `isSelfConnect` say is an argument.
-/
import Muduo.Lib.Runs
import Muduo.Net.Channel

namespace Net

/-- The channel waits for the descriptor to become writable. -/
def Channel.waiting : Channel := ⟨false, true, .kAdded, true⟩

@[simp] theorem Channel.enableWriting_init : Channel.init.enableWriting = .ok .waiting := rfl

@[simp] theorem Channel.disableAll_waiting : Channel.waiting.disableAll = .ok .closed := rfl

namespace Connector

inductive States where
  | kDisconnected
  | kConnecting
  | kConnected
deriving DecidableEq

inductive Functor where
  | startInLoop
  | stopInLoop
  | resetChannel
deriving DecidableEq

/-- `savedErrno` -/
inductive Errno where
  | zero
  | EINPROGRESS
  | EINTR
  | EISCONN
  | EAGAIN
  | EADDRINUSE
  | EADDRNOTAVAIL
  | ECONNREFUSED
  | ENETUNREACH
  | EACCES
  | EPERM
  | EAFNOSUPPORT
  | EALREADY
  | EBADF
  | EFAULT
  | ENOTSOCK
  | unexpected
deriving DecidableEq

/-- `connect` goes on to `connecting`. -/
def Errno.inProgress : Errno → Bool
  | .zero | .EINPROGRESS | .EINTR | .EISCONN => true
  | _ => false

def kMaxRetryDelayMs : Nat := 30 * 1000

def kInitRetryDelayMs : Nat := 500

end Connector

structure Connector where
  connect_ : Bool
  state : Connector.States
  /-- `channel_`, with its descriptor. -/
  channel : Option (Nat × Channel)
  retryDelayMs : Nat
  /-- What is queued in the loop. -/
  pendingFunctors : List Connector.Functor
  /-- The timers that `retry` has set, by their delays. -/
  retryTimers : List Nat
  /-- How many sockets there have been. -/
  created : Nat
  closed : List Nat
  /-- The sockets that were given to `newConnectionCallback_`. -/
  handed : List Nat
  /-- The channels that have been destroyed, as they were then. -/
  destroyed : List Channel
deriving DecidableEq

namespace Connector

def init : Connector := ⟨false, .kDisconnected, none, kInitRetryDelayMs, [], [], 0, [], [], []⟩

/-! ### The functions of the loop thread -/

/-- `sockets::close` -/
def close (c : Connector) (sockfd : Nat) : Connector := { c with closed := c.closed ++ [sockfd] }

def retry (c : Connector) (sockfd : Nat) : Connector :=
  let c := { c.close sockfd with state := .kDisconnected }
  if c.connect_ then
    { c with
      retryTimers := c.retryTimers ++ [c.retryDelayMs]
      retryDelayMs := min (c.retryDelayMs * 2) kMaxRetryDelayMs }
  else c

def connecting (c : Connector) (sockfd : Nat) : Except Fault Connector := do
  let c := { c with state := .kConnecting }
  assertThat (c.channel = none)
  let channel ← Channel.init.enableWriting
  return { c with channel := some (sockfd, channel) }

def connect (c : Connector) (savedErrno : Errno) : Except Fault Connector :=
  let sockfd := c.created
  let c := { c with created := c.created + 1 }
  match savedErrno with
  | .zero | .EINPROGRESS | .EINTR | .EISCONN => c.connecting sockfd
  | .EAGAIN | .EADDRINUSE | .EADDRNOTAVAIL | .ECONNREFUSED | .ENETUNREACH => .ok (c.retry sockfd)
  | .EACCES | .EPERM | .EAFNOSUPPORT | .EALREADY | .EBADF | .EFAULT | .ENOTSOCK =>
      .ok (c.close sockfd)
  | .unexpected => .ok (c.close sockfd)

/-- The descriptor, whose channel is not registered any more. -/
def removeAndResetChannel (c : Connector) (loop : Handling) : Except Fault (Nat × Connector) :=
  match c.channel with
  | none => .error .useAfterFree
  | some (sockfd, channel) => do
      let channel ← channel.disableAll
      let channel ← channel.remove loop
      return (sockfd, { c with
        channel := some (sockfd, channel)
        pendingFunctors := c.pendingFunctors ++ [.resetChannel] })

def resetChannel (c : Connector) : Connector :=
  { c with channel := none, destroyed := c.destroyed ++ (c.channel.map Prod.snd).toList }

def stopInLoop (c : Connector) (loop : Handling) : Except Fault Connector :=
  if c.state = .kConnecting then do
    let (sockfd, c) ← { c with state := .kDisconnected }.removeAndResetChannel loop
    return c.retry sockfd
  else return c

/-- `err` is that of the socket. -/
def handleWrite (c : Connector) (loop : Handling) (err isSelfConnect : Bool) :
    Except Fault Connector :=
  if c.state = .kConnecting then do
    let (sockfd, c) ← c.removeAndResetChannel loop
    if err then return c.retry sockfd
    else if isSelfConnect then return c.retry sockfd
    else
      let c := { c with state := .kConnected }
      if c.connect_ then return { c with handed := c.handed ++ [sockfd] }
      else return c.close sockfd
  else do
    assertThat (c.state = .kDisconnected)
    return c

def handleError (c : Connector) (loop : Handling) : Except Fault Connector := do
  assertThat (c.state = .kConnecting)
  let (sockfd, c) ← c.removeAndResetChannel loop
  return c.retry sockfd

/-! ### The loop -/

/-- Where the loop thread is. -/
inductive Phase where
  /-- It runs functors, or waits when there are none left. -/
  | functors (batch : List Functor)
  /-- It handles the events of other channels; the channel of the connector may be among the
  active ones, and its turn may still come. -/
  | events (active pending : Bool)
  /-- It handles those of the connector, with what is left to do; `user` says that it is in
  `newConnectionCallback_`. -/
  | handling (user error write : Bool)
deriving DecidableEq

/-- What a call in the loop thread does next. -/
inductive Call where
  | startInLoop
  | connect
  | stopInLoop
deriving DecidableEq

end Connector

structure ConnectorLoop where
  connector : Connector
  phase : Connector.Phase
  /-- The loop thread is in a call of `start`, `stop` or `restart`, or in `startInLoop`. -/
  next : Option Connector.Call
  /-- Calls of `start` in other threads that have stored `connect_`. -/
  starting : Nat
  /-- Those of `stop`. -/
  stopping : Nat
deriving DecidableEq

/-- What the threads of the program do. -/
inductive ConnectorAct where
  /-- `start` in another thread: the store. -/
  | start
  | queueStart
  /-- `stop` in another thread: the store. -/
  | stop
  | queueStop
  /-- `start` in the loop thread: the store. -/
  | startHere
  | stopHere
  /-- `restart` in the loop thread, up to the store. -/
  | restart
  /-- The call goes on. -/
  | goOn (savedErrno : Connector.Errno)
  | runFunctor
  /-- A retry timer fires. -/
  | timer (i : Nat)
  /-- `poll` returns, perhaps with the channel of the connector. -/
  | poll (active : Bool)
  /-- The turn of the channel has come, with `POLLERR` and `POLLOUT` or not. -/
  | handleEvent (error write : Bool)
  /-- The next of its handlers. -/
  | handle (err isSelfConnect : Bool)
  /-- The last handler has returned. -/
  | handled
  | doPendingFunctors

namespace ConnectorLoop

open Connector

def init : ConnectorLoop := ⟨.init, .functors [], none, 0, 0⟩

/-- User code may be running in the loop thread. -/
def userCode (l : ConnectorLoop) : Bool :=
  match l.phase with
  | .functors _ => true
  | .events _ _ => true
  | .handling user _ _ => user

/-- The poller reports events of the channel. -/
def watched (l : ConnectorLoop) : Bool :=
  match l.connector.channel with
  | some (_, channel) => decide (channel.index = .kAdded)
  | none => false

/-- What `removeChannel` sees of the loop. -/
def handlingOf : Connector.Phase → Handling
  | .functors _ => ⟨false, false, false⟩
  | .events active _ => ⟨true, false, active⟩
  | .handling _ _ _ => ⟨true, true, true⟩

/-- `connect` is called next, if it is. -/
def startInLoop (l : ConnectorLoop) : Except Fault ConnectorLoop := do
  assertThat (l.connector.state = .kDisconnected)
  return { l with next := if l.connector.connect_ then some .connect else none }

def stopInLoop (l : ConnectorLoop) : Except Fault ConnectorLoop := do
  return { l with connector := ← l.connector.stopInLoop (handlingOf l.phase), next := none }

def goOn (l : ConnectorLoop) (savedErrno : Errno) : Call → Except Fault ConnectorLoop
  | .startInLoop => l.startInLoop
  | .connect => do return { l with connector := ← l.connector.connect savedErrno, next := none }
  | .stopInLoop => l.stopInLoop

def runFunctor (l : ConnectorLoop) : Functor → Except Fault ConnectorLoop
  | .startInLoop => l.startInLoop
  | .stopInLoop => l.stopInLoop
  | .resetChannel => .ok { l with connector := l.connector.resetChannel }

/-- The next handler: the one for errors comes first. -/
def handle (l : ConnectorLoop) (err isSelfConnect : Bool) : Except Fault ConnectorLoop :=
  match l.phase with
  | .handling _ true write => do
      return { l with
        connector := ← l.connector.handleError (handlingOf l.phase)
        phase := .handling false false write }
  | .handling _ false true => do
      let connector ← l.connector.handleWrite (handlingOf l.phase) err isSelfConnect
      let user := decide (connector.handed ≠ l.connector.handed)
      return { l with connector := connector, phase := .handling user false false }
  | _ => .ok l

/-- A step of the loop thread that is not in a call. -/
def loopStep : ConnectorAct → ConnectorLoop → Except Fault ConnectorLoop
  | .startHere, l =>
      if l.userCode then
        .ok { l with connector := { l.connector with connect_ := true }, next := some .startInLoop }
      else .ok l
  | .stopHere, l =>
      if l.userCode then
        .ok { l with connector := { l.connector with connect_ := false }, next := some .stopInLoop }
      else .ok l
  | .restart, l =>
      if l.userCode then
        .ok { l with
          connector := { l.connector with
            state := .kDisconnected
            retryDelayMs := kInitRetryDelayMs
            connect_ := true }
          next := some .startInLoop }
      else .ok l
  | .runFunctor, l =>
      match l.phase with
      | .functors (f :: batch) => { l with phase := .functors batch }.runFunctor f
      | _ => .ok l
  | .timer i, l =>
      match l.phase with
      | .events _ _ =>
          if i < l.connector.retryTimers.length then
            { l with connector := { l.connector with
                retryTimers := l.connector.retryTimers.eraseIdx i } }.startInLoop
          else .ok l
      | _ => .ok l
  | .poll active, l =>
      match l.phase with
      | .functors [] =>
          if active = true ∧ l.watched = false then .ok l
          else .ok { l with phase := .events active active }
      | _ => .ok l
  | .handleEvent error write, l =>
      match l.phase with
      | .events true true => .ok { l with phase := .handling false error write }
      | _ => .ok l
  | .handle err isSelfConnect, l => l.handle err isSelfConnect
  | .handled, l =>
      match l.phase with
      | .handling _ false false => .ok { l with phase := .events true false }
      | _ => .ok l
  | .doPendingFunctors, l =>
      match l.phase with
      | .events _ false =>
          .ok { l with
            phase := .functors l.connector.pendingFunctors
            connector := { l.connector with pendingFunctors := [] } }
      | _ => .ok l
  | _, l => .ok l

/-- One step. -/
def step : ConnectorAct → ConnectorLoop → Except Fault ConnectorLoop
  | .start, l =>
      .ok { l with connector := { l.connector with connect_ := true }, starting := l.starting + 1 }
  | .queueStart, l =>
      if 0 < l.starting then
        .ok { l with
          connector := { l.connector with
            pendingFunctors := l.connector.pendingFunctors ++ [.startInLoop] }
          starting := l.starting - 1 }
      else .ok l
  | .stop, l =>
      .ok { l with connector := { l.connector with connect_ := false }, stopping := l.stopping + 1 }
  | .queueStop, l =>
      if 0 < l.stopping then
        .ok { l with
          connector := { l.connector with
            pendingFunctors := l.connector.pendingFunctors ++ [.stopInLoop] }
          stopping := l.stopping - 1 }
      else .ok l
  | .goOn savedErrno, l =>
      match l.next with
      | some call => l.goOn savedErrno call
      | none => .ok l
  | a, l => if l.next = none then loopStep a l else .ok l

end ConnectorLoop

end Net
