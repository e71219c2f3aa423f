/-
`TcpClient`, over its connector.

The client has a flag `connect_` of its own beside that of the connector.  A call of `connect`
or `stop` stores the one and then the other, and `removeConnection` reads the client's before it
calls `restart`, which stores the connector's.  Between any two of these the other threads may
take steps.
-/
import Muduo.Net.Connector

namespace Net

namespace TcpClient

/-- What a call in the loop thread has the connector do next. -/
inductive Call where
  | start
  | stop
  | restart
deriving DecidableEq

end TcpClient

structure TcpClient where
  connector : ConnectorLoop
  retry_ : Bool
  connect_ : Bool
  nextConnId_ : Nat
  /-- `connection_`, by its socket. -/
  connection : Option Nat
  /-- The connections that have not been closed. -/
  opened : List Nat
  /-- Those that `disconnect` has shut down. -/
  shutdowns : List Nat
  /-- The loop thread is in a call of `connect` or `stop`, or in `removeConnection`. -/
  next : Option TcpClient.Call
  /-- Calls of `connect` in other threads that have stored the client's flag only. -/
  connecting : Nat
  /-- Those of `stop`. -/
  stopping : Nat
  /-- Calls of `disconnect` that have stored the flag. -/
  disconnecting : Nat
deriving DecidableEq

/-- What the threads of the program do. -/
inductive ClientAct where
  | enableRetry
  /-- `connect` in another thread: the client's store, and the connector's. -/
  | connect
  | connectorStart
  /-- `stop` in another thread: the client's store, and the connector's. -/
  | stop
  | connectorStop
  /-- `disconnect`, in any thread: the store, and the rest. -/
  | disconnect
  | shutdown
  /-- `connect` in the loop thread: the client's store. -/
  | connectHere
  | stopHere
  /-- A connection is closed: `removeConnection`, up to the call of `restart`. -/
  | removeConnection (conn : Nat)
  /-- The call goes on with the connector. -/
  | goOn
  /-- A step of the loop and the connector. -/
  | loop (a : ConnectorAct)

namespace TcpClient

def init : TcpClient := ⟨.init, false, true, 1, none, [], [], none, 0, 0, 0⟩

/-- Steps that the client does not take by its own functions. -/
def isOwn : ConnectorAct → Bool
  | .start | .stop | .startHere | .stopHere | .restart => false
  | _ => true

/-- Steps of other threads. -/
def isOther : ConnectorAct → Bool
  | .queueStart | .queueStop => true
  | _ => false

def newConnection (c : TcpClient) (sockfd : Nat) : TcpClient :=
  { c with
    nextConnId_ := c.nextConnId_ + 1
    connection := some sockfd
    opened := c.opened ++ [sockfd] }

/-- The connector has taken a step; a socket it hands over becomes a connection. -/
def afterStep (c : TcpClient) (connector : ConnectorLoop) : TcpClient :=
  (connector.connector.handed.drop c.connector.connector.handed.length).foldl newConnection
    { c with connector := connector }

/-- Up to the call of `restart`. -/
def removeConnection (c : TcpClient) (conn : Nat) : Except Fault TcpClient := do
  assertThat (c.connection = some conn)
  return { c with
    connection := none
    opened := c.opened.erase conn
    next := if c.retry_ ∧ c.connect_ then some .restart else none }

/-- The loop thread may run user code, or an event of a connection. -/
def free (c : TcpClient) : Bool :=
  decide (c.next = none) && decide (c.connector.next = none) && c.connector.userCode

/-- The connector's part of a call. -/
def act : Call → ConnectorAct
  | .start => .startHere
  | .stop => .stopHere
  | .restart => .restart

/-- One step. -/
def step : ClientAct → TcpClient → Except Fault TcpClient
  | .enableRetry, c => .ok { c with retry_ := true }
  | .connect, c => .ok { c with connect_ := true, connecting := c.connecting + 1 }
  | .connectorStart, c =>
      if 0 < c.connecting then do
        return { c with
          connector := ← c.connector.step .start
          connecting := c.connecting - 1 }
      else .ok c
  | .stop, c => .ok { c with connect_ := false, stopping := c.stopping + 1 }
  | .connectorStop, c =>
      if 0 < c.stopping then do
        return { c with
          connector := ← c.connector.step .stop
          stopping := c.stopping - 1 }
      else .ok c
  | .disconnect, c => .ok { c with connect_ := false, disconnecting := c.disconnecting + 1 }
  | .shutdown, c =>
      if 0 < c.disconnecting then
        .ok { c with
          shutdowns := c.shutdowns ++ c.connection.toList
          disconnecting := c.disconnecting - 1 }
      else .ok c
  | .connectHere, c =>
      if c.free then .ok { c with connect_ := true, next := some .start } else .ok c
  | .stopHere, c =>
      if c.free then .ok { c with connect_ := false, next := some .stop } else .ok c
  | .removeConnection conn, c =>
      match c.connector.phase with
      | .events _ _ => if c.free ∧ conn ∈ c.opened then c.removeConnection conn else .ok c
      | _ => .ok c
  | .goOn, c =>
      match c.next with
      | some call => do return { c with connector := ← c.connector.step (act call), next := none }
      | none => .ok c
  | .loop a, c =>
      if isOwn a ∧ (isOther a ∨ c.next = none) then do
        return c.afterStep (← c.connector.step a)
      else .ok c

end TcpClient

end Net
