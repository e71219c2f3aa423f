/-
The echo server that shuts idle connections down, with its list.

Instead of the wheel there is one list of the connections, and each of them carries in its
context when it was heard last and where it stands in the list.  Whoever is heard goes to the
end, so that the timer can stop at the first that is not idle.

Times are counted in microseconds.  The difference of two of them is taken in seconds, as a
`double`, and compared with a whole number of seconds, which is exact.
-/
import Muduo.Lib.Bytes
import Muduo.Lib.Runs
import Muduo.Net.TcpConnection

namespace SortedList

open Lib Net

abbrev Conn := Nat

def kMicroSecondsPerSecond : Int := 1000 * 1000

structure Connection where
  state : StateE := .kConnecting
  /-- `lastReceiveTime` of the `Node` in the context.  Its `position` is that of the connection
  in the list. -/
  context : Option Int := none
  /-- The object is there, so that `lock` gives it. -/
  alive : Bool := true
  sent : List Bytes := []
deriving DecidableEq

namespace Connection

def send (c : Connection) (message : Bytes) : Connection :=
  if c.state = .kConnected then { c with sent := c.sent ++ [message] } else c

def shutdown (c : Connection) : Connection :=
  if c.state = .kConnected then { c with state := .kDisconnecting } else c

/-- The connection has been up and is not down. -/
def established (c : Connection) : Prop := c.state = .kConnected ∨ c.state = .kDisconnecting

instance (c : Connection) : Decidable c.established := inferInstanceAs (Decidable (_ ∨ _))

end Connection

inductive Failure where
  /-- No loop calls so. -/
  | impossible
  | assertion
  | nullPointer
  /-- `erase` at a position that is not in the list. -/
  | badIterator
deriving DecidableEq

structure EchoServer where
  idleSeconds : Int
  connectionList : List Conn
  connections : Conn → Connection

namespace EchoServer

def init (idleSeconds : Int) : EchoServer := ⟨idleSeconds, [], fun _ => {}⟩

def modify (s : EchoServer) (conn : Conn) (f : Connection → Connection) : EchoServer :=
  { s with connections := Function.update s.connections conn (f (s.connections conn)) }

def pushBack (s : EchoServer) (conn : Conn) : EchoServer :=
  { s with connectionList := s.connectionList ++ [conn] }

def erase (s : EchoServer) (conn : Conn) : Except Failure EchoServer :=
  if conn ∈ s.connectionList then
    .ok { s with connectionList := s.connectionList.erase conn }
  else .error .badIterator

/-- `onConnection`, of a connection that is up. -/
def onConnection (s : EchoServer) (conn : Conn) (now : Int) : EchoServer :=
  (s.pushBack conn).modify conn fun c => { c with state := .kConnected, context := some now }

/-- `onConnection`, of a connection that is down. -/
def onDisconnection (s : EchoServer) (conn : Conn) : Except Failure EchoServer :=
  if (s.connections conn).context.isNone then .error .assertion
  else (s.modify conn fun c => { c with state := .kDisconnected }).erase conn

def onMessage (s : EchoServer) (conn : Conn) (msg : Bytes) (time : Int) :
    Except Failure EchoServer :=
  if (s.connections conn).context.isNone then .error .assertion
  else do
    let s := s.modify conn fun c => { c.send msg with context := some time }
    let s ← s.erase conn
    return s.pushBack conn

/-- The loop of `onTimer`, from some place of the list on. -/
def onTimerLoop (now : Int) : List Conn → EchoServer → Except Failure EchoServer
  | [], s => .ok s
  | conn :: rest, s =>
      if (s.connections conn).alive then
        match (s.connections conn).context with
        | none => .error .nullPointer
        | some lastReceiveTime =>
            let age := now - lastReceiveTime
            if s.idleSeconds * kMicroSecondsPerSecond < age then
              onTimerLoop now rest (s.modify conn Connection.shutdown)
            else if age < 0 then
              onTimerLoop now rest (s.modify conn fun c => { c with context := some now })
            else .ok s
      else onTimerLoop now rest { s with connectionList := s.connectionList.erase conn }

def onTimer (s : EchoServer) (now : Int) : Except Failure EchoServer :=
  onTimerLoop now s.connectionList s

end EchoServer

/-! ### The loop -/

inductive Action where
  | up (conn : Conn) (now : Int)
  | message (conn : Conn) (msg : Bytes) (time : Int)
  | down (conn : Conn)
  /-- The last pointer to a connection that is down goes. -/
  | destroy (conn : Conn)
  | timer (now : Int)
deriving DecidableEq

/-- One callback. -/
def step : Action → EchoServer → Except Failure EchoServer
  | .up conn now, s =>
      if (s.connections conn).state = .kConnecting then .ok (s.onConnection conn now)
      else .error .impossible
  | .message conn msg time, s =>
      if (s.connections conn).established then s.onMessage conn msg time
      else .error .impossible
  | .down conn, s =>
      if (s.connections conn).established then s.onDisconnection conn
      else .error .impossible
  | .destroy conn, s =>
      if (s.connections conn).state = .kDisconnected then
        .ok (s.modify conn fun c => { c with alive := false })
      else .error .impossible
  | .timer now, s => s.onTimer now

end SortedList
