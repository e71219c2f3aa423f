/-
The echo server that shuts idle connections down, with its wheel.

The wheel is a circular buffer of buckets.  An entry is put into the bucket at the back when
its connection comes up and whenever bytes arrive on it, and every second a bucket comes in at
the back and the one at the front goes out.  An entry that is in no bucket any more shuts its
connection down.

There is one entry for each connection, and it is named by it.  The buckets stand here with
the back of the circular buffer in front.
-/
import Muduo.Lib.Bytes
import Muduo.Lib.Runs
import Muduo.Lib.Wheel
import Muduo.Net.TcpConnection

namespace IdleConnection

open Lib Net

abbrev Conn := Nat

structure Connection where
  state : StateE := .kConnecting
  sent : List Bytes := []
deriving DecidableEq

def Connection.send (c : Connection) (message : Bytes) : Connection :=
  if c.state = .kConnected then { c with sent := c.sent ++ [message] } else c

def Connection.shutdown (c : Connection) : Connection :=
  if c.state = .kConnected then { c with state := .kDisconnecting } else c

/-- The connection has been up and is not down. -/
def Connection.established (c : Connection) : Prop :=
  c.state = .kConnected ∨ c.state = .kDisconnecting

instance (c : Connection) : Decidable c.established := inferInstanceAs (Decidable (_ ∨ _))

structure EchoServer where
  connectionBuckets : List (List Conn)
  connections : Conn → Connection

namespace EchoServer

def init (idleSeconds : Nat) : EchoServer := ⟨List.replicate idleSeconds [], fun _ => {}⟩

def modify (s : EchoServer) (conn : Conn) (f : Connection → Connection) : EchoServer :=
  { s with connections := Function.update s.connections conn (f (s.connections conn)) }

/-- Whether an entry is in some bucket. -/
def holds (buckets : List (List Conn)) (conn : Conn) : Bool := (latest conn buckets).isSome

/-- `connectionBuckets_.back().insert(entry)` -/
def insertBack (s : EchoServer) (conn : Conn) : EchoServer :=
  { s with connectionBuckets := insertFirst conn s.connectionBuckets }

/-- `onConnection`, of a connection that is up. -/
def onConnection (s : EchoServer) (conn : Conn) : EchoServer :=
  (s.modify conn fun c => { c with state := .kConnected }).insertBack conn

/-- `onMessage`: an entry that is gone cannot be locked. -/
def onMessage (s : EchoServer) (conn : Conn) (msg : Bytes) : EchoServer :=
  let s := s.modify conn (·.send msg)
  if holds s.connectionBuckets conn then s.insertBack conn else s

/-- `onTimer`: the bucket at the front goes out, and with it the entries that are in no other. -/
def onTimer (s : EchoServer) : EchoServer :=
  let front := s.connectionBuckets.getLast?.getD []
  let buckets := turn s.connectionBuckets
  let gone := front.filter fun conn => !holds buckets conn
  gone.foldl (fun s conn => s.modify conn Connection.shutdown)
    { s with connectionBuckets := buckets }

end EchoServer

/-! ### The loop -/

inductive Action where
  | up (conn : Conn)
  | message (conn : Conn) (msg : Bytes)
  | down (conn : Conn)
  | timer
deriving DecidableEq

/-- No loop calls so. -/
inductive Failure where
  | impossible
deriving DecidableEq

/-- One callback. -/
def step : Action → EchoServer → Except Failure EchoServer
  | .up conn, s =>
      if (s.connections conn).state = .kConnecting then .ok (s.onConnection conn)
      else .error .impossible
  | .message conn msg, s =>
      if (s.connections conn).established then .ok (s.onMessage conn msg)
      else .error .impossible
  | .down conn, s =>
      if (s.connections conn).established then
        .ok (s.modify conn fun c => { c with state := .kDisconnected })
      else .error .impossible
  | .timer, s => .ok s.onTimer

end IdleConnection
