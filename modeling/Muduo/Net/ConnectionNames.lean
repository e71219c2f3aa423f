/-
The names `TcpServer` gives its connections, and the map they are kept in.

`Net/TcpServer.lean` knows a connection by a number.  Here its name is the text it is in the
program, made in an array of 32 characters from the address and `nextConnId_`; a connection
has a number as well, for the object it is, which no other one ever has.  A connection counts
as alive from `newConnection` until the call of `removeConnectionInLoop` for it.
-/
import Muduo.Lib.Assoc
import Muduo.Lib.Numeral
import Muduo.Net.Channel

namespace Net

open Lib

/-! ### Addresses -/

/-- An `InetAddress`: the four bytes of the address, and the port. -/
structure InetAddress where
  ip : UInt8 × UInt8 × UInt8 × UInt8
  port : UInt16

namespace InetAddress

/-- `inet_ntop` -/
def toIp (a : InetAddress) : Bytes :=
  natText a.ip.1.toNat ++ 46 :: natText a.ip.2.1.toNat ++ 46 :: natText a.ip.2.2.1.toNat
    ++ 46 :: natText a.ip.2.2.2.toNat

/-- `snprintf` into an array of 32 characters. -/
def snprintf (text : Bytes) : Bytes := text.take 31

def toIpPort (a : InetAddress) : Bytes :=
  snprintf (a.toIp ++ 58 :: natText a.port.toNat)

end InetAddress

/-! ### The server -/

/-- A `TcpConnection`: which one it is, and its `name_`. -/
structure NamedConnection where
  number : Nat
  name : Bytes
deriving DecidableEq

/-- What of a `TcpServer` its connections' names have to do with. -/
structure NamingServer where
  hostport : Bytes
  name : Bytes
  /-- An `int`. -/
  nextConnId : Int
  connections : List (Bytes × NamedConnection)
  /-- How many connections have been accepted. -/
  accepted : Nat
  alive : List NamedConnection

inductive NamingAction where
  | newConnection
  /-- For the connection with a number, while it is alive. -/
  | removeConnectionInLoop (number : Nat)

namespace NamingServer

def init (listenAddr : InetAddress) (nameArg : Bytes) : NamingServer :=
  ⟨listenAddr.toIpPort, nameArg, 1, [], 0, []⟩

/-- `%d` -/
def intText (x : Int) : Bytes := (if x < 0 then [45] else []) ++ natText x.natAbs

/-- ":%s#%d" -/
def suffix (s : NamingServer) : Bytes := 58 :: s.hostport ++ 35 :: intText s.nextConnId

/-- The name of the next connection. -/
def connName (s : NamingServer) : Bytes := s.name ++ InetAddress.snprintf s.suffix

/-- The `int` wraps around. -/
def newConnection (s : NamingServer) : NamingServer :=
  let conn : NamedConnection := ⟨s.accepted, s.connName⟩
  { s with
    nextConnId := (s.nextConnId + 1).bmod (2 ^ 32)
    connections := assign conn.name conn s.connections
    accepted := s.accepted + 1
    alive := s.alive ++ [conn] }

/-- The number of entries that are erased has to be one. -/
def removeConnectionInLoop (s : NamingServer) (conn : NamedConnection) :
    Except Fault NamingServer := do
  assertThat ((s.connections.filter (·.1 = conn.name)).length = 1)
  return { s with
    connections := s.connections.filter (·.1 ≠ conn.name)
    alive := s.alive.filter (· ≠ conn) }

def step : NamingAction → NamingServer → Except Fault NamingServer
  | .newConnection, s => .ok s.newConnection
  | .removeConnectionInLoop number, s =>
      match s.alive.find? (·.number = number) with
      | some conn => s.removeConnectionInLoop conn
      | none => .ok s

end NamingServer

end Net
