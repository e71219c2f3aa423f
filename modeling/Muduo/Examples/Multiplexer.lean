/-
The multiplexer: many clients over one connection to a backend.

A client that comes up takes the number at the front of a queue, and every byte that it sends
goes to the backend in packets under that number; what the backend sends under the number goes
back to the client.  A packet is a length of one byte, a number of two, and at most 255 bytes.
When the backend goes down its numbers go with it, and the clients that had them are shut down;
when it comes up the numbers are there again.

Everything runs in one loop, one callback after the other.  A buffer is the bytes that are
readable in it.
-/
import Muduo.Lib.Assoc
import Muduo.Lib.Framing
import Muduo.Net.Http
import Muduo.Net.TcpConnection

namespace Multiplexer

open Lib Net

def kMaxConns : Nat := 10

def kMaxPacketLen : Nat := 255

def kHeaderLen : Nat := 3

abbrev Conn := Nat

/-- The length, and the number with its low byte in front. -/
def header (len id : Nat) : Bytes :=
  [UInt8.ofNat len, UInt8.ofNat (id % 256), UInt8.ofNat (id / 256 % 256)]

/-- What the loops of both ends take off a buffer: a packet, once more than a header is there and
all of the packet. -/
def packets : Framing where
  size? b := if kHeaderLen < b.length then some ((b.getD 0 0).toNat + kHeaderLen) else none
  pos := by
    intro b n h
    split at h
    · cases h
      exact Nat.succ_pos _
    · cases h
  mono := by
    intro b n c h
    split at h
    · rename_i hlt
      cases b with
      | nil => exact absurd hlt (Nat.not_lt_zero _)
      | cons x b =>
          rw [if_pos (by rw [List.length_append]; omega), ← h]
          rfl
    · cases h

/-- The number of a packet, and what it brings. -/
def unpack (packet : Bytes) : Nat × Bytes :=
  ((packet.getD 1 0).toNat + 256 * (packet.getD 2 0).toNat, packet.drop kHeaderLen)

/-- `atoi`, with the overflow of `strtol` and of the conversion to `int`. -/
def atoi (s : Bytes) : Int :=
  let r := takeSign (s.dropWhile isSpace)
  (clamp (-2 ^ 63) (2 ^ 63 - 1) (signed r.1 (digitsValue (takeDigits r.2).1 : Int))).bmod (2 ^ 32)

/-! ### `MultiplexServer` -/

structure Client where
  state : StateE := .kConnecting
  /-- The number, while there is one. -/
  context : Option Nat := none
  /-- `peerAddress().toIpPort()` -/
  peer : Bytes := []
  inputBuffer : Bytes := []
  sent : List Bytes := []
deriving DecidableEq

def Client.send (c : Client) (message : Bytes) : Client :=
  if c.state = .kConnected then { c with sent := c.sent ++ [message] } else c

def Client.shutdown (c : Client) : Client :=
  if c.state = .kConnected then { c with state := .kDisconnecting } else c

/-- The connection has been up and is not down. -/
def Client.established (c : Client) : Prop := c.state = .kConnected ∨ c.state = .kDisconnecting

instance (c : Client) : Decidable c.established := inferInstanceAs (Decidable (_ ∨ _))

structure MultiplexServer where
  /-- Whether there is a `backendConn_`. -/
  backendConn : Bool := false
  /-- What `backendConn_` has been given to send, and its input buffer. -/
  backendSent : Bytes := []
  backendBuffer : Bytes := []
  clientConns : List (Nat × Conn) := []
  availIds : List Nat := []
  clients : Conn → Client := fun _ => {}

inductive Failure where
  | assertion
  /-- No loop calls so. -/
  | impossible
deriving DecidableEq

namespace MultiplexServer

def modify (s : MultiplexServer) (conn : Conn) (f : Client → Client) : MultiplexServer :=
  { s with clients := Function.update s.clients conn (f (s.clients conn)) }

/-- The buffer is empty behind `send`, and has a header more if there is nobody to send to. -/
def sendBackendPacket (s : MultiplexServer) (id : Nat) (buf : Bytes) : MultiplexServer × Bytes :=
  let buf := header buf.length id ++ buf
  if s.backendConn then ({ s with backendSent := s.backendSent ++ buf }, []) else (s, buf)

def sendBackendString (s : MultiplexServer) (id : Nat) (msg : Bytes) : MultiplexServer :=
  (s.sendBackendPacket id msg).1

def sendBackendBuffer (s : MultiplexServer) (id : Nat) (buf : Bytes) : MultiplexServer × Bytes :=
  if kMaxPacketLen < buf.length then
    sendBackendBuffer (s.sendBackendPacket id (buf.take kMaxPacketLen)).1 id (buf.drop kMaxPacketLen)
  else if 0 < buf.length then s.sendBackendPacket id buf
  else (s, buf)
termination_by buf.length
decreasing_by
  rw [List.length_drop]
  simp only [kMaxPacketLen] at *
  omega

/-- `snprintf` into 256 bytes. -/
def notice (id : Nat) (peer : Bytes) (what : String) : Bytes :=
  (ascii "CONN " ++ natText id ++ ascii " FROM " ++ peer ++ ascii what).take 255

/-- `onClientConnection`, of a connection that is up. -/
def clientUp (s : MultiplexServer) (conn : Conn) (peer : Bytes) : MultiplexServer :=
  let s := s.modify conn fun c => { c with state := .kConnected, peer }
  match s.availIds with
  | [] => s.modify conn Client.shutdown
  | id :: ids =>
      let s := { s with availIds := ids, clientConns := assign id conn s.clientConns }
      let s := s.modify conn fun c => { c with context := some id }
      s.sendBackendString 0 (notice id peer " IS UP\r\n")

/-- `onClientConnection`, of one that is down. -/
def clientDown (s : MultiplexServer) (conn : Conn) : Except Failure MultiplexServer :=
  let s := s.modify conn fun c => { c with state := .kDisconnected }
  match (s.clients conn).context with
  | none => .ok s
  | some id =>
      if 0 < id ∧ id ≤ kMaxConns then
        let s := s.sendBackendString 0 (notice id (s.clients conn).peer " IS DOWN\r\n")
        if s.backendConn then
          .ok { s with
            availIds := s.availIds ++ [id]
            clientConns := s.clientConns.filter fun p => p.1 ≠ id }
        else if s.availIds = [] ∧ s.clientConns = [] then .ok s
        else .error .assertion
      else .error .assertion

/-- `onClientMessage`, when more bytes have arrived. -/
def onClientMessage (s : MultiplexServer) (conn : Conn) (bytes : Bytes) : MultiplexServer :=
  match (s.clients conn).context with
  | some id =>
      let r := s.sendBackendBuffer id ((s.clients conn).inputBuffer ++ bytes)
      r.1.modify conn fun c => { c with inputBuffer := r.2 }
  | none => s.modify conn fun c => { c with inputBuffer := [] }

/-- `onBackendConnection`, of a connection that is up. -/
def backendUp (s : MultiplexServer) : Except Failure MultiplexServer :=
  if s.availIds = [] then
    .ok { s with
      backendConn := true
      backendSent := []
      backendBuffer := []
      availIds := (List.range kMaxConns).map (· + 1) }
  else .error .assertion

/-- Of one that is down. -/
def backendDown (s : MultiplexServer) : MultiplexServer :=
  let s := s.clientConns.foldl (fun s p => s.modify p.2 Client.shutdown) s
  { s with backendConn := false, clientConns := [], availIds := [] }

def doCommand (s : MultiplexServer) (cmd : Bytes) : MultiplexServer :=
  let kDisconnectCmd := ascii "DISCONNECT "
  if kDisconnectCmd.length < cmd.length ∧ cmd.take kDisconnectCmd.length = kDisconnectCmd then
    let connId := atoi (cmd.drop kDisconnectCmd.length)
    match if 0 ≤ connId then s.clientConns.lookup connId.toNat else none with
    | some conn => s.modify conn Client.shutdown
    | none => s
  else s

/-- One packet of the backend. -/
def sendPacket (s : MultiplexServer) (packet : Bytes) : MultiplexServer :=
  let (id, message) := unpack packet
  if id ≠ 0 then
    match s.clientConns.lookup id with
    | some conn => s.modify conn (·.send message)
    | none => s
  else s.doCommand message

/-- `onBackendMessage`, when more bytes have arrived. -/
def onBackendMessage (s : MultiplexServer) (bytes : Bytes) : MultiplexServer :=
  let r := Id.run (Framing.drain packets (fun s packet => pure (sendPacket s packet)) s
    (s.backendBuffer ++ bytes))
  { r.1 with backendBuffer := r.2 }

end MultiplexServer

/-! ### The loop -/

/-- What the loop calls the server for. -/
inductive Action where
  | clientUp (conn : Conn) (peer : Bytes)
  | clientMessage (conn : Conn) (bytes : Bytes)
  | clientDown (conn : Conn)
  | backendUp
  | backendMessage (bytes : Bytes)
  | backendDown
deriving DecidableEq

/-- One callback. -/
def step : Action → MultiplexServer → Except Failure MultiplexServer
  | .clientUp conn peer, s =>
      if (s.clients conn).state = .kConnecting then .ok (s.clientUp conn peer)
      else .error .impossible
  | .clientMessage conn bytes, s =>
      if (s.clients conn).established then .ok (s.onClientMessage conn bytes)
      else .error .impossible
  | .clientDown conn, s =>
      if (s.clients conn).established then s.clientDown conn else .error .impossible
  | .backendUp, s => if s.backendConn then .error .impossible else s.backendUp
  | .backendMessage bytes, s =>
      if s.backendConn then .ok (s.onBackendMessage bytes) else .error .impossible
  | .backendDown, s => if s.backendConn then .ok s.backendDown else .error .impossible

end Multiplexer
