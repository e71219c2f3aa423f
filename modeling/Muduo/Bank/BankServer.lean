/-
`BankSession` and `BankServer` of the muduo server: from the bytes of a connection to
the execution of commands.

A connection has an input buffer and a session.  Every delivery of bytes runs the loop
of `onMessage`: as long as the buffer holds a whole frame, the frame is copied into the
session, checked, executed, answered, and consumed.  Copying and hashing are given the
sizes the source computes, and end the process where the source would leave its array.

Only the execution of a command is inside a `try`.
-/
import Muduo.Bank.Cmd
import Muduo.Net.Buffer

namespace Bank

open Lib

/-! ### Heads and arrays -/

/-- The two 16-bit fields at the front of a packet, `cmd` and `len`. -/
def headCmd (b : Bytes) : UInt16 := toU16 (b.getD 0 0) (b.getD 1 0)

def headLen (b : Bytes) : UInt16 := toU16 (b.getD 2 0) (b.getD 3 0)

/-- `a + b - c` in 64 bits. -/
def sizeSub (a c : Nat) : Nat := if c ≤ a then a - c else a + 2 ^ 64 - c

/-- `MD5Make` is told how many bytes in 32 bits, and reads so many. -/
def md5Range (size : Nat) : Nat := size % 2 ^ 32

/-- The test at the end of every receiving function: the hash of what precedes the
last eight of `size` bytes against those eight. -/
def checkHash (crypto : Crypto) (cmd : UInt16) (buffer : Bytes) (size : Nat) :
    Except Signal Unit :=
  let hashed := sizeSub size 8
  if buffer.length < md5Range hashed ∨ buffer.length < hashed + 8 then
    .error (.crash .outOfBounds)
  else if foldHash crypto cmd (buffer.take hashed) = (buffer.drop hashed).take 8 then .ok ()
  else .error (.exception Msg.badPacket)

/-! ### The session -/

structure BankSession where
  buffer : Bytes
  jos : JOutStream
  length_buffer : buffer.length = bufferSize

namespace BankSession

def init : BankSession := ⟨List.replicate bufferSize 0, .init, List.length_replicate⟩

/-- `memcpy(buffer_, data, len)` -/
def setData (s : BankSession) (data : Bytes) : Except Signal BankSession :=
  if h : data.length ≤ bufferSize then
    .ok { s with
      buffer := splice s.buffer 0 data
      length_buffer := by
        rw [length_splice (by rw [s.length_buffer]; omega)]
        exact s.length_buffer }
  else .error (.crash .outOfBounds)

/-- `Parse`: the command and the length of the request in the buffer. -/
def parse (crypto : Crypto) (s : BankSession) : Except Signal (UInt16 × UInt16) := do
  let cmd := headCmd s.buffer
  let len := headLen s.buffer
  checkHash crypto cmd s.buffer (requestHeadSize + len.toNat)
  return (cmd, len)

/-- `TransactionManager::DoAction`: nothing for a command there is not. -/
def doAction (setup : Setup) (s : BankSession) (cmd len : UInt16) : Serve BankSession :=
  match action? setup cmd with
  | none => pure s
  | some action => do
      let body := (s.buffer.drop requestHeadSize).take len.toNat
      let jos ← action.execute cmd body s.jos
      return { s with jos := jos }

/-- The `try` block of `Process`: an exception is logged, and that is all. -/
def tryAction (setup : Setup) (s : BankSession) (cmd len : UInt16) : Serve BankSession :=
  tryCatch (s.doAction setup cmd len) fun
    | .exception _ => pure s
    | .crash c => throw (.crash c)

/-- Code that does not call the database, in a function that does. -/
def lift {α : Type} (e : Except Signal α) : Serve α := ExceptT.mk (.done e)

def process (setup : Setup) (s : BankSession) : Serve BankSession := do
  let (cmd, len) ← lift (s.parse setup.crypto)
  s.tryAction setup cmd len

def clear (s : BankSession) : BankSession := { s with jos := s.jos.clear }

end BankSession

/-! ### The server -/

/-- A connection with its session, as far as messages are concerned.  Between two
frames the session's stream is empty. -/
structure Connection where
  input : Net.Buffer
  session : BankSession
  /-- What has been given to `send`, in order. -/
  sent : List Bytes
  cleared : session.jos.length = 0

namespace BankServer

def kHeaderLen : Nat := 4

/-- `onConnection` -/
def onConnection : Connection := ⟨.init, .init, [], rfl⟩

/-- The frame at the front of the buffer is copied into the session and processed. -/
def serveFrame (setup : Setup) (session : BankSession) (frame : Bytes) : Serve BankSession := do
  let session ← BankSession.lift (session.setData frame)
  session.process setup

/-- The bytes of the session's stream, as they are given to `send`. -/
def response (session : BankSession) : Bytes :=
  (Net.Buffer.init.append session.jos.data).readable

/-- `onMessage` -/
def onMessage (setup : Setup) (conn : Connection) : Serve Connection :=
  if kHeaderLen ≤ conn.input.readableBytes then
    let len := (headLen conn.input.peek).toNat
    if h : len + kHeaderLen ≤ conn.input.readableBytes then do
      let session ← serveFrame setup conn.session (conn.input.peek.take (kHeaderLen + len))
      onMessage setup
        { input := conn.input.retrieve (len + kHeaderLen) h
          session := session.clear
          sent := conn.sent ++ [response session]
          cleared := rfl }
    else pure conn
  else pure conn
termination_by conn.input.readableBytes
decreasing_by
  rw [← Net.Buffer.length_readable, Net.Buffer.readable_retrieve, List.length_drop,
    Net.Buffer.length_readable, kHeaderLen] at *
  omega

/-- One delivery of bytes from the network. -/
def deliver (setup : Setup) (conn : Connection) (chunk : Bytes) : Serve Connection :=
  onMessage setup { conn with input := conn.input.append chunk }

end BankServer

end Bank
