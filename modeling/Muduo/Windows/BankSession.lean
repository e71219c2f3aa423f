/-
The receiving functions of the Windows programs, `BankSession::Recv` of the server and
of the client.

A socket is what the peer has sent before it closed.  `RecvN` stores the bytes as they
come, so that it has already stored what there was when it finds that there is no more;
how much it may store before it leaves the session's array is therefore part of it.
-/
import Muduo.Bank.BankServer

namespace Windows

open Lib Bank

/-- `RecvN(buffer_ + offset, len)`: the array with the bytes stored, and what is left of
the stream; `none` in place of the array for the return value 0. -/
def recvN (buffer : Bytes) (offset len : Nat) (socket : Bytes) :
    Except Signal (Option Bytes × Bytes) :=
  let stored := socket.take len
  if buffer.length < offset + stored.length then .error (.crash .outOfBounds)
  else if len = 0 ∨ socket.length < len then .ok (none, socket.drop len)
  else .ok (some (splice buffer offset stored), socket.drop len)

/-- `客户端关闭` -/
def Msg.clientClosed : Bytes := [0xBF, 0xCD, 0xBB, 0xA7, 0xB6, 0xCB, 0xB9, 0xD8, 0xB1, 0xD5]

/-- `服务器端断开` -/
def Msg.serverClosed : Bytes :=
  [0xB7, 0xFE, 0xCE, 0xF1, 0xC6, 0xF7, 0xB6, 0xCB, 0xB6, 0xCF, 0xBF, 0xAA]

/-- What a receiving function leaves behind: the array, and the head in host order. -/
structure Received where
  buffer : Bytes
  cmd : UInt16
  len : UInt16

/-- The packet in the array, of a program with heads of so many bytes. -/
def Received.packet (headSize : Nat) (r : Received) : Bytes :=
  r.buffer.take (headSize + r.len.toNat)

namespace BankServer

/-- `BankSession::Recv` of the server. -/
def recv (crypto : Crypto) (buffer socket : Bytes) : Except Signal (Received × Bytes) := do
  let (got, socket) ← recvN buffer 0 requestHeadSize socket
  match got with
  | none => .error (.exception Msg.clientClosed)
  | some buffer =>
      let cmd := headCmd buffer
      let len := headLen buffer
      let (got, socket) ← recvN buffer requestHeadSize len.toNat socket
      match got with
      | none => .error (.exception Msg.clientClosed)
      | some buffer =>
          checkHash crypto cmd buffer (requestHeadSize + len.toNat)
          return (⟨buffer, cmd, len⟩, socket)

end BankServer

namespace BankClient

/-- `BankSession::Recv` of the client. -/
def recv (crypto : Crypto) (buffer socket : Bytes) : Except Signal (Received × Bytes) := do
  let (got, socket) ← recvN buffer 0 responseHeadSize socket
  match got with
  | none => .error (.exception Msg.serverClosed)
  | some buffer =>
      let cmd := headCmd buffer
      let len := headLen buffer
      if len = 0 then return (⟨buffer, cmd, len⟩, socket)
      let (got, socket) ← recvN buffer responseHeadSize len.toNat socket
      match got with
      | none => .error (.exception Msg.serverClosed)
      | some buffer =>
          checkHash crypto cmd buffer (responseHeadSize + len.toNat)
          return (⟨buffer, cmd, len⟩, socket)

end BankClient

end Windows
