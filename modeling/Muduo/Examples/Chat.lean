/-
The codec of the chat server.

A message is sent behind its length, which is a signed number of four bytes in the order of the
network.  The reader gives up on a length that is negative or above 65536: it shuts the
connection down and leaves the length in the buffer, where it finds it again whenever more
arrives.
-/
import Muduo.Lib.Bytes

namespace Chat

open Lib

def kHeaderLen : Nat := 4

/-- `networkToHost32` of what is read as an `int32_t`. -/
def networkToHost32 (b : Bytes) : Int :=
  let x := (toU32 (b.getD 0 0) (b.getD 1 0) (b.getD 2 0) (b.getD 3 0)).toNat
  if x < 2 ^ 31 then x else (x : Int) - 2 ^ 32

/-- What has been done with a connection. -/
structure LengthHeaderCodec where
  /-- What `messageCallback_` has been called with. -/
  messages : List Bytes := []
  shutdown : Bool := false
deriving DecidableEq

namespace LengthHeaderCodec

/-- What `send` sends. -/
def send (message : Bytes) : Bytes := beU32 (UInt32.ofNat message.length) ++ message

/-- `onMessage`, and what it leaves in the buffer. -/
def onMessage (c : LengthHeaderCodec) (buf : Bytes) : LengthHeaderCodec × Bytes :=
  if kHeaderLen ≤ buf.length then
    let len := networkToHost32 buf
    if 65536 < len ∨ len < 0 then ({ c with shutdown := true }, buf)
    else if kHeaderLen + len.toNat ≤ buf.length then
      onMessage { c with messages := c.messages ++ [(buf.drop kHeaderLen).take len.toNat] }
        (buf.drop (kHeaderLen + len.toNat))
    else (c, buf)
  else (c, buf)
termination_by buf.length
decreasing_by
  rw [List.length_drop]
  simp only [kHeaderLen] at *
  omega

/-- `onMessage` for each of the pieces in which bytes arrive. -/
def receive (c : LengthHeaderCodec × Bytes) (pieces : List Bytes) : LengthHeaderCodec × Bytes :=
  pieces.foldl (fun c bytes => c.1.onMessage (c.2 ++ bytes)) c

end LengthHeaderCodec

end Chat
