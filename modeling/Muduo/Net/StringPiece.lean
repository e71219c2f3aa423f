/-
Lengths on their way through `StringPiece`.

`Buffer` and `TcpConnection` count in `size_t`, and a `StringPiece` counts in `int`.  Here are the
members of the three that such a length passes through, as the machine has them: sums and
differences are those of `size_t`, a `vector` holds no more than `max_size()` bytes, and what is
copied has to be there on both sides.  The state is that of `Net/RawBuffer.lean`, where numbers
have no end.  Memory is never short.
-/
import Muduo.Net.RawBuffer
import Muduo.Net.TcpConnection

namespace Net

open Lib

/-- How a length can go wrong. -/
inductive LengthFault where
  | assertion
  /-- `std::length_error` -/
  | lengthError
  /-- A range is copied that is not there. -/
  | undefined
deriving DecidableEq

/-- What a number is as a `size_t`. -/
def sizeT (n : Int) : Nat := (n % 2 ^ 64).toNat

/-- `max_size()` of a `vector<char>`.  That of a `string` is of this order, too. -/
def maxSize : Nat := 2 ^ 63 - 1

/-! ### Pieces -/

/-- `StringPiece`, with the bytes from `ptr_` to the end of what it points into. -/
structure StringPiece where
  ptr : Bytes
  length : Int32

namespace StringPiece

def ofString (str : Bytes) : StringPiece := ⟨str, Int32.ofNat str.length⟩

/-- `size()`, where a `size_t` is wanted. -/
def size (s : StringPiece) : Nat := sizeT s.length.toInt

/-- `as_string`, which constructs a `string` from a pointer and a `size_t`. -/
def asString (s : StringPiece) : Except LengthFault Bytes :=
  if maxSize < s.size then .error .lengthError
  else if s.size ≤ s.ptr.length then .ok (s.ptr.take s.size)
  else .error .undefined

end StringPiece

/-! ### `Buffer` -/

namespace Sized

open Buffer (kCheapPrepend)

def check (p : Prop) [Decidable p] : Except LengthFault Unit :=
  if p then .ok () else .error .assertion

/-- `vector::resize` -/
def resize (b : RawBuffer) (n : Nat) : Except LengthFault RawBuffer :=
  if n ≤ maxSize then .ok { b with buffer := RawBuffer.resize b.buffer n }
  else .error .lengthError

/-- `std::copy` of `len` bytes into the array. -/
def copy (b : RawBuffer) (pos : Nat) (data : Bytes) (len : Nat) : Except LengthFault RawBuffer :=
  if len ≤ data.length ∧ pos + len ≤ b.buffer.length then
    .ok { b with buffer := splice b.buffer pos (data.take len) }
  else .error .undefined

def readableBytes (b : RawBuffer) : Nat := sizeT (b.writerIndex - b.readerIndex)

def writableBytes (b : RawBuffer) : Nat := sizeT (b.buffer.length - b.writerIndex)

def prependableBytes (b : RawBuffer) : Nat := b.readerIndex

/-- The array from `peek()` on. -/
def peek (b : RawBuffer) : Bytes := b.buffer.drop b.readerIndex

def toStringPiece (b : RawBuffer) : StringPiece := ⟨peek b, Int32.ofNat (readableBytes b)⟩

def makeSpace (b : RawBuffer) (len : Nat) : Except LengthFault RawBuffer :=
  if sizeT (writableBytes b + prependableBytes b) < sizeT (len + kCheapPrepend) then
    resize b (sizeT (b.writerIndex + len))
  else do
    check (kCheapPrepend < b.readerIndex)
    let readable := readableBytes b
    let b ← copy b kCheapPrepend (peek b) readable
    let b := { b with readerIndex := kCheapPrepend }
    let b := { b with writerIndex := sizeT (b.readerIndex + readable) }
    check (readable = readableBytes b)
    return b

def ensureWritableBytes (b : RawBuffer) (len : Nat) : Except LengthFault RawBuffer := do
  let b ← if writableBytes b < len then makeSpace b len else pure b
  check (len ≤ writableBytes b)
  return b

def hasWritten (b : RawBuffer) (len : Nat) : RawBuffer :=
  { b with writerIndex := sizeT (b.writerIndex + len) }

def append (b : RawBuffer) (data : Bytes) (len : Nat) : Except LengthFault RawBuffer := do
  let b ← ensureWritableBytes b len
  let b ← copy b b.writerIndex data len
  return hasWritten b len

/-- `append(const StringPiece&)` -/
def appendPiece (b : RawBuffer) (str : StringPiece) : Except LengthFault RawBuffer :=
  append b str.ptr str.size

/-- `shrink`, which leaves what has been swapped in. -/
def shrink (b : RawBuffer) (reserve : Nat) : Except LengthFault RawBuffer := do
  let other ← ensureWritableBytes .init (sizeT (readableBytes b + reserve))
  appendPiece other (toStringPiece b)

/-! ### `TcpConnection` -/

/-- What `sendInLoop(const void*, size_t)` is called with. -/
structure Handed where
  data : Bytes
  len : Nat
deriving DecidableEq

/-- `sendInLoop(const StringPiece&)` -/
def sendInLoop (message : StringPiece) : Handed := ⟨message.ptr, message.size⟩

/-- `send(const StringPiece&)`.  In another thread a `string` is bound, and becomes a piece again
in the loop. -/
def send (state : StateE) (isInLoopThread : Bool) (message : StringPiece) :
    Except LengthFault (Option Handed) :=
  if state = .kConnected then
    if isInLoopThread then .ok (some (sendInLoop message))
    else do
      let message ← message.asString
      return some (sendInLoop (.ofString message))
  else .ok none

end Sized

end Net
