/-
The members of `Buffer` to the letter.

Here a buffer is its three fields with nothing promised of them: `vector` operations are
what they are for any arguments, every assertion is made where the source makes it, and a
copy that would leave the array is a fault.  `Net/Buffer.lean` has the same buffer with its
invariant in the type, which is how the other modules use it.
-/
import Muduo.Lib.Runs
import Muduo.Net.Buffer
import Muduo.Net.Channel

namespace Net

open Lib

/-- The fields of `muduo::net::Buffer`. -/
structure RawBuffer where
  buffer : Bytes
  readerIndex : Nat
  writerIndex : Nat
deriving DecidableEq

namespace RawBuffer

open Buffer (kCheapPrepend kInitialSize)

/-- `vector::resize` -/
def resize (v : Bytes) (n : Nat) : Bytes := v.take n ++ List.replicate (n - v.length) 0

/-- `std::copy` into the array. -/
def copy (b : RawBuffer) (pos : Nat) (data : Bytes) : Except Fault RawBuffer := do
  assertThat (pos + data.length ≤ b.buffer.length)
  return { b with buffer := splice b.buffer pos data }

def init : RawBuffer :=
  ⟨List.replicate (kCheapPrepend + kInitialSize) 0, kCheapPrepend, kCheapPrepend⟩

def readableBytes (b : RawBuffer) : Nat := b.writerIndex - b.readerIndex

def writableBytes (b : RawBuffer) : Nat := b.buffer.length - b.writerIndex

def prependableBytes (b : RawBuffer) : Nat := b.readerIndex

/-- The bytes from `peek()` to `beginWrite()`. -/
def readable (b : RawBuffer) : Bytes := (b.buffer.drop b.readerIndex).take b.readableBytes

/-! ### Consuming -/

def retrieveAll (b : RawBuffer) : RawBuffer :=
  { b with readerIndex := kCheapPrepend, writerIndex := kCheapPrepend }

def retrieve (b : RawBuffer) (len : Nat) : Except Fault RawBuffer := do
  assertThat (len ≤ b.readableBytes)
  if len < b.readableBytes then return { b with readerIndex := b.readerIndex + len }
  else return b.retrieveAll

/-- `retrieveUntil`, with the position of the pointer in the array. -/
def retrieveUntil (b : RawBuffer) (stop : Nat) : Except Fault RawBuffer := do
  assertThat (b.readerIndex ≤ stop)
  assertThat (stop ≤ b.writerIndex)
  b.retrieve (stop - b.readerIndex)

def retrieveAsString (b : RawBuffer) (len : Nat) : Except Fault (Bytes × RawBuffer) := do
  assertThat (len ≤ b.readableBytes)
  let result := (b.buffer.drop b.readerIndex).take len
  let b ← b.retrieve len
  return (result, b)

def retrieveAllAsString (b : RawBuffer) : Except Fault (Bytes × RawBuffer) :=
  b.retrieveAsString b.readableBytes

/-! ### Adding -/

def makeSpace (b : RawBuffer) (len : Nat) : Except Fault RawBuffer :=
  if b.writableBytes + b.prependableBytes < len + kCheapPrepend then
    return { b with buffer := resize b.buffer (b.writerIndex + len) }
  else do
    assertThat (kCheapPrepend < b.readerIndex)
    let readable := b.readableBytes
    let b ← b.copy kCheapPrepend b.readable
    let b := { b with readerIndex := kCheapPrepend }
    let b := { b with writerIndex := b.readerIndex + readable }
    assertThat (readable = b.readableBytes)
    return b

def ensureWritableBytes (b : RawBuffer) (len : Nat) : Except Fault RawBuffer := do
  let b ← if b.writableBytes < len then b.makeSpace len else pure b
  assertThat (len ≤ b.writableBytes)
  return b

def hasWritten (b : RawBuffer) (len : Nat) : RawBuffer :=
  { b with writerIndex := b.writerIndex + len }

def append (b : RawBuffer) (data : Bytes) : Except Fault RawBuffer := do
  let b ← b.ensureWritableBytes data.length
  let b ← b.copy b.writerIndex data
  return b.hasWritten data.length

def prepend (b : RawBuffer) (data : Bytes) : Except Fault RawBuffer := do
  assertThat (data.length ≤ b.prependableBytes)
  let b := { b with readerIndex := b.readerIndex - data.length }
  b.copy b.readerIndex data

/-! ### Integers -/

def appendInt32 (b : RawBuffer) (x : Int32) : Except Fault RawBuffer := b.append (beU32 x.toUInt32)

def appendInt16 (b : RawBuffer) (x : Int16) : Except Fault RawBuffer := b.append (beU16 x.toUInt16)

def appendInt8 (b : RawBuffer) (x : Int8) : Except Fault RawBuffer := b.append [x.toUInt8]

def prependInt32 (b : RawBuffer) (x : Int32) : Except Fault RawBuffer :=
  b.prepend (beU32 x.toUInt32)

def prependInt16 (b : RawBuffer) (x : Int16) : Except Fault RawBuffer :=
  b.prepend (beU16 x.toUInt16)

def prependInt8 (b : RawBuffer) (x : Int8) : Except Fault RawBuffer := b.prepend [x.toUInt8]

/-- `memcpy` of four bytes, turned into the order of the host. -/
def int32 : Bytes → Except Fault Int32
  | x₀ :: x₁ :: x₂ :: x₃ :: _ => .ok (toU32 x₀ x₁ x₂ x₃).toInt32
  | _ => .error .assertion

def int16 : Bytes → Except Fault Int16
  | x₀ :: x₁ :: _ => .ok (toU16 x₀ x₁).toInt16
  | _ => .error .assertion

def int8 : Bytes → Except Fault Int8
  | x :: _ => .ok x.toInt8
  | _ => .error .assertion

def peekInt32 (b : RawBuffer) : Except Fault Int32 := do
  assertThat (4 ≤ b.readableBytes)
  int32 (b.buffer.drop b.readerIndex)

def peekInt16 (b : RawBuffer) : Except Fault Int16 := do
  assertThat (2 ≤ b.readableBytes)
  int16 (b.buffer.drop b.readerIndex)

def peekInt8 (b : RawBuffer) : Except Fault Int8 := do
  assertThat (1 ≤ b.readableBytes)
  int8 (b.buffer.drop b.readerIndex)

def readInt32 (b : RawBuffer) : Except Fault (Int32 × RawBuffer) := do
  let result ← b.peekInt32
  let b ← b.retrieve 4
  return (result, b)

def readInt16 (b : RawBuffer) : Except Fault (Int16 × RawBuffer) := do
  let result ← b.peekInt16
  let b ← b.retrieve 2
  return (result, b)

def readInt8 (b : RawBuffer) : Except Fault (Int8 × RawBuffer) := do
  let result ← b.peekInt8
  let b ← b.retrieve 1
  return (result, b)

/-! ### Reading from a descriptor -/

/-- `sizeof extrabuf` -/
def extrabuf : Nat := 65536

/-- `readFd`, when `readv` has failed or has received some bytes: first as many as fit behind
`beginWrite()`, the others in `extrabuf`. -/
def readFd (b : RawBuffer) : Option Bytes → Except Fault RawBuffer
  | none => .ok b
  | some received => do
      let writable := b.writableBytes
      let b ← b.copy b.writerIndex (received.take writable)
      if received.length ≤ writable then
        return { b with writerIndex := b.writerIndex + received.length }
      else
        let b := { b with writerIndex := b.buffer.length }
        b.append (received.drop writable)

end RawBuffer

/-! ### What is done with a buffer -/

/-- The members that are called from outside. -/
inductive BufferOp where
  | append (data : Bytes)
  | appendInt32 (x : Int32)
  | appendInt16 (x : Int16)
  | appendInt8 (x : Int8)
  | prepend (data : Bytes)
  | prependInt32 (x : Int32)
  | prependInt16 (x : Int16)
  | prependInt8 (x : Int8)
  | peekInt32
  | peekInt16
  | peekInt8
  | readInt32
  | readInt16
  | readInt8
  | retrieve (len : Nat)
  /-- `retrieveUntil(peek() + len)` -/
  | retrieveUntil (len : Nat)
  | retrieveAll
  | retrieveAsString (len : Nat)
  | retrieveAllAsString
  | ensureWritableBytes (len : Nat)
  /-- The bytes are stored at `beginWrite()`, and `hasWritten` is told how many. -/
  | hasWritten (data : Bytes)
  /-- `readv` fails, or receives these bytes. -/
  | readFd (received : Option Bytes)

/-- What a member returns. -/
inductive BufferOut where
  | nothing
  | bytes (s : Bytes)
  | int32 (x : Int32)
  | int16 (x : Int16)
  | int8 (x : Int8)
deriving DecidableEq

namespace BufferOp

private def only (b : Except Fault RawBuffer) : Except Fault (BufferOut × RawBuffer) :=
  b.map fun b => (.nothing, b)

/-- The member of the buffer. -/
def call (b : RawBuffer) : BufferOp → Except Fault (BufferOut × RawBuffer)
  | append data => only (b.append data)
  | appendInt32 x => only (b.appendInt32 x)
  | appendInt16 x => only (b.appendInt16 x)
  | appendInt8 x => only (b.appendInt8 x)
  | prepend data => only (b.prepend data)
  | prependInt32 x => only (b.prependInt32 x)
  | prependInt16 x => only (b.prependInt16 x)
  | prependInt8 x => only (b.prependInt8 x)
  | peekInt32 => b.peekInt32.map fun x => (.int32 x, b)
  | peekInt16 => b.peekInt16.map fun x => (.int16 x, b)
  | peekInt8 => b.peekInt8.map fun x => (.int8 x, b)
  | readInt32 => b.readInt32.map fun r => (.int32 r.1, r.2)
  | readInt16 => b.readInt16.map fun r => (.int16 r.1, r.2)
  | readInt8 => b.readInt8.map fun r => (.int8 r.1, r.2)
  | retrieve len => only (b.retrieve len)
  | retrieveUntil len => only (b.retrieveUntil (b.readerIndex + len))
  | retrieveAll => .ok (.nothing, b.retrieveAll)
  | retrieveAsString len => (b.retrieveAsString len).map fun r => (.bytes r.1, r.2)
  | retrieveAllAsString => b.retrieveAllAsString.map fun r => (.bytes r.1, r.2)
  | ensureWritableBytes len => only (b.ensureWritableBytes len)
  | hasWritten data => only ((b.copy b.writerIndex data).map fun b => b.hasWritten data.length)
  | readFd received => only (b.readFd received)

/-- What the callers have to see to. -/
def Pre (b : RawBuffer) : BufferOp → Prop
  | prepend data => data.length ≤ b.prependableBytes
  | prependInt32 _ => 4 ≤ b.prependableBytes
  | prependInt16 _ => 2 ≤ b.prependableBytes
  | prependInt8 _ => 1 ≤ b.prependableBytes
  | peekInt32 => 4 ≤ b.readableBytes
  | peekInt16 => 2 ≤ b.readableBytes
  | peekInt8 => 1 ≤ b.readableBytes
  | readInt32 => 4 ≤ b.readableBytes
  | readInt16 => 2 ≤ b.readableBytes
  | readInt8 => 1 ≤ b.readableBytes
  | retrieve len => len ≤ b.readableBytes
  | retrieveUntil len => len ≤ b.readableBytes
  | retrieveAsString len => len ≤ b.readableBytes
  | hasWritten data => data.length ≤ b.writableBytes
  | readFd received => ∀ data ∈ received, data.length ≤ b.writableBytes + RawBuffer.extrabuf
  | _ => True

instance decidablePre (b : RawBuffer) : (op : BufferOp) → Decidable (op.Pre b)
  | prepend _ | prependInt32 _ | prependInt16 _ | prependInt8 _ => Nat.decLe _ _
  | peekInt32 | peekInt16 | peekInt8 | readInt32 | readInt16 | readInt8 => Nat.decLe _ _
  | retrieve _ | retrieveUntil _ | retrieveAsString _ | hasWritten _ => Nat.decLe _ _
  | readFd received => inferInstanceAs (Decidable (∀ data ∈ received, data.length ≤ _))
  | append _ | appendInt32 _ | appendInt16 _ | appendInt8 _ => instDecidableTrue
  | retrieveAll | retrieveAllAsString | ensureWritableBytes _ => instDecidableTrue

/-- The operation on a queue of bytes. -/
def onQueue (q : Bytes) : BufferOp → BufferOut × Bytes
  | append data => (.nothing, q ++ data)
  | appendInt32 x => (.nothing, q ++ beU32 x.toUInt32)
  | appendInt16 x => (.nothing, q ++ beU16 x.toUInt16)
  | appendInt8 x => (.nothing, q ++ [x.toUInt8])
  | prepend data => (.nothing, data ++ q)
  | prependInt32 x => (.nothing, beU32 x.toUInt32 ++ q)
  | prependInt16 x => (.nothing, beU16 x.toUInt16 ++ q)
  | prependInt8 x => (.nothing, [x.toUInt8] ++ q)
  | peekInt32 => (headInt32 q, q)
  | peekInt16 => (headInt16 q, q)
  | peekInt8 => (headInt8 q, q)
  | readInt32 => (headInt32 q, q.drop 4)
  | readInt16 => (headInt16 q, q.drop 2)
  | readInt8 => (headInt8 q, q.drop 1)
  | retrieve len => (.nothing, q.drop len)
  | retrieveUntil len => (.nothing, q.drop len)
  | retrieveAll => (.nothing, [])
  | retrieveAsString len => (.bytes (q.take len), q.drop len)
  | retrieveAllAsString => (.bytes q, [])
  | ensureWritableBytes _ => (.nothing, q)
  | hasWritten data => (.nothing, q ++ data)
  | readFd received => (.nothing, q ++ received.getD [])
where
  headInt32 : Bytes → BufferOut
    | x₀ :: x₁ :: x₂ :: x₃ :: _ => .int32 (toU32 x₀ x₁ x₂ x₃).toInt32
    | _ => .nothing
  headInt16 : Bytes → BufferOut
    | x₀ :: x₁ :: _ => .int16 (toU16 x₀ x₁).toInt16
    | _ => .nothing
  headInt8 : Bytes → BufferOut
    | x :: _ => .int8 x.toInt8
    | _ => .nothing

/-- An operation, with what has been returned so far. -/
def step (op : BufferOp) (s : RawBuffer × List BufferOut) :
    Except Fault (RawBuffer × List BufferOut) :=
  (op.call s.1).map fun r => (r.2, s.2 ++ [r.1])

/-- The same on a queue. -/
def queueStep (s : Bytes × List BufferOut) (op : BufferOp) : Bytes × List BufferOut :=
  ((op.onQueue s.1).2, s.2 ++ [(op.onQueue s.1).1])

end BufferOp

end Net
