/-
`LogStream`: what the operators write, and where.

The array of a `FixedBuffer` has some bytes in it from the start, which nobody has set.  Every
byte is written through `poke` or through a `memcpy`, and either is a fault where it would
leave the array.  `convert` and `convertHex` differ in the base and in the table their digits
come from; the remainder of a negative number is negative, which is why `zero` points into the
middle of its table.
-/
import Muduo.Lib.Bytes
import Muduo.Net.Channel

namespace Base

open Lib
open Net (Fault assertThat)

/-- `kSmallBuffer` -/
def kSmallBuffer : Nat := 4000

/-- `kMaxNumericSize` -/
def kMaxNumericSize : Nat := 32

/-- A `FixedBuffer`: its array, and where `cur_` points in it. -/
structure FixedBuffer where
  data : Bytes
  cur : Nat
deriving DecidableEq

/-- `*p = c` -/
def poke (data : Bytes) (p : Nat) (c : UInt8) : Except Fault Bytes := do
  assertThat (p < data.length)
  return splice data p [c]

namespace FixedBuffer

/-- A `FixedBuffer` of `kSmallBuffer` bytes that holds nothing yet. -/
def init (data : Bytes) : FixedBuffer := ⟨data, 0⟩

/-- `asString` -/
def asString (b : FixedBuffer) : Bytes := b.data.take b.cur

def avail (b : FixedBuffer) : Int := (b.data.length : Int) - b.cur

def add (b : FixedBuffer) (len : Nat) : FixedBuffer := { b with cur := b.cur + len }

/-- `append` of the first `len` bytes at `buf`.  In the comparison `avail()` is a `size_t`. -/
def append (b : FixedBuffer) (buf : Bytes) (len : Nat) : Except Fault FixedBuffer := do
  if (len : Int) < b.avail % 2 ^ 64 then
    assertThat (len ≤ buf.length)
    assertThat (b.cur + len ≤ b.data.length)
    return ({ b with data := splice b.data b.cur (buf.take len) }).add len
  else return b

end FixedBuffer

/-! ### `convert` and `convertHex` -/

/-- "9876543210123456789" -/
def digits : Bytes :=
  [57, 56, 55, 54, 53, 52, 51, 50, 49, 48, 49, 50, 51, 52, 53, 54, 55, 56, 57]

/-- "0123456789ABCDEF" -/
def digitsHex : Bytes :=
  [48, 49, 50, 51, 52, 53, 54, 55, 56, 57, 65, 66, 67, 68, 69, 70]

/-- `zero[lsd]`, with `zero = digits + 9`. -/
def zero (lsd : Int) : Except Fault UInt8 := do
  assertThat (0 ≤ 9 + lsd ∧ 9 + lsd < digits.length)
  return digits.getD (9 + lsd).toNat 0

/-- `digitsHex[lsd]` -/
def hexDigit (lsd : Int) : Except Fault UInt8 := do
  assertThat (0 ≤ lsd ∧ lsd < digitsHex.length)
  return digitsHex.getD lsd.toNat 0

/-- The loop: the digits of `i` from `p` on, the last one first; and where `p` ends up. -/
def putDigits (base : Nat) (hbase : 2 ≤ base) (digit : Int → Except Fault UInt8) (data : Bytes)
    (p : Nat) (i : Int) : Except Fault (Bytes × Nat) := do
  let c ← digit (i.tmod base)
  let data ← poke data p c
  if h : i.tdiv base = 0 then return (data, p + 1)
  else putDigits base hbase digit data (p + 1) (i.tdiv base)
termination_by i.natAbs
decreasing_by
  have hi : 0 < i.natAbs := by
    rcases Nat.eq_zero_or_pos i.natAbs with h0 | h0
    · rw [Int.natAbs_eq_zero.mp h0, Int.zero_tdiv] at h
      exact absurd rfl h
    · exact h0
  rw [Int.natAbs_tdiv]
  exact Nat.div_lt_self hi hbase

/-- `std::reverse(data + first, data + last)` -/
def reverse (data : Bytes) (first last : Nat) : Bytes :=
  splice data first ((data.drop first).take (last - first)).reverse

/-- `convert` into the array from `buf` on; the array, and the length that is returned. -/
def convert (data : Bytes) (buf : Nat) (value : Int) : Except Fault (Bytes × Nat) := do
  let (data, p) ← putDigits 10 (by omega) zero data buf value
  let (data, p) ← if value < 0 then do
      let data ← poke data p 45
      pure (data, p + 1)
    else pure (data, p)
  let data ← poke data p 0
  return (reverse data buf p, p - buf)

/-- `convertHex`, likewise. -/
def convertHex (data : Bytes) (buf : Nat) (value : UInt64) : Except Fault (Bytes × Nat) := do
  let (data, p) ← putDigits 16 (by omega) hexDigit data buf value.toNat
  let data ← poke data p 0
  return (reverse data buf p, p - buf)

/-! ### The operators -/

/-- A `StringPiece`: the `length_` bytes at `ptr_`. -/
structure StringPiece where
  ptr : Bytes
  length : Int32
  whole : (ptr.length : Int) = length.toInt

/-- What may stand behind `<<`. -/
inductive Operand where
  | bool (v : Bool)
  | char (v : UInt8)
  | short (v : Int16)
  | unsignedShort (v : UInt16)
  | int (v : Int32)
  | unsignedInt (v : UInt32)
  | long (v : Int64)
  | unsignedLong (v : UInt64)
  | longLong (v : Int64)
  | unsignedLongLong (v : UInt64)
  /-- A `const void*`, as the `uintptr_t` it is cast to. -/
  | pointer (v : UInt64)
  /-- A `const char*`, with the bytes from there to the terminating NUL. -/
  | cString (v : { s : Bytes // (0 : UInt8) ∉ s })
  | string (v : Bytes)
  | stringPiece (v : StringPiece)

namespace LogStream

def formatInteger (b : FixedBuffer) (v : Int) : Except Fault FixedBuffer := do
  if kMaxNumericSize ≤ b.avail then
    let (data, len) ← convert b.data b.cur v
    return ({ b with data := data }).add len
  else return b

/-- `operator<<(const void*)` -/
def formatPointer (b : FixedBuffer) (v : UInt64) : Except Fault FixedBuffer := do
  if kMaxNumericSize ≤ b.avail then
    let buf := b.cur
    let data ← poke b.data buf 48
    let data ← poke data (buf + 1) 120
    let (data, len) ← convertHex data (buf + 2) v
    return ({ b with data := data }).add (len + 2)
  else return b

/-- `operator<<`, on the stream's buffer. -/
def put (b : FixedBuffer) : Operand → Except Fault FixedBuffer
  | .bool v => b.append [if v then 49 else 48, 0] 1
  | .char v => b.append [v] 1
  | .short v => formatInteger b v.toInt32.toInt
  | .unsignedShort v => formatInteger b v.toUInt32.toNat
  | .int v => formatInteger b v.toInt
  | .unsignedInt v => formatInteger b v.toNat
  | .long v => formatInteger b v.toInt
  | .unsignedLong v => formatInteger b v.toNat
  | .longLong v => formatInteger b v.toInt
  | .unsignedLongLong v => formatInteger b v.toNat
  | .pointer v => formatPointer b v
  | .cString v => b.append v v.val.length
  | .string v => b.append v v.length
  -- The `int` becomes a `size_t`.
  | .stringPiece v => b.append v.ptr (v.length.toInt % 2 ^ 64).toNat

/-- The operators behind each other. -/
def putAll (b : FixedBuffer) : List Operand → Except Fault FixedBuffer
  | [] => .ok b
  | o :: os => do
      let b ← put b o
      putAll b os

end LogStream

end Base
