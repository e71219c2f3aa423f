/-
The input and output buffer of a connection.

One array holds, one after the other, bytes already consumed, the readable bytes
and free space; two indices mark the borders.  The order of the borders is kept in
the type, so `retrieve` and `append` cannot produce a buffer whose readable part
is not inside the array.

What a reader of a buffer relies on is `readable` alone, and the last section says
what each operation does to it.  In particular the moves and resizes of `makeSpace`
do nothing to it.
-/
import Muduo.Lib.Bytes

namespace Net

open Lib

/-- Space in front of the readable bytes that an empty buffer keeps free. -/
def Buffer.kCheapPrepend : Nat := 8

def Buffer.kInitialSize : Nat := 1024

/-- `muduo::net::Buffer`. -/
structure Buffer where
  buffer : Bytes
  readerIndex : Nat
  writerIndex : Nat
  reader_le : readerIndex ≤ writerIndex
  writer_le : writerIndex ≤ buffer.length
  cheap_le : Buffer.kCheapPrepend ≤ buffer.length

namespace Buffer

/-- A fresh buffer. -/
def init : Buffer where
  buffer := List.replicate (kCheapPrepend + kInitialSize) 0
  readerIndex := kCheapPrepend
  writerIndex := kCheapPrepend
  reader_le := Nat.le_refl _
  writer_le := by rw [List.length_replicate]; omega
  cheap_le := by rw [List.length_replicate]; omega

def readableBytes (b : Buffer) : Nat := b.writerIndex - b.readerIndex

def writableBytes (b : Buffer) : Nat := b.buffer.length - b.writerIndex

def prependableBytes (b : Buffer) : Nat := b.readerIndex

/-- The array from the first readable byte on. -/
def peek (b : Buffer) : Bytes := b.buffer.drop b.readerIndex

/-- The readable bytes. -/
def readable (b : Buffer) : Bytes := b.peek.take b.readableBytes

@[simp] theorem length_readable (b : Buffer) : b.readable.length = b.readableBytes := by
  have h₁ := b.reader_le
  have h₂ := b.writer_le
  simp only [readable, peek, readableBytes, List.length_take, List.length_drop]
  omega

/-! ### Consuming -/

def retrieveAll (b : Buffer) : Buffer :=
  { b with
    readerIndex := kCheapPrepend
    writerIndex := kCheapPrepend
    reader_le := Nat.le_refl _
    writer_le := b.cheap_le }

/-- Consume `len` bytes; the caller has checked that so many are readable. -/
def retrieve (b : Buffer) (len : Nat) (_h : len ≤ b.readableBytes) : Buffer :=
  if h : len < b.readableBytes then
    { b with
      readerIndex := b.readerIndex + len
      reader_le := by unfold readableBytes at h; omega }
  else b.retrieveAll

/-! ### Adding -/

/-- Room for `len` more bytes: at the end of the array, or, if what has been
consumed leaves enough, by moving the readable bytes to the front. -/
def makeSpace (b : Buffer) (len : Nat) : Buffer :=
  if h : b.writableBytes + b.prependableBytes < len + kCheapPrepend then
    { b with
      buffer := b.buffer ++ List.replicate (b.writerIndex + len - b.buffer.length) 0
      writer_le := by rw [List.length_append]; have := b.writer_le; omega
      cheap_le := by rw [List.length_append]; have := b.cheap_le; omega }
  else if h' : kCheapPrepend < b.readerIndex then
    { b with
      buffer := splice b.buffer kCheapPrepend b.readable
      readerIndex := kCheapPrepend
      writerIndex := kCheapPrepend + b.readableBytes
      reader_le := Nat.le_add_right _ _
      writer_le := by
        have hr := b.reader_le
        have hw := b.writer_le
        rw [length_splice (by rw [length_readable]; unfold readableBytes; omega)]
        unfold readableBytes
        omega
      cheap_le := by
        have hr := b.reader_le
        have hw := b.writer_le
        rw [length_splice (by rw [length_readable]; unfold readableBytes; omega)]
        exact b.cheap_le }
  else b

def ensureWritableBytes (b : Buffer) (len : Nat) : Buffer :=
  if b.writableBytes < len then b.makeSpace len else b

/-- There is room after `ensureWritableBytes`, as its assertion says. -/
theorem ensureWritableBytes_spec (b : Buffer) (len : Nat) :
    len ≤ (b.ensureWritableBytes len).writableBytes := by
  have hr := b.reader_le
  have hw := b.writer_le
  unfold ensureWritableBytes
  by_cases hlt : b.writableBytes < len
  · rw [if_pos hlt]
    unfold makeSpace
    split
    · simp only [writableBytes, List.length_append, List.length_replicate]
      unfold writableBytes at hlt
      omega
    · rename_i hsum
      -- the free space at the two ends is enough, and the end alone is not
      have hpre : kCheapPrepend < b.readerIndex := by
        unfold prependableBytes at hsum
        omega
      have hlen : (splice b.buffer kCheapPrepend b.readable).length = b.buffer.length := by
        apply length_splice
        rw [length_readable]
        unfold readableBytes
        omega
      rw [dif_pos hpre]
      simp only [writableBytes, hlen, readableBytes]
      simp only [writableBytes, prependableBytes] at hsum
      omega
  · rw [if_neg hlt]
    omega

/-- Add `data` behind the readable bytes. -/
def append (b : Buffer) (data : Bytes) : Buffer :=
  let room := b.ensureWritableBytes data.length
  { buffer := splice room.buffer room.writerIndex data
    readerIndex := room.readerIndex
    writerIndex := room.writerIndex + data.length
    reader_le := by have := room.reader_le; omega
    writer_le := by
      have hw := room.writer_le
      have hspace : data.length ≤ room.writableBytes := ensureWritableBytes_spec b data.length
      unfold writableBytes at hspace
      rw [length_splice] <;> omega
    cheap_le := by
      have hw := room.writer_le
      have hspace : data.length ≤ room.writableBytes := ensureWritableBytes_spec b data.length
      unfold writableBytes at hspace
      rw [length_splice (by omega)]
      exact room.cheap_le }

/-! ### What the operations do to the readable bytes -/

@[simp] theorem readable_init : init.readable = [] := rfl

@[simp] theorem readable_retrieveAll (b : Buffer) : b.retrieveAll.readable = [] := by
  simp [readable, readableBytes, retrieveAll]

@[simp] theorem readable_retrieve (b : Buffer) (len : Nat) (h : len ≤ b.readableBytes) :
    (b.retrieve len h).readable = b.readable.drop len := by
  unfold retrieve
  split
  · simp only [readable, peek, readableBytes, ← List.drop_drop, List.drop_take]
    congr 1
    omega
  · rename_i hnot
    rw [readable_retrieveAll, List.drop_of_length_le]
    rw [length_readable]
    omega

theorem readable_eq (b : Buffer) :
    b.readable = (b.buffer.take b.writerIndex).drop b.readerIndex := by
  rw [readable, peek, readableBytes, List.drop_take]

@[simp] theorem readable_makeSpace (b : Buffer) (len : Nat) :
    (b.makeSpace len).readable = b.readable := by
  have hr := b.reader_le
  have hw := b.writer_le
  unfold makeSpace
  split
  · rw [readable_eq, readable_eq]
    show ((b.buffer ++ _).take b.writerIndex).drop b.readerIndex = _
    rw [List.take_append_of_le_length hw]
  · split
    · rename_i hpre
      rw [readable_eq]
      show ((splice b.buffer kCheapPrepend b.readable).take
        (kCheapPrepend + b.readableBytes)).drop kCheapPrepend = b.readable
      have htake : (b.buffer.take kCheapPrepend).length = kCheapPrepend := by
        rw [List.length_take]
        omega
      rw [← length_readable, take_splice (by omega)]
      conv => lhs; arg 1; rw [← htake]
      rw [List.drop_left]
    · rfl

@[simp] theorem readable_ensureWritableBytes (b : Buffer) (len : Nat) :
    (b.ensureWritableBytes len).readable = b.readable := by
  unfold ensureWritableBytes
  split
  · exact readable_makeSpace b len
  · rfl

@[simp] theorem readable_append (b : Buffer) (data : Bytes) :
    (b.append data).readable = b.readable ++ data := by
  set room := b.ensureWritableBytes data.length with hroom
  have hr := room.reader_le
  have hw := room.writer_le
  rw [← readable_ensureWritableBytes b data.length, ← hroom, readable_eq, readable_eq]
  show ((splice room.buffer room.writerIndex data).take
    (room.writerIndex + data.length)).drop room.readerIndex = _
  rw [take_splice hw, List.drop_append_of_le_length]
  rw [List.length_take]
  omega

end Buffer

end Net
