/-
`JOutStream` and `JInStream`: how the bank writes and reads the fields of a packet.

The output stream is an array with a write position.  Writing at the position
overwrites what is there and moves on, growing the array when it has to; `reposition`
goes back, which is how a length that is known only later is filled in.  What has been
written is the part of the array before the position.

The input stream never goes back, so it is what has not been read yet.  A read that
asks for more than that fails its assertion, and there is no answer.
-/
import Muduo.Lib.Bytes

namespace Bank

open Lib

/-! ### Writing -/

structure JOutStream where
  buffer : Bytes
  currIndex : Nat

namespace JOutStream

def kInitialSize : Nat := 1024

def init : JOutStream := ⟨List.replicate kInitialSize 0, 0⟩

def writableBytes (jos : JOutStream) : Nat := jos.buffer.length - jos.currIndex

def ensureWritableBytes (jos : JOutStream) (len : Nat) : JOutStream :=
  if jos.writableBytes < len then
    { jos with
      buffer := jos.buffer ++ List.replicate (jos.currIndex + len - jos.buffer.length) 0 }
  else jos

def append (jos : JOutStream) (data : Bytes) : JOutStream :=
  let room := jos.ensureWritableBytes data.length
  ⟨splice room.buffer room.currIndex data, room.currIndex + data.length⟩

def reposition (jos : JOutStream) (pos : Nat) : JOutStream := { jos with currIndex := pos }

def skip (jos : JOutStream) (len : Nat) : JOutStream :=
  let room := jos.ensureWritableBytes len
  { room with currIndex := room.currIndex + len }

def clear (jos : JOutStream) : JOutStream := { jos with currIndex := 0 }

/-- `Data()` up to `Length()`. -/
def data (jos : JOutStream) : Bytes := jos.buffer.take jos.currIndex

def length (jos : JOutStream) : Nat := jos.currIndex

def putU8 (jos : JOutStream) (x : UInt8) : JOutStream := jos.append [x]

def putU16 (jos : JOutStream) (x : UInt16) : JOutStream := jos.append (beU16 x)

def putU32 (jos : JOutStream) (x : UInt32) : JOutStream := jos.append (beU32 x)

def putI8 (jos : JOutStream) (x : Int8) : JOutStream := jos.append [x.toUInt8]

def putI16 (jos : JOutStream) (x : Int16) : JOutStream := jos.append (beU16 x.toUInt16)

def putI32 (jos : JOutStream) (x : Int32) : JOutStream := jos.append (beU32 x.toUInt32)

/-- A string: the low 16 bits of its length, and so many of its bytes. -/
def putString (jos : JOutStream) (s : Bytes) : JOutStream :=
  let len := UInt16.ofNat s.length
  (jos.putU16 len).append (s.take len.toNat)

def writeBytes (jos : JOutStream) (data : Bytes) : JOutStream := jos.append data

/-- The write position is in the array. -/
def Inside (jos : JOutStream) : Prop := jos.currIndex ≤ jos.buffer.length

theorem inside_init : init.Inside := Nat.zero_le _

@[simp] theorem data_clear (jos : JOutStream) : jos.clear.data = [] := by
  simp [data, clear]

theorem length_eq_currIndex (jos : JOutStream) : jos.length = jos.currIndex := rfl

theorem length_data {jos : JOutStream} (h : jos.Inside) : jos.data.length = jos.currIndex := by
  rw [data, List.length_take]
  exact Nat.min_eq_left h

private theorem room_spec (jos : JOutStream) (len : Nat) (h : jos.Inside) :
    (jos.ensureWritableBytes len).currIndex = jos.currIndex ∧
      (jos.ensureWritableBytes len).currIndex + len
        ≤ (jos.ensureWritableBytes len).buffer.length ∧
      ∃ pad, (jos.ensureWritableBytes len).buffer = jos.buffer ++ pad := by
  unfold Inside at h
  unfold ensureWritableBytes
  split
  · refine ⟨rfl, ?_, _, rfl⟩
    simp only [List.length_append, List.length_replicate]
    omega
  · rename_i hnot
    unfold writableBytes at hnot
    exact ⟨rfl, by omega, [], (List.append_nil _).symm⟩

/-- Writing adds to what has been written. -/
theorem data_append {jos : JOutStream} (h : jos.Inside) (d : Bytes) :
    (jos.append d).Inside ∧ (jos.append d).data = jos.data ++ d := by
  obtain ⟨hidx, hroom, pad, hbuf⟩ := room_spec jos d.length h
  refine ⟨?_, ?_⟩
  · unfold Inside append
    rw [length_splice hroom]
    exact hroom
  · unfold data append
    rw [take_splice (by omega), hidx, hbuf, List.take_append_of_le_length h]

/-! ### Parts of a program that only add to the stream -/

/-- `f` adds `d` to what has been written. -/
def Appends (f : JOutStream → JOutStream) (d : Bytes) : Prop :=
  ∀ jos, jos.Inside → (f jos).Inside ∧ (f jos).data = jos.data ++ d

theorem Appends.nil : Appends id [] := fun _ h => ⟨h, (List.append_nil _).symm⟩

theorem Appends.comp {f g : JOutStream → JOutStream} {d e : Bytes} (hf : Appends f d)
    (hg : Appends g e) : Appends (fun jos => g (f jos)) (d ++ e) := by
  intro jos h
  obtain ⟨h₁, h₂⟩ := hf jos h
  obtain ⟨h₃, h₄⟩ := hg _ h₁
  exact ⟨h₃, by rw [h₄, h₂, List.append_assoc]⟩

theorem appends_writeBytes (d : Bytes) : Appends (fun jos => jos.writeBytes d) d :=
  fun _ h => data_append h d

theorem appends_putU8 (x : UInt8) : Appends (fun jos => jos.putU8 x) [x] :=
  fun _ h => data_append h _

theorem appends_putU16 (x : UInt16) : Appends (fun jos => jos.putU16 x) (beU16 x) :=
  fun _ h => data_append h _

theorem appends_putU32 (x : UInt32) : Appends (fun jos => jos.putU32 x) (beU32 x) :=
  fun _ h => data_append h _

theorem appends_putI8 (x : Int8) : Appends (fun jos => jos.putI8 x) [x.toUInt8] :=
  fun _ h => data_append h _

theorem appends_putI16 (x : Int16) : Appends (fun jos => jos.putI16 x) (beU16 x.toUInt16) :=
  fun _ h => data_append h _

theorem appends_putI32 (x : Int32) : Appends (fun jos => jos.putI32 x) (beU32 x.toUInt32) :=
  fun _ h => data_append h _

/-- The bytes of a string field. -/
def stringField (s : Bytes) : Bytes :=
  beU16 (UInt16.ofNat s.length) ++ s.take (UInt16.ofNat s.length).toNat

theorem appends_putString (s : Bytes) : Appends (fun jos => jos.putString s) (stringField s) :=
  (appends_putU16 _).comp fun _ h => data_append h _

theorem stringField_of_lt {s : Bytes} (h : s.length < 65536) :
    stringField s = beU16 (UInt16.ofNat s.length) ++ s := by
  have hn : (UInt16.ofNat s.length).toNat = s.length := by
    rw [UInt16.toNat_ofNat']
    omega
  rw [stringField, hn, List.take_length]

/-- Going back over bytes that have been written, with as many others, and forth again. -/
theorem data_patch {jos : JOutStream} (h : jos.Inside) {a gap c e : Bytes}
    (hdata : jos.data = a ++ gap ++ c) (he : gap.length = e.length) :
    let patched := ((jos.reposition a.length).append e).reposition jos.length
    patched.Inside ∧ patched.data = a ++ e ++ c := by
  have hlen : jos.currIndex = a.length + gap.length + c.length := by
    rw [← length_data h, hdata]
    simp only [List.length_append]
  have hin : jos.currIndex ≤ jos.buffer.length := h
  have hfit : a.length + e.length ≤ jos.buffer.length := by omega
  have hno : (jos.reposition a.length).ensureWritableBytes e.length = jos.reposition a.length := by
    unfold ensureWritableBytes writableBytes reposition
    exact if_neg (by simp only; omega)
  have hpatch : ((jos.reposition a.length).append e).buffer = splice jos.buffer a.length e := by
    unfold append
    rw [hno]
    rfl
  refine ⟨?_, ?_⟩
  · show jos.currIndex ≤ ((jos.reposition a.length).append e).buffer.length
    rw [hpatch, length_splice hfit]
    exact hin
  · show ((jos.reposition a.length).append e).buffer.take jos.currIndex = _
    have hbytes : jos.buffer = a ++ gap ++ (c ++ jos.buffer.drop jos.currIndex) := by
      conv => lhs; rw [← List.take_append_drop jos.currIndex jos.buffer]
      rw [show jos.buffer.take jos.currIndex = jos.data from rfl, hdata]
      simp only [List.append_assoc]
    rw [hpatch, hbytes, splice_middle _ _ _ _ he, ← List.append_assoc, hlen, he]
    have hall : (a ++ e ++ c).length = a.length + e.length + c.length := by
      simp only [List.length_append]
    rw [← hall, List.take_left]

/-- Leaving `n` bytes adds as many to what has been written. -/
theorem data_skip {jos : JOutStream} (h : jos.Inside) (n : Nat) :
    (jos.skip n).Inside ∧ ∃ gap : Bytes, gap.length = n ∧ (jos.skip n).data = jos.data ++ gap := by
  obtain ⟨hidx, hroom, pad, hbuf⟩ := room_spec jos n h
  refine ⟨hroom, ((jos.ensureWritableBytes n).buffer.drop jos.currIndex).take n, ?_, ?_⟩
  · rw [List.length_take, List.length_drop]
    omega
  · have htake : jos.data = (jos.ensureWritableBytes n).buffer.take jos.currIndex := by
      rw [hbuf, List.take_append_of_le_length h]
      rfl
    rw [htake]
    show (jos.ensureWritableBytes n).buffer.take
      ((jos.ensureWritableBytes n).currIndex + n) = _
    rw [hidx, List.take_add]

/-- Leave `n` bytes, write `d`, go back and fill the gap with `e`, and go on behind
`d`: the gap holds `e` in the end, whatever was in the array before. -/
theorem data_backpatch {jos : JOutStream} (h : jos.Inside) {f : JOutStream → JOutStream}
    {d : Bytes} (hf : Appends f d) (n : Nat) :
    (f (jos.skip n)).length = jos.length + n + d.length ∧
      ∀ e : Bytes, e.length = n →
        let out := f (jos.skip n)
        let patched := ((out.reposition jos.length).append e).reposition out.length
        patched.Inside ∧ patched.data = jos.data ++ e ++ d := by
  obtain ⟨hskip, gap, hgap, hold⟩ := data_skip h n
  obtain ⟨hin, hdata⟩ := hf _ hskip
  rw [hold] at hdata
  have hjos : jos.length = jos.data.length := (length_data h).symm
  refine ⟨?_, ?_⟩
  · show (f (jos.skip n)).currIndex = _
    rw [← length_data hin, hdata, hjos]
    simp only [List.length_append, hgap]
  · intro e he out
    rw [hjos]
    exact data_patch hin hdata (hgap.trans he.symm)

end JOutStream

/-! ### Reading -/

/-- What a `JInStream` has left. -/
abbrev JInStream := Bytes

namespace JInStream

/-- A read: none when an assertion of the stream fails. -/
abbrev Read := StateT JInStream Option

def readBytes (len : Nat) : Read Bytes := fun jis =>
  if len ≤ jis.length then some (jis.take len, jis.drop len) else none

/-- `Skip`, whose assertion asks for one byte more than it takes. -/
def skip (len : Nat) : Read Unit := fun jis =>
  if len < jis.length then some ((), jis.drop len) else none

def getU8 : Read UInt8
  | a :: rest => some (a, rest)
  | _ => none

def getU16 : Read UInt16
  | a :: b :: rest => some (toU16 a b, rest)
  | _ => none

def getU32 : Read UInt32
  | a :: b :: c :: d :: rest => some (toU32 a b c d, rest)
  | _ => none

def getI8 : Read Int8
  | a :: rest => some (a.toInt8, rest)
  | _ => none

def getI16 : Read Int16
  | a :: b :: rest => some ((toU16 a b).toInt16, rest)
  | _ => none

def getI32 : Read Int32
  | a :: b :: c :: d :: rest => some ((toU32 a b c d).toInt32, rest)
  | _ => none

def getString : Read Bytes := do
  let len ← getU16
  readBytes len.toNat

/-- Reads one after the other. -/
theorem bind_of_some {α β : Type} {x : Read α} {f : α → Read β} {jis rest : JInStream} {a : α}
    (h : x jis = some (a, rest)) : (x >>= f) jis = f a rest := by
  show (x jis).bind (fun p => f p.1 p.2) = f a rest
  rw [h]
  rfl

theorem readBytes_append {d : Bytes} (rest : JInStream) {n : Nat} (h : d.length = n) :
    readBytes n (d ++ rest) = some (d, rest) := by
  subst h
  rw [readBytes, if_pos (by simp), List.take_left, List.drop_left]

theorem skip_append {d : Bytes} {rest : JInStream} {n : Nat} (h : d.length = n)
    (hrest : rest ≠ []) : skip n (d ++ rest) = some ((), rest) := by
  subst h
  have hpos := List.length_pos_iff.mpr hrest
  rw [skip, if_pos (by rw [List.length_append]; omega), List.drop_left]

theorem getU16_append (x : UInt16) (rest : JInStream) :
    getU16 (beU16 x ++ rest) = some (x, rest) := by
  simp only [beU16, List.cons_append, List.nil_append, getU16, toU16_beU16]

theorem getU32_append (x : UInt32) (rest : JInStream) :
    getU32 (beU32 x ++ rest) = some (x, rest) := by
  simp only [beU32, List.cons_append, List.nil_append, getU32, toU32_beU32]

theorem getI16_append (x : Int16) (rest : JInStream) :
    getI16 (beU16 x.toUInt16 ++ rest) = some (x, rest) := by
  simp only [beU16, List.cons_append, List.nil_append, getI16, toU16_beU16, Int16.toInt16_toUInt16]

theorem getI32_append (x : Int32) (rest : JInStream) :
    getI32 (beU32 x.toUInt32 ++ rest) = some (x, rest) := by
  simp only [beU32, List.cons_append, List.nil_append, getI32, toU32_beU32, Int32.toInt32_toUInt32]

/-- What is read back of a string is what its 16 bits of length cover. -/
theorem getString_stringField (s : Bytes) (rest : JInStream) :
    getString (JOutStream.stringField s ++ rest) = some (s.take (s.length % 65536), rest) := by
  have hn : (UInt16.ofNat s.length).toNat = s.length % 65536 := UInt16.toNat_ofNat'
  have hlen : (s.take (s.length % 65536)).length = s.length % 65536 := by
    rw [List.length_take]
    exact Nat.min_eq_left (Nat.mod_le _ _)
  rw [JOutStream.stringField, hn, List.append_assoc, getString, bind_of_some (getU16_append _ _), hn]
  exact readBytes_append rest hlen

theorem getString_append {s : Bytes} (h : s.length < 65536) (rest : JInStream) :
    getString (JOutStream.stringField s ++ rest) = some (s, rest) := by
  rw [getString_stringField, Nat.mod_eq_of_lt h, List.take_length]

end JInStream

end Bank
