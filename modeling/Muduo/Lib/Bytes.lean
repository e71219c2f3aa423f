/-
Byte strings and the few things every wire format does with them.

A byte string is a list of `UInt8`.  Three operations cover what a packet writer
and a packet reader need: integers in network order, overwriting a stretch of an
array in place, and reading a character array the way C does, up to its first
NUL.  Each comes with the equations the layers above rewrite by, so that none of
them has to open these definitions again.
-/
import Mathlib.Data.List.TakeWhile
import Mathlib.Tactic

namespace Lib

/-- A byte string. -/
abbrev Bytes := List UInt8

/-! ### Network byte order -/

/-- The two bytes of a 16-bit word, most significant first. -/
def beU16 (x : UInt16) : Bytes :=
  [UInt8.ofNat (x.toNat / 256), UInt8.ofNat (x.toNat % 256)]

/-- The 16-bit word two bytes spell, most significant first. -/
def toU16 (a b : UInt8) : UInt16 :=
  UInt16.ofNat (a.toNat * 256 + b.toNat)

/-- The four bytes of a 32-bit word, most significant first. -/
def beU32 (x : UInt32) : Bytes :=
  [UInt8.ofNat (x.toNat / 16777216), UInt8.ofNat (x.toNat / 65536 % 256),
    UInt8.ofNat (x.toNat / 256 % 256), UInt8.ofNat (x.toNat % 256)]

/-- The 32-bit word four bytes spell, most significant first. -/
def toU32 (a b c d : UInt8) : UInt32 :=
  UInt32.ofNat (a.toNat * 16777216 + b.toNat * 65536 + c.toNat * 256 + d.toNat)

@[simp] theorem length_beU16 (x : UInt16) : (beU16 x).length = 2 := rfl

@[simp] theorem length_beU32 (x : UInt32) : (beU32 x).length = 4 := rfl

@[simp] theorem toU16_beU16 (x : UInt16) :
    toU16 (UInt8.ofNat (x.toNat / 256)) (UInt8.ofNat (x.toNat % 256)) = x := by
  apply UInt16.toNat_inj.mp
  have hx : x.toNat < 65536 := x.toNat_lt
  simp only [toU16, UInt16.toNat_ofNat', UInt8.toNat_ofNat']
  omega

@[simp] theorem toU32_beU32 (x : UInt32) :
    toU32 (UInt8.ofNat (x.toNat / 16777216)) (UInt8.ofNat (x.toNat / 65536 % 256))
      (UInt8.ofNat (x.toNat / 256 % 256)) (UInt8.ofNat (x.toNat % 256)) = x := by
  apply UInt32.toNat_inj.mp
  have hx : x.toNat < 4294967296 := x.toNat_lt
  simp only [toU32, UInt32.toNat_ofNat', UInt8.toNat_ofNat']
  omega

/-! ### Writing into an array -/

/-- Overwrite the bytes of `b` from position `i` on with `d`. -/
def splice (b : Bytes) (i : Nat) (d : Bytes) : Bytes :=
  b.take i ++ d ++ b.drop (i + d.length)

theorem length_splice {b d : Bytes} {i : Nat} (h : i + d.length ≤ b.length) :
    (splice b i d).length = b.length := by
  simp only [splice, List.length_append, List.length_take, List.length_drop]
  omega

/-- Up to the end of what was written, the array reads as the old prefix and `d`. -/
theorem take_splice {b d : Bytes} {i : Nat} (h : i ≤ b.length) :
    (splice b i d).take (i + d.length) = b.take i ++ d := by
  have hlen : (b.take i ++ d).length = i + d.length := by simp [h]
  rw [splice, ← hlen, List.take_left]

theorem splice_middle (a d d' c : Bytes) (h : d.length = d'.length) :
    splice (a ++ d ++ c) a.length d' = a ++ d' ++ c := by
  rw [splice, List.append_assoc a d c, List.take_left, ← h, ← List.length_append,
    ← List.append_assoc a d c, List.drop_left]

/-- Writing on where the last write ended is one write. -/
theorem splice_splice {b d : Bytes} {i : Nat} (h : i + d.length ≤ b.length) (e : Bytes) :
    splice (splice b i d) (i + d.length) e = splice b i (d ++ e) := by
  have hi : i ≤ b.length := by omega
  have hlen : (b.take i ++ d).length = i + d.length := by simp [hi]
  have hdrop : (splice b i d).drop (i + d.length + e.length) =
      b.drop (i + (d ++ e).length) := by
    rw [← List.drop_drop, splice, ← hlen, List.drop_left, hlen, List.drop_drop,
      List.length_append, Nat.add_assoc]
  rw [splice, take_splice hi, hdrop, splice, List.append_assoc (b.take i)]

/-- Writing over what was written, and no further, leaves the rest of it. -/
theorem splice_over {b d e : Bytes} {i : Nat} (h : i + (d ++ e).length ≤ b.length)
    {d' : Bytes} (hd : d'.length = d.length) :
    splice (splice b i (d ++ e)) i d' = splice b i (d' ++ e) := by
  rw [List.length_append] at h
  have hi : (b.take i).length = i := by
    rw [List.length_take]
    omega
  have hb : splice b i (d ++ e) = b.take i ++ d ++ (e ++ b.drop (i + (d ++ e).length)) := by
    simp only [splice, List.append_assoc]
  have hb' : splice b i (d' ++ e) = b.take i ++ d' ++ (e ++ b.drop (i + (d ++ e).length)) := by
    simp only [splice, List.append_assoc, List.length_append, hd]
  have hmid := splice_middle (b.take i) d d' (e ++ b.drop (i + (d ++ e).length)) hd.symm
  rw [hi] at hmid
  rw [hb, hb', hmid]

/-- What was written is read back. -/
theorem take_drop_splice {b d : Bytes} {i : Nat} (h : i ≤ b.length) (e : Bytes) :
    ((splice b i (d ++ e)).drop i).take d.length = d := by
  have hi : (b.take i).length = i := by
    rw [List.length_take]
    omega
  have hdrop : (splice b i (d ++ e)).drop i = d ++ (e ++ b.drop (i + (d ++ e).length)) := by
    rw [splice, List.append_assoc, List.append_assoc]
    exact List.drop_left' hi
  rw [hdrop, List.take_left]

/-! ### Character arrays -/

/-- A character array read as a C string: up to its first NUL. -/
def cString (b : Bytes) : Bytes :=
  b.takeWhile (· ≠ 0)

/-- `n` bytes read from `s.c_str()`: the string, its terminating NUL, and then
whatever `mem` says follows it in memory. -/
def cBytes (mem : Nat → UInt8) (s : Bytes) (n : Nat) : Bytes :=
  (s ++ 0 :: (List.range n).map mem).take n

@[simp] theorem length_cBytes (mem : Nat → UInt8) (s : Bytes) (n : Nat) :
    (cBytes mem s n).length = n := by
  simp only [cBytes, List.length_take, List.length_append, List.length_cons, List.length_map,
    List.length_range]
  omega

theorem cBytes_of_length {mem : Nat → UInt8} {s : Bytes} {n : Nat} (h : s.length = n) :
    cBytes mem s n = s := by
  rw [cBytes, ← h, List.take_left]

theorem cString_of_no_nul {s : Bytes} (h : (0 : UInt8) ∉ s) : cString s = s := by
  rw [cString, List.takeWhile_eq_self_iff]
  intro x hx
  have : x ≠ 0 := fun h0 => h (h0 ▸ hx)
  simpa using this

theorem cString_append_nul {s t : Bytes} (h : (0 : UInt8) ∉ s) :
    cString (s ++ 0 :: t) = s := by
  have hall : ∀ x ∈ s, (decide (x ≠ 0)) = true := by
    intro x hx
    have : x ≠ 0 := fun h0 => h (h0 ▸ hx)
    simpa using this
  rw [cString, List.takeWhile_append_of_pos hall]
  simp

/-- What is behind the NUL is not read. -/
theorem cString_append_of_mem {s t : Bytes} (h : (0 : UInt8) ∈ s) :
    cString (s ++ t) = cString s := by
  obtain ⟨a, b, rfl, ha⟩ := List.eq_append_cons_of_mem h
  rw [List.append_assoc, List.cons_append, cString_append_nul ha, cString_append_nul ha]

/-- A string that fits its field survives the trip through the field: what is
read back up to the first NUL is the string, whatever follows it in memory. -/
theorem cString_cBytes {mem : Nat → UInt8} {s : Bytes} {n : Nat} (h0 : (0 : UInt8) ∉ s)
    (hn : s.length ≤ n) : cString (cBytes mem s n) = s := by
  rcases Nat.eq_or_lt_of_le hn with heq | hlt
  · rw [cBytes_of_length heq, cString_of_no_nul h0]
  · obtain ⟨m, rfl⟩ : ∃ m, n = s.length + (m + 1) := ⟨n - s.length - 1, by omega⟩
    rw [cBytes, List.take_length_add_append, List.take_succ_cons, cString_append_nul h0]

end Lib
