/-
Which lengths a `StringPiece` keeps.

As long as nothing wraps, the members on `size_t`s are those of the buffer with its invariant in
the type.  Where something wraps, it is the copy that shows it: a range that is there on both sides
is not longer than a `vector` can be.  So a length either comes back from `int` as it went in, or
the bytes do not arrive.
-/
import Muduo.Net.StringPiece
import Muduo.Proofs.BufferQueue

namespace Net

open Lib

/-! ### Numbers -/

theorem sizeT_add {m n : Nat} (h : m + n < 2 ^ 64) : sizeT (m + n) = m + n := by
  unfold sizeT
  omega

theorem sizeT_sub {m n : Nat} (h : n ≤ m) (hm : m < 2 ^ 64) : sizeT (m - n) = m - n := by
  unfold sizeT
  omega

/-- From `size_t` to `int` and back. -/
theorem size_of_ofNat (ptr : Bytes) (n : Nat) :
    (StringPiece.mk ptr (Int32.ofNat n)).size = sizeT ((n : Int).bmod (2 ^ 32)) := by
  unfold StringPiece.size
  rw [Int32.toInt_ofNat']
  rfl

/-- The lengths that come back. -/
theorem size_eq_iff (ptr : Bytes) (n : Nat) :
    (StringPiece.mk ptr (Int32.ofNat n)).size = n
      ↔ n < 2 ^ 31 ∨ 2 ^ 64 - 2 ^ 31 ≤ n ∧ n < 2 ^ 64 := by
  rw [size_of_ofNat, Int.bmod_def]
  unfold sizeT
  split <;> omega

theorem size_of_lt {ptr : Bytes} {n : Nat} (h : n < 2 ^ 31) :
    (StringPiece.mk ptr (Int32.ofNat n)).size = n := (size_eq_iff ptr n).mpr (Or.inl h)

/-- Of the lengths that come back, a container has the small ones. -/
theorem lt_of_size_eq {ptr : Bytes} {n : Nat} (h : (StringPiece.mk ptr (Int32.ofNat n)).size = n)
    (hmax : n ≤ maxSize) : n < 2 ^ 31 := by
  unfold maxSize at hmax
  have := (size_eq_iff ptr n).mp h
  omega

/-! ### A buffer in a `vector` -/

/-- A buffer whose array is not larger than a `vector` can be. -/
structure VectorBuffer extends Buffer where
  size_le : buffer.length ≤ maxSize

/-- There is room for `len` bytes, or can be made. -/
def VectorBuffer.Room (b : VectorBuffer) (len : Nat) : Prop :=
  Buffer.kCheapPrepend + b.readableBytes + len ≤ b.buffer.length ∨ b.writerIndex + len ≤ maxSize

theorem VectorBuffer.Room.le_max {b : VectorBuffer} {len : Nat} (h : b.Room len) :
    len ≤ maxSize := by
  have hsize := b.size_le
  obtain h | h := h <;> omega

namespace Sized

open Buffer (kCheapPrepend kInitialSize)

variable {b : VectorBuffer} {b' : RawBuffer} {data : Bytes} {len : Nat}

theorem bind_check {p : Prop} [Decidable p] (hp : p) {β : Type}
    (f : Unit → Except LengthFault β) : (check p >>= f) = f () := by
  rw [check, if_pos hp]
  rfl

theorem check_ok {p : Prop} [Decidable p] {u : Unit} (h : check p = .ok u) : p := by
  unfold check at h
  split at h
  · assumption
  · cases h

theorem resize_ok {r : RawBuffer} {n : Nat} (h : resize r n = .ok b') :
    n ≤ maxSize ∧ b' = { r with buffer := RawBuffer.resize r.buffer n } := by
  unfold resize at h
  split at h
  · cases h
    exact ⟨by assumption, rfl⟩
  · cases h

theorem copy_ok {r : RawBuffer} {pos : Nat} (h : copy r pos data len = .ok b') :
    len ≤ data.length ∧ pos + len ≤ r.buffer.length ∧
      b' = { r with buffer := splice r.buffer pos (data.take len) } := by
  unfold copy at h
  split at h
  · cases h
    rename_i hfit
    exact ⟨hfit.1, hfit.2, rfl⟩
  · cases h

theorem copy_of {r : RawBuffer} {pos : Nat} (hlen : len ≤ data.length)
    (hfit : pos + len ≤ r.buffer.length) :
    copy r pos data len = .ok { r with buffer := splice r.buffer pos (data.take len) } :=
  if_pos ⟨hlen, hfit⟩

/-! ### Nothing wraps in a `vector` -/

theorem readableBytes_raw (b : VectorBuffer) : readableBytes b.raw = b.readableBytes := by
  have hr := b.reader_le
  have hw := b.writer_le
  have hsize := b.size_le
  unfold maxSize at hsize
  exact sizeT_sub hr (by show b.writerIndex < _; omega)

theorem writableBytes_raw (b : VectorBuffer) : writableBytes b.raw = b.writableBytes := by
  have hw := b.writer_le
  have hsize := b.size_le
  unfold maxSize at hsize
  exact sizeT_sub hw (by show b.buffer.length < _; omega)

theorem free_raw (b : VectorBuffer) :
    sizeT (writableBytes b.raw + prependableBytes b.raw)
      = b.writableBytes + b.prependableBytes := by
  have hr := b.reader_le
  have hw := b.writer_le
  have hsize := b.size_le
  unfold maxSize at hsize
  rw [writableBytes_raw]
  refine sizeT_add ?_
  show b.buffer.length - b.writerIndex + b.readerIndex < _
  omega

/-! ### Room -/

/-- Making room keeps the array in a `vector`. -/
theorem size_ensureWritableBytes (hroom : b.Room len) :
    (b.ensureWritableBytes len).buffer.length ≤ maxSize := by
  have hr := b.reader_le
  have hw := b.writer_le
  have hsize := b.size_le
  unfold Buffer.ensureWritableBytes
  split
  · rename_i hlt
    unfold Buffer.makeSpace
    split
    · rename_i hgrow
      unfold Buffer.writableBytes at hlt hgrow
      unfold Buffer.prependableBytes at hgrow
      simp only [List.length_append, List.length_replicate]
      obtain hroom | hroom := hroom
      · unfold Buffer.readableBytes at hroom
        omega
      · omega
    · split
      · rename_i hpre
        show (splice b.buffer kCheapPrepend b.readable).length ≤ _
        rw [length_splice]
        · exact hsize
        · rw [Buffer.length_readable, Buffer.readableBytes]
          omega
      · exact hsize
  · exact hsize

/-- The buffer with the room. -/
def ensured (b : VectorBuffer) (len : Nat) (hroom : b.Room len) : VectorBuffer :=
  { b.ensureWritableBytes len with size_le := size_ensureWritableBytes hroom }

theorem raw_ensured (b : VectorBuffer) (hroom : b.Room len) :
    (ensured b len hroom).raw = (b.ensureWritableBytes len).raw := rfl

theorem readable_ensured (b : VectorBuffer) (hroom : b.Room len) :
    (ensured b len hroom).readable = b.readable := b.readable_ensureWritableBytes len

theorem le_writableBytes_ensured (b : VectorBuffer) (hroom : b.Room len) :
    len ≤ (ensured b len hroom).writableBytes := b.ensureWritableBytes_spec len

theorem readerIndex_ensured (b : VectorBuffer) (hroom : b.Room len) :
    (ensured b len hroom).readerIndex = (b.ensureWritableBytes len).readerIndex := rfl

theorem makeSpace_complete (hlt : b.writableBytes < len) (hroom : b.Room len) :
    makeSpace b.raw len = .ok (b.makeSpace len).raw := by
  have hr := b.reader_le
  have hw := b.writer_le
  have hsize := b.size_le
  have hle := hroom.le_max
  have hwrite : b.writableBytes = b.buffer.length - b.writerIndex := rfl
  unfold maxSize at hle hsize
  unfold makeSpace Buffer.makeSpace
  rw [free_raw, sizeT_add (by unfold kCheapPrepend; omega)]
  by_cases hgrow : b.writableBytes + b.prependableBytes < len + kCheapPrepend
  · rw [if_pos hgrow, dif_pos hgrow]
    have hfit : b.writerIndex + len ≤ maxSize := by
      obtain hroom | hroom := hroom
      · unfold Buffer.readableBytes at hroom
        unfold Buffer.prependableBytes at hgrow
        omega
      · exact hroom
    have hsum : sizeT (b.raw.writerIndex + len) = b.writerIndex + len :=
      sizeT_add (by show b.writerIndex + len < _; unfold maxSize at hfit; omega)
    rw [hsum, resize, if_pos hfit, RawBuffer.resize,
      List.take_of_length_le (show b.raw.buffer.length ≤ _ by
        show b.buffer.length ≤ _
        omega)]
    rfl
  · have hpre : kCheapPrepend < b.readerIndex := by
      unfold Buffer.prependableBytes at hgrow
      omega
    rw [if_neg hgrow, dif_neg hgrow, dif_pos hpre,
      bind_check (show kCheapPrepend < b.raw.readerIndex from hpre), readableBytes_raw]
    have hread : b.readableBytes = b.writerIndex - b.readerIndex := rfl
    have hthere : b.readableBytes ≤ (peek b.raw).length := by
      show _ ≤ (b.buffer.drop b.readerIndex).length
      rw [List.length_drop]
      omega
    have hfit : kCheapPrepend + b.readableBytes ≤ b.raw.buffer.length := by
      show _ ≤ b.buffer.length
      omega
    have hend : sizeT (kCheapPrepend + b.readableBytes) = kCheapPrepend + b.readableBytes :=
      sizeT_add (by unfold kCheapPrepend; omega)
    have hmoved : b.readableBytes = sizeT ((kCheapPrepend + b.readableBytes : Nat)
        - kCheapPrepend) := by
      rw [sizeT_sub (Nat.le_add_right _ _) (by unfold kCheapPrepend; omega)]
      omega
    show (copy _ _ _ b.readableBytes >>= _) = _
    rw [copy_of hthere hfit]
    show (check (_ = sizeT (sizeT (kCheapPrepend + b.readableBytes) - kCheapPrepend)) >>= _) = _
    rw [hend]
    exact bind_check hmoved _

theorem ensureWritableBytes_complete (hroom : b.Room len) :
    ensureWritableBytes b.raw len = .ok (b.ensureWritableBytes len).raw := by
  have hspec : len ≤ writableBytes (ensured b len hroom).raw := by
    rw [writableBytes_raw]
    exact b.ensureWritableBytes_spec len
  unfold ensureWritableBytes
  rw [writableBytes_raw]
  by_cases hlt : b.writableBytes < len
  · have hb : b.ensureWritableBytes len = b.makeSpace len := if_pos hlt
    rw [if_pos hlt, makeSpace_complete hlt hroom, ← hb]
    exact bind_check hspec _
  · have hb : b.ensureWritableBytes len = b.toBuffer := if_neg hlt
    rw [if_neg hlt, hb]
    rw [← hb]
    exact bind_check hspec _

theorem raw_append_eq {b : Buffer} (h : data.length = len) :
    (b.append data).raw = ⟨splice (b.ensureWritableBytes len).buffer
      (b.ensureWritableBytes len).writerIndex data, (b.ensureWritableBytes len).readerIndex,
      (b.ensureWritableBytes len).writerIndex + len⟩ := by
  subst h
  rfl

/-- Where there is room, what is there is appended. -/
theorem append_complete (hlen : len ≤ data.length) (hroom : b.Room len) :
    append b.raw data len = .ok (b.append (data.take len)).raw := by
  have hspec := le_writableBytes_ensured b hroom
  have hw := (ensured b len hroom).writer_le
  have hsize := (ensured b len hroom).size_le
  have htake : (data.take len).length = len := by
    rw [List.length_take]
    omega
  unfold Buffer.writableBytes at hspec
  unfold maxSize at hsize
  have hfit : (ensured b len hroom).raw.writerIndex + len
      ≤ (ensured b len hroom).raw.buffer.length := by
    show (ensured b len hroom).writerIndex + len ≤ (ensured b len hroom).buffer.length
    omega
  have hsum : sizeT ((ensured b len hroom).raw.writerIndex + len)
      = (ensured b len hroom).writerIndex + len := by
    refine sizeT_add ?_
    show (ensured b len hroom).writerIndex + len < _
    omega
  unfold append
  rw [ensureWritableBytes_complete hroom]
  show (copy (ensured b len hroom).raw (ensured b len hroom).raw.writerIndex data len >>= _) = _
  rw [copy_of hlen hfit, raw_append_eq htake]
  show Except.ok (RawBuffer.mk _ _ (sizeT ((ensured b len hroom).raw.writerIndex + len))) = _
  rw [hsum]
  rfl

theorem readable_raw (b : Buffer) : b.raw.readable = b.readable := rfl

/-- What `ensureWritableBytes` does. -/
theorem ensureWritableBytes_sound {r : RawBuffer} (h : ensureWritableBytes r len = .ok b') :
    ¬ writableBytes r < len ∧ b' = r ∨ writableBytes r < len ∧ makeSpace r len = .ok b' := by
  unfold ensureWritableBytes at h
  by_cases hlt : writableBytes r < len
  · rw [if_pos hlt] at h
    obtain ⟨b₁, hspace, h⟩ := bind_ok h
    obtain ⟨u, -, h⟩ := bind_ok h
    cases h
    exact Or.inr ⟨hlt, hspace⟩
  · rw [if_neg hlt] at h
    obtain ⟨b₁, hpure, h⟩ := bind_ok h
    obtain ⟨u, -, h⟩ := bind_ok h
    cases h
    cases hpure
    exact Or.inl ⟨hlt, rfl⟩

/-- Whatever the sums come to, the array is one of a `vector`, or is as long as it was. -/
theorem makeSpace_sound (h : makeSpace b.raw len = .ok b') :
    b'.writerIndex = b.writerIndex ∧ b'.buffer.length ≤ maxSize ∨
      b'.writerIndex = kCheapPrepend + b.readableBytes ∧ b'.buffer.length = b.buffer.length := by
  unfold makeSpace at h
  split at h
  · obtain ⟨hmax, rfl⟩ := resize_ok h
    refine Or.inl ⟨rfl, ?_⟩
    show (RawBuffer.resize b.raw.buffer (sizeT (b.raw.writerIndex + len))).length ≤ _
    rw [RawBuffer.resize, List.length_append, List.length_take, List.length_replicate]
    omega
  · obtain ⟨u, -, h⟩ := bind_ok h
    obtain ⟨b₁, hcopy, h⟩ := bind_ok h
    obtain ⟨u, -, h⟩ := bind_ok h
    cases h
    obtain ⟨hthere, hfit, rfl⟩ := copy_ok hcopy
    rw [readableBytes_raw] at hthere hfit ⊢
    have hsize := b.size_le
    unfold maxSize at hsize
    refine Or.inr ⟨?_, ?_⟩
    · refine sizeT_add ?_
      show kCheapPrepend + b.readableBytes < _
      have hfit' : kCheapPrepend + b.readableBytes ≤ b.buffer.length := hfit
      omega
    · refine length_splice ?_
      rw [List.length_take, Nat.min_eq_left hthere]
      exact hfit

/-- What has been appended was there, and there was room for it. -/
theorem append_sound (h : append b.raw data len = .ok b') : len ≤ data.length ∧ b.Room len := by
  unfold append at h
  obtain ⟨b₁, hensure, h⟩ := bind_ok h
  obtain ⟨b₂, hcopy, -⟩ := bind_ok h
  obtain ⟨hlen, hfit, -⟩ := copy_ok hcopy
  have hw := b.writer_le
  have hsize := b.size_le
  refine ⟨hlen, ?_⟩
  obtain ⟨-, rfl⟩ | ⟨-, hspace⟩ := ensureWritableBytes_sound hensure
  · exact Or.inr (hfit.trans hsize)
  · obtain ⟨hwriter, hmax⟩ | ⟨hwriter, hlength⟩ := makeSpace_sound hspace
    · rw [hwriter] at hfit
      exact Or.inr (hfit.trans hmax)
    · rw [hwriter, hlength] at hfit
      exact Or.inl hfit

/-! ### Appending a string -/

/-- The string is appended, and all of it. -/
def AppendsAll (b : VectorBuffer) (str : Bytes) : Prop :=
  ∃ b', appendPiece b.raw (.ofString str) = .ok b' ∧ b'.readable = b.readable ++ str

theorem appendsAll_iff (b : VectorBuffer) (str : Bytes) :
    AppendsAll b str ↔ str.length < 2 ^ 31 ∧ b.Room str.length := by
  constructor
  · rintro ⟨b', happend, hreadable⟩
    obtain ⟨hlen, hroom⟩ := append_sound happend
    have hb' := happend.symm.trans (append_complete hlen hroom)
    cases hb'
    have hall : str.take (StringPiece.ofString str).size = str :=
      List.append_cancel_left ((Buffer.readable_append _ _).symm.trans hreadable)
    have hsize : (StringPiece.ofString str).size = str.length :=
      (List.length_take_of_le hlen).symm.trans (congrArg List.length hall)
    rw [hsize] at hroom
    exact ⟨lt_of_size_eq hsize hroom.le_max, hroom⟩
  · rintro ⟨hlt, hroom⟩
    have hsize : (StringPiece.ofString str).size = str.length := size_of_lt hlt
    refine ⟨_, append_complete hsize.le (hsize ▸ hroom), ?_⟩
    show (b.append (str.take (StringPiece.ofString str).size)).readable = _
    rw [Buffer.readable_append, hsize, List.take_length]

/-! ### Shrinking -/

/-- The readable bytes are left, and there is the space that was asked for. -/
def Shrinks (b : VectorBuffer) (reserve : Nat) : Prop :=
  ∃ b', shrink b.raw reserve = .ok b' ∧ b'.readable = b.readable ∧ reserve ≤ writableBytes b'

/-- A fresh buffer. -/
def fresh : VectorBuffer :=
  { Buffer.init with
    size_le := by
      show (List.replicate (kCheapPrepend + kInitialSize) (0 : UInt8)).length ≤ _
      rw [List.length_replicate]
      decide }

theorem writableBytes_fresh : fresh.writableBytes = kInitialSize := by
  have hbuffer : fresh.buffer = List.replicate (kCheapPrepend + kInitialSize) 0 := rfl
  have hwriter : fresh.writerIndex = kCheapPrepend := rfl
  rw [Buffer.writableBytes, hbuffer, hwriter, List.length_replicate, Nat.add_sub_cancel_left]

/-- No sum wraps while room is made in a fresh buffer. -/
theorem fresh_room (hlen : len < 2 ^ 64) (h : ensureWritableBytes fresh.raw len = .ok b') :
    fresh.Room len := by
  have hwrite := writableBytes_fresh
  obtain ⟨hnot, -⟩ | ⟨-, hspace⟩ := ensureWritableBytes_sound h
  · rw [writableBytes_raw] at hnot
    have hw := fresh.writer_le
    have hwriter : fresh.writerIndex = kCheapPrepend := rfl
    have hread : fresh.readableBytes = 0 := rfl
    rw [Buffer.writableBytes] at hnot
    exact Or.inl (by omega)
  · unfold makeSpace at hspace
    split at hspace
    · rename_i hgrow
      obtain ⟨hmax, -⟩ := resize_ok hspace
      rw [free_raw, hwrite] at hgrow
      have hpos : fresh.raw.writerIndex = 8 := rfl
      have hfree : kInitialSize + fresh.prependableBytes = 1032 := rfl
      rw [hfree] at hgrow
      rw [hpos] at hmax
      refine Or.inr ?_
      show 8 + len ≤ _
      unfold sizeT at hgrow hmax
      unfold kCheapPrepend at hgrow
      unfold maxSize at hmax ⊢
      omega
    · obtain ⟨u, hcheck, -⟩ := bind_ok hspace
      exact absurd (check_ok hcheck) (Nat.lt_irrefl _)

theorem raw_fresh : fresh.raw = RawBuffer.init := rfl

theorem readable_fresh : fresh.readable = [] := rfl

/-- What room in a fresh buffer comes to. -/
theorem fresh_sound (hlen : len < 2 ^ 64) (h : ensureWritableBytes .init len = .ok b') :
    ∃ hroom : fresh.Room len, b' = (ensured fresh len hroom).raw := by
  rw [← raw_fresh] at h
  have hroom := fresh_room hlen h
  rw [ensureWritableBytes_complete hroom, ← raw_ensured fresh hroom] at h
  exact ⟨hroom, (Except.ok.inj h).symm⟩

/-- Appending keeps the array in a `vector`. -/
theorem size_append (hlen : len ≤ data.length) (hroom : b.Room len) :
    (b.append (data.take len)).buffer.length ≤ maxSize := by
  have hw := (ensured b len hroom).writer_le
  have hspec := le_writableBytes_ensured b hroom
  have htake : (data.take len).length = len := List.length_take_of_le hlen
  unfold Buffer.writableBytes at hspec
  show (b.append (data.take len)).raw.buffer.length ≤ _
  rw [raw_append_eq htake]
  show (splice (ensured b len hroom).buffer (ensured b len hroom).writerIndex _).length ≤ _
  rw [length_splice (by rw [htake]; omega)]
  exact (ensured b len hroom).size_le

/-- The buffer with the bytes. -/
def appended (b : VectorBuffer) (data : Bytes) (len : Nat) (hlen : len ≤ data.length)
    (hroom : b.Room len) : VectorBuffer :=
  { b.append (data.take len) with size_le := size_append hlen hroom }

theorem readable_appended (hlen : len ≤ data.length) (hroom : b.Room len) :
    (appended b data len hlen hroom).readable = b.readable ++ data.take len :=
  b.readable_append _

/-- Room does not take away what is kept free in front. -/
theorem kCheapPrepend_le_ensured {b : Buffer} (h : kCheapPrepend ≤ b.readerIndex) (len : Nat) :
    kCheapPrepend ≤ (b.ensureWritableBytes len).readerIndex := by
  unfold Buffer.ensureWritableBytes
  split
  · unfold Buffer.makeSpace
    split
    · exact h
    · split
      · exact Nat.le_refl _
      · exact h
  · exact h

theorem kCheapPrepend_le_appended (h : kCheapPrepend ≤ b.readerIndex) (hlen : len ≤ data.length)
    (hroom : b.Room len) : kCheapPrepend ≤ (appended b data len hlen hroom).readerIndex :=
  kCheapPrepend_le_ensured h _

theorem toStringPiece_raw (b : VectorBuffer) :
    toStringPiece b.raw = ⟨peek b.raw, Int32.ofNat b.readableBytes⟩ := by
  rw [toStringPiece, readableBytes_raw]

/-- Writing where there is space takes it. -/
theorem writableBytes_appended (hlen : len ≤ data.length) (hroom : b.Room len)
    (hfit : len ≤ b.writableBytes) :
    (appended b data len hlen hroom).writableBytes = b.writableBytes - len := by
  have hw := b.writer_le
  have htake : (data.take len).length = len := List.length_take_of_le hlen
  have hb : b.ensureWritableBytes len = b.toBuffer := if_neg (Nat.not_lt.mpr hfit)
  show (b.append (data.take len)).raw.buffer.length - (b.append (data.take len)).raw.writerIndex = _
  rw [raw_append_eq htake, hb]
  unfold Buffer.writableBytes at hfit ⊢
  dsimp only
  rw [length_splice (by rw [htake]; omega)]
  omega

theorem shrinks_sound {reserve : Nat} (h : Shrinks b reserve) :
    b.readableBytes < 2 ^ 31 ∧ kCheapPrepend + b.readableBytes + reserve ≤ maxSize := by
  have hb := b.size_le
  have hw := b.writer_le
  have hreaddef : b.readableBytes = b.writerIndex - b.readerIndex := rfl
  obtain ⟨b', hshrink, hreadable, hreserve⟩ := h
  unfold shrink at hshrink
  obtain ⟨other, hensure, happend⟩ := bind_ok hshrink
  obtain ⟨hroom, rfl⟩ := fresh_sound (by unfold sizeT; omega) hensure
  generalize sizeT (readableBytes b.raw + reserve) = L at hroom happend
  obtain ⟨hlen, hroom'⟩ := append_sound happend
  cases happend.symm.trans (append_complete hlen hroom')
  set v := appended (ensured fresh L hroom) _ _ hlen hroom' with hv
  have hread : v.readable = b.readable := hreadable
  have hwrite : reserve ≤ v.writableBytes := by
    rw [← writableBytes_raw]
    exact hreserve
  have hfresh : kCheapPrepend ≤ fresh.readerIndex := Nat.le_refl _
  have hfront : kCheapPrepend ≤ v.readerIndex := by
    refine kCheapPrepend_le_appended ?_ hlen hroom'
    rw [readerIndex_ensured]
    exact kCheapPrepend_le_ensured hfresh _
  have hbytes : v.readable = (peek b.raw).take (toStringPiece b.raw).size := by
    rw [hv, readable_appended, readable_ensured, readable_fresh, List.nil_append]
    rfl
  have hsize : (toStringPiece b.raw).size = b.readableBytes := by
    rw [← b.length_readable, ← hread, hbytes]
    exact (List.length_take_of_le hlen).symm
  have hcount : v.writerIndex - v.readerIndex = b.readableBytes := by
    rw [← b.length_readable, ← hread]
    exact v.length_readable.symm
  have hr' := v.reader_le
  have hw' := v.writer_le
  have hv' := v.size_le
  unfold Buffer.writableBytes at hwrite
  rw [toStringPiece_raw] at hsize
  exact ⟨lt_of_size_eq hsize (by omega), by omega⟩

theorem shrinks_complete {reserve : Nat} (hlt : b.readableBytes < 2 ^ 31)
    (hmax : kCheapPrepend + b.readableBytes + reserve ≤ maxSize) : Shrinks b reserve := by
  have hw := b.writer_le
  have hlen : b.readableBytes ≤ (peek b.raw).length := by
    show b.writerIndex - b.readerIndex ≤ (b.buffer.drop b.readerIndex).length
    rw [List.length_drop]
    omega
  have hsum : sizeT (readableBytes b.raw + reserve) = b.readableBytes + reserve := by
    rw [readableBytes_raw]
    refine sizeT_add ?_
    unfold maxSize at hmax
    omega
  have hroom : fresh.Room (b.readableBytes + reserve) := by
    refine Or.inr ?_
    show kCheapPrepend + (b.readableBytes + reserve) ≤ _
    omega
  set v := ensured fresh _ hroom with hv
  have hspec : b.readableBytes + reserve ≤ v.writableBytes :=
    le_writableBytes_ensured fresh hroom
  have hfit : b.readableBytes ≤ v.writableBytes := by omega
  have hroom' : v.Room b.readableBytes := by
    have hvw := v.writer_le
    have hvs := v.size_le
    unfold Buffer.writableBytes at hfit
    exact Or.inr (by omega)
  have hsize : (StringPiece.mk (peek b.raw) (Int32.ofNat b.readableBytes)).size = b.readableBytes :=
    size_of_lt hlt
  refine ⟨(appended v (peek b.raw) b.readableBytes hlen hroom').raw, ?_, ?_, ?_⟩
  · unfold shrink
    rw [hsum, ← raw_fresh, ensureWritableBytes_complete hroom, ← raw_ensured fresh hroom, ← hv,
      toStringPiece_raw]
    show append v.raw (peek b.raw) (StringPiece.size _) = _
    rw [hsize]
    exact append_complete hlen hroom'
  · show (appended v (peek b.raw) b.readableBytes hlen hroom').readable = b.readable
    rw [readable_appended, hv, readable_ensured, readable_fresh, List.nil_append]
    rfl
  · rw [writableBytes_raw, writableBytes_appended hlen hroom' hfit]
    omega

/-! ### Sending a string -/

theorem asString_sound {s : StringPiece} {str : Bytes} (h : s.asString = .ok str) :
    s.size ≤ maxSize ∧ s.size ≤ s.ptr.length ∧ str = s.ptr.take s.size := by
  unfold StringPiece.asString at h
  split_ifs at h with hmax hlen
  cases h
  exact ⟨Nat.not_lt.mp hmax, hlen, rfl⟩

theorem asString_ofString {str : Bytes} (h : str.length < 2 ^ 31) :
    (StringPiece.ofString str).asString = .ok str := by
  have hsize : (StringPiece.ofString str).size = str.length := size_of_lt h
  unfold StringPiece.asString
  rw [hsize, if_neg (by unfold maxSize; omega)]
  show (if str.length ≤ str.length then Except.ok (str.take str.length) else _) = _
  rw [if_pos (Nat.le_refl _), List.take_length]

/-- `sendInLoop` is given the string and its length. -/
def HandsOver (isInLoopThread : Bool) (str : Bytes) : Prop :=
  send .kConnected isInLoopThread (.ofString str) = .ok (some ⟨str, str.length⟩)

theorem handsOver_iff (isInLoopThread : Bool) (str : Bytes) :
    HandsOver isInLoopThread str ↔ str.length < 2 ^ 31 ∨
      isInLoopThread = true ∧ 2 ^ 64 - 2 ^ 31 ≤ str.length ∧ str.length < 2 ^ 64 := by
  have hiff := size_eq_iff str str.length
  cases isInLoopThread with
  | true =>
      have hhanded : HandsOver true str ↔ (StringPiece.ofString str).size = str.length :=
        ⟨fun h => congrArg Handed.len (Option.some.inj (Except.ok.inj h)),
          fun h => congrArg (fun len => Except.ok (some (Handed.mk str len))) h⟩
      rw [hhanded]
      exact hiff.trans (or_congr_right (by simp))
  | false =>
      have hbind : HandsOver false str ↔ ((StringPiece.ofString str).asString >>= fun message =>
          pure (some (sendInLoop (.ofString message)))) = Except.ok (some ⟨str, str.length⟩) :=
        Iff.rfl
      rw [hbind]
      constructor
      · intro h
        obtain ⟨message, hstring, hhanded⟩ := bind_ok h
        obtain ⟨hmax, hlen, hmessage⟩ := asString_sound hstring
        have hall : message = str := congrArg Handed.data (Option.some.inj (Except.ok.inj hhanded))
        have hsize : (StringPiece.ofString str).size = str.length := by
          rw [← List.length_take_of_le hlen, ← hmessage, hall]
        exact Or.inl (lt_of_size_eq hsize (hsize ▸ hmax))
      · rintro (h | ⟨h, -⟩)
        · have hsize : (StringPiece.ofString str).size = str.length := size_of_lt h
          rw [asString_ofString h, ← hsize]
          rfl
        · cases h

/-! ### All three -/

/-- **Lengths.**  Shrinking, appending a string and sending one keep all the bytes exactly if there
are fewer than 2^31 of them, and if a `vector` can hold them.  In the thread of the loop the last
2^31 numbers of a `size_t` come back from `int`, too; no string has such a length. -/
theorem lengths_iff (b : VectorBuffer) (reserve : Nat) (str : Bytes) (isInLoopThread : Bool) :
    (Shrinks b reserve ↔ b.readableBytes < 2 ^ 31 ∧
        kCheapPrepend + b.readableBytes + reserve ≤ maxSize) ∧
      (AppendsAll b str ↔ str.length < 2 ^ 31 ∧ b.Room str.length) ∧
      (HandsOver isInLoopThread str ↔ str.length < 2 ^ 31 ∨
        isInLoopThread = true ∧ 2 ^ 64 - 2 ^ 31 ≤ str.length ∧ str.length < 2 ^ 64) :=
  ⟨⟨shrinks_sound, fun h => shrinks_complete h.1 h.2⟩, appendsAll_iff b str,
    handsOver_iff isInLoopThread str⟩

/-- Nothing is appended of 4 GiB, nothing of them is sent, and 2 GiB cannot be shrunk. -/
theorem not_lengths :
    (∃ b : VectorBuffer, b.readable = List.replicate (2 ^ 31) 120 ∧ ¬ Shrinks b 0) ∧
      ∃ str : Bytes, str = List.replicate (2 ^ 32) 120 ∧
        (∃ b', appendPiece fresh.raw (.ofString str) = .ok b' ∧ b'.readable = []) ∧
        send .kConnected true (.ofString str) = .ok (some ⟨str, 0⟩) ∧
        ¬ AppendsAll fresh str ∧ ∀ isInLoopThread, ¬ HandsOver isInLoopThread str := by
  constructor
  · have hlen : 2 ^ 31 ≤ (List.replicate (2 ^ 31) (120 : UInt8)).length := List.length_replicate.ge
    have hroom : fresh.Room (2 ^ 31) := Or.inr (by decide)
    have hreadable : (appended fresh _ _ hlen hroom).readable = List.replicate (2 ^ 31) 120 := by
      rw [readable_appended, readable_fresh, List.nil_append, List.take_replicate, Nat.min_self]
    refine ⟨appended fresh _ _ hlen hroom, hreadable, fun h => ?_⟩
    have hlt := (shrinks_sound h).1
    rw [← Buffer.length_readable, hreadable, List.length_replicate] at hlt
    omega
  · refine ⟨_, rfl, ?_⟩
    have hlength : (List.replicate (2 ^ 32) (120 : UInt8)).length = 2 ^ 32 := List.length_replicate
    generalize List.replicate (2 ^ 32) (120 : UInt8) = str at hlength
    have hsize : (StringPiece.ofString str).size = 0 := by
      rw [StringPiece.ofString, size_of_ofNat, hlength]
      decide
    refine ⟨⟨_, append_complete (by rw [hsize]; exact Nat.zero_le _) ?_, ?_⟩, ?_, ?_, ?_⟩
    · rw [hsize]
      exact Or.inr (by decide)
    · rw [readable_raw, Buffer.readable_append, readable_fresh, hsize]
      rfl
    · show Except.ok (some (Handed.mk str (StringPiece.ofString str).size)) = _
      rw [hsize]
    · rw [appendsAll_iff]
      omega
    · intro isInLoopThread
      rw [handsOver_iff]
      omega

end Sized

end Net
