/-
A buffer is a queue of bytes.

The members of `Buffer`, called in any order as their assertions ask for, never fail one, and
what they return is what a queue returns.  The proof goes through the buffer with its invariant
in the type: a member called on such a buffer answers with another one, and that its readable
bytes are those of the queue is known of the other one already.
-/
import Muduo.Net.RawBuffer

namespace Net

open Lib

/-- An assertion that holds is passed. -/
theorem assertThat_bind {p : Prop} [Decidable p] (hp : p) {β : Type} (f : Unit → Except Fault β) :
    (assertThat p >>= f) = f () := by
  rw [assertThat_of hp]
  rfl

namespace Buffer

/-- The fields of a buffer. -/
def raw (b : Buffer) : RawBuffer := ⟨b.buffer, b.readerIndex, b.writerIndex⟩

theorem raw_init : init.raw = RawBuffer.init := rfl

/-! ### Bytes at the two ends -/

/-- Bytes that have been stored behind the readable ones. -/
def stored (b : Buffer) (data : Bytes) (h : data.length ≤ b.writableBytes) : Buffer where
  buffer := splice b.buffer b.writerIndex data
  readerIndex := b.readerIndex
  writerIndex := b.writerIndex + data.length
  reader_le := by have := b.reader_le; omega
  writer_le := by
    have hw := b.writer_le
    unfold writableBytes at h
    rw [length_splice] <;> omega
  cheap_le := by
    have hw := b.writer_le
    unfold writableBytes at h
    rw [length_splice (by omega)]
    exact b.cheap_le

theorem readable_stored (b : Buffer) (data : Bytes) (h : data.length ≤ b.writableBytes) :
    (b.stored data h).readable = b.readable ++ data := by
  have hr := b.reader_le
  have hw := b.writer_le
  rw [readable_eq, readable_eq]
  show ((splice b.buffer b.writerIndex data).take (b.writerIndex + data.length)).drop b.readerIndex
    = _
  rw [take_splice hw, List.drop_append_of_le_length]
  rw [List.length_take]
  omega

/-- `append` stores behind making room. -/
theorem append_eq_stored (b : Buffer) (data : Bytes) :
    b.append data
      = (b.ensureWritableBytes data.length).stored data (ensureWritableBytes_spec b data.length) :=
  rfl

/-- Bytes that have been stored in front of the readable ones. -/
def prepended (b : Buffer) (data : Bytes) (h : data.length ≤ b.prependableBytes) : Buffer where
  buffer := splice b.buffer (b.readerIndex - data.length) data
  readerIndex := b.readerIndex - data.length
  writerIndex := b.writerIndex
  reader_le := by have := b.reader_le; omega
  writer_le := by
    have hr := b.reader_le
    have hw := b.writer_le
    unfold prependableBytes at h
    rw [length_splice (by omega)]
    exact hw
  cheap_le := by
    have hr := b.reader_le
    have hw := b.writer_le
    unfold prependableBytes at h
    rw [length_splice (by omega)]
    exact b.cheap_le

theorem readable_prepended (b : Buffer) (data : Bytes) (h : data.length ≤ b.prependableBytes) :
    (b.prepended data h).readable = data ++ b.readable := by
  have hr := b.reader_le
  have hw := b.writer_le
  unfold prependableBytes at h
  rw [readable_eq, readable_eq]
  show ((splice b.buffer (b.readerIndex - data.length) data).take b.writerIndex).drop
    (b.readerIndex - data.length) = _
  have hpre : (b.buffer.take (b.readerIndex - data.length)).length
      = b.readerIndex - data.length := by
    rw [List.length_take]
    omega
  have hend : b.readerIndex - data.length + data.length = b.readerIndex := by omega
  rw [splice, hend, List.append_assoc, List.drop_take, List.drop_left' hpre, List.take_append,
    List.take_of_length_le (by omega), List.drop_take]
  congr 2
  omega

/-! ### The members, on a buffer with its invariant -/

variable (b : Buffer)

theorem raw_copy {pos : Nat} {data : Bytes} (h : pos + data.length ≤ b.buffer.length) :
    b.raw.copy pos data = .ok ⟨splice b.buffer pos data, b.readerIndex, b.writerIndex⟩ :=
  assertThat_bind (show pos + data.length ≤ b.raw.buffer.length from h) _

theorem raw_retrieve {len : Nat} (h : len ≤ b.readableBytes) :
    b.raw.retrieve len = .ok (b.retrieve len h).raw := by
  unfold RawBuffer.retrieve retrieve
  rw [assertThat_bind (show len ≤ b.raw.readableBytes from h)]
  by_cases hlt : len < b.readableBytes
  · rw [dif_pos hlt]
    exact if_pos (show len < b.raw.readableBytes from hlt)
  · rw [dif_neg hlt]
    exact if_neg (show ¬len < b.raw.readableBytes from hlt)

/-- The assertions of `makeSpace` hold when there is no room, and its copy stays in the array. -/
theorem raw_makeSpace {len : Nat} (h : b.writableBytes < len) :
    b.raw.makeSpace len = .ok (b.makeSpace len).raw := by
  have hr := b.reader_le
  have hw := b.writer_le
  unfold RawBuffer.makeSpace makeSpace
  by_cases hgrow : b.writableBytes + b.prependableBytes < len + kCheapPrepend
  · rw [if_pos (show b.raw.writableBytes + b.raw.prependableBytes < _ from hgrow), dif_pos hgrow]
    unfold writableBytes at h
    have hlen : b.raw.buffer.length ≤ b.raw.writerIndex + len := by
      show b.buffer.length ≤ b.writerIndex + len
      omega
    rw [RawBuffer.resize, List.take_of_length_le hlen]
    rfl
  · -- the free space at the two ends is enough, and the end alone is not
    have hpre : kCheapPrepend < b.readerIndex := by
      unfold prependableBytes at hgrow
      omega
    have hfit : kCheapPrepend + b.readable.length ≤ b.buffer.length := by
      rw [length_readable, readableBytes]
      omega
    have hmoved : b.raw.readableBytes = kCheapPrepend + b.raw.readableBytes - kCheapPrepend := by
      omega
    rw [if_neg (show ¬b.raw.writableBytes + b.raw.prependableBytes < _ from hgrow), dif_neg hgrow,
      dif_pos hpre, assertThat_bind (show kCheapPrepend < b.raw.readerIndex from hpre),
      show b.raw.copy kCheapPrepend b.raw.readable = _ from b.raw_copy hfit]
    exact assertThat_bind hmoved _

theorem raw_ensureWritableBytes (len : Nat) :
    b.raw.ensureWritableBytes len = .ok (b.ensureWritableBytes len).raw := by
  have hspec : len ≤ (b.ensureWritableBytes len).raw.writableBytes := b.ensureWritableBytes_spec len
  unfold RawBuffer.ensureWritableBytes
  by_cases hlt : b.writableBytes < len
  · have hb : b.ensureWritableBytes len = b.makeSpace len := if_pos hlt
    rw [hb] at hspec ⊢
    rw [if_pos (show b.raw.writableBytes < len from hlt), b.raw_makeSpace hlt]
    exact assertThat_bind hspec _
  · have hb : b.ensureWritableBytes len = b := if_neg hlt
    rw [hb] at hspec ⊢
    rw [if_neg (show ¬b.raw.writableBytes < len from hlt)]
    exact assertThat_bind hspec _

theorem raw_stored {data : Bytes} (h : data.length ≤ b.writableBytes) :
    (b.raw.copy b.raw.writerIndex data).map (fun r => r.hasWritten data.length)
      = .ok (b.stored data h).raw := by
  have hw := b.writer_le
  have hfit : b.writerIndex + data.length ≤ b.buffer.length := by
    unfold writableBytes at h
    omega
  rw [show b.raw.copy b.raw.writerIndex data = _ from b.raw_copy hfit]
  rfl

theorem raw_append (data : Bytes) : b.raw.append data = .ok (b.append data).raw := by
  rw [append_eq_stored, ← (b.ensureWritableBytes data.length).raw_stored
    (ensureWritableBytes_spec b data.length), RawBuffer.append, b.raw_ensureWritableBytes]
  show ((b.ensureWritableBytes data.length).raw.copy _ data >>= fun r => pure (r.hasWritten _)) = _
  cases (b.ensureWritableBytes data.length).raw.copy
    (b.ensureWritableBytes data.length).raw.writerIndex data <;> rfl

theorem raw_prepend {data : Bytes} (h : data.length ≤ b.prependableBytes) :
    b.raw.prepend data = .ok (b.prepended data h).raw := by
  have hr := b.reader_le
  have hw := b.writer_le
  have hfit : b.readerIndex - data.length + data.length ≤ b.buffer.length := by
    unfold prependableBytes at h
    omega
  unfold RawBuffer.prepend
  rw [assertThat_bind (show data.length ≤ b.raw.prependableBytes from h)]
  exact assertThat_bind hfit _

/-- What `readFd` leaves: room is made for what does not fit. -/
def received (b : Buffer) (data : Bytes) : Buffer :=
  if h : data.length ≤ b.writableBytes then b.stored data h
  else (b.stored (data.take b.writableBytes) (by rw [List.length_take]; omega)).append
    (data.drop b.writableBytes)

theorem readable_received (data : Bytes) : (b.received data).readable = b.readable ++ data := by
  unfold received
  by_cases h : data.length ≤ b.writableBytes
  · rw [dif_pos h, readable_stored]
  · rw [dif_neg h, readable_append, readable_stored, List.append_assoc, List.take_append_drop]

theorem raw_readFd (data : Bytes) : b.raw.readFd (some data) = .ok (b.received data).raw := by
  have hw := b.writer_le
  have hfit : b.writerIndex + (data.take b.writableBytes).length ≤ b.buffer.length := by
    rw [List.length_take, writableBytes]
    omega
  unfold RawBuffer.readFd received
  simp only [bind, Except.bind]
  rw [show b.raw.copy b.raw.writerIndex (data.take b.raw.writableBytes) = _ from b.raw_copy hfit]
  by_cases h : data.length ≤ b.writableBytes
  · rw [dif_pos h]
    refine (if_pos (show data.length ≤ b.raw.writableBytes from h)).trans ?_
    show Except.ok (RawBuffer.mk (splice b.buffer b.writerIndex (data.take b.writableBytes)) _ _) = _
    rw [List.take_of_length_le h]
    rfl
  · rw [dif_neg h, ← raw_append]
    refine (if_neg (show ¬data.length ≤ b.raw.writableBytes from h)).trans ?_
    have hlen : (splice b.buffer b.writerIndex (data.take b.writableBytes)).length
        = b.writerIndex + (data.take b.writableBytes).length := by
      rw [length_splice hfit, List.length_take]
      unfold writableBytes at h ⊢
      omega
    show RawBuffer.append ⟨splice b.buffer b.writerIndex (data.take b.writableBytes), b.readerIndex,
      (splice b.buffer b.writerIndex (data.take b.writableBytes)).length⟩ _ = _
    rw [hlen]
    rfl

end Buffer

/-! ### Integers -/

namespace Buffer

variable (b : Buffer)

/-- What the pointer from `peek()` sees. -/
theorem drop_readerIndex : b.raw.buffer.drop b.raw.readerIndex
    = b.readable ++ (b.buffer.drop b.readerIndex).drop b.readableBytes :=
  (List.take_append_drop b.readableBytes _).symm

theorem raw_peekInt32 (h : 4 ≤ b.readableBytes) :
    ∃ x, b.raw.peekInt32 = .ok x ∧ BufferOp.onQueue.headInt32 b.readable = .int32 x := by
  have hlen := b.length_readable
  unfold RawBuffer.peekInt32
  rw [assertThat_bind (show 4 ≤ b.raw.readableBytes from h), drop_readerIndex]
  match hq : b.readable with
  | x₀ :: x₁ :: x₂ :: x₃ :: rest => exact ⟨_, rfl, rfl⟩
  | [] | [_] | [_, _] | [_, _, _] =>
      rw [hq] at hlen
      simp only [List.length_cons, List.length_nil] at hlen
      omega

theorem raw_peekInt16 (h : 2 ≤ b.readableBytes) :
    ∃ x, b.raw.peekInt16 = .ok x ∧ BufferOp.onQueue.headInt16 b.readable = .int16 x := by
  have hlen := b.length_readable
  unfold RawBuffer.peekInt16
  rw [assertThat_bind (show 2 ≤ b.raw.readableBytes from h), drop_readerIndex]
  match hq : b.readable with
  | x₀ :: x₁ :: rest => exact ⟨_, rfl, rfl⟩
  | [] | [_] =>
      rw [hq] at hlen
      simp only [List.length_cons, List.length_nil] at hlen
      omega

theorem raw_peekInt8 (h : 1 ≤ b.readableBytes) :
    ∃ x, b.raw.peekInt8 = .ok x ∧ BufferOp.onQueue.headInt8 b.readable = .int8 x := by
  have hlen := b.length_readable
  unfold RawBuffer.peekInt8
  rw [assertThat_bind (show 1 ≤ b.raw.readableBytes from h), drop_readerIndex]
  match hq : b.readable with
  | x₀ :: rest => exact ⟨_, rfl, rfl⟩
  | [] =>
      rw [hq] at hlen
      simp only [List.length_nil] at hlen
      omega

theorem raw_retrieveUntil {len : Nat} (h : len ≤ b.readableBytes) :
    b.raw.retrieveUntil (b.raw.readerIndex + len) = .ok (b.retrieve len h).raw := by
  have hr := b.reader_le
  have hstop : b.raw.readerIndex + len ≤ b.raw.writerIndex := by
    show b.readerIndex + len ≤ b.writerIndex
    unfold readableBytes at h
    omega
  unfold RawBuffer.retrieveUntil
  rw [assertThat_bind (Nat.le_add_right _ _), assertThat_bind hstop, Nat.add_sub_cancel_left]
  exact b.raw_retrieve h

theorem raw_retrieveAsString {len : Nat} (h : len ≤ b.readableBytes) :
    b.raw.retrieveAsString len = .ok (b.readable.take len, (b.retrieve len h).raw) := by
  have htake : (b.raw.buffer.drop b.raw.readerIndex).take len = b.readable.take len := by
    rw [drop_readerIndex, List.take_append_of_le_length (by rw [length_readable]; exact h)]
  unfold RawBuffer.retrieveAsString
  rw [assertThat_bind (show len ≤ b.raw.readableBytes from h), b.raw_retrieve h, htake]
  rfl

end Buffer

/-! ### Every member -/

namespace BufferOp

/-- A member that is called as it may be answers as a queue does, and leaves a buffer. -/
def Follows (op : BufferOp) (b : Buffer) : Prop :=
  ∃ b' : Buffer, op.call b.raw = .ok ((op.onQueue b.readable).1, b'.raw) ∧
    b'.readable = (op.onQueue b.readable).2

variable {op : BufferOp} {b : Buffer}

theorem follows_of (b' : Buffer) {o : BufferOut} {q : Bytes}
    (hcall : op.call b.raw = .ok (o, b'.raw)) (hqueue : op.onQueue b.readable = (o, q))
    (hread : b'.readable = q) : op.Follows b :=
  ⟨b', by rw [hcall, hqueue], by rw [hread, hqueue]⟩

theorem follows_append (hcall : op.call b.raw = (b.raw.append d).map fun b => (.nothing, b))
    (hqueue : op.onQueue b.readable = (.nothing, b.readable ++ d)) : op.Follows b :=
  follows_of (b.append d) (by rw [hcall, b.raw_append]; rfl) hqueue (b.readable_append d)

theorem follows_prepend {d : Bytes} (h : d.length ≤ b.prependableBytes)
    (hcall : op.call b.raw = (b.raw.prepend d).map fun b => (.nothing, b))
    (hqueue : op.onQueue b.readable = (.nothing, d ++ b.readable)) : op.Follows b :=
  follows_of (b.prepended d h) (by rw [hcall, b.raw_prepend h]; rfl) hqueue
    (b.readable_prepended d h)

theorem follows (h : op.Pre b.raw) : op.Follows b := by
  cases op with
  | append data => exact follows_append (d := data) rfl rfl
  | appendInt32 x => exact follows_append (d := beU32 x.toUInt32) rfl rfl
  | appendInt16 x => exact follows_append (d := beU16 x.toUInt16) rfl rfl
  | appendInt8 x => exact follows_append (d := [x.toUInt8]) rfl rfl
  | prepend data => exact follows_prepend h rfl rfl
  | prependInt32 x => exact follows_prepend (d := beU32 x.toUInt32) h rfl rfl
  | prependInt16 x => exact follows_prepend (d := beU16 x.toUInt16) h rfl rfl
  | prependInt8 x => exact follows_prepend (d := [x.toUInt8]) h rfl rfl
  | peekInt32 =>
      obtain ⟨x, hpeek, hhead⟩ := b.raw_peekInt32 h
      exact follows_of _ (by rw [call, hpeek]; rfl) (by rw [onQueue, hhead]) rfl
  | peekInt16 =>
      obtain ⟨x, hpeek, hhead⟩ := b.raw_peekInt16 h
      exact follows_of _ (by rw [call, hpeek]; rfl) (by rw [onQueue, hhead]) rfl
  | peekInt8 =>
      obtain ⟨x, hpeek, hhead⟩ := b.raw_peekInt8 h
      exact follows_of _ (by rw [call, hpeek]; rfl) (by rw [onQueue, hhead]) rfl
  | readInt32 =>
      obtain ⟨x, hpeek, hhead⟩ := b.raw_peekInt32 h
      refine follows_of (b.retrieve 4 h) ?_ (by rw [onQueue, hhead]) (b.readable_retrieve 4 h)
      rw [call, RawBuffer.readInt32, hpeek, b.raw_retrieve h]
      rfl
  | readInt16 =>
      obtain ⟨x, hpeek, hhead⟩ := b.raw_peekInt16 h
      refine follows_of (b.retrieve 2 h) ?_ (by rw [onQueue, hhead]) (b.readable_retrieve 2 h)
      rw [call, RawBuffer.readInt16, hpeek, b.raw_retrieve h]
      rfl
  | readInt8 =>
      obtain ⟨x, hpeek, hhead⟩ := b.raw_peekInt8 h
      refine follows_of (b.retrieve 1 h) ?_ (by rw [onQueue, hhead]) (b.readable_retrieve 1 h)
      rw [call, RawBuffer.readInt8, hpeek, b.raw_retrieve h]
      rfl
  | retrieve len =>
      exact follows_of _ (by rw [call, b.raw_retrieve h]; rfl) rfl (b.readable_retrieve len h)
  | retrieveUntil len =>
      exact follows_of _ (by rw [call, b.raw_retrieveUntil h]; rfl) rfl (b.readable_retrieve len h)
  | retrieveAll => exact follows_of (b.retrieveAll) rfl rfl b.readable_retrieveAll
  | retrieveAsString len =>
      exact follows_of _ (by rw [call, b.raw_retrieveAsString h]; rfl) rfl (b.readable_retrieve len h)
  | retrieveAllAsString =>
      have hall : b.readable.length ≤ b.readableBytes := b.length_readable.le
      refine follows_of (b.retrieve b.readableBytes le_rfl) ?_ rfl ?_
      · rw [call, RawBuffer.retrieveAllAsString]
        show (b.raw.retrieveAsString b.readableBytes).map _ = _
        rw [b.raw_retrieveAsString le_rfl, List.take_of_length_le hall]
        rfl
      · rw [b.readable_retrieve, List.drop_of_length_le hall]
  | ensureWritableBytes len =>
      exact follows_of _ (by rw [call, b.raw_ensureWritableBytes]; rfl) rfl
        (b.readable_ensureWritableBytes len)
  | hasWritten data =>
      exact follows_of _ (by rw [call, b.raw_stored h]; rfl) rfl (b.readable_stored data h)
  | readFd received =>
      cases received with
      | none => exact follows_of b rfl rfl (List.append_nil _).symm
      | some data =>
          exact follows_of _ (by rw [call, b.raw_readFd]; rfl) rfl (b.readable_received data)

/-- Calls one after the other. -/
theorem run_follows : ∀ {ops : List BufferOp} {b : Buffer} {outs : List BufferOut},
    Along step (fun op s => op.Pre s.1) ops (b.raw, outs) →
      ∃ (b' : Buffer) (outs' : List BufferOut), run step ops (b.raw, outs) = .ok (b'.raw, outs') ∧
        (b'.readable, outs') = ops.foldl queueStep (b.readable, outs) := by
  intro ops
  induction ops with
  | nil => exact fun {b outs} _ => ⟨b, outs, rfl, rfl⟩
  | cons op ops ih =>
      intro b outs h
      obtain ⟨b₁, hcall, hread⟩ := follows h.1
      have hstep : step op (b.raw, outs) = .ok (b₁.raw, outs ++ [(op.onQueue b.readable).1]) := by
        rw [step, hcall]
        rfl
      obtain ⟨b', outs', hrun, hfinal⟩ := ih (h.2 _ hstep)
      refine ⟨b', outs', ?_, ?_⟩
      · rw [run, hstep]
        exact hrun
      · rw [hfinal, hread]
        rfl

/-! ### In every state -/

/-- The indices are in order. -/
def Ordered (b : RawBuffer) : Prop :=
  b.readerIndex ≤ b.writerIndex ∧ b.writerIndex ≤ b.buffer.length

/-- Room can always be made, which changes nothing that can be read. -/
def MakesRoom (b : RawBuffer) : Prop :=
  ∀ len, ∃ b', b.ensureWritableBytes len = .ok b' ∧ len ≤ b'.writableBytes ∧
    b'.readable = b.readable

/-- Receiving bytes is appending them. -/
def ReceivesAsAppend (b : RawBuffer) : Prop :=
  ∀ data, data.length ≤ b.writableBytes + RawBuffer.extrabuf →
    ∃ b₁ b₂, b.readFd (some data) = .ok b₁ ∧ b.append data = .ok b₂ ∧ b₁.readable = b₂.readable

/-- What `read` returns, once all that is readable in `b` has been retrieved from `appended`. -/
def readBack {α : Type} (b : RawBuffer) (appended : Except Fault RawBuffer)
    (read : RawBuffer → Except Fault (α × RawBuffer)) : Except Fault α := do
  let b' ← appended
  let b' ← b'.retrieve b.readableBytes
  let r ← read b'
  return r.1

/-- An integer that has been appended is the one that is read. -/
def ReadsAppended (b : RawBuffer) : Prop :=
  (∀ x, readBack b (b.appendInt32 x) RawBuffer.readInt32 = .ok x) ∧
  (∀ x, readBack b (b.appendInt16 x) RawBuffer.readInt16 = .ok x) ∧
  (∀ x, readBack b (b.appendInt8 x) RawBuffer.readInt8 = .ok x)

theorem ordered_raw (b : Buffer) : Ordered b.raw := ⟨b.reader_le, b.writer_le⟩

theorem makesRoom_raw (b : Buffer) : MakesRoom b.raw := by
  intro len
  exact ⟨_, b.raw_ensureWritableBytes len, b.ensureWritableBytes_spec len,
    b.readable_ensureWritableBytes len⟩

theorem receivesAsAppend_raw (b : Buffer) : ReceivesAsAppend b.raw := by
  intro data _
  exact ⟨_, _, b.raw_readFd data, b.raw_append data,
    (b.readable_received data).trans (b.readable_append data).symm⟩

/-- The bytes that have been appended are all that is left for `read`. -/
theorem readBack_append {α : Type} (b : Buffer) (d : Bytes)
    (read : RawBuffer → Except Fault (α × RawBuffer)) :
    ∃ b' : Buffer, b'.readable = d ∧ b'.readableBytes = d.length ∧
      readBack b.raw (b.raw.append d) read = (read b'.raw).map Prod.fst := by
  have hlen : b.readableBytes ≤ (b.append d).readableBytes := by
    rw [← Buffer.length_readable, ← Buffer.length_readable, Buffer.readable_append,
      List.length_append]
    omega
  have hread : ((b.append d).retrieve b.readableBytes hlen).readable = d := by
    rw [Buffer.readable_retrieve, Buffer.readable_append, ← b.length_readable, List.drop_left]
  refine ⟨(b.append d).retrieve b.readableBytes hlen, hread, ?_, ?_⟩
  · rw [← Buffer.length_readable, hread]
  · unfold readBack
    rw [b.raw_append]
    show ((b.append d).raw.retrieve b.readableBytes >>= _) = _
    rw [(b.append d).raw_retrieve hlen]
    show (read _ >>= fun r => pure r.1) = _
    cases read ((b.append d).retrieve b.readableBytes hlen).raw <;> rfl

theorem headInt32_beU32 (x : Int32) : onQueue.headInt32 (beU32 x.toUInt32) = .int32 x :=
  congrArg (fun y : UInt32 => BufferOut.int32 y.toInt32) (toU32_beU32 x.toUInt32)

theorem headInt16_beU16 (x : Int16) : onQueue.headInt16 (beU16 x.toUInt16) = .int16 x :=
  congrArg (fun y : UInt16 => BufferOut.int16 y.toInt16) (toU16_beU16 x.toUInt16)

theorem readsAppended_raw (b : Buffer) : ReadsAppended b.raw := by
  refine ⟨fun x => ?_, fun x => ?_, fun x => ?_⟩
  · obtain ⟨b', hread, hlen, hback⟩ := readBack_append b (beU32 x.toUInt32) RawBuffer.readInt32
    have h32 : 4 ≤ b'.readableBytes := hlen.ge
    obtain ⟨y, hpeek, hhead⟩ := b'.raw_peekInt32 h32
    rw [hread, headInt32_beU32] at hhead
    rw [RawBuffer.appendInt32, hback, RawBuffer.readInt32, hpeek, b'.raw_retrieve h32,
      BufferOut.int32.inj hhead]
    rfl
  · obtain ⟨b', hread, hlen, hback⟩ := readBack_append b (beU16 x.toUInt16) RawBuffer.readInt16
    have h16 : 2 ≤ b'.readableBytes := hlen.ge
    obtain ⟨y, hpeek, hhead⟩ := b'.raw_peekInt16 h16
    rw [hread, headInt16_beU16] at hhead
    rw [RawBuffer.appendInt16, hback, RawBuffer.readInt16, hpeek, b'.raw_retrieve h16,
      BufferOut.int16.inj hhead]
    rfl
  · obtain ⟨b', hread, hlen, hback⟩ := readBack_append b [x.toUInt8] RawBuffer.readInt8
    have h8 : 1 ≤ b'.readableBytes := hlen.ge
    obtain ⟨y, hpeek, hhead⟩ := b'.raw_peekInt8 h8
    rw [hread] at hhead
    rw [RawBuffer.appendInt8, hback, RawBuffer.readInt8, hpeek, b'.raw_retrieve h8,
      ← BufferOut.int8.inj hhead]
    rfl

/-- **Main result.** Whatever is done with a new buffer, each member being called as it may be,
nothing fails: what can be read and what has been returned are those of a queue of bytes, and
the indices are in order. -/
theorem buffer_refines_queue (ops : List BufferOp)
    (h : Along step (fun op s => op.Pre s.1) ops (RawBuffer.init, [])) :
    ∃ b outs, run step ops (RawBuffer.init, []) = .ok (b, outs) ∧
      (b.readable, outs) = ops.foldl queueStep ([], []) ∧
      Ordered b ∧ MakesRoom b ∧ ReceivesAsAppend b ∧ ReadsAppended b := by
  rw [← Buffer.raw_init] at h ⊢
  obtain ⟨b', outs, hrun, hqueue⟩ := run_follows h
  exact ⟨b'.raw, outs, hrun, hqueue, ordered_raw b', makesRoom_raw b', receivesAsAppend_raw b',
    readsAppended_raw b'⟩

/-- Bytes are prepended to an integer, and the integer is received and read behind them. -/
theorem buffer_refines_queue_prepended :
    ∃ b outs, run step [appendInt16 7, prepend [1, 2, 3], readFd (some [9]), retrieve 3, readInt16]
        (RawBuffer.init, []) = .ok (b, outs) ∧ b.readable = [9] ∧
      outs = [.nothing, .nothing, .nothing, .nothing, .int16 7] := by
  obtain ⟨b, outs, hrun, hqueue, -⟩ := buffer_refines_queue
    [appendInt16 7, prepend [1, 2, 3], readFd (some [9]), retrieve 3, readInt16] (by decide +kernel)
  have hpair : (b.readable, outs)
      = ([9], [.nothing, .nothing, .nothing, .nothing, .int16 7]) := hqueue.trans (by decide +kernel)
  exact ⟨b, outs, hrun, congrArg Prod.fst hpair, congrArg Prod.snd hpair⟩

end BufferOp

end Net
