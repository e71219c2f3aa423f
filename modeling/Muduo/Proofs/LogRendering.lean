/-
What `LogStream` writes.

The loop of `convert` leaves the digits of the number's absolute value behind each other, the
last one first, whatever the sign: where the number is negative the remainders are, and the
table is read to the left of `zero`.  Turned around they are the numeral.  None of the types
has a number whose numeral, with its sign and the NUL, does not fit into `kMaxNumericSize`
bytes, so that the test in front of `convert` is enough.

`Logged` says what a row of operands may leave in a buffer; that it is what they do leave is
an induction over the operands.
-/
import Muduo.Lib.Numeral
import Muduo.Base.LogStream

namespace Base

open Lib
open Net (Fault assertThat assertThat_of)

/-! ### Renderings -/

/-- An integer in decimal, with a sign where it is negative. -/
def decimal (v : Int) : Bytes := (if v < 0 then [45] else []) ++ natText v.natAbs

/-- One of the characters `0` to `9` and `A` to `F`. -/
def hexChar (d : Nat) : UInt8 := if d < 10 then UInt8.ofNat (48 + d) else UInt8.ofNat (55 + d)

/-- A natural number in hexadecimal. -/
def hexText (n : Nat) : Bytes :=
  if n = 0 then [48] else (Nat.digits 16 n).reverse.map hexChar

namespace Operand

/-- The rendering of an operand. -/
def text : Operand → Bytes
  | .bool v => [if v then 49 else 48]
  | .char v => [v]
  | .short v => decimal v.toInt
  | .unsignedShort v => decimal v.toNat
  | .int v => decimal v.toInt
  | .unsignedInt v => decimal v.toNat
  | .long v => decimal v.toInt
  | .unsignedLong v => decimal v.toNat
  | .longLong v => decimal v.toInt
  | .unsignedLongLong v => decimal v.toNat
  | .pointer v => [48, 120] ++ hexText v.toNat
  | .cString v => v
  | .string v => v
  | .stringPiece v => v.ptr

/-- The operands that are converted before they are written. -/
def isNumber : Operand → Bool
  | .bool _ | .char _ | .cString _ | .string _ | .stringPiece _ => false
  | _ => true

/-- Where an operand may be left out. -/
def MayBeSkipped (o : Operand) (free : Nat) : Prop :=
  if o.isNumber then free < 32 else free ≤ o.text.length

end Operand

/-- What a row of operands may leave in a buffer with `free` bytes: each of them is there as a
whole, or left out where it may be. -/
inductive Logged : Nat → List Operand → Bytes → Prop where
  | nil (free : Nat) : Logged free [] []
  | written {free : Nat} {o : Operand} {os : List Operand} {out : Bytes}
      (fits : o.text.length ≤ free) (rest : Logged (free - o.text.length) os out) :
      Logged free (o :: os) (o.text ++ out)
  | skipped {free : Nat} {o : Operand} {os : List Operand} {out : Bytes}
      (full : o.MayBeSkipped free) (rest : Logged free os out) : Logged free (o :: os) out

/-! ### The loop -/

/-- The digits of `n`, the last one first; zero has one. -/
def lastFirst (base n : Nat) : List Nat := if n = 0 then [0] else Nat.digits base n

theorem lastFirst_of_lt {base n : Nat} (h : n < base) : lastFirst base n = [n] := by
  unfold lastFirst
  split
  · rename_i h0
    rw [h0]
  · rename_i h0
    exact Nat.digits_of_lt base n h0 h

theorem lastFirst_of_le {base n : Nat} (hbase : 2 ≤ base) (h : base ≤ n) :
    lastFirst base n = n % base :: lastFirst base (n / base) := by
  have hdiv : 0 < n / base := Nat.div_pos h (by omega)
  rw [lastFirst, lastFirst, if_neg (by omega), if_neg (by omega)]
  exact Nat.digits_def' hbase (by omega)

theorem natText_eq (n : Nat) : natText n = ((lastFirst 10 n).map digitChar).reverse := by
  unfold natText lastFirst
  split
  · rfl
  · rw [List.map_reverse]

theorem hexText_eq (n : Nat) : hexText n = ((lastFirst 16 n).map hexChar).reverse := by
  unfold hexText lastFirst
  split
  · rfl
  · rw [List.map_reverse]

theorem length_lastFirst_le {base n k : Nat} (hbase : 2 ≤ base) (hk : 0 < k)
    (hn : n < base ^ k) : (lastFirst base n).length ≤ k := by
  unfold lastFirst
  split
  · exact hk
  · exact (Nat.digits_length_le_iff hbase n).mpr hn

theorem poke_of_lt {data : Bytes} {p : Nat} (h : p < data.length) (c : UInt8) :
    poke data p c = .ok (splice data p [c]) := by
  rw [poke, assertThat_of h]
  rfl

/-- The digits are those of the absolute value; the sign only chooses the side of the table. -/
theorem putDigits_ok {base : Nat} {hbase : 2 ≤ base} {digit : Int → Except Fault UInt8}
    {c : Nat → UInt8} (n : Nat) : ∀ (i : Int) (data : Bytes) (p : Nat), i.natAbs = n →
      (∀ d : Int, d.natAbs < base → (0 ≤ i → 0 ≤ d) → digit d = .ok (c d.natAbs)) →
      p + (lastFirst base n).length ≤ data.length →
      putDigits base hbase digit data p i
        = .ok (splice data p ((lastFirst base n).map c), p + (lastFirst base n).length) := by
  induction n using Nat.strong_induction_on with
  | _ n ih =>
      intro i data p hi hdigit hroom
      have hmod : (i.tmod base).natAbs = n % base := by
        rw [Int.natAbs_tmod, hi, Int.natAbs_natCast]
      have hdiv : (i.tdiv base).natAbs = n / base := by
        rw [Int.natAbs_tdiv, hi, Int.natAbs_natCast]
        rfl
      have hc : digit (i.tmod base) = .ok (c (n % base)) := by
        rw [← hmod]
        refine hdigit _ ?_ fun h0 => Int.tmod_nonneg _ h0
        rw [hmod]
        exact Nat.mod_lt n (by omega)
      rw [putDigits, hc]
      rcases Nat.lt_or_ge n base with hlt | hge
      · rw [lastFirst_of_lt hlt] at hroom ⊢
        have hzero : i.tdiv base = 0 := by
          rw [← Int.natAbs_eq_zero, hdiv, Nat.div_eq_of_lt hlt]
        rw [Nat.mod_eq_of_lt hlt]
        show (poke data p (c n) >>= _) = _
        rw [poke_of_lt (by simpa using hroom)]
        show (if h : i.tdiv base = 0 then _ else _) = _
        rw [dif_pos hzero]
        rfl
      · rw [lastFirst_of_le hbase hge] at hroom ⊢
        have hpos : 0 < n / base := Nat.div_pos hge (by omega)
        have hne : i.tdiv base ≠ 0 := by
          intro h0
          rw [h0] at hdiv
          simp only [Int.natAbs_zero] at hdiv
          omega
        rw [List.length_cons] at hroom
        show (poke data p (c (n % base)) >>= _) = _
        rw [poke_of_lt (by omega)]
        show (if h : i.tdiv base = 0 then _ else _) = _
        have hp : p + [c (n % base)].length ≤ data.length := by
          rw [List.length_singleton]
          omega
        rw [dif_neg hne, ih (n / base) (Nat.div_lt_self (by omega) hbase) _ _ (p + 1) hdiv]
        · have hglue := splice_splice hp ((lastFirst base (n / base)).map c)
          rw [List.length_singleton] at hglue
          rw [hglue, List.map_cons, List.length_cons, Nat.add_right_comm, Nat.add_assoc]
          rfl
        · intro d hd hsign
          exact hdigit d hd fun h0 => hsign (Int.tdiv_nonneg h0 (by omega))
        · rw [length_splice hp]
          omega

/-! ### `convert` and `convertHex` -/

theorem zero_ok (d : Int) (hd : d.natAbs < 10) : zero d = .ok (digitChar d.natAbs) := by
  have hcases : ∀ k : Fin 19, digits.getD k.val 0 = digitChar ((k.val : Int) - 9).natAbs := by
    decide
  have hlt : (9 + d).toNat < 19 := by omega
  have hk := hcases ⟨(9 + d).toNat, hlt⟩
  have hback : (((9 + d).toNat : Int) - 9) = d := by omega
  rw [zero, assertThat_of ⟨by omega, by show 9 + d < ((19 : Nat) : Int); omega⟩]
  show Except.ok (digits.getD (9 + d).toNat 0) = _
  rw [hk, hback]

theorem hexDigit_ok (d : Int) (hd : d.natAbs < 16) (h0 : 0 ≤ d) :
    hexDigit d = .ok (hexChar d.natAbs) := by
  have hcases : ∀ k : Fin 16, digitsHex.getD k.val 0 = hexChar k.val := by decide
  have hlt : d.toNat < 16 := by omega
  have habs : d.natAbs = d.toNat := by omega
  rw [hexDigit, assertThat_of ⟨h0, by show d < ((16 : Nat) : Int); omega⟩]
  show Except.ok (digitsHex.getD d.toNat 0) = _
  rw [hcases ⟨d.toNat, hlt⟩, habs]

/-- The end of both: the NUL behind the text, and the text turned around. -/
theorem finish_ok (data text : Bytes) (buf : Nat) (h : buf + text.length < data.length) :
    (do
      let data' ← poke (splice data buf text) (buf + text.length) 0
      return (reverse data' buf (buf + text.length), buf + text.length - buf))
    = Except.ok (splice data buf (text.reverse ++ [0]), text.length) := by
  have hroom : buf + text.length ≤ data.length := by omega
  have hnul : buf + (text ++ [0]).length ≤ data.length := by
    rw [List.length_append, List.length_singleton]
    omega
  rw [poke_of_lt (by rw [length_splice hroom]; exact h), splice_splice hroom]
  show Except.ok (reverse _ _ _, _) = _
  rw [reverse, Nat.add_sub_cancel_left, take_drop_splice (by omega),
    splice_over hnul List.length_reverse]

/-- **`convert`** writes the numeral and a NUL, and nothing else. -/
theorem convert_ok {data : Bytes} {buf : Nat} {value : Int}
    (h : buf + (decimal value).length < data.length) :
    convert data buf value
      = .ok (splice data buf (decimal value ++ [0]), (decimal value).length) := by
  let ds := (lastFirst 10 value.natAbs).map digitChar
  have hnat : natText value.natAbs = ds.reverse := natText_eq value.natAbs
  have hds : ds.length = (lastFirst 10 value.natAbs).length := List.length_map ..
  have hlen : ds.length ≤ (decimal value).length := by
    rw [decimal, List.length_append, hnat, List.length_reverse]
    omega
  rw [convert, putDigits_ok value.natAbs value data buf rfl (fun d hd _ => zero_ok d hd) (by omega),
    ← hds]
  by_cases hneg : value < 0
  · have htext : decimal value = (ds ++ [45]).reverse := by
      rw [decimal, if_pos hneg, hnat, List.reverse_append]
      rfl
    have hlen' : (decimal value).length = ds.length + 1 := by
      rw [htext, List.length_reverse, List.length_append, List.length_singleton]
    have hroom : buf + ds.length ≤ data.length := by omega
    have hend := finish_ok data (ds ++ [45]) buf
      (by rw [List.length_append, List.length_singleton]; omega)
    rw [← splice_splice hroom, List.length_append, List.length_singleton, ← htext, ← hlen',
      hlen', ← Nat.add_assoc] at hend
    show (if value < 0 then _ else _) = _
    rw [if_pos hneg, poke_of_lt (by rw [length_splice hroom]; omega), hlen']
    exact hend
  · have htext : decimal value = ds.reverse := by
      rw [decimal, if_neg hneg, hnat]
      rfl
    have hlen' : (decimal value).length = ds.length := by
      rw [htext, List.length_reverse]
    have hend := finish_ok data ds buf (by omega)
    rw [← htext] at hend
    show (if value < 0 then _ else _) = _
    rw [if_neg hneg, hlen']
    exact hend

/-- **`convertHex`**, likewise. -/
theorem convertHex_ok {data : Bytes} {buf : Nat} {value : UInt64}
    (h : buf + (hexText value.toNat).length < data.length) :
    convertHex data buf value
      = .ok (splice data buf (hexText value.toNat ++ [0]), (hexText value.toNat).length) := by
  let ds := (lastFirst 16 value.toNat).map hexChar
  have htext : hexText value.toNat = ds.reverse := hexText_eq value.toNat
  have hds : ds.length = (lastFirst 16 value.toNat).length := List.length_map ..
  have hlen : (hexText value.toNat).length = ds.length := by
    rw [htext, List.length_reverse]
  rw [convertHex, putDigits_ok value.toNat (value.toNat : Int) data buf (Int.natAbs_natCast _)
    (fun d hd h0 => hexDigit_ok d hd (h0 (by omega))) (by omega), ← hds]
  have hend := finish_ok data ds buf (by omega)
  rw [← htext, ← hlen] at hend
  rw [← hlen]
  exact hend

/-! ### One operator -/

/-- The array has its size, and `cur_` points into it. -/
structure FixedBuffer.Sound (b : FixedBuffer) : Prop where
  size : b.data.length = kSmallBuffer
  inside : b.cur ≤ kSmallBuffer

namespace FixedBuffer

/-- What is left of the array. -/
def free (b : FixedBuffer) : Nat := kSmallBuffer - b.cur

/-- `b'` has `text` behind what `b` has. -/
structure Extends (b b' : FixedBuffer) (text : Bytes) : Prop where
  sound : b'.Sound
  fits : text.length ≤ b.free
  contents : b'.asString = b.asString ++ text
  left : b'.free = b.free - text.length

theorem avail_eq {b : FixedBuffer} (hb : b.Sound) : b.avail = b.free := by
  have hcur := hb.inside
  rw [avail, hb.size, free]
  omega

/-- Writing a text at `cur_`, and perhaps something behind it, and moving `cur_` over the text. -/
theorem extends_splice {b : FixedBuffer} (hb : b.Sound) (text more : Bytes)
    (h : (text ++ more).length ≤ b.free) :
    b.Extends (({ b with data := splice b.data b.cur (text ++ more) }).add text.length) text := by
  have hcur := hb.inside
  have hfree : (text ++ more).length ≤ kSmallBuffer - b.cur := h
  have hroom : b.cur + (text ++ more).length ≤ b.data.length := by
    rw [hb.size]
    omega
  have htext : text.length ≤ (text ++ more).length := by
    rw [List.length_append]
    omega
  refine ⟨⟨(length_splice hroom).trans hb.size, ?_⟩, by omega, ?_, Nat.sub_add_eq ..⟩
  · show b.cur + text.length ≤ kSmallBuffer
    omega
  · show (splice b.data b.cur (text ++ more)).take (b.cur + text.length) = b.data.take b.cur ++ text
    have hfirst : b.cur + text.length ≤ b.data.length := by omega
    rw [← splice_splice hfirst, splice, List.append_assoc, List.take_left' ?_]
    · exact take_splice (by omega)
    · rw [List.length_take, length_splice hfirst]
      omega

theorem append_spec {b : FixedBuffer} (hb : b.Sound) (text more : Bytes) :
    ∃ b', b.append (text ++ more) text.length = .ok b' ∧
      (b.Extends b' text ∨ b.free ≤ text.length ∧ b' = b) := by
  have hcur := hb.inside
  have hsmall : b.free ≤ 4000 := Nat.sub_le ..
  have havail : b.avail % 2 ^ 64 = b.free := by
    rw [avail_eq hb]
    omega
  rw [append, havail]
  by_cases hlt : text.length < b.free
  · have hmem : text.length ≤ (text ++ more).length := by
      rw [List.length_append]
      omega
    have hroom : b.cur + text.length ≤ b.data.length := by
      rw [hb.size]
      have : text.length < kSmallBuffer - b.cur := hlt
      omega
    rw [if_pos (by exact_mod_cast hlt), assertThat_of hmem, assertThat_of hroom, List.take_left]
    have hext := extends_splice hb text [] (by rw [List.append_nil]; omega)
    rw [List.append_nil] at hext
    exact ⟨_, rfl, Or.inl hext⟩
  · rw [if_neg (by exact_mod_cast hlt)]
    exact ⟨b, rfl, Or.inr ⟨by omega, rfl⟩⟩

end FixedBuffer

theorem length_decimal_le {v : Int} (hlo : -2 ^ 63 ≤ v) (hhi : v < 2 ^ 64) :
    (decimal v).length ≤ 21 := by
  have hnat : (natText v.natAbs).length ≤ 20 := length_natText_le (by omega) (by omega)
  have hsign : (if v < 0 then [(45 : UInt8)] else []).length ≤ 1 := by split <;> simp
  rw [decimal, List.length_append]
  omega

theorem length_hexText_le (v : UInt64) : (hexText v.toNat).length ≤ 16 := by
  rw [hexText_eq, List.length_reverse, List.length_map]
  exact length_lastFirst_le (by omega) (by omega) v.toNat_lt

namespace LogStream

theorem formatInteger_spec {b : FixedBuffer} (hb : b.Sound) {v : Int} (hlo : -2 ^ 63 ≤ v)
    (hhi : v < 2 ^ 64) :
    ∃ b', formatInteger b v = .ok b' ∧ (b.Extends b' (decimal v) ∨ b.free < 32 ∧ b' = b) := by
  have hlen := length_decimal_le hlo hhi
  have hcur := hb.inside
  rw [formatInteger, FixedBuffer.avail_eq hb]
  by_cases hroom : 32 ≤ b.free
  · have hfree : 32 ≤ kSmallBuffer - b.cur := hroom
    rw [if_pos (by exact_mod_cast hroom), convert_ok (by rw [hb.size]; omega)]
    refine ⟨_, rfl, Or.inl (FixedBuffer.extends_splice hb _ _ ?_)⟩
    rw [List.length_append, List.length_singleton]
    omega
  · rw [if_neg (by exact_mod_cast hroom)]
    exact ⟨b, rfl, Or.inr ⟨by omega, rfl⟩⟩

theorem formatPointer_spec {b : FixedBuffer} (hb : b.Sound) (v : UInt64) :
    ∃ b', formatPointer b v = .ok b' ∧
      (b.Extends b' ([48, 120] ++ hexText v.toNat) ∨ b.free < 32 ∧ b' = b) := by
  have hlen := length_hexText_le v
  have hcur := hb.inside
  rw [formatPointer, FixedBuffer.avail_eq hb]
  by_cases hroom : 32 ≤ b.free
  · have hfree : 32 ≤ kSmallBuffer - b.cur := hroom
    have hsize := hb.size
    have hone : b.cur + [(48 : UInt8)].length ≤ b.data.length := by
      rw [List.length_singleton]
      omega
    have htwo : b.cur + ([48] ++ [120] : Bytes).length ≤ b.data.length := by
      rw [List.length_append, List.length_singleton, List.length_singleton]
      omega
    have hx := splice_splice hone [120]
    have hhex := splice_splice htwo (hexText v.toNat ++ [0])
    rw [if_pos (by exact_mod_cast hroom)]
    show ∃ b', (poke b.data b.cur 48 >>= _) = .ok b' ∧ _
    rw [poke_of_lt (by omega)]
    show ∃ b', (poke (splice b.data b.cur [48]) (b.cur + 1) 120 >>= _) = .ok b' ∧ _
    rw [poke_of_lt (by rw [length_splice hone]; omega)]
    show ∃ b', (convertHex (splice (splice b.data b.cur [48]) (b.cur + 1) [120]) (b.cur + 2) v
      >>= _) = .ok b' ∧ _
    rw [show b.cur + 1 = b.cur + [(48 : UInt8)].length from rfl, hx,
      convertHex_ok (by rw [length_splice htwo]; omega),
      show b.cur + 2 = b.cur + ([48] ++ [120] : Bytes).length from rfl, hhex]
    have hext := FixedBuffer.extends_splice hb ([48, 120] ++ hexText v.toNat) [0]
      (by simp only [List.length_append, List.length_cons, List.length_nil]; omega)
    rw [List.length_append, Nat.add_comm] at hext
    exact ⟨_, rfl, Or.inl hext⟩
  · rw [if_neg (by exact_mod_cast hroom)]
    exact ⟨b, rfl, Or.inr ⟨by omega, rfl⟩⟩

/-- **One operator** writes its operand as a whole behind what is there, or leaves the buffer
as it is; and it never leaves the array. -/
theorem put_spec {b : FixedBuffer} (hb : b.Sound) (o : Operand) :
    ∃ b', put b o = .ok b' ∧ (b.Extends b' o.text ∨ o.MayBeSkipped b.free ∧ b' = b) := by
  have hstring (text : Bytes) : ∃ b', b.append text text.length = .ok b' ∧
      (b.Extends b' text ∨ b.free ≤ text.length ∧ b' = b) := by
    have happ := FixedBuffer.append_spec hb text []
    rwa [List.append_nil] at happ
  cases o with
  | bool v => exact FixedBuffer.append_spec hb [if v then 49 else 48] [0]
  | char v => exact hstring [v]
  | short v =>
      have hlo := v.le_toInt
      have hhi := v.toInt_lt
      have hint := formatInteger_spec hb (v := v.toInt) (by omega) (by omega)
      rw [put, Int16.toInt_toInt32]
      exact hint
  | unsignedShort v =>
      have hhi := v.toNat_lt
      rw [put, UInt16.toNat_toUInt32]
      exact formatInteger_spec hb (by omega) (by omega)
  | int v => exact formatInteger_spec hb (by have := v.le_toInt; omega) (by have := v.toInt_lt; omega)
  | unsignedInt v => exact formatInteger_spec hb (by omega) (by have := v.toNat_lt; omega)
  | long v => exact formatInteger_spec hb v.le_toInt (by have := v.toInt_lt; omega)
  | unsignedLong v => exact formatInteger_spec hb (by omega) (by have := v.toNat_lt; omega)
  | longLong v => exact formatInteger_spec hb v.le_toInt (by have := v.toInt_lt; omega)
  | unsignedLongLong v => exact formatInteger_spec hb (by omega) (by have := v.toNat_lt; omega)
  | pointer v => exact formatPointer_spec hb v
  | cString v => exact hstring v
  | string v => exact hstring v
  | stringPiece v =>
      have hsize : (v.length.toInt % 2 ^ 64).toNat = v.ptr.length := by
        have hhi := v.length.toInt_lt
        rw [← v.whole] at hhi ⊢
        omega
      rw [put, hsize]
      exact hstring v.ptr

end LogStream

/-! ### A row of operators -/

theorem LogStream.putAll_spec {b : FixedBuffer} (hb : b.Sound) (os : List Operand) :
    ∃ b' out, LogStream.putAll b os = .ok b' ∧ b'.Sound ∧ b'.asString = b.asString ++ out ∧
      Logged b.free os out := by
  induction os generalizing b with
  | nil => exact ⟨b, [], rfl, hb, (List.append_nil _).symm, Logged.nil _⟩
  | cons o os ih =>
      obtain ⟨t, hput, hext | ⟨hfull, rfl⟩⟩ := LogStream.put_spec hb o
      · obtain ⟨b', out, hall, hsound, hout, hlog⟩ := ih hext.sound
        rw [hext.left] at hlog
        refine ⟨b', o.text ++ out, ?_, hsound, ?_, Logged.written hext.fits hlog⟩
        · rw [LogStream.putAll, hput]
          exact hall
        · rw [hout, hext.contents, List.append_assoc]
      · obtain ⟨b', out, hall, hsound, hout, hlog⟩ := ih hb
        refine ⟨b', out, ?_, hsound, hout, Logged.skipped hfull hlog⟩
        rw [LogStream.putAll, hput]
        exact hall

/-- **Main result.** A row of operands behind a new stream, whatever its array holds: no
operator writes outside the array, and what the stream then has is each operand's rendering,
with those left out for which there was no room. -/
theorem LogStream.renders (data : { d : Bytes // d.length = kSmallBuffer }) (os : List Operand) :
    ∃ b, LogStream.putAll (FixedBuffer.init data) os = .ok b ∧
      Logged kSmallBuffer os b.asString := by
  have hinit : (FixedBuffer.init data).Sound := ⟨data.property, Nat.zero_le _⟩
  obtain ⟨b, out, hall, -, hout, hlog⟩ := LogStream.putAll_spec hinit os
  refine ⟨b, hall, ?_⟩
  rw [hout]
  exact hlog

end Base
