/-
The digest does not depend on how its bytes are given to `MD5Update`.

The context stands for the bytes it has been given: the hash of their whole blocks, what is left
of them at the front of `in`, and their number of bits in two words.  `MD5Update` fills a block
that has been begun, takes whole blocks and keeps the rest, which is what absorbing the bytes one
call after the other comes to.  `MD5Final` pads in place, and the padding is that of the plain
definition, in which the bytes are hashed at once.
-/
import Muduo.Bank.MD5
import Muduo.Lib.Blocks

namespace Bank.MD5

open Lib

/-! ### The plain definition -/

/-- `x & y | ~x & z` -/
def plainF1 (x y z : UInt32) : UInt32 := (x &&& y) ||| (~~~x &&& z)

def plainF2 (x y z : UInt32) : UInt32 := (x &&& z) ||| (y &&& ~~~z)

def plainTransform : Hash → Bytes → Hash := rounds plainF1 plainF2 F3 F4

/-- A number in two words, the low one first. -/
def twoWords (n : Nat) : Bytes :=
  wordBytes (UInt32.ofNat n) ++ wordBytes (UInt32.ofNat (n / 2 ^ 32))

/-- What is put behind a message of `n` bytes: a bit, zeros up to eight bytes before the end of a
block, and the number of bits. -/
def padding (n : Nat) : Bytes :=
  0x80 :: List.replicate ((119 - n % 64) % 64) 0 ++ twoWords (8 * n)

/-- The digest of a message. -/
def md5 (m : Bytes) : Bytes :=
  digest (absorb 64 plainTransform initial (m ++ padding m.length)).1

theorem F1_eq : F1 = plainF1 := by
  funext x y z
  apply UInt32.toBitVec_inj.mp
  ext i hi
  simp only [F1, plainF1, UInt32.toBitVec_xor, UInt32.toBitVec_and, UInt32.toBitVec_or,
    UInt32.toBitVec_not, BitVec.getElem_xor, BitVec.getElem_and, BitVec.getElem_or,
    BitVec.getElem_not]
  cases x.toBitVec[i] <;> cases y.toBitVec[i] <;> cases z.toBitVec[i] <;> rfl

theorem F2_eq : F2 = plainF2 := by
  funext x y z
  rw [F2, F1_eq, plainF1, plainF2, UInt32.and_comm z x, UInt32.and_comm (~~~z) y]

/-- **The functions of the steps** are those of the plain definition. -/
theorem transform_eq : transform = plainTransform := by
  rw [transform, plainTransform, F1_eq, F2_eq]

/-! ### Writing in `in` -/

/-- Writing behind what stands at the front. -/
theorem store_behind {data : Block} {front d : Bytes} (hfront : data.1.take front.length = front)
    (h : front.length + d.length ≤ 64) :
    ∃ data' : Block, store data front.length d = some data' ∧
      data'.1.take (front ++ d).length = front ++ d := by
  have hle : front.length + d.length ≤ data.1.length := by rwa [data.2]
  refine ⟨_, dif_pos hle, ?_⟩
  rw [List.length_append, take_splice (by omega), hfront]

/-- Up to the end. -/
theorem store_full {data : Block} {front d : Bytes} (hfront : data.1.take front.length = front)
    (h : front.length + d.length = 64) :
    ∃ data' : Block, store data front.length d = some data' ∧ data'.1 = front ++ d := by
  obtain ⟨data', hstore, htake⟩ := store_behind hfront h.le
  refine ⟨data', hstore, ?_⟩
  rwa [List.take_of_length_le (by rw [data'.2, List.length_append, h])] at htake

/-! ### `MD5Update` -/

/-- The hash of the whole blocks, and what is left behind them. -/
abbrev hashOf (h : Hash) (m : Bytes) : Hash × Bytes := absorb 64 transform h m

theorem hashOf_block (h : Hash) (data : Block) :
    hashOf h data.1 = (transform h data.1, []) := by
  have hblock := absorb_block (by decide) (f := transform) h data.2 []
  rwa [List.append_nil, absorb_of_lt _ (show ([] : Bytes).length < 64 by decide)] at hblock

theorem updateLoop_spec (ctx : MD5Context) (buf : Bytes) :
    ∃ data : Block, updateLoop ctx buf =
        some { ctx with buf := (hashOf ctx.buf buf).1, data } ∧
      data.1.take (hashOf ctx.buf buf).2.length = (hashOf ctx.buf buf).2 := by
  induction ctx, buf using updateLoop.induct with
  | case1 ctx buf hle ih =>
      have htake : (buf.take 64).length = 64 := by
        rw [List.length_take]
        omega
      obtain ⟨data, hstore, hdata⟩ := @store_full ctx.data [] (buf.take 64) rfl
        (by rw [htake]; rfl)
      obtain ⟨data', hloop, hrest⟩ := ih data
      rw [List.nil_append] at hdata
      rw [hashOf, absorb_of_le (by decide) _ hle, ← hdata]
      refine ⟨data', ?_, hrest⟩
      rw [updateLoop, if_pos hle]
      exact (congrArg (Option.bind · _) hstore).trans hloop
  | case2 ctx buf hlt =>
      obtain ⟨data, hstore, hdata⟩ := @store_behind ctx.data [] buf rfl
        (by rw [List.length_nil]; omega)
      rw [hashOf, absorb_of_lt _ (by omega)]
      refine ⟨data, ?_, hdata⟩
      rw [updateLoop, if_neg hlt]
      exact congrArg (Option.map _) hstore

/-- What the context says of the bytes that `MD5Update` has been given. -/
structure Holds (ctx : MD5Context) (m : Bytes) : Prop where
  buf : ctx.buf = (hashOf initial m).1
  low : ctx.low = UInt32.ofNat (8 * m.length)
  high : ctx.high = UInt32.ofNat (8 * m.length / 2 ^ 32)
  data : ctx.data.1.take (hashOf initial m).2.length = (hashOf initial m).2

theorem holds_init (ctx : MD5Context) : Holds (init ctx) [] := by
  have hnil : hashOf initial [] = (initial, []) := absorb_of_lt _ (by decide)
  exact ⟨by rw [hnil]; rfl, rfl, rfl, by rw [hnil]; rfl⟩

theorem length_left (m : Bytes) : (hashOf initial m).2.length = m.length % 64 :=
  length_absorb_snd (by decide) _ _ m

/-- `(t >> 3) & 0x3f` -/
theorem count_eq {low : UInt32} {n : Nat} (h : low = UInt32.ofNat (8 * n)) :
    ((low >>> 3) &&& 0x3F).toNat = n % 64 := by
  have hmask : (0x3F : UInt32).toNat = 2 ^ 6 - 1 := rfl
  have hshift : (3 : UInt32).toNat % 32 = 3 := rfl
  rw [UInt32.toNat_and, UInt32.toNat_shiftRight, hmask, hshift, Nat.and_two_pow_sub_one_eq_mod,
    Nat.shiftRight_eq_div_pow, h, UInt32.toNat_ofNat']
  omega

/-- `bits[0]`, which wraps around. -/
theorem low_eq (n k : Nat) :
    UInt32.ofNat (8 * n) + (UInt32.ofNat k <<< 3) = UInt32.ofNat (8 * (n + k)) := by
  have hshift : (3 : UInt32).toNat % 32 = 3 := rfl
  apply UInt32.toNat_inj.mp
  rw [UInt32.toNat_add, UInt32.toNat_shiftLeft, hshift, Nat.shiftLeft_eq, UInt32.toNat_ofNat',
    UInt32.toNat_ofNat', UInt32.toNat_ofNat']
  omega

/-- `bits[1]`, with the carry. -/
theorem high_eq (n : Nat) {k : Nat} (hk : k < 2 ^ 32) :
    (if UInt32.ofNat (8 * (n + k)) < UInt32.ofNat (8 * n) then UInt32.ofNat (8 * n / 2 ^ 32) + 1
      else UInt32.ofNat (8 * n / 2 ^ 32)) + (UInt32.ofNat k >>> 29) =
        UInt32.ofNat (8 * (n + k) / 2 ^ 32) := by
  have hshift : (29 : UInt32).toNat % 32 = 29 := rfl
  have hone : (1 : UInt32).toNat = 1 := rfl
  apply UInt32.toNat_inj.mp
  rw [UInt32.toNat_add, UInt32.toNat_shiftRight, hshift, Nat.shiftRight_eq_div_pow,
    UInt32.toNat_ofNat', UInt32.toNat_ofNat']
  have hcarry : UInt32.ofNat (8 * (n + k)) < UInt32.ofNat (8 * n) ↔
      8 * (n + k) % 2 ^ 32 < 8 * n % 2 ^ 32 := by
    rw [UInt32.lt_iff_toNat_lt, UInt32.toNat_ofNat', UInt32.toNat_ofNat']
  by_cases hlt : UInt32.ofNat (8 * (n + k)) < UInt32.ofNat (8 * n)
  · rw [if_pos hlt, UInt32.toNat_add, UInt32.toNat_ofNat', hone]
    have := hcarry.mp hlt
    omega
  · rw [if_neg hlt, UInt32.toNat_ofNat']
    have := mt hcarry.mpr hlt
    omega

/-- **One call.** -/
theorem update_spec {ctx : MD5Context} {m : Bytes} (h : Holds ctx m) {buf : Bytes}
    (hlen : buf.length < 2 ^ 32) :
    ∃ ctx', update ctx buf = some ctx' ∧ Holds ctx' (m ++ buf) := by
  have hlow := low_eq m.length buf.length
  have hhigh := high_eq m.length hlen
  have hcount := count_eq h.low
  have hleft := length_left m
  have happend : hashOf initial (m ++ buf) =
      hashOf (hashOf initial m).1 ((hashOf initial m).2 ++ buf) := absorb_append transform _ m buf
  rw [← h.low, ← List.length_append] at hlow
  rw [← h.high, ← h.low, ← List.length_append, ← hlow] at hhigh
  unfold update
  dsimp only
  rw [hcount, ← hleft, hhigh, hlow]
  by_cases hbegun : (hashOf initial m).2.length ≠ 0
  · rw [if_pos hbegun]
    by_cases hfits : buf.length < 64 - (hashOf initial m).2.length
    · rw [if_pos hfits]
      obtain ⟨data, hstore, hdata⟩ := store_behind h.data (d := buf) (by omega)
      have hshort : hashOf initial (m ++ buf) =
          ((hashOf initial m).1, (hashOf initial m).2 ++ buf) := by
        rw [happend]
        exact absorb_of_lt _ (by rw [List.length_append]; omega)
      refine ⟨_, by rw [hstore]; rfl, ⟨?_, rfl, rfl, ?_⟩⟩
      · rw [hshort]
        exact h.buf
      · rw [hshort]
        exact hdata
    · rw [if_neg hfits]
      have hlt : (hashOf initial m).2.length < 64 := by
        rw [hleft]
        exact Nat.mod_lt _ (by decide)
      have htake : (buf.take (64 - (hashOf initial m).2.length)).length =
          64 - (hashOf initial m).2.length := by
        rw [List.length_take]
        omega
      obtain ⟨data, hstore, hdata⟩ := store_full h.data (by rw [htake]; omega)
      have hblock : hashOf initial (m ++ buf) =
          hashOf (transform ctx.buf data.1) (buf.drop (64 - (hashOf initial m).2.length)) := by
        rw [happend, ← List.take_append_drop (64 - (hashOf initial m).2.length) buf,
          ← List.append_assoc, hashOf, absorb_block (by decide) _ (by
            rw [List.length_append, htake]; omega), hdata, h.buf, List.take_append_drop]
      obtain ⟨data', hloop, hdata'⟩ := updateLoop_spec
        { ctx with
            low := UInt32.ofNat (8 * (m ++ buf).length)
            high := UInt32.ofNat (8 * (m ++ buf).length / 2 ^ 32)
            data, buf := transform ctx.buf data.1 }
        (buf.drop (64 - (hashOf initial m).2.length))
      refine ⟨_, by rw [hstore]; exact hloop, ⟨?_, rfl, rfl, ?_⟩⟩
      · rw [hblock]
      · rw [hblock]
        exact hdata'
  · rw [if_neg hbegun]
    have hnone : (hashOf initial m).2 = [] := List.length_eq_zero_iff.mp (not_not.mp hbegun)
    obtain ⟨data', hloop, hdata'⟩ := updateLoop_spec
      { ctx with
          low := UInt32.ofNat (8 * (m ++ buf).length)
          high := UInt32.ofNat (8 * (m ++ buf).length / 2 ^ 32) } buf
    rw [hnone, List.nil_append, ← h.buf] at happend
    refine ⟨_, hloop, ⟨?_, rfl, rfl, ?_⟩⟩
    · rw [happend]
    · rw [happend]
      exact hdata'

/-- Calls, one after the other. -/
def updates : MD5Context → List Bytes → Option MD5Context
  | ctx, [] => some ctx
  | ctx, buf :: chunks => (update ctx buf).bind (updates · chunks)

theorem updates_spec {chunks : List Bytes} (hlen : ∀ buf ∈ chunks, buf.length < 2 ^ 32)
    {ctx : MD5Context} {m : Bytes} (h : Holds ctx m) :
    ∃ ctx', updates ctx chunks = some ctx' ∧ Holds ctx' (m ++ chunks.flatten) := by
  induction chunks generalizing ctx m with
  | nil => exact ⟨ctx, rfl, by rwa [List.flatten_nil, List.append_nil]⟩
  | cons buf chunks ih =>
      obtain ⟨ctx1, hupdate, h1⟩ := update_spec h (hlen buf List.mem_cons_self)
      obtain ⟨ctx', hupdates, h'⟩ := ih (fun b hb => hlen b (List.mem_cons_of_mem _ hb)) h1
      refine ⟨ctx', ?_, ?_⟩
      · rw [updates, hupdate]
        exact hupdates
      · rwa [List.flatten_cons, ← List.append_assoc]

/-! ### `MD5Final` -/

/-- The zeros, in one block or two: what was in front of them is hashed, if it is the first of
two, and 56 bytes stand in `in`. -/
theorem pad_spec {ctx : MD5Context} {front : Bytes}
    (hfront : ctx.data.1.take front.length = front) (hpos : 0 < front.length)
    (hle : front.length ≤ 64) :
    ∃ ctx' front', pad ctx front.length (64 - front.length) = some ctx' ∧
      ctx'.low = ctx.low ∧ ctx'.high = ctx.high ∧ front'.length = 56 ∧
      ctx'.data.1.take front'.length = front' ∧
      ∀ tail, hashOf ctx.buf (front ++ List.replicate ((120 - front.length) % 64) 0 ++ tail) =
        hashOf ctx'.buf (front' ++ tail) := by
  unfold pad
  by_cases hcount : 64 - front.length < 8
  · rw [if_pos hcount]
    obtain ⟨data, hstore, hdata⟩ := store_full hfront (d := List.replicate (64 - front.length) 0)
      (by rw [List.length_replicate]; omega)
    obtain ⟨data', hstore', hdata'⟩ := @store_behind data [] (List.replicate 56 0) rfl
      (by decide)
    rw [List.nil_append] at hdata'
    refine ⟨{ ctx with buf := transform ctx.buf data.1, data := data' }, List.replicate 56 0, ?_,
      rfl, rfl, rfl, hdata', fun tail => ?_⟩
    · rw [hstore, Option.bind_some, show store data 0 (List.replicate 56 0) = some data' from hstore']
      rfl
    have hzeros : (120 - front.length) % 64 = 64 - front.length + 56 := by omega
    rw [hzeros, List.replicate_add, ← List.append_assoc, List.append_assoc, hashOf,
      absorb_block (by decide) _ (by rw [List.length_append, List.length_replicate]; omega), hdata]
  · rw [if_neg hcount]
    have hzeros : (120 - front.length) % 64 = 64 - front.length - 8 := by omega
    obtain ⟨data, hstore, hdata⟩ := store_behind hfront
      (d := List.replicate (64 - front.length - 8) 0) (by rw [List.length_replicate]; omega)
    refine ⟨{ ctx with data }, front ++ List.replicate (64 - front.length - 8) 0,
      by rw [hstore]; rfl, rfl, rfl, ?_, hdata, fun tail => ?_⟩
    · rw [List.length_append, List.length_replicate]
      omega
    · rw [hzeros]

theorem final_spec {ctx : MD5Context} {m : Bytes} (h : Holds ctx m) :
    final ctx = some (md5 m) := by
  have hleft := length_left m
  have hlt : m.length % 64 < 64 := Nat.mod_lt _ (by decide)
  obtain ⟨data, hbit, hdata⟩ := store_behind h.data (d := [0x80])
    (by rw [List.length_singleton]; omega)
  have hlen : ((hashOf initial m).2 ++ [0x80]).length = m.length % 64 + 1 := by
    rw [List.length_append, hleft, List.length_singleton]
  obtain ⟨ctx', front', hpad, hlow, hhigh, hfront', htake, hhash⟩ :=
    @pad_spec { ctx with data } _ hdata (by omega) (by omega)
  obtain ⟨data', hstore, hdata'⟩ := store_full htake
    (d := wordBytes ctx'.low ++ wordBytes ctx'.high) (by rw [hfront']; rfl)
  have hwords : wordBytes ctx'.low ++ wordBytes ctx'.high = twoWords (8 * m.length) := by
    rw [hlow, hhigh, twoWords, ← h.low, ← h.high]
  rw [hlen, show 64 - (m.length % 64 + 1) = 64 - 1 - m.length % 64 by omega] at hpad
  rw [hfront'] at hstore
  have hspec : hashOf initial (m ++ padding m.length) =
      (transform ctx'.buf data'.1, []) := by
    have htail := hhash (twoWords (8 * m.length))
    rw [hlen, show 120 - (m.length % 64 + 1) = 119 - m.length % 64 by omega] at htail
    have happend : hashOf initial (m ++ padding m.length) =
        hashOf ctx.buf ((hashOf initial m).2 ++ padding m.length) :=
      (absorb_append transform initial m (padding m.length)).trans (by rw [h.buf])
    have hpadding : (hashOf initial m).2 ++ padding m.length =
        (hashOf initial m).2 ++ [0x80] ++ List.replicate ((119 - m.length % 64) % 64) 0 ++
          twoWords (8 * m.length) := by
      rw [padding, List.append_assoc, List.append_assoc, List.singleton_append, List.cons_append]
    rw [happend, hpadding, htail, ← hwords, ← hdata', hashOf_block]
  have hmd5 : md5 m = digest (hashOf initial (m ++ padding m.length)).1 := by
    rw [md5, ← transform_eq]
  rw [hmd5, hspec, final, count_eq h.low, ← hleft, hbit, Option.bind_some, hleft, hpad,
    Option.bind_some, hstore, Option.map_some]

/-- **The digest.**  Whatever the context held before `MD5Init`, and however the bytes are given
to `MD5Update`, `MD5Final` computes the digest of all of them, and nothing is written outside of
the context. -/
theorem digest_of_chunks (ctx : MD5Context) (chunks : List Bytes)
    (hlen : ∀ buf ∈ chunks, buf.length < 2 ^ 32) :
    (updates (init ctx) chunks).bind final = some (md5 chunks.flatten) := by
  obtain ⟨ctx', hupdates, h⟩ := updates_spec hlen (holds_init ctx)
  rw [hupdates, Option.bind_some, final_spec h, List.nil_append]

theorem digest_of_two :
    (updates (init ⟨⟨0, 0, 0, 0⟩, 7, 7, ⟨List.replicate 64 1, List.length_replicate⟩⟩)
      [[1, 2, 3], [4]]).bind final = some (md5 [1, 2, 3, 4]) :=
  digest_of_chunks _ [[1, 2, 3], [4]] (by decide)

end Bank.MD5
