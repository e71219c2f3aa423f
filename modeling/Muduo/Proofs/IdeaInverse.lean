/-
That the cipher of one block is undone by the key that `IdeaInvertKey` computes.

`MUL` multiplies modulo the prime 2¹⁶ + 1, without dividing by it; a word of zero is 2¹⁶.  So
every word has an inverse, and `MulInv` finds it without an overflow.

A round mixes the block with four words of the key and adds to both of its halves what the other
two words make of their sums; the sums are the same before and behind that, which is why it is
undone by doing it again.  The middle words are exchanged in between, but not behind the last
round, and the same order comes out when the rounds are read from their end.
-/
import Mathlib.NumberTheory.LucasPrimality
import Mathlib.Tactic.NormNum.Prime
import Muduo.Bank.IdeaCipher
import Muduo.Lib.Residues

namespace Bank.Idea

open Lib

/-! ### Multiplication -/

/-- The number from 1 to 2¹⁶ that a word is taken for. -/
def factor (x : UInt16) : Nat := if x = 0 then 65536 else x.toNat

theorem prime_modulus : Nat.Prime 65537 := by norm_num

theorem factor_zero : factor 0 = 65536 := if_pos rfl

theorem factor_of_ne {x : UInt16} (h : x ≠ 0) : factor x = x.toNat := if_neg h

theorem toNat_pos {x : UInt16} (h : x ≠ 0) : 0 < x.toNat :=
  Nat.pos_of_ne_zero fun h0 => h (UInt16.toNat_inj.mp h0)

theorem factor_bounds (x : UInt16) : 0 < factor x ∧ factor x < 65537 := by
  have hlt : x.toNat < 65536 := x.toNat_lt
  by_cases hx : x = 0
  · subst hx
    decide
  · rw [factor_of_ne hx]
    have := toNat_pos hx
    omega

theorem factor_inj {x y : UInt16} (h : factor x = factor y) : x = y := by
  have hx : x.toNat < 65536 := x.toNat_lt
  have hy : y.toNat < 65536 := y.toNat_lt
  apply UInt16.toNat_inj.mp
  by_cases hx0 : x = 0 <;> by_cases hy0 : y = 0
  · rw [hx0, hy0]
  · rw [hx0, factor_zero, factor_of_ne hy0] at h
    omega
  · rw [hy0, factor_zero, factor_of_ne hx0] at h
    omega
  · rwa [factor_of_ne hx0, factor_of_ne hy0] at h

/-- A word with these low bits is taken for the number, if it is not a multiple of 2¹⁶ + 1. -/
theorem factor_of_toNat {x : UInt16} {n : Nat} (hx : x.toNat = n % 65537 % 65536)
    (hn : n % 65537 ≠ 0) : factor x = n % 65537 := by
  by_cases h0 : x = 0
  · rw [h0, factor_zero]
    rw [h0, show (0 : UInt16).toNat = 0 from rfl] at hx
    omega
  · rw [factor_of_ne h0, hx]
    have hpos := toNat_pos h0
    omega

/-- `1 - x` is the opposite. -/
theorem factor_one_sub (x : UInt16) : factor (1 - x) = factor x * 65536 % 65537 := by
  have hlt : x.toNat < 65536 := x.toNat_lt
  have hbounds := factor_bounds x
  have hsplit : factor x * 65536 = 65537 * (factor x - 1) + (65537 - factor x) := by omega
  have hmod : factor x * 65536 % 65537 = 65537 - factor x := by
    rw [hsplit, Nat.mul_add_mod, Nat.mod_eq_of_lt (by omega)]
  refine factor_of_toNat ?_ (hmod ▸ Nat.sub_ne_zero_of_lt hbounds.2)
  rw [hmod, UInt16.toNat_sub, show (1 : UInt16).toNat = 1 from rfl]
  by_cases h0 : x = 0
  · rw [h0, factor_zero, show (0 : UInt16).toNat = 0 from rfl]
  · rw [factor_of_ne h0]
    exact congrArg (· % 65536) (show 65536 - x.toNat + 1 = 65537 - x.toNat by omega)

/-- A number is its low half less its high half, as 2¹⁶ is -1. -/
theorem mod_modulus {n : Nat} (h : n < 65536 * 65536) :
    n % 65537 = if n % 65536 < n / 65536 then n % 65536 + 65537 - n / 65536
      else n % 65536 - n / 65536 := by
  obtain ⟨high, low, rfl, hlow⟩ : ∃ high low, n = 65536 * high + low ∧ low < 65536 :=
    ⟨n / 65536, n % 65536, (Nat.div_add_mod n 65536).symm, Nat.mod_lt n (by decide)⟩
  have hmod : (65536 * high + low) % 65536 = low := by omega
  have hdiv : (65536 * high + low) / 65536 = high := by omega
  rw [hmod, hdiv]
  split <;> omega

/-- **`MUL`** is multiplication modulo 2¹⁶ + 1, of words of which zero is 2¹⁶. -/
theorem factor_mul (x y : UInt16) : factor (mul x y) = factor x * factor y % 65537 := by
  unfold mul
  by_cases hy : y = 0
  · rw [if_pos hy, hy, factor_one_sub, factor_zero]
  rw [if_neg hy]
  by_cases hx : x = 0
  · rw [if_pos hx, hx, factor_one_sub, factor_zero, Nat.mul_comm]
  rw [if_neg hx]
  have hbx := factor_bounds x
  have hby := factor_bounds y
  have hne : factor x * factor y % 65537 ≠ 0 := by
    intro h0
    obtain h | h := (Nat.Prime.dvd_mul prime_modulus).mp (Nat.dvd_of_mod_eq_zero h0)
    · exact absurd (Nat.le_of_dvd hbx.1 h) (by omega)
    · exact absurd (Nat.le_of_dvd hby.1 h) (by omega)
  refine factor_of_toNat ?_ hne
  have hlt : x.toNat * y.toNat ≤ 65535 * 65535 :=
    Nat.mul_le_mul (Nat.le_of_lt_succ x.toNat_lt) (Nat.le_of_lt_succ y.toNat_lt)
  have hmod := mod_modulus (n := x.toNat * y.toNat) (by omega)
  rw [factor_of_ne hx, factor_of_ne hy] at hne ⊢
  rw [hmod] at hne ⊢
  -- the high half of the product is taken from the low half
  set n := x.toNat * y.toNat with hn
  have ht : (x.toUInt32 * y.toUInt32).toNat = n := by
    rw [UInt32.toNat_mul, UInt16.toNat_toUInt32, UInt16.toNat_toUInt32, ← hn]
    omega
  set t := x.toUInt32 * y.toUInt32
  have hlow : t.toUInt16.toNat = n % 65536 := by
    rw [UInt32.toNat_toUInt16, ht]
  have hhigh : (t >>> 16).toUInt16.toNat = n / 65536 := by
    rw [UInt32.toNat_toUInt16, UInt32.toNat_shiftRight, ht]
    rw [show (16 : UInt32).toNat % 32 = 16 from rfl, Nat.shiftRight_eq_div_pow]
    omega
  dsimp only
  rw [UInt16.toNat_add, UInt16.toNat_sub, hlow, hhigh]
  by_cases hless : n % 65536 < n / 65536
  · rw [if_pos hless] at hne ⊢
    rw [if_pos (UInt16.lt_iff_toNat_lt.mpr (by rw [hlow, hhigh]; exact hless)),
      show (1 : UInt16).toNat = 1 from rfl]
    omega
  · rw [if_neg hless] at hne ⊢
    rw [if_neg fun h => hless (by rw [← hlow, ← hhigh]; exact UInt16.lt_iff_toNat_lt.mp h),
      show (0 : UInt16).toNat = 0 from rfl]
    omega

/-! ### Inverses -/

/-- The residue of a word. -/
def residue (x : UInt16) : ZMod 65537 := factor x

theorem residue_inj {x y : UInt16} (h : residue x = residue y) : x = y := by
  refine factor_inj ?_
  have hmod := (ZMod.natCast_eq_natCast_iff' _ _ _).mp h
  rwa [Nat.mod_eq_of_lt (factor_bounds x).2, Nat.mod_eq_of_lt (factor_bounds y).2] at hmod

@[simp] theorem residue_one : residue 1 = 1 := by
  rw [residue, factor_of_ne (by decide)]
  rfl

@[simp] theorem residue_mul (x y : UInt16) : residue (mul x y) = residue x * residue y := by
  rw [residue, factor_mul, ZMod.natCast_mod, Nat.cast_mul]
  rfl

theorem residue_of_ne {x : UInt16} (h : x ≠ 0) : residue x = x.toNat := by
  rw [residue, factor_of_ne h]

/-- `1 - x` is the opposite of a word that is not zero. -/
theorem residue_one_sub {x : UInt16} (h : x ≠ 0) : residue (1 - x) = -x.toNat := by
  rw [residue, factor_one_sub, ZMod.natCast_mod, Nat.cast_mul, factor_of_ne h]
  have hneg : ((65536 : Nat) : ZMod 65537) = -1 := by decide
  rw [hneg]
  ring

theorem mulAdd_of_le {t q u : UInt16} (h : t.toNat + q.toNat * u.toNat < 65536) :
    ∃ r, mulAdd t q u = some r ∧ r.toNat = t.toNat + q.toNat * u.toNat := by
  refine ⟨_, if_pos (by omega), ?_⟩
  rw [UInt16.toNat_add, UInt16.toNat_mul]
  omega

private theorem ne_one_of_toNat {x : UInt16} (h : x ≠ 1) : x.toNat ≠ 1 := fun h1 =>
  h (UInt16.toNat_inj.mp h1)

/-- The word that `MulInv` returns when the second remainder is one. -/
private theorem mul_one_sub {a t : UInt16} (ha : a ≠ 0)
    (h : (t.toNat * a.toNat : ZMod 65537) = -(1 : Nat)) : mul a (1 - t) = 1 := by
  have ht : t ≠ 0 := by
    rintro rfl
    rw [show (0 : UInt16).toNat = 0 from rfl] at h
    revert h
    push_cast
    rw [zero_mul]
    decide
  apply residue_inj
  rw [residue_mul, residue_one_sub ht, residue_of_ne ha, residue_one]
  push_cast at h
  linear_combination -h

/-- And when the first one is. -/
private theorem mul_of_left {a t : UInt16} (ha : a ≠ 0)
    (h : (t.toNat * a.toNat : ZMod 65537) = (1 : Nat)) : mul a t = 1 := by
  have ht : t ≠ 0 := by
    rintro rfl
    rw [show (0 : UInt16).toNat = 0 from rfl] at h
    revert h
    push_cast
    rw [zero_mul]
    decide
  apply residue_inj
  rw [residue_mul, residue_of_ne ht, residue_of_ne ha, residue_one]
  push_cast at h
  linear_combination h

/-- The loop divides until one of the remainders is one, and nothing overflows on the way. -/
theorem mulInvLoop_spec {a : UInt16} (ha : a ≠ 0) {x y t0 t1 : UInt16} (hy : 1 < y.toNat)
    (hlt : y.toNat < x.toNat)
    (h : Cofactors 65537 a.toNat x.toNat y.toNat t0.toNat t1.toNat) :
    ∃ r, mulInvLoop x y t0 t1 = some r ∧ mul a r = 1 := by
  induction hn : y.toNat using Nat.strong_induction_on generalizing x y t0 t1 with
  | _ n ih =>
  subst hn
  have hx : x.toNat < 65536 := x.toNat_lt
  have hstep := h.stepLeft
  have hbound := hstep.left_le (n := 2) (by omega)
  have hy0 : y ≠ 0 := by
    rintro rfl
    exact absurd hy (by decide)
  obtain ⟨u0, hu0, hu0'⟩ := mulAdd_of_le (t := t0) (q := x / y) (u := t1)
    (by rw [UInt16.toNat_div]; omega)
  rw [UInt16.toNat_div] at hu0'
  rw [← hu0', ← UInt16.toNat_mod] at hstep
  have hnext : (x % y).toNat < y.toNat := by
    rw [UInt16.toNat_mod]
    exact Nat.mod_lt _ (by omega)
  rw [mulInvLoop, if_neg hy0, hu0]
  show ∃ r, (if x % y = 1 then some u0 else _) = some r ∧ _
  by_cases h1 : x % y = 1
  · rw [if_pos h1]
    refine ⟨u0, rfl, mul_of_left ha ?_⟩
    rw [hstep.left, h1]
    rfl
  have h0 : x % y ≠ 0 := fun h0 =>
    hstep.left_ne_zero prime_modulus hy (by omega) (by rw [h0]; rfl)
  rw [if_neg h1, if_neg h0]
  have hx1 : 1 < (x % y).toNat := by
    have := toNat_pos h0
    have := ne_one_of_toNat h1
    omega
  have hstep' := hstep.stepRight
  have hbound' := hstep'.right_le (n := 2) (by omega)
  obtain ⟨u1, hu1, hu1'⟩ := mulAdd_of_le (t := t1) (q := y / (x % y)) (u := u0)
    (by rw [UInt16.toNat_div]; omega)
  rw [UInt16.toNat_div] at hu1'
  rw [← hu1', ← UInt16.toNat_mod] at hstep'
  rw [hu1]
  show ∃ r, (if y % (x % y) = 1 then some (1 - u1) else _) = some r ∧ _
  by_cases hy1 : y % (x % y) = 1
  · rw [if_pos hy1]
    refine ⟨_, rfl, mul_one_sub ha ?_⟩
    rw [hstep'.right, hy1]
    rfl
  rw [if_neg hy1]
  have hnext' : (y % (x % y)).toNat < (x % y).toNat := by
    rw [UInt16.toNat_mod y]
    exact Nat.mod_lt _ (by omega)
  have hy0' : y % (x % y) ≠ 0 := fun h0 =>
    hstep'.right_ne_zero prime_modulus hx1 (by omega) (by rw [h0]; rfl)
  have hpos := toNat_pos hy0'
  have hne := ne_one_of_toNat hy1
  exact ih (y % (x % y)).toNat (by omega) (by omega) hnext' hstep' rfl

/-- **`MulInv`** returns an inverse of every word. -/
theorem mulInv_spec (x : UInt16) : ∃ y, mulInv x = some y ∧ mul x y = 1 := by
  unfold mulInv
  by_cases hle : x ≤ 1
  · rw [if_pos hle]
    refine ⟨x, rfl, ?_⟩
    have hle : x.toNat ≤ 1 := UInt16.le_iff_toNat_le.mp hle
    obtain h0 | h1 : x.toNat = 0 ∨ x.toNat = 1 := by omega
    · obtain rfl : x = 0 := UInt16.toNat_inj.mp h0
      rfl
    · obtain rfl : x = 1 := UInt16.toNat_inj.mp h1
      rfl
  rw [if_neg hle]
  have hx1 : 1 < x.toNat := by
    rw [UInt16.le_iff_toNat_le] at hle
    exact Nat.lt_of_not_le hle
  have hx : x.toNat < 65536 := x.toNat_lt
  have hx0 : x ≠ 0 := by
    rintro rfl
    exact absurd hx1 (by decide)
  have hstart := Cofactors.start 65537 x.toNat
  have ht1 := hstart.right_le (n := 2) hx1
  have hylt : 65537 % x.toNat < x.toNat := Nat.mod_lt _ (by omega)
  have ht1' : (UInt16.ofNat (0x10001 / x.toNat)).toNat = 65537 / x.toNat := by
    rw [UInt16.toNat_ofNat']
    omega
  have hy' : (UInt16.ofNat (0x10001 % x.toNat)).toNat = 65537 % x.toNat := by
    rw [UInt16.toNat_ofNat']
    omega
  rw [← ht1', ← hy'] at hstart
  dsimp only
  by_cases hy1 : UInt16.ofNat (0x10001 % x.toNat) = 1
  · rw [if_pos hy1]
    refine ⟨_, rfl, mul_one_sub hx0 ?_⟩
    rw [hstart.right, hy1]
    rfl
  rw [if_neg hy1]
  have hne := hstart.right_ne_zero prime_modulus hx1 (by omega)
  have hne1 := ne_one_of_toNat hy1
  exact mulInvLoop_spec hx0 (by omega) (by omega) hstart

/-! ### Rounds -/

theorem mul_mul_inv {x k k' : UInt16} (h : mul k k' = 1) : mul (mul x k) k' = x := by
  have hk := congrArg residue h
  rw [residue_mul, residue_one] at hk
  apply residue_inj
  rw [residue_mul, residue_mul, mul_assoc, hk, mul_one]

/-- The first half of a round, with its four words of the key. -/
def mix (k1 k2 k3 k4 : UInt16) (w : Words) : Words :=
  ⟨mul w.x1 k1, w.x2 + k2, w.x3 + k3, mul w.x4 k4⟩

/-- The second half, with the other two. -/
def spread (k5 k6 : UInt16) (w : Words) : Words :=
  let s := mul (w.x3 ^^^ w.x1) k5
  let t := mul ((w.x2 ^^^ w.x4) + s) k6
  ⟨w.x1 ^^^ t, w.x2 ^^^ (s + t), w.x3 ^^^ t, w.x4 ^^^ (s + t)⟩

/-- The words in the middle are exchanged. -/
def Words.swap (w : Words) : Words := ⟨w.x1, w.x3, w.x2, w.x4⟩

@[simp] theorem Words.swap_swap (w : Words) : w.swap.swap = w := rfl

theorem xor_xor (x t : UInt16) : x ^^^ t ^^^ t = x := by
  rw [UInt16.xor_assoc, UInt16.xor_self, UInt16.xor_zero]

theorem xor_xor_xor (x y t : UInt16) : (x ^^^ t) ^^^ (y ^^^ t) = x ^^^ y := by
  rw [UInt16.xor_assoc, UInt16.xor_comm y t, ← UInt16.xor_assoc t t y, UInt16.xor_self,
    UInt16.zero_xor]

/-- What is added is made of sums that it leaves as they are. -/
theorem spread_spread (k5 k6 : UInt16) (w : Words) : spread k5 k6 (spread k5 k6 w) = w := by
  obtain ⟨x1, x2, x3, x4⟩ := w
  simp only [spread, xor_xor_xor, xor_xor]

theorem mix_mix {k1 k2 k3 k4 k1' k4' : UInt16} (h1 : mul k1 k1' = 1) (h4 : mul k4 k4' = 1)
    (w : Words) : mix k1' (-k2) (-k3) k4' (mix k1 k2 k3 k4 w) = w := by
  obtain ⟨x1, x2, x3, x4⟩ := w
  simp only [mix, mul_mul_inv h1, mul_mul_inv h4, UInt16.add_neg_eq_sub,
    UInt16.add_sub_cancel]

theorem swap_mix (k1 k2 k3 k4 : UInt16) (w : Words) :
    (mix k1 k2 k3 k4 w).swap = mix k1 k3 k2 k4 w.swap := rfl

theorem cipherRound_eq (w : Words) (k : Nat → UInt16) :
    cipherRound w k = (spread (k 4) (k 5) (mix (k 0) (k 1) (k 2) (k 3) w)).swap := by
  simp only [cipherRound, spread, mix, Words.swap]
  congr 1
  · exact UInt16.xor_comm _ _
  · exact UInt16.xor_comm _ _

/-- The words in the order in which they are written. -/
def cipherWords (r : Nat) (w : Words) (key : List UInt16) : Words := (cipherRounds r w key).swap

theorem cipherWords_zero (w : Words) (k1 k2 k3 k4 : UInt16) (key : List UInt16) :
    cipherWords 0 w (k1 :: k2 :: k3 :: k4 :: key) = mix k1 k2 k3 k4 w.swap := rfl

theorem cipherWords_succ (r : Nat) (w : Words) (k1 k2 k3 k4 k5 k6 : UInt16) (key : List UInt16) :
    cipherWords (r + 1) w (k1 :: k2 :: k3 :: k4 :: k5 :: k6 :: key)
      = cipherWords r (spread k5 k6 (mix k1 k2 k3 k4 w)).swap key := by
  show (cipherRounds r (cipherRound w _) _).swap = _
  rw [cipherRound_eq]
  rfl

/-- The same, with the other two words as the first of what is behind the four. -/
theorem cipherWords_of_le (r : Nat) (w : Words) (k1 k2 k3 k4 : UInt16) {key : List UInt16}
    (h : 2 ≤ key.length) :
    cipherWords (r + 1) w (k1 :: k2 :: k3 :: k4 :: key)
      = cipherWords r (spread (key.getD 0 0) (key.getD 1 0) (mix k1 k2 k3 k4 w)).swap
          (key.drop 2) := by
  match key, h with
  | k5 :: k6 :: rest, _ => exact cipherWords_succ r w k1 k2 k3 k4 k5 k6 rest

theorem invertMix_spec (swapped : Bool) (k1 k2 k3 k4 : UInt16) (temp : List UInt16) :
    ∃ k1' k4', mul k1 k1' = 1 ∧ mul k4 k4' = 1 ∧
      invertMix swapped k1 k2 k3 k4 temp
        = some (if swapped then k1' :: -k3 :: -k2 :: k4' :: temp
            else k1' :: -k2 :: -k3 :: k4' :: temp) := by
  obtain ⟨k1', h1, hmul1⟩ := mulInv_spec k1
  obtain ⟨k4', h4, hmul4⟩ := mulInv_spec k4
  refine ⟨k1', k4', hmul1, hmul4, ?_⟩
  simp only [invertMix, h1, h4]
  rfl

/-- Rounds are undone from the last one on: `temp` undoes what has been done to `w` before them,
up to the exchange. -/
theorem invertRounds_spec {r : Nat} {ek temp : List UInt16} {j : Nat} {w v : Words}
    (hlen : ek.length = 6 * (r + 1)) (hj : temp.length = 6 * j + 4)
    (h : cipherWords j w.swap temp = v) :
    ∃ dk, invertRounds (r + 1) ek temp = some dk ∧ dk.length = 6 * (j + r + 1) + 4 ∧
      cipherWords (j + r + 1) (cipherWords r (spread (ek.getD 0 0) (ek.getD 1 0) w).swap
        (ek.drop 2)) dk = v := by
  induction r generalizing ek temp j w with
  | zero =>
      obtain ⟨k5, k6, k1, k2, k3, k4, rfl⟩ : ∃ k5 k6 k1 k2 k3 k4, ek = [k5, k6, k1, k2, k3, k4] := by
        match ek, hlen with
        | [k5, k6, k1, k2, k3, k4], _ => exact ⟨k5, k6, k1, k2, k3, k4, rfl⟩
      obtain ⟨k1', k4', h1, h4, hinv⟩ := invertMix_spec false k1 k2 k3 k4 (k5 :: k6 :: temp)
      refine ⟨k1' :: -k2 :: -k3 :: k4' :: k5 :: k6 :: temp, ?_, ?_, ?_⟩
      · show (invertMix (decide (0 ≠ 0)) k1 k2 k3 k4 (k5 :: k6 :: temp)).bind _ = _
        rw [show decide ((0 : Nat) ≠ 0) = false from rfl, hinv]
        rfl
      · simp only [List.length_cons, hj]
        omega
      · show cipherWords (j + 1) (cipherWords 0 _ [k1, k2, k3, k4]) _ = v
        rw [cipherWords_zero, cipherWords_succ, mix_mix h1 h4]
        show cipherWords j (spread k5 k6 (spread k5 k6 w)).swap temp = v
        rw [spread_spread, h]
  | succ r ih =>
      obtain ⟨k5, k6, k1, k2, k3, k4, ek, rfl⟩ :
          ∃ k5 k6 k1 k2 k3 k4 rest, ek = k5 :: k6 :: k1 :: k2 :: k3 :: k4 :: rest := by
        match ek, hlen with
        | k5 :: k6 :: k1 :: k2 :: k3 :: k4 :: rest, _ => exact ⟨k5, k6, k1, k2, k3, k4, rest, rfl⟩
      have hlen : ek.length = 6 * (r + 1) := by
        simp only [List.length_cons] at hlen
        omega
      obtain ⟨k1', k4', h1, h4, hinv⟩ := invertMix_spec true k1 k2 k3 k4 (k5 :: k6 :: temp)
      set temp' := k1' :: -k3 :: -k2 :: k4' :: k5 :: k6 :: temp with htemp
      have hundo : cipherWords (j + 1)
          (mix k1 k2 k3 k4 (spread k5 k6 w).swap).swap temp' = v := by
        rw [htemp, cipherWords_succ, swap_mix, mix_mix h1 h4, Words.swap_swap, spread_spread, h]
      obtain ⟨dk, hdk, hdklen, hcipher⟩ := @ih ek temp' (j + 1) _ hlen
        (by simp only [htemp, List.length_cons, hj]; omega) hundo
      refine ⟨dk, ?_, by omega, ?_⟩
      · show (invertMix (decide (r + 1 ≠ 0)) k1 k2 k3 k4 (k5 :: k6 :: temp)).bind _ = _
        rw [show decide (r + 1 ≠ 0) = true from decide_eq_true (Nat.succ_ne_zero r), hinv]
        exact hdk
      · rw [show j + (r + 1) + 1 = j + 1 + r + 1 by omega, ← hcipher]
        exact congrArg (cipherWords _ · dk)
          (cipherWords_of_le r (spread k5 k6 w).swap k1 k2 k3 k4 (by omega))

/-! ### Blocks -/

/-- What `IdeaInvertKey` makes of a key undoes all rounds. -/
theorem invertKey_spec {ek : List UInt16} (hlen : ek.length = 52) :
    ∃ dk, invertKey ek = some dk ∧ dk.length = 52 ∧
      ∀ w, cipherWords 8 (cipherWords 8 w ek) dk = w := by
  obtain ⟨k1, k2, k3, k4, ek, rfl⟩ : ∃ k1 k2 k3 k4 rest, ek = k1 :: k2 :: k3 :: k4 :: rest := by
    match ek, hlen with
    | k1 :: k2 :: k3 :: k4 :: rest, _ => exact ⟨k1, k2, k3, k4, rest, rfl⟩
  have hlen : ek.length = 6 * (7 + 1) := by
    simp only [List.length_cons] at hlen
    omega
  obtain ⟨k1', k4', h1, h4, hinv⟩ := invertMix_spec false k1 k2 k3 k4 []
  have hundo : ∀ w, cipherWords 0 (mix k1 k2 k3 k4 w).swap [k1', -k2, -k3, k4'] = w := by
    intro w
    rw [cipherWords_zero, Words.swap_swap, mix_mix h1 h4]
  -- the key does not depend on the block
  have hrounds := fun w => invertRounds_spec (r := 7) hlen (j := 0) rfl (hundo w)
  obtain ⟨dk, hdk, hdklen, -⟩ := hrounds ⟨0, 0, 0, 0⟩
  refine ⟨dk, ?_, hdklen, fun w => ?_⟩
  · show (invertMix false k1 k2 k3 k4 []).bind _ = _
    rw [hinv]
    exact hdk
  · obtain ⟨dk', hdk', -, hcipher⟩ := hrounds w
    obtain rfl : dk = dk' := Option.some.inj (hdk.symm.trans hdk')
    rw [cipherWords_of_le 7 w k1 k2 k3 k4 (by omega)]
    exact hcipher

theorem length_expandLoop (n : Nat) : ∀ (ek : List UInt16) (base i : Nat),
    (expandLoop n ek base i).length = ek.length + n := by
  induction n with
  | zero => exact fun _ _ _ => rfl
  | succ n ih =>
      intro ek base i
      simp only [expandLoop]
      split <;> rw [ih, List.length_append, List.length_singleton] <;> omega

theorem length_expandKey (userkey : Vector UInt8 16) : (expandKey userkey).length = 52 := by
  rw [expandKey, length_expandLoop, List.length_map, List.length_range]

/-- The words of a block. -/
def wordsOf (block : Vector UInt8 8) : Words :=
  let word := fun j => toU16 (block.toList.getD (2 * j) 0) (block.toList.getD (2 * j + 1) 0)
  ⟨word 0, word 1, word 2, word 3⟩

def blockOf (w : Words) : Vector UInt8 8 :=
  let out := beU16 w.x1 ++ beU16 w.x2 ++ beU16 w.x3 ++ beU16 w.x4
  Vector.ofFn fun i : Fin 8 => out.getD i 0

theorem cipherBlock_eq (key : List UInt16) (block : Vector UInt8 8) :
    cipherBlock key block = blockOf (cipherWords 8 (wordsOf block) key) := by
  unfold cipherBlock blockOf wordsOf cipherWords
  dsimp only
  generalize cipherRounds 8 _ key = w
  obtain ⟨x1, x2, x3, x4⟩ := w
  rfl

theorem wordsOf_blockOf (w : Words) : wordsOf (blockOf w) = w := by
  obtain ⟨x1, x2, x3, x4⟩ := w
  show Words.mk (toU16 (UInt8.ofNat (x1.toNat / 256)) (UInt8.ofNat (x1.toNat % 256)))
    (toU16 (UInt8.ofNat (x2.toNat / 256)) (UInt8.ofNat (x2.toNat % 256)))
    (toU16 (UInt8.ofNat (x3.toNat / 256)) (UInt8.ofNat (x3.toNat % 256)))
    (toU16 (UInt8.ofNat (x4.toNat / 256)) (UInt8.ofNat (x4.toNat % 256))) = _
  rw [toU16_beU16, toU16_beU16, toU16_beU16, toU16_beU16]

theorem beU16_toU16 (a b : UInt8) : beU16 (toU16 a b) = [a, b] := by
  have ha : a.toNat < 256 := a.toNat_lt
  have hb : b.toNat < 256 := b.toNat_lt
  have hn : (toU16 a b).toNat = a.toNat * 256 + b.toNat := by
    rw [toU16, UInt16.toNat_ofNat']
    omega
  have hhigh : UInt8.ofNat ((toU16 a b).toNat / 256) = a := by
    apply UInt8.toNat_inj.mp
    rw [UInt8.toNat_ofNat', hn]
    omega
  have hlow : UInt8.ofNat ((toU16 a b).toNat % 256) = b := by
    apply UInt8.toNat_inj.mp
    rw [UInt8.toNat_ofNat', hn]
    omega
  rw [beU16, hhigh, hlow]

theorem blockOf_wordsOf (block : Vector UInt8 8) : blockOf (wordsOf block) = block := by
  obtain ⟨a, b, c, d, e, f, g, h, hblock⟩ :
      ∃ a b c d e f g h, block.toList = [a, b, c, d, e, f, g, h] := by
    match hlist : block.toList, block.length_toList with
    | [a, b, c, d, e, f, g, h], _ => exact ⟨a, b, c, d, e, f, g, h, rfl⟩
  have hout : beU16 (wordsOf block).x1 ++ beU16 (wordsOf block).x2 ++ beU16 (wordsOf block).x3
      ++ beU16 (wordsOf block).x4 = block.toList := by
    simp only [wordsOf, beU16_toU16, hblock]
    rfl
  apply Vector.ext
  intro i hi
  simp only [blockOf, hout, Vector.getElem_ofFn]
  rw [List.getD_eq_getElem?_getD, List.getElem?_eq_getElem (by rw [Vector.length_toList]; exact hi),
    Option.getD_some, Vector.getElem_toList]

/-- **Deciphering.**  For every user key, `IdeaInvertKey` computes a key under which `IdeaCipher`
recovers every block from what it makes of it. -/
theorem cipher_inverse (userkey : Vector UInt8 16) :
    ∃ dk, invertKey (expandKey userkey) = some dk ∧ dk.length = 52 ∧
      ∀ block, cipherBlock dk (ideaCipher userkey block) = block := by
  obtain ⟨dk, hdk, hlen, hinverse⟩ := invertKey_spec (length_expandKey userkey)
  refine ⟨dk, hdk, hlen, fun block => ?_⟩
  show cipherBlock dk (cipherBlock (expandKey userkey) block) = block
  rw [cipherBlock_eq, cipherBlock_eq, wordsOf_blockOf, hinverse, blockOf_wordsOf]

/-- **`MUL`**, in which zero stands for 2¹⁶, is multiplication modulo the prime 2¹⁶ + 1. -/
theorem mul_eq_product (x y : UInt16) : factor (mul x y) = factor x * factor y % 65537 :=
  factor_mul x y

/-- **`MulInv`** ends, divides by nothing, lets nothing overflow, and inverts. -/
theorem mulInv_inverts (x : UInt16) : ∃ y, mulInv x = some y ∧ mul x y = 1 :=
  mulInv_spec x

end Bank.Idea
