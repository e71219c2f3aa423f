/-
`Convert`: numbers to text and back.

The conversions are those of a `stringstream`.  `StringToInt` and `StringToDouble`
declare their variable without a value, so what they return for an empty text is
whatever the storage held; `Junk` is that, and every function that reads storage
nobody wrote takes it as an argument.
-/
import Muduo.Lib.Numeral

namespace Bank

open Lib

/-- What uninitialised storage holds. -/
structure Junk where
  int : Int
  double : ℚ
  /-- The bytes behind the end of a string. -/
  mem : Nat → UInt8
  /-- The bytes behind a `char pass[16]`, up to the first that is zero. -/
  stack : Bytes

namespace Convert

def stringToInt (junk : Junk) (s : Bytes) : Int := readInt s junk.int

def stringToDouble (junk : Junk) (s : Bytes) : ℚ := readDouble s junk.double

end Convert

/-- A number of yuan in cents, as `setprecision(2)` and `fixed` print it. -/
def roundCents (x : ℚ) : Int := roundHalfEven (x * 100)

def Convert.doubleToString (x : ℚ) : Bytes :=
  (if x < 0 then [45] else []) ++ fixedText (roundCents x).natAbs

/-- `ss << x` for an `int`. -/
def intText (x : Int) : Bytes :=
  (if x < 0 then [45] else []) ++ natText x.natAbs

/-- `ss << setw(width) << setfill('0') << x`. -/
def paddedText (width : Nat) (x : Int) : Bytes :=
  List.replicate (width - (intText x).length) 48 ++ intText x

@[simp] theorem roundCents_cents (c : Int) : roundCents ((c : ℚ) / 100) = c := by
  rw [roundCents, div_mul_cancel₀ _ (by norm_num), roundHalfEven_intCast]

/-- The text of an amount that rounds to fewer than `10 ^ (k + 2)` cents. -/
theorem length_doubleToString {x : ℚ} {k : Nat} (hk : 0 < k)
    (hx : (roundCents x).natAbs < 10 ^ (k + 2)) : (Convert.doubleToString x).length ≤ k + 4 := by
  have hdigits : (natText ((roundCents x).natAbs / 100)).length ≤ k := by
    apply length_natText_le hk
    rw [pow_add] at hx
    omega
  have hsign : (if x < 0 then [45] else ([] : Bytes)).length ≤ 1 := by
    split <;> simp
  rw [Convert.doubleToString, fixedText]
  simp only [List.length_append, List.length_cons, List.length_nil] at hsign ⊢
  omega

/-- The text of an amount of fewer than `10 ^ (k + 2)` cents. -/
theorem length_doubleToString_le {c : Int} {k : Nat} (hk : 0 < k) (hc : c.natAbs < 10 ^ (k + 2)) :
    (Convert.doubleToString ((c : ℚ) / 100)).length ≤ k + 4 :=
  length_doubleToString hk (by rwa [roundCents_cents])

/-- The text of a finite `double` has a length of 16 bits. -/
theorem length_doubleToString_lt {x : ℚ} (hx : |x| ≤ doubleMax) :
    (Convert.doubleToString x).length < 65536 := by
  have hround : |(roundCents x : ℚ) - x * 100| ≤ 1 / 2 := abs_roundHalfEven_sub_le _
  have hmax : doubleMax ≤ 10 ^ 312 := by
    have hquarter : (2 : ℚ) ^ 1024 ≤ 10 ^ 312 := by
      rw [show 1024 = 256 * 4 from rfl, show 312 = 78 * 4 from rfl, pow_mul, pow_mul]
      exact pow_le_pow_left₀ (by positivity) (by norm_num) 4
    have hpos : (0 : ℚ) < 2 ^ 971 := by positivity
    exact (sub_le_self _ hpos.le).trans hquarter
  have hone : (1 : ℚ) ≤ 10 ^ 312 := one_le_pow₀ (by norm_num)
  have hle : |(roundCents x : ℚ)| < 10 ^ (312 + 3) := by
    have htri : |(roundCents x : ℚ)| ≤ |(roundCents x : ℚ) - x * 100| + |x * 100| := by
      simpa using abs_add_le ((roundCents x : ℚ) - x * 100) (x * 100)
    rw [abs_mul, abs_of_pos (show (0 : ℚ) < 100 by norm_num)] at htri
    rw [pow_add]
    generalize (10 : ℚ) ^ 312 = bound at *
    linarith
  have hnat : (roundCents x).natAbs < 10 ^ (313 + 2) := by
    have hcast : ((roundCents x).natAbs : ℚ) < 10 ^ (313 + 2) := by
      rwa [Nat.cast_natAbs, Int.cast_abs]
    exact_mod_cast hcast
  have := length_doubleToString (by norm_num) hnat
  omega

/-- An amount of whole cents is read back from its text. -/
theorem stringToDouble_doubleToString {c : Int} (hc : (c.natAbs : ℚ) / 100 ≤ doubleMax)
    (junk : Junk) :
    Convert.stringToDouble junk (Convert.doubleToString ((c : ℚ) / 100)) = (c : ℚ) / 100 := by
  have hneg : ((c : ℚ) / 100 < 0) ↔ c < 0 := by
    constructor
    · intro h
      have : (c : ℚ) < 0 := by linarith
      exact_mod_cast this
    · intro h
      have : (c : ℚ) < 0 := by exact_mod_cast h
      linarith
  have htext : Convert.doubleToString ((c : ℚ) / 100)
      = (if decide (c < 0) then [45] else []) ++ fixedText c.natAbs := by
    rw [Convert.doubleToString, roundCents_cents]
    simp only [hneg, decide_eq_true_eq]
  rw [Convert.stringToDouble, htext, readDouble_fixedText _ hc]
  by_cases h : c < 0
  · have habs : (c.natAbs : ℚ) = -c := by
      rw [Nat.cast_natAbs, abs_of_neg h, Int.cast_neg]
    simp only [signed, h, decide_true, if_true, habs]
    ring
  · have habs : (c.natAbs : ℚ) = c := by
      rw [Nat.cast_natAbs, abs_of_nonneg (by omega)]
    simp only [signed, h, decide_false, Bool.false_eq_true, if_false, habs]

end Bank
