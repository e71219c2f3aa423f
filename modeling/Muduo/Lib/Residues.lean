/-
Residues modulo a prime: Euclid's algorithm with cofactors that are not negative.

The algorithm keeps two remainders of `p` and `a`, and for each a cofactor: a multiple of `a`
that is the remainder on one side and its opposite on the other.  The cofactors only grow, but
the remainders times the cofactors of the other side always add up to `p`, so nothing gets
larger than `p`, and the smaller remainder is one in the end because `p` is prime.
-/
import Mathlib.Data.ZMod.Basic
import Mathlib.Tactic.LinearCombination
import Mathlib.Tactic.Ring

namespace Lib

/-- What stands in the variables of the algorithm. -/
structure Cofactors (p a x y t0 t1 : Nat) : Prop where
  det : t0 * y + t1 * x = p
  left : (t0 * a : ZMod p) = x
  right : (t1 * a : ZMod p) = -y

namespace Cofactors

variable {p a x y t0 t1 : Nat}

/-- The first division is of `p` itself. -/
theorem start (p a : Nat) : Cofactors p a a (p % a) 1 (p / a) where
  det := by
    rw [Nat.one_mul, Nat.mul_comm, Nat.add_comm]
    exact Nat.div_add_mod p a
  left := by simp
  right := by
    have h : ((a * (p / a) + p % a : Nat) : ZMod p) = (p : Nat) :=
      congrArg _ (Nat.div_add_mod p a)
    push_cast [ZMod.natCast_self] at h
    linear_combination h

/-- Both sides may be taken for each other, up to the sign. -/
theorem stepLeft (h : Cofactors p a x y t0 t1) :
    Cofactors p a (x % y) y (t0 + x / y * t1) t1 where
  det := by
    have hx := Nat.div_add_mod x y
    calc (t0 + x / y * t1) * y + t1 * (x % y)
        = t0 * y + t1 * (y * (x / y) + x % y) := by ring
      _ = p := by rw [hx, h.det]
  left := by
    have hx : ((y * (x / y) + x % y : Nat) : ZMod p) = (x : Nat) :=
      congrArg _ (Nat.div_add_mod x y)
    push_cast at hx ⊢
    linear_combination h.left + ((x / y : Nat) : ZMod p) * h.right - hx
  right := h.right

theorem stepRight (h : Cofactors p a x y t0 t1) :
    Cofactors p a x (y % x) t0 (t1 + y / x * t0) where
  det := by
    have hy := Nat.div_add_mod y x
    calc t0 * (y % x) + (t1 + y / x * t0) * x
        = t0 * (x * (y / x) + y % x) + t1 * x := by ring
      _ = p := by rw [hy, h.det]
  left := h.left
  right := by
    have hy : ((x * (y / x) + y % x : Nat) : ZMod p) = (y : Nat) :=
      congrArg _ (Nat.div_add_mod y x)
    push_cast at hy ⊢
    linear_combination h.right + ((y / x : Nat) : ZMod p) * h.left + hy

theorem left_le (h : Cofactors p a x y t0 t1) {n : Nat} (hn : n ≤ y) : t0 * n ≤ p :=
  (Nat.mul_le_mul_left t0 hn).trans ((Nat.le_add_right _ _).trans h.det.le)

theorem right_le (h : Cofactors p a x y t0 t1) {n : Nat} (hn : n ≤ x) : t1 * n ≤ p :=
  (Nat.mul_le_mul_left t1 hn).trans ((Nat.le_add_left _ _).trans h.det.le)

/-- A remainder is not zero before the other one is one. -/
theorem left_ne_zero (h : Cofactors p a x y t0 t1) (hp : p.Prime) (hy : 1 < y) (hlt : y < p) :
    x ≠ 0 := by
  rintro rfl
  have hdvd : y ∣ p := ⟨t0, by rw [← h.det]; ring⟩
  obtain h1 | hself := (Nat.dvd_prime hp).mp hdvd <;> omega

theorem right_ne_zero (h : Cofactors p a x y t0 t1) (hp : p.Prime) (hx : 1 < x) (hlt : x < p) :
    y ≠ 0 := by
  rintro rfl
  have hdvd : x ∣ p := ⟨t1, by rw [← h.det]; ring⟩
  obtain h1 | hself := (Nat.dvd_prime hp).mp hdvd <;> omega

end Cofactors

end Lib
