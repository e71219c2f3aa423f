/-
Taking whole blocks off a stream.

A fold over blocks of `n` items that keeps what does not fill a block.  What is kept is shorter
than a block, and it is all that a later call has to know of the earlier ones, besides the result
of the fold.
-/
import Mathlib.Data.List.Basic
import Mathlib.Tactic

namespace Lib

variable {α σ : Type} {n : Nat}

/-- The fold over the whole blocks at the front, and what is left. -/
def absorb (n : Nat) (f : σ → List α → σ) (s : σ) (l : List α) : σ × List α :=
  if 0 < n ∧ n ≤ l.length then absorb n f (f s (l.take n)) (l.drop n) else (s, l)
termination_by l.length
decreasing_by
  rw [List.length_drop]
  omega

theorem absorb_of_lt {f : σ → List α → σ} (s : σ) {l : List α} (h : l.length < n) :
    absorb n f s l = (s, l) := by
  rw [absorb, if_neg (by omega)]

theorem absorb_of_le (hn : 0 < n) {f : σ → List α → σ} (s : σ) {l : List α} (h : n ≤ l.length) :
    absorb n f s l = absorb n f (f s (l.take n)) (l.drop n) := by
  rw [absorb, if_pos ⟨hn, h⟩]

/-- A block in front. -/
theorem absorb_block (hn : 0 < n) {f : σ → List α → σ} (s : σ) {b : List α} (h : b.length = n)
    (l : List α) : absorb n f s (b ++ l) = absorb n f (f s b) l := by
  rw [absorb_of_le hn s (by rw [List.length_append]; omega), List.take_left' h, List.drop_left' h]

/-- What is absorbed later is put behind what was left. -/
theorem absorb_append (f : σ → List α → σ) (s : σ) (l m : List α) :
    absorb n f s (l ++ m) = absorb n f (absorb n f s l).1 ((absorb n f s l).2 ++ m) := by
  induction s, l using absorb.induct n f with
  | case1 s l h ih =>
      rw [absorb_of_le h.1 s h.2, ← ih, ← List.take_append_drop n l, List.append_assoc,
        absorb_block h.1 s (by rw [List.length_take]; omega), List.take_append_drop]
  | case2 s l h =>
      have hl : absorb n f s l = (s, l) := by rw [absorb, if_neg h]
      rw [hl]

/-- What is left. -/
theorem absorb_snd (hn : 0 < n) (f : σ → List α → σ) (s : σ) (l : List α) :
    (absorb n f s l).2 = l.drop (l.length - l.length % n) := by
  induction s, l using absorb.induct n f with
  | case1 s l h ih =>
      have hmod : (l.length - n) % n = l.length % n := (Nat.mod_eq_sub_mod h.2).symm
      have hle : l.length % n ≤ l.length - n := by
        rw [← hmod]
        exact Nat.mod_le _ n
      rw [absorb_of_le h.1 s h.2, ih, List.length_drop, List.drop_drop, hmod]
      congr 1
      omega
  | case2 s l h =>
      have hlt : l.length < n := by omega
      rw [absorb_of_lt s hlt, Nat.mod_eq_of_lt hlt, Nat.sub_self, List.drop_zero]

theorem length_absorb_snd (hn : 0 < n) (f : σ → List α → σ) (s : σ) (l : List α) :
    (absorb n f s l).2.length = l.length % n := by
  have hle := Nat.mod_le l.length n
  rw [absorb_snd hn, List.length_drop]
  omega

end Lib
