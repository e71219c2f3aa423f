/-
Maps as lists of keys and values, in the order of the keys.

Setting a key keeps the order, and what is looked up afterwards does not depend on it.
-/
import Mathlib.Tactic.TypeStar
import Mathlib.Tactic.Tauto

namespace Lib

variable {κ υ : Type*} [LT κ] [DecidableLT κ] [DecidableEq κ]

/-- Set the value of a key. -/
def assign (k : κ) (v : υ) : List (κ × υ) → List (κ × υ)
  | [] => [(k, v)]
  | (k', v') :: m =>
      if k = k' then (k, v) :: m
      else if k < k' then (k, v) :: (k', v') :: m
      else (k', v') :: assign k v m

/-- A new key stands somewhere among the others. -/
theorem assign_perm {k : κ} {m : List (κ × υ)} (h : k ∉ m.map Prod.fst) (v : υ) :
    (assign k v m).Perm ((k, v) :: m) := by
  induction m with
  | nil => exact List.Perm.refl _
  | cons p m ih =>
      obtain ⟨a, b⟩ := p
      simp only [List.map_cons, List.mem_cons, not_or] at h
      rw [assign, if_neg h.1]
      split
      · exact List.Perm.refl _
      · exact ((ih h.2).cons _).trans (List.Perm.swap ..)

variable [BEq κ] [LawfulBEq κ]

omit [LT κ] [DecidableLT κ] in
theorem lookup_cons (k a : κ) (b : υ) (m : List (κ × υ)) :
    ((a, b) :: m).lookup k = if k = a then some b else m.lookup k := by
  rw [List.lookup_cons]
  by_cases h : k = a
  · simp [h]
  · have hbeq : (k == a) = false := by simpa using h
    simp only [hbeq, if_neg h]

theorem lookup_assign (k : κ) (v : υ) (m : List (κ × υ)) (k' : κ) :
    (assign k v m).lookup k' = if k' = k then some v else m.lookup k' := by
  induction m with
  | nil => rw [assign, lookup_cons]
  | cons p m ih =>
      obtain ⟨a, b⟩ := p
      rw [assign]
      split
      · rename_i hka
        subst hka
        rw [lookup_cons, lookup_cons]
        by_cases h : k' = k
        · simp [h]
        · simp [h]
      · rename_i hka
        split
        · rw [lookup_cons]
        · rw [lookup_cons, ih, lookup_cons]
          by_cases ha : k' = a
          · have hne : ¬a = k := fun h => hka h.symm
            simp [ha, hne]
          · simp [ha]

end Lib
