/-
A wheel of buckets.

What is put in goes into the first bucket, and at every turn an empty bucket comes in there and
the last one goes out.  All that matters of something is the first bucket that it is in: how
many turns ago it was put in last.
-/
import Mathlib.Data.List.Basic

namespace Lib

variable {α : Type*} [DecidableEq α]

/-- How many turns ago something was put into the wheel last, while it is in it. -/
def latest (x : α) (wheel : List (List α)) : Option Nat :=
  wheel.findIdx? fun bucket => decide (x ∈ bucket)

def insertFirst (x : α) : List (List α) → List (List α)
  | [] => []
  | bucket :: wheel => bucket.insert x :: wheel

omit [DecidableEq α] in
/-- A turn, of as many buckets as there are. -/
def turn (wheel : List (List α)) : List (List α) := ([] :: wheel).dropLast

variable {x y : α} {wheel : List (List α)}

@[simp] theorem length_insertFirst : (insertFirst x wheel).length = wheel.length := by
  cases wheel <;> rfl

omit [DecidableEq α] in
@[simp] theorem length_turn : (turn wheel).length = wheel.length := by
  rw [turn, List.length_dropLast]
  rfl

theorem latest_replicate (n : Nat) : latest x (List.replicate n []) = none := by
  rw [latest, List.findIdx?_eq_none_iff]
  intro bucket hbucket
  rw [List.eq_of_mem_replicate hbucket]
  rfl

theorem latest_lt {i : Nat} (h : latest x wheel = some i) : i < wheel.length := by
  obtain ⟨hi, -⟩ := List.findIdx?_eq_some_iff_getElem.mp h
  exact hi

theorem latest_insertFirst (h : 0 < wheel.length) :
    latest y (insertFirst x wheel) = if y = x then some 0 else latest y wheel := by
  cases wheel with
  | nil => exact absurd h (Nat.lt_irrefl 0)
  | cons bucket wheel =>
      rw [insertFirst, latest, List.findIdx?_cons, latest, List.findIdx?_cons]
      by_cases hy : y = x
      · simp [hy]
      · simp [hy]

/-- The last bucket left out. -/
theorem latest_dropLast :
    latest x wheel.dropLast = (latest x wheel).filter fun i => decide (i < wheel.length - 1) := by
  induction wheel with
  | nil => rfl
  | cons bucket wheel ih =>
      cases wheel with
      | nil =>
          show none = _
          cases hlatest : latest x [bucket] <;> simp
      | cons next wheel =>
          have hcons : ∀ w : List (List α), latest x (bucket :: w) =
              if decide (x ∈ bucket) = true then some 0 else (latest x w).map (· + 1) :=
            fun w => List.findIdx?_cons
          rw [List.dropLast_cons_of_ne_nil (List.cons_ne_nil _ _), hcons, hcons, ih]
          by_cases hx : decide (x ∈ bucket) = true
          · simp [hx, Option.filter]
          · rw [if_neg hx, if_neg hx]
            cases latest x (next :: wheel) with
            | none => rfl
            | some i => by_cases hi : i < wheel.length <;> simp [Option.filter, hi]

/-- After a turn everything is one turn older, or has gone out. -/
theorem latest_turn :
    latest x (turn wheel) =
      ((latest x wheel).map (· + 1)).filter fun i => decide (i < wheel.length) := by
  have hcons : latest x ([] :: wheel) = (latest x wheel).map (· + 1) := by
    rw [latest, List.findIdx?_cons]
    rfl
  rw [turn, latest_dropLast, hcons]
  rfl

/-- What goes out in a turn. -/
theorem latest_last (h : 0 < wheel.length) :
    x ∈ wheel.getLast?.getD [] ∧ latest x (turn wheel) = none ↔
      latest x wheel = some (wheel.length - 1) := by
  rw [latest_turn]
  constructor
  · rintro ⟨hmem, hnone⟩
    cases hlatest : latest x wheel with
    | none =>
        have hall := List.findIdx?_eq_none_iff.mp hlatest
        rw [List.getLast?_eq_some_getLast (List.ne_nil_of_length_pos h), Option.getD_some] at hmem
        have := hall _ (List.getLast_mem (List.ne_nil_of_length_pos h))
        simp [hmem] at this
    | some i =>
        have hi := latest_lt hlatest
        rw [hlatest] at hnone
        by_cases hlt : i + 1 < wheel.length
        · simp [Option.filter, hlt] at hnone
        · rw [show i = wheel.length - 1 by omega]
  · intro hlatest
    refine ⟨?_, ?_⟩
    · obtain ⟨hi, hx, -⟩ := List.findIdx?_eq_some_iff_getElem.mp hlatest
      rw [List.getLast?_eq_some_getLast (List.ne_nil_of_length_pos h), Option.getD_some,
        List.getLast_eq_getElem]
      exact of_decide_eq_true hx
    · have hlt : ¬wheel.length - 1 + 1 < wheel.length := by omega
      rw [hlatest]
      simp [Option.filter, hlt]

end Lib
