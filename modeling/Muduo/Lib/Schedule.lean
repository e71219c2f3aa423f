/-
Runs without an end, and fairness.

A schedule takes one action after the other.  An action is taken for some thread, and the
thread goes on if that changes anything for it.  A schedule is fair when a thread that could go
on again and again does go on again and again.

What has to happen is shown with a rank that never grows and that is seen to fall as long as
it has not happened.
-/
import Mathlib.Order.WellFounded

namespace Lib

/-- Actions without an end, and the states between them. -/
structure Schedule {α σ : Type*} (step : α → σ → σ) where
  state : ℕ → σ
  action : ℕ → α
  next : ∀ i, state (i + 1) = step (action i) (state i)

namespace Schedule

variable {α σ τ : Type*} {step : α → σ → σ}

/-- A thread that could go on again and again does so. -/
def Fair (r : Schedule step) (goes : τ → α → σ → Prop) : Prop :=
  ∀ t, (∀ i, ∃ j ≥ i, ∃ a, goes t a (r.state j)) → ∀ i, ∃ j ≥ i, goes t (r.action j) (r.state j)

variable {r : Schedule step} {goes : τ → α → σ → Prop} {t : τ}

/-- What every step preserves is there in all later states. -/
theorem keeps {P : σ → Prop} (hstep : ∀ a s, P s → P (step a s)) {i : ℕ} (h : P (r.state i)) :
    ∀ j ≥ i, P (r.state j) := by
  intro j hj
  induction j, hj using Nat.le_induction with
  | base => exact h
  | succ j _ ih =>
      rw [r.next]
      exact hstep _ _ ih

/-- A thread goes on if it could from some time on. -/
theorem Fair.exists_goes (hfair : r.Fair goes) {i : ℕ}
    (hcan : ∀ j ≥ i, ∃ k ≥ j, ∃ a, goes t a (r.state k)) :
    ∃ j ≥ i, goes t (r.action j) (r.state j) := by
  refine hfair t ?_ i
  intro j
  obtain ⟨k, hk, hgo⟩ := hcan (max i j) (le_max_left i j)
  exact ⟨k, (le_max_right i j).trans hk, hgo⟩

end Schedule

/-- A rank that does not grow, and falls some time later as long as the goal has not been
reached, leads to the goal. -/
theorem eventually_of_rank {β : Type*} [Preorder β] [WellFoundedLT β] (rank : ℕ → β)
    {goal : ℕ → Prop} {i : ℕ} (hstay : ∀ j ≥ i, ¬goal j → rank (j + 1) ≤ rank j)
    (hdrop : ∀ j ≥ i, (∀ k ≥ j, ¬goal k) → ∃ k ≥ j, rank (k + 1) < rank k) : ∃ j ≥ i, goal j := by
  by_contra hnone
  have hnot : ∀ j ≥ i, ¬goal j := fun j hj hgoal => hnone ⟨j, hj, hgoal⟩
  have hanti : ∀ j ≥ i, ∀ k ≥ j, rank k ≤ rank j := by
    intro j hj k hk
    induction k, hk using Nat.le_induction with
    | base => exact le_rfl
    | succ k hk ih => exact (hstay k (hj.trans hk) (hnot k (hj.trans hk))).trans ih
  have hfalse : ∀ b, ∀ j ≥ i, rank j = b → False := by
    intro b
    induction b using WellFoundedLT.induction with
    | ind b ih =>
        intro j hj hb
        obtain ⟨k, hk, hlt⟩ := hdrop j hj fun k hk => hnot k (hj.trans hk)
        exact ih _ (hb ▸ hlt.trans_le (hanti j hj k hk)) (k + 1) (hj.trans (hk.trans k.le_succ)) rfl
  exact hfalse _ i le_rfl rfl

end Lib
