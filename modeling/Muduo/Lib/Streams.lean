/-
Machines that turn a stream item by item.

A turn takes the state and an item, and gives the next state and an item.  Such a machine does
not see how its stream is cut into calls, and one that undoes each turn of another, as long as
the two keep in step, undoes all of it, wherever either stream is cut.
-/
import Mathlib.Data.List.Basic

namespace Lib

variable {α β σ τ : Type}

/-- Item after item. -/
def feed (turn : σ → α → σ × β) : σ → List α → σ × List β
  | s, [] => (s, [])
  | s, a :: as =>
      let r := feed turn (turn s a).1 as
      (r.1, (turn s a).2 :: r.2)

@[simp] theorem feed_nil (turn : σ → α → σ × β) (s : σ) : feed turn s [] = (s, []) := rfl

theorem feed_cons (turn : σ → α → σ × β) (s : σ) (a : α) (as : List α) :
    feed turn s (a :: as) =
      ((feed turn (turn s a).1 as).1, (turn s a).2 :: (feed turn (turn s a).1 as).2) := rfl

theorem feed_append (turn : σ → α → σ × β) (s : σ) (as bs : List α) :
    feed turn s (as ++ bs) =
      ((feed turn (feed turn s as).1 bs).1,
        (feed turn s as).2 ++ (feed turn (feed turn s as).1 bs).2) := by
  induction as generalizing s with
  | nil => rfl
  | cons a as ih => rw [List.cons_append, feed_cons, ih, feed_cons, List.cons_append]

/-- Each turn of the second machine undoes the turn of the first, and keeps in step with it. -/
def Undoes (undo : τ → β → τ × α) (turn : σ → α → σ × β) (R : σ → τ → Prop) : Prop :=
  ∀ s t a, R s t → (undo t (turn s a).2).2 = a ∧ R (turn s a).1 (undo t (turn s a).2).1

theorem Undoes.feed {undo : τ → β → τ × α} {turn : σ → α → σ × β} {R : σ → τ → Prop}
    (h : Undoes undo turn R) {s : σ} {t : τ} (hst : R s t) (as : List α) :
    (Lib.feed undo t (Lib.feed turn s as).2).2 = as ∧
      R (Lib.feed turn s as).1 (Lib.feed undo t (Lib.feed turn s as).2).1 := by
  induction as generalizing s t with
  | nil => exact ⟨rfl, hst⟩
  | cons a as ih =>
      obtain ⟨hitem, hnext⟩ := h s t a hst
      obtain ⟨hitems, hend⟩ := ih hnext
      rw [feed_cons, feed_cons, hitem, hitems]
      exact ⟨rfl, hend⟩

end Lib
