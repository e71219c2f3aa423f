/-
A mutex, and the condition variables of those who need it.

A condition variable knows who waits for it and has not been told anything, and who has been
told but has not got the mutex back.  A thread that wakes without having been told is neither.
Where each waiter needs one token, and each token that is added is announced once, it is
enough that there are no more tokens than threads that have been told: this is `Covers`, and
every operation on the variable says what it does to it.

What the threads do is in the hands of a function from threads to phases.  `Guarded` is mutual
exclusion, and `Parked` says that the threads of a condition variable are where they wait.
-/
import Mathlib.Data.Finset.Card

namespace Lib

/-- The threads of a condition variable. -/
@[ext] structure CondVar (τ : Type*) where
  waiting : Finset τ
  notified : Finset τ
  disjoint : Disjoint waiting notified

namespace CondVar

variable {τ : Type*}

def empty : CondVar τ := ⟨∅, ∅, Finset.disjoint_empty_left _⟩

variable [DecidableEq τ]

def wait (c : CondVar τ) (t : τ) : CondVar τ where
  waiting := insert t c.waiting
  notified := c.notified.erase t
  disjoint := by
    rw [Finset.disjoint_insert_left]
    exact ⟨Finset.notMem_erase t _, c.disjoint.mono_right (Finset.erase_subset t _)⟩

/-- A thread wakes that has not been told to. -/
def wake (c : CondVar τ) (t : τ) : CondVar τ where
  waiting := c.waiting.erase t
  notified := c.notified
  disjoint := c.disjoint.mono_left (Finset.erase_subset t _)

/-- A thread has got the mutex back. -/
def resume (c : CondVar τ) (t : τ) : CondVar τ where
  waiting := c.waiting
  notified := c.notified.erase t
  disjoint := c.disjoint.mono_right (Finset.erase_subset t _)

/-- One thread may be told that waits, any one of them, and nothing happens when none does. -/
def MayNotify (c : CondVar τ) (who : τ) : Prop := c.waiting = ∅ ∨ who ∈ c.waiting

instance (c : CondVar τ) (who : τ) : Decidable (c.MayNotify who) := instDecidableOr

def notify (c : CondVar τ) (who : τ) : CondVar τ :=
  if who ∈ c.waiting then
    { waiting := c.waiting.erase who
      notified := insert who c.notified
      disjoint := by
        rw [Finset.disjoint_insert_right]
        exact ⟨Finset.notMem_erase who _, c.disjoint.mono_left (Finset.erase_subset who _)⟩ }
  else c

def notifyAll (c : CondVar τ) : CondVar τ where
  waiting := ∅
  notified := c.waiting ∪ c.notified
  disjoint := Finset.disjoint_empty_left _

/-! ### Tokens -/

/-- When somebody waits that has not been told, all tokens there are have been announced to
others. -/
def Covers (c : CondVar τ) (tokens : Nat) : Prop := c.waiting.Nonempty → tokens ≤ c.notified.card

variable {c : CondVar τ} {n m : Nat} {t who : τ}

omit [DecidableEq τ] in
theorem Covers.mono (h : c.Covers n) (hle : m ≤ n) : c.Covers m := fun hw => hle.trans (h hw)

omit [DecidableEq τ] in
theorem covers_zero : c.Covers 0 := fun _ => Nat.zero_le _

omit [DecidableEq τ] in
theorem covers_of_empty (h : c.waiting = ∅) : c.Covers n := by
  intro hw
  rw [h] at hw
  exact absurd hw Finset.not_nonempty_empty

theorem Covers.wake (h : c.Covers n) : (c.wake t).Covers n :=
  fun hw => h (hw.mono (Finset.erase_subset t _))

/-- A thread that has been told takes its token with it. -/
theorem Covers.resume (h : c.Covers n) : (c.resume t).Covers (n - 1) := by
  intro hw
  have hn := h hw
  have hcard := Finset.pred_card_le_card_erase (s := c.notified) (a := t)
  show n - 1 ≤ (c.notified.erase t).card
  omega

/-- A token that has been added is announced. -/
theorem Covers.notify (h : c.Covers (n - 1)) (hmay : c.MayNotify who) :
    (c.notify who).Covers n := by
  rw [CondVar.notify]
  rcases hmay with hempty | hwho
  · have hwho : who ∉ c.waiting := by
      rw [hempty]
      exact Finset.notMem_empty who
    rw [if_neg hwho]
    exact covers_of_empty hempty
  · rw [if_pos hwho]
    intro _
    have hn := h ⟨who, hwho⟩
    have hcard : (insert who c.notified).card = c.notified.card + 1 :=
      Finset.card_insert_of_notMem (Finset.disjoint_left.mp c.disjoint hwho)
    show n ≤ (insert who c.notified).card
    omega

/-! ### Threads -/

/-- The threads of a condition variable. -/
def threads (c : CondVar τ) : Finset τ := c.waiting ∪ c.notified

theorem threads_wait : (c.wait t).threads = insert t c.threads := by
  ext x
  by_cases hx : x = t <;> simp [threads, CondVar.wait, hx]

theorem threads_wake_subset : (c.wake t).threads ⊆ c.threads :=
  Finset.union_subset_union_left (Finset.erase_subset t _)

theorem threads_resume (h : t ∉ c.waiting) : (c.resume t).threads = c.threads.erase t := by
  ext x
  by_cases hx : x = t <;> simp [threads, CondVar.resume, hx, h]

theorem threads_notify : (c.notify who).threads = c.threads := by
  rw [CondVar.notify]
  by_cases hwho : who ∈ c.waiting
  · rw [if_pos hwho]
    ext x
    by_cases hx : x = who <;> simp [threads, hx, hwho]
  · rw [if_neg hwho]

theorem threads_notifyAll : c.notifyAll.threads = c.threads := Finset.empty_union _

end CondVar

/-! ### Phases -/

section

variable {τ π : Type*} [DecidableEq τ]

/-- The holder of the mutex is the one thread in a phase in which it is held. -/
def Guarded (holds : π → Bool) (holder : Option τ) (phase : τ → π) : Prop :=
  ∀ t, holds (phase t) = true ↔ holder = some t

namespace Guarded

variable {holds : π → Bool} {holder : Option τ} {phase : τ → π} {t : τ} {p : π}

theorem lock (h : Guarded holds none phase) (hp : holds p = true) :
    Guarded holds (some t) (Function.update phase t p) := by
  intro u
  by_cases hu : u = t
  · subst hu
    rw [Function.update_self]
    exact ⟨fun _ => rfl, fun _ => hp⟩
  · rw [Function.update_of_ne hu, h u, Option.some.injEq]
    exact ⟨nofun, fun heq => absurd heq.symm hu⟩

theorem unlock (h : Guarded holds holder phase) (ht : holds (phase t) = true)
    (hp : holds p = false) : Guarded holds none (Function.update phase t p) := by
  intro u
  by_cases hu : u = t
  · subst hu
    rw [Function.update_self, hp]
    exact ⟨nofun, nofun⟩
  · rw [Function.update_of_ne hu, h u, (h t).mp ht, Option.some.injEq]
    exact ⟨fun heq => absurd heq.symm hu, nofun⟩

theorem update (h : Guarded holds holder phase) (hp : holds p = holds (phase t)) :
    Guarded holds holder (Function.update phase t p) := by
  intro u
  by_cases hu : u = t
  · subst hu
    rw [Function.update_self, hp]
    exact h u
  · rw [Function.update_of_ne hu]
    exact h u

end Guarded

/-- The threads of a condition variable are where they wait. -/
def Parked (parks : π → Prop) (c : CondVar τ) (phase : τ → π) : Prop :=
  ∀ t ∈ c.threads, parks (phase t)

namespace Parked

variable {parks : π → Prop} {c : CondVar τ} {phase : τ → π} {t : τ} {p : π}

theorem update (h : Parked parks c phase) (hp : parks (phase t) → parks p) :
    Parked parks c (Function.update phase t p) := by
  intro u hu
  by_cases hut : u = t
  · subst hut
    rw [Function.update_self]
    exact hp (h u hu)
  · rw [Function.update_of_ne hut]
    exact h u hu

theorem wait (h : Parked parks c phase) (hp : parks p) :
    Parked parks (c.wait t) (Function.update phase t p) := by
  intro u hu
  rw [CondVar.threads_wait] at hu
  by_cases hut : u = t
  · subst hut
    rw [Function.update_self]
    exact hp
  · rw [Function.update_of_ne hut]
    exact h u (Finset.mem_of_mem_insert_of_ne hu hut)

theorem wake (h : Parked parks c phase) : Parked parks (c.wake t) phase :=
  fun u hu => h u (CondVar.threads_wake_subset hu)

theorem resume (h : Parked parks c phase) (ht : t ∉ c.waiting) :
    Parked parks (c.resume t) (Function.update phase t p) := by
  intro u hu
  rw [CondVar.threads_resume ht] at hu
  rw [Function.update_of_ne (Finset.ne_of_mem_erase hu)]
  exact h u (Finset.mem_of_mem_erase hu)

theorem notify (h : Parked parks c phase) {who : τ} : Parked parks (c.notify who) phase := by
  intro u hu
  rw [CondVar.threads_notify] at hu
  exact h u hu

theorem notifyAll (h : Parked parks c phase) : Parked parks c.notifyAll phase := by
  intro u hu
  rw [CondVar.threads_notifyAll] at hu
  exact h u hu

end Parked

end

end Lib
