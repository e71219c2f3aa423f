/-
`BoundedBlockingQueue` is a bounded queue, and nobody waits in vain.

Each call notifies one thread, of the other kind.  Two counts keep this from being too little:
the elements of the queue are the tokens of those who take, and the free places are the tokens
of those who put.  The thread with the mutex is about to take a token, or has added one that it
has not announced, and but for this one token a condition variable with a thread that waits
has all its tokens announced.
-/
import Muduo.Base.BoundedBlockingQueue
import Muduo.Lib.Runs

namespace Base

open Lib Net

/-- A queue with `maxSize` places, whose operations take effect at one moment. -/
def boundedFifo (α : Type) (maxSize : Nat) : AtomicObject (List α) (QueueCall α) (Option α) where
  init := []
  apply
    | .put x, q => if q.length < maxSize then some (none, q ++ [x]) else none
    | .take, [] => none
    | .take, front :: q => some (some front, q)

/-- The call of a thread has not changed the queue yet, or it has. -/
def QueuePhase.stage {α : Type} : QueuePhase α → CallStage (QueueCall α) (Option α)
  | outside => .outside
  | called c | testing c | blocked c => .called c
  | changed c r | leaving c r => .done c r

/-- The thread with the mutex takes this token, or has not announced it. -/
def QueuePhase.owed {α : Type} (p : QueuePhase α) (k : QueueCond) : Nat :=
  match p with
  | testing c => if c.needs = k then 1 else 0
  | changed c _ => if c.tells = k then 1 else 0
  | _ => 0

namespace BoundedBlockingQueue

variable {α τ : Type}

/-- What the threads of a condition variable wait for. -/
def tokens (s : BoundedBlockingQueue α τ) : QueueCond → Nat
  | .notEmpty => s.queue.length
  | .notFull => s.maxSize - s.queue.length

def debt (s : BoundedBlockingQueue α τ) (k : QueueCond) : Nat :=
  match s.holder with
  | none => 0
  | some t => (s.phase t).owed k

/-- What the queue looks like as an atomic object. -/
def shown (s : BoundedBlockingQueue α τ) :
    AtomicObject.State (List α) (QueueCall α) (Option α) τ :=
  ⟨s.queue, QueuePhase.stage ∘ s.phase, s.history⟩

variable [DecidableEq τ] {s s' : BoundedBlockingQueue α τ} {t : τ} {k : QueueCond} {n : Nat}

/-! ### What a step can do -/

inductive Move (s : BoundedBlockingQueue α τ) : BoundedBlockingQueue α τ → Prop
  | call {t : τ} (c : QueueCall α) (hphase : s.phase t = .outside) :
      Move s { s.enter t (.called c) with history := s.history ++ [.call t c] }
  | lock {t : τ} {c : QueueCall α} (hphase : s.phase t = .called c) (hfree : s.holder = none) :
      Move s { s.enter t (.testing c) with holder := some t }
  | wait {t : τ} {c : QueueCall α} (hphase : s.phase t = .testing c)
      (hnone : s.tokens c.needs = 0) : Move s (s.wait t c)
  | push {t : τ} {x : α} (hphase : s.phase t = .testing (.put x))
      (hroom : s.queue.length < s.maxSize) :
      Move s { s.enter t (.changed (.put x) none) with
        queue := s.queue ++ [x], puts := s.puts ++ [x] }
  | pop {t : τ} {front : α} {queue : List α} (hphase : s.phase t = .testing .take)
      (hqueue : s.queue = front :: queue) :
      Move s { s.enter t (.changed .take (some front)) with
        queue := queue, taken := s.taken ++ [front] }
  | notify {t who : τ} {c : QueueCall α} {r : Option α} (hphase : s.phase t = .changed c r)
      (hmay : (s.cond c.tells).MayNotify who) :
      Move s { s.enter t (.leaving c r) with
        cond := Function.update s.cond c.tells ((s.cond c.tells).notify who) }
  | unlock {t : τ} {c : QueueCall α} {r : Option α} (hphase : s.phase t = .leaving c r) :
      Move s { s.enter t .outside with holder := none, history := s.history ++ [.ret t c r] }
  | wake {t : τ} {c : QueueCall α} (hphase : s.phase t = .blocked c) :
      Move s { s with cond := Function.update s.cond c.needs ((s.cond c.needs).wake t) }
  | resume {t : τ} {c : QueueCall α} (hphase : s.phase t = .blocked c) (hfree : s.holder = none)
      (hwaits : t ∉ (s.cond c.needs).waiting) :
      Move s { s.enter t (.testing c) with
        holder := some t, cond := Function.update s.cond c.needs ((s.cond c.needs).resume t) }

/-- The assertions of `put` and `take` hold. -/
theorem test_spec (hsize : s.queue.length ≤ s.maxSize) {c : QueueCall α}
    (hphase : s.phase t = .testing c) : ∃ s', s.test t c = .ok s' ∧ Move s s' := by
  cases c with
  | put x =>
      by_cases hfull : s.full = true
      · refine ⟨_, if_pos hfull, .wait hphase ?_⟩
        rw [full, beq_iff_eq] at hfull
        show s.maxSize - s.queue.length = 0
        omega
      · have hpush : s.pushBack x = s.queue ++ [x] := if_neg hfull
        rw [Bool.not_eq_true] at hfull
        have hroom : s.queue.length < s.maxSize := by
          rw [full, beq_eq_false_iff_ne] at hfull
          omega
        refine ⟨_, ?_, .push hphase hroom⟩
        rw [test, hfull, hpush]
        rfl
  | take =>
      cases hqueue : s.queue with
      | nil =>
          have hempty : s.empty = true := by rw [empty, hqueue]; rfl
          refine ⟨_, if_pos hempty, .wait hphase ?_⟩
          show s.queue.length = 0
          rw [hqueue]
          rfl
      | cons front queue =>
          have hempty : s.empty = false := by rw [empty, hqueue]; rfl
          refine ⟨_, ?_, .pop hphase hqueue⟩
          simp only [test, hempty, hqueue]
          rfl

theorem step_spec (hsize : s.queue.length ≤ s.maxSize) (a : QueueAction α τ) :
    ∃ s', step a s = .ok s' ∧ (s' = s ∨ Move s s') := by
  cases a with
  | call t c =>
      cases hphase : s.phase t with
      | outside => exact ⟨_, by simp only [step, hphase], Or.inr (.call c hphase)⟩
      | _ => exact ⟨s, by simp only [step, hphase], Or.inl rfl⟩
  | lock t =>
      cases hphase : s.phase t with
      | called c =>
          cases hholder : s.holder with
          | none => exact ⟨_, by simp only [step, hphase, hholder], Or.inr (.lock hphase hholder)⟩
          | some u => exact ⟨s, by simp only [step, hphase, hholder], Or.inl rfl⟩
      | _ => exact ⟨s, by simp only [step, hphase], Or.inl rfl⟩
  | test t =>
      cases hphase : s.phase t with
      | testing c =>
          obtain ⟨s', htest, hmove⟩ := test_spec hsize hphase
          exact ⟨s', by simp only [step, hphase, htest], Or.inr hmove⟩
      | _ => exact ⟨s, by simp only [step, hphase], Or.inl rfl⟩
  | notify t who =>
      cases hphase : s.phase t with
      | changed c r =>
          by_cases hmay : (s.cond c.tells).MayNotify who
          · exact ⟨_, by simp only [step, hphase, if_pos hmay], Or.inr (.notify hphase hmay)⟩
          · exact ⟨s, by simp only [step, hphase, if_neg hmay], Or.inl rfl⟩
      | _ => exact ⟨s, by simp only [step, hphase], Or.inl rfl⟩
  | unlock t =>
      cases hphase : s.phase t with
      | leaving c r => exact ⟨_, by simp only [step, hphase], Or.inr (.unlock hphase)⟩
      | _ => exact ⟨s, by simp only [step, hphase], Or.inl rfl⟩
  | wake t =>
      cases hphase : s.phase t with
      | blocked c => exact ⟨_, by simp only [step, hphase], Or.inr (.wake hphase)⟩
      | _ => exact ⟨s, by simp only [step, hphase], Or.inl rfl⟩
  | resume t =>
      cases hphase : s.phase t with
      | blocked c =>
          cases hholder : s.holder with
          | none =>
              by_cases hwaits : t ∈ (s.cond c.needs).waiting
              · exact ⟨s, by simp only [step, hphase, hholder, if_pos hwaits], Or.inl rfl⟩
              · exact ⟨_, by simp only [step, hphase, hholder, if_neg hwaits],
                  Or.inr (.resume hphase hholder hwaits)⟩
          | some u => exact ⟨s, by simp only [step, hphase, hholder], Or.inl rfl⟩
      | _ => exact ⟨s, by simp only [step, hphase], Or.inl rfl⟩

/-! ### Tokens and debts -/

omit [DecidableEq τ] in
theorem debt_of_holder (h : s.holder = some t) : s.debt k = (s.phase t).owed k := by
  rw [debt, h]

omit [DecidableEq τ] in
theorem debt_of_free (h : s.holder = none) : s.debt k = 0 := by
  rw [debt, h]

omit [DecidableEq τ] in
theorem covers_of_holder {p : QueuePhase α} (hholder : s.holder = some t) (hphase : s.phase t = p)
    (h : (s.cond k).Covers (s.tokens k - p.owed k)) :
    (s.cond k).Covers (s.tokens k - s.debt k) := by
  rw [debt_of_holder hholder, hphase]
  exact h

/-- A thread that owes nothing in its old phase and in its new one does not change the debt. -/
theorem debt_enter {p : QueuePhase α} (hold : (s.phase t).owed k = 0) (hnew : p.owed k = 0) :
    (s.enter t p).debt k = s.debt k := by
  unfold debt
  show (match s.holder with
    | none => 0
    | some u => (Function.update s.phase t p u).owed k) = _
  cases hholder : s.holder with
  | none => rfl
  | some u =>
      by_cases hu : u = t
      · subst hu
        show (Function.update s.phase u p u).owed k = (s.phase u).owed k
        rw [Function.update_self, hold, hnew]
      · show (Function.update s.phase t p u).owed k = (s.phase u).owed k
        rw [Function.update_of_ne hu]

/-- Where a thread has to be to stand among those of a condition variable. -/
def Waits (k : QueueCond) (p : QueuePhase α) : Prop :=
  ∃ c : QueueCall α, p = .blocked c ∧ c.needs = k

/-- What every step preserves. -/
structure Sound (n : Nat) (s : BoundedBlockingQueue α τ) : Prop where
  places : s.maxSize = n
  guarded : Guarded QueuePhase.holds s.holder s.phase
  parked : ∀ k, Parked (Waits k) (s.cond k) s.phase
  size : s.queue.length ≤ n
  fifo : s.puts = s.taken ++ s.queue
  covers : ∀ k, (s.cond k).Covers (s.tokens k - s.debt k)
  atomic : (boundedFifo α n).Reachable s.shown

theorem sound_init (n : Nat) : Sound n (init n : BoundedBlockingQueue α τ) where
  places := rfl
  guarded := fun _ => ⟨nofun, nofun⟩
  parked := fun _ t ht => absurd ht (Finset.notMem_empty t)
  size := Nat.zero_le n
  fifo := rfl
  covers := fun _ => CondVar.covers_of_empty rfl
  atomic := Relation.ReflTransGen.refl

namespace Move

theorem places (h : Move s s') : s'.maxSize = s.maxSize := by
  cases h <;> rfl

theorem guarded (h : Move s s') (hs : Guarded QueuePhase.holds s.holder s.phase) :
    Guarded QueuePhase.holds s'.holder s'.phase := by
  cases h with
  | call c hphase => exact hs.update (by rw [hphase]; rfl)
  | lock hphase hfree =>
      rw [hfree] at hs
      exact hs.lock rfl
  | wait hphase _ => exact hs.unlock (by rw [hphase]; rfl) rfl
  | push hphase _ => exact hs.update (by rw [hphase]; rfl)
  | pop hphase _ => exact hs.update (by rw [hphase]; rfl)
  | notify hphase _ => exact hs.update (by rw [hphase]; rfl)
  | unlock hphase => exact hs.unlock (by rw [hphase]; rfl) rfl
  | wake _ => exact hs
  | resume _ hfree _ =>
      rw [hfree] at hs
      exact hs.lock rfl

/-- A thread that is not blocked leaves no condition variable by moving. -/
theorem parked_enter (hs : ∀ k, Parked (Waits k) (s.cond k) s.phase) {p : QueuePhase α}
    (hphase : ∀ c, s.phase t ≠ .blocked c) (k : QueueCond) :
    Parked (Waits k) (s.cond k) (Function.update s.phase t p) := by
  refine (hs k).update ?_
  rintro ⟨c, hc, -⟩
  exact absurd hc (hphase c)

theorem parked (h : Move s s') (hs : ∀ k, Parked (Waits k) (s.cond k) s.phase) :
    ∀ k, Parked (Waits k) (s'.cond k) s'.phase := by
  intro k
  cases h with
  | call c hphase => exact parked_enter hs (fun c => by rw [hphase]; nofun) k
  | lock hphase _ => exact parked_enter hs (fun c => by rw [hphase]; nofun) k
  | @wait t c hphase _ =>
      show Parked _ (Function.update s.cond c.needs _ k) (Function.update s.phase t (.blocked c))
      by_cases hk : k = c.needs
      · subst hk
        rw [Function.update_self]
        exact (hs _).wait ⟨c, rfl, rfl⟩
      · rw [Function.update_of_ne hk]
        exact parked_enter hs (fun c => by rw [hphase]; nofun) k
  | push hphase _ => exact parked_enter hs (fun c => by rw [hphase]; nofun) k
  | pop hphase _ => exact parked_enter hs (fun c => by rw [hphase]; nofun) k
  | @notify t who c r hphase _ =>
      show Parked _ (Function.update s.cond c.tells _ k) (Function.update s.phase t (.leaving c r))
      have henter := parked_enter hs (p := .leaving c r) (fun c => by rw [hphase]; nofun) k
      by_cases hk : k = c.tells
      · subst hk
        rw [Function.update_self]
        exact henter.notify
      · rw [Function.update_of_ne hk]
        exact henter
  | unlock hphase => exact parked_enter hs (fun c => by rw [hphase]; nofun) k
  | @wake t c hphase =>
      show Parked _ (Function.update s.cond c.needs _ k) s.phase
      by_cases hk : k = c.needs
      · subst hk
        rw [Function.update_self]
        exact (hs _).wake
      · rw [Function.update_of_ne hk]
        exact hs k
  | @resume t c hphase _ hwaits =>
      show Parked _ (Function.update s.cond c.needs _ k) (Function.update s.phase t (.testing c))
      by_cases hk : k = c.needs
      · subst hk
        rw [Function.update_self]
        exact (hs _).resume hwaits
      · -- the thread is not among those of the other variable
        rw [Function.update_of_ne hk]
        refine (hs k).update ?_
        rintro ⟨c', hc', rfl⟩
        rw [hphase, QueuePhase.blocked.injEq] at hc'
        exact absurd (congrArg QueueCall.needs hc'.symm) hk

theorem size (h : Move s s') (hs : s.queue.length ≤ s.maxSize) : s'.queue.length ≤ s.maxSize := by
  cases h with
  | push _ hroom =>
      rw [List.length_append]
      exact hroom
  | pop _ hqueue =>
      rw [hqueue, List.length_cons] at hs
      exact Nat.le_of_succ_le hs
  | _ => exact hs

theorem fifo (h : Move s s') (hs : s.puts = s.taken ++ s.queue) :
    s'.puts = s'.taken ++ s'.queue := by
  cases h with
  | @push t x _ _ =>
      show s.puts ++ [x] = s.taken ++ (s.queue ++ [x])
      rw [hs, List.append_assoc]
  | @pop t front queue _ hqueue =>
      show s.puts = s.taken ++ [front] ++ queue
      rw [hs, hqueue, List.append_assoc]
      rfl
  | _ => exact hs

/-- The tokens that are announced are all but the one of the thread with the mutex. -/
theorem covers (h : Move s s') (hg : Guarded QueuePhase.holds s.holder s.phase)
    (hs : ∀ k, (s.cond k).Covers (s.tokens k - s.debt k)) (k : QueueCond) :
    (s'.cond k).Covers (s'.tokens k - s'.debt k) := by
  have hk := hs k
  cases h with
  | @call t c hphase =>
      have hdebt : (s.enter t (.called c)).debt k = s.debt k :=
        debt_enter (by rw [hphase]; rfl) rfl
      exact hk.mono (by rw [← hdebt]; exact le_rfl)
  | lock hphase hfree =>
      rw [debt_of_free hfree] at hk
      exact hk.mono (Nat.sub_le _ _)
  | @wait t c hphase hnone =>
      rw [debt_of_holder ((hg t).mp (by rw [hphase]; rfl)), hphase] at hk
      show (Function.update s.cond c.needs _ k).Covers (s.tokens k - 0)
      by_cases hkc : k = c.needs
      · subst hkc
        rw [hnone]
        exact CondVar.covers_zero
      · rw [Function.update_of_ne hkc]
        exact hk.mono (by rw [QueuePhase.owed, if_neg (Ne.symm hkc)])
  | @push t x hphase hroom =>
      have hholder := (hg t).mp (by rw [hphase]; rfl)
      rw [debt_of_holder hholder, hphase] at hk
      refine covers_of_holder hholder (Function.update_self ..) ?_
      cases k with
      | notEmpty =>
          refine hk.mono ?_
          show (s.queue ++ [x]).length - 1 ≤ s.queue.length - 0
          rw [List.length_append]
          exact le_rfl
      | notFull =>
          refine hk.mono ?_
          show s.maxSize - (s.queue ++ [x]).length - 0 ≤ s.maxSize - s.queue.length - 1
          rw [List.length_append, List.length_singleton]
          omega
  | @pop t front queue hphase hqueue =>
      have hholder := (hg t).mp (by rw [hphase]; rfl)
      rw [debt_of_holder hholder, hphase] at hk
      refine covers_of_holder hholder (Function.update_self ..) ?_
      cases k with
      | notEmpty =>
          refine hk.mono ?_
          show queue.length - 0 ≤ s.queue.length - 1
          rw [hqueue]
          exact le_rfl
      | notFull =>
          refine hk.mono ?_
          show s.maxSize - queue.length - 1 ≤ s.maxSize - s.queue.length - 0
          rw [hqueue, List.length_cons]
          omega
  | @notify t who c r hphase hmay =>
      have hholder := (hg t).mp (by rw [hphase]; rfl)
      rw [debt_of_holder hholder, hphase] at hk
      refine covers_of_holder hholder (Function.update_self ..) ?_
      show (Function.update s.cond c.tells _ k).Covers (s.tokens k)
      by_cases hkc : k = c.tells
      · subst hkc
        rw [Function.update_self]
        rw [QueuePhase.owed, if_pos rfl] at hk
        exact hk.notify hmay
      · rw [Function.update_of_ne hkc]
        rw [QueuePhase.owed, if_neg (Ne.symm hkc)] at hk
        exact hk
  | @unlock t c r hphase =>
      rw [debt_of_holder ((hg t).mp (by rw [hphase]; rfl)), hphase] at hk
      exact hk
  | @wake t c hphase =>
      show (Function.update s.cond c.needs _ k).Covers (s.tokens k - s.debt k)
      by_cases hkc : k = c.needs
      · subst hkc
        rw [Function.update_self]
        exact hk.wake
      · rw [Function.update_of_ne hkc]
        exact hk
  | @resume t c hphase hfree hwaits =>
      rw [debt_of_free hfree] at hk
      refine covers_of_holder rfl (Function.update_self ..) ?_
      show (Function.update s.cond c.needs _ k).Covers (s.tokens k - (QueuePhase.testing c).owed k)
      by_cases hkc : k = c.needs
      · subst hkc
        rw [Function.update_self, QueuePhase.owed, if_pos rfl]
        exact hk.resume
      · rw [Function.update_of_ne hkc]
        exact hk.mono (Nat.sub_le _ _)

/-- A step in which the thread stays with its call shows nothing. -/
theorem stage_update {p : QueuePhase α} (h : p.stage = (s.phase t).stage) :
    QueuePhase.stage ∘ Function.update s.phase t p = QueuePhase.stage ∘ s.phase := by
  rw [Function.comp_update, h]
  exact Function.update_eq_self t _

/-- A step is one of the atomic object, or shows nothing. -/
theorem shown (h : Move s s') (hn : s.maxSize = n) :
    s'.shown = s.shown ∨ AtomicObject.Step (boundedFifo α n) s.shown s'.shown := by
  cases h with
  | call c hphase =>
      right
      unfold BoundedBlockingQueue.shown enter
      rw [Function.comp_update]
      exact .call c (congrArg QueuePhase.stage hphase)
  | lock hphase _ =>
      left
      unfold BoundedBlockingQueue.shown enter
      rw [stage_update (by rw [hphase]; rfl)]
  | wait hphase _ =>
      left
      unfold BoundedBlockingQueue.shown BoundedBlockingQueue.wait enter
      rw [stage_update (by rw [hphase]; rfl)]
  | @push t x hphase hroom =>
      right
      unfold BoundedBlockingQueue.shown enter
      rw [Function.comp_update]
      refine .commit (congrArg QueuePhase.stage hphase) ?_
      exact if_pos (hn ▸ hroom)
  | @pop t front queue hphase hqueue =>
      right
      unfold BoundedBlockingQueue.shown enter
      rw [Function.comp_update]
      refine .commit (congrArg QueuePhase.stage hphase) ?_
      rw [hqueue]
      rfl
  | notify hphase _ =>
      left
      unfold BoundedBlockingQueue.shown enter
      rw [stage_update (by rw [hphase]; rfl)]
  | unlock hphase =>
      right
      unfold BoundedBlockingQueue.shown enter
      rw [Function.comp_update]
      exact .ret (congrArg QueuePhase.stage hphase)
  | wake _ => exact Or.inl rfl
  | resume hphase _ _ =>
      left
      unfold BoundedBlockingQueue.shown enter
      rw [stage_update (by rw [hphase]; rfl)]

theorem sound (h : Move s s') (hs : Sound n s) : Sound n s' where
  places := h.places.trans hs.places
  guarded := h.guarded hs.guarded
  parked := h.parked hs.parked
  size := (h.size (hs.size.trans hs.places.ge)).trans hs.places.le
  fifo := h.fifo hs.fifo
  covers := h.covers hs.guarded hs.covers
  atomic := by
    rcases h.shown hs.places with heq | hstep
    · rw [heq]
      exact hs.atomic
    · exact hs.atomic.tail hstep

end Move

/-! ### Runs -/

theorem Sound.step (hs : Sound n s) (a : QueueAction α τ) :
    ∃ s', step a s = .ok s' ∧ Sound n s' := by
  obtain ⟨s', hstep, rfl | hmove⟩ := step_spec (hs.size.trans hs.places.ge) a
  · exact ⟨s', hstep, hs⟩
  · exact ⟨s', hstep, hmove.sound hs⟩

/-- **Main result.** Whatever the threads do, no assertion fails, and what they have seen is a
history of a bounded queue whose operations take effect at one moment.  The values that have been
taken are the first that have been put, and while the mutex is free and some thread waits that
has not been notified, there is nothing for it but what others have been notified of. -/
theorem put_take_linearizable (maxSize : Nat) (as : List (QueueAction α τ)) :
    ∃ s : BoundedBlockingQueue α τ, run step as (init maxSize) = .ok s ∧
      (boundedFifo α maxSize).Reachable s.shown ∧
      s.puts = s.taken ++ s.queue ∧ s.queue.length ≤ maxSize ∧
      (∀ k, ∀ t ∈ (s.cond k).threads, Waits k (s.phase t)) ∧
      (s.holder = none →
        ((s.cond .notEmpty).waiting.Nonempty →
          s.queue.length ≤ (s.cond .notEmpty).notified.card) ∧
        ((s.cond .notFull).waiting.Nonempty →
          maxSize - s.queue.length ≤ (s.cond .notFull).notified.card)) := by
  have hstep : ∀ (a : QueueAction α τ) s, Sound maxSize s → True →
      ∃ s', step a s = .ok s' ∧ Sound maxSize s' := fun a s hs _ => hs.step a
  obtain ⟨s, hrun, hs⟩ := run_ok hstep (sound_init maxSize) (along_true as _)
  refine ⟨s, hrun, hs.atomic, hs.fifo, hs.size, hs.parked, fun hfree => ⟨?_, ?_⟩⟩
  · have hcover := hs.covers .notEmpty
    rw [debt_of_free hfree] at hcover
    exact hcover
  · have hcover := hs.covers .notFull
    rw [debt_of_free hfree, tokens, hs.places] at hcover
    exact hcover

end BoundedBlockingQueue

end Base
