/-
`CountDownLatch` holds its threads back until it has been counted down, and no longer.

A thread gets past `wait` only with the mutex and a count that is not positive, and a count
that is not positive stays so.  Between the decrement to zero and the notification the mutex is
held, so that whenever it is free, nobody waits on a count that is not positive without having
been told.
-/
import Muduo.Base.CountDownLatch

namespace Base

open Lib

namespace CountDownLatch

variable {τ : Type} [DecidableEq τ] {s s' : CountDownLatch τ} {t : τ} {n : Int}

/-! ### What a step can do -/

inductive Move (s : CountDownLatch τ) : CountDownLatch τ → Prop
  | call {t : τ} (c : LatchCall) (hphase : s.phase t = .outside) : Move s (s.enter t (.called c))
  | lock {t : τ} {c : LatchCall} (hphase : s.phase t = .called c) (hfree : s.holder = none) :
      Move s { s.enter t (.entered c) with holder := some t }
  | wait {t : τ} (hphase : s.phase t = .entered .wait) (hpos : 0 < s.count) :
      Move s { s.enter t .blocked with holder := none, condition := s.condition.wait t }
  | pass {t : τ} (hphase : s.phase t = .entered .wait) (hdone : ¬0 < s.count) :
      Move s (s.enter t (.leaving .wait))
  | countDown {t : τ} (hphase : s.phase t = .entered .countDown) :
      Move s { s.enter t .counted with count := s.count - 1, downs := s.downs + 1 }
  | notifyAll {t : τ} (hphase : s.phase t = .counted) (hzero : s.count = 0) :
      Move s { s.enter t (.leaving .countDown) with condition := s.condition.notifyAll }
  | tellNobody {t : τ} (hphase : s.phase t = .counted) (hne : s.count ≠ 0) :
      Move s (s.enter t (.leaving .countDown))
  | unlock {t : τ} {c : LatchCall} (hphase : s.phase t = .leaving c) :
      Move s { s.enter t .outside with holder := none }
  | wake {t : τ} (hphase : s.phase t = .blocked) :
      Move s { s with condition := s.condition.wake t }
  | resume {t : τ} (hphase : s.phase t = .blocked) (hfree : s.holder = none)
      (hwaits : t ∉ s.condition.waiting) :
      Move s { s.enter t (.entered .wait) with
        holder := some t, condition := s.condition.resume t }

theorem step_spec (a : LatchAction τ) : s.step a = s ∨ Move s (s.step a) := by
  cases a with
  | call t c =>
      simp only [step]
      split
      · exact Or.inr (.call c ‹_›)
      · exact Or.inl rfl
  | lock t =>
      simp only [step]
      split
      · exact Or.inr (.lock ‹_› ‹_›)
      · exact Or.inl rfl
  | test t =>
      simp only [step]
      split
      · split
        · exact Or.inr (.wait ‹_› ‹_›)
        · exact Or.inr (.pass ‹_› ‹_›)
      · exact Or.inr (.countDown ‹_›)
      · exact Or.inl rfl
  | tell t =>
      simp only [step]
      split
      · split
        · exact Or.inr (.notifyAll ‹_› ‹_›)
        · exact Or.inr (.tellNobody ‹_› ‹_›)
      · exact Or.inl rfl
  | unlock t =>
      simp only [step]
      split
      · exact Or.inr (.unlock ‹_›)
      · exact Or.inl rfl
  | wake t =>
      simp only [step]
      split
      · exact Or.inr (.wake ‹_›)
      · exact Or.inl rfl
  | resume t =>
      simp only [step]
      split
      · split
        · exact Or.inl rfl
        · exact Or.inr (.resume ‹_› ‹_› ‹_›)
      · exact Or.inl rfl

/-! ### What every step preserves -/

structure Sound (n : Int) (s : CountDownLatch τ) : Prop where
  count : s.count + s.downs = n
  guarded : Guarded LatchPhase.holds s.holder s.phase
  /-- Who waits is told by the thread that has counted down to zero, or is to be by another. -/
  told : s.condition.waiting.Nonempty →
    0 < s.count ∨ s.count = 0 ∧ ∃ t, s.holder = some t ∧ s.phase t = .counted
  /-- A thread that is past `wait` has seen the count. -/
  passed : ∀ t, s.phase t = .leaving .wait → s.count ≤ 0

omit [DecidableEq τ] in
theorem sound_init (n : Int) : Sound n (init n : CountDownLatch τ) where
  count := Int.add_zero n
  guarded := fun _ => ⟨fun h => (by cases h), fun h => (by cases h)⟩
  told := fun h => absurd h Finset.not_nonempty_empty
  passed := fun _ h => (by cases h)

namespace Move

theorem count (h : Move s s') : s'.count + s'.downs = s.count + s.downs := by
  cases h with
  | countDown _ =>
      show s.count - 1 + ((s.downs + 1 : Nat) : Int) = _
      omega
  | _ => rfl

theorem guarded (h : Move s s') (hs : Guarded LatchPhase.holds s.holder s.phase) :
    Guarded LatchPhase.holds s'.holder s'.phase := by
  cases h with
  | call c hphase => exact hs.update (by rw [hphase]; rfl)
  | lock hphase hfree =>
      rw [hfree] at hs
      exact hs.lock rfl
  | wait hphase _ => exact hs.unlock (by rw [hphase]; rfl) rfl
  | pass hphase _ => exact hs.update (by rw [hphase]; rfl)
  | countDown hphase => exact hs.update (by rw [hphase]; rfl)
  | notifyAll hphase _ => exact hs.update (by rw [hphase]; rfl)
  | tellNobody hphase _ => exact hs.update (by rw [hphase]; rfl)
  | unlock hphase => exact hs.unlock (by rw [hphase]; rfl) rfl
  | wake _ => exact hs
  | resume _ hfree _ =>
      rw [hfree] at hs
      exact hs.lock rfl

end Move

theorem phase_enter (s : CountDownLatch τ) (t u : τ) (p : LatchPhase) :
    (s.enter t p).phase u = if u = t then p else s.phase u :=
  Function.update_apply _ _ _ _

namespace Sound

variable {p : LatchPhase} {u : τ}

omit [DecidableEq τ] in
/-- The notification is left to nobody while the mutex is free. -/
theorem pos_of_free (hs : Sound n s) (hfree : s.holder = none)
    (hw : s.condition.waiting.Nonempty) : 0 < s.count := by
  refine (hs.told hw).resolve_right fun h => ?_
  obtain ⟨-, u, hu, -⟩ := h
  rw [hfree] at hu
  cases hu

omit [DecidableEq τ] in
/-- Nor to a thread that has the mutex and has not counted down. -/
theorem pos_of_holds (hs : Sound n s) (ht : (s.phase t).holds = true)
    (hne : s.phase t ≠ .counted) (hw : s.condition.waiting.Nonempty) : 0 < s.count := by
  refine (hs.told hw).resolve_right fun h => ?_
  obtain ⟨-, u, hu, hphase⟩ := h
  rw [(hs.guarded t).mp ht, Option.some.injEq] at hu
  subst hu
  exact hne hphase

/-- A move of a thread that has not counted down leaves the notification to whom it was left. -/
theorem told_enter (hs : Sound n s) (hne : s.phase t ≠ .counted)
    (hw : s.condition.waiting.Nonempty) :
    0 < s.count ∨ s.count = 0 ∧ ∃ u, s.holder = some u ∧ (s.enter t p).phase u = .counted := by
  refine (hs.told hw).imp_right fun h => ⟨h.1, ?_⟩
  obtain ⟨u, hu, hphase⟩ := h.2
  have hut : u ≠ t := fun hut => hne (hut ▸ hphase)
  exact ⟨u, hu, by rwa [phase_enter, if_neg hut]⟩

theorem passed_enter (hs : Sound n s) (hp : p ≠ .leaving .wait)
    (h : (s.enter t p).phase u = .leaving .wait) : s.count ≤ 0 := by
  rw [phase_enter] at h
  split at h
  · exact absurd h hp
  · exact hs.passed u h

theorem move_told (hs : Sound n s) (h : Move s s') (hw : s'.condition.waiting.Nonempty) :
    0 < s'.count ∨ s'.count = 0 ∧ ∃ t, s'.holder = some t ∧ s'.phase t = .counted := by
  cases h with
  | call c hphase => exact hs.told_enter (by simp [hphase]) hw
  | lock _ hfree => exact Or.inl (hs.pos_of_free hfree hw)
  | wait _ hpos => exact Or.inl hpos
  | pass hphase _ => exact hs.told_enter (by simp [hphase]) hw
  | @countDown t hphase =>
      have hpos := hs.pos_of_holds (by rw [hphase]; rfl) (by simp [hphase]) hw
      rcases Int.lt_or_eq_of_le (Int.le_sub_one_of_lt hpos) with hlt | heq
      · exact Or.inl hlt
      · refine Or.inr ⟨heq.symm, t, (hs.guarded t).mp (by rw [hphase]; rfl), ?_⟩
        exact (phase_enter s t t _).trans (if_pos rfl)
  | notifyAll _ _ => exact absurd hw Finset.not_nonempty_empty
  | tellNobody hphase hne =>
      exact Or.inl ((hs.told hw).resolve_right fun h => hne h.1)
  | unlock hphase =>
      exact Or.inl (hs.pos_of_holds (by rw [hphase]; rfl) (by simp [hphase]) hw)
  | wake _ => exact hs.told (hw.mono (Finset.erase_subset _ _))
  | resume _ hfree _ => exact Or.inl (hs.pos_of_free hfree hw)

theorem move_passed (hs : Sound n s) (h : Move s s') (u : τ)
    (hu : s'.phase u = .leaving .wait) : s'.count ≤ 0 := by
  cases h with
  | pass _ hdone => exact Int.not_lt.mp hdone
  | countDown _ =>
      have hle := hs.passed_enter (by simp) hu
      show s.count - 1 ≤ 0
      omega
  | wake _ => exact hs.passed u hu
  | call c _ => exact hs.passed_enter (by simp) hu
  | lock _ _ => exact hs.passed_enter (by simp) hu
  | wait _ _ => exact hs.passed_enter (by simp) hu
  | notifyAll _ _ => exact hs.passed_enter (by simp) hu
  | tellNobody _ _ => exact hs.passed_enter (by simp) hu
  | unlock _ => exact hs.passed_enter (by simp) hu
  | resume _ _ _ => exact hs.passed_enter (by simp) hu

theorem run (hs : Sound n s) (acts : List (LatchAction τ)) : Sound n (run acts s) := by
  induction acts generalizing s with
  | nil => exact hs
  | cons a acts ih =>
      refine ih ?_
      rcases step_spec (s := s) a with heq | hmove
      · rw [heq]
        exact hs
      · exact ⟨hmove.count.trans hs.count, hmove.guarded hs.guarded, hs.move_told hmove,
          hs.move_passed hmove⟩

/-- Nobody waits in vain. -/
theorem returns (hs : Sound n s) (hdowns : n ≤ s.downs) (hfree : s.holder = none)
    (ht : s.phase t = .blocked) :
    (CountDownLatch.run [.resume t, .test t, .unlock t] s).phase t = .outside := by
  have hcount : ¬0 < s.count := by
    have := hs.count
    omega
  have hwaits : t ∉ s.condition.waiting := fun h => hcount (hs.pos_of_free hfree ⟨t, h⟩)
  have hresume : s.step (.resume t) = { s.enter t (.entered .wait) with
      holder := some t, condition := s.condition.resume t } := by
    simp only [step, ht, hfree, if_neg hwaits]
  simp only [CountDownLatch.run, List.foldl_cons, List.foldl_nil, hresume]
  simp [step, enter, hcount]

end Sound

/-- **The latch.**  In every run of a latch of `n`, however the threads take turns: a thread that is
past `wait` has seen that it was counted down `n` times; once it has been, and whenever the mutex
is free, every thread that is blocked has been told, and its next three steps take it out of
`wait`. -/
theorem latch_opens (n : Int) (acts : List (LatchAction τ)) (t : τ) :
    let s := run acts (init n)
    (s.phase t = .leaving .wait → n ≤ s.downs) ∧
      (n ≤ s.downs → s.holder = none → s.phase t = .blocked →
        t ∉ s.condition.waiting ∧
          (run [.resume t, .test t, .unlock t] s).phase t = .outside) := by
  have hs := (sound_init n).run acts
  refine ⟨fun ht => ?_, fun hdowns hfree ht => ⟨fun hw => ?_, hs.returns hdowns hfree ht⟩⟩
  · have hcount := hs.count
    have hpassed := hs.passed t ht
    omega
  · have hcount := hs.count
    have hpos := hs.pos_of_free hfree ⟨t, hw⟩
    omega

end CountDownLatch

end Base
