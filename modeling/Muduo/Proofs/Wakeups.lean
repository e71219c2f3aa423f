/-
Pending functors are not lost, and who wakes the loop for them.

Functors are called in the order in which they were pushed, whatever the threads do.  That
the loop does not wait in `poll` while functors are pending takes a wakeup for each push, or
a turn of the loop that is still to come: the loop thread relies on the latter in its event
handlers, and has neither when it queues a functor outside `loop()`.
-/
import Muduo.Net.EventLoop

namespace Net.EventLoop

open Lib

/-! ### What a step can do -/

/-- The actions that are possible, and what they change. -/
inductive Moves (l : EventLoop) : LoopAct → EventLoop → Prop
  | queueInLoop : Moves l .queueInLoop { l.push with waking := l.waking + 1 }
  | queueWakeup (hwaking : l.waking ≠ 0) :
      Moves l .queueWakeup { l.wakeup with waking := l.waking - 1 }
  | quit : Moves l .quit { l with quit := true, quitting := l.quitting + 1 }
  | quitWakeup (hquitting : l.quitting ≠ 0) :
      Moves l .quitWakeup { l.wakeup with quitting := l.quitting - 1, quitReturned := true }
  | queueHere (huser : l.UserCode) :
      Moves l .queueHere { l.push with wakingHere := l.callingPendingFunctors }
  | wakeupHere (hwaking : l.wakingHere = true) :
      Moves l .wakeupHere { l.wakeup with wakingHere := false }
  | quitHere (huser : l.UserCode) : Moves l .quitHere { l with quit := true, quitReturned := true }
  | loop (hphase : l.phase = .outside) (hwaking : l.wakingHere = false) (hlooping : l.looping = false) :
      Moves l .loop { l with looping := true, quit := false, phase := .testing }
  | leave (hphase : l.phase = .testing) (hquit : l.quit = true) :
      Moves l .test { l with looping := false, phase := .outside }
  | poll (hphase : l.phase = .testing) (hquit : l.quit = false) :
      Moves l .test { l with phase := .polling }
  | pollReturns (woken : Bool) (hphase : l.phase = .polling)
      (hwoken : woken = true → l.wakeupFd ≠ 0) :
      Moves l (.pollReturns woken) { l with phase := .handling woken }
  | handleRead (hphase : l.phase = .handling true) :
      Moves l .handleRead { l with wakeupFd := 0, phase := .handling false }
  | doPendingFunctors (hphase : l.phase = .handling false) :
      Moves l .doPendingFunctors { l with callingPendingFunctors := true, phase := .swapping }
  | swap (hphase : l.phase = .swapping) :
      Moves l .swap { l with pendingFunctors := [], phase := .running l.pendingFunctors }
  | runFunctor (f : Nat) (functors : List Nat) (hphase : l.phase = .running (f :: functors))
      (hwaking : l.wakingHere = false) :
      Moves l .runFunctor { l with executed := l.executed ++ [f], phase := .running functors }
  | endFunctors (hphase : l.phase = .running []) (hwaking : l.wakingHere = false) :
      Moves l .endFunctors { l with callingPendingFunctors := false, phase := .testing }

variable {l l' : EventLoop} {a : LoopAct}

/-- An action that is not possible changes nothing. -/
theorem step_cases (h : step a l = .ok l') : l' = l ∨ Moves l a l' := by
  cases a with
  | queueInLoop =>
      cases h
      exact Or.inr .queueInLoop
  | queueWakeup =>
      rw [step] at h
      split at h
      · cases h
        exact Or.inl rfl
      · cases h
        exact Or.inr (.queueWakeup ‹_›)
  | quit =>
      cases h
      exact Or.inr .quit
  | quitWakeup =>
      rw [step] at h
      split at h
      · cases h
        exact Or.inl rfl
      · cases h
        exact Or.inr (.quitWakeup ‹_›)
  | queueHere =>
      rw [step] at h
      split at h
      · cases h
        exact Or.inr (.queueHere ‹_›)
      · cases h
        exact Or.inl rfl
  | wakeupHere =>
      rw [step] at h
      split at h
      · cases h
        exact Or.inr (.wakeupHere ‹_›)
      · cases h
        exact Or.inl rfl
  | quitHere =>
      rw [step] at h
      split at h
      · cases h
        exact Or.inr (.quitHere ‹_›)
      · cases h
        exact Or.inl rfl
  | loop =>
      rw [step] at h
      split at h
      · rename_i hcond
        obtain ⟨_, hlooping, h⟩ := Lib.bind_ok h
        cases h
        exact Or.inr (.loop hcond.1 hcond.2 (assertThat_ok hlooping))
      · cases h
        exact Or.inl rfl
  | test =>
      rw [step] at h
      split at h
      · split at h
        · cases h
          exact Or.inr (.leave ‹_› ‹_›)
        · rename_i hphase hquit
          cases h
          exact Or.inr (.poll hphase (by simpa using hquit))
      · cases h
        exact Or.inl rfl
  | pollReturns woken =>
      rw [step] at h
      split at h
      · rename_i hcond
        cases h
        exact Or.inr (.pollReturns woken hcond.1 hcond.2)
      · cases h
        exact Or.inl rfl
  | handleRead =>
      rw [step] at h
      split at h
      · cases h
        exact Or.inr (.handleRead ‹_›)
      · cases h
        exact Or.inl rfl
  | doPendingFunctors =>
      rw [step] at h
      split at h
      · cases h
        exact Or.inr (.doPendingFunctors ‹_›)
      · cases h
        exact Or.inl rfl
  | swap =>
      rw [step] at h
      split at h
      · cases h
        exact Or.inr (.swap ‹_›)
      · cases h
        exact Or.inl rfl
  | runFunctor =>
      rw [step] at h
      split at h
      · rename_i f functors hphase
        split at h
        · cases h
          exact Or.inl rfl
        · rename_i hwaking
          cases h
          exact Or.inr (.runFunctor f functors hphase (by simpa using hwaking))
      · cases h
        exact Or.inl rfl
  | endFunctors =>
      rw [step] at h
      split at h
      · rename_i hcond
        cases h
        exact Or.inr (.endFunctors hcond.1 hcond.2)
      · cases h
        exact Or.inl rfl

/-- What the possible actions preserve, every step does. -/
theorem step_inv {P : EventLoop → Prop} (hmoves : Moves l a l' → P l') (hl : P l)
    (h : step a l = .ok l') : P l' := by
  rcases step_cases h with rfl | hmove
  · exact hl
  · exact hmoves hmove

/-! ### The order of the functors -/

theorem inOrder_init : InOrder init := rfl

theorem InOrder.push (h : InOrder l) : l.executed ++ l.batch ++ (l.pendingFunctors ++ [l.pushed])
    = List.range (l.pushed + 1) := by
  rw [← List.append_assoc, h, List.range_succ]

/-- Nothing that the order depends on changes. -/
theorem InOrder.same (h : InOrder l) (hexecuted : l'.executed = l.executed)
    (hbatch : l'.batch = l.batch) (hpending : l'.pendingFunctors = l.pendingFunctors)
    (hpushed : l'.pushed = l.pushed) : InOrder l' := by
  rw [InOrder, hexecuted, hbatch, hpending, hpushed]
  exact h

theorem batch_of_phase {phase : LoopPhase} (h : l.phase = phase)
    (hphase : ∀ functors, phase ≠ .running functors) : l.batch = [] := by
  rw [batch, h]
  cases phase with
  | running functors => exact absurd rfl (hphase functors)
  | _ => rfl

/-- A step keeps the order. -/
theorem InOrder.step (h : InOrder l) (hstep : EventLoop.step a l = .ok l') : InOrder l' := by
  refine step_inv (fun hmove => ?_) h hstep
  cases hmove with
  | queueInLoop => exact h.push
  | queueHere huser => exact h.push
  | queueWakeup hwaking => exact h.same rfl rfl rfl rfl
  | quit => exact h.same rfl rfl rfl rfl
  | quitWakeup hquitting => exact h.same rfl rfl rfl rfl
  | wakeupHere hwaking => exact h.same rfl rfl rfl rfl
  | quitHere huser => exact h.same rfl rfl rfl rfl
  | loop hphase => exact h.same rfl (batch_of_phase hphase nofun).symm rfl rfl
  | leave hphase => exact h.same rfl (batch_of_phase hphase nofun).symm rfl rfl
  | poll hphase => exact h.same rfl (batch_of_phase hphase nofun).symm rfl rfl
  | pollReturns woken hphase => exact h.same rfl (batch_of_phase hphase nofun).symm rfl rfl
  | handleRead hphase => exact h.same rfl (batch_of_phase hphase nofun).symm rfl rfl
  | doPendingFunctors hphase => exact h.same rfl (batch_of_phase hphase nofun).symm rfl rfl
  | swap hphase =>
      have hbatch : l.batch = [] := batch_of_phase hphase nofun
      rw [InOrder, hbatch, List.append_nil] at h
      show l.executed ++ l.pendingFunctors ++ [] = _
      rw [List.append_nil]
      exact h
  | runFunctor f functors hphase =>
      rw [InOrder, batch, hphase] at h
      show l.executed ++ [f] ++ functors ++ l.pendingFunctors = _
      rw [← h]
      simp
  | endFunctors hphase =>
      refine h.same rfl ?_ rfl rfl
      rw [batch, batch, hphase]

/-! ### Wakeups -/

/-- The loop thread queues no functor outside `loop()`. -/
def Inside (a : LoopAct) (l : EventLoop) : Prop := a = .queueHere → l.phase ≠ .outside

instance (a : LoopAct) (l : EventLoop) : Decidable (l.Inside a) := inferInstanceAs (Decidable (_ → _))

/-- The functors that are pending will be seen: the loop is on its way to the swap, or there is
a wakeup, done or still to be. -/
structure Awake (l : EventLoop) : Prop where
  awake : l.pendingFunctors ≠ [] → (∃ toRead, l.phase = .handling toRead) ∨ l.phase = .swapping ∨
    l.wakeupFd ≠ 0 ∨ l.waking ≠ 0 ∨ l.wakingHere = true
  calling : l.callingPendingFunctors = true ↔ l.phase = .swapping ∨ ∃ functors, l.phase = .running functors
  here : l.wakingHere = true → ∃ functors, l.phase = .running functors

theorem awake_init : Awake init where
  awake := fun h => absurd rfl h
  calling := by simp [init]
  here := nofun

theorem wakeup_ne_zero (l : EventLoop) : l.wakeup.wakeupFd ≠ 0 := by
  simp only [wakeup]
  split <;> omega

/-- Away from handlers and functors: what is pending has its wakeup. -/
theorem Awake.woken (h : Awake l) (hhandling : ∀ toRead, l.phase ≠ .handling toRead)
    (hswapping : l.phase ≠ .swapping) (hhere : l.wakingHere = false) (hpending : l.pendingFunctors ≠ []) :
    l.wakeupFd ≠ 0 ∨ l.waking ≠ 0 := by
  rcases h.awake hpending with ⟨toRead, hphase⟩ | hphase | hfd | hwaking | hwaking
  · exact absurd hphase (hhandling toRead)
  · exact absurd hphase hswapping
  · exact Or.inl hfd
  · exact Or.inr hwaking
  · rw [hhere] at hwaking
    cases hwaking

/-- Outside, testing and polling. -/
def Quiet (phase : LoopPhase) : Prop := phase = .outside ∨ phase = .testing ∨ phase = .polling

theorem Awake.quiet (h : Awake l) (hphase : Quiet l.phase) :
    l.callingPendingFunctors = false ∧ l.wakingHere = false ∧
      (l.pendingFunctors ≠ [] → l.wakeupFd ≠ 0 ∨ l.waking ≠ 0) := by
  have hcalling : l.callingPendingFunctors = false := by
    refine Bool.eq_false_iff.mpr fun hc => ?_
    have := h.calling.mp hc
    rcases hphase with hphase | hphase | hphase <;> simp [hphase] at this
  have hhere : l.wakingHere = false := by
    refine Bool.eq_false_iff.mpr fun hc => ?_
    obtain ⟨functors, hrunning⟩ := h.here hc
    rcases hphase with hphase | hphase | hphase <;> simp [hphase] at hrunning
  refine ⟨hcalling, hhere, h.woken ?_ ?_ hhere⟩
  · intro toRead heq
    rcases hphase with hphase | hphase | hphase <;> simp [hphase] at heq
  · intro heq
    rcases hphase with hphase | hphase | hphase <;> simp [hphase] at heq

/-- From one of these phases to another. -/
theorem Awake.move (h : Awake l) (hold : Quiet l.phase) {phase : LoopPhase} (hnew : Quiet phase)
    (looping quit : Bool) : Awake { l with looping := looping, quit := quit, phase := phase } := by
  obtain ⟨hcalling, hhere, hwoken⟩ := h.quiet hold
  refine ⟨fun hpending => ?_, ?_, fun hc => ?_⟩
  · exact Or.inr (Or.inr ((hwoken hpending).imp id Or.inl))
  · show l.callingPendingFunctors = true ↔ _
    rw [hcalling]
    rcases hnew with rfl | rfl | rfl <;> simp
  · have hc : l.wakingHere = true := hc
    rw [hhere] at hc
    cases hc

/-- A step keeps the wakeups in order. -/
theorem Awake.step (h : Awake l) (hinside : l.Inside a) (hstep : EventLoop.step a l = .ok l') :
    Awake l' := by
  refine step_inv (fun hmove => ?_) h hstep
  cases hmove with
  | queueInLoop =>
      refine ⟨fun _ => ?_, h.calling, h.here⟩
      exact Or.inr (Or.inr (Or.inr (Or.inl (Nat.succ_ne_zero _))))
  | queueWakeup hwaking =>
      exact ⟨fun _ => Or.inr (Or.inr (Or.inl l.wakeup_ne_zero)), h.calling, h.here⟩
  | quit => exact ⟨h.awake, h.calling, h.here⟩
  | quitWakeup hquitting =>
      exact ⟨fun _ => Or.inr (Or.inr (Or.inl l.wakeup_ne_zero)), h.calling, h.here⟩
  | wakeupHere hwaking =>
      exact ⟨fun _ => Or.inr (Or.inr (Or.inl l.wakeup_ne_zero)), h.calling, nofun⟩
  | quitHere huser => exact ⟨h.awake, h.calling, h.here⟩
  | queueHere huser =>
      obtain ⟨-, huser⟩ := huser
      cases hphase : l.phase with
      | outside => exact absurd hphase (hinside rfl)
      | handling toRead =>
          refine ⟨fun _ => Or.inl ⟨toRead, hphase⟩, h.calling, fun hcalling => ?_⟩
          have := h.calling.mp hcalling
          simp [hphase] at this
      | running functors =>
          have hcalling : l.callingPendingFunctors = true := h.calling.mpr (Or.inr ⟨functors, hphase⟩)
          refine ⟨fun _ => ?_, h.calling, fun _ => ⟨functors, hphase⟩⟩
          exact Or.inr (Or.inr (Or.inr (Or.inr hcalling)))
      | testing => simp [hphase] at huser
      | polling => simp [hphase] at huser
      | swapping => simp [hphase] at huser
  | loop hphase => exact h.move (Or.inl hphase) (Or.inr (Or.inl rfl)) true false
  | leave hphase => exact h.move (Or.inr (Or.inl hphase)) (Or.inl rfl) false l.quit
  | poll hphase => exact h.move (Or.inr (Or.inl hphase)) (Or.inr (Or.inr rfl)) l.looping l.quit
  | pollReturns woken hphase =>
      obtain ⟨hcalling, hhere, -⟩ := h.quiet (Or.inr (Or.inr hphase))
      exact ⟨fun _ => Or.inl ⟨woken, rfl⟩, by simp [hcalling], by simp [hhere]⟩
  | handleRead hphase =>
      refine ⟨fun _ => Or.inl ⟨false, rfl⟩, ?_, ?_⟩
      · simpa [hphase] using h.calling
      · simpa [hphase] using h.here
  | doPendingFunctors hphase =>
      refine ⟨fun _ => Or.inr (Or.inl rfl), by simp, ?_⟩
      simpa [hphase] using h.here
  | swap hphase =>
      refine ⟨fun hpending => absurd rfl hpending, ?_, fun _ => ⟨_, rfl⟩⟩
      simpa [hphase] using h.calling
  | runFunctor f functors hphase hwaking =>
      have hcalling : l.callingPendingFunctors = true := h.calling.mpr (Or.inr ⟨_, hphase⟩)
      refine ⟨fun hpending => ?_, by simp [hcalling], fun _ => ⟨functors, rfl⟩⟩
      have := h.woken (by simp [hphase]) (by simp [hphase]) hwaking hpending
      exact Or.inr (Or.inr (this.imp id Or.inl))
  | endFunctors hphase hwaking =>
      refine ⟨fun hpending => ?_, by simp, by simp [hwaking]⟩
      have := h.woken (by simp [hphase]) (by simp [hphase]) hwaking hpending
      exact Or.inr (Or.inr (this.imp id Or.inl))

theorem Awake.noStall (h : Awake l) : NoStall l := by
  intro hphase hpending
  exact (h.quiet (Or.inr (Or.inr hphase))).2.2 hpending

/-- **Pending functors are called once each and in order**, in every run; and the loop does not
wait in `poll` for them without a wakeup, in every run in which the loop thread queues no functor
outside `loop()`. -/
theorem functors_in_order (acts : List LoopAct) {l : EventLoop} (h : run step acts init = .ok l) :
    InOrder l ∧ (Along step (fun a l => l.Inside a) acts init → NoStall l) := by
  constructor
  · exact run_inv (fun _ _ _ hl hstep => InOrder.step hl hstep) inOrder_init h
  · intro hinside
    have hawake : Awake l := run_inv_along (fun _ _ _ hl hi hstep => Awake.step hl hi hstep)
      awake_init hinside h
    exact hawake.noStall

/-- The functor of another thread, and one that it queues itself, are called. -/
theorem functors_in_order_two :
    let acts : List LoopAct := [.queueInLoop, .loop, .test, .queueWakeup, .pollReturns true, .handleRead,
      .doPendingFunctors, .swap, .runFunctor, .queueHere, .wakeupHere, .endFunctors, .test]
    ∃ l, run step acts init = .ok l ∧ l.executed = [0] ∧ l.pendingFunctors = [1] ∧ InOrder l ∧
      (Along step (fun a l => l.Inside a) acts init → NoStall l) := by
  intro acts
  have hrun : run step acts init
      = .ok ⟨true, false, false, [1], 1, .polling, 0, false, 0, 2, [0], false⟩ := rfl
  exact ⟨_, hrun, rfl, rfl, functors_in_order acts hrun⟩

/-- The loop thread queues a functor and enters `loop()`: it waits in `poll`, and nobody wakes it. -/
theorem queued_before_loop_stalls :
    ∃ l, run step [.queueHere, .loop, .test] init = .ok l ∧ ¬NoStall l := by
  refine ⟨⟨true, false, false, [0], 0, .polling, 0, false, 0, 1, [], false⟩, rfl, ?_⟩
  intro h
  exact absurd (h rfl (by decide)) (by decide)

end Net.EventLoop
