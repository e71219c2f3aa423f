/-
When a call of `quit` is lost, and when the destructor of `EventLoopThread` finds its loop gone.

`loop()` resets the flag on entry, and the loop is destroyed as soon as `loop()` has returned.
A call of `quit`, which is two steps for another thread, is safe if it comes in between and the
loop thread does not leave before its second step.
-/
import Muduo.Net.EventLoopThread
import Muduo.Proofs.Wakeups

namespace Net.EventLoopThread

open Lib EventLoop

/-! ### The loop -/

/-- Somebody has asked the loop to quit, or is at it. -/
def Asked (l : EventLoop) (destroying : Prop) : Prop :=
  l.quitReturned = true ∨ l.quitting ≠ 0 ∨ destroying

/-- What the steps of the loop keep. -/
structure LoopKept (l : EventLoop) (destroying : Prop) : Prop where
  looping : l.looping = false → l.phase = .outside
  asked : Asked l destroying → l.quit = true
  woken : l.quitReturned = true → l.phase = .polling → l.wakeupFd ≠ 0

variable {l l' : EventLoop} {a : LoopAct} {destroying : Prop}

theorem LoopKept.inside (h : LoopKept l destroying) (hphase : l.phase ≠ .outside) :
    l.looping = true := by
  cases hlooping : l.looping with
  | true => rfl
  | false => exact absurd (h.looping hlooping) hphase

/-- The loop goes from one phase to another, but not to `poll`. -/
theorem LoopKept.moved (h : LoopKept l destroying) (hphase : l.phase ≠ .outside)
    (hlooping : l'.looping = l.looping) (hquit : l'.quit = l.quit)
    (hasked : Asked l' destroying → Asked l destroying) (hpolling : l'.phase ≠ .polling) :
    LoopKept l' destroying := by
  refine ⟨fun hc => ?_, fun ha => ?_, fun _ hp => absurd hp hpolling⟩
  · rw [hlooping, h.inside hphase] at hc
    cases hc
  · rw [hquit]
    exact h.asked (hasked ha)

/-- A step of the loop, as long as nobody asks it to quit before it is entered. -/
theorem LoopKept.step (h : LoopKept l destroying) (hloop : a = .loop → ¬Asked l destroying)
    (hstep : EventLoop.step a l = .ok l') : LoopKept l' destroying := by
  rcases step_cases hstep with rfl | hmove
  · exact h
  cases hmove with
  | queueInLoop => exact ⟨h.looping, h.asked, h.woken⟩
  | queueWakeup hwaking => exact ⟨h.looping, h.asked, fun _ _ => l.wakeup_ne_zero⟩
  | quit => exact ⟨h.looping, fun _ => rfl, h.woken⟩
  | quitWakeup hquitting =>
      have hquit := h.asked (Or.inr (Or.inl hquitting))
      exact ⟨h.looping, fun _ => hquit, fun _ _ => l.wakeup_ne_zero⟩
  | queueHere huser => exact ⟨h.looping, h.asked, h.woken⟩
  | wakeupHere hwaking => exact ⟨h.looping, h.asked, fun _ _ => l.wakeup_ne_zero⟩
  | quitHere huser =>
      refine ⟨h.looping, fun _ => rfl, fun _ hphase => ?_⟩
      obtain ⟨-, huser⟩ := huser
      have hphase : l.phase = .polling := hphase
      simp [hphase] at huser
  | loop hphase =>
      have hnot := hloop rfl
      refine ⟨nofun, fun hasked => absurd hasked hnot, nofun⟩
  | leave hphase hquit => exact ⟨fun _ => rfl, h.asked, nofun⟩
  | poll hphase hquit =>
      have hnot : ¬l.quitReturned = true := by
        intro hreturned
        rw [h.asked (Or.inl hreturned)] at hquit
        cases hquit
      refine ⟨fun hc => ?_, h.asked, fun hreturned => absurd hreturned hnot⟩
      have hc : l.looping = false := hc
      rw [h.inside (by simp [hphase])] at hc
      cases hc
  | pollReturns woken hphase => exact h.moved (by simp [hphase]) rfl rfl id nofun
  | handleRead hphase => exact h.moved (by simp [hphase]) rfl rfl id nofun
  | doPendingFunctors hphase => exact h.moved (by simp [hphase]) rfl rfl id nofun
  | swap hphase => exact h.moved (by simp [hphase]) rfl rfl id nofun
  | runFunctor f functors hphase => exact h.moved (by simp [hphase]) rfl rfl id nofun
  | endFunctors hphase => exact h.moved (by simp [hphase]) rfl rfl id nofun

/-- Where only the loop thread's own code could ask the loop to quit, and does not. -/
theorem not_asked_step (hphase : l.phase = .outside) (hlooping : l.looping = false)
    (hasked : ¬Asked l destroying) (ha : a ≠ .quit ∧ a ≠ .quitHere ∧ a ≠ .loop)
    (hstep : EventLoop.step a l = .ok l') :
    l'.phase = .outside ∧ l'.looping = false ∧ ¬Asked l' destroying := by
  rcases step_cases hstep with rfl | hmove
  · exact ⟨hphase, hlooping, hasked⟩
  cases hmove with
  | queueInLoop => exact ⟨hphase, hlooping, hasked⟩
  | queueWakeup hwaking => exact ⟨hphase, hlooping, hasked⟩
  | quit => exact absurd rfl ha.1
  | quitWakeup hquitting => exact absurd (Or.inr (Or.inl hquitting)) hasked
  | queueHere huser => exact ⟨hphase, hlooping, hasked⟩
  | wakeupHere hwaking => exact ⟨hphase, hlooping, hasked⟩
  | quitHere huser => exact absurd rfl ha.2.1
  | loop hphase' => exact absurd rfl ha.2.2
  | leave hphase' => simp [hphase] at hphase'
  | poll hphase' => simp [hphase] at hphase'
  | pollReturns woken hphase' => simp [hphase] at hphase'
  | handleRead hphase' => simp [hphase] at hphase'
  | doPendingFunctors hphase' => simp [hphase] at hphase'
  | swap hphase' => simp [hphase] at hphase'
  | runFunctor f functors hphase' => simp [hphase] at hphase'
  | endFunctors hphase' => simp [hphase] at hphase'

/-! ### The thread -/

variable {t : EventLoopThread}

/-- What every run keeps in which the calls of `quit` are timely. -/
structure Kept (t : EventLoopThread) : Prop where
  /-- Before `loop()` nobody has asked the loop to quit. -/
  before : t.thread ≠ .looping → t.thread ≠ .finished →
    t.loop.phase = .outside ∧ t.loop.looping = false ∧ ¬Asked t.loop (t.owner = .quitting)
  /-- When the loop is gone, no call is on its way. -/
  behind : t.thread = .finished → t.owner ≠ .quitting
  published : t.loop_ = true ↔ t.thread ≠ .notStarted ∧ t.thread ≠ .starting
  idle : t.owner = .idle → t.thread = .notStarted
  loop : LoopKept t.loop (t.owner = .quitting)

theorem kept_init : Kept init where
  before := fun _ _ => ⟨rfl, rfl, by simp [Asked, init, EventLoop.init]⟩
  behind := nofun
  published := by simp [init]
  idle := fun _ => rfl
  loop := ⟨fun _ => rfl, by simp [Asked, init, EventLoop.init], nofun⟩

theorem Kept.quitKept (h : Kept t) : QuitKept t := fun hreturned =>
  ⟨h.loop.asked (Or.inl hreturned), h.loop.woken hreturned⟩

/-- The loop of a thread that is about to enter it can be entered. -/
theorem Kept.enters (h : Kept t) (htakes : t.Takes a) : ∃ l, EventLoop.step a t.loop = .ok l := by
  by_cases ha : a = .loop
  · subst ha
    have hpublished : t.thread = .published := htakes
    obtain ⟨-, hlooping, -⟩ := h.before (by simp [hpublished]) (by simp [hpublished])
    by_cases hcond : t.loop.phase = .outside ∧ t.loop.wakingHere = false
    · refine ⟨{ t.loop with looping := true, quit := false, phase := .testing }, ?_⟩
      simp [EventLoop.step, hcond, assertThat_of hlooping, bind, Except.bind, pure, Except.pure]
    · refine ⟨t.loop, ?_⟩
      simp only [EventLoop.step, if_neg hcond]
  · cases a with
    | loop => exact absurd rfl ha
    | runFunctor =>
        rw [EventLoop.step]
        repeat' split
        all_goals exact ⟨_, rfl⟩
    | _ =>
        simp only [EventLoop.step]
        repeat' split
        all_goals exact ⟨_, rfl⟩

/-- A step of the loop. -/
theorem Kept.act (h : Kept t) (htimely : Timely (.act a) t) :
    ∃ t', step (.act a) t = .ok t' ∧ Kept t' := by
  by_cases hcond : t.Alive ∧ t.Takes a
  · obtain ⟨l, hstep⟩ := h.enters hcond.2
    refine ⟨{ t with loop := l, thread := if a = .loop then .looping else t.thread }, ?_, ?_⟩
    · simp [step, hcond, stepLoop, hstep, bind, Except.bind, pure, Except.pure]
    · have hentry : a = .loop → ¬Asked t.loop (t.owner = .quitting) := by
        rintro rfl
        have hpublished : t.thread = .published := hcond.2
        exact (h.before (by simp [hpublished]) (by simp [hpublished])).2.2
      refine ⟨?_, ?_, ?_, ?_, h.loop.step hentry hstep⟩
      · intro hlooping hfinished
        by_cases ha : a = .loop
        · exact absurd (if_pos ha) hlooping
        · simp only [if_neg ha] at hlooping hfinished
          obtain ⟨hphase, hnot, hasked⟩ := h.before hlooping hfinished
          refine not_asked_step hphase hnot hasked ⟨?_, ?_, ha⟩ hstep
          · rintro rfl
            exact hlooping htimely.1
          · rintro rfl
            exact hlooping htimely.1
      · intro hfinished
        by_cases ha : a = .loop
        · simp [ha] at hfinished
        · simp only [if_neg ha] at hfinished
          exact absurd hfinished hcond.1.2
      · by_cases ha : a = .loop
        · subst ha
          have hpublished : t.thread = .published := hcond.2
          have := h.published
          simp only [hpublished] at this
          simp [this]
        · simpa only [if_neg ha] using h.published
      · intro hidle
        exact absurd (h.idle hidle) hcond.1.1
  · exact ⟨t, by simp only [step, if_neg hcond], h⟩

/-- A step that changes nothing but where the owner and the thread are. -/
theorem Kept.moves (h : Kept t) {thread : ThreadStage} {owner : OwnerStage} {loop_ : Bool}
    (howner : owner = .quitting ↔ t.owner = .quitting) (hidle : owner = .idle → thread = .notStarted)
    (hbefore : thread ≠ .looping → thread ≠ .finished → t.thread ≠ .looping ∧ t.thread ≠ .finished)
    (hbehind : thread = .finished → owner ≠ .quitting)
    (hpublished : loop_ = true ↔ thread ≠ .notStarted ∧ thread ≠ .starting) :
    Kept ⟨t.loop, thread, owner, loop_⟩ := by
  have heq : (owner = .quitting) = (t.owner = .quitting) := propext howner
  refine ⟨?_, hbehind, hpublished, hidle, ?_⟩
  · intro hl hf
    obtain ⟨hl', hf'⟩ := hbefore hl hf
    show _ ∧ _ ∧ ¬Asked t.loop (owner = .quitting)
    rw [heq]
    exact h.before hl' hf'
  · show LoopKept t.loop (owner = .quitting)
    rw [heq]
    exact h.loop

/-- A timely step: no fault, and the invariant is kept. -/
theorem Kept.step (h : Kept t) {a : ThreadAct} (htimely : Timely a t) :
    ∃ t', EventLoopThread.step a t = .ok t' ∧ Kept t' := by
  cases a with
  | act a => exact h.act htimely
  | startLoop =>
      by_cases hidle : t.owner = .idle
      · refine ⟨_, if_pos hidle, h.moves ?_ nofun ?_ nofun ?_⟩
        · simp [hidle]
        · simp [h.idle hidle]
        · have hpublished := h.published
          rw [h.idle hidle] at hpublished
          simpa using hpublished
      · exact ⟨t, if_neg hidle, h⟩
  | startLoopReturns =>
      by_cases hcond : t.owner = .waiting ∧ t.loop_ = true
      · refine ⟨_, if_pos hcond, h.moves ?_ nofun (fun hl hf => ⟨hl, hf⟩) nofun h.published⟩
        simp [hcond.1]
      · exact ⟨t, if_neg hcond, h⟩
  | publish =>
      by_cases hcond : t.thread = .starting ∧ t.loop.wakingHere = false
      · refine ⟨_, if_pos hcond, h.moves Iff.rfl ?_ ?_ nofun ?_⟩
        · intro hidle
          have := h.idle hidle
          rw [hcond.1] at this
          cases this
        · simp [hcond.1]
        · simp
      · exact ⟨t, if_neg hcond, h⟩
  | finish =>
      by_cases hcond : t.thread = .looping ∧ t.loop.phase = .outside
      · refine ⟨_, if_pos hcond, h.moves Iff.rfl ?_ ?_ (fun _ => htimely.2) ?_⟩
        · intro hidle
          have := h.idle hidle
          rw [hcond.1] at this
          cases this
        · exact fun _ hf => absurd rfl hf
        · have hpublished := h.published
          rw [hcond.1] at hpublished
          simpa using hpublished
      · exact ⟨t, if_neg hcond, h⟩
  | destroy =>
      by_cases hcond : t.owner = .idle ∨ t.owner = .started
      · obtain ⟨hthread, hlooping⟩ := htimely hcond
        have hpublished : t.loop_ = true := h.published.mpr (by simp [hthread])
        refine ⟨{ t with owner := .quitting, loop := { t.loop with quit := true } }, ?_, ?_⟩
        · simp [EventLoopThread.step, hcond, hpublished, hthread]
        · refine ⟨fun hl => absurd hthread hl, ?_, h.published, nofun, ?_⟩
          · intro hfinished
            have hfinished : t.thread = .finished := hfinished
            rw [hthread] at hfinished
            cases hfinished
          · exact ⟨h.loop.looping, fun _ => rfl, h.loop.woken⟩
      · exact ⟨t, if_neg hcond, h⟩
  | destroyWakeup =>
      by_cases hcond : t.owner = .quitting
      · have halive : t.thread ≠ .finished := fun hf => h.behind hf hcond
        have hthread : t.thread = .looping := by
          by_contra hl
          exact (h.before hl halive).2.2 (Or.inr (Or.inr hcond))
        have hquit := h.loop.asked (Or.inr (Or.inr hcond))
        refine ⟨{ t with owner := .joining, loop := { t.loop.wakeup with quitReturned := true } }, ?_, ?_⟩
        · simp [EventLoopThread.step, hcond, halive]
        · refine ⟨fun hl => absurd hthread hl, fun hf => absurd hf halive, h.published, nofun, ?_⟩
          exact ⟨h.loop.looping, fun _ => hquit, fun _ _ => t.loop.wakeup_ne_zero⟩
      · exact ⟨t, if_neg hcond, h⟩
  | join =>
      by_cases hcond : t.owner = .joining ∧ t.thread = .finished
      · refine ⟨_, if_pos hcond, h.moves ?_ nofun (fun hl hf => ⟨hl, hf⟩) ?_ h.published⟩
        · simp [hcond.1]
        · simp
      · exact ⟨t, if_neg hcond, h⟩

/-- **Quit is not lost, and the destructor does not meet a dead loop**, in every run in which the
calls of `quit` are timely. -/
theorem quit_kept (acts : List ThreadAct) (htimely : Along step Timely acts init) :
    ∃ t, run step acts init = .ok t ∧ QuitKept t := by
  obtain ⟨t, hrun, hkept⟩ := run_ok (fun _ _ h ht => Kept.step h ht) kept_init htimely
  exact ⟨t, hrun, hkept.quitKept⟩

instance (a : ThreadAct) (t : EventLoopThread) : Decidable (Timely a t) := by
  unfold Timely
  split <;> exact inferInstance

/-- The owner destroys the object while the loop waits in `poll`. -/
def stopped : List ThreadAct :=
  [.startLoop, .publish, .startLoopReturns, .act .loop, .act .test, .destroy, .destroyWakeup,
    .act (.pollReturns true), .act .handleRead, .act .doPendingFunctors, .act .swap,
    .act .endFunctors, .act .test, .finish, .join]

theorem quit_kept_stopped : Along step Timely stopped init ∧
    ∃ t, run step stopped init = .ok t ∧ QuitKept t := by
  have htimely : Along step Timely stopped init := by decide
  exact ⟨htimely, quit_kept stopped htimely⟩

/-- A call that comes before `loop()` is entered is lost: it has returned, and the loop waits in
`poll` with nobody to wake it.  And the destructor meets no loop in an object that was never
started, and a dead one when `loop()` has returned. -/
theorem quit_lost :
    (∃ t, run step [.startLoop, .publish, .startLoopReturns, .act .quit, .act .quitWakeup,
        .act .loop, .act .test, .act (.pollReturns true), .act .handleRead, .act .doPendingFunctors,
        .act .swap, .act .endFunctors, .act .test] init = .ok t ∧ ¬QuitKept t) ∧
      run step [.destroy] init = .error .nullLoop ∧
      run step [.startLoop, .publish, .startLoopReturns, .act .loop, .act .test, .act .quit,
        .act .quitWakeup, .act (.pollReturns true), .act .handleRead, .act .doPendingFunctors,
        .act .swap, .act .endFunctors, .act .test, .finish, .destroy] init = .error .deadLoop := by
  refine ⟨⟨⟨⟨true, false, false, [], 0, .polling, 0, false, 0, 0, [], true⟩, .looping, .started, true⟩,
    rfl, ?_⟩, rfl, rfl⟩
  intro h
  exact absurd (h rfl).1 (by decide)

end Net.EventLoopThread
