/-
The descriptor is armed early enough.

Outside of a batch it is armed for every timer of the queue, and while the callbacks of a
batch run, for every timer that they have added and that is due already: `getExpired` leaves
no other of these, and `reset` arms it for the others.
-/
import Muduo.Lib.Runs
import Muduo.Net.Timerfd
import Muduo.Proofs.TimerRuns

namespace Net

open TimerQueue
open Lib (bind_ok map_ok)

/-! ### What the functions put into the queue -/

/-- Whether a timer with this expiration comes before all others. -/
def earliest (q : TimerQueue) (expiration : Timestamp) : Bool :=
  match first? q.timers with
  | none => true
  | some e => decide (expiration < e.expiration)

/-- What `insert` has done, and what it answers. -/
theorem insert_ok {q q' : TimerQueue} {a : Addr} {earliestChanged : Bool}
    (h : q.insert a = .ok (earliestChanged, q')) :
    ∃ t, q.heap a = some t ∧ q' = q.withTimer a t ∧ earliestChanged = earliest q t.expiration := by
  unfold TimerQueue.insert at h
  obtain ⟨-, -, h⟩ := bind_ok h
  obtain ⟨t, ht, h⟩ := bind_ok h
  obtain ⟨-, -, h⟩ := bind_ok h
  obtain ⟨-, -, h⟩ := bind_ok h
  obtain ⟨-, -, h⟩ := bind_ok h
  cases h
  exact ⟨t, deref_ok ht, rfl, rfl⟩

theorem addTimerInLoop_ok {q q' : TimerQueue} {a : Addr} (h : q.addTimerInLoop a = .ok q') :
    ∃ t, q.heap a = some t ∧ q'.timers = Insert.insert (toLex (t.expiration, a)) q.timers ∧
      q'.timerfd = if earliest q t.expiration then some t.expiration else q.timerfd := by
  unfold TimerQueue.addTimerInLoop at h
  obtain ⟨⟨earliestChanged, q₁⟩, hinsert, h⟩ := bind_ok h
  obtain ⟨t, ht, rfl, rfl⟩ := insert_ok hinsert
  refine ⟨t, ht, ?_⟩
  cases hfirst : earliest q t.expiration with
  | false =>
      simp only [hfirst] at h
      cases h
      exact ⟨rfl, rfl⟩
  | true =>
      simp only [hfirst] at h
      obtain ⟨u, hu, h⟩ := bind_ok h
      have hu : q.heap a = some u := deref_ok hu
      rw [ht] at hu
      cases hu
      cases h
      exact ⟨rfl, rfl⟩

theorem cancelInLoop_ok {q q' : TimerQueue} {held : List Addr} (hq : Good q held) {id : TimerId}
    (h : q.cancelInLoop id = .ok q') : q'.timers ⊆ q.timers ∧ q'.timerfd = q.timerfd := by
  rcases hq.cancelInLoop_cases id with ⟨t, -, -, -, heq⟩ | ⟨-, heq⟩
  · rw [heq] at h
    cases h
    exact ⟨Finset.erase_subset _ _, rfl⟩
  · rw [heq] at h
    cases h
    exact ⟨Finset.Subset.refl _, rfl⟩

theorem deactivate_all_ok : ∀ {es : List Entry} {q q' : TimerQueue},
    es.foldlM deactivate q = .ok q' → q'.timers = q.timers ∧ q'.timerfd = q.timerfd := by
  intro es
  induction es with
  | nil =>
      intro q q' h
      cases h
      exact ⟨rfl, rfl⟩
  | cons e es ih =>
      intro q q' h
      rw [List.foldlM_cons] at h
      obtain ⟨q₁, hone, h⟩ := bind_ok h
      unfold deactivate at hone
      obtain ⟨t, -, hone⟩ := bind_ok hone
      obtain ⟨-, -, hone⟩ := bind_ok hone
      cases hone
      obtain ⟨htimers, hfd⟩ := ih h
      exact ⟨htimers, hfd⟩

/-- The timers that a batch leaves in the queue are not due. -/
theorem beginBatch_ok {q q' : TimerQueue} {now : Timestamp} {expired : List Entry}
    (h : q.beginBatch now = .ok (expired, q')) :
    (∀ e ∈ q'.timers, now < e.expiration) ∧ q'.timerfd = q.timerfd := by
  unfold TimerQueue.beginBatch at h
  obtain ⟨⟨es, q₁⟩, hget, h⟩ := bind_ok h
  cases h
  unfold TimerQueue.getExpired at hget
  obtain ⟨-, -, hget⟩ := bind_ok hget
  obtain ⟨_, hlate, hget⟩ := bind_ok hget
  obtain ⟨q₂, hfold, hget⟩ := bind_ok hget
  obtain ⟨-, -, hget⟩ := bind_ok hget
  cases hget
  obtain ⟨htimers, hfd⟩ := deactivate_all_ok hfold
  refine ⟨?_, hfd⟩
  intro e he
  have hin : e ∈ q.timers.filter fun e => ¬ e < toLex (now, UINTPTR_MAX) := by
    rw [show q₁.timers = _ from htimers] at he
    exact he
  cases hfirst : first? (q.timers.filter fun e => ¬ e < toLex (now, UINTPTR_MAX)) with
  | none =>
      rw [first?_none hfirst] at hin
      exact absurd hin (Finset.notMem_empty e)
  | some e₀ =>
      have he₀ : now < e₀.expiration := assertThat_ok hlate e₀ hfirst
      exact lt_of_lt_of_le he₀ (Entry.expiration_mono (first?_le hfirst hin))

theorem Timer.restart_expiration {t : Timer} (h : t.repeats) (now : Timestamp) :
    now ≤ (t.restart now).expiration := by
  have hinterval : (0 : ℤ) ≤ ⌊t.interval * 1000000⌋ :=
    Int.floor_nonneg.mpr (mul_nonneg (le_of_lt h) (by norm_num))
  show now ≤ if t.repeats then now + ⌊t.interval * 1000000⌋ else 0
  rw [if_pos h]
  exact le_add_of_nonneg_right hinterval

/-- A timer that is started again is not due before the batch. -/
theorem resetOne_ok {q q' : TimerQueue} {now : Timestamp} {e : Entry}
    (h : q.resetOne now e = .ok q') :
    (∀ e' ∈ q'.timers, e' ∈ q.timers ∨ now ≤ e'.expiration) ∧ q'.timerfd = q.timerfd := by
  unfold TimerQueue.resetOne at h
  obtain ⟨t, ht, h⟩ := bind_ok h
  by_cases hagain : t.repeats ∧ (e.timer, t.sequence) ∉ q.cancelingTimers
  · rw [if_pos hagain] at h
    obtain ⟨⟨earliestChanged, q₁⟩, hinsert, h⟩ := bind_ok h
    cases h
    obtain ⟨u, hu, rfl, -⟩ := insert_ok hinsert
    have hu : Function.update q.heap e.timer (some (t.restart now)) e.timer = some u := hu
    rw [Function.update_self] at hu
    cases hu
    refine ⟨fun e' he' => ?_, rfl⟩
    rcases Finset.mem_insert.mp he' with rfl | he'
    · exact Or.inr (Timer.restart_expiration hagain.1 now)
    · exact Or.inl he'
  · rw [if_neg hagain] at h
    have hheap : q.heap e.timer = some t := deref_ok ht
    rw [TimerQueue.delete, hheap] at h
    cases h
    exact ⟨fun e' he' => Or.inl he', rfl⟩

theorem resetAll_ok {now : Timestamp} : ∀ {es : List Entry} {q q' : TimerQueue},
    es.foldlM (TimerQueue.resetOne now) q = .ok q' →
    (∀ e' ∈ q'.timers, e' ∈ q.timers ∨ now ≤ e'.expiration) ∧ q'.timerfd = q.timerfd := by
  intro es
  induction es with
  | nil =>
      intro q q' h
      cases h
      exact ⟨fun e' he' => Or.inl he', rfl⟩
  | cons e es ih =>
      intro q q' h
      rw [List.foldlM_cons] at h
      obtain ⟨q₁, hone, h⟩ := bind_ok h
      obtain ⟨hin₁, hfd₁⟩ := resetOne_ok hone
      obtain ⟨hin, hfd⟩ := ih h
      refine ⟨fun e' he' => ?_, hfd.trans hfd₁⟩
      rcases hin e' he' with hmem | hlate
      · exact hin₁ e' hmem
      · exact Or.inr hlate

/-- Behind a batch the descriptor is set for the first timer, if its expiration is valid. -/
theorem endBatch_ok {q q' : TimerQueue} {now : Timestamp} {expired : List Entry}
    (h : q.endBatch expired now = .ok q') :
    (∀ e' ∈ q'.timers, e' ∈ q.timers ∨ now ≤ e'.expiration) ∧
      (q'.timerfd = q.timerfd ∧ (∀ e t, first? q'.timers = some e → q'.heap e.timer = some t →
          t.expiration ≤ 0) ∨
        ∃ e t, first? q'.timers = some e ∧ q'.heap e.timer = some t ∧
          q'.timerfd = some t.expiration) := by
  unfold TimerQueue.endBatch TimerQueue.reset at h
  obtain ⟨q₁, hfold, h⟩ := bind_ok h
  obtain ⟨hin, hfd⟩ := resetAll_ok hfold
  cases hfirst : first? q₁.timers with
  | none =>
      simp only [hfirst] at h
      cases h
      refine ⟨hin, Or.inl ⟨hfd, ?_⟩⟩
      intro e t he
      rw [hfirst] at he
      cases he
  | some e =>
      simp only [hfirst] at h
      obtain ⟨t, ht, h⟩ := bind_ok h
      have hheap : q₁.heap e.timer = some t := deref_ok ht
      by_cases hvalid : 0 < t.expiration
      · rw [if_pos hvalid] at h
        cases h
        exact ⟨hin, Or.inr ⟨e, t, hfirst, hheap, rfl⟩⟩
      · rw [if_neg hvalid] at h
        cases h
        refine ⟨hin, Or.inl ⟨hfd, fun e' t' he' ht' => ?_⟩⟩
        rw [hfirst] at he'
        cases he'
        rw [hheap] at ht'
        cases ht'
        exact not_lt.mp hvalid

/-! ### What a step does -/

namespace TimerLoop

/-- The time of the batch whose callbacks are run. -/
def batchTime (l : TimerLoop) : Option Timestamp :=
  match l.phase with
  | .outside => none
  | .calling now _ _ => some now

/-- What a step that starts with nothing noted does to the queue. -/
inductive Turned (l : TimerLoop) : TimerOp → TimerLoop → Prop
  /-- No timer is added. -/
  | kept {op : TimerOp} {l' : TimerLoop} (hread : ∀ fd now, ClockedLoop.read fd now op = fd)
      (htimers : l'.queue.timers ⊆ l.queue.timers) (htime : l'.batchTime = l.batchTime)
      (hfd : l'.queue.timerfd = none) : Turned l op l'
  /-- One is, and it is noted if it comes first. -/
  | added {op : TimerOp} {l' : TimerLoop} {expiration : Timestamp} {a : Addr}
      (hread : ∀ fd now, ClockedLoop.read fd now op = fd)
      (htimers : l'.queue.timers = Insert.insert (toLex (expiration, a)) l.queue.timers)
      (htime : l'.batchTime = l.batchTime)
      (hfd : l'.queue.timerfd = if earliest l.queue expiration then some expiration else none) :
      Turned l op l'
  /-- A batch begins. -/
  | begun {now : Timestamp} {l' : TimerLoop} (htimers : ∀ e ∈ l'.queue.timers, now < e.expiration)
      (htime : l'.batchTime = some now) (hfd : l'.queue.timerfd = none) :
      Turned l (.handleRead now) l'
  /-- A batch ends. -/
  | ended {now : Timestamp} {l' : TimerLoop} (hbatch : l.batchTime = some now)
      (htime : l'.batchTime = none)
      (htimers : ∀ e ∈ l'.queue.timers, e ∈ l.queue.timers ∨ now ≤ e.expiration)
      (hfd : ∀ e, first? l'.queue.timers = some e →
        l'.queue.timerfd = some e.expiration ∨ l'.queue.timerfd = none ∧ e.expiration ≤ 0) :
      Turned l .reset l'

variable {l l' : TimerLoop} {op : TimerOp}

theorem Turned.of_addTimerInLoop {q : TimerQueue} {a : Addr} (hfd : l.queue.timerfd = none)
    (h : l.queue.addTimerInLoop a = .ok q) (hread : ∀ fd now, ClockedLoop.read fd now op = fd)
    (hqueue : l'.queue = q) (hphase : l'.phase = l.phase) : Turned l op l' := by
  obtain ⟨t, -, htimers, hset⟩ := addTimerInLoop_ok h
  rw [hfd] at hset
  subst hqueue
  exact .added hread htimers (by rw [batchTime, batchTime, hphase]) hset

theorem Turned.of_cancelInLoop {q : TimerQueue} {id : TimerId} (hsound : Sound l)
    (hfd : l.queue.timerfd = none) (h : l.queue.cancelInLoop id = .ok q)
    (hread : ∀ fd now, ClockedLoop.read fd now op = fd)
    (hqueue : l'.queue = q) (hphase : l'.phase = l.phase) : Turned l op l' := by
  obtain ⟨htimers, hset⟩ := cancelInLoop_ok hsound.good h
  subst hqueue
  exact .kept hread htimers (by rw [batchTime, batchTime, hphase]) (hset.trans hfd)

theorem Sound.turned (hsound : Sound l) (hfd : l.queue.timerfd = none)
    (hstep : Step l op (.ok l')) : Turned l op l' := by
  obtain ⟨l₂, hl₂, hsound'⟩ := hsound.step hstep
  cases hl₂
  generalize hr : Except.ok l' = r at hstep
  cases hstep with
  | newTimer hfree ha =>
      cases hr
      exact .kept (fun _ _ => rfl) (Finset.Subset.refl _) rfl hfd
  | queueAdd ha =>
      cases hr
      exact .kept (fun _ _ => rfl) (Finset.Subset.refl _) rfl hfd
  | queueCancel =>
      cases hr
      exact .kept (fun _ _ => rfl) (Finset.Subset.refl _) rfl hfd
  | runAdd ha huser =>
      obtain ⟨q, hq, rfl⟩ := map_ok hr.symm
      exact .of_addTimerInLoop hfd hq (fun _ _ => rfl) rfl rfl
  | runCancel huser =>
      obtain ⟨q, hq, rfl⟩ := map_ok hr.symm
      exact .of_cancelInLoop hsound hfd hq (fun _ _ => rfl) rfl rfl
  | @runFunctor f rest hphase hpending =>
      obtain ⟨q, hq, rfl⟩ := map_ok hr.symm
      cases f with
      | addTimerInLoop a => exact .of_addTimerInLoop hfd hq (fun _ _ => rfl) rfl rfl
      | cancelInLoop id => exact .of_cancelInLoop hsound hfd hq (fun _ _ => rfl) rfl rfl
  | @handleRead now hphase =>
      obtain ⟨⟨expired, q⟩, hq, rfl⟩ := map_ok hr.symm
      obtain ⟨htimers, hset⟩ := beginBatch_ok hq
      exact .begun htimers rfl (hset.trans hfd)
  | runCallback hphase =>
      obtain ⟨t, -, rfl⟩ := map_ok hr.symm
      refine .kept (fun _ _ => rfl) (Finset.Subset.refl _) ?_ hfd
      rw [batchTime, batchTime, hphase]
  | @reset now expired hphase =>
      obtain ⟨q, hq, rfl⟩ := map_ok hr.symm
      obtain ⟨htimers, hset⟩ := endBatch_ok hq
      refine .ended (by rw [batchTime, hphase]) rfl htimers fun e he => ?_
      obtain ⟨t, ht, hexp, -⟩ := hsound'.good.timers e (mem_of_first? he)
      rcases hset with ⟨hnone, hle⟩ | ⟨e', t', he', ht', hsome⟩
      · refine Or.inr ⟨hnone.trans hfd, ?_⟩
        rw [← hexp]
        exact hle e t he ht
      · have hee' : e' = e := Option.some.inj (he'.symm.trans he)
        rw [hee'] at ht'
        have htt' : t' = t := Option.some.inj (ht'.symm.trans ht)
        rw [htt'] at hsome
        exact Or.inl (hsome.trans (congrArg some hexp))

end TimerLoop

/-! ### The descriptor -/

namespace Timerfd

/-- It becomes readable when the expiration has come, or as soon as it can. -/
def EarlyEnough (fd : Timerfd) (expiration : Timestamp) : Prop :=
  ∃ moment last, fd.armed = some moment ∧ fd.lastArming = some last ∧
    moment ≤ max expiration (last + 100)

theorem EarlyEnough.mono {fd : Timerfd} {expiration expiration' : Timestamp}
    (h : fd.EarlyEnough expiration) (hle : expiration ≤ expiration') :
    fd.EarlyEnough expiration' := by
  obtain ⟨moment, last, hmoment, hlast, hbound⟩ := h
  exact ⟨moment, last, hmoment, hlast, hbound.trans (max_le_max hle le_rfl)⟩

theorem earlyEnough_resetTimerfd (expiration now : Timestamp) :
    (resetTimerfd expiration now).EarlyEnough expiration := by
  refine ⟨_, _, rfl, rfl, ?_⟩
  unfold howMuchTimeFromNow
  by_cases hsoon : expiration - now < 100
  · simp only [hsoon, if_true]
    exact le_max_right _ _
  · simp only [hsoon, if_false]
    exact le_max_of_le_left (le_of_eq (add_sub_cancel now expiration))

end Timerfd

/-! ### Runs with a clock -/

namespace ClockedLoop

open TimerLoop

/-- What every run keeps. -/
structure Armed (m : ClockedLoop) : Prop where
  sound : Sound m.loop
  clock : 0 < m.clock
  batch : ∀ now, m.loop.batchTime = some now → 0 < now
  /-- While a batch is run, only the timers that it has missed are of concern. -/
  due : ∀ e ∈ m.loop.queue.timers,
    (∀ now, m.loop.batchTime = some now → e.expiration ≤ now) → m.timerfd.EarlyEnough e.expiration

theorem armed_init : Armed init where
  sound := sound_init
  clock := Int.one_pos
  batch := nofun
  due := fun e he => absurd he (Finset.notMem_empty e)

theorem sound_unnoted {l : TimerLoop} (h : Sound l) : Sound (unnoted l) :=
  ⟨h.good.flags none _ _, h.calling, h.rest, h.returned⟩

theorem InTime.le {clock now : Timestamp} {op : TimerOp} (h : InTime clock op now) : clock ≤ now := by
  cases op with
  | handleRead time => exact h.1.trans h.2
  | newTimer | queueAdd | queueCancel | runAdd | runCancel | runFunctor | runCallback | reset =>
      exact h

variable {m m' : ClockedLoop}

/-- A step that notes nothing, outside of `handleRead`, leaves the descriptor alone. -/
theorem after_unread {op : TimerOp} {l : TimerLoop} {now : Timestamp}
    (hread : ∀ fd now, read fd now op = fd) (hfd : l.queue.timerfd = none) :
    (m.after op l now).timerfd = m.timerfd := by
  unfold after
  rw [hfd]
  exact hread m.timerfd now

theorem after_noted {op : TimerOp} {l : TimerLoop} {now expiration : Timestamp}
    (hfd : l.queue.timerfd = some expiration) :
    (m.after op l now).timerfd = .resetTimerfd expiration now := by
  unfold after
  rw [hfd]

/-- A timer that is put in front of the others is armed for, and any other comes behind one
that has been. -/
theorem Armed.added (h : Armed m) {op : TimerOp} {l : TimerLoop} {now expiration : Timestamp} {a : Addr}
    (hread : ∀ fd now, read fd now op = fd)
    (htimers : l.queue.timers = Insert.insert (toLex (expiration, a)) m.loop.queue.timers)
    (htime : l.batchTime = m.loop.batchTime)
    (hfd : l.queue.timerfd =
      if earliest m.loop.queue expiration then some expiration else none) :
    ∀ e ∈ l.queue.timers, (∀ now, l.batchTime = some now → e.expiration ≤ now) →
      (m.after op l now).timerfd.EarlyEnough e.expiration := by
  intro e he hconcern
  rw [htimers] at he
  rw [htime] at hconcern
  cases hfirst : earliest m.loop.queue expiration with
  | true =>
      rw [hfirst, if_pos rfl] at hfd
      rw [after_noted hfd]
      refine (Timerfd.earlyEnough_resetTimerfd expiration now).mono ?_
      rcases Finset.mem_insert.mp he with rfl | he
      · exact le_rfl
      · unfold earliest at hfirst
        cases hmin : first? m.loop.queue.timers with
        | none =>
            rw [first?_none hmin] at he
            exact absurd he (Finset.notMem_empty e)
        | some e₀ =>
            rw [hmin] at hfirst
            have hlt : expiration < e₀.expiration := of_decide_eq_true hfirst
            exact le_of_lt (lt_of_lt_of_le hlt (Entry.expiration_mono (first?_le hmin he)))
  | false =>
      rw [hfirst, if_neg Bool.false_ne_true] at hfd
      rw [after_unread hread hfd]
      rcases Finset.mem_insert.mp he with rfl | he
      · unfold earliest at hfirst
        cases hmin : first? m.loop.queue.timers with
        | none =>
            rw [hmin] at hfirst
            cases hfirst
        | some e₀ =>
            rw [hmin] at hfirst
            have hle : e₀.expiration ≤ expiration := not_lt.mp (of_decide_eq_false hfirst)
            refine (h.due e₀ (mem_of_first? hmin) fun time htime => ?_).mono hle
            exact hle.trans (hconcern time htime)
      · exact h.due e he hconcern

theorem Armed.step (h : Armed m) (hnext : Next m m') : Armed m' := by
  obtain ⟨htime, hstep⟩ := hnext
  rename_i op l now
  have hsound := sound_unnoted h.sound
  obtain ⟨l₂, hl₂, hsound'⟩ := hsound.step hstep
  cases hl₂
  have hclock : 0 < now := lt_of_lt_of_le h.clock htime.le
  cases hsound.turned rfl hstep with
  | kept hread htimers hbatch hfd =>
      have hbatch : l.batchTime = m.loop.batchTime := hbatch
      refine ⟨hsound', hclock, fun time ht => h.batch time (hbatch ▸ ht), fun e he hconcern => ?_⟩
      rw [after_unread hread hfd]
      exact h.due e (htimers he) fun time ht => hconcern time (hbatch ▸ ht)
  | added hread htimers hbatch hfd =>
      have hbatch : l.batchTime = m.loop.batchTime := hbatch
      exact ⟨hsound', hclock, fun time ht => h.batch time (hbatch ▸ ht),
        h.added hread htimers hbatch hfd⟩
  | @begun time _ htimers hbatch hfd =>
      refine ⟨hsound', hclock, fun time' ht => ?_, fun e he hconcern => ?_⟩
      · have heq : time = time' := Option.some.inj (hbatch.symm.trans ht)
        rw [← heq]
        exact lt_of_lt_of_le h.clock htime.1
      · exact absurd (hconcern time hbatch) (not_le.mpr (htimers e he))
  | @ended time _ hold hnew htimers hfd =>
      refine ⟨hsound', hclock, fun time' ht => ?_, fun e he _ => ?_⟩
      · have hnone : none = some time' := hnew.symm.trans ht
        cases hnone
      · have hpos : 0 < time := h.batch time hold
        cases hfirst : first? l.queue.timers with
        | none =>
            have he : e ∈ l.queue.timers := he
            rw [first?_none hfirst] at he
            exact absurd he (Finset.notMem_empty e)
        | some e₀ =>
            have hle : e₀.expiration ≤ e.expiration := Entry.expiration_mono (first?_le hfirst he)
            refine Timerfd.EarlyEnough.mono ?_ hle
            rcases hfd e₀ hfirst with hset | ⟨hnone, hinvalid⟩
            · rw [after_noted hset]
              exact Timerfd.earlyEnough_resetTimerfd e₀.expiration now
            · -- An expiration that is not valid is one that a callback has added.
              rw [after_unread (fun _ _ => rfl) hnone]
              rcases htimers e₀ (mem_of_first? hfirst) with hin | hlate
              · refine h.due e₀ hin fun time' ht => ?_
                have heq : time = time' := Option.some.inj (hold.symm.trans ht)
                rw [← heq]
                exact hinvalid.trans (le_of_lt hpos)
              · exact absurd (hlate.trans hinvalid) (not_le.mpr hpos)

theorem Reachable.armed (h : Reachable m) : Armed m := by
  induction h with
  | refl => exact armed_init
  | tail _ hnext ih => exact ih.step hnext

/-- **No timer is lost.**  Whenever no batch is run and the queue has a timer, the descriptor is
armed, or has been readable since, for a moment that is not behind the first expiration, or not
behind the soonest that the last arming could set it to. -/
theorem armed_for_first (h : Reachable m) (hphase : m.loop.phase = .outside) {e : Entry}
    (hfirst : first? m.loop.queue.timers = some e) : m.timerfd.EarlyEnough e.expiration := by
  refine h.armed.due e (mem_of_first? hfirst) fun now hnow => ?_
  rw [batchTime, hphase] at hnow
  cases hnow

/-- A timer for the moment `5`, added at `2`. -/
theorem armed_for_first_one : ∃ m, Reachable m ∧ m.loop.phase = .outside ∧
    first? m.loop.queue.timers = some (toLex (5, 1)) ∧
    m.timerfd.EarlyEnough (Entry.expiration (toLex (5, 1))) := by
  set l : TimerLoop := ⟨TimerQueue.init.new 1 5 0, .outside, [1], [], []⟩
  set m : ClockedLoop := init.after (.newTimer 1 5 0) l 1
  have hnew : Next init m := .step (le_refl (1 : Int)) (.newTimer rfl (by decide))
  have hgood : Good (unnoted m.loop).queue [1] := (sound_unnoted (armed_init.step hnew).sound).good
  obtain ⟨fd, hadd⟩ := hgood.addTimerInLoop (t := ⟨5, 0, 1⟩) rfl
  have hstep : Step (unnoted m.loop) (.runAdd 1) _ := .runAdd (List.mem_singleton_self 1) trivial
  rw [hadd] at hstep
  have htime : InTime m.clock (.runAdd 1) 2 := show (1 : Int) ≤ 2 by decide
  have hreach : Reachable _ := (Relation.ReflTransGen.refl.tail hnew).tail (.step htime hstep)
  have hfirst : first? {(toLex (5, 1) : Entry)} = some (toLex (5, 1)) := by
    rw [first?, Finset.sort_singleton]
    rfl
  exact ⟨_, hreach, rfl, hfirst, armed_for_first hreach rfl hfirst⟩

end ClockedLoop

end Net
