/-
What holds of the timers in every run of the loop.

The first half puts the functions of the queue together: what the threads of the program do
with timers never fails, and deletes each timer once.

The second half is about a timer that has been cancelled: where it has to be so that no
later batch and no later callback meets it again.
-/
import Muduo.Proofs.Timers

namespace Net

open TimerQueue

/-! ### Runs of the loop -/

/-- The timer a functor inserts. -/
def TimerFunctor.added? : TimerFunctor → Option Addr
  | addTimerInLoop a => some a
  | cancelInLoop _ => none

namespace TimerLoop

/-- The timers that are still to be inserted. -/
def waiting (l : TimerLoop) : List Addr :=
  l.created ++ l.pendingFunctors.filterMap TimerFunctor.added?

/-- The timers of the batch. -/
def batch (l : TimerLoop) : List Addr :=
  match l.phase with
  | .outside => []
  | .calling _ expired _ => expired.map Entry.timer

/-- What every run keeps. -/
structure Sound (l : TimerLoop) : Prop where
  good : Good l.queue (l.batch ++ l.waiting)
  calling : l.queue.callingExpiredTimers = true ↔ l.phase ≠ .outside
  rest : ∀ now expired rest, l.phase = .calling now expired rest → ∀ e ∈ rest, e ∈ expired
  returned : ∀ id ∈ l.returned, id.2 ≤ l.queue.numCreated

theorem sound_init : Sound init where
  good := Good.init
  calling := ⟨nofun, fun h => absurd rfl h⟩
  rest := nofun
  returned := nofun

private theorem filterMap_added? (l : List TimerFunctor) (f : TimerFunctor) :
    (f :: l).filterMap TimerFunctor.added? = f.added?.toList ++ l.filterMap TimerFunctor.added? := by
  cases f <;> rfl

variable {l : TimerLoop}

/-- A timer that somebody is about to insert can be moved to the front. -/
theorem held_perm {a : Addr} (ha : a ∈ l.created) :
    (l.batch ++ l.waiting).Perm
      (a :: (l.batch ++ (l.created.erase a ++ l.pendingFunctors.filterMap TimerFunctor.added?))) := by
  refine List.Perm.trans ?_ List.perm_middle
  exact ((List.perm_cons_erase ha).append_right _).append_left _

theorem idOf_le (h : Sound l) {a : Addr} {t : Timer} (ht : l.queue.heap a = some t) :
    (idOf l.queue a).2 ≤ l.queue.numCreated := by
  rw [idOf, ht]
  exact (h.good.memory.bound a t ht).2.2

/-- The id of a timer that is about to be inserted is that of one that was created. -/
theorem Sound.returned_idOf (h : Sound l) {a : Addr} (ha : a ∈ l.created) :
    ∀ id ∈ l.returned ++ [idOf l.queue a], id.2 ≤ l.queue.numCreated := by
  intro id hid
  rcases List.mem_append.mp hid with hid | hid
  · exact h.returned id hid
  · obtain ⟨t, ht⟩ := h.good.alive a (by simp [waiting, ha])
    rw [List.mem_singleton.mp hid]
    exact idOf_le h ht

/-- A step that changes nothing but the queue and the functors. -/
theorem Sound.queue (h : Sound l) {q : TimerQueue} {pendingFunctors : List TimerFunctor}
    (hgood : Good q (l.batch ++ (l.created ++ pendingFunctors.filterMap TimerFunctor.added?)))
    (hcalling : q.callingExpiredTimers = l.queue.callingExpiredTimers)
    (hnum : q.numCreated = l.queue.numCreated) :
    Sound { l with queue := q, pendingFunctors := pendingFunctors } where
  good := hgood
  calling := by
    show q.callingExpiredTimers = true ↔ _
    rw [hcalling]
    exact h.calling
  rest := h.rest
  returned := by
    intro id hid
    show id.2 ≤ q.numCreated
    rw [hnum]
    exact h.returned id hid

/-- One step: no fault, and the invariant is kept. -/
theorem Sound.step (h : Sound l) {op : TimerOp} {r : Except Fault TimerLoop} (hstep : Step l op r) :
    ∃ l', r = .ok l' ∧ Sound l' := by
  cases hstep with
  | @newTimer a when interval hfree ha =>
      refine ⟨_, rfl, ?_, h.calling, h.rest, fun id hid => (h.returned id hid).trans (Nat.le_succ _)⟩
      have hnew := h.good.new hfree ha when interval
      refine hnew.perm ?_
      show (a :: (l.batch ++ (l.created ++ _))).Perm (l.batch ++ (l.created ++ [a] ++ _))
      rw [List.append_assoc l.created]
      refine List.Perm.trans List.perm_middle.symm (List.Perm.append_left _ ?_)
      exact List.perm_middle.symm
  | @queueAdd a ha =>
      refine ⟨_, rfl, ?_, h.calling, h.rest, ?_⟩
      · refine h.good.perm ((held_perm ha).trans ?_)
        show (a :: (l.batch ++ (l.created.erase a ++ _))).Perm
          (l.batch ++ (l.created.erase a
            ++ (l.pendingFunctors ++ [TimerFunctor.addTimerInLoop a]).filterMap TimerFunctor.added?))
        rw [List.filterMap_append, ← List.append_assoc (l.created.erase a),
          ← List.append_assoc l.batch (l.created.erase a ++ _)]
        exact (List.perm_append_singleton _ _).symm
      · exact h.returned_idOf ha
  | queueCancel =>
      refine ⟨_, rfl, ?_, h.calling, h.rest, h.returned⟩
      refine h.good.perm (List.Perm.of_eq ?_)
      simp [waiting, batch, TimerFunctor.added?]
  | @runAdd a ha huser =>
      obtain ⟨q, hadd, hgood, hcalling, hnum⟩ := (h.good.perm (held_perm ha)).added
      rw [hadd]
      refine ⟨_, rfl, hgood, ?_, h.rest, ?_⟩
      · show q.callingExpiredTimers = true ↔ _
        rw [hcalling]
        exact h.calling
      · show ∀ id ∈ l.returned ++ [idOf l.queue a], id.2 ≤ q.numCreated
        rw [hnum]
        exact h.returned_idOf ha
  | @runCancel id huser =>
      obtain ⟨q, hcancel, hgood, hcalling, hnum⟩ := h.good.cancelled id
      rw [hcancel]
      exact ⟨_, rfl, h.queue hgood hcalling hnum⟩
  | @runFunctor f rest hphase hpending =>
      have hbatch : l.batch = [] := by rw [batch, hphase]
      have hgood := h.good
      rw [hbatch, List.nil_append, waiting, hpending, filterMap_added?] at hgood
      have hleft : ∀ {q : TimerQueue}, Good q (l.created ++ rest.filterMap TimerFunctor.added?) →
          Good q (l.batch ++ (l.created ++ rest.filterMap TimerFunctor.added?)) := by
        intro q hq
        rw [hbatch]
        exact hq
      cases f with
      | addTimerInLoop a =>
          obtain ⟨q, hadd, hgood', hcalling, hnum⟩ := (hgood.perm List.perm_middle).added
          rw [TimerFunctor.run, hadd]
          exact ⟨_, rfl, h.queue (hleft hgood') hcalling hnum⟩
      | cancelInLoop id =>
          obtain ⟨q, hcancel, hgood', hcalling, hnum⟩ := hgood.cancelled id
          rw [TimerFunctor.run, hcancel]
          exact ⟨_, rfl, h.queue (hleft hgood') hcalling hnum⟩
  | @handleRead now hphase =>
      have hgood := h.good
      rw [batch, hphase, List.nil_append] at hgood
      obtain ⟨expired, q', hbegin, hgood', hcalling, -, hnum, -⟩ := hgood.beginBatch now
      rw [hbegin]
      refine ⟨_, rfl, hgood', ⟨fun _ => by simp, fun _ => hcalling⟩, ?_, ?_⟩
      · rintro _ _ _ ⟨⟩ e he
        exact he
      · intro id hid
        show id.2 ≤ q'.numCreated
        rw [hnum]
        exact h.returned id hid
  | @runCallback now expired rest e hphase =>
      have hin : e ∈ expired := h.rest _ _ _ hphase e List.mem_cons_self
      have hbatch : l.batch = expired.map Entry.timer := by rw [batch, hphase]
      obtain ⟨t, ht⟩ := h.good.alive e.timer
        (List.mem_append_left _ (by rw [hbatch]; exact List.mem_map_of_mem hin))
      rw [deref, ht]
      refine ⟨_, rfl, ?_, ⟨fun _ => by simp, fun _ => h.calling.mpr (by simp [hphase])⟩, ?_,
        h.returned⟩
      · have hgood := h.good
        rw [hbatch] at hgood
        exact hgood
      · rintro _ _ _ ⟨⟩ e' he'
        exact h.rest _ _ _ hphase e' (List.mem_cons_of_mem e he')
  | @reset now expired hphase =>
      have hgood := h.good
      rw [batch, hphase] at hgood
      obtain ⟨q', hend, hgood', hto⟩ := hgood.endBatch now
      rw [hend]
      refine ⟨_, rfl, hgood', ⟨?_, fun hne => absurd rfl hne⟩, by simp, ?_⟩
      · intro hcalling
        rw [show q'.callingExpiredTimers = false from hto.calling] at hcalling
        cases hcalling
      · intro id hid
        show id.2 ≤ q'.numCreated
        rw [show q'.numCreated = l.queue.numCreated from hto.numCreated]
        exact h.returned id hid

theorem Reachable.sound (h : Reachable l) : Sound l := by
  induction h with
  | refl => exact sound_init
  | tail _ hnext ih =>
      obtain ⟨op, hstep⟩ := hnext
      obtain ⟨l', hl', hsound⟩ := ih.step hstep
      cases hl'
      exact hsound

/-! ### The two sets agree -/

/-- What the two sets have to say about each other and about the timers. -/
structure Consistent (q : TimerQueue) : Prop where
  both : ∀ a t, q.heap a = some t →
    (toLex (t.expiration, a) ∈ q.timers ↔ (a, t.sequence) ∈ q.activeTimers)
  timers : ∀ e ∈ q.timers, ∃ t, q.heap e.timer = some t ∧ e.expiration = t.expiration
  active : ∀ id ∈ q.activeTimers, ∃ t, q.heap id.1 = some t ∧ id.2 = t.sequence

theorem Sound.consistent (h : Sound l) : Consistent l.queue where
  both := by
    intro a t ht
    constructor
    · intro hin
      obtain ⟨u, hu, -, hactive⟩ := h.good.timers _ hin
      have hu : l.queue.heap a = some u := hu
      rw [ht] at hu
      cases hu
      exact hactive
    · intro hin
      obtain ⟨u, hu, -, htimers⟩ := h.good.active _ hin
      have hu : l.queue.heap a = some u := hu
      rw [ht] at hu
      cases hu
      exact htimers
  timers := fun e he => by
    obtain ⟨t, ht, hexp, -⟩ := h.good.timers e he
    exact ⟨t, ht, hexp.symm⟩
  active := fun id hid => by
    obtain ⟨t, ht, hseq, -⟩ := h.good.active id hid
    exact ⟨t, ht, hseq.symm⟩

/-- No timer is deleted twice, and none that is still there. -/
def DeletedOnce (q : TimerQueue) : Prop :=
  q.deleted.Nodup ∧ ∀ a t, q.heap a = some t → t.sequence ∉ q.deleted

/-- `~TimerQueue` succeeds, and then every timer that is not still to be inserted has been
deleted once. -/
def Destroyed (l : TimerLoop) : Prop :=
  ∃ q', l.queue.destroy = .ok q' ∧ ∀ n, 0 < n → n ≤ l.queue.numCreated →
    q'.deleted.count n = 1 ∨ ∃ a ∈ l.waiting, ∃ t, q'.heap a = some t ∧ t.sequence = n

/-- **The two sets always agree**, in every run, whatever addresses `new` gives out again and
whatever the callbacks do: no step fails an assertion or touches a deleted timer, and each
timer is deleted once. -/
theorem timers_agree (h : Reachable l) :
    Consistent l.queue ∧ (∀ op r, Step l op r → ∃ l', r = .ok l') ∧ DeletedOnce l.queue ∧
      (l.phase = .outside → Destroyed l) := by
  have hsound := h.sound
  refine ⟨hsound.consistent, ?_, ⟨hsound.good.memory.nodup, hsound.good.memory.gone⟩, ?_⟩
  · intro op r hstep
    obtain ⟨l', hl', -⟩ := hsound.step hstep
    exact ⟨l', hl'⟩
  · intro hphase
    obtain ⟨q', hdestroy, hmemory, hnum, hleft⟩ := hsound.good.destroy
    refine ⟨q', hdestroy, fun n hpos hn => ?_⟩
    rcases hmemory.kept n hpos (by rw [hnum]; exact hn) with hdel | ⟨a, t, ht, hseq⟩
    · exact Or.inl (List.count_eq_one_of_mem hmemory.nodup hdel)
    · have hheld := hleft a t ht
      rw [batch, hphase, List.nil_append] at hheld
      exact Or.inr ⟨a, hheld, t, ht, hseq⟩

/-! ### A timer that has been cancelled -/

/-- `cancelInLoop(id)` is run. -/
def Cancels (id : TimerId) (l l' : TimerLoop) : Prop :=
  Step l (.runCancel id) (.ok l') ∨
    (∃ rest, l.pendingFunctors = .cancelInLoop id :: rest) ∧ Step l .runFunctor (.ok l')

/-- The callback of a timer is started. -/
def Starts (id : TimerId) (l l' : TimerLoop) : Prop :=
  Step l .runCallback (.ok l') ∧ ∃ now expired e rest,
    l.phase = .calling now expired (e :: rest) ∧ idOf l.queue e.timer = id

/-- The timer is where `cancelInLoop` does not look: it is still to be inserted, or it is in
the batch and its callback is still to be started. -/
def Missed (id : TimerId) (l : TimerLoop) : Prop :=
  (∃ a ∈ l.waiting, idOf l.queue a = id) ∨
    ∃ now expired rest, l.phase = .calling now expired rest ∧ ∃ e ∈ rest, idOf l.queue e.timer = id

/-- The timer is nowhere from where it could be started. -/
structure Dead (id : TimerId) (l : TimerLoop) : Prop where
  number : id.2 ≤ l.queue.numCreated
  active : id ∉ l.queue.activeTimers
  waiting : ∀ a ∈ l.waiting, idOf l.queue a ≠ id
  rest : ∀ now expired rest, l.phase = .calling now expired rest → ∀ e ∈ rest,
    idOf l.queue e.timer ≠ id
  batch : ∀ now expired rest, l.phase = .calling now expired rest → ∀ e ∈ expired,
    idOf l.queue e.timer = id → ∀ t, l.queue.heap e.timer = some t → t.repeats →
      id ∈ l.queue.cancelingTimers

theorem idOf_congr {q q' : TimerQueue} {a : Addr} (h : q'.heap a = q.heap a) :
    idOf q' a = idOf q a := by
  rw [idOf, idOf, h]

theorem idOf_of_heap {q : TimerQueue} {a : Addr} {t : Timer} (h : q.heap a = some t) :
    idOf q a = (a, t.sequence) := by
  rw [idOf, h]
  rfl

/-- Timers that others hold are not touched when one of the queue is deleted. -/
private theorem heap_withoutTimer {q : TimerQueue} {held : List Addr} {a b : Addr} {t : Timer}
    (h : Good q held) (hin : toLex (t.expiration, a) ∈ q.timers) (hb : b ∈ held) :
    (q.withoutTimer a t).heap b = q.heap b := by
  refine Function.update_of_ne ?_ _ _
  rintro rfl
  exact h.apart b hb _ hin rfl

/-- What is cancelled is not among the active timers afterwards, and those others hold and
their flags are as before, or the id is noted. -/
theorem cancelInLoop_spec {q q' : TimerQueue} {held : List Addr} (h : Good q held) {id : TimerId}
    (hcancel : q.cancelInLoop id = .ok q') :
    id ∉ q'.activeTimers ∧ q'.activeTimers ⊆ q.activeTimers ∧ q'.numCreated = q.numCreated ∧
      q.cancelingTimers ⊆ q'.cancelingTimers ∧ (∀ a ∈ held, q'.heap a = q.heap a) ∧
      ((∀ a ∈ held, idOf q a ≠ id) ∨
        (q.callingExpiredTimers = true → id ∈ q'.cancelingTimers)) := by
  rcases h.cancelInLoop_cases id with ⟨t, ht, hseq, hin, heq⟩ | ⟨hnot, heq⟩
  · rw [heq] at hcancel
    cases hcancel
    refine ⟨?_, Finset.erase_subset _ _, rfl, Finset.Subset.refl _,
      fun a ha => heap_withoutTimer h hin ha, Or.inl fun a ha hida => ?_⟩
    · rw [withoutTimer, hseq]
      exact Finset.notMem_erase _ _
    · have haddr : a = id.1 := congrArg Prod.fst hida
      exact h.apart a ha _ hin haddr.symm
  · rw [heq] at hcancel
    cases hcancel
    refine ⟨hnot, Finset.Subset.refl _, rfl, ?_, fun a _ => rfl, Or.inr fun hcalling => ?_⟩
    · show q.cancelingTimers ⊆ if _ then _ else _
      split
      · exact Finset.subset_insert _ _
      · exact Finset.Subset.refl _
    · show id ∈ if _ then _ else _
      rw [if_pos hcalling]
      exact Finset.mem_insert_self ..

/-- The timers that others hold, by their two kinds. -/
theorem mem_held (h : Sound l) :
    (∀ a ∈ l.waiting, a ∈ l.batch ++ l.waiting) ∧
      (∀ now expired rest, l.phase = .calling now expired rest →
        (∀ e ∈ expired, e.timer ∈ l.batch ++ l.waiting) ∧ ∀ e ∈ rest, e ∈ expired) := by
  refine ⟨fun a ha => List.mem_append_right _ ha, fun now expired rest hphase => ⟨fun e he => ?_, ?_⟩⟩
  · rw [batch, hphase]
    exact List.mem_append_left _ (List.mem_map_of_mem he)
  · exact h.rest now expired rest hphase

/-- Cancelling a timer that is not missed. -/
theorem dead_cancelInLoop (h : Sound l) {id : TimerId} (hnum : id.2 ≤ l.queue.numCreated)
    (hmissed : ¬ Missed id l) {q : TimerQueue} (hcancel : l.queue.cancelInLoop id = .ok q) :
    Dead id { l with queue := q } := by
  obtain ⟨hactive, -, hnum', -, hheap, hnoted⟩ := cancelInLoop_spec h.good hcancel
  obtain ⟨hwait, hcalling⟩ := mem_held h
  refine ⟨by rw [← hnum'] at hnum; exact hnum, hactive, ?_, ?_, ?_⟩
  · intro a ha hida
    rw [idOf_congr (hheap a (hwait a ha))] at hida
    exact hmissed (Or.inl ⟨a, ha, hida⟩)
  · intro now expired rest hphase e he hide
    obtain ⟨hexp, hrest⟩ := hcalling now expired rest hphase
    rw [idOf_congr (hheap _ (hexp e (hrest e he)))] at hide
    exact hmissed (Or.inr ⟨now, expired, rest, hphase, e, he, hide⟩)
  · intro now expired rest hphase e he hide t ht hrep
    obtain ⟨hexp, -⟩ := hcalling now expired rest hphase
    rw [idOf_congr (hheap _ (hexp e he))] at hide
    rcases hnoted with hnone | hnoted
    · exact absurd hide (hnone _ (hexp e he))
    · exact hnoted (h.calling.mpr (by rw [show l.phase = _ from hphase]; nofun))

/-- What others hold is not touched, and there is not more of it. -/
private theorem Dead.of_held {id : TimerId} {l' : TimerLoop} (hd : Dead id l) (h : Sound l)
    (hphase : l'.phase = l.phase) (hwaiting : l'.waiting ⊆ l.waiting)
    (hnum : l'.queue.numCreated = l.queue.numCreated) (hactive : id ∉ l'.queue.activeTimers)
    (hcanceling : l.queue.cancelingTimers ⊆ l'.queue.cancelingTimers)
    (hheap : ∀ a ∈ l.batch ++ l.waiting, l'.queue.heap a = l.queue.heap a) : Dead id l' := by
  obtain ⟨hwait, hcalling⟩ := mem_held h
  refine ⟨hnum ▸ hd.number, hactive, ?_, ?_, ?_⟩
  · intro a ha
    rw [idOf_congr (hheap a (hwait a (hwaiting ha)))]
    exact hd.waiting a (hwaiting ha)
  · intro now expired rest hcall e he
    rw [hphase] at hcall
    obtain ⟨hexp, hrest⟩ := hcalling now expired rest hcall
    rw [idOf_congr (hheap _ (hexp e (hrest e he)))]
    exact hd.rest now expired rest hcall e he
  · intro now expired rest hcall e he hide t ht hrep
    rw [hphase] at hcall
    obtain ⟨hexp, -⟩ := hcalling now expired rest hcall
    have hsame := hheap _ (hexp e he)
    rw [idOf_congr hsame] at hide
    exact hcanceling (hd.batch now expired rest hcall e he hide t (hsame.symm.trans ht) hrep)

/-- Inserting a timer that waited to be. -/
private theorem Dead.of_insert {id : TimerId} {l' : TimerLoop} {a : Addr} {t : Timer}
    {fd : Option Timestamp} (hd : Dead id l) (h : Sound l) (hphase : l'.phase = l.phase)
    (hwaiting : l'.waiting ⊆ l.waiting) (ha : a ∈ l.waiting) (ht : l.queue.heap a = some t)
    (hqueue : l'.queue = { l.queue.withTimer a t with timerfd := fd }) : Dead id l' := by
  refine hd.of_held h hphase hwaiting (by rw [hqueue]; rfl) ?_ (by rw [hqueue]; exact Finset.Subset.refl _)
    fun b _ => by rw [hqueue]; rfl
  rw [hqueue]
  intro hin
  rcases Finset.mem_insert.mp hin with heq | hin
  · exact hd.waiting a ha (by rw [idOf_of_heap ht, heq])
  · exact hd.active hin

/-- A new timer has an address that was free and a number that was not given out yet. -/
private theorem Dead.newTimer {id : TimerId} (hd : Dead id l) (h : Sound l) {a : Addr}
    {when : Timestamp} {interval : ℚ} (hfree : l.queue.heap a = none) :
    Dead id { l with queue := l.queue.new a when interval, created := l.created ++ [a] } := by
  have hwait := (mem_held h).1
  have hheap : ∀ b ∈ l.batch ++ l.waiting, (l.queue.new a when interval).heap b = l.queue.heap b := by
    intro b hb
    obtain ⟨t, ht⟩ := h.good.alive b hb
    refine Function.update_of_ne ?_ _ _
    rintro rfl
    rw [hfree] at ht
    cases ht
  refine ⟨hd.number.trans (Nat.le_succ _), hd.active, ?_, ?_, ?_⟩
  · intro b hb
    by_cases hold : b ∈ l.waiting
    · rw [idOf_congr (hheap b (hwait b hold))]
      exact hd.waiting b hold
    · have hba : b = a := by
        simp only [TimerLoop.waiting, List.mem_append, List.mem_singleton] at hb hold
        tauto
      subst hba
      rw [idOf_of_heap (Function.update_self ..)]
      intro heq
      have hseq : l.queue.numCreated + 1 = id.2 := congrArg Prod.snd heq
      have := hd.number
      omega
  · intro now expired rest hphase e he
    obtain ⟨hexp, hrest⟩ := (mem_held h).2 now expired rest hphase
    rw [idOf_congr (hheap _ (hexp e (hrest e he)))]
    exact hd.rest now expired rest hphase e he
  · intro now expired rest hphase e he hide t ht hrep
    have hsame := hheap _ (((mem_held h).2 now expired rest hphase).1 e he)
    rw [idOf_congr hsame] at hide
    exact hd.batch now expired rest hphase e he hide t (hsame.symm.trans ht) hrep

private theorem Dead.runFunctor {id : TimerId} (hd : Dead id l) (h : Sound l) {f : TimerFunctor}
    {rest : List TimerFunctor} (hpending : l.pendingFunctors = f :: rest) {l' : TimerLoop}
    (hr : (f.run l.queue).map (fun q => { l with queue := q, pendingFunctors := rest }) = .ok l') :
    Dead id l' := by
  have hwait := (mem_held h).1
  have hrest : l.created ++ rest.filterMap TimerFunctor.added? ⊆ l.waiting := by
    rw [TimerLoop.waiting, hpending, filterMap_added?]
    exact List.append_subset.mpr ⟨List.subset_append_left _ _,
      fun b hb => List.mem_append_right _ (List.mem_append_right _ hb)⟩
  cases f with
  | addTimerInLoop a =>
      have hin : a ∈ l.waiting := by simp [TimerLoop.waiting, hpending, TimerFunctor.added?]
      obtain ⟨t, ht⟩ := h.good.alive a (hwait a hin)
      have hperm : (l.batch ++ l.waiting).Perm
          (a :: (l.batch ++ (l.created ++ rest.filterMap TimerFunctor.added?))) := by
        rw [TimerLoop.waiting, hpending, filterMap_added?]
        exact (List.Perm.append_left _ List.perm_middle).trans List.perm_middle
      obtain ⟨fd, hadd⟩ := (h.good.perm hperm).addTimerInLoop ht
      rw [TimerFunctor.run, hadd] at hr
      cases hr
      exact hd.of_insert h rfl hrest hin ht rfl
  | cancelInLoop id' =>
      obtain ⟨q, hcancel, -⟩ := h.good.cancelled id'
      rw [TimerFunctor.run, hcancel] at hr
      cases hr
      obtain ⟨-, hsub, hnum, hcanceling, hheap, -⟩ := cancelInLoop_spec h.good hcancel
      exact hd.of_held h rfl hrest hnum (fun hin => hd.active (hsub hin)) hcanceling hheap

/-- A repeating timer whose number has been noted is not inserted again. -/
private theorem Dead.reset {id : TimerId} (hd : Dead id l) (h : Sound l) {now : Timestamp}
    {expired : List Entry} (hphase : l.phase = .calling now expired []) {l' : TimerLoop}
    (hr : (l.queue.endBatch expired now).map (fun q => { l with queue := q, phase := .outside })
      = .ok l') : Dead id l' := by
  have hgood := h.good
  rw [TimerLoop.batch, hphase] at hgood
  obtain ⟨q', hend, hgood', hto⟩ := hgood.endBatch now
  rw [hend] at hr
  cases hr
  refine ⟨?_, ?_, ?_, nofun, nofun⟩
  · show id.2 ≤ q'.numCreated
    rw [hto.numCreated]
    exact hd.number
  · intro hin
    rcases hto.active id hin with hin | ⟨e, he, t, ht, hide, hrep, hnot⟩
    · exact hd.active hin
    · have ht : l.queue.heap e.timer = some t := ht
      exact hnot (hd.batch _ _ _ hphase e he (by rw [idOf_of_heap ht, hide]) t ht hrep)
  · intro a ha
    obtain ⟨t', ht'⟩ := hgood'.alive a ha
    obtain ⟨t, ht, hseq, -⟩ := hto.heap a t' ht'
    have ht : l.queue.heap a = some t := ht
    have hid := hd.waiting a ha
    rw [idOf_of_heap ht, hseq] at hid
    show idOf q' a ≠ id
    rwa [idOf_of_heap ht']

/-- A step never brings a dead timer back. -/
theorem Dead.step {id : TimerId} (hd : Dead id l) (h : Sound l) {op : TimerOp}
    {r : Except Fault TimerLoop} (hstep : Step l op r) {l' : TimerLoop} (hr : r = .ok l') :
    Dead id l' := by
  have hwait := (mem_held h).1
  cases hstep with
  | newTimer hfree ha =>
      cases hr
      exact hd.newTimer h hfree
  | @queueAdd a ha =>
      cases hr
      refine hd.of_held h rfl ?_ rfl hd.active (Finset.Subset.refl _) fun _ _ => rfl
      intro b hb
      simp only [TimerLoop.waiting, List.mem_append, List.filterMap_append, List.filterMap_cons,
        TimerFunctor.added?, List.filterMap_nil, List.mem_singleton] at hb ⊢
      rcases hb with hb | hb | rfl
      · exact Or.inl (List.mem_of_mem_erase hb)
      · exact Or.inr hb
      · exact Or.inl ha
  | queueCancel =>
      cases hr
      refine hd.of_held h rfl ?_ rfl hd.active (Finset.Subset.refl _) fun _ _ => rfl
      intro b hb
      simpa [TimerLoop.waiting, TimerFunctor.added?] using hb
  | @runAdd a ha huser =>
      have hin : a ∈ l.waiting := List.mem_append_left _ ha
      obtain ⟨t, ht⟩ := h.good.alive a (hwait a hin)
      obtain ⟨fd, hadd⟩ := (h.good.perm (held_perm ha)).addTimerInLoop ht
      rw [hadd] at hr
      cases hr
      refine hd.of_insert h rfl ?_ hin ht rfl
      exact List.append_subset.mpr ⟨fun b hb => List.mem_append_left _ (List.mem_of_mem_erase hb),
        List.subset_append_right _ _⟩
  | @runCancel id' huser =>
      obtain ⟨q, hcancel, -⟩ := h.good.cancelled id'
      rw [hcancel] at hr
      cases hr
      obtain ⟨-, hsub, hnum, hcanceling, hheap, -⟩ := cancelInLoop_spec h.good hcancel
      exact hd.of_held h rfl (List.Subset.refl _) hnum (fun hin => hd.active (hsub hin)) hcanceling hheap
  | runFunctor hphase hpending => exact hd.runFunctor h hpending hr
  | @handleRead now hphase =>
      obtain ⟨expired, q', hbegin, -, -, hheap, hnum, -, hsub, htimers, -⟩ := h.good.beginBatch now
      rw [hbegin] at hr
      cases hr
      have hnot : ∀ e ∈ expired, idOf q' e.timer ≠ id := by
        intro e he hide
        obtain ⟨t, ht, -, hactive⟩ := h.good.timers e (htimers e he)
        rw [idOf_congr (congrFun hheap _), idOf_of_heap ht] at hide
        exact hd.active (hide ▸ hactive)
      refine ⟨hnum ▸ hd.number, fun hin => hd.active (hsub hin), ?_, ?_, ?_⟩
      · intro a ha
        rw [idOf_congr (congrFun hheap a)]
        exact hd.waiting a ha
      · rintro _ _ _ ⟨⟩ e he
        exact hnot e he
      · rintro _ _ _ ⟨⟩ e he hide
        exact absurd hide (hnot e he)
  | @runCallback now expired rest e hphase =>
      obtain ⟨t, ht⟩ : ∃ t, l.queue.deref e.timer = .ok t := by
        cases hderef : l.queue.deref e.timer with
        | ok t => exact ⟨t, rfl⟩
        | error f =>
            rw [hderef] at hr
            cases hr
      rw [ht] at hr
      cases hr
      refine ⟨hd.number, hd.active, hd.waiting, ?_, ?_⟩
      · rintro _ _ _ ⟨⟩ e' he'
        exact hd.rest _ _ _ hphase e' (List.mem_cons_of_mem e he')
      · rintro _ _ _ ⟨⟩ e' he'
        exact hd.batch _ _ _ hphase e' he'
  | reset hphase => exact hd.reset h hphase hr

theorem Dead.run {id : TimerId} {l' : TimerLoop} (hd : Dead id l) (h : Sound l)
    (hrun : Relation.ReflTransGen Next l l') : Dead id l' := by
  have hboth : Dead id l' ∧ Sound l' := by
    induction hrun with
    | refl => exact ⟨hd, h⟩
    | tail _ hnext ih =>
        obtain ⟨op, hstep⟩ := hnext
        refine ⟨ih.1.step ih.2 hstep rfl, ?_⟩
        obtain ⟨l'', hl'', hsound⟩ := ih.2.step hstep
        cases hl''
        exact hsound
  exact hboth.1

/-- The cancellation of a timer that it does not miss. -/
theorem Cancels.dead {id : TimerId} {l' : TimerLoop} (hcancel : Cancels id l l') (h : Sound l)
    (hnum : id.2 ≤ l.queue.numCreated) (hmissed : ¬ Missed id l) : Dead id l' := by
  obtain ⟨q, hq, -⟩ := h.good.cancelled id
  have hd := dead_cancelInLoop h hnum hmissed hq
  rcases hcancel with hstep | ⟨⟨rest, hpending⟩, hstep⟩
  · generalize hr : Except.ok l' = r at hstep
    cases hstep with
    | runCancel huser =>
        rw [hq] at hr
        cases hr
        exact hd
  · generalize hr : Except.ok l' = r at hstep
    cases hstep with
    | @runFunctor f rest' hphase hpending' =>
        rw [hpending] at hpending'
        cases hpending'
        rw [TimerFunctor.run, hq] at hr
        cases hr
        refine ⟨hd.number, hd.active, fun a ha => hd.waiting a ?_, hd.rest, hd.batch⟩
        show a ∈ l.created ++ _
        rw [hpending, filterMap_added?]
        exact ha

/-- **A cancelled timer is never started**, in any run in which it is not missed by its
cancellation. -/
theorem cancel_final {l₀ l₁ l₂ l₃ : TimerLoop} {id : TimerId} (h : Reachable l₀)
    (hid : id ∈ l₀.returned) (hcancel : Cancels id l₀ l₁) (hmissed : ¬ Missed id l₀)
    (hrun : Relation.ReflTransGen Next l₁ l₂) : ¬ Starts id l₂ l₃ := by
  have hsound := h.sound
  have hnext : Next l₀ l₁ := by
    rcases hcancel with hstep | ⟨-, hstep⟩
    · exact ⟨_, hstep⟩
    · exact ⟨_, hstep⟩
  have hsound₁ : Sound l₁ := Reachable.sound (h.tail hnext)
  have hdead := hcancel.dead hsound (hsound.returned id hid) hmissed
  rintro ⟨-, now, expired, e, rest, hphase, hide⟩
  exact (hdead.run hsound₁ hrun).rest now expired (e :: rest) hphase e List.mem_cons_self hide

/-! ### Two short runs -/

/-- Another thread's `addTimer` of a timer that is due has returned; the timer is not inserted. -/
def lateLoop : TimerLoop :=
  ⟨init.queue.new 1 0 0, .outside, [], [.addTimerInLoop 1], [(1, 1)]⟩

theorem reachable_lateLoop : Reachable lateLoop := by
  have hnew : Next init ⟨init.queue.new 1 0 0, .outside, [1], [], []⟩ :=
    ⟨_, .newTimer (l := init) rfl (by decide)⟩
  have hadd : Next ⟨init.queue.new 1 0 0, .outside, [1], [], []⟩ lateLoop :=
    ⟨_, .queueAdd (l := ⟨init.queue.new 1 0 0, .outside, [1], [], []⟩) (List.mem_singleton_self 1)⟩
  exact (Relation.ReflTransGen.refl.tail hnew).tail hadd

theorem timers_agree_lateLoop :
    Consistent lateLoop.queue ∧ (∀ op r, Step lateLoop op r → ∃ l', r = .ok l') ∧
      DeletedOnce lateLoop.queue ∧ (lateLoop.phase = .outside → Destroyed lateLoop) :=
  timers_agree reachable_lateLoop

/-- The loop thread inserts the timer, with nothing in front of it. -/
theorem lateLoop_inserts : ∃ q, Next lateLoop ⟨q, .outside, [], [], [(1, 1)]⟩ ∧
    q.heap 1 = some ⟨0, 0, 1⟩ ∧ q.timers = {toLex (0, 1)} := by
  have hgood : Good lateLoop.queue [1] := reachable_lateLoop.sound.good
  have hheap : lateLoop.queue.heap 1 = some ⟨0, 0, 1⟩ := rfl
  obtain ⟨fd, hadd⟩ := hgood.addTimerInLoop hheap
  have hpending : lateLoop.pendingFunctors = [.addTimerInLoop 1] := rfl
  have hstep := Step.runFunctor rfl hpending
  rw [TimerFunctor.run, hadd] at hstep
  exact ⟨_, ⟨.runFunctor, hstep⟩, rfl, rfl⟩

/-- The loop thread cancels the timer whose insertion is still queued: nothing happens, and the
timer is inserted and started. -/
theorem cancelled_timer_starts :
    Reachable lateLoop ∧ (1, 1) ∈ lateLoop.returned ∧ Cancels (1, 1) lateLoop lateLoop ∧
      ∃ l₂ l₃, Relation.ReflTransGen Next lateLoop l₂ ∧ Starts (1, 1) l₂ l₃ := by
  refine ⟨reachable_lateLoop, List.mem_singleton_self _, Or.inl (.runCancel trivial), ?_⟩
  obtain ⟨q, hinsert, hheap, htimers⟩ := lateLoop_inserts
  set l₁ : TimerLoop := ⟨q, .outside, [], [], [(1, 1)]⟩
  have hsound : Sound l₁ := Reachable.sound (reachable_lateLoop.tail hinsert)
  obtain ⟨expired, q', hbegin, hgood', -, hheap', -, -, -, hfrom, hdue⟩ := hsound.good.beginBatch 0
  have hmem : (toLex (0, 1) : Entry) ∈ expired := by
    refine hdue _ ?_ (by decide)
    show _ ∈ q.timers
    rw [htimers]
    exact Finset.mem_singleton_self _
  obtain ⟨e, rest, hexpired⟩ : ∃ (e : Entry) (rest : List Entry), expired = e :: rest :=
    List.exists_cons_of_ne_nil (List.ne_nil_of_mem hmem)
  have he : e = toLex (0, 1) := by
    have hin : e ∈ q.timers := hfrom e (by rw [hexpired]; exact List.mem_cons_self)
    rw [htimers] at hin
    exact Finset.mem_singleton.mp hin
  have hheap₁ : q'.heap e.timer = some ⟨0, 0, 1⟩ := by
    rw [hheap', he]
    exact hheap
  set l₂ : TimerLoop := ⟨q', .calling 0 expired expired, [], [], [(1, 1)]⟩
  have hbatch : Next l₁ l₂ := by
    refine ⟨.handleRead 0, ?_⟩
    have hphase : l₁.phase = .outside := rfl
    have hstep : Step l₁ (.handleRead 0) _ := Step.handleRead hphase
    rw [hbegin] at hstep
    exact hstep
  have hphase : l₂.phase = .calling 0 expired (e :: rest) := by rw [← hexpired]
  have hstart := Step.runCallback hphase
  rw [deref, hheap₁] at hstart
  refine ⟨l₂, _, (Relation.ReflTransGen.refl.tail hinsert).tail hbatch, hstart, 0, expired, e, rest,
    hphase, ?_⟩
  rw [idOf_of_heap hheap₁, he]
  rfl

/-- The same timer, cancelled when it has been inserted, is never started. -/
theorem cancel_final_lateLoop : ∃ l₀ l₁, Reachable l₀ ∧ (1, 1) ∈ l₀.returned ∧ Cancels (1, 1) l₀ l₁ ∧
    ¬ Missed (1, 1) l₀ ∧ ∀ l₂ l₃, Relation.ReflTransGen Next l₁ l₂ → ¬ Starts (1, 1) l₂ l₃ := by
  obtain ⟨q, hinsert, -, -⟩ := lateLoop_inserts
  set l₀ : TimerLoop := ⟨q, .outside, [], [], [(1, 1)]⟩
  have hreach : Reachable l₀ := reachable_lateLoop.tail hinsert
  have hmissed : ¬ Missed (1, 1) l₀ := by
    rintro (⟨a, ha, -⟩ | ⟨now, expired, rest, hphase, -⟩)
    · cases ha
    · cases hphase
  have hstep : Step l₀ (.runCancel (1, 1)) _ := .runCancel trivial
  obtain ⟨l₁, hl₁, -⟩ := hreach.sound.step hstep
  rw [hl₁] at hstep
  have hid : (1, 1) ∈ l₀.returned := List.mem_singleton_self _
  exact ⟨l₀, l₁, hreach, hid, Or.inl hstep, hmissed,
    fun l₂ l₃ hrun => cancel_final hreach hid (Or.inl hstep) hmissed hrun⟩

end TimerLoop

end Net
