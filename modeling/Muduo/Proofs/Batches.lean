/-
A batch of timers, from `getExpired` to `reset`.

While the callbacks are run, the timers of the batch are out of both sets and in the hands of
`handleRead`.  So nothing that a callback does reaches them: a cancellation only notes their
ids, which `reset` looks up.  A timer that is not due stays where it is, unless it is
cancelled.

What callbacks add may be due already; it waits for the next batch.
-/
import Muduo.Proofs.Arming

namespace Net

open TimerQueue
open Lib (bind_ok map_ok)

/-! ### Where a timer is -/

/-- The timer at an address is in both sets. -/
structure InBoth (q : TimerQueue) (a : Addr) (t : Timer) : Prop where
  heap : q.heap a = some t
  timers : toLex (t.expiration, a) ∈ q.timers
  active : (a, t.sequence) ∈ q.activeTimers

/-- Neither set has a timer at an address. -/
structure InNeither (q : TimerQueue) (a : Addr) : Prop where
  timers : ∀ e ∈ q.timers, e.timer ≠ a
  active : ∀ id ∈ q.activeTimers, id.1 ≠ a

variable {q q' : TimerQueue} {held : List Addr} {a : Addr} {t : Timer}

theorem Good.inBoth (h : Good q held) (ht : q.heap a = some t)
    (hin : toLex (t.expiration, a) ∈ q.timers) : InBoth q a t := by
  obtain ⟨u, hu, -, hactive⟩ := h.timers _ hin
  have hu : q.heap a = some u := hu
  rw [ht] at hu
  cases hu
  exact ⟨ht, hin, hactive⟩

theorem Good.inNeither (h : Good q held) (ha : q.heap a = none) : InNeither q a := by
  refine ⟨fun e he hea => ?_, fun id hid hida => ?_⟩
  · obtain ⟨t, ht, -⟩ := h.timers e he
    rw [hea, ha] at ht
    cases ht
  · obtain ⟨t, ht, -⟩ := h.active id hid
    rw [hida, ha] at ht
    cases ht

/-! ### What is due -/

/-- What comes before `(now, UINTPTR_MAX)` is what is due. -/
theorem Good.lt_sentry_iff (h : Good q held) {now : Timestamp} {e : Entry} (he : e ∈ q.timers) :
    e < toLex (now, UINTPTR_MAX) ↔ e.expiration ≤ now := by
  constructor
  · intro hlt
    exact Entry.expiration_mono (le_of_lt hlt)
  · intro hle
    by_contra hlate
    exact absurd (h.not_due he hlate) (not_lt.mpr hle)

/-- A batch in its order, and what it leaves. -/
theorem beginBatch_split {now : Timestamp} {expired : List Entry}
    (h : q.beginBatch now = .ok (expired, q')) :
    expired = (q.timers.filter fun e => e < toLex (now, UINTPTR_MAX)).sort ∧
      q'.timers = (q.timers.filter fun e => ¬ e < toLex (now, UINTPTR_MAX)) ∧
      q'.cancelingTimers = ∅ := by
  unfold TimerQueue.beginBatch at h
  obtain ⟨⟨es, q₁⟩, hget, h⟩ := bind_ok h
  cases h
  unfold TimerQueue.getExpired at hget
  obtain ⟨-, -, hget⟩ := bind_ok hget
  obtain ⟨-, -, hget⟩ := bind_ok hget
  obtain ⟨q₂, hfold, hget⟩ := bind_ok hget
  obtain ⟨-, -, hget⟩ := bind_ok hget
  cases hget
  obtain ⟨htimers, -⟩ := deactivate_all_ok hfold
  exact ⟨rfl, htimers, rfl⟩

/-- The batch is what is due, in the order of the set. -/
theorem Good.expired_iff (h : Good q held) {now : Timestamp} {expired : List Entry}
    (hbegin : q.beginBatch now = .ok (expired, q')) :
    expired.Pairwise (· < ·) ∧ (∀ e, e ∈ expired ↔ e ∈ q.timers ∧ e.expiration ≤ now) ∧
      ∀ e ∈ q.timers, now < e.expiration → e ∈ q'.timers := by
  obtain ⟨rfl, hrest, -⟩ := beginBatch_split hbegin
  refine ⟨Finset.sortedLT_sort _ |>.pairwise, fun e => ?_, fun e he hlate => ?_⟩
  · rw [Finset.mem_sort, Finset.mem_filter]
    exact and_congr_right fun he => h.lt_sentry_iff he
  · rw [hrest, Finset.mem_filter]
    refine ⟨he, fun hlt => ?_⟩
    exact absurd ((h.lt_sentry_iff he).mp hlt) (not_le.mpr hlate)

/-! ### What `reset` makes of a batch -/

/-- Whether a timer of the batch is started again. -/
def Again (q : TimerQueue) (a : Addr) (t : Timer) : Prop :=
  t.repeats ∧ (a, t.sequence) ∉ q.cancelingTimers

/-- The timers of the batch are started again or deleted, and the others stay. -/
structure Renewed (now : Timestamp) (expired : List Entry) (q q' : TimerQueue) : Prop where
  canceling : q'.cancelingTimers = q.cancelingTimers
  timers : q.timers ⊆ q'.timers
  others : ∀ a ∉ expired.map Entry.timer, q'.heap a = q.heap a
  again : ∀ e ∈ expired, ∀ t, q.heap e.timer = some t → Again q e.timer t →
    q'.heap e.timer = some (t.restart now)
  ended : ∀ e ∈ expired, ∀ t, q.heap e.timer = some t → ¬ Again q e.timer t →
    q'.heap e.timer = none

theorem resetOne_renewed {now : Timestamp} {e : Entry} (h : q.resetOne now e = .ok q') :
    Renewed now [e] q q' := by
  unfold TimerQueue.resetOne at h
  obtain ⟨t, ht, h⟩ := bind_ok h
  have hheap : q.heap e.timer = some t := deref_ok ht
  have hsame : ∀ (o : Option Timer), ∀ a ∉ [e].map Entry.timer,
      Function.update q.heap e.timer o a = q.heap a := by
    intro o a ha
    refine Function.update_of_ne ?_ _ _
    rintro rfl
    exact ha (List.mem_singleton_self _)
  by_cases hagain : t.repeats ∧ (e.timer, t.sequence) ∉ q.cancelingTimers
  · rw [if_pos hagain] at h
    obtain ⟨⟨earliestChanged, q₁⟩, hinsert, h⟩ := bind_ok h
    cases h
    obtain ⟨u, -, rfl, -⟩ := insert_ok hinsert
    refine ⟨rfl, Finset.subset_insert _ _, hsame _, fun e' he' t' ht' _ => ?_,
      fun e' he' t' ht' hnot => ?_⟩
    · rw [List.mem_singleton.mp he'] at ht' ⊢
      rw [hheap] at ht'
      cases ht'
      exact Function.update_self ..
    · rw [List.mem_singleton.mp he'] at ht' hnot
      rw [hheap] at ht'
      cases ht'
      exact absurd hagain hnot
  · rw [if_neg hagain] at h
    rw [TimerQueue.delete, hheap] at h
    cases h
    refine ⟨rfl, Finset.Subset.refl _, hsame _, fun e' he' t' ht' hyes => ?_,
      fun e' he' t' _ _ => ?_⟩
    · rw [List.mem_singleton.mp he'] at ht' hyes
      rw [hheap] at ht'
      cases ht'
      exact absurd hyes hagain
    · rw [List.mem_singleton.mp he']
      exact Function.update_self ..

/-- No timer is twice in a batch, so the rest of it leaves the first alone. -/
theorem Renewed.cons {now : Timestamp} {e : Entry} {es : List Entry} {q₁ q₂ q₃ : TimerQueue}
    (h : Renewed now [e] q₁ q₂) (h' : Renewed now es q₂ q₃)
    (hnot : e.timer ∉ es.map Entry.timer) : Renewed now (e :: es) q₁ q₃ := by
  have hfirst : q₃.heap e.timer = q₂.heap e.timer := h'.others _ hnot
  have hrest : ∀ e' ∈ es, q₂.heap e'.timer = q₁.heap e'.timer := by
    intro e' he'
    refine h.others _ fun hmem => ?_
    rw [List.map_singleton, List.mem_singleton] at hmem
    exact hnot (hmem ▸ List.mem_map_of_mem he')
  have hagain : ∀ a t, Again q₂ a t ↔ Again q₁ a t := by
    intro a t
    rw [Again, Again, h.canceling]
  refine ⟨h'.canceling.trans h.canceling, h.timers.trans h'.timers, fun a ha => ?_,
    fun e' he' t ht hyes => ?_, fun e' he' t ht hno => ?_⟩
  · rw [List.map_cons, List.mem_cons, not_or] at ha
    rw [h'.others a ha.2]
    exact h.others a (by rw [List.map_singleton, List.mem_singleton]; exact ha.1)
  · rcases List.mem_cons.mp he' with rfl | he'
    · rw [hfirst]
      exact h.again _ (List.mem_singleton_self _) t ht hyes
    · exact h'.again e' he' t ((hrest e' he').trans ht) ((hagain _ _).mpr hyes)
  · rcases List.mem_cons.mp he' with rfl | he'
    · rw [hfirst]
      exact h.ended _ (List.mem_singleton_self _) t ht hno
    · exact h'.ended e' he' t ((hrest e' he').trans ht) (mt (hagain _ _).mp hno)

theorem resetAll_renewed {now : Timestamp} : ∀ {es : List Entry} {q q' : TimerQueue},
    (es.map Entry.timer).Nodup → es.foldlM (TimerQueue.resetOne now) q = .ok q' →
    Renewed now es q q' := by
  intro es
  induction es with
  | nil =>
      intro q q' _ h
      cases h
      exact ⟨rfl, Finset.Subset.refl _, fun _ _ => rfl, nofun, nofun⟩
  | cons e es ih =>
      intro q q' hnodup h
      obtain ⟨hnot, hnodup⟩ := List.nodup_cons.mp hnodup
      rw [List.foldlM_cons] at h
      obtain ⟨q₁, hone, h⟩ := bind_ok h
      exact (resetOne_renewed hone).cons (ih hnodup h) hnot

theorem endBatch_renewed {now : Timestamp} {expired : List Entry}
    (hnodup : (expired.map Entry.timer).Nodup) (h : q.endBatch expired now = .ok q') :
    Renewed now expired q q' := by
  unfold TimerQueue.endBatch TimerQueue.reset at h
  obtain ⟨q₁, hfold, h⟩ := bind_ok h
  obtain ⟨hcanceling, htimers, hothers, hagain, hended⟩ := resetAll_renewed hnodup hfold
  have hfd : ∃ fd, q' = { q₁ with timerfd := fd } := by
    cases hfirst : first? q₁.timers with
    | none =>
        simp only [hfirst] at h
        cases h
        exact ⟨_, rfl⟩
    | some e =>
        simp only [hfirst] at h
        obtain ⟨t, -, h⟩ := bind_ok h
        by_cases hvalid : 0 < t.expiration
        · rw [if_pos hvalid] at h
          cases h
          exact ⟨_, rfl⟩
        · rw [if_neg hvalid] at h
          cases h
          exact ⟨_, rfl⟩
  obtain ⟨fd, rfl⟩ := hfd
  exact ⟨hcanceling, htimers, hothers, hagain, hended⟩

namespace TimerLoop

variable {l l' : TimerLoop}

/-! ### The callbacks of a batch -/

/-- The entry whose callback a step starts. -/
def startedBy (l : TimerLoop) (op : TimerOp) : List Entry :=
  match op, l.phase with
  | .runCallback, .calling _ _ (e :: _) => [e]
  | _, _ => []

/-- What the threads do from a state on until `reset`, with the entries whose callbacks have
been started. -/
inductive Calls (l₀ : TimerLoop) : List TimerOp → List Entry → TimerLoop → Prop
  | none : Calls l₀ [] [] l₀
  | step {ops : List TimerOp} {started : List Entry} {l l' : TimerLoop} {op : TimerOp}
      (h : Calls l₀ ops started l) (hop : op ≠ .reset) (hstep : Step l op (.ok l')) :
      Calls l₀ (ops ++ [op]) (started ++ startedBy l op) l'

/-- What holds while the callbacks of a batch are run: `q₀` is the queue at its entry. -/
structure InBatch (q₀ : TimerQueue) (now : Timestamp) (expired : List Entry) (ops : List TimerOp)
    (started : List Entry) (l : TimerLoop) : Prop where
  phase : ∃ rest, started ++ rest = expired ∧ l.phase = .calling now expired rest
  heap : ∀ e ∈ expired, l.queue.heap e.timer = q₀.heap e.timer
  noted : ∀ e ∈ expired, ∀ t, q₀.heap e.timer = some t →
    ((e.timer, t.sequence) ∈ l.queue.cancelingTimers ↔ .runCancel (e.timer, t.sequence) ∈ ops)
  kept : ∀ a t, InBoth q₀ a t → now < t.expiration → .runCancel (a, t.sequence) ∉ ops →
    l.queue.heap a = some t ∧ toLex (t.expiration, a) ∈ l.queue.timers

variable {q₀ : TimerQueue} {now : Timestamp} {expired started : List Entry} {ops : List TimerOp}
  {op : TimerOp}

theorem startedBy_of_ne (hop : op ≠ .runCallback) : startedBy l op = [] := by
  cases op with
  | runCallback => exact absurd rfl hop
  | newTimer | queueAdd | queueCancel | runAdd | runCancel | runFunctor | handleRead | reset => rfl

/-- The timers of the batch are there, and `handleRead` holds them. -/
theorem InBatch.alive (h : InBatch q₀ now expired ops started l) (hsound : Sound l) {e : Entry}
    (he : e ∈ expired) : (∃ t, l.queue.heap e.timer = some t) ∧ ∀ e' ∈ l.queue.timers,
      e'.timer ≠ e.timer := by
  obtain ⟨rest, -, hphase⟩ := h.phase
  have hheld := ((mem_held hsound).2 _ _ _ hphase).1 e he
  exact ⟨hsound.good.alive _ hheld, hsound.good.apart _ hheld⟩

/-- A step that starts no callback and cancels nothing. -/
theorem InBatch.frame (h : InBatch q₀ now expired ops started l) (hsound : Sound l)
    (hop : ∀ id, op ≠ .runCancel id) (hstarts : op ≠ .runCallback) (hphase : l'.phase = l.phase)
    (hheap : ∀ a t, l.queue.heap a = some t → l'.queue.heap a = some t)
    (hcanceling : l'.queue.cancelingTimers = l.queue.cancelingTimers)
    (htimers : l.queue.timers ⊆ l'.queue.timers) :
    InBatch q₀ now expired (ops ++ [op]) (started ++ startedBy l op) l' := by
  have hmem : ∀ id, .runCancel id ∈ ops ++ [op] ↔ .runCancel id ∈ ops := by
    intro id
    rw [List.mem_append, List.mem_singleton, or_iff_left (hop id).symm]
  rw [startedBy_of_ne hstarts, List.append_nil]
  refine ⟨hphase ▸ h.phase, fun e he => ?_, fun e he t ht => ?_, fun a t hin hlate hnot => ?_⟩
  · obtain ⟨⟨t, ht⟩, -⟩ := h.alive hsound he
    rw [hheap _ _ ht, ← h.heap e he, ht]
  · rw [hcanceling, hmem]
    exact h.noted e he t ht
  · rw [hmem] at hnot
    obtain ⟨hkept, hentry⟩ := h.kept a t hin hlate hnot
    exact ⟨hheap a t hkept, htimers hentry⟩

/-- The next callback is started. -/
theorem InBatch.runCallback (h : InBatch q₀ now expired ops started l) {now' : Timestamp}
    {expired' rest' : List Entry} {e : Entry}
    (hphase : l.phase = .calling now' expired' (e :: rest')) :
    InBatch q₀ now expired (ops ++ [.runCallback]) (started ++ startedBy l .runCallback)
      { l with phase := .calling now' expired' rest' } := by
  obtain ⟨rest, hall, hcalling⟩ := h.phase
  have hstarted : startedBy l .runCallback = [e] := by
    unfold startedBy
    rw [hphase]
  have hmem : ∀ id, .runCancel id ∈ ops ++ [TimerOp.runCallback] ↔ .runCancel id ∈ ops := by
    intro id
    rw [List.mem_append, List.mem_singleton, or_iff_left nofun]
  rw [hphase] at hcalling
  cases hcalling
  refine ⟨⟨rest', ?_, rfl⟩, h.heap, fun e' he' t ht => ?_, fun a t hin hlate hnot => ?_⟩
  · rw [hstarted, List.append_assoc, List.singleton_append]
    exact hall
  · rw [hmem]
    exact h.noted e' he' t ht
  · exact h.kept a t hin hlate fun hin => hnot ((hmem _).mpr hin)

/-- A callback cancels a timer of the sets, which is deleted, or else the id is noted. -/
theorem InBatch.runCancel (h : InBatch q₀ now expired ops started l) (hsound : Sound l)
    {id : TimerId} {q : TimerQueue} (hcancel : l.queue.cancelInLoop id = .ok q) :
    InBatch q₀ now expired (ops ++ [.runCancel id]) (started ++ startedBy l (.runCancel id))
      { l with queue := q } := by
  obtain ⟨rest, hall, hphase⟩ := h.phase
  have hmem : ∀ id', .runCancel id' ∈ ops ++ [TimerOp.runCancel id] ↔
      .runCancel id' ∈ ops ∨ id' = id := by
    intro id'
    rw [List.mem_append, List.mem_singleton, TimerOp.runCancel.injEq]
  have hstarts : TimerOp.runCancel id ≠ .runCallback := nofun
  rw [startedBy_of_ne hstarts, List.append_nil]
  rcases hsound.good.cancelInLoop_cases id with ⟨u, hu, hseq, hentry, heq⟩ | ⟨hactive, heq⟩
  · rw [heq] at hcancel
    cases hcancel
    have hbatch : ∀ e ∈ expired, e.timer ≠ id.1 := by
      intro e he hea
      exact (h.alive hsound he).2 _ hentry hea.symm
    refine ⟨⟨rest, hall, hphase⟩, fun e he => ?_, fun e he t ht => ?_, fun a t hin hlate hnot => ?_⟩
    · rw [← h.heap e he]
      exact Function.update_of_ne (hbatch e he) _ _
    · rw [hmem, or_iff_left fun hid => hbatch e he (congrArg Prod.fst hid)]
      exact h.noted e he t ht
    · rw [hmem, not_or] at hnot
      obtain ⟨hkept, hin'⟩ := h.kept a t hin hlate hnot.1
      have ha : a ≠ id.1 := by
        rintro rfl
        rw [hu] at hkept
        cases hkept
        exact hnot.2 (Prod.ext rfl hseq)
      refine ⟨(Function.update_of_ne ha _ _).trans hkept, Finset.mem_erase_of_ne_of_mem ?_ hin'⟩
      intro heq
      exact ha (congrArg Entry.timer heq)
  · rw [heq] at hcancel
    cases hcancel
    have hcalling : l.queue.callingExpiredTimers = true := by
      refine hsound.calling.mpr ?_
      rw [hphase]
      nofun
    refine ⟨⟨rest, hall, hphase⟩, h.heap, fun e he t ht => ?_, fun a t hin hlate hnot => ?_⟩
    · show (_ ∈ if l.queue.callingExpiredTimers = true then _ else _) ↔ _
      rw [if_pos hcalling, Finset.mem_insert, hmem, h.noted e he t ht]
      exact or_comm
    · rw [hmem, not_or] at hnot
      exact h.kept a t hin hlate hnot.1

theorem InBatch.step (h : InBatch q₀ now expired ops started l) (hsound : Sound l)
    (hop : op ≠ .reset) (hstep : Step l op (.ok l')) :
    InBatch q₀ now expired (ops ++ [op]) (started ++ startedBy l op) l' := by
  have hcalling : l.phase ≠ .outside := by
    obtain ⟨rest, -, hphase⟩ := h.phase
    rw [hphase]
    nofun
  generalize hr : Except.ok l' = r at hstep
  cases hstep with
  | @newTimer a when interval hfree ha =>
      cases hr
      refine h.frame hsound nofun nofun rfl (fun b t ht => ?_) rfl (Finset.Subset.refl _)
      refine (Function.update_of_ne ?_ _ _).trans ht
      rintro rfl
      rw [hfree] at ht
      cases ht
  | queueAdd ha =>
      cases hr
      exact h.frame hsound nofun nofun rfl (fun _ _ ht => ht) rfl (Finset.Subset.refl _)
  | queueCancel =>
      cases hr
      exact h.frame hsound nofun nofun rfl (fun _ _ ht => ht) rfl (Finset.Subset.refl _)
  | @runAdd a ha huser =>
      obtain ⟨t, ht⟩ := hsound.good.alive a ((mem_held hsound).1 a (List.mem_append_left _ ha))
      obtain ⟨fd, hadd⟩ := (hsound.good.perm (held_perm ha)).addTimerInLoop ht
      rw [hadd] at hr
      cases hr
      exact h.frame hsound nofun nofun rfl (fun _ _ ht => ht) rfl (Finset.subset_insert _ _)
  | runCancel huser =>
      obtain ⟨q, hq, rfl⟩ := map_ok hr.symm
      exact h.runCancel hsound hq
  | runFunctor hphase => exact absurd hphase hcalling
  | handleRead hphase => exact absurd hphase hcalling
  | runCallback hphase =>
      obtain ⟨t, -, rfl⟩ := map_ok hr.symm
      exact h.runCallback hphase
  | reset => exact absurd rfl hop

/-- Every state between `getExpired` and `reset`. -/
theorem Calls.inBatch {l₀ : TimerLoop} (h : InBatch q₀ now expired [] [] l₀) (hsound : Sound l₀)
    (hcalls : Calls l₀ ops started l) : InBatch q₀ now expired ops started l ∧ Sound l := by
  induction hcalls with
  | none => exact ⟨h, hsound⟩
  | step _ hop hstep ih =>
      obtain ⟨l₂, hl₂, hsound'⟩ := ih.2.step hstep
      cases hl₂
      exact ⟨ih.1.step ih.2 hop hstep, hsound'⟩

/-- Behind `getExpired` no callback has been started. -/
theorem InBatch.begin {held : List Addr} {q' : TimerQueue} (h : Good q₀ held)
    (hbegin : q₀.beginBatch now = .ok (expired, q')) (hqueue : l.queue = q')
    (hphase : l.phase = .calling now expired expired) : InBatch q₀ now expired [] [] l := by
  obtain ⟨expired', q'', hbegin', -, -, hheap, -⟩ := h.beginBatch now
  rw [hbegin] at hbegin'
  cases hbegin'
  obtain ⟨-, -, hcanceling⟩ := beginBatch_split hbegin
  obtain ⟨-, -, hlater⟩ := h.expired_iff hbegin
  subst hqueue
  refine ⟨⟨expired, rfl, hphase⟩, fun e _ => congrFun hheap _, fun e _ t _ => ?_,
    fun a t hin hlate _ => ⟨(congrFun hheap a).trans hin.heap, hlater _ hin.timers hlate⟩⟩
  rw [hcanceling]
  exact ⟨fun hin => absurd hin (Finset.notMem_empty _), fun hin => absurd hin List.not_mem_nil⟩

/-- What a batch has made of the timers that were there at its entry. -/
structure BatchDone (q₀ : TimerQueue) (now : Timestamp) (ops : List TimerOp) (q : TimerQueue) :
    Prop where
  /-- What is not due stays as it is, unless a callback cancels it. -/
  notDue : ∀ a t, InBoth q₀ a t → now < t.expiration → .runCancel (a, t.sequence) ∉ ops →
    InBoth q a t
  /-- What is due and repeats is started again, unless a callback cancels it. -/
  restarted : ∀ a t, InBoth q₀ a t → t.expiration ≤ now → 0 < t.interval →
    .runCancel (a, t.sequence) ∉ ops →
    InBoth q a { t with expiration := now + ⌊t.interval * 1000000⌋ }
  /-- Everything else that is due is gone. -/
  gone : ∀ a t, InBoth q₀ a t → t.expiration ≤ now →
    ¬ 0 < t.interval ∨ .runCancel (a, t.sequence) ∈ ops → InNeither q a

theorem InBatch.reset (h : InBatch q₀ now expired ops started l) (hsound : Sound l)
    (hexpired : ∀ e, e ∈ expired ↔ e ∈ q₀.timers ∧ e.expiration ≤ now)
    (hstep : Step l .reset (.ok l')) : started = expired ∧ BatchDone q₀ now ops l'.queue := by
  obtain ⟨rest, hall, hcalling⟩ := h.phase
  generalize hr : Except.ok l' = r at hstep
  cases hstep with
  | @reset now' expired' hphase =>
      rw [hphase] at hcalling
      cases hcalling
      obtain ⟨q, hend, rfl⟩ := map_ok hr.symm
      have hgood := hsound.good
      rw [batch, hphase] at hgood
      have hnodup := hgood.nodup
      rw [List.nodup_append] at hnodup
      obtain ⟨hbatch, -, hdisjoint⟩ := hnodup
      obtain ⟨q', hend', hgood', -⟩ := hgood.endBatch now
      rw [hend] at hend'
      cases hend'
      have hrenewed := endBatch_renewed hbatch hend
      -- a due timer is one of the batch, and is in the heap as it was
      have hdue : ∀ a t, InBoth q₀ a t → t.expiration ≤ now →
          toLex (t.expiration, a) ∈ expired ∧ l.queue.heap a = some t := by
        intro a t hin hle
        have he := (hexpired (toLex (t.expiration, a))).mpr ⟨hin.timers, hle⟩
        exact ⟨he, (h.heap _ he).trans hin.heap⟩
      refine ⟨by rw [← hall, List.append_nil], fun a t hin hlate hnot => ?_,
        fun a t hin hle hrep hnot => ?_, fun a t hin hle hend => ?_⟩
      · obtain ⟨hheap, hentry⟩ := h.kept a t hin hlate hnot
        have hout : a ∉ expired.map Entry.timer := by
          intro hmem
          obtain ⟨e, he, rfl⟩ := List.mem_map.mp hmem
          exact (h.alive hsound he).2 _ hentry rfl
        exact hgood'.inBoth ((hrenewed.others a hout).trans hheap) (hrenewed.timers hentry)
      · obtain ⟨he, hheap⟩ := hdue a t hin hle
        have hagain : Again l.queue a t := ⟨hrep, mt (h.noted _ he t hin.heap).mp hnot⟩
        have hnew := hrenewed.again _ he t hheap hagain
        rw [Timer.restart, if_pos (show t.repeats from hrep)] at hnew
        refine hgood'.inBoth hnew ((hgood'.covered a _ hnew).resolve_left fun hmem => ?_)
        exact hdisjoint a (List.mem_map.mpr ⟨_, he, rfl⟩) a hmem rfl
      · obtain ⟨he, hheap⟩ := hdue a t hin hle
        refine hgood'.inNeither (hrenewed.ended _ he t hheap fun hagain => ?_)
        rcases hend with honce | hcancelled
        · exact honce hagain.1
        · exact hagain.2 ((h.noted _ he t hin.heap).mpr hcancelled)

/-- `handleRead` itself can always go on: to the next callback, or behind the last to `reset`. -/
theorem InBatch.goes_on (h : InBatch q₀ now expired ops started l) (hsound : Sound l) :
    (started ≠ expired → ∃ l', Step l .runCallback (.ok l')) ∧
      (started = expired → ∃ l', Step l .reset (.ok l')) := by
  obtain ⟨rest, hall, hphase⟩ := h.phase
  cases rest with
  | nil =>
      rw [List.append_nil] at hall
      refine ⟨fun hne => absurd hall hne, fun _ => ?_⟩
      have hstep := Step.reset hphase
      obtain ⟨l', hl', -⟩ := hsound.step hstep
      rw [hl'] at hstep
      exact ⟨l', hstep⟩
  | cons e rest =>
      refine ⟨fun _ => ?_, fun heq => ?_⟩
      · have hstep := Step.runCallback hphase
        obtain ⟨l', hl', -⟩ := hsound.step hstep
        rw [hl'] at hstep
        exact ⟨l', hstep⟩
      · have hlen := congrArg List.length hall
        rw [heq, List.length_append, List.length_cons] at hlen
        omega

/-- **A batch runs what is due, and nothing else.**  Whenever `handleRead` is entered, at any
`now`, it takes the timers that are due, in the order of their expirations and addresses.
Whatever the callbacks and the other threads do, those started are at any moment the first of
these, each once and each the timer it was at the entry, and `handleRead` can go on; `reset` is
not reached before all have been started.  Behind it the timers that were not due are as they
were, those that repeat are back with `now` and their interval, and all others are gone, where
those that a callback cancels go as well. -/
theorem batch_runs_due (h : Reachable l) (hphase : l.phase = .outside) (now : Timestamp) :
    ∃ l₀ expired, (∀ r, Step l (.handleRead now) r ↔ r = .ok l₀) ∧
      expired.Pairwise (· < ·) ∧ (∀ e, e ∈ expired ↔ e ∈ l.queue.timers ∧ e.expiration ≤ now) ∧
      ∀ ops started l₁, Calls l₀ ops started l₁ →
        started <+: expired ∧
        (∀ e ∈ expired, l₁.queue.heap e.timer = l.queue.heap e.timer) ∧
        (started ≠ expired → ∃ l₂, Step l₁ .runCallback (.ok l₂)) ∧
        (started = expired → ∃ l₂, Step l₁ .reset (.ok l₂)) ∧
        ∀ l₂, Step l₁ .reset (.ok l₂) →
          started = expired ∧ BatchDone l.queue now ops l₂.queue := by
  have hsound := h.sound
  obtain ⟨expired, q', hbegin, -⟩ := hsound.good.beginBatch now
  obtain ⟨horder, hexpired, -⟩ := hsound.good.expired_iff hbegin
  set l₀ : TimerLoop := { l with queue := q', phase := .calling now expired expired }
  have hstep : Step l (.handleRead now) (.ok l₀) := by
    have hread : Step l (.handleRead now) _ := .handleRead hphase
    rw [hbegin] at hread
    exact hread
  have hsound₀ : Sound l₀ := Reachable.sound (h.tail ⟨_, hstep⟩)
  have hstart : InBatch l.queue now expired [] [] l₀ := .begin hsound.good hbegin rfl rfl
  refine ⟨l₀, expired, fun r => ⟨fun hread => ?_, fun hr => hr ▸ hstep⟩, horder, hexpired,
    fun ops started l₁ hcalls => ?_⟩
  · cases hread with
    | handleRead hphase =>
        rw [hbegin]
        rfl
  · obtain ⟨hin, hsound₁⟩ := hcalls.inBatch hstart hsound₀
    obtain ⟨hcall, hreset⟩ := hin.goes_on hsound₁
    obtain ⟨rest, hall, -⟩ := hin.phase
    exact ⟨⟨rest, hall⟩, hin.heap, hcall, hreset, fun l₂ hl₂ => hin.reset hsound₁ hexpired hl₂⟩

/-- A timer for the moment `0`, when `handleRead` is entered at `0`. -/
theorem batch_runs_due_lateLoop : ∃ l : TimerLoop, Reachable l ∧ l.phase = .outside ∧
    l.queue.timers = {toLex (0, 1)} ∧
    ∃ l₀ expired, (∀ r, Step l (.handleRead 0) r ↔ r = .ok l₀) ∧
      expired.Pairwise (· < ·) ∧ (∀ e, e ∈ expired ↔ e ∈ l.queue.timers ∧ e.expiration ≤ 0) ∧
      ∀ ops started l₁, Calls l₀ ops started l₁ →
        started <+: expired ∧
        (∀ e ∈ expired, l₁.queue.heap e.timer = l.queue.heap e.timer) ∧
        (started ≠ expired → ∃ l₂, Step l₁ .runCallback (.ok l₂)) ∧
        (started = expired → ∃ l₂, Step l₁ .reset (.ok l₂)) ∧
        ∀ l₂, Step l₁ .reset (.ok l₂) →
          started = expired ∧ BatchDone l.queue 0 ops l₂.queue := by
  obtain ⟨q, hinsert, -, htimers⟩ := lateLoop_inserts
  have hreach : Reachable ⟨q, .outside, [], [], [(1, 1)]⟩ := reachable_lateLoop.tail hinsert
  exact ⟨_, hreach, rfl, htimers, batch_runs_due hreach rfl 0⟩

end TimerLoop

end Net
