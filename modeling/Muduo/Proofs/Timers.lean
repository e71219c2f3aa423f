/-
Who owns a timer.

A timer is owned by one party at a time: by the two sets of the queue, by the batch whose
callbacks are run, or by an `addTimer` that has not inserted it yet.  The queue's functions
move timers between these owners; that each finds in the heap what it reads through its
pointers, and in one set what it found in the other, follows from who owns what.

Each function has one lemma: what it answers, and who owns what afterwards.
-/
import Muduo.Net.TimerQueue

namespace Net

open TimerQueue

/-! ### Entries -/

@[simp] theorem Entry.timer_toLex (e : Timestamp) (a : Addr) : Entry.timer (toLex (e, a)) = a := rfl

@[simp] theorem Entry.expiration_toLex (e : Timestamp) (a : Addr) :
    Entry.expiration (toLex (e, a)) = e := rfl

theorem Entry.toLex_eq (e : Entry) : toLex (e.expiration, e.timer) = e := rfl

theorem Entry.expiration_mono {e e' : Entry} (h : e ≤ e') : e.expiration ≤ e'.expiration := by
  rcases Prod.Lex.le_iff.mp h with hlt | ⟨heq, -⟩
  · exact le_of_lt hlt
  · exact le_of_eq heq

/-- The first of a set is one of its elements. -/
theorem mem_of_first? {timers : Finset Entry} {e : Entry} (h : first? timers = some e) :
    e ∈ timers := by
  unfold first? at h
  exact (Finset.mem_sort _).mp (List.mem_of_mem_head? h)

/-- The first of a set comes before every other. -/
theorem first?_le {timers : Finset Entry} {e e' : Entry} (h : first? timers = some e)
    (he' : e' ∈ timers) : e ≤ e' := by
  have hmem : e' ∈ timers.sort := (Finset.mem_sort _).mpr he'
  have hsorted := timers.pairwise_sort (· ≤ ·)
  obtain ⟨rest, hrest⟩ := List.head?_eq_some_iff.mp h
  rw [hrest] at hmem hsorted
  rcases List.mem_cons.mp hmem with rfl | hmem
  · exact le_rfl
  · exact (List.pairwise_cons.mp hsorted).1 e' hmem

theorem first?_none {timers : Finset Entry} (h : first? timers = none) : timers = ∅ := by
  refine Finset.eq_empty_of_forall_notMem fun e he => ?_
  have hmem : e ∈ timers.sort := (Finset.mem_sort _).mpr he
  rw [List.head?_eq_none_iff.mp h] at hmem
  exact List.not_mem_nil hmem

theorem deref_ok {q : TimerQueue} {a : Addr} {t : Timer} (h : q.deref a = .ok t) :
    q.heap a = some t := by
  unfold deref at h
  cases hheap : q.heap a with
  | none =>
      rw [hheap] at h
      cases h
  | some u =>
      rw [hheap] at h
      cases h
      rfl

/-- The queue with a timer in both sets. -/
def TimerQueue.withTimer (q : TimerQueue) (a : Addr) (t : Timer) : TimerQueue :=
  { q with
    timers := Insert.insert (toLex (t.expiration, a)) q.timers
    activeTimers := Insert.insert (a, t.sequence) q.activeTimers }

/-- The queue without a timer in its sets, and the timer deleted. -/
def TimerQueue.withoutTimer (q : TimerQueue) (a : Addr) (t : Timer) : TimerQueue :=
  { q with
    heap := Function.update q.heap a none
    timers := q.timers.erase (toLex (t.expiration, a))
    activeTimers := q.activeTimers.erase (a, t.sequence)
    deleted := q.deleted ++ [t.sequence] }

/-! ### Memory -/

/-- Every timer that was ever created is in the heap or has been deleted, and neither twice. -/
structure Allocated (heap : Addr → Option Timer) (numCreated : Nat) (deleted : List Nat) : Prop where
  bound : ∀ a t, heap a = some t → a < UINTPTR_MAX ∧ 0 < t.sequence ∧ t.sequence ≤ numCreated
  unique : ∀ a b t u, heap a = some t → heap b = some u → t.sequence = u.sequence → a = b
  nodup : deleted.Nodup
  old : ∀ n ∈ deleted, 0 < n ∧ n ≤ numCreated
  gone : ∀ a t, heap a = some t → t.sequence ∉ deleted
  kept : ∀ n, 0 < n → n ≤ numCreated → n ∈ deleted ∨ ∃ a t, heap a = some t ∧ t.sequence = n

namespace Allocated

variable {heap : Addr → Option Timer} {numCreated : Nat} {deleted : List Nat}

theorem new (h : Allocated heap numCreated deleted) {a : Addr} (hfree : heap a = none)
    (ha : a < UINTPTR_MAX) (when : Timestamp) (interval : ℚ) :
    Allocated (Function.update heap a (some ⟨when, interval, numCreated + 1⟩)) (numCreated + 1)
      deleted := by
  have hcases : ∀ b t, Function.update heap a (some ⟨when, interval, numCreated + 1⟩) b = some t →
      b = a ∧ t.sequence = numCreated + 1 ∨ b ≠ a ∧ heap b = some t := by
    intro b t hb
    by_cases hba : b = a
    · subst hba
      rw [Function.update_self] at hb
      exact Or.inl ⟨rfl, by rw [← Option.some.inj hb]⟩
    · rw [Function.update_of_ne hba] at hb
      exact Or.inr ⟨hba, hb⟩
  refine ⟨?_, ?_, h.nodup, ?_, ?_, ?_⟩
  · intro b t hb
    rcases hcases b t hb with ⟨rfl, hseq⟩ | ⟨-, hold⟩
    · exact ⟨ha, by omega, by omega⟩
    · obtain ⟨h₁, h₂, h₃⟩ := h.bound b t hold
      exact ⟨h₁, h₂, by omega⟩
  · intro b c t u hb hc hseq
    rcases hcases b t hb with ⟨rfl, ht⟩ | ⟨-, ht⟩ <;> rcases hcases c u hc with ⟨rfl, hu⟩ | ⟨-, hu⟩
    · rfl
    · have := (h.bound c u hu).2.2
      omega
    · have := (h.bound b t ht).2.2
      omega
    · exact h.unique b c t u ht hu hseq
  · intro n hn
    obtain ⟨h₁, h₂⟩ := h.old n hn
    exact ⟨h₁, by omega⟩
  · intro b t hb hdel
    rcases hcases b t hb with ⟨-, hseq⟩ | ⟨-, hold⟩
    · have := (h.old _ hdel).2
      omega
    · exact h.gone b t hold hdel
  · intro n hpos hn
    by_cases hlast : n = numCreated + 1
    · exact Or.inr ⟨a, _, Function.update_self .., hlast.symm⟩
    · rcases h.kept n hpos (by omega) with hdel | ⟨b, t, hb, hseq⟩
      · exact Or.inl hdel
      · have hba : b ≠ a := by
          rintro rfl
          rw [hfree] at hb
          cases hb
        exact Or.inr ⟨b, t, by rw [Function.update_of_ne hba, hb], hseq⟩

theorem delete (h : Allocated heap numCreated deleted) {a : Addr} {t : Timer}
    (ht : heap a = some t) :
    Allocated (Function.update heap a none) numCreated (deleted ++ [t.sequence]) := by
  have hold : ∀ b u, Function.update heap a none b = some u → b ≠ a ∧ heap b = some u := by
    intro b u hb
    by_cases hba : b = a
    · subst hba
      rw [Function.update_self] at hb
      cases hb
    · exact ⟨hba, by rwa [Function.update_of_ne hba] at hb⟩
  refine ⟨?_, ?_, ?_, ?_, ?_, ?_⟩
  · exact fun b u hb => h.bound b u (hold b u hb).2
  · exact fun b c u v hb hc => h.unique b c u v (hold b u hb).2 (hold c v hc).2
  · rw [List.nodup_append]
    refine ⟨h.nodup, List.nodup_singleton _, ?_⟩
    rintro n hn m hm rfl
    rw [List.mem_singleton.mp hm] at hn
    exact h.gone a t ht hn
  · intro n hn
    rcases List.mem_append.mp hn with hn | hn
    · exact h.old n hn
    · rw [List.mem_singleton.mp hn]
      exact (h.bound a t ht).2
  · intro b u hb hdel
    obtain ⟨hba, hb⟩ := hold b u hb
    rcases List.mem_append.mp hdel with hdel | hdel
    · exact h.gone b u hb hdel
    · exact hba (h.unique b a u t hb ht (List.mem_singleton.mp hdel))
  · intro n hpos hn
    rcases h.kept n hpos hn with hdel | ⟨b, u, hb, hseq⟩
    · exact Or.inl (List.mem_append_left _ hdel)
    · by_cases hba : b = a
      · subst hba
        rw [ht] at hb
        cases hb
        exact Or.inl (List.mem_append_right _ (by rw [hseq]; exact List.mem_singleton_self n))
      · exact Or.inr ⟨b, u, by rw [Function.update_of_ne hba, hb], hseq⟩

/-- A timer may change, as long as it keeps its number. -/
theorem update (h : Allocated heap numCreated deleted) {a : Addr} {t u : Timer}
    (ht : heap a = some t) (hseq : u.sequence = t.sequence) :
    Allocated (Function.update heap a (some u)) numCreated deleted := by
  have hold : ∀ b v, Function.update heap a (some u) b = some v →
      ∃ w, heap b = some w ∧ w.sequence = v.sequence := by
    intro b v hb
    by_cases hba : b = a
    · subst hba
      rw [Function.update_self] at hb
      cases hb
      exact ⟨t, ht, hseq.symm⟩
    · exact ⟨v, by rwa [Function.update_of_ne hba] at hb, rfl⟩
  refine ⟨?_, ?_, h.nodup, h.old, ?_, ?_⟩
  · intro b v hb
    obtain ⟨w, hw, hs⟩ := hold b v hb
    rw [← hs]
    exact h.bound b w hw
  · intro b c v v' hb hc hs
    obtain ⟨w, hw, hw'⟩ := hold b v hb
    obtain ⟨x, hx, hx'⟩ := hold c v' hc
    exact h.unique b c w x hw hx (by rw [hw', hx', hs])
  · intro b v hb
    obtain ⟨w, hw, hs⟩ := hold b v hb
    rw [← hs]
    exact h.gone b w hw
  · intro n hpos hn
    rcases h.kept n hpos hn with hdel | ⟨b, v, hb, hs⟩
    · exact Or.inl hdel
    · by_cases hba : b = a
      · subst hba
        rw [ht] at hb
        cases hb
        exact Or.inr ⟨b, u, Function.update_self .., hseq.trans hs⟩
      · exact Or.inr ⟨b, v, by rw [Function.update_of_ne hba, hb], hs⟩

end Allocated

/-! ### Who owns a timer -/

/-- The queue owns the timers in its sets, and others hold those at the addresses `held`. -/
structure Good (q : TimerQueue) (held : List Addr) : Prop where
  memory : Allocated q.heap q.numCreated q.deleted
  nodup : held.Nodup
  alive : ∀ a ∈ held, ∃ t, q.heap a = some t
  apart : ∀ a ∈ held, ∀ e ∈ q.timers, e.timer ≠ a
  covered : ∀ a t, q.heap a = some t → a ∈ held ∨ toLex (t.expiration, a) ∈ q.timers
  timers : ∀ e ∈ q.timers, ∃ t, q.heap e.timer = some t ∧ t.expiration = e.expiration ∧
    (e.timer, t.sequence) ∈ q.activeTimers
  active : ∀ id ∈ q.activeTimers, ∃ t, q.heap id.1 = some t ∧ t.sequence = id.2 ∧
    toLex (t.expiration, id.1) ∈ q.timers

namespace Good

variable {q : TimerQueue} {held : List Addr}

theorem init : Good .init [] where
  memory := ⟨nofun, nofun, List.nodup_nil, nofun, nofun, fun n h₁ h₂ => by
    have : n ≤ 0 := h₂
    omega⟩
  nodup := List.nodup_nil
  alive := nofun
  apart := nofun
  covered := nofun
  timers := fun e he => absurd he (Finset.notMem_empty e)
  active := fun id hid => absurd hid (Finset.notMem_empty id)

theorem perm {held' : List Addr} (h : Good q held) (hp : held.Perm held') : Good q held' where
  memory := h.memory
  nodup := hp.nodup_iff.mp h.nodup
  alive := fun a ha => h.alive a (hp.mem_iff.mpr ha)
  apart := fun a ha => h.apart a (hp.mem_iff.mpr ha)
  covered := fun a t ht => (h.covered a t ht).imp_left hp.mem_iff.mp
  timers := h.timers
  active := h.active

/-- The flags of the queue do not matter. -/
theorem flags (h : Good q held) (fd : Option Timestamp) (calling : Bool) (canceling : Finset TimerId) :
    Good { q with timerfd := fd, callingExpiredTimers := calling, cancelingTimers := canceling } held :=
  ⟨h.memory, h.nodup, h.alive, h.apart, h.covered, h.timers, h.active⟩

/-- Both sets hold the same timers. -/
theorem size (h : Good q held) : q.timers.card = q.activeTimers.card := by
  refine Finset.card_bij' (fun e _ => (e.timer, ((q.heap e.timer).map Timer.sequence).getD 0))
    (fun id _ => toLex (((q.heap id.1).map Timer.expiration).getD 0, id.1)) ?_ ?_ ?_ ?_
  · intro e he
    obtain ⟨t, ht, -, hactive⟩ := h.timers e he
    simpa [ht] using hactive
  · intro id hid
    obtain ⟨t, ht, -, htimers⟩ := h.active id hid
    simpa [ht] using htimers
  · intro e he
    obtain ⟨t, ht, hexp, -⟩ := h.timers e he
    simp only [ht, Option.map_some, Option.getD_some, hexp]
    rfl
  · intro id hid
    obtain ⟨t, ht, hseq, -⟩ := h.active id hid
    simp [ht, hseq]

/-- One timer has one entry. -/
theorem entry_eq (h : Good q held) {e e' : Entry} (he : e ∈ q.timers) (he' : e' ∈ q.timers)
    (ha : e.timer = e'.timer) : e = e' := by
  obtain ⟨t, ht, hexp, -⟩ := h.timers e he
  obtain ⟨t', ht', hexp', -⟩ := h.timers e' he'
  rw [ha, ht'] at ht
  cases ht
  rw [← e.toLex_eq, ← e'.toLex_eq, ← hexp, ← hexp', ha]

/-- `new` gives a timer to the thread that calls it. -/
theorem new (h : Good q held) {a : Addr} (hfree : q.heap a = none) (ha : a < UINTPTR_MAX)
    (when : Timestamp) (interval : ℚ) : Good (q.new a when interval) (a :: held) := by
  have hne : ∀ b t, q.heap b = some t → b ≠ a := by
    rintro b t hb rfl
    rw [hfree] at hb
    cases hb
  have hsame : ∀ b t, q.heap b = some t → (q.new a when interval).heap b = some t := by
    intro b t hb
    show Function.update q.heap a _ b = _
    rw [Function.update_of_ne (hne b t hb), hb]
  refine ⟨h.memory.new hfree ha when interval, ?_, ?_, ?_, ?_, ?_, ?_⟩
  · refine List.nodup_cons.mpr ⟨fun hmem => ?_, h.nodup⟩
    obtain ⟨t, ht⟩ := h.alive a hmem
    exact hne a t ht rfl
  · intro b hb
    rcases List.mem_cons.mp hb with rfl | hb
    · exact ⟨_, Function.update_self ..⟩
    · obtain ⟨t, ht⟩ := h.alive b hb
      exact ⟨t, hsame b t ht⟩
  · intro b hb e he
    rcases List.mem_cons.mp hb with rfl | hb
    · obtain ⟨t, ht, -⟩ := h.timers e he
      exact hne _ t ht
    · exact h.apart b hb e he
  · intro b t hb
    by_cases hba : b = a
    · exact Or.inl (by rw [hba]; exact List.mem_cons_self)
    · rw [show (q.new a when interval).heap b = q.heap b from Function.update_of_ne hba _ _] at hb
      exact (h.covered b t hb).imp_left (List.mem_cons_of_mem a)
  · intro e he
    obtain ⟨t, ht, hrest⟩ := h.timers e he
    exact ⟨t, hsame _ t ht, hrest⟩
  · intro id hid
    obtain ⟨t, ht, hrest⟩ := h.active id hid
    exact ⟨t, hsame _ t ht, hrest⟩

/-- A timer somebody holds is put into both sets. -/
theorem inserted {a : Addr} {t : Timer} (h : Good q (a :: held)) (ht : q.heap a = some t) :
    Good (q.withTimer a t) held := by
  obtain ⟨hnot, hnodup⟩ := List.nodup_cons.mp h.nodup
  refine ⟨h.memory, hnodup, fun b hb => h.alive b (List.mem_cons_of_mem a hb), ?_, ?_, ?_, ?_⟩
  · intro b hb e he
    rcases Finset.mem_insert.mp he with rfl | he
    · rintro rfl
      exact hnot hb
    · exact h.apart b (List.mem_cons_of_mem a hb) e he
  · intro b u hb
    rcases h.covered b u hb with hmem | htimers
    · rcases List.mem_cons.mp hmem with rfl | hmem
      · have hb : q.heap b = some u := hb
        rw [ht] at hb
        cases hb
        exact Or.inr (Finset.mem_insert_self ..)
      · exact Or.inl hmem
    · exact Or.inr (Finset.mem_insert_of_mem htimers)
  · intro e he
    rcases Finset.mem_insert.mp he with rfl | he
    · exact ⟨t, ht, rfl, Finset.mem_insert_self ..⟩
    · obtain ⟨u, hu, hexp, hactive⟩ := h.timers e he
      exact ⟨u, hu, hexp, Finset.mem_insert_of_mem hactive⟩
  · intro id hid
    rcases Finset.mem_insert.mp hid with rfl | hid
    · exact ⟨t, ht, rfl, Finset.mem_insert_self ..⟩
    · obtain ⟨u, hu, hseq, htimers⟩ := h.active id hid
      exact ⟨u, hu, hseq, Finset.mem_insert_of_mem htimers⟩

theorem insert {a : Addr} {t : Timer} (h : Good q (a :: held)) (ht : q.heap a = some t) :
    ∃ earliestChanged, q.insert a = .ok (earliestChanged, q.withTimer a t) := by
  have htimers : toLex (t.expiration, a) ∉ q.timers :=
    fun hmem => h.apart a List.mem_cons_self _ hmem rfl
  have hactive : (a, t.sequence) ∉ q.activeTimers := by
    intro hmem
    obtain ⟨u, -, -, hin⟩ := h.active _ hmem
    exact h.apart a List.mem_cons_self _ hin rfl
  apply Exists.intro
  unfold TimerQueue.insert deref
  rw [assertThat_of h.size, ht]
  show (do
    assertThat (toLex (t.expiration, a) ∉ q.timers)
    assertThat ((a, t.sequence) ∉ q.activeTimers)
    assertThat ((q.withTimer a t).timers.card = (q.withTimer a t).activeTimers.card)
    pure (_, q.withTimer a t)) = _
  rw [assertThat_of htimers, assertThat_of hactive, assertThat_of (h.inserted ht).size]
  rfl

/-- `addTimerInLoop` puts the timer into both sets, and may set the timer descriptor. -/
theorem addTimerInLoop {a : Addr} {t : Timer} (h : Good q (a :: held)) (ht : q.heap a = some t) :
    ∃ fd, q.addTimerInLoop a = .ok { q.withTimer a t with timerfd := fd } := by
  obtain ⟨earliestChanged, hinsert⟩ := h.insert ht
  unfold TimerQueue.addTimerInLoop
  rw [hinsert]
  cases earliestChanged with
  | false => exact ⟨q.timerfd, rfl⟩
  | true =>
      refine ⟨some t.expiration, ?_⟩
      show (TimerQueue.deref (q.withTimer a t) a >>= _) = _
      rw [deref, show (q.withTimer a t).heap a = some t from ht]
      rfl

/-- A timer of the sets is taken out and deleted. -/
theorem erased {a : Addr} {t : Timer} (h : Good q held) (ht : q.heap a = some t)
    (htimers : toLex (t.expiration, a) ∈ q.timers) : Good (q.withoutTimer a t) held := by
  have hheld : a ∉ held := fun hmem => h.apart a hmem _ htimers rfl
  have hsame : ∀ b, b ≠ a → (q.withoutTimer a t).heap b = q.heap b :=
    fun b hb => Function.update_of_ne hb _ _
  refine ⟨h.memory.delete ht, h.nodup, ?_, ?_, ?_, ?_, ?_⟩
  · intro b hb
    obtain ⟨u, hu⟩ := h.alive b hb
    exact ⟨u, (hsame b (by rintro rfl; exact hheld hb)).trans hu⟩
  · exact fun b hb e he => h.apart b hb e (Finset.mem_of_mem_erase he)
  · intro b u hb
    by_cases hba : b = a
    · subst hba
      rw [show (q.withoutTimer b t).heap b = none from Function.update_self ..] at hb
      cases hb
    · rw [hsame b hba] at hb
      refine (h.covered b u hb).imp_right fun hin => Finset.mem_erase_of_ne_of_mem ?_ hin
      intro heq
      exact hba (congrArg Entry.timer heq)
  · intro e he
    obtain ⟨hne, he⟩ := Finset.mem_erase.mp he
    obtain ⟨u, hu, hexp, hactive⟩ := h.timers e he
    have hea : e.timer ≠ a := fun hea => hne (h.entry_eq he htimers hea)
    refine ⟨u, (hsame _ hea).trans hu, hexp, Finset.mem_erase_of_ne_of_mem ?_ hactive⟩
    intro heq
    exact hea (congrArg Prod.fst heq)
  · intro id hid
    obtain ⟨hne, hid⟩ := Finset.mem_erase.mp hid
    obtain ⟨u, hu, hseq, hin⟩ := h.active id hid
    have hida : id.1 ≠ a := by
      intro hida
      rw [hida, ht] at hu
      cases hu
      exact hne (Prod.ext hida hseq.symm)
    refine ⟨u, (hsame _ hida).trans hu, hseq, Finset.mem_erase_of_ne_of_mem ?_ hin⟩
    intro heq
    exact hida (congrArg Entry.timer heq)

/-- What `cancelInLoop` does: a timer of the sets is deleted; any other id is noted while
callbacks are run. -/
theorem cancelInLoop_cases (h : Good q held) (id : TimerId) :
    (∃ t, q.heap id.1 = some t ∧ t.sequence = id.2 ∧ toLex (t.expiration, id.1) ∈ q.timers ∧
      q.cancelInLoop id = .ok (q.withoutTimer id.1 t)) ∨
    (id ∉ q.activeTimers ∧ q.cancelInLoop id = .ok { q with
      cancelingTimers :=
        if q.callingExpiredTimers then Insert.insert id q.cancelingTimers else q.cancelingTimers }) := by
  unfold TimerQueue.cancelInLoop
  rw [assertThat_of h.size]
  by_cases hactive : id ∈ q.activeTimers
  · obtain ⟨t, ht, hseq, htimers⟩ := h.active id hactive
    refine Or.inl ⟨t, ht, hseq, htimers, ?_⟩
    have hsize : (q.timers.erase (toLex (t.expiration, id.1))).card = (q.activeTimers.erase id).card := by
      have := (h.erased ht htimers).size
      rwa [withoutTimer, hseq] at this
    show (if id ∈ q.activeTimers then _ else _ : Except Fault TimerQueue) = _
    rw [if_pos hactive, deref, ht]
    show (do
      assertThat (toLex (t.expiration, id.1) ∈ q.timers)
      let q ← TimerQueue.delete { q with timers := q.timers.erase (toLex (t.expiration, id.1)) } id.1
      _) = _
    rw [assertThat_of htimers, TimerQueue.delete]
    simp only [ht]
    show (do
      assertThat ((q.timers.erase (toLex (t.expiration, id.1))).card = (q.activeTimers.erase id).card)
      _) = _
    rw [assertThat_of hsize, withoutTimer, hseq]
    rfl
  · refine Or.inr ⟨hactive, ?_⟩
    show (if id ∈ q.activeTimers then _ else _ : Except Fault TimerQueue) = _
    rw [if_neg hactive]
    by_cases hcalling : q.callingExpiredTimers = true
    · rw [if_pos hcalling, if_pos hcalling]
      rfl
    · rw [if_neg hcalling, if_neg hcalling]
      rfl

/-- An insertion, for those who ask only who owns what afterwards. -/
theorem added {a : Addr} (h : Good q (a :: held)) :
    ∃ q', q.addTimerInLoop a = .ok q' ∧ Good q' held ∧
      q'.callingExpiredTimers = q.callingExpiredTimers ∧ q'.numCreated = q.numCreated := by
  obtain ⟨t, ht⟩ := h.alive a List.mem_cons_self
  obtain ⟨fd, hadd⟩ := h.addTimerInLoop ht
  exact ⟨_, hadd, (h.inserted ht).flags fd _ _, rfl, rfl⟩

theorem cancelled (h : Good q held) (id : TimerId) :
    ∃ q', q.cancelInLoop id = .ok q' ∧ Good q' held ∧
      q'.callingExpiredTimers = q.callingExpiredTimers ∧ q'.numCreated = q.numCreated := by
  rcases h.cancelInLoop_cases id with ⟨t, ht, -, htimers, hcancel⟩ | ⟨-, hcancel⟩
  · exact ⟨_, hcancel, h.erased ht htimers, rfl, rfl⟩
  · exact ⟨_, hcancel, h.flags _ _ _, rfl, rfl⟩

/-! ### A batch -/

/-- The timers of a list of entries are taken out of the active ones. -/
theorem deactivate_all {es : List Entry} : ∀ {q : TimerQueue},
    (∀ id ∈ q.activeTimers, ∃ t, q.heap id.1 = some t ∧ t.sequence = id.2) →
    (∀ e ∈ es, ∃ t, q.heap e.timer = some t ∧ (e.timer, t.sequence) ∈ q.activeTimers) →
    (es.map Entry.timer).Nodup →
    ∃ active, es.foldlM deactivate q = .ok { q with activeTimers := active } ∧
      ∀ id, id ∈ active ↔ id ∈ q.activeTimers ∧ id.1 ∉ es.map Entry.timer := by
  induction es with
  | nil => exact fun _ _ _ => ⟨_, rfl, by simp⟩
  | cons e es ih =>
      intro q hactive hes hnodup
      obtain ⟨hnot, hnodup⟩ := List.nodup_cons.mp hnodup
      obtain ⟨t, ht, hin⟩ := hes e List.mem_cons_self
      set q' : TimerQueue := { q with activeTimers := q.activeTimers.erase (e.timer, t.sequence) }
      have hone : deactivate q e = .ok q' := by
        unfold deactivate deref
        rw [ht]
        show (do assertThat ((e.timer, t.sequence) ∈ q.activeTimers); _) = _
        rw [assertThat_of hin]
        rfl
      have herase : ∀ id, id ∈ q'.activeTimers ↔ id ∈ q.activeTimers ∧ id.1 ≠ e.timer := by
        intro id
        rw [show q'.activeTimers = q.activeTimers.erase (e.timer, t.sequence) from rfl, Finset.mem_erase]
        constructor
        · rintro ⟨hne, hid⟩
          refine ⟨hid, fun hida => ?_⟩
          obtain ⟨u, hu, hseq⟩ := hactive id hid
          rw [hida, ht] at hu
          cases hu
          exact hne (Prod.ext hida hseq.symm)
        · rintro ⟨hid, hne⟩
          exact ⟨fun heq => hne (congrArg Prod.fst heq), hid⟩
      obtain ⟨active, hfold, hmem⟩ := ih (q := q') (fun id hid => hactive id ((herase id).mp hid).1)
        (fun e' he' => by
          obtain ⟨u, hu, hin'⟩ := hes e' (List.mem_cons_of_mem e he')
          refine ⟨u, hu, (herase _).mpr ⟨hin', fun heq => hnot ?_⟩⟩
          rw [← heq]
          exact List.mem_map_of_mem he') hnodup
      refine ⟨active, ?_, ?_⟩
      · rw [List.foldlM_cons, hone]
        exact hfold
      · intro id
        rw [hmem, herase, List.map_cons, List.mem_cons, not_or, and_assoc]

/-- Timers of both sets are taken out, and given to somebody who holds them. -/
theorem taken {es : List Entry} {rest : Finset Entry} {active : Finset TimerId} (h : Good q held)
    (hes : ∀ e ∈ es, e ∈ q.timers) (hnodup : (es.map Entry.timer).Nodup)
    (hrest : ∀ e, e ∈ rest ↔ e ∈ q.timers ∧ e ∉ es)
    (hactive : ∀ id, id ∈ active ↔ id ∈ q.activeTimers ∧ id.1 ∉ es.map Entry.timer) :
    Good { q with timers := rest, activeTimers := active } (es.map Entry.timer ++ held) := by
  have hout : ∀ e ∈ rest, e.timer ∉ es.map Entry.timer := by
    intro e he hmem
    obtain ⟨hin, hnot⟩ := (hrest e).mp he
    obtain ⟨e', he', hea⟩ := List.mem_map.mp hmem
    exact hnot (h.entry_eq (hes e' he') hin hea ▸ he')
  refine ⟨h.memory, ?_, ?_, ?_, ?_, ?_, ?_⟩
  · rw [List.nodup_append]
    refine ⟨hnodup, h.nodup, ?_⟩
    rintro a ha b hb rfl
    obtain ⟨e, he, rfl⟩ := List.mem_map.mp ha
    exact h.apart _ hb e (hes e he) rfl
  · intro a ha
    rcases List.mem_append.mp ha with ha | ha
    · obtain ⟨e, he, rfl⟩ := List.mem_map.mp ha
      obtain ⟨t, ht, -⟩ := h.timers e (hes e he)
      exact ⟨t, ht⟩
    · exact h.alive a ha
  · intro a ha e he hea
    rcases List.mem_append.mp ha with ha | ha
    · exact hout e he (hea ▸ ha)
    · exact h.apart a ha e ((hrest e).mp he).1 hea
  · intro a t ht
    by_cases hbatch : a ∈ es.map Entry.timer
    · exact Or.inl (List.mem_append_left _ hbatch)
    · rcases h.covered a t ht with hheld | hin
      · exact Or.inl (List.mem_append_right _ hheld)
      · exact Or.inr ((hrest _).mpr ⟨hin, fun hmem => hbatch (List.mem_map.mpr ⟨_, hmem, rfl⟩)⟩)
  · intro e he
    obtain ⟨t, ht, hexp, hin⟩ := h.timers e ((hrest e).mp he).1
    exact ⟨t, ht, hexp, (hactive _).mpr ⟨hin, hout e he⟩⟩
  · intro id hid
    obtain ⟨hid, hnot⟩ := (hactive id).mp hid
    obtain ⟨t, ht, hseq, hin⟩ := h.active id hid
    exact ⟨t, ht, hseq, (hrest _).mpr ⟨hin, fun hmem => hnot (List.mem_map.mpr ⟨_, hmem, rfl⟩)⟩⟩

/-- What does not come before `(now, UINTPTR_MAX)` is not due. -/
theorem not_due (h : Good q held) {now : Timestamp} {e : Entry} (he : e ∈ q.timers)
    (hlate : ¬ e < toLex (now, UINTPTR_MAX)) : now < e.expiration := by
  obtain ⟨t, ht, -⟩ := h.timers e he
  have haddr := (h.memory.bound _ t ht).1
  by_contra hnow
  refine hlate (Prod.Lex.lt_iff.mpr ?_)
  rcases lt_or_eq_of_le (not_lt.mp hnow) with hlt | heq
  · exact Or.inl hlt
  · exact Or.inr ⟨heq, haddr⟩

/-- A batch takes from the queue what is due at its time, and nothing else changes but the
flags.  No callback has been run, so none is being cancelled. -/
theorem beginBatch (h : Good q held) (now : Timestamp) :
    ∃ expired q', q.beginBatch now = .ok (expired, q') ∧
      Good q' (expired.map Entry.timer ++ held) ∧ q'.callingExpiredTimers = true ∧
      q'.heap = q.heap ∧ q'.numCreated = q.numCreated ∧ q'.deleted = q.deleted ∧
      q'.activeTimers ⊆ q.activeTimers ∧ (∀ e ∈ expired, e ∈ q.timers) ∧
      ∀ e ∈ q.timers, e < toLex (now, UINTPTR_MAX) → e ∈ expired := by
  set sentry : Entry := toLex (now, UINTPTR_MAX)
  set due := q.timers.filter fun e => e < sentry
  set rest := q.timers.filter fun e => ¬ e < sentry
  have hdue : ∀ e, e ∈ due.sort ↔ e ∈ q.timers ∧ e < sentry := by
    intro e
    rw [Finset.mem_sort]
    exact Finset.mem_filter
  have hin : ∀ e ∈ due.sort, e ∈ q.timers := fun e he => ((hdue e).mp he).1
  have hrest : ∀ e, e ∈ rest ↔ e ∈ q.timers ∧ e ∉ due.sort := by
    intro e
    rw [hdue]
    refine Finset.mem_filter.trans (and_congr_right fun he => ?_)
    exact ⟨fun hlate hboth => hlate hboth.2, fun hnot hlt => hnot ⟨he, hlt⟩⟩
  have hnodup : (due.sort.map Entry.timer).Nodup := by
    refine List.Nodup.map_on ?_ (Finset.sort_nodup _ _)
    exact fun e he e' he' => h.entry_eq (hin e he) (hin e' he')
  have hfirst : ∀ e ∈ first? rest, now < e.expiration := by
    intro e he
    have hmem := Finset.mem_filter.mp (mem_of_first? he)
    exact h.not_due hmem.1 hmem.2
  obtain ⟨active, hfold, hmem⟩ := deactivate_all (q := { q with timers := rest })
    (fun id hid => by
      obtain ⟨t, ht, hseq, -⟩ := h.active id hid
      exact ⟨t, ht, hseq⟩)
    (fun e he => by
      obtain ⟨t, ht, -, hactive⟩ := h.timers e (hin e he)
      exact ⟨t, ht, hactive⟩) hnodup
  have hgood := h.taken hin hnodup hrest hmem
  refine ⟨due.sort, { q with
      timers := rest
      activeTimers := active
      callingExpiredTimers := true
      cancelingTimers := ∅ }, ?_, hgood.flags q.timerfd true ∅, rfl, rfl, rfl, rfl,
    fun id hid => ((hmem id).mp hid).1, hin, fun e he hlt => (hdue e).mpr ⟨he, hlt⟩⟩
  unfold TimerQueue.beginBatch TimerQueue.getExpired
  rw [assertThat_of h.size]
  show (do
    let p ← (do
      assertThat (∀ e ∈ first? rest, now < e.expiration)
      let q ← due.sort.foldlM deactivate { q with timers := rest }
      assertThat (q.timers.card = q.activeTimers.card)
      pure (due.sort, q))
    _) = _
  rw [assertThat_of hfirst, hfold]
  show (do
    let p ← (do
      assertThat (rest.card = active.card)
      _)
    _) = _
  rw [assertThat_of hgood.size]
  rfl

/-- A timer somebody holds may be started again. -/
theorem restarted {a : Addr} {t : Timer} (h : Good q (a :: held)) (ht : q.heap a = some t)
    (now : Timestamp) :
    Good { q with heap := Function.update q.heap a (some (t.restart now)) } (a :: held) := by
  have hseq : (t.restart now).sequence = t.sequence := rfl
  have hheap : ∀ b, b ≠ a → Function.update q.heap a (some (t.restart now)) b = q.heap b :=
    fun b hb => Function.update_of_ne hb _ _
  have hout : ∀ e ∈ q.timers, e.timer ≠ a := h.apart a List.mem_cons_self
  refine ⟨h.memory.update ht hseq, h.nodup, ?_, h.apart, ?_, ?_, ?_⟩
  · intro b hb
    by_cases hba : b = a
    · subst hba
      exact ⟨_, Function.update_self ..⟩
    · obtain ⟨u, hu⟩ := h.alive b hb
      exact ⟨u, (hheap b hba).trans hu⟩
  · intro b u hb
    by_cases hba : b = a
    · exact Or.inl (by rw [hba]; exact List.mem_cons_self)
    · exact h.covered b u ((hheap b hba).symm.trans hb)
  · intro e he
    obtain ⟨u, hu, hrest⟩ := h.timers e he
    exact ⟨u, (hheap _ (hout e he)).trans hu, hrest⟩
  · intro id hid
    obtain ⟨u, hu, hrest⟩ := h.active id hid
    refine ⟨u, (hheap _ ?_).trans hu, hrest⟩
    exact hout _ hrest.2

/-- A timer somebody holds may be deleted. -/
theorem deleted {a : Addr} {t : Timer} (h : Good q (a :: held)) (ht : q.heap a = some t) :
    Good { q with heap := Function.update q.heap a none, deleted := q.deleted ++ [t.sequence] } held := by
  obtain ⟨hnot, hnodup⟩ := List.nodup_cons.mp h.nodup
  have hheap : ∀ b, b ≠ a → Function.update q.heap a none b = q.heap b :=
    fun b hb => Function.update_of_ne hb _ _
  have hout : ∀ e ∈ q.timers, e.timer ≠ a := h.apart a List.mem_cons_self
  refine ⟨h.memory.delete ht, hnodup, ?_, fun b hb => h.apart b (List.mem_cons_of_mem a hb), ?_, ?_, ?_⟩
  · intro b hb
    obtain ⟨u, hu⟩ := h.alive b (List.mem_cons_of_mem a hb)
    exact ⟨u, (hheap b (by rintro rfl; exact hnot hb)).trans hu⟩
  · intro b u hb
    by_cases hba : b = a
    · subst hba
      have hb : Function.update q.heap b none b = some u := hb
      rw [Function.update_self] at hb
      cases hb
    · rcases h.covered b u ((hheap b hba).symm.trans hb) with hmem | hin
      · exact Or.inl ((List.mem_cons.mp hmem).resolve_left hba)
      · exact Or.inr hin
  · intro e he
    obtain ⟨u, hu, hrest⟩ := h.timers e he
    exact ⟨u, (hheap _ (hout e he)).trans hu, hrest⟩
  · intro id hid
    obtain ⟨u, hu, hrest⟩ := h.active id hid
    exact ⟨u, (hheap _ (hout _ hrest.2)).trans hu, hrest⟩

/-- What `reset` may have put back, and what has become of the heap. -/
structure ResetTo (q q' : TimerQueue) (expired : List Entry) : Prop where
  canceling : q'.cancelingTimers = q.cancelingTimers
  calling : q'.callingExpiredTimers = q.callingExpiredTimers
  numCreated : q'.numCreated = q.numCreated
  active : ∀ id ∈ q'.activeTimers, id ∈ q.activeTimers ∨
    ∃ e ∈ expired, ∃ t, q.heap e.timer = some t ∧ id = (e.timer, t.sequence) ∧ t.repeats ∧
      id ∉ q.cancelingTimers
  heap : ∀ a t', q'.heap a = some t' →
    ∃ t, q.heap a = some t ∧ t.sequence = t'.sequence ∧ (t'.repeats ↔ t.repeats)

theorem ResetTo.trans {q₁ q₂ q₃ : TimerQueue} {e : Entry} {es : List Entry}
    (h : ResetTo q₁ q₂ [e]) (h' : ResetTo q₂ q₃ es) : ResetTo q₁ q₃ (e :: es) where
  canceling := h'.canceling.trans h.canceling
  calling := h'.calling.trans h.calling
  numCreated := h'.numCreated.trans h.numCreated
  active := by
    intro id hid
    rcases h'.active id hid with hid | ⟨e', he', t', ht', hid, hrep, hnot⟩
    · refine (h.active id hid).imp_right fun ⟨e', he', hrest⟩ => ⟨e', ?_, hrest⟩
      rw [List.mem_singleton.mp he']
      exact List.mem_cons_self
    · obtain ⟨t, ht, hseq, hrepeats⟩ := h.heap _ _ ht'
      refine Or.inr ⟨e', List.mem_cons_of_mem e he', t, ht, ?_, hrepeats.mp hrep, ?_⟩
      · rw [hid, hseq]
      · rwa [← h.canceling]
  heap := by
    intro a t'' ht''
    obtain ⟨t', ht', hseq', hrep'⟩ := h'.heap a t'' ht''
    obtain ⟨t, ht, hseq, hrep⟩ := h.heap a t' ht'
    exact ⟨t, ht, hseq.trans hseq', hrep'.trans hrep⟩

theorem resetOne {e : Entry} (h : Good q (e.timer :: held)) (now : Timestamp) :
    ∃ q', q.resetOne now e = .ok q' ∧ Good q' held ∧ ResetTo q q' [e] := by
  obtain ⟨t, ht⟩ := h.alive e.timer List.mem_cons_self
  unfold TimerQueue.resetOne deref
  rw [ht]
  show ∃ q', (if t.repeats ∧ (e.timer, t.sequence) ∉ q.cancelingTimers then _ else _) = _ ∧ _
  by_cases hagain : t.repeats ∧ (e.timer, t.sequence) ∉ q.cancelingTimers
  · rw [if_pos hagain]
    have hre := h.restarted ht now
    have hself : Function.update q.heap e.timer (some (t.restart now)) e.timer
        = some (t.restart now) := Function.update_self ..
    obtain ⟨earliestChanged, hinsert⟩ := hre.insert hself
    refine ⟨_, by rw [hinsert]; rfl, hre.inserted hself, rfl, rfl, rfl, ?_, ?_⟩
    · intro id hid
      rcases Finset.mem_insert.mp hid with rfl | hid
      · exact Or.inr ⟨e, List.mem_singleton_self e, t, ht, rfl, hagain⟩
      · exact Or.inl hid
    · intro a t' ht'
      by_cases hae : a = e.timer
      · subst hae
        have ht' : Function.update q.heap e.timer (some (t.restart now)) e.timer = some t' := ht'
        rw [hself] at ht'
        cases ht'
        exact ⟨t, ht, rfl, Iff.rfl⟩
      · exact ⟨t', (Function.update_of_ne hae _ _).symm.trans ht', rfl, Iff.rfl⟩
  · rw [if_neg hagain]
    refine ⟨_, by rw [TimerQueue.delete]; simp only [ht], h.deleted ht, rfl, rfl, rfl,
      fun id hid => Or.inl hid, ?_⟩
    intro a t' ht'
    by_cases hae : a = e.timer
    · subst hae
      have ht' : Function.update q.heap e.timer none e.timer = some t' := ht'
      rw [Function.update_self] at ht'
      cases ht'
    · exact ⟨t', (Function.update_of_ne hae _ _).symm.trans ht', rfl, Iff.rfl⟩

theorem resetAll (now : Timestamp) {expired : List Entry} : ∀ {q : TimerQueue},
    Good q (expired.map Entry.timer ++ held) →
    ∃ q', expired.foldlM (TimerQueue.resetOne now) q = .ok q' ∧ Good q' held ∧
      ResetTo q q' expired := by
  induction expired with
  | nil =>
      intro q h
      exact ⟨q, rfl, h, rfl, rfl, rfl, fun id hid => Or.inl hid, fun a t ht => ⟨t, ht, rfl, Iff.rfl⟩⟩
  | cons e es ih =>
      intro q h
      have hhead : Good q (e.timer :: (es.map Entry.timer ++ held)) := h
      obtain ⟨q₁, hone, hgood₁, hto₁⟩ := hhead.resetOne now
      obtain ⟨q₂, hrest, hgood₂, hto₂⟩ := ih hgood₁
      refine ⟨q₂, ?_, hgood₂, hto₁.trans hto₂⟩
      rw [List.foldlM_cons, hone]
      exact hrest

/-- Behind the last callback every timer of the batch is back in the queue or deleted. -/
theorem endBatch {expired : List Entry} (h : Good q (expired.map Entry.timer ++ held))
    (now : Timestamp) :
    ∃ q', q.endBatch expired now = .ok q' ∧ Good q' held ∧
      ResetTo { q with callingExpiredTimers := false } q' expired := by
  obtain ⟨q', hfold, hgood, hto⟩ := resetAll now (h.flags q.timerfd false q.cancelingTimers)
  unfold TimerQueue.endBatch TimerQueue.reset
  rw [show expired.foldlM (TimerQueue.resetOne now) { q with callingExpiredTimers := false } = _
    from hfold]
  simp only [bind, Except.bind]
  cases hfirst : first? q'.timers with
  | none => exact ⟨q', rfl, hgood, hto⟩
  | some e =>
      obtain ⟨t, ht, -⟩ := hgood.timers e (mem_of_first? hfirst)
      simp only [deref, ht]
      by_cases hvalid : 0 < t.expiration
      · refine ⟨{ q' with timerfd := some t.expiration }, ?_,
          hgood.flags (some t.expiration) q'.callingExpiredTimers q'.cancelingTimers,
          hto.canceling, hto.calling, hto.numCreated, hto.active, hto.heap⟩
        show (pure (if 0 < t.expiration then _ else _) : Except Fault TimerQueue) = _
        rw [if_pos hvalid]
        rfl
      · refine ⟨q', ?_, hgood, hto⟩
        show (pure (if 0 < t.expiration then _ else _) : Except Fault TimerQueue) = _
        rw [if_neg hvalid]
        rfl

/-- `~TimerQueue` deletes what the queue owns. -/
theorem destroy (h : Good q held) :
    ∃ q', q.destroy = .ok q' ∧ Allocated q'.heap q'.numCreated q'.deleted ∧
      q'.numCreated = q.numCreated ∧ ∀ a t, q'.heap a = some t → a ∈ held := by
  have hall : ∀ (es : List Entry) (q : TimerQueue), Allocated q.heap q.numCreated q.deleted →
      (∀ e ∈ es, ∃ t, q.heap e.timer = some t) → (es.map Entry.timer).Nodup →
      ∃ q', es.foldlM (fun q e => q.delete e.timer) q = .ok q' ∧
        Allocated q'.heap q'.numCreated q'.deleted ∧ q'.numCreated = q.numCreated ∧
        ∀ a t, q'.heap a = some t → q.heap a = some t ∧ a ∉ es.map Entry.timer := by
    intro es
    induction es with
    | nil => exact fun q hmem _ _ => ⟨q, rfl, hmem, rfl, fun a t ht => ⟨ht, List.not_mem_nil⟩⟩
    | cons e es ih =>
        intro q hmem halive hnodup
        obtain ⟨hnot, hnodup⟩ := List.nodup_cons.mp hnodup
        obtain ⟨t, ht⟩ := halive e List.mem_cons_self
        obtain ⟨q', hfold, hmem', hnum, hleft⟩ := ih
          { q with heap := Function.update q.heap e.timer none, deleted := q.deleted ++ [t.sequence] }
          (hmem.delete ht) (fun e' he' => by
            obtain ⟨u, hu⟩ := halive e' (List.mem_cons_of_mem e he')
            refine ⟨u, (Function.update_of_ne ?_ _ _).trans hu⟩
            intro heq
            rw [← heq] at hnot
            exact hnot (List.mem_map_of_mem he')) hnodup
        refine ⟨q', ?_, hmem', hnum, ?_⟩
        · rw [List.foldlM_cons, TimerQueue.delete]
          simp only [ht]
          exact hfold
        · intro a u hu
          obtain ⟨hu, hout⟩ := hleft a u hu
          have hu : Function.update q.heap e.timer none a = some u := hu
          have hae : a ≠ e.timer := by
            rintro rfl
            rw [Function.update_self] at hu
            cases hu
          rw [Function.update_of_ne hae] at hu
          exact ⟨hu, by rw [List.map_cons, List.mem_cons, not_or]; exact ⟨hae, hout⟩⟩
  have hmem : ∀ e ∈ q.timers.sort, e ∈ q.timers := fun e he => (Finset.mem_sort _).mp he
  obtain ⟨q', hfold, hmemory, hnum, hleft⟩ := hall q.timers.sort q h.memory
    (fun e he => by
      obtain ⟨t, ht, -⟩ := h.timers e (hmem e he)
      exact ⟨t, ht⟩)
    (List.Nodup.map_on (fun e he e' he' => h.entry_eq (hmem e he) (hmem e' he'))
      (Finset.sort_nodup _ _))
  refine ⟨q', hfold, hmemory, hnum, fun a t ht => ?_⟩
  obtain ⟨ht, hout⟩ := hleft a t ht
  refine (h.covered a t ht).resolve_right fun hin => hout ?_
  exact List.mem_map.mpr ⟨_, (Finset.mem_sort _).mpr hin, rfl⟩

end Good

end Net
