/-
What the two pollers ask of the kernel.

`EPollPoller` first: its index says at all times whether the kernel's interest set has the
descriptor, and no operation on it goes wrong.

Then both pollers on the same operations.  `PollPoller` agrees with what the channels ask
for, and with `EPollPoller`, as long as no channel is enabled again while it is ignored, none
is new and without events, and none is used after it has been removed.
-/
import Muduo.Net.Pollers

namespace Net

open Lib

variable {C : Type} [DecidableEq C] {F : Fds C}

/-! ### EPollPoller -/

namespace EPollPoller

variable {p : EPollPoller C} {c : C}

/-- How the index of a channel, its events, the map and the interest set go together. -/
inductive Row (c : C) : Int → Events → Option C → Option (Events × C) → Prop
  | new : Row c kNew 0 none none
  | added (e : Events) : Row c kAdded e (some c) (some (e, c))
  | deleted : Row c kDeleted 0 (some c) none

/-- What every operation keeps. -/
structure Registered (F : Fds C) (p : EPollPoller C) : Prop where
  row : ∀ c, Row c (p.index c) (p.events c) (p.channels (F.fd c)) (p.interest (F.fd c))
  others : ∀ n, (∀ c, F.fd c ≠ n) → p.channels n = none ∧ p.interest n = none
  failed : p.failed = 0

omit [DecidableEq C] in
theorem registered_init : Registered F init :=
  ⟨fun _ => .new, fun _ _ => ⟨rfl, rfl⟩, rfl⟩

/-- The poller has the channel. -/
def Knows (F : Fds C) (p : EPollPoller C) (c : C) : Prop := p.channels (F.fd c) = some c

/-- The poller with another row for one channel. -/
def put (F : Fds C) (p : EPollPoller C) (c : C) (i : Int) (e : Events) (channel : Option C)
    (watched : Option (Events × C)) : EPollPoller C where
  events := Function.update p.events c e
  index := Function.update p.index c i
  channels := Function.update p.channels (F.fd c) channel
  interest := Function.update p.interest (F.fd c) watched
  failed := p.failed

theorem Registered.put (h : Registered F p) {i : Int} {e : Events} {channel : Option C}
    {watched : Option (Events × C)} (hrow : Row c i e channel watched) :
    Registered F (p.put F c i e channel watched) := by
  refine ⟨?_, ?_, h.failed⟩
  · intro c'
    simp only [EPollPoller.put]
    by_cases hc : c' = c
    · subst hc
      simpa using hrow
    · have hfd : F.fd c' ≠ F.fd c := fun heq => hc (F.distinct heq)
      simpa [hc, hfd] using h.row c'
  · intro n hn
    have hfd : n ≠ F.fd c := fun heq => hn c heq.symm
    simp only [EPollPoller.put]
    simpa [hfd] using h.others n hn

theorem update_of_eq {α β : Type} [DecidableEq α] {f : α → β} {a : α} {b : β} (h : f a = b) :
    Function.update f a b = f := by
  rw [← h, Function.update_eq_self]

/-- `updateChannel`, with any events. -/
theorem Registered.update (h : Registered F p) (c : C) (e : Events) :
    ∃ i watched, step F (.update c e) p = .ok (p.put F c i e (some c) watched) ∧
      Row c i e (some c) watched := by
  have hrow := h.row c
  generalize hi : p.index c = i at hrow
  generalize hch : p.channels (F.fd c) = channel at hrow
  generalize hw : p.interest (F.fd c) = watched at hrow
  generalize p.events c = e₀ at hrow
  cases hrow with
  | new =>
      refine ⟨kAdded, some (e, c), ?_, .added e⟩
      simp [step, updateChannel, hi, hch, hw, assertThat, setIndex, EPollPoller.update, epollCtl,
        EPollPoller.put, bind, Except.bind]
  | added =>
      by_cases he : e = 0
      · subst he
        refine ⟨kDeleted, none, ?_, .deleted⟩
        simp [step, updateChannel, hi, hch, hw, assertThat, setIndex, EPollPoller.update, epollCtl,
          EPollPoller.put, bind, Except.bind, pure, Except.pure, kAdded, kNew, kDeleted,
          update_of_eq hch]
      · refine ⟨kAdded, some (e, c), ?_, .added e⟩
        simp [step, updateChannel, hi, hch, hw, he, assertThat, EPollPoller.update, epollCtl,
          EPollPoller.put, bind, Except.bind, kAdded, kNew, kDeleted, update_of_eq hch]
  | deleted =>
      refine ⟨kAdded, some (e, c), ?_, .added e⟩
      simp [step, updateChannel, hi, hch, hw, assertThat, setIndex, EPollPoller.update, epollCtl,
        EPollPoller.put, bind, Except.bind, kAdded, kNew, kDeleted, update_of_eq hch]

/-- `removeChannel`, of a channel that is known and has no events. -/
theorem Registered.remove (h : Registered F p) {c : C} (hknown : Knows F p c)
    (hnone : p.events c = 0) :
    step F (.remove c) p = .ok (p.put F c kNew 0 none none) := by
  have hrow := h.row c
  rw [Knows] at hknown
  generalize hi : p.index c = i at hrow
  generalize hw : p.interest (F.fd c) = watched at hrow
  rw [hknown, hnone] at hrow
  cases hrow with
  | added =>
      simp [step, removeChannel, hi, hknown, hnone, hw, assertThat, setIndex, EPollPoller.update,
        epollCtl, EPollPoller.put, bind, Except.bind, pure, Except.pure, update_of_eq hnone]
  | deleted =>
      simp [step, removeChannel, hi, hknown, hnone, assertThat, setIndex,
        EPollPoller.put, bind, Except.bind, pure, Except.pure, kAdded, kDeleted, update_of_eq hnone,
        update_of_eq hw]

/-- The precondition of `removeChannel`. -/
def Allowed (F : Fds C) : PollerOp C → EPollPoller C → Prop
  | .update _ _, _ => True
  | .remove c, p => Knows F p c ∧ p.events c = 0

instance (op : PollerOp C) (p : EPollPoller C) : Decidable (Allowed F op p) :=
  match op with
  | .update _ _ => isTrue trivial
  | .remove c => inferInstanceAs (Decidable (p.channels (F.fd c) = some c ∧ p.events c = 0))

theorem Registered.step (h : Registered F p) {op : PollerOp C} (hallowed : Allowed F op p) :
    ∃ p', EPollPoller.step F op p = .ok p' ∧ Registered F p' := by
  cases op with
  | update c e =>
      obtain ⟨i, watched, hstep, hrow⟩ := h.update c e
      exact ⟨_, hstep, h.put hrow⟩
  | remove c => exact ⟨_, h.remove hallowed.1 hallowed.2, h.put .new⟩

omit [DecidableEq C] in
/-- What `epoll_wait` returns is what has been registered. -/
theorem Registered.interest (h : Registered F p) {n : Nat} {e : Events} {c : C}
    (hin : p.interest n = some (e, c)) : F.fd c = n ∧ Knows F p c ∧ e = p.events c := by
  by_cases hn : ∃ c', F.fd c' = n
  · obtain ⟨c', rfl⟩ := hn
    have hrow := h.row c'
    rw [hin] at hrow
    generalize hi : p.index c' = i at hrow
    generalize hch : p.channels (F.fd c') = channel at hrow
    generalize he : p.events c' = e' at hrow
    cases hrow with
    | added => exact ⟨rfl, hch, he.symm⟩
  · have hnone := (h.others n fun c' hc' => hn ⟨c', hc'⟩).2
    rw [hnone] at hin
    cases hin

theorem Registered.fillActiveChannels (h : Registered F p) (active : List (C × Events))
    (hactive : ∀ x ∈ active, ∃ n e, p.interest n = some (e, x.1)) :
    p.fillActiveChannels F active = .ok active := by
  induction active with
  | nil => rfl
  | cons x rest ih =>
      obtain ⟨channel, revents⟩ := x
      obtain ⟨n, e, hin⟩ := hactive _ List.mem_cons_self
      have hknows : p.channels (F.fd channel) = some channel := (h.interest hin).2.1
      rw [EPollPoller.fillActiveChannels, ih fun x hx => hactive x (List.mem_cons_of_mem _ hx)]
      simp [hknows, assertThat, bind, Except.bind, pure, Except.pure]

/-- **The index of a channel says where it is**, in every run: no operation fails, no call of
`epoll_ctl` does, and what `epoll_wait` can return is in the map of the poller. -/
theorem index_registered (F : Fds C) (ops : List (PollerOp C))
    (hallowed : Along (EPollPoller.step F) (Allowed F) ops init) :
    ∃ p, run (EPollPoller.step F) ops init = .ok p ∧ p.failed = 0 ∧
      (∀ c, (p.index c = kAdded ↔ p.interest (F.fd c) ≠ none) ∧
        (p.index c = kDeleted ↔
          p.channels (F.fd c) = some c ∧ p.interest (F.fd c) = none) ∧
        (p.index c = kNew ↔ p.channels (F.fd c) ≠ some c ∧ p.interest (F.fd c) = none)) ∧
      ∀ active : List (C × Events), (∀ x ∈ active, ∃ n e, p.interest n = some (e, x.1)) →
        (∀ x ∈ active, p.channels (F.fd x.1) = some x.1) ∧
          p.fillActiveChannels F active = .ok active := by
  obtain ⟨p, hrun, h⟩ := run_ok (fun _ _ h hallowed => Registered.step h hallowed)
    (registered_init (F := F)) hallowed
  refine ⟨p, hrun, h.failed, ?_, ?_⟩
  · intro c
    have hrow := h.row c
    generalize p.events c = e at hrow
    generalize p.index c = i at hrow ⊢
    generalize p.channels (F.fd c) = channel at hrow ⊢
    generalize p.interest (F.fd c) = watched at hrow ⊢
    cases hrow with
    | new => simp [kNew, kAdded, kDeleted]
    | added => simp [kNew, kAdded, kDeleted]
    | deleted => simp [kNew, kAdded, kDeleted]
  · intro active hactive
    refine ⟨?_, h.fillActiveChannels active hactive⟩
    intro x hx
    obtain ⟨n, e, hin⟩ := hactive x hx
    exact (h.interest hin).2.1

theorem index_registered_closed :
    let F : Fds Unit := ⟨fun _ => 3, fun _ _ _ => rfl⟩
    let ops : List (PollerOp Unit) := [.update () 3, .update () 0, .update () 0, .remove ()]
    Along (EPollPoller.step F) (Allowed F) ops init ∧
      ∃ p, run (EPollPoller.step F) ops init = .ok p ∧ p.failed = 0 := by
  intro F ops
  have hallowed : Along (EPollPoller.step F) (Allowed F) ops init := by decide
  obtain ⟨p, hrun, hfailed, -⟩ := index_registered F ops hallowed
  exact ⟨hallowed, p, hrun, hfailed⟩

omit [DecidableEq C] in
/-- What the kernel watches is what the known channels ask for. -/
theorem Registered.monitored (h : Registered F p) :
    p.monitored = {x | ∃ c, F.fd c = x.1 ∧ Knows F p c ∧ p.events c = x.2 ∧ x.2 ≠ 0} := by
  ext ⟨n, e⟩
  constructor
  · rintro ⟨c, hin, hne⟩
    obtain ⟨hfd, hknows, he⟩ := h.interest hin
    exact ⟨c, hfd, hknows, he.symm, hne⟩
  · rintro ⟨c, rfl, hknows, rfl, hne⟩
    refine ⟨c, ?_, hne⟩
    have hrow := h.row c
    rw [Knows] at hknows
    rw [hknows] at hrow
    simp only at hne
    generalize hi : p.index c = i at hrow
    generalize hw : p.interest (F.fd c) = watched at hrow
    generalize p.events c = e at hrow hne
    cases hrow with
    | added => rfl
    | deleted => exact absurd rfl hne

end EPollPoller

/-! ### PollPoller -/

namespace PollPoller

variable {p : PollPoller C} {r : Registry C} {c : C}

/-- The masks that the operations of a channel produce. -/
def Mask (e : Events) : Prop := e = 0 ∨ e = 3 ∨ e = 4 ∨ e = 7

instance (e : Events) : Decidable (Mask e) := inferInstanceAs (Decidable (_ ∨ _))

theorem Mask.toUInt16 {e : Events} (h : Mask e) : e.toUInt16.toUInt32 = e := by
  rcases h with rfl | rfl | rfl | rfl <;> rfl

/-- The entry of a channel with these events. -/
def entry (fd : Nat) (e : Events) : PollFd := ⟨if e = 0 then ignored fd else fd, e.toUInt16⟩

theorem entry_fd {n m : Nat} {e e' : Events} (h : (entry n e).fd = (entry m e').fd) : n = m := by
  simp only [entry, ignored] at h
  split_ifs at h <;> omega

/-- The poller has what the registry says. -/
structure Mirrors (F : Fds C) (r : Registry C) (p : PollPoller C) : Prop where
  fresh : ∀ c, r c = .fresh → p.index c < 0 ∧ p.channels (F.fd c) = none
  removed : ∀ c, r c = .removed → 0 ≤ p.index c ∧ p.channels (F.fd c) = none
  events : ∀ c, p.events c = (r c).events ∧ Mask (r c).events
  known : ∀ c e, r c = .known e → p.channels (F.fd c) = some c ∧
    ∃ i : Nat, p.index c = i ∧ p.pollfds[i]? = some (entry (F.fd c) e)
  covers : ∀ i < p.pollfds.length, ∃ c e, r c = .known e ∧ p.index c = i

/-- A registration that is not the new one is an old one of another channel. -/
theorem of_update {new old : Registration} {c' : C} (hne : new ≠ old)
    (h : Function.update r c new c' = old) : c' ≠ c ∧ r c' = old := by
  by_cases heq : c' = c
  · subst heq
    exact absurd ((Function.update_self c' new r).symm.trans h) hne
  · exact ⟨heq, (Function.update_of_ne heq new r).symm.trans h⟩

omit [DecidableEq C] in
theorem mirrors_init : Mirrors F Registry.init (init : PollPoller C) where
  fresh := fun _ _ => ⟨Int.negSucc_lt_zero 0, rfl⟩
  removed := nofun
  events := fun _ => ⟨rfl, Or.inl rfl⟩
  known := nofun
  covers := nofun

omit [DecidableEq C] in
/-- The entries are those of the known channels. -/
theorem Mirrors.entry_of_mem (h : Mirrors F r p) {x : PollFd} (hx : x ∈ p.pollfds) :
    ∃ c e, r c = .known e ∧ x = entry (F.fd c) e := by
  obtain ⟨i, hi, rfl⟩ := List.mem_iff_getElem.mp hx
  obtain ⟨c, e, hc, hindex⟩ := h.covers i hi
  obtain ⟨-, j, hj, hentry⟩ := h.known c e hc
  obtain rfl : i = j := by omega
  rw [List.getElem?_eq_getElem hi] at hentry
  exact ⟨c, e, hc, Option.some.inj hentry⟩

omit [DecidableEq C] in
/-- No two known channels have one index. -/
theorem Mirrors.index_inj (h : Mirrors F r p) {c c' : C} {e e' : Events} (hc : r c = .known e)
    (hc' : r c' = .known e') (hindex : p.index c = p.index c') : c = c' := by
  obtain ⟨-, i, hi, hentry⟩ := h.known c e hc
  obtain ⟨-, j, hj, hentry'⟩ := h.known c' e' hc'
  obtain rfl : i = j := by omega
  rw [hentry] at hentry'
  exact F.distinct (entry_fd (congrArg PollFd.fd (Option.some.inj hentry')))

omit [DecidableEq C] in
/-- The kernel watches the channels with events. -/
theorem Mirrors.monitored (h : Mirrors F r p) : p.monitored = r.monitored F := by
  ext ⟨n, e⟩
  constructor
  · rintro ⟨x, hx, hfd, hevents⟩
    obtain ⟨c, e', hc, rfl⟩ := h.entry_of_mem hx
    have hmask : Mask e' := by
      have := (h.events c).2
      rwa [hc] at this
    simp only [entry] at hfd hevents
    rw [hmask.toUInt16] at hevents
    subst hevents
    by_cases he : e' = 0
    · rw [if_pos he, ignored] at hfd
      omega
    · rw [if_neg he] at hfd
      exact ⟨c, by exact_mod_cast hfd, hc, he⟩
  · rintro ⟨c, hfd, hc, he⟩
    simp only at hfd hc he
    obtain ⟨-, i, -, hentry⟩ := h.known c e hc
    have hmask : Mask e := by
      have := (h.events c).2
      rwa [hc] at this
    refine ⟨entry (F.fd c) e, List.mem_of_getElem? hentry, ?_, hmask.toUInt16⟩
    simp only [entry, if_neg he]
    exact_mod_cast hfd

/-- The events of a channel are changed. -/
theorem Mirrors.events_update (h : Mirrors F r p) {e : Events} (hmask : Mask e) (c' : C) :
    Function.update p.events c e c' = (Function.update r c (.known e) c').events ∧
      Mask (Function.update r c (.known e) c').events := by
  by_cases heq : c' = c
  · subst heq
    simpa [Registration.events] using hmask
  · simpa [heq] using h.events c'

/-- A channel that is new gets an entry at the end. -/
theorem Mirrors.update_fresh (h : Mirrors F r p) (hc : r c = .fresh) (e : Events) :
    step F (.update c e) p = .ok
      { events := Function.update p.events c e
        index := Function.update p.index c p.pollfds.length
        channels := Function.update p.channels (F.fd c) (some c)
        pollfds := p.pollfds ++ [⟨F.fd c, e.toUInt16⟩] } := by
  obtain ⟨hindex, hchannels⟩ := h.fresh c hc
  simp [step, updateChannel, hindex, hchannels, assertThat, bind, Except.bind, pure, Except.pure]

theorem Mirrors.fresh_known (h : Mirrors F r p) (hc : r c = .fresh) {e : Events} (he : e ≠ 0)
    (hmask : Mask e) :
    Mirrors F (Function.update r c (.known e))
      { events := Function.update p.events c e
        index := Function.update p.index c p.pollfds.length
        channels := Function.update p.channels (F.fd c) (some c)
        pollfds := p.pollfds ++ [⟨F.fd c, e.toUInt16⟩] } := by
  have hfd : ∀ c', c' ≠ c → F.fd c' ≠ F.fd c := fun c' hne heq => hne (F.distinct heq)
  refine ⟨?_, ?_, h.events_update hmask, ?_, ?_⟩
  · intro c' hc'
    obtain ⟨hne, hc'⟩ := of_update (by simp) hc'
    simpa [hne, hfd c' hne] using h.fresh c' hc'
  · intro c' hc'
    obtain ⟨hne, hc'⟩ := of_update (by simp) hc'
    simpa [hne, hfd c' hne] using h.removed c' hc'
  · intro c' e' hc'
    by_cases heq : c' = c
    · subst heq
      simp only [Function.update_self, Registration.known.injEq] at hc'
      subst hc'
      refine ⟨by simp, p.pollfds.length, by simp, ?_⟩
      simp [entry, he]
    · obtain ⟨hch, i, hi, hentry⟩ := h.known c' e' (by simpa [heq] using hc')
      refine ⟨by simpa [hfd c' heq] using hch, i, by simpa [heq] using hi, ?_⟩
      exact List.getElem?_append_left (List.getElem?_eq_some_iff.mp hentry).1 ▸ hentry
  · intro i hi
    simp only [List.length_append, List.length_singleton] at hi
    by_cases hlast : i = p.pollfds.length
    · exact ⟨c, e, by simp, by simp [hlast]⟩
    · obtain ⟨c', e', hc', hindex⟩ := h.covers i (by omega)
      have hne : c' ≠ c := by
        rintro rfl
        rw [hc] at hc'
        cases hc'
      exact ⟨c', e', by simpa [hne] using hc', by simpa [hne] using hindex⟩

/-- A known channel has its entry changed, and is ignored for good once it has been. -/
theorem Mirrors.update_known (h : Mirrors F r p) {e₀ : Events} (hc : r c = .known e₀) (e : Events) :
    ∃ i : Nat, p.index c = i ∧ i < p.pollfds.length ∧ step F (.update c e) p = .ok
      { p with
        events := Function.update p.events c e
        pollfds := p.pollfds.set i
          ⟨if e = 0 then ignored (F.fd c) else (entry (F.fd c) e₀).fd, e.toUInt16⟩ } := by
  obtain ⟨hchannels, i, hindex, hentry⟩ := h.known c e₀ hc
  have hlt : i < p.pollfds.length := (List.getElem?_eq_some_iff.mp hentry).1
  have hfd : (entry (F.fd c) e₀).fd = F.fd c ∨ (entry (F.fd c) e₀).fd = ignored (F.fd c) := by
    by_cases he : e₀ = 0
    · exact Or.inr (if_pos he)
    · exact Or.inl (if_neg he)
  refine ⟨i, hindex, hlt, ?_⟩
  simp only [step, updateChannel, hindex, hchannels, assertThat, bind, Except.bind, pure, Except.pure,
    Int.toNat_natCast, hentry, hfd]
  by_cases he : e = 0
  · simp [he, hlt]
  · simp [he, hlt]

theorem Mirrors.known_known (h : Mirrors F r p) {e₀ e : Events} (hc : r c = .known e₀)
    (hmask : Mask e) {i : Nat} (hindex : p.index c = i) (hlt : i < p.pollfds.length) :
    Mirrors F (Function.update r c (.known e))
      { p with
        events := Function.update p.events c e
        pollfds := p.pollfds.set i (entry (F.fd c) e) } := by
  refine ⟨?_, ?_, h.events_update hmask, ?_, ?_⟩
  · intro c' hc'
    exact h.fresh c' (of_update (by simp) hc').2
  · intro c' hc'
    exact h.removed c' (of_update (by simp) hc').2
  · intro c' e' hc'
    by_cases heq : c' = c
    · subst heq
      simp only [Function.update_self, Registration.known.injEq] at hc'
      subst hc'
      exact ⟨(h.known c' e₀ hc).1, i, hindex, by simp [hlt]⟩
    · have hc' : r c' = .known e' := by simpa [heq] using hc'
      obtain ⟨hch, j, hj, hentry⟩ := h.known c' e' hc'
      have hne : i ≠ j := by
        rintro rfl
        exact heq (h.index_inj hc' hc (hj.trans hindex.symm))
      exact ⟨hch, j, hj, by rw [← hentry]; exact List.getElem?_set_ne hne⟩
  · intro j hj
    rw [List.length_set] at hj
    obtain ⟨c', e', hc', hindex'⟩ := h.covers j hj
    by_cases heq : c' = c
    · subst heq
      exact ⟨c', e, by simp, hindex'⟩
    · exact ⟨c', e', by simpa [heq] using hc', hindex'⟩

omit [DecidableEq C] in
/-- An entry that is ignored is not watched, whatever events it gets. -/
theorem Mirrors.ignored_stays (h : Mirrors F r p) (hc : r c = .known 0) {i : Nat}
    (hindex : p.index c = i) (events : UInt16) {x : PollFd}
    (hx : x ∈ p.pollfds.set i ⟨(entry (F.fd c) 0).fd, events⟩) : x.fd ≠ F.fd c := by
  obtain ⟨j, hj⟩ := List.mem_iff_getElem?.mp hx
  by_cases hji : i = j
  · subst hji
    have hx' := List.mem_of_getElem? hj
    rw [List.getElem?_set] at hj
    simp only [if_true] at hj
    split at hj
    · obtain rfl := Option.some.inj hj
      simp only [entry, ignored, if_true]
      omega
    · cases hj
  · rw [List.getElem?_set_ne hji] at hj
    have hjlt : j < p.pollfds.length := (List.getElem?_eq_some_iff.mp hj).1
    obtain ⟨c', e', hc', hindex'⟩ := h.covers j hjlt
    obtain ⟨-, k, hk, hentry⟩ := h.known c' e' hc'
    obtain rfl : k = j := by omega
    rw [hentry] at hj
    obtain rfl := Option.some.inj hj
    intro hfd
    have hcc : c' = c := by
      refine F.distinct ?_
      simp only [entry, ignored] at hfd
      split_ifs at hfd <;> omega
    subst hcc
    omega

/-- A channel that has been removed fails an assertion when it is used again. -/
theorem Mirrors.update_removed (h : Mirrors F r p) (hc : r c = .removed) (e : Events) :
    step F (.update c e) p = .error .assertion := by
  obtain ⟨hindex, hchannels⟩ := h.removed c hc
  have hnot : ¬p.index c < 0 := by omega
  simp [step, updateChannel, hnot, hchannels, assertThat, bind, Except.bind]

/-- The last entry takes the place of the one that is removed. -/
theorem Mirrors.moved (h : Mirrors F r p) {i : Nat} (hc : r c = .known 0) (hindex : p.index c = i)
    (hlt : i < p.pollfds.length) {c' : C} {e' : Events} (hc' : r c' = .known e')
    (hindex' : p.index c' = (p.pollfds.length - 1 : Nat)) :
    Mirrors F (Function.update r c .removed)
      { p with
        channels := Function.update p.channels (F.fd c) none
        index := Function.update p.index c' i
        pollfds := (p.pollfds.set i (entry (F.fd c') e')).dropLast } := by
  have hfd : ∀ x, x ≠ c → F.fd x ≠ F.fd c := fun x hne heq => hne (F.distinct heq)
  have hsame : ∀ x e, r x = .known e → p.index x = i → x = c := fun x e hx hi =>
    h.index_inj hx hc (hi.trans hindex.symm)
  have hlast : ∀ x e, r x = .known e → p.index x = (p.pollfds.length - 1 : Nat) → x = c' :=
    fun x e hx hi => h.index_inj hx hc' (hi.trans hindex'.symm)
  have hnotKnown : ∀ x, (∀ e, r x ≠ .known e) → x ≠ c' := by
    rintro x hx rfl
    exact hx e' hc'
  refine ⟨?_, ?_, ?_, ?_, ?_⟩
  · intro x hx
    obtain ⟨hxc, hx⟩ := of_update (by simp) hx
    have hxc' := hnotKnown x (by simp [hx])
    simpa [hfd x hxc, hxc'] using h.fresh x hx
  · intro x hx
    by_cases hxc : x = c
    · subst hxc
      refine ⟨?_, by simp⟩
      by_cases hxc' : x = c'
      · simp [hxc']
      · simp [hxc', hindex]
    · have hx : r x = .removed := by simpa [hxc] using hx
      have hxc' := hnotKnown x (by simp [hx])
      simpa [hfd x hxc, hxc'] using h.removed x hx
  · intro x
    by_cases hxc : x = c
    · subst hxc
      have hnone := (h.events x).1
      rw [hc] at hnone
      simpa [Registration.events, Mask] using hnone
    · simpa [hxc] using h.events x
  · intro x e hx
    obtain ⟨hxc, hx⟩ := of_update (by simp) hx
    obtain ⟨hch, k, hk, hentry⟩ := h.known x e hx
    have hklt : k < p.pollfds.length := (List.getElem?_eq_some_iff.mp hentry).1
    have hki : k ≠ i := by
      rintro rfl
      exact hxc (hsame x e hx hk)
    refine ⟨by simpa [hfd x hxc] using hch, ?_⟩
    by_cases hxc' : x = c'
    · subst hxc'
      obtain rfl : e = e' := by
        rw [hx] at hc'
        exact Registration.known.inj hc'
      refine ⟨i, by simp, ?_⟩
      have hshort : i < p.pollfds.length - 1 := by omega
      rw [List.getElem?_dropLast, List.length_set, if_pos hshort, List.getElem?_set_self hlt]
    · have hkl : k ≠ p.pollfds.length - 1 := by
        rintro rfl
        exact hxc' (hlast x e hx hk)
      refine ⟨k, by simpa [hxc'] using hk, ?_⟩
      rw [List.getElem?_dropLast, List.length_set, if_pos (by omega),
        List.getElem?_set_ne (Ne.symm hki), hentry]
  · intro k hk
    rw [List.length_dropLast, List.length_set] at hk
    by_cases hki : k = i
    · subst hki
      have hne : c' ≠ c := by
        rintro rfl
        rw [hindex] at hindex'
        omega
      exact ⟨c', e', by simpa [hne] using hc', by simp⟩
    · obtain ⟨x, e, hx, hxk⟩ := h.covers k (by omega)
      have hxc : x ≠ c := by
        rintro rfl
        rw [hindex] at hxk
        omega
      have hxc' : x ≠ c' := by
        rintro rfl
        rw [hindex'] at hxk
        omega
      exact ⟨x, e, by simpa [hxc] using hx, by simpa [hxc'] using hxk⟩

/-- `removeChannel`, of a channel that is ignored. -/
theorem Mirrors.remove (h : Mirrors F r p) (hc : r c = .known 0) :
    ∃ p', step F (.remove c) p = .ok p' ∧ Mirrors F (Function.update r c .removed) p' ∧
      p'.events = p.events := by
  obtain ⟨hchannels, i, hindex, hentry⟩ := h.known c 0 hc
  have hlt : i < p.pollfds.length := (List.getElem?_eq_some_iff.mp hentry).1
  have hnone : p.events c = 0 := by
    rw [(h.events c).1, hc]
    rfl
  obtain ⟨c', e', hc', hindex'⟩ := h.covers (p.pollfds.length - 1) (by omega)
  obtain ⟨hch', j, hj, hentry'⟩ := h.known c' e' hc'
  obtain rfl : j = p.pollfds.length - 1 := by omega
  have hback : p.pollfds.getLast? = some (entry (F.fd c') e') := by
    rw [List.getLast?_eq_getElem?, hentry']
  have hget : p.pollfds[i] = entry (F.fd c) 0 := (List.getElem?_eq_some_iff.mp hentry).2
  refine ⟨_, ?_, h.moved hc hindex hlt hc' hindex', rfl⟩
  by_cases hlast : i = p.pollfds.length - 1
  · -- the entry that is removed is the last one itself
    obtain rfl : c' = c := h.index_inj hc' hc (by rw [hindex, hindex', hlast])
    have hset : p.pollfds.set i (entry (F.fd c') e') = p.pollfds := by
      obtain ⟨hk, hend⟩ := List.getElem?_eq_some_iff.mp hentry'
      subst hlast
      rw [← hend]
      exact List.set_getElem_self hk
    have hidx : ((i : Int) = p.pollfds.length - 1) = True := by
      rw [eq_iff_iff, iff_true]
      omega
    rw [hset, EPollPoller.update_of_eq hindex]
    simp [step, removeChannel, hindex, hchannels, hnone, hlt, hget, hback, entry, assertThat, bind,
      Except.bind, pure, Except.pure, hidx]
  · have hidx : ¬((i : Int) = p.pollfds.length - 1) := by omega
    have hne : c' ≠ c := by
      rintro rfl
      rw [hindex] at hindex'
      omega
    have hfd : F.fd c' ≠ F.fd c := fun heq => hne (F.distinct heq)
    have hend : (if (entry (F.fd c') e').fd < 0 then -(entry (F.fd c') e').fd - 1
        else (entry (F.fd c') e').fd).toNat = F.fd c' := by
      simp only [entry, ignored]
      split_ifs <;> omega
    have hcode : (entry (F.fd c) 0).fd = ignored (F.fd c) ∧ (entry (F.fd c) 0).events = 0 := ⟨rfl, rfl⟩
    simp [step, removeChannel, hindex, hchannels, hnone, hlt, hget, hcode, hback, assertThat, bind,
      Except.bind, pure, Except.pure, hidx, hend, hfd, hch']

end PollPoller

/-! ### Both -/

namespace BothPollers

variable {s : BothPollers C}

/-- A channel is removed only when the poller knows it and it has no events. -/
def Allowed : ChannelOp C → BothPollers C → Prop
  | .remove c, s => s.registry c = .known 0
  | _, _ => True

/-- No channel is enabled while it is ignored, none is new and without events, and none is used
after it has been removed. -/
def Plain : ChannelOp C → BothPollers C → Prop
  | .enableReading c, s => s.registry c = .fresh ∨ ∃ e, s.registry c = .known e ∧ e ≠ 0
  | .enableWriting c, s => s.registry c = .fresh ∨ ∃ e, s.registry c = .known e ∧ e ≠ 0
  | .disableWriting c, s => ∃ e, s.registry c = .known e
  | .disableAll c, s => ∃ e, s.registry c = .known e
  | .remove _, _ => True

/-- What both pollers keep as long as the operations are plain. -/
structure Together (F : Fds C) (s : BothPollers C) : Prop where
  poll : PollPoller.Mirrors F s.registry s.poll
  epoll : EPollPoller.Registered F s.epoll
  events : ∀ c, s.epoll.events c = (s.registry c).events
  knows : ∀ c, EPollPoller.Knows F s.epoll c ↔ ∃ e, s.registry c = .known e

omit [DecidableEq C] in
theorem together_init : Together F (init : BothPollers C) where
  poll := PollPoller.mirrors_init
  epoll := EPollPoller.registered_init
  events := fun _ => rfl
  knows := fun _ => ⟨nofun, nofun⟩

omit [DecidableEq C] in
theorem Together.agree (h : Together F s) : Agree F s := by
  refine ⟨h.poll.monitored, ?_⟩
  rw [h.epoll.monitored]
  ext ⟨n, e⟩
  constructor
  · rintro ⟨c, hfd, hknows, he, hne⟩
    obtain ⟨e', hc⟩ := (h.knows c).mp hknows
    rw [h.events c, hc] at he
    obtain rfl : e' = e := he
    exact ⟨c, hfd, hc, hne⟩
  · rintro ⟨c, hfd, hc, hne⟩
    refine ⟨c, hfd, (h.knows c).mpr ⟨e, hc⟩, ?_, hne⟩
    rw [h.events c, hc]
    rfl

/-- `EPollPoller` has the row of a channel that the registry has. -/
theorem Together.put (h : Together F s) (c : C) (i : Int) (reg : Registration) (channel : Option C)
    (watched : Option (Events × C)) (hchannel : channel = some c ↔ ∃ e, reg = .known e) :
    (∀ x, (s.epoll.put F c i reg.events channel watched).events x
        = (Function.update s.registry c reg x).events) ∧
      ∀ x, EPollPoller.Knows F (s.epoll.put F c i reg.events channel watched) x
        ↔ ∃ e', Function.update s.registry c reg x = .known e' := by
  constructor
  · intro x
    by_cases hx : x = c
    · subst hx
      simp [EPollPoller.put]
    · simpa [EPollPoller.put, hx] using h.events x
  · intro x
    by_cases hx : x = c
    · subst hx
      simpa [EPollPoller.put, EPollPoller.Knows] using hchannel
    · have hfd : F.fd x ≠ F.fd c := fun heq => hx (F.distinct heq)
      simpa [EPollPoller.put, EPollPoller.Knows, hx, hfd] using h.knows x

/-- `EPollPoller` follows every change of a channel's events. -/
theorem Together.epoll_update (h : Together F s) (c : C) (e : Events) :
    ∃ q, s.epoll.step F (.update c e) = .ok q ∧ EPollPoller.Registered F q ∧
      (∀ x, q.events x = (Function.update s.registry c (.known e) x).events) ∧
      ∀ x, EPollPoller.Knows F q x ↔ ∃ e', Function.update s.registry c (.known e) x = .known e' := by
  obtain ⟨i, watched, hstep, hrow⟩ := h.epoll.update c e
  exact ⟨_, hstep, h.epoll.put hrow, h.put c i (.known e) (some c) watched (by simp)⟩

theorem Together.epoll_remove (h : Together F s) {c : C} (hc : s.registry c = .known 0) :
    ∃ q, s.epoll.step F (.remove c) = .ok q ∧ EPollPoller.Registered F q ∧
      (∀ x, q.events x = (Function.update s.registry c .removed x).events) ∧
      ∀ x, EPollPoller.Knows F q x ↔ ∃ e', Function.update s.registry c .removed x = .known e' := by
  have hnone : s.epoll.events c = 0 := by
    rw [h.events c, hc]
    rfl
  exact ⟨_, h.epoll.remove ((h.knows c).mpr ⟨0, hc⟩) hnone, h.epoll.put .new,
    h.put c _ .removed none none (by simp)⟩

omit [DecidableEq C] in
/-- Both pollers and the registry get one request. -/
theorem Together.request_eq (h : Together F s) (op : ChannelOp C) :
    op.request s.poll.events = op.request (fun c => (s.registry c).events) ∧
      op.request s.epoll.events = op.request (fun c => (s.registry c).events) := by
  have hpoll : s.poll.events = fun c => (s.registry c).events := funext fun c => (h.poll.events c).1
  have hepoll : s.epoll.events = fun c => (s.registry c).events := funext h.events
  rw [hpoll, hepoll]
  exact ⟨rfl, rfl⟩

/-- The step, when the request is an update. -/
theorem Together.step_update (h : Together F s) {op : ChannelOp C} {c : C} {e : Events}
    (hop : op.request (fun c => (s.registry c).events) = .update c e) {p : PollPoller C}
    (hpoll : s.poll.step F (.update c e) = .ok p) :
    ∃ q, step F op s = .ok ⟨p, q, Function.update s.registry c (.known e)⟩ ∧
      (PollPoller.Mirrors F (Function.update s.registry c (.known e)) p →
        Together F ⟨p, q, Function.update s.registry c (.known e)⟩) := by
  obtain ⟨hreqPoll, hreqEpoll⟩ := h.request_eq op
  obtain ⟨q, hstep, hregistered, hevents, hknows⟩ := h.epoll_update c e
  refine ⟨q, ?_, fun hmirrors => ⟨hmirrors, hregistered, hevents, hknows⟩⟩
  simp [step, hreqPoll, hreqEpoll, hop, hpoll, hstep, Registry.step, bind, Except.bind, pure,
    Except.pure]

/-- What an update does to a channel that is fresh or known. -/
theorem Together.update (h : Together F s) {op : ChannelOp C} {c : C} {e : Events}
    (hop : op.request (fun c => (s.registry c).events) = .update c e) (hmask : PollPoller.Mask e)
    (hplain : (s.registry c = .fresh ∧ e ≠ 0) ∨
      ∃ e₀, s.registry c = .known e₀ ∧ (e = 0 ∨ e₀ ≠ 0)) :
    ∃ s', step F op s = .ok s' ∧ Agree F s' ∧ Together F s' := by
  rcases hplain with ⟨hc, he⟩ | ⟨e₀, hc, he⟩
  · obtain ⟨q, hstep, htogether⟩ := h.step_update hop (h.poll.update_fresh hc e)
    have := htogether (h.poll.fresh_known hc he hmask)
    exact ⟨_, hstep, this.agree, this⟩
  · obtain ⟨i, hindex, hlt, hpoll⟩ := h.poll.update_known hc e
    have hentry : (⟨if e = 0 then PollPoller.ignored (F.fd c) else (PollPoller.entry (F.fd c) e₀).fd,
        e.toUInt16⟩ : PollFd) = PollPoller.entry (F.fd c) e := by
      rcases he with rfl | he
      · rfl
      · simp [PollPoller.entry, he]
    rw [hentry] at hpoll
    obtain ⟨q, hstep, htogether⟩ := h.step_update hop hpoll
    have := htogether (h.poll.known_known hc hmask hindex hlt)
    exact ⟨_, hstep, this.agree, this⟩

/-- A mask that is written with `kReadEvent` or `kWriteEvent`. -/
theorem mask_cases {e : Events} (h : PollPoller.Mask e) :
    (PollPoller.Mask (e ||| Events.kReadEvent) ∧ e ||| Events.kReadEvent ≠ 0) ∧
      (PollPoller.Mask (e ||| Events.kWriteEvent) ∧ e ||| Events.kWriteEvent ≠ 0) ∧
      PollPoller.Mask (e &&& ~~~Events.kWriteEvent) ∧
      (e = 0 → e &&& ~~~Events.kWriteEvent = 0) := by
  rcases h with rfl | rfl | rfl | rfl <;> decide

/-- A plain operation: no fault, and the pollers agree. -/
theorem Together.plain (h : Together F s) {op : ChannelOp C} (hallowed : Allowed op s)
    (hplain : Plain op s) : ∃ s', step F op s = .ok s' ∧ Agree F s' ∧ Together F s' := by
  have hmask : ∀ c, PollPoller.Mask (s.registry c).events := fun c => (h.poll.events c).2
  cases op with
  | enableReading c =>
      obtain ⟨⟨hm, hne⟩, -⟩ := mask_cases (hmask c)
      refine h.update rfl hm ?_
      exact hplain.imp (fun hc => ⟨hc, hne⟩) fun ⟨e₀, hc, he⟩ => ⟨e₀, hc, Or.inr he⟩
  | enableWriting c =>
      obtain ⟨-, ⟨hm, hne⟩, -⟩ := mask_cases (hmask c)
      refine h.update rfl hm ?_
      exact hplain.imp (fun hc => ⟨hc, hne⟩) fun ⟨e₀, hc, he⟩ => ⟨e₀, hc, Or.inr he⟩
  | disableWriting c =>
      obtain ⟨-, -, hm, hzero⟩ := mask_cases (hmask c)
      obtain ⟨e₀, hc⟩ := hplain
      refine h.update rfl hm (Or.inr ⟨e₀, hc, ?_⟩)
      by_cases he : e₀ = 0
      · refine Or.inl (hzero ?_)
        rw [hc]
        exact he
      · exact Or.inr he
  | disableAll c =>
      obtain ⟨e₀, hc⟩ := hplain
      exact h.update rfl (Or.inl rfl) (Or.inr ⟨e₀, hc, Or.inl rfl⟩)
  | remove c =>
      obtain ⟨p, hpoll, hmirrors, -⟩ := h.poll.remove hallowed
      obtain ⟨q, hepoll, hregistered, hevents, hknows⟩ := h.epoll_remove hallowed
      have htogether : Together F ⟨p, q, Function.update s.registry c .removed⟩ :=
        ⟨hmirrors, hregistered, hevents, hknows⟩
      refine ⟨_, ?_, htogether.agree, htogether⟩
      simp [step, ChannelOp.request, hpoll, hepoll, Registry.step, bind, Except.bind, pure,
        Except.pure]

/-- The descriptor of an ignored channel stays negative when the channel is enabled. -/
theorem Together.ignored_stays (h : Together F s) {op : ChannelOp C} {c : C} {e : Events}
    (hop : op.request (fun c => (s.registry c).events) = .update c e) (he : e ≠ 0)
    (hc : s.registry c = .known 0) {s' : BothPollers C} (hstep : step F op s = .ok s') :
    ¬Agree F s' := by
  obtain ⟨i, hindex, hlt, hpoll⟩ := h.poll.update_known hc e
  obtain ⟨q, hstep', -⟩ := h.step_update hop hpoll
  rw [hstep] at hstep'
  obtain rfl := Except.ok.inj hstep'
  rintro ⟨hagree, -⟩
  have hin : (F.fd c, e) ∈ Registry.monitored F (Function.update s.registry c (.known e)) :=
    ⟨c, rfl, by simp, he⟩
  rw [← hagree] at hin
  obtain ⟨x, hx, hfd, -⟩ := hin
  simp only [if_neg he] at hx
  exact h.poll.ignored_stays hc hindex _ hx hfd

/-- A new channel without events is watched. -/
theorem Together.new_watched (h : Together F s) {op : ChannelOp C} {c : C}
    (hop : op.request (fun c => (s.registry c).events) = .update c 0)
    (hc : s.registry c = .fresh) {s' : BothPollers C} (hstep : step F op s = .ok s') :
    ¬Agree F s' := by
  obtain ⟨q, hstep', -⟩ := h.step_update hop (h.poll.update_fresh hc 0)
  rw [hstep] at hstep'
  obtain rfl := Except.ok.inj hstep'
  rintro ⟨hagree, -⟩
  have hin : (F.fd c, (0 : Events)) ∈ PollPoller.monitored
      { events := Function.update s.poll.events c 0
        index := Function.update s.poll.index c s.poll.pollfds.length
        channels := Function.update s.poll.channels (F.fd c) (some c)
        pollfds := s.poll.pollfds ++ [⟨F.fd c, (0 : Events).toUInt16⟩] } :=
    ⟨⟨F.fd c, (0 : Events).toUInt16⟩, by simp, rfl, rfl⟩
  rw [hagree] at hin
  obtain ⟨-, -, -, hne⟩ := hin
  exact hne rfl

/-- A channel that was removed cannot be used again. -/
theorem Together.removed_fails (h : Together F s) {op : ChannelOp C} {c : C} {e : Events}
    (hop : op.request (fun c => (s.registry c).events) = .update c e)
    (hc : s.registry c = .removed) (s' : BothPollers C) : step F op s ≠ .ok s' := by
  obtain ⟨hreqPoll, -⟩ := h.request_eq op
  simp [step, hreqPoll, hop, h.poll.update_removed hc, bind, Except.bind]

/-- Any other operation goes wrong. -/
theorem Together.not_plain (h : Together F s) {op : ChannelOp C} {s' : BothPollers C}
    (hstep : step F op s = .ok s') (hagree : Agree F s') : Plain op s := by
  have hmask : ∀ c, PollPoller.Mask (s.registry c).events := fun c => (h.poll.events c).2
  -- what happens to a channel when it gets events, and when it loses them
  have hon : ∀ c e, op.request (fun c => (s.registry c).events) = .update c e → e ≠ 0 →
      s.registry c = .fresh ∨ ∃ e₀, s.registry c = .known e₀ ∧ e₀ ≠ 0 := by
    intro c e hop he
    cases hc : s.registry c with
    | fresh => exact Or.inl rfl
    | removed => exact absurd hstep (h.removed_fails hop hc s')
    | known e₀ =>
        refine Or.inr ⟨e₀, rfl, ?_⟩
        rintro rfl
        exact h.ignored_stays hop he hc hstep hagree
  have hoff : ∀ c e, op.request (fun c => (s.registry c).events) = .update c e →
      (s.registry c = .fresh → e = 0) → ∃ e₀, s.registry c = .known e₀ := by
    intro c e hop he
    cases hc : s.registry c with
    | fresh =>
        obtain rfl := he hc
        exact absurd hagree (h.new_watched hop hc hstep)
    | removed => exact absurd hstep (h.removed_fails hop hc s')
    | known e₀ => exact ⟨e₀, rfl⟩
  cases op with
  | enableReading c => exact hon c _ rfl (mask_cases (hmask c)).1.2
  | enableWriting c => exact hon c _ rfl (mask_cases (hmask c)).2.1.2
  | disableWriting c =>
      refine hoff c _ rfl fun hc => (mask_cases (hmask c)).2.2.2 ?_
      rw [hc]
      rfl
  | disableAll c => exact hoff c _ rfl fun _ => rfl
  | remove c => trivial

/-- **The pollers are interchangeable** on a sequence of operations, if and only if no channel
is enabled while it is ignored, none is new and without events, and none is used after it has been
removed. -/
theorem pollers_agree_iff (F : Fds C) (ops : List (ChannelOp C))
    (hallowed : Along (step F) Allowed ops init) :
    Always (step F) (Agree F) ops init ↔ Along (step F) Plain ops init :=
  always_iff (fun _ _ h hallowed hplain => Together.plain h hallowed hplain)
    (fun _ _ _ h _ hstep hagree => Together.not_plain h hstep hagree) together_init hallowed

/-- One channel. -/
def oneFd : Fds Unit := ⟨fun _ => 3, fun _ _ _ => rfl⟩

instance (op : ChannelOp C) (s : BothPollers C) : Decidable (Allowed op s) :=
  match op with
  | .remove c => inferInstanceAs (Decidable (s.registry c = .known 0))
  | .enableReading _ => isTrue trivial
  | .enableWriting _ => isTrue trivial
  | .disableWriting _ => isTrue trivial
  | .disableAll _ => isTrue trivial

theorem pollers_agree_iff_closed :
    let ops : List (ChannelOp Unit) := [.enableReading (), .disableAll (), .remove ()]
    Always (step oneFd) (Agree oneFd) ops init ↔ Along (step oneFd) Plain ops init :=
  pollers_agree_iff oneFd _ (by decide)

/-- A channel is enabled, ignored, and enabled again: `poll` goes on ignoring it. -/
theorem enabled_again_ignored : ¬Always (step oneFd) (Agree oneFd)
    [.enableReading (), .disableAll (), .enableReading ()] (init : BothPollers Unit) := by
  rintro ⟨s₁, h₁, -, s₂, h₂, -, s₃, h₃, ⟨hpoll, -⟩, -⟩
  cases h₁
  cases h₂
  cases h₃
  obtain ⟨x, hx, hfd, -⟩ := (Set.ext_iff.mp hpoll ((3, 3) : Nat × Events)).mpr
    ⟨(), rfl, rfl, by decide⟩
  have hx : x ∈ [(⟨-4, 3⟩ : PollFd)] := hx
  obtain rfl := List.mem_singleton.mp hx
  exact absurd hfd (by decide)

end BothPollers

end Net
