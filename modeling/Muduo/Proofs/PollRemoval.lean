/-
`PollPoller::removeChannel` on any array of entries.

The indices of the channels in the map are the positions of the array, one each, and an entry
shows its channel's descriptor in one of two ways.  The entry that is removed is overwritten
with the last one; the channel of that entry is found again from its descriptor, whichever
way it is shown, and is told its new position.
-/
import Mathlib.Data.Set.Function
import Muduo.Net.Pollers

namespace Net.PollPoller

variable {C : Type} [DecidableEq C] {F : Fds C} {p : PollPoller C} {c : C}

/-- The channels of `channels_`. -/
def registered (F : Fds C) (p : PollPoller C) : Set C := {c | p.channels (F.fd c) = some c}

/-- The entry a channel's index leads to. -/
def entryOf (p : PollPoller C) (c : C) : Option PollFd := p.pollfds[(p.index c).toNat]?

/-- The entry is about a channel with this descriptor and these events. -/
structure Shows (fd : Nat) (events : Events) (pfd : PollFd) : Prop where
  fd : pfd.fd = if events = 0 then ignored fd else fd
  events : events = 0 → pfd.events = 0

/-- The channels in the map and the entries belong together, by the indices. -/
structure Filed (F : Fds C) (p : PollPoller C) : Prop where
  keyed : ∀ n c, p.channels n = some c → F.fd c = n
  bijOn : Set.BijOn p.index (p.registered F) (Set.Ico 0 p.pollfds.length)
  shows : ∀ c ∈ p.registered F, ∃ pfd, p.entryOf c = some pfd ∧ Shows (F.fd c) (p.events c) pfd

omit [DecidableEq C] in
theorem Filed.position (h : Filed F p) (hc : c ∈ p.registered F) :
    ∃ i : Nat, p.index c = i ∧ i < p.pollfds.length := by
  obtain ⟨hpos, hlt⟩ := h.bijOn.mapsTo hc
  refine ⟨(p.index c).toNat, ?_, ?_⟩ <;> omega

omit [DecidableEq C] in
theorem Filed.lt (h : Filed F p) (hc : c ∈ p.registered F) {i : Nat} (hindex : p.index c = i) :
    i < p.pollfds.length := by
  obtain ⟨j, hj, hlt⟩ := h.position hc
  obtain rfl : j = i := by omega
  exact hlt

omit [DecidableEq C] in
/-- Of two channels in the map with one descriptor there is only one. -/
theorem fd_inj {c' : C} (hc : c ∈ p.registered F) (hc' : c' ∈ p.registered F)
    (hfd : F.fd c' = F.fd c) : c' = c := by
  have hone : p.channels (F.fd c') = some c' := hc'
  rw [hfd, show p.channels (F.fd c) = some c from hc] at hone
  exact (Option.some.inj hone).symm

/-- The descriptor is recovered from either way of showing it, that of descriptor 0, too. -/
theorem Shows.decode {fd : Nat} {events : Events} {pfd : PollFd} (h : Shows fd events pfd) :
    (if pfd.fd < 0 then -pfd.fd - 1 else pfd.fd).toNat = fd := by
  rw [h.fd, ignored]
  split_ifs <;> omega

/-- The state behind `removeChannel`: the entry at `i` is replaced by the last one, which is
about `c'`. -/
def moved (F : Fds C) (p : PollPoller C) (c c' : C) (i : Nat) (back : PollFd) : PollPoller C :=
  { p with
    channels := Function.update p.channels (F.fd c) none
    index := Function.update p.index c' i
    pollfds := (p.pollfds.set i back).dropLast }

omit [DecidableEq C] in
/-- The array has a last entry, and a channel it is about. -/
theorem Filed.last (h : Filed F p) (hc : c ∈ p.registered F) :
    ∃ c' back, c' ∈ p.registered F ∧ p.index c' = p.pollfds.length - 1 ∧
      p.pollfds.getLast? = some back ∧ Shows (F.fd c') (p.events c') back := by
  obtain ⟨i, -, hlt⟩ := h.position hc
  obtain ⟨c', hc', hindex'⟩ := h.bijOn.surjOn (a := (p.pollfds.length : Int) - 1)
    ⟨by omega, by omega⟩
  obtain ⟨back, hentry, hshows⟩ := h.shows c' hc'
  refine ⟨c', back, hc', hindex', ?_, hshows⟩
  have hpos : (p.index c').toNat = p.pollfds.length - 1 := by omega
  rw [List.getLast?_eq_getElem?, ← hpos]
  exact hentry

/-- No assertion fails, and the last entry takes the place of the one that is removed. -/
theorem Filed.removeChannel_eq (h : Filed F p) (hc : c ∈ p.registered F) (hnone : p.events c = 0)
    {i : Nat} (hindex : p.index c = i) {c' : C} {back : PollFd} (hc' : c' ∈ p.registered F)
    (hindex' : p.index c' = p.pollfds.length - 1) (hback : p.pollfds.getLast? = some back)
    (hshows : Shows (F.fd c') (p.events c') back) :
    p.removeChannel F c = .ok (moved F p c c' i back) := by
  obtain ⟨pfd, hentry, hpfd⟩ := h.shows c hc
  have hget : p.pollfds[i]? = some pfd := by
    rw [entryOf, hindex] at hentry
    exact hentry
  obtain ⟨hlt, hi⟩ := List.getElem?_eq_some_iff.mp hget
  have hmap : p.channels (F.fd c) = some c := hc
  have hfd : pfd.fd = ignored (F.fd c) := by rw [hpfd.fd, if_pos hnone]
  have hevents : pfd.events = 0 := hpfd.events hnone
  by_cases hlast : (i : Int) = p.pollfds.length - 1
  · obtain rfl : c' = c := h.bijOn.injOn hc' hc (by rw [hindex', hindex, hlast])
    have hset : p.pollfds.set i back = p.pollfds := by
      have hend : p.pollfds[i]? = some back := by
        rw [← hback, List.getLast?_eq_getElem?]
        congr 1
        omega
      obtain ⟨_, hend⟩ := List.getElem?_eq_some_iff.mp hend
      rw [← hend]
      exact List.set_getElem_self hlt
    have hidx : ((i : Int) = p.pollfds.length - 1) = True := by
      rw [eq_iff_iff, iff_true]
      exact hlast
    rw [moved, hset, ← hindex, Function.update_eq_self]
    simp [removeChannel, hindex, hmap, hnone, hlt, hi, hback, hfd, hevents, assertThat, bind,
      Except.bind, pure, Except.pure, hidx]
  · have hne : F.fd c' ≠ F.fd c := by
      intro heq
      obtain rfl := fd_inj hc hc' heq
      exact hlast (by rw [← hindex, hindex'])
    have hmap' : p.channels (F.fd c') = some c' := hc'
    simp [removeChannel, hindex, hmap, hnone, hlt, hi, hback, hfd, hevents, assertThat, bind,
      Except.bind, pure, Except.pure, hlast, hshows.decode, hne, hmap', moved]

/-! ### The channels that stay -/

theorem registered_moved {c' : C} {i : Nat} {back : PollFd} :
    (moved F p c c' i back).registered F = p.registered F \ {c} := by
  ext x
  by_cases hx : x = c
  · simp [hx, registered, moved]
  · have hfd : F.fd x ≠ F.fd c := fun heq => hx (F.distinct heq)
    simp [registered, moved, hx, hfd]

variable {c' : C} {i : Nat} {back : PollFd}

/-- A channel that stays has a position in front of the last, and it is not that of `c` unless the
channel has moved there. -/
theorem Filed.stays (h : Filed F p) (back : PollFd) (hc : c ∈ p.registered F)
    (hindex : p.index c = i)
    (hc' : c' ∈ p.registered F) (hindex' : p.index c' = p.pollfds.length - 1) {x : C}
    (hx : x ∈ p.registered F) (hxc : x ≠ c) :
    ∃ j : Nat, (moved F p c c' i back).index x = j ∧ j + 1 < p.pollfds.length ∧
      (x = c' ∧ j = i ∨ x ≠ c' ∧ p.index x = j ∧ j ≠ i) := by
  obtain ⟨k, hk, hlt⟩ := h.position hx
  have hi := h.lt hc hindex
  by_cases hxc' : x = c'
  · subst hxc'
    have hne : i ≠ p.pollfds.length - 1 := by
      intro heq
      exact hxc (h.bijOn.injOn hx hc (by omega))
    exact ⟨i, Function.update_self .., by omega, Or.inl ⟨rfl, rfl⟩⟩
  · refine ⟨k, ?_, ?_, Or.inr ⟨hxc', hk, ?_⟩⟩
    · rw [← hk]
      exact Function.update_of_ne hxc' _ _
    · have hne : p.index x ≠ p.index c' := fun heq => hxc' (h.bijOn.injOn hx hc' heq)
      omega
    · rintro rfl
      exact hxc (h.bijOn.injOn hx hc (by rw [hk, hindex]))

/-- Its entry is the one it had. -/
theorem Filed.entryOf_moved (h : Filed F p) (hc : c ∈ p.registered F) (hindex : p.index c = i)
    (hc' : c' ∈ p.registered F) (hindex' : p.index c' = p.pollfds.length - 1)
    (hback : p.pollfds.getLast? = some back) {x : C} (hx : x ∈ p.registered F) (hxc : x ≠ c) :
    (moved F p c c' i back).entryOf x = p.entryOf x := by
  obtain ⟨j, hj, hlt, hwhere⟩ := h.stays back hc hindex hc' hindex' hx hxc
  rw [entryOf, hj, Int.toNat_natCast, entryOf]
  show ((p.pollfds.set i back).dropLast)[j]? = _
  rw [List.getElem?_dropLast, List.length_set, if_pos (by omega)]
  rcases hwhere with ⟨rfl, rfl⟩ | ⟨-, hpos, hne⟩
  · rw [List.getElem?_set_self (by omega), hindex', ← hback, List.getLast?_eq_getElem?]
    congr 1
    omega
  · rw [List.getElem?_set_ne (Ne.symm hne), hpos, Int.toNat_natCast]

theorem Filed.moved (h : Filed F p) (hc : c ∈ p.registered F) (hindex : p.index c = i)
    (hc' : c' ∈ p.registered F) (hindex' : p.index c' = p.pollfds.length - 1)
    (hback : p.pollfds.getLast? = some back) : Filed F (moved F p c c' i back) := by
  have hi := h.lt hc hindex
  have hlen : (PollPoller.moved F p c c' i back).pollfds.length = p.pollfds.length - 1 := by
    show ((p.pollfds.set i back).dropLast).length = _
    rw [List.length_dropLast, List.length_set]
  have hstay : ∀ x ∈ (PollPoller.moved F p c c' i back).registered F,
      x ∈ p.registered F ∧ x ≠ c := by
    intro x hx
    rw [registered_moved] at hx
    exact hx
  refine ⟨?_, ⟨?_, ?_, ?_⟩, ?_⟩
  · intro n x hx
    refine h.keyed n x ?_
    by_cases hn : n = F.fd c
    · subst hn
      simp [PollPoller.moved] at hx
    · simpa [PollPoller.moved, hn] using hx
  · intro x hx
    obtain ⟨hx, hxc⟩ := hstay x hx
    obtain ⟨j, hj, hlt, -⟩ := h.stays back hc hindex hc' hindex' hx hxc
    rw [hj, hlen]
    refine ⟨?_, ?_⟩ <;> omega
  · intro x hx y hy heq
    obtain ⟨hx, hxc⟩ := hstay x hx
    obtain ⟨hy, hyc⟩ := hstay y hy
    obtain ⟨j, hj, -, hxj⟩ := h.stays back hc hindex hc' hindex' hx hxc
    obtain ⟨k, hk, -, hyk⟩ := h.stays back hc hindex hc' hindex' hy hyc
    obtain rfl : j = k := by
      rw [hj, hk] at heq
      omega
    rcases hxj with ⟨rfl, rfl⟩ | ⟨-, hxj, hne⟩ <;> rcases hyk with ⟨rfl, hyj⟩ | ⟨-, hyj, hne'⟩
    · rfl
    · exact absurd rfl hne'
    · exact absurd hyj hne
    · exact h.bijOn.injOn hx hy (hxj.trans hyj.symm)
  · rintro j ⟨hpos, hlt⟩
    rw [hlen] at hlt
    by_cases hji : j = i
    · have hne : c' ≠ c := by
        rintro rfl
        omega
      refine ⟨c', ?_, ?_⟩
      · rw [registered_moved]
        exact ⟨hc', hne⟩
      · rw [hji]
        exact Function.update_self ..
    · obtain ⟨x, hx, hxj⟩ := h.bijOn.surjOn (a := j) ⟨hpos, by omega⟩
      have hxc : x ≠ c := by
        rintro rfl
        exact hji (hxj.symm.trans hindex)
      have hxc' : x ≠ c' := by
        rintro rfl
        omega
      refine ⟨x, ?_, ?_⟩
      · rw [registered_moved]
        exact ⟨hx, hxc⟩
      · rw [← hxj]
        exact Function.update_of_ne hxc' _ _
  · intro x hx
    obtain ⟨hx, hxc⟩ := hstay x hx
    rw [h.entryOf_moved hc hindex hc' hindex' hback hx hxc]
    exact h.shows x hx

/-- **A channel without events is removed**: no assertion fails, the channels that are left and
the entries belong together again, and each of these channels has the entry it had. -/
theorem removeChannel_filed (F : Fds C) (p : PollPoller C) (c : C) (h : Filed F p)
    (hc : c ∈ p.registered F) (hnone : p.events c = 0) :
    ∃ p', p.removeChannel F c = .ok p' ∧ Filed F p' ∧
      p'.registered F = p.registered F \ {c} ∧ p'.events = p.events ∧
      ∀ x ∈ p'.registered F, p'.entryOf x = p.entryOf x := by
  obtain ⟨i, hindex, -⟩ := h.position hc
  obtain ⟨c', back, hc', hindex', hback, hshows⟩ := h.last hc
  refine ⟨_, h.removeChannel_eq hc hnone hindex hc' hindex' hback hshows,
    h.moved hc hindex hc' hindex' hback, registered_moved, rfl, ?_⟩
  intro x hx
  rw [registered_moved] at hx
  exact h.entryOf_moved hc hindex hc' hindex' hback hx.1 hx.2

/-- Descriptors 0 and 1, both ignored. -/
def bothIgnored : PollPoller Bool where
  events := fun _ => 0
  index := fun c => if c then 1 else 0
  channels := fun n => if n = 0 then some false else if n = 1 then some true else none
  pollfds := [⟨-1, 0⟩, ⟨-2, 0⟩]

def boolFds : Fds Bool where
  fd := fun c => if c then 1 else 0
  distinct := by
    intro x y h
    revert h
    cases x <;> cases y <;> simp

theorem removeChannel_filed_bothIgnored :
    ∃ p', bothIgnored.removeChannel boolFds false = .ok p' ∧ Filed boolFds p' ∧
      p'.registered boolFds = bothIgnored.registered boolFds \ {false} ∧
      p'.events = bothIgnored.events ∧
      ∀ x ∈ p'.registered boolFds, p'.entryOf x = bothIgnored.entryOf x := by
  refine removeChannel_filed boolFds bothIgnored false ⟨?_, ⟨?_, ?_, ?_⟩, ?_⟩ rfl rfl
  · intro n c hn
    simp only [bothIgnored] at hn
    split_ifs at hn with h0 h1
    · rw [h0, ← Option.some.inj hn]
      rfl
    · rw [h1, ← Option.some.inj hn]
      rfl
  · intro c _
    cases c <;> decide
  · intro x _ y _ h
    revert h
    cases x <;> cases y <;> simp [bothIgnored]
  · rintro j ⟨hpos, hlt⟩
    have hlt : j < 2 := hlt
    by_cases hj : j = 0
    · exact ⟨false, rfl, hj.symm⟩
    · refine ⟨true, rfl, ?_⟩
      show (1 : Int) = j
      omega
  · intro c _
    cases c
    · exact ⟨⟨-1, 0⟩, rfl, rfl, fun _ => rfl⟩
    · exact ⟨⟨-2, 0⟩, rfl, rfl, fun _ => rfl⟩

end Net.PollPoller
