/-
`ThreadPool::stop` comes to its end.

Once `running_` is reset nobody waits that has not been told, so that a worker can go on
whenever the mutex is free.  The mutex is free again and again, because its holder has only a few
steps to take; a worker takes at most one more task, of which every step is counted, and then
leaves; and when all of them have left, nothing keeps `join` from returning.  Each of the three
is a rank that falls as long as threads that can go on do so.
-/
import Muduo.Proofs.PoolTasks
import Mathlib.Data.Prod.Lex

namespace Base

open Lib

namespace PoolPhase

variable {T τ : Type}

/-- How many steps there are to the end of the lock, at most. -/
def holdRank : PoolPhase T τ → Nat
  | flagging => 3
  | testing | pushing _ _ | notifying => 2
  | taken _ | leaving _ | unlocking => 1
  | _ => 0

/-- How far a worker is from leaving, when `running_` is not set: whether it may begin a task,
and how many steps there are to the task, or in it. -/
def leaveRank : PoolPhase T τ → Nat ×ₗ Nat
  | blocked => toLex (1, 4)
  | locking => toLex (1, 3)
  | testing => toLex (1, 2)
  | taken _ => toLex (1, 1)
  | holding _ => toLex (1, 0)
  | working _ rest => toLex (0, 4 * rest.length + 2)
  | calling _ (some (_, rest)) => toLex (0, 4 * rest.length + 5)
  | pushing _ (some (_, rest)) => toLex (0, 4 * rest.length + 4)
  | leaving (some (_, rest)) => toLex (0, 4 * rest.length + 3)
  | looping => toLex (0, 1)
  | _ => toLex (0, 0)

/-- How many steps of `stop` there are, with `n` threads. -/
def stopRank (n : Nat) : PoolPhase T τ → Nat
  | notifying => n + 3
  | unlocking => n + 2
  | joining rest => rest.length + 1
  | _ => 0

end PoolPhase

namespace ThreadPool

variable {T τ : Type} [DecidableEq τ] {s s' : ThreadPool T τ} {t u : τ} {threads : List τ}
  {a : PoolAction T τ}

/-! ### Who can go on -/

theorem Move.phase_ne (h : Move t s s') (hblocked : s.phase t ≠ .blocked) :
    s'.phase t ≠ s.phase t := by
  rcases h.phase with ⟨-, hphase⟩ | ⟨p, q, hphase, heq, hturn⟩
  · exact absurd hphase hblocked
  · rw [heq, Function.update_self, hphase]
    exact hturn.moves

/-- A thread goes on to another phase. -/
theorem Goes.phase_ne (h : Goes t a s) : (step a s).phase t ≠ s.phase t := by
  obtain ⟨who, body, rfl, hne⟩ := h
  show (s.next t who body).phase t ≠ s.phase t
  have hmove := (next_spec s t who body).resolve_left hne
  by_cases hblocked : s.phase t = .blocked
  · simp only [next, hblocked] at hne ⊢
    split_ifs at hne ⊢ with hwaits
    · exact absurd rfl hne
    · cases hholder : s.holder with
      | none =>
          simp [ThreadPool.lock, hholder, enter]
      | some v =>
          simp only [hholder] at hne
          exact absurd rfl hne
  · exact hmove.phase_ne hblocked

theorem goes_of_phase {who : τ} {body : List T} {q : PoolPhase T τ}
    (hnext : (s.next t who body).phase t = q) (hq : q ≠ s.phase t) : Goes t (.next t who body) s :=
  ⟨who, body, rfl, fun heq => hq (by rw [← hnext, heq])⟩

omit [DecidableEq τ] in
/-- There is always somebody to notify, if anybody waits. -/
theorem exists_mayNotify (c : CondVar τ) (t : τ) : ∃ who, c.MayNotify who := by
  rcases c.waiting.eq_empty_or_nonempty with hempty | ⟨who, hwho⟩
  · exact ⟨t, Or.inl hempty⟩
  · exact ⟨who, Or.inr hwho⟩

/-- The thread with the mutex can go on. -/
theorem can_go_holding (hholds : (s.phase t).holds = true) : ∃ a, Goes t a s := by
  cases hphase : s.phase t with
  | testing =>
      refine ⟨.next t t [], goes_of_phase (q := (s.take t).phase t) ?_ ?_⟩
      · simp only [next, hphase]
      · exact (take_spec hphase).phase_ne (by simp [hphase])
  | taken task =>
      cases task with
      | none =>
          refine ⟨.next t t [], goes_of_phase (q := .looping) ?_ (by simp [hphase])⟩
          simp only [next, hphase, unlock, enter, Function.update_self]
      | some task =>
          refine ⟨.next t t [], goes_of_phase (q := .holding task) ?_ (by simp [hphase])⟩
          simp only [next, hphase, unlock, enter, Function.update_self]
  | pushing task caller =>
      obtain ⟨who, hmay⟩ := exists_mayNotify s.cond t
      refine ⟨.next t who [], goes_of_phase (q := .leaving caller) ?_ (by simp [hphase])⟩
      simp only [next, hphase, if_pos hmay, enter, Function.update_self]
  | leaving caller =>
      refine ⟨.next t t [], goes_of_phase (q := .back caller) ?_ ?_⟩
      · simp only [next, hphase, unlock, enter, Function.update_self]
      · rw [hphase]
        cases caller <;> simp [PoolPhase.back]
  | flagging =>
      refine ⟨.next t t [], goes_of_phase (q := .notifying) ?_ (by simp [hphase])⟩
      simp only [next, hphase, enter, Function.update_self]
  | notifying =>
      refine ⟨.next t t [], goes_of_phase (q := .unlocking) ?_ (by simp [hphase])⟩
      simp only [next, hphase, enter, Function.update_self]
  | unlocking =>
      refine ⟨.next t t [], goes_of_phase (q := .joining s.threads) ?_ (by simp [hphase])⟩
      simp only [next, hphase, unlock, enter, Function.update_self]
  | _ =>
      rw [hphase] at hholds
      cases hholds

/-- When the mutex is free, a worker can go on that does not wait and has not left. -/
theorem can_go_free (hfree : s.holder = none) (hinside : (s.phase t).inside = true)
    (hleft : s.phase t ≠ .left) (hwaits : t ∉ s.cond.waiting) : ∃ a, Goes t a s := by
  by_cases hholds : (s.phase t).holds = true
  · exact can_go_holding hholds
  cases hphase : s.phase t with
  | looping =>
      refine ⟨.next t t [], goes_of_phase (q := if s.running then .locking else .left) ?_ ?_⟩
      · simp only [next, hphase, enter, Function.update_self]
      · rw [hphase]
        split_ifs <;> simp
  | locking =>
      refine ⟨.next t t [], goes_of_phase (q := .testing) ?_ (by simp [hphase])⟩
      simp only [next, hphase, ThreadPool.lock, hfree, enter, Function.update_self]
  | blocked =>
      refine ⟨.next t t [], goes_of_phase (q := .testing) ?_ (by simp [hphase])⟩
      simp only [next, hphase, if_neg hwaits, ThreadPool.lock, hfree, enter, Function.update_self]
  | holding task =>
      refine ⟨.next t t [], goes_of_phase (q := .working task []) ?_ (by simp [hphase])⟩
      simp only [next, hphase, enter, Function.update_self]
  | working task rest =>
      cases rest with
      | nil =>
          refine ⟨.next t t [], goes_of_phase (q := .looping) ?_ (by simp [hphase])⟩
          simp only [next, hphase, enter, Function.update_self]
      | cons child rest =>
          refine ⟨.next t t [], goes_of_phase (q := .calling child (some (task, rest))) ?_
            (by simp [hphase])⟩
          simp only [next, hphase, enter, Function.update_self]
  | calling task caller =>
      refine ⟨.next t t [], goes_of_phase (q := .pushing task caller) ?_ (by simp [hphase])⟩
      simp only [next, hphase, ThreadPool.lock, hfree, enter, Function.update_self]
  | left => exact absurd hphase hleft
  | testing | taken _ | pushing _ _ | leaving _ | flagging | notifying | unlocking =>
      rw [hphase] at hholds
      exact absurd rfl hholds
  | outside | stopping | joining _ | stopped =>
      rw [hphase] at hinside
      cases hinside

/-- When all workers have left, `join` can go on. -/
theorem can_go_joining (hs : Sound threads s) (hleft : ∀ u ∈ threads, s.phase u = .left)
    {rest : List τ} (hphase : s.phase t = .joining rest) : ∃ a, Goes t a s := by
  have hjoined := hs.joined t
  rw [hphase] at hjoined
  cases rest with
  | nil =>
      refine ⟨.next t t [], goes_of_phase (q := .stopped) ?_ (by rw [hphase]; nofun)⟩
      simp only [next, hphase, enter, Function.update_self]
  | cons u rest =>
      have hu := hleft u (hjoined.1 u List.mem_cons_self)
      refine ⟨.next t t [], goes_of_phase (q := .joining rest) ?_ ?_⟩
      · simp only [next, hphase, hu, enter, Function.update_self]
      · rw [hphase]
        exact fun heq => List.ne_cons_self (PoolPhase.joining.inj heq)

/-! ### Ranks -/

/-- The mutex stays where it is, with its holder a step further, or is released. -/
theorem Move.hold (h : Move t s s') (hg : Guarded PoolPhase.holds s.holder s.phase)
    (hholder : s.holder = some u) : s'.holder = none ∨ s'.holder = some u ∧
      (t ≠ u ∨ (s'.phase u).holdRank < (s.phase u).holdRank) := by
  by_cases htu : t = u
  · subst htu
    have hholds := (hg t).mpr hholder
    have hfell : ∀ {p q : PoolPhase T τ}, s.phase t = p → q.holdRank < p.holdRank →
        (Function.update s.phase t q t).holdRank < (s.phase t).holdRank := by
      intro p q hphase hlt
      rw [Function.update_self, hphase]
      exact hlt
    cases h with
    | enter hphase hturn =>
        rw [hphase] at hholds
        cases hturn with
        | none _ => exact Or.inr ⟨hholder, Or.inr (hfell hphase Nat.one_lt_two)⟩
        | _ => cases hholds
    | lock _ _ hfree => exact absurd (hholder.symm.trans hfree) nofun
    | unlock _ _ => exact Or.inl rfl
    | wait _ _ _ => exact Or.inl rfl
    | pop hphase _ => exact Or.inr ⟨hholder, Or.inr (hfell hphase Nat.one_lt_two)⟩
    | resume _ _ hfree => exact absurd (hholder.symm.trans hfree) nofun
    | push hphase _ => exact Or.inr ⟨hholder, Or.inr (hfell hphase Nat.one_lt_two)⟩
    | flag hphase => exact Or.inr ⟨hholder, Or.inr (hfell hphase (Nat.lt_succ_self 2))⟩
    | notifyAll hphase => exact Or.inr ⟨hholder, Or.inr (hfell hphase Nat.one_lt_two)⟩
    | stop hphase | begin _ hphase | finish hphase | wake hphase =>
        rw [hphase] at hholds
        cases hholds
  · -- nobody else takes the mutex, or releases it
    have hother : (s.phase t).holds ≠ true := by
      intro hholds
      exact htu (Option.some.inj (((hg t).mp hholds).symm.trans hholder))
    cases h with
    | lock _ _ hfree => exact absurd (hholder.symm.trans hfree) nofun
    | resume _ _ hfree => exact absurd (hholder.symm.trans hfree) nofun
    | unlock hphase hturn =>
        rw [hphase] at hother
        exact absurd (by cases hturn <;> rfl) hother
    | wait hphase _ _ =>
        rw [hphase] at hother
        exact absurd rfl hother
    | _ => exact Or.inr ⟨hholder, Or.inl htu⟩

/-- When `running_` is not set, a worker that takes a step comes nearer to its end. -/
theorem Move.leaves (h : Move t s s') (hrun : s.running = false)
    (hinside : (s.phase t).inside = true) :
    s'.phase t = s.phase t ∨ (s'.phase t).leaveRank < (s.phase t).leaveRank := by
  have hfell : ∀ {p q : PoolPhase T τ}, s.phase t = p → q.leaveRank < p.leaveRank →
      Function.update s.phase t q t = s.phase t ∨
        (Function.update s.phase t q t).leaveRank < (s.phase t).leaveRank := by
    intro p q hphase hlt
    rw [Function.update_self, hphase]
    exact Or.inr hlt
  have hlex : ∀ {n m : Nat}, n < m → toLex (0, n) < toLex (0, m) :=
    fun hlt => Prod.Lex.toLex_lt_toLex.mpr (Or.inr ⟨rfl, hlt⟩)
  have hlex' : ∀ {n m : Nat}, n < m → toLex (1, n) < toLex (1, m) :=
    fun hlt => Prod.Lex.toLex_lt_toLex.mpr (Or.inr ⟨rfl, hlt⟩)
  have hless : ∀ {n m : Nat}, toLex (0, n) < toLex (1, m) :=
    Prod.Lex.toLex_lt_toLex.mpr (Or.inl Nat.zero_lt_one)
  cases h with
  | enter hphase hturn =>
      refine hfell hphase ?_
      rw [hphase] at hinside
      cases hturn with
      | again hstart => exact absurd (hstart.symm.trans hrun) nofun
      | leave _ => exact hlex Nat.zero_lt_one
      | none _ => exact hlex' Nat.one_lt_two
      | submit task child rest =>
          refine hlex ?_
          rw [List.length_cons]
          omega
      | run _ => cases hinside
      | join _ _ => cases hinside
      | joined => cases hinside
  | stop hphase =>
      rw [hphase] at hinside
      cases hinside
  | lock hphase hturn _ =>
      refine hfell hphase ?_
      rw [hphase] at hinside
      cases hturn with
      | take => exact hlex' (Nat.lt_succ_self 2)
      | run task caller =>
          cases caller with
          | none => cases hinside
          | some caller => exact hlex (Nat.lt_succ_self _)
      | stop => cases hinside
  | unlock hphase hturn =>
      refine hfell hphase ?_
      rw [hphase] at hinside
      cases hturn with
      | none => exact hless
      | some task => exact hlex' Nat.zero_lt_one
      | run caller =>
          cases caller with
          | none => cases hinside
          | some caller => exact hlex (Nat.lt_succ_self _)
      | stop => cases hinside
  | wait _ _ hstart => exact absurd (hstart.symm.trans hrun) nofun
  | pop hphase _ => exact hfell hphase (hlex' Nat.one_lt_two)
  | resume hphase _ _ => exact hfell hphase (hlex' (by omega))
  | begin body hphase => exact hfell hphase hless
  | finish hphase => exact hfell hphase (hlex (by omega))
  | @push task caller who hphase _ =>
      refine hfell hphase ?_
      rw [hphase] at hinside
      cases caller with
      | none => cases hinside
      | some caller => exact hlex (Nat.lt_succ_self _)
  | flag hphase =>
      rw [hphase] at hinside
      cases hinside
  | notifyAll hphase =>
      rw [hphase] at hinside
      cases hinside
  | wake _ => exact Or.inl rfl

/-- The thread in `stop` comes nearer to its end. -/
theorem Move.stops (h : Move t s s') (hstops : (s.phase t).stops = true) :
    (s'.phase t).stopRank s.threads.length < (s.phase t).stopRank s.threads.length := by
  have hfell : ∀ {p q : PoolPhase T τ}, s.phase t = p →
      q.stopRank s.threads.length < p.stopRank s.threads.length →
      (Function.update s.phase t q t).stopRank s.threads.length
        < (s.phase t).stopRank s.threads.length := by
    intro p q hphase hlt
    rw [Function.update_self, hphase]
    exact hlt
  cases h with
  | enter hphase hturn =>
      refine hfell hphase ?_
      rw [hphase] at hstops
      cases hturn with
      | join rest _ => exact Nat.lt_succ_self _
      | joined => exact Nat.zero_lt_one
      | _ => cases hstops
  | unlock hphase hturn =>
      refine hfell hphase ?_
      rw [hphase] at hstops
      cases hturn with
      | stop => exact Nat.lt_succ_self _
      | _ => cases hstops
  | notifyAll hphase => exact hfell hphase (Nat.lt_succ_self _)
  | lock hphase hturn _ =>
      rw [hphase] at hstops
      cases hturn <;> cases hstops
  | stop hphase | wait hphase _ _ | pop hphase _ | resume hphase _ _ | begin _ hphase =>
      rw [hphase] at hstops
      cases hstops
  | finish hphase | push hphase _ | flag hphase | wake hphase =>
      rw [hphase] at hstops
      cases hstops

/-! ### Fair schedules -/

variable {r : Schedule (ThreadPool.step (T := T) (τ := τ))} {i : ℕ}

theorem sound_state (h₀ : r.state 0 = start threads) (i : ℕ) : Sound threads (r.state i) := by
  refine Schedule.keeps (P := Sound threads) (fun a s hs => hs.step a) ?_ i (Nat.zero_le i)
  rw [h₀]
  exact sound_start threads

/-- What happens to the state at a time. -/
theorem state_succ (r : Schedule (ThreadPool.step (T := T) (τ := τ))) (i : ℕ) :
    r.state (i + 1) = r.state i ∨ ∃ t, Move t (r.state i) (r.state (i + 1)) := by
  rw [r.next]
  exact step_spec _ _

theorem phase_ne_of_goes (h : Goes t (r.action i) (r.state i)) :
    (r.state (i + 1)).phase t ≠ (r.state i).phase t := by
  rw [r.next]
  exact h.phase_ne

/-- A thread that goes on has moved. -/
theorem move_of_goes (h : Goes t (r.action i) (r.state i)) :
    Move t (r.state i) (r.state (i + 1)) := by
  rcases state_succ r i with heq | ⟨u, hmove⟩
  · exact absurd (congrArg (fun s => s.phase t) heq) (phase_ne_of_goes h)
  · by_cases hut : t = u
    · exact hut ▸ hmove
    · exact absurd (hmove.phase_of_ne hut) (phase_ne_of_goes h)

/-- Steps from the holder of the mutex to its release. -/
def lockRank (s : ThreadPool T τ) : Nat :=
  match s.holder with
  | none => 0
  | some t => (s.phase t).holdRank

omit [DecidableEq τ] in
theorem lockRank_of_holder (h : s.holder = some t) : s.lockRank = (s.phase t).holdRank := by
  rw [lockRank, h]

/-- The mutex is free again and again. -/
theorem exists_free (h₀ : r.state 0 = start threads) (hfair : r.Fair Goes) (i : ℕ) :
    ∃ j ≥ i, (r.state j).holder = none := by
  have hkeep : ∀ j u, (r.state j).holder = some u → (r.state (j + 1)).holder = none ∨
      (r.state (j + 1)).holder = some u ∧ (r.state (j + 1)).lockRank ≤ (r.state j).lockRank := by
    intro j u hholder
    rcases state_succ r j with heq | ⟨t, hmove⟩
    · rw [heq]
      exact Or.inr ⟨hholder, le_rfl⟩
    · refine (hmove.hold (sound_state h₀ j).guarded hholder).imp id ?_
      rintro ⟨hsame, hrank⟩
      refine ⟨hsame, ?_⟩
      rw [lockRank_of_holder hsame, lockRank_of_holder hholder]
      rcases hrank with htu | hlt
      · rw [hmove.phase_of_ne (Ne.symm htu)]
      · exact hlt.le
  refine eventually_of_rank (fun j => (r.state j).lockRank) ?_ ?_
  · intro j _ hheld
    obtain ⟨u, hholder⟩ := Option.ne_none_iff_exists'.mp hheld
    rcases hkeep j u hholder with hnone | ⟨-, hle⟩
    · show (r.state (j + 1)).lockRank ≤ _
      rw [lockRank, hnone]
      exact Nat.zero_le _
    · exact hle
  · intro j _ hheld
    obtain ⟨u, hholder⟩ := Option.ne_none_iff_exists'.mp (hheld j le_rfl)
    have hsame : ∀ k ≥ j, (r.state k).holder = some u := by
      intro k hk
      induction k, hk using Nat.le_induction with
      | base => exact hholder
      | succ k hk ih =>
          rcases hkeep k u ih with hnone | ⟨hsame, -⟩
          · exact absurd hnone (hheld (k + 1) (hk.trans k.le_succ))
          · exact hsame
    have hcan : ∀ k ≥ j, ∃ l ≥ k, ∃ a, Goes u a (r.state l) := fun k hk =>
      ⟨k, le_rfl, can_go_holding (((sound_state h₀ k).guarded u).mpr (hsame k hk))⟩
    obtain ⟨k, hk, hgoes⟩ := hfair.exists_goes hcan
    refine ⟨k, hk, ?_⟩
    show (r.state (k + 1)).lockRank < (r.state k).lockRank
    rw [lockRank_of_holder (hsame k hk), lockRank_of_holder (hsame (k + 1) (hk.trans k.le_succ))]
    rcases (move_of_goes hgoes).hold (sound_state h₀ k).guarded (hsame k hk) with
      hnone | ⟨-, hne | hlt⟩
    · exact absurd hnone (hheld (k + 1) (hk.trans k.le_succ))
    · exact absurd rfl hne
    · exact hlt

theorem Move.not_running (h : Move t s s') (hrun : s.running = false) : s'.running = false := by
  cases h with
  | flag _ => rfl
  | _ => exact hrun

/-- `running_` is not set again. -/
theorem stays_stopped (hrun : (r.state i).running = false) :
    ∀ j ≥ i, (r.state j).running = false := by
  refine Schedule.keeps (P := fun s : ThreadPool T τ => s.running = false) ?_ hrun
  intro a s hs
  rcases step_spec a s with heq | ⟨t, hmove⟩
  · rw [heq]
    exact hs
  · exact hmove.not_running hs

/-- A worker that has left stays so. -/
theorem stays_left (hleft : (r.state i).phase u = .left) :
    ∀ j ≥ i, (r.state j).phase u = .left := by
  refine Schedule.keeps (P := fun s : ThreadPool T τ => s.phase u = .left) ?_ hleft
  intro a s hs
  rcases step_spec a s with heq | ⟨t, hmove⟩
  · rw [heq]
    exact hs
  · exact hmove.left hs

/-- With `running_` reset and the mutex free, nobody waits that has not been told. -/
theorem Sound.waiting_eq (hs : Sound threads s) (hrun : s.running = false)
    (hfree : s.holder = none) : s.cond.waiting = ∅ := by
  refine (hs.flagged hrun).resolve_right ?_
  rintro ⟨t, ht⟩
  have hholder := (hs.guarded t).mp (by rw [ht]; rfl)
  rw [hfree] at hholder
  cases hholder

/-- Every worker leaves. -/
theorem exists_left (h₀ : r.state 0 = start threads) (hfair : r.Fair Goes)
    (hrun : (r.state i).running = false) (hu : u ∈ threads) :
    ∃ j ≥ i, (r.state j).phase u = .left := by
  have hinside : ∀ j, ((r.state j).phase u).inside = true :=
    fun j => ((sound_state h₀ j).inside u).mpr hu
  refine eventually_of_rank (fun j => ((r.state j).phase u).leaveRank) ?_ ?_
  · intro j hj _
    show ((r.state (j + 1)).phase u).leaveRank ≤ ((r.state j).phase u).leaveRank
    rcases state_succ r j with heq | ⟨t, hmove⟩
    · rw [heq]
    · by_cases hut : u = t
      · subst hut
        rcases hmove.leaves (stays_stopped hrun j hj) (hinside j) with heq | hlt
        · rw [heq]
        · exact hlt.le
      · rw [hmove.phase_of_ne hut]
  · intro j hj hstays
    have hcan : ∀ k ≥ j, ∃ l ≥ k, ∃ a, Goes u a (r.state l) := by
      intro k hk
      obtain ⟨l, hl, hfree⟩ := exists_free h₀ hfair k
      refine ⟨l, hl, can_go_free hfree (hinside l) (hstays l (hk.trans hl)) ?_⟩
      rw [(sound_state h₀ l).waiting_eq (stays_stopped hrun l (hj.trans (hk.trans hl))) hfree]
      exact Finset.notMem_empty u
    obtain ⟨k, hk, hgoes⟩ := hfair.exists_goes hcan
    refine ⟨k, hk, ?_⟩
    exact ((move_of_goes hgoes).leaves (stays_stopped hrun k (hj.trans hk)) (hinside k)).resolve_left
      (phase_ne_of_goes hgoes)

/-- All of them have left at some time. -/
theorem exists_all_left (h₀ : r.state 0 = start threads) (hfair : r.Fair Goes)
    (hrun : (r.state i).running = false) : ∀ us : List τ, (∀ u ∈ us, u ∈ threads) →
      ∃ j ≥ i, ∀ u ∈ us, (r.state j).phase u = .left := by
  intro us
  induction us with
  | nil => exact fun _ => ⟨i, le_rfl, fun u hu => absurd hu List.not_mem_nil⟩
  | cons v us ih =>
      intro hsub
      obtain ⟨j, hj, hall⟩ := ih fun u hu => hsub u (List.mem_cons_of_mem v hu)
      obtain ⟨k, hk, hv⟩ := exists_left h₀ hfair hrun (hsub v List.mem_cons_self)
      refine ⟨max j k, hj.trans (le_max_left j k), ?_⟩
      intro u hu
      rcases List.mem_cons.mp hu with rfl | hu
      · exact stays_left hv _ (le_max_right j k)
      · exact stays_left (hall u hu) _ (le_max_left j k)

/-- `stop` returns. -/
theorem exists_stopped (h₀ : r.state 0 = start threads) (hfair : r.Fair Goes)
    (hleft : ∀ u ∈ threads, (r.state i).phase u = .left)
    (hstops : ((r.state i).phase t).stops = true) : ∃ j ≥ i, (r.state j).phase t = .stopped := by
  have hstops' : ∀ j ≥ i, ((r.state j).phase t).stops = true := by
    refine Schedule.keeps (P := fun s : ThreadPool T τ => (s.phase t).stops = true) ?_ hstops
    intro a s hs
    rcases step_spec a s with heq | ⟨u, hmove⟩
    · rw [heq]
      exact hs
    · rcases hmove.phase with ⟨heq, -⟩ | ⟨p, q, hphase, heq, hturn⟩
      · rw [heq]
        exact hs
      · by_cases htu : t = u
        · subst htu
          rw [heq, Function.update_self]
          exact hturn.stops (hphase ▸ hs)
        · rw [heq, Function.update_of_ne htu]
          exact hs
  refine eventually_of_rank (fun j => ((r.state j).phase t).stopRank threads.length) ?_ ?_
  · intro j hj _
    show ((r.state (j + 1)).phase t).stopRank threads.length
      ≤ ((r.state j).phase t).stopRank threads.length
    rcases state_succ r j with heq | ⟨u, hmove⟩
    · rw [heq]
    · by_cases htu : t = u
      · subst htu
        have hlt := hmove.stops (hstops' j hj)
        rw [(sound_state h₀ j).same] at hlt
        exact hlt.le
      · rw [hmove.phase_of_ne htu]
  · intro j hj hnot
    have hcan : ∀ k ≥ j, ∃ l ≥ k, ∃ a, Goes t a (r.state l) := by
      intro k hk
      by_cases hholds : ((r.state k).phase t).holds = true
      · exact ⟨k, le_rfl, can_go_holding hholds⟩
      · refine ⟨k, le_rfl, ?_⟩
        have hk' := hstops' k (hj.trans hk)
        cases hphase : (r.state k).phase t with
        | joining rest =>
            refine can_go_joining (sound_state h₀ k) ?_ hphase
            exact fun u hu => stays_left (hleft u hu) k (hj.trans hk)
        | stopped => exact absurd hphase (hnot k hk)
        | notifying | unlocking =>
            rw [hphase] at hholds
            exact absurd rfl hholds
        | _ =>
            rw [hphase] at hk'
            cases hk'
    obtain ⟨k, hk, hgoes⟩ := hfair.exists_goes hcan
    refine ⟨k, hk, ?_⟩
    have hlt := (move_of_goes hgoes).stops (hstops' k (hj.trans hk))
    rw [(sound_state h₀ k).same] at hlt
    exact hlt

/-! ### The pool -/

/-- **Main result.** In every state the tasks that have been taken from the queue are the first
that have been queued, each is held, in progress or finished, in one place and once; while
`running_` is set and the mutex is free, a worker that waits without having been told leaves
nothing in the queue but what has been announced; once it is reset nobody waits so; and where
`stop` has returned, the workers have left and every task that was taken is finished.

And if the threads are fair, `stop` returns. -/
theorem executes_prefix_and_stops (threads : List τ) :
    (∀ s : ThreadPool T τ, Reachable threads s →
      s.queued = s.dequeued ++ s.queue ∧
      Passing s.dequeued.zipIdx s.executed (fun t => (s.phase t).held) ∧
      Passing s.executed s.finished (fun t => (s.phase t).doing) ∧
      (s.running = true → s.holder = none → s.cond.waiting.Nonempty →
        s.queue.length ≤ s.cond.notified.card) ∧
      (s.running = false → s.holder = none → s.cond.waiting = ∅) ∧
      ∀ t, s.phase t = .stopped → (∀ u ∈ threads, s.phase u = .left) ∧
        s.executed.Perm s.dequeued.zipIdx ∧ s.finished.Perm s.dequeued.zipIdx) ∧
    ∀ r : Schedule (ThreadPool.step (T := T) (τ := τ)), r.state 0 = start threads → r.Fair Goes →
      ∀ i, (r.state i).running = false →
        ∃ j ≥ i, (∀ u ∈ threads, (r.state j).phase u = .left) ∧
          ∃ t, (r.state j).phase t = .stopped := by
  constructor
  · intro s hreach
    have hs := hreach.sound
    refine ⟨hs.order, hs.held, hs.doing, ?_, hs.waiting_eq, ?_⟩
    · intro hrun hfree
      have hcover := hs.covers hrun
      rw [debt_of_free hfree] at hcover
      exact hcover
    · intro t ht
      have hexecuted := hs.held.perm (nodup_zipIdx _) fun u => (hs.no_hands ht u).1
      refine ⟨fun u hu => hs.left ht hu, hexecuted, ?_⟩
      exact (hs.doing.perm hs.held.nodup fun u => (hs.no_hands ht u).2).trans hexecuted
  · intro r h₀ hfair i hrun
    obtain ⟨j, hj, hleft⟩ := exists_all_left h₀ hfair hrun threads fun u hu => hu
    obtain ⟨t, ht⟩ := (sound_state h₀ j).stopper (stays_stopped hrun j hj)
    obtain ⟨k, hk, hstopped⟩ := exists_stopped h₀ hfair hleft ht
    exact ⟨k, hj.trans hk, fun u hu => stays_left (hleft u hu) k hk, t, hstopped⟩

end ThreadPool

end Base
