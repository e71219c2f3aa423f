/-
`ThreadPool` executes what is queued, in order and once.

Every step of a thread goes from one phase to another, and most of what matters can be read off
the two phases: who has the mutex, who is inside `runInThread`, which task is in whose hand.  The
rest is the count of tokens: while `running_` is set, a worker that waits without having been
told leaves no task in the queue that has not been announced.
-/
import Muduo.Base.ThreadPool

namespace Base

open Lib

namespace PoolPhase

variable {T τ : Type}

/-- Inside `runInThread`, or behind it. -/
def inside : PoolPhase T τ → Bool
  | looping | locking | testing | blocked | taken _ | holding _ | working _ _ | left => true
  | calling _ caller | pushing _ caller | leaving caller => caller.isSome
  | _ => false

/-- The task that has been taken from the queue and not been called yet. -/
def held : PoolPhase T τ → Option (Queued T)
  | taken task => task
  | holding task => some task
  | _ => none

/-- The task that has been called and has not returned. -/
def doing : PoolPhase T τ → Option (Queued T)
  | working task _ => some task
  | calling _ caller | pushing _ caller | leaving caller => caller.map Prod.fst
  | _ => none

/-- In `stop`, behind `running_ = false`. -/
def stops : PoolPhase T τ → Bool
  | notifying | unlocking | joining _ | stopped => true
  | _ => false

/-- The thread with the mutex may take a task without waiting. -/
def owed : PoolPhase T τ → Nat
  | testing => 1
  | _ => 0

end PoolPhase

namespace ThreadPool

variable {T τ : Type}

def debt (s : ThreadPool T τ) : Nat :=
  match s.holder with
  | none => 0
  | some t => (s.phase t).owed

/-- The workers that have been joined have left, and only workers are joined. -/
def Joined (threads : List τ) (phase : τ → PoolPhase T τ) : PoolPhase T τ → Prop
  | .joining rest => (∀ u ∈ rest, u ∈ threads) ∧ ∀ u ∈ threads, u ∈ rest ∨ phase u = .left
  | .stopped => ∀ u ∈ threads, phase u = .left
  | _ => True

/-! ### What a step can do -/

/-- Steps that change nothing but the phase. -/
inductive Enters (s : ThreadPool T τ) : PoolPhase T τ → PoolPhase T τ → Prop
  | again (hrun : s.running = true) : Enters s .looping .locking
  | leave (hrun : s.running = false) : Enters s .looping .left
  | none (hrun : s.running = false) : Enters s .testing (.taken none)
  | submit (task : Queued T) (child : T) (rest : List T) :
      Enters s (.working task (child :: rest)) (.calling child (some (task, rest)))
  | run (task : T) : Enters s .outside (.calling task none)
  | join {u : τ} (rest : List τ) (hleft : s.phase u = .left) :
      Enters s (.joining (u :: rest)) (.joining rest)
  | joined : Enters s (.joining []) .stopped

inductive Locks : PoolPhase T τ → PoolPhase T τ → Prop
  | take : Locks .locking .testing
  | run (task : T) (caller : RunCaller T) : Locks (.calling task caller) (.pushing task caller)
  | stop : Locks .stopping .flagging

inductive Unlocks (threads : List τ) : PoolPhase T τ → PoolPhase T τ → Prop
  | none : Unlocks threads (.taken none) .looping
  | some (task : Queued T) : Unlocks threads (.taken (some task)) (.holding task)
  | run (caller : RunCaller T) : Unlocks threads (.leaving caller) (.back caller)
  | stop : Unlocks threads .unlocking (.joining threads)

variable [DecidableEq τ] {s s' : ThreadPool T τ} {t : τ} {p q : PoolPhase T τ} {threads : List τ}

inductive Move (t : τ) (s : ThreadPool T τ) : ThreadPool T τ → Prop
  | enter {p q : PoolPhase T τ} (hphase : s.phase t = p) (hturn : s.Enters p q) :
      Move t s (s.enter t q)
  | stop (hphase : s.phase t = .outside) :
      Move t s { s.enter t .stopping with stopCalled := true }
  | lock {p q : PoolPhase T τ} (hphase : s.phase t = p) (hturn : Locks p q)
      (hfree : s.holder = none) : Move t s { s.enter t q with holder := some t }
  | unlock {p q : PoolPhase T τ} (hphase : s.phase t = p) (hturn : Unlocks s.threads p q) :
      Move t s (s.unlock t q)
  | wait (hphase : s.phase t = .testing) (hqueue : s.queue = []) (hrun : s.running = true) :
      Move t s { s.unlock t .blocked with cond := s.cond.wait t }
  | pop {task : T} {queue : List T} (hphase : s.phase t = .testing)
      (hqueue : s.queue = task :: queue) :
      Move t s { s.enter t (.taken (some (task, s.dequeued.length))) with
        queue := queue, dequeued := s.dequeued ++ [task] }
  | resume (hphase : s.phase t = .blocked) (hwaits : t ∉ s.cond.waiting) (hfree : s.holder = none) :
      Move t s { s.enter t .testing with holder := some t, cond := s.cond.resume t }
  | begin {task : Queued T} (body : List T) (hphase : s.phase t = .holding task) :
      Move t s { s.enter t (.working task body) with executed := s.executed ++ [task] }
  | finish {task : Queued T} (hphase : s.phase t = .working task []) :
      Move t s { s.enter t .looping with finished := s.finished ++ [task] }
  | push {task : T} {caller : RunCaller T} {who : τ} (hphase : s.phase t = .pushing task caller)
      (hmay : s.cond.MayNotify who) :
      Move t s { s.enter t (.leaving caller) with
        queue := s.queue ++ [task], queued := s.queued ++ [task], cond := s.cond.notify who }
  | flag (hphase : s.phase t = .flagging) : Move t s { s.enter t .notifying with running := false }
  | notifyAll (hphase : s.phase t = .notifying) :
      Move t s { s.enter t .unlocking with cond := s.cond.notifyAll }
  | wake (hphase : s.phase t = .blocked) : Move t s { s with cond := s.cond.wake t }

theorem lock_spec (hphase : s.phase t = p) (hturn : Locks p q) :
    s.lock t q = s ∨ Move t s (s.lock t q) := by
  cases hholder : s.holder with
  | none =>
      have hlock : s.lock t q = { s.enter t q with holder := some t } := by
        simp only [ThreadPool.lock, hholder]
      rw [hlock]
      exact Or.inr (.lock hphase hturn hholder)
  | some u => exact Or.inl (by simp only [ThreadPool.lock, hholder])

theorem take_spec (hphase : s.phase t = .testing) : Move t s (s.take t) := by
  cases hqueue : s.queue with
  | nil =>
      cases hrun : s.running with
      | true =>
          have htake : s.take t = { s.unlock t .blocked with cond := s.cond.wait t } := by
            simp only [take, hqueue, hrun]
          rw [htake]
          exact .wait hphase hqueue hrun
      | false =>
          have htake : s.take t = s.enter t (.taken none) := by
            simp only [take, hqueue, hrun]
          rw [htake]
          exact .enter hphase (.none hrun)
  | cons task queue =>
      have htake : s.take t = { s.enter t (.taken (some (task, s.dequeued.length))) with
          queue := queue, dequeued := s.dequeued ++ [task] } := by
        simp only [take, hqueue]
      rw [htake]
      exact .pop hphase hqueue

theorem next_spec (s : ThreadPool T τ) (t who : τ) (body : List T) :
    s.next t who body = s ∨ Move t s (s.next t who body) := by
  cases hphase : s.phase t with
  | outside => exact Or.inl (by simp only [next, hphase])
  | left => exact Or.inl (by simp only [next, hphase])
  | stopped => exact Or.inl (by simp only [next, hphase])
  | looping =>
      simp only [next, hphase]
      cases hrun : s.running with
      | true => exact Or.inr (.enter hphase (.again hrun))
      | false => exact Or.inr (.enter hphase (.leave hrun))
  | locking =>
      simp only [next, hphase]
      exact lock_spec hphase .take
  | testing =>
      simp only [next, hphase]
      exact Or.inr (take_spec hphase)
  | blocked =>
      simp only [next, hphase]
      by_cases hwaits : t ∈ s.cond.waiting
      · exact Or.inl (if_pos hwaits)
      · rw [if_neg hwaits]
        cases hholder : s.holder with
        | none =>
            have hlock : s.lock t .testing = { s.enter t .testing with holder := some t } := by
              simp only [ThreadPool.lock, hholder]
            rw [hlock]
            exact Or.inr (.resume hphase hwaits hholder)
        | some u => exact Or.inl rfl
  | taken task =>
      cases task with
      | none =>
          simp only [next, hphase]
          exact Or.inr (.unlock hphase .none)
      | some task =>
          simp only [next, hphase]
          exact Or.inr (.unlock hphase (.some task))
  | holding task =>
      simp only [next, hphase]
      exact Or.inr (.begin body hphase)
  | working task rest =>
      cases rest with
      | nil =>
          simp only [next, hphase]
          exact Or.inr (.finish hphase)
      | cons child rest =>
          simp only [next, hphase]
          exact Or.inr (.enter hphase (.submit task child rest))
  | calling task caller =>
      simp only [next, hphase]
      exact lock_spec hphase (.run task caller)
  | pushing task caller =>
      simp only [next, hphase]
      by_cases hmay : s.cond.MayNotify who
      · rw [if_pos hmay]
        exact Or.inr (.push hphase hmay)
      · exact Or.inl (if_neg hmay)
  | leaving caller =>
      simp only [next, hphase]
      exact Or.inr (.unlock hphase (.run caller))
  | stopping =>
      simp only [next, hphase]
      exact lock_spec hphase .stop
  | flagging =>
      simp only [next, hphase]
      exact Or.inr (.flag hphase)
  | notifying =>
      simp only [next, hphase]
      exact Or.inr (.notifyAll hphase)
  | unlocking =>
      simp only [next, hphase]
      exact Or.inr (.unlock hphase .stop)
  | joining rest =>
      cases rest with
      | nil =>
          simp only [next, hphase]
          exact Or.inr (.enter hphase .joined)
      | cons u rest =>
          simp only [next, hphase]
          cases hu : s.phase u with
          | left => exact Or.inr (.enter hphase (.join rest hu))
          | _ => exact Or.inl rfl

theorem step_spec (a : PoolAction T τ) (s : ThreadPool T τ) :
    step a s = s ∨ ∃ t, Move t s (step a s) := by
  cases a with
  | run t task =>
      cases hphase : s.phase t with
      | outside =>
          cases hthreads : s.threads with
          | nil => exact Or.inl (by simp only [step, hphase, hthreads])
          | cons u threads =>
              simp only [step, hphase, hthreads]
              exact Or.inr ⟨t, .enter hphase (.run task)⟩
      | _ => exact Or.inl (by simp only [step, hphase])
  | stop t =>
      cases hphase : s.phase t with
      | outside =>
          cases hcalled : s.stopCalled with
          | true => exact Or.inl (by simp only [step, hphase, hcalled])
          | false =>
              simp only [step, hphase, hcalled]
              exact Or.inr ⟨t, .stop hphase⟩
      | _ => exact Or.inl (by simp only [step, hphase])
  | next t who body => exact (next_spec s t who body).imp id fun h => ⟨t, h⟩
  | wake t =>
      cases hphase : s.phase t with
      | blocked =>
          simp only [step, hphase]
          exact Or.inr ⟨t, .wake hphase⟩
      | _ => exact Or.inl (by simp only [step, hphase])

/-! ### From phase to phase -/

/-- What a step tells about the two phases. -/
structure Turn (threads : List τ) (phase : τ → PoolPhase T τ) (p q : PoolPhase T τ) : Prop where
  inside : q.inside = p.inside
  stops : p.stops = true → q.stops = true
  stays : p ≠ .left
  moves : q ≠ p
  joined : Joined threads phase p → Joined threads phase q

omit [DecidableEq τ] in
theorem Enters.turn (h : s.Enters p q) : Turn threads s.phase p q := by
  cases h with
  | join rest hleft =>
      refine ⟨rfl, fun _ => rfl, nofun, ?_, ?_⟩
      · intro heq
        exact List.ne_cons_self (PoolPhase.joining.inj heq)
      rintro ⟨hsub, hall⟩
      refine ⟨fun v hv => hsub v (List.mem_cons_of_mem _ hv), ?_⟩
      intro v hv
      rcases hall v hv with hmem | hv
      · rcases List.mem_cons.mp hmem with rfl | hmem
        · exact Or.inr hleft
        · exact Or.inl hmem
      · exact Or.inr hv
  | joined =>
      refine ⟨rfl, fun _ => rfl, nofun, nofun, ?_⟩
      exact fun hall v hv => (hall.2 v hv).resolve_left List.not_mem_nil
  | _ => exact ⟨rfl, nofun, nofun, nofun, fun _ => trivial⟩

omit [DecidableEq τ] in
theorem Locks.turn {phase : τ → PoolPhase T τ} (h : Locks p q) : Turn threads phase p q := by
  cases h <;> exact ⟨rfl, nofun, nofun, nofun, fun _ => trivial⟩

omit [DecidableEq τ] in
theorem Unlocks.turn {phase : τ → PoolPhase T τ} (h : Unlocks threads p q) :
    Turn threads phase p q := by
  cases h with
  | run caller =>
      cases caller with
      | none => exact ⟨rfl, nofun, nofun, nofun, fun _ => trivial⟩
      | some caller => exact ⟨rfl, nofun, nofun, nofun, fun _ => trivial⟩
  | stop => exact ⟨rfl, fun _ => rfl, nofun, nofun, fun _ => ⟨fun _ hu => hu, fun _ hu => Or.inl hu⟩⟩
  | _ => exact ⟨rfl, nofun, nofun, nofun, fun _ => trivial⟩

/-- The phase of the thread, and nobody else's, has changed. -/
theorem Move.phase (h : Move t s s') : s'.phase = s.phase ∧ s.phase t = .blocked ∨
    ∃ p q, s.phase t = p ∧ s'.phase = Function.update s.phase t q ∧ Turn s.threads s.phase p q := by
  cases h with
  | enter hphase hturn => exact Or.inr ⟨_, _, hphase, rfl, hturn.turn⟩
  | stop hphase => exact Or.inr ⟨_, _, hphase, rfl, rfl, nofun, nofun, nofun, fun _ => trivial⟩
  | lock hphase hturn _ => exact Or.inr ⟨_, _, hphase, rfl, hturn.turn⟩
  | unlock hphase hturn => exact Or.inr ⟨_, _, hphase, rfl, hturn.turn⟩
  | wait hphase _ _ => exact Or.inr ⟨_, _, hphase, rfl, rfl, nofun, nofun, nofun, fun _ => trivial⟩
  | pop hphase _ => exact Or.inr ⟨_, _, hphase, rfl, rfl, nofun, nofun, nofun, fun _ => trivial⟩
  | resume hphase _ _ => exact Or.inr ⟨_, _, hphase, rfl, rfl, nofun, nofun, nofun, fun _ => trivial⟩
  | begin body hphase => exact Or.inr ⟨_, _, hphase, rfl, rfl, nofun, nofun, nofun, fun _ => trivial⟩
  | finish hphase => exact Or.inr ⟨_, _, hphase, rfl, rfl, nofun, nofun, nofun, fun _ => trivial⟩
  | push hphase _ => exact Or.inr ⟨_, _, hphase, rfl, rfl, nofun, nofun, nofun, fun _ => trivial⟩
  | flag hphase => exact Or.inr ⟨_, _, hphase, rfl, rfl, nofun, nofun, nofun, fun _ => trivial⟩
  | notifyAll hphase =>
      exact Or.inr ⟨_, _, hphase, rfl, rfl, fun _ => rfl, nofun, nofun, fun _ => trivial⟩
  | wake hphase => exact Or.inl ⟨rfl, hphase⟩

theorem Move.phase_of_ne (h : Move t s s') {u : τ} (hu : u ≠ t) : s'.phase u = s.phase u := by
  rcases h.phase with ⟨heq, -⟩ | ⟨p, q, -, heq, -⟩
  · rw [heq]
  · rw [heq, Function.update_of_ne hu]

theorem Move.threads_eq (h : Move t s s') : s'.threads = s.threads := by
  cases h <;> rfl

/-! ### What every step preserves -/

structure Sound (threads : List τ) (s : ThreadPool T τ) : Prop where
  same : s.threads = threads
  guarded : Guarded PoolPhase.holds s.holder s.phase
  parked : Parked (fun p => p = .blocked) s.cond s.phase
  inside : ∀ t, (s.phase t).inside = true ↔ t ∈ threads
  joined : ∀ t, Joined threads s.phase (s.phase t)
  order : s.queued = s.dequeued ++ s.queue
  covers : s.running = true → s.cond.Covers (s.queue.length - s.debt)
  flagged : s.running = false → s.cond.waiting = ∅ ∨ ∃ t, s.phase t = .notifying
  stopper : s.running = false → ∃ t, (s.phase t).stops = true
  held : Passing s.dequeued.zipIdx s.executed fun t => (s.phase t).held
  doing : Passing s.executed s.finished fun t => (s.phase t).doing

theorem sound_start (threads : List τ) : Sound threads (start threads : ThreadPool T τ) where
  same := rfl
  guarded := by
    intro t
    show (if t ∈ threads then PoolPhase.looping else .outside).holds = true ↔ _
    split_ifs <;> exact ⟨nofun, nofun⟩
  parked := fun t ht => absurd ht (Finset.notMem_empty t)
  inside := by
    intro t
    show (if t ∈ threads then PoolPhase.looping else .outside).inside = true ↔ _
    split_ifs with ht
    · exact ⟨fun _ => ht, fun _ => rfl⟩
    · exact ⟨nofun, fun h => absurd h ht⟩
  joined := by
    intro t
    show Joined threads _ (if t ∈ threads then PoolPhase.looping else .outside)
    split_ifs <;> trivial
  order := rfl
  covers := fun _ => CondVar.covers_of_empty rfl
  flagged := nofun
  stopper := nofun
  held := by
    refine Passing.nil.congr fun t => ?_
    show (if t ∈ threads then PoolPhase.looping else .outside).held = none
    split_ifs <;> rfl
  doing := by
    refine Passing.nil.congr fun t => ?_
    show (if t ∈ threads then PoolPhase.looping else .outside).doing = none
    split_ifs <;> rfl

/-! ### Tokens -/

omit [DecidableEq τ] in
theorem debt_of_free (h : s.holder = none) : s.debt = 0 := by
  rw [debt, h]

omit [DecidableEq τ] in
theorem debt_of_holder (h : s.holder = some t) : s.debt = (s.phase t).owed := by
  rw [debt, h]

/-- A step that does not touch the mutex, the queue and the variable, between phases that owe
nothing. -/
theorem debt_enter (hold : (s.phase t).owed = 0) (hnew : q.owed = 0) :
    (s.enter t q).debt = s.debt := by
  cases hholder : s.holder with
  | none => rw [debt_of_free hholder, debt_of_free (show (s.enter t q).holder = none from hholder)]
  | some u =>
      rw [debt_of_holder hholder, debt_of_holder (show (s.enter t q).holder = some u from hholder)]
      show (Function.update s.phase t q u).owed = _
      by_cases hu : u = t
      · subst hu
        rw [Function.update_self, hold, hnew]
      · rw [Function.update_of_ne hu]

/-! ### Tasks -/

/-- Nothing changes hands where nothing is taken and nothing left. -/
theorem hand_eq {f : PoolPhase T τ → Option (Queued T)} (hphase : s.phase t = p)
    (hf : f q = f p) (u : τ) : f (Function.update s.phase t q u) = f (s.phase u) := by
  by_cases hu : u = t
  · subst hu
    rw [Function.update_self, hf, hphase]
  · rw [Function.update_of_ne hu]

theorem hand_of_ne {f : PoolPhase T τ → Option (Queued T)} (u : τ) (hu : u ≠ t) :
    f (Function.update s.phase t q u) = f (s.phase u) := by
  rw [Function.update_of_ne hu]

omit [DecidableEq τ] in
theorem number_new (s : ThreadPool T τ) (task : T) :
    (task, s.dequeued.length) ∉ s.dequeued.zipIdx := by
  intro hmem
  have hlt := (List.mem_zipIdx hmem).2.1
  rw [Nat.zero_add] at hlt
  exact absurd hlt (lt_irrefl _)

/-! ### One step -/

namespace Move

theorem inside (h : Move t s s') (u : τ) : (s'.phase u).inside = (s.phase u).inside := by
  rcases h.phase with ⟨heq, -⟩ | ⟨p, q, hphase, heq, hturn⟩
  · rw [heq]
  · by_cases hu : u = t
    · subst hu
      rw [heq, Function.update_self, hturn.inside, hphase]
    · rw [heq, Function.update_of_ne hu]

/-- A thread that has left stays so. -/
theorem left (h : Move t s s') {u : τ} (hu : s.phase u = .left) : s'.phase u = .left := by
  rcases h.phase with ⟨heq, -⟩ | ⟨p, q, hphase, heq, hturn⟩
  · rw [heq]
    exact hu
  · by_cases hut : u = t
    · subst hut
      exact absurd (hphase.symm.trans hu) hturn.stays
    · rw [heq, Function.update_of_ne hut]
      exact hu

theorem joined_mono (h : Move t s s') (hp : Joined threads s.phase p) :
    Joined threads s'.phase p := by
  cases p with
  | joining rest => exact ⟨hp.1, fun u hu => (hp.2 u hu).imp id h.left⟩
  | stopped => exact fun u hu => h.left (hp u hu)
  | _ => trivial

theorem joined (h : Move t s s') (hs : ∀ u, Joined s.threads s.phase (s.phase u)) (u : τ) :
    Joined s.threads s'.phase (s'.phase u) := by
  refine h.joined_mono ?_
  rcases h.phase with ⟨heq, -⟩ | ⟨p, q, hphase, heq, hturn⟩
  · rw [heq]
    exact hs u
  · by_cases hu : u = t
    · subst hu
      rw [heq, Function.update_self]
      exact hturn.joined (hphase ▸ hs u)
    · rw [heq, Function.update_of_ne hu]
      exact hs u

theorem guarded (h : Move t s s') (hs : Guarded PoolPhase.holds s.holder s.phase) :
    Guarded PoolPhase.holds s'.holder s'.phase := by
  cases h with
  | enter hphase hturn =>
      refine hs.update ?_
      rw [hphase]
      cases hturn <;> rfl
  | stop hphase => exact hs.update (by rw [hphase]; rfl)
  | lock hphase hturn hfree =>
      rw [hfree] at hs
      refine hs.lock ?_
      cases hturn <;> rfl
  | unlock hphase hturn =>
      refine hs.unlock (t := t) ?_ ?_
      · rw [hphase]
        cases hturn <;> rfl
      · cases hturn with
        | run caller => cases caller <;> rfl
        | _ => rfl
  | wait hphase _ _ => exact hs.unlock (by rw [hphase]; rfl) rfl
  | pop hphase _ => exact hs.update (by rw [hphase]; rfl)
  | resume _ _ hfree =>
      rw [hfree] at hs
      exact hs.lock rfl
  | begin _ hphase => exact hs.update (by rw [hphase]; rfl)
  | finish hphase => exact hs.update (by rw [hphase]; rfl)
  | push hphase _ => exact hs.update (by rw [hphase]; rfl)
  | flag hphase => exact hs.update (by rw [hphase]; rfl)
  | notifyAll hphase => exact hs.update (by rw [hphase]; rfl)
  | wake _ => exact hs

/-- A thread that is not blocked stands in no condition variable. -/
theorem parked_enter (hs : Parked (fun p => p = .blocked) s.cond s.phase) (hphase : s.phase t = p)
    (hp : p ≠ .blocked) : Parked (fun p => p = .blocked) s.cond (Function.update s.phase t q) :=
  hs.update fun h => absurd (hphase.symm.trans h) hp

theorem parked (h : Move t s s') (hs : Parked (fun p => p = .blocked) s.cond s.phase) :
    Parked (fun p => p = .blocked) s'.cond s'.phase := by
  cases h with
  | enter hphase hturn => exact parked_enter hs hphase (by cases hturn <;> nofun)
  | stop hphase => exact parked_enter hs hphase nofun
  | lock hphase hturn _ => exact parked_enter hs hphase (by cases hturn <;> nofun)
  | unlock hphase hturn => exact parked_enter hs hphase (by cases hturn <;> nofun)
  | wait _ _ _ => exact hs.wait rfl
  | pop hphase _ => exact parked_enter hs hphase nofun
  | resume _ hwaits _ => exact hs.resume hwaits
  | begin _ hphase => exact parked_enter hs hphase nofun
  | finish hphase => exact parked_enter hs hphase nofun
  | push hphase _ => exact (parked_enter hs hphase nofun).notify
  | flag hphase => exact parked_enter hs hphase nofun
  | notifyAll hphase => exact (parked_enter hs hphase nofun).notifyAll
  | wake _ => exact hs.wake

theorem order (h : Move t s s') (hs : s.queued = s.dequeued ++ s.queue) :
    s'.queued = s'.dequeued ++ s'.queue := by
  cases h with
  | @pop task queue _ hqueue =>
      show s.queued = s.dequeued ++ [task] ++ queue
      rw [hs, hqueue, List.append_assoc]
      rfl
  | @push task caller who _ _ =>
      show s.queued ++ [task] = s.dequeued ++ (s.queue ++ [task])
      rw [hs, List.append_assoc]
  | _ => exact hs

/-- While `running_` is set, the tasks that are not announced are that of the thread with the
mutex. -/
theorem covers (h : Move t s s') (hg : Guarded PoolPhase.holds s.holder s.phase)
    (hs : s.running = true → s.cond.Covers (s.queue.length - s.debt)) :
    s'.running = true → s'.cond.Covers (s'.queue.length - s'.debt) := by
  intro hrun'
  cases h with
  | @enter p q hphase hturn =>
      have hdebt : (s.enter t q).debt = s.debt := by
        cases hturn with
        | none hstop => exact absurd (hrun'.symm.trans hstop) nofun
        | _ => exact debt_enter (by rw [hphase]; rfl) rfl
      rw [hdebt]
      exact hs hrun'
  | stop hphase =>
      have hdebt : (s.enter t .stopping).debt = s.debt := debt_enter (by rw [hphase]; rfl) rfl
      refine (hs hrun').mono ?_
      show s.queue.length - (s.enter t .stopping).debt ≤ _
      rw [hdebt]
  | lock _ _ hfree =>
      have hk := hs hrun'
      rw [debt_of_free hfree] at hk
      exact hk.mono (Nat.sub_le _ _)
  | @unlock p q hphase hturn =>
      -- the thread owes nothing any more
      have howed : p.owed = 0 := by cases hturn <;> rfl
      have hholds : p.holds = true := by cases hturn <;> rfl
      have hk := hs hrun'
      rw [debt_of_holder ((hg t).mp (by rw [hphase, hholds])), hphase, howed] at hk
      exact hk
  | wait _ hqueue _ =>
      refine CondVar.covers_zero.mono ?_
      show s.queue.length - _ ≤ 0
      rw [hqueue]
      exact Nat.sub_le _ _
  | @pop task queue hphase hqueue =>
      have hk := hs hrun'
      rw [debt_of_holder ((hg t).mp (by rw [hphase]; rfl)), hphase, hqueue] at hk
      exact hk.mono (Nat.sub_le _ _)
  | resume _ _ hfree =>
      have hk := hs hrun'
      rw [debt_of_free hfree] at hk
      rw [debt_of_holder (t := t) rfl]
      show (s.cond.resume t).Covers (s.queue.length - (Function.update s.phase t .testing t).owed)
      rw [Function.update_self]
      exact hk.resume
  | @begin task body hphase =>
      have hdebt : (s.enter t (.working task body)).debt = s.debt :=
        debt_enter (by rw [hphase]; rfl) rfl
      refine (hs hrun').mono ?_
      show s.queue.length - (s.enter t (.working task body)).debt ≤ _
      rw [hdebt]
  | finish hphase =>
      have hdebt : (s.enter t .looping).debt = s.debt := debt_enter (by rw [hphase]; rfl) rfl
      refine (hs hrun').mono ?_
      show s.queue.length - (s.enter t .looping).debt ≤ _
      rw [hdebt]
  | @push task caller who hphase hmay =>
      have hk := hs hrun'
      rw [debt_of_holder ((hg t).mp (by rw [hphase]; rfl)), hphase] at hk
      have hadded : (s.cond.notify who).Covers (s.queue ++ [task]).length := by
        refine CondVar.Covers.notify (hk.mono ?_) hmay
        rw [List.length_append]
        exact le_rfl
      exact hadded.mono (Nat.sub_le _ _)
  | flag _ => exact absurd hrun' nofun
  | notifyAll _ => exact CondVar.covers_of_empty rfl
  | wake _ => exact (hs hrun').wake

/-- When `running_` is not set, a worker can only wait in front of `notifyAll`. -/
theorem flagged (h : Move t s s')
    (hs : s.running = false → s.cond.waiting = ∅ ∨ ∃ u, s.phase u = .notifying) :
    s'.running = false → s'.cond.waiting = ∅ ∨ ∃ u, s'.phase u = .notifying := by
  intro hrun'
  -- a thread in front of `notifyAll` stays there unless it is the one that moves
  have hkeep : s.phase t ≠ .notifying → (∃ u, s.phase u = .notifying) →
      ∃ u, s'.phase u = .notifying := by
    rintro ht ⟨u, hu⟩
    refine ⟨u, ?_⟩
    rw [h.phase_of_ne (by rintro rfl; exact ht hu), hu]
  cases h with
  | flag _ => exact Or.inr ⟨t, Function.update_self ..⟩
  | notifyAll _ => exact Or.inl rfl
  | wait _ _ hrun => exact absurd (hrun.symm.trans hrun') (by simp)
  | wake hphase =>
      refine (hs hrun').imp ?_ (hkeep (by simp [hphase]))
      intro hempty
      exact Finset.subset_empty.mp (hempty ▸ Finset.erase_subset t _)
  | @push task caller who hphase hmay =>
      refine (hs hrun').imp ?_ (hkeep (by simp [hphase]))
      intro hempty
      have hwho : who ∉ s.cond.waiting := by
        rw [hempty]
        exact Finset.notMem_empty who
      show (s.cond.notify who).waiting = ∅
      rw [CondVar.notify, if_neg hwho, hempty]
  | enter hphase hturn => exact (hs hrun').imp id (hkeep (by rw [hphase]; cases hturn <;> simp))
  | stop hphase => exact (hs hrun').imp id (hkeep (by simp [hphase]))
  | lock hphase hturn _ => exact (hs hrun').imp id (hkeep (by rw [hphase]; cases hturn <;> simp))
  | unlock hphase hturn => exact (hs hrun').imp id (hkeep (by rw [hphase]; cases hturn <;> simp))
  | pop hphase _ => exact (hs hrun').imp id (hkeep (by simp [hphase]))
  | resume hphase _ _ => exact (hs hrun').imp id (hkeep (by simp [hphase]))
  | begin _ hphase => exact (hs hrun').imp id (hkeep (by simp [hphase]))
  | finish hphase => exact (hs hrun').imp id (hkeep (by simp [hphase]))

/-- The thread that has reset `running_` goes on in `stop`. -/
theorem stopper (h : Move t s s') (hs : s.running = false → ∃ u, (s.phase u).stops = true) :
    s'.running = false → ∃ u, (s'.phase u).stops = true := by
  intro hrun'
  have hkeep : ∀ u, (s.phase u).stops = true → (s'.phase u).stops = true := by
    intro u hu
    rcases h.phase with ⟨heq, -⟩ | ⟨p, q, hphase, heq, hturn⟩
    · rw [heq]
      exact hu
    · by_cases hut : u = t
      · subst hut
        rw [heq, Function.update_self]
        exact hturn.stops (hphase ▸ hu)
      · rw [heq, Function.update_of_ne hut]
        exact hu
  have hold : (s.running = false) → ∃ u, (s'.phase u).stops = true := by
    intro hrun
    obtain ⟨u, hu⟩ := hs hrun
    exact ⟨u, hkeep u hu⟩
  cases h with
  | flag _ =>
      refine ⟨t, ?_⟩
      show (Function.update s.phase t .notifying t).stops = true
      rw [Function.update_self]
      rfl
  | _ => exact hold hrun'

/-- The tasks that have been taken from the queue have been called, or are held. -/
theorem held (h : Move t s s')
    (hs : Passing s.dequeued.zipIdx s.executed fun u => (s.phase u).held) :
    Passing s'.dequeued.zipIdx s'.executed fun u => (s'.phase u).held := by
  cases h with
  | enter hphase hturn =>
      refine hs.congr (hand_eq hphase ?_)
      cases hturn <;> rfl
  | stop hphase => exact hs.congr (hand_eq hphase rfl)
  | lock hphase hturn _ =>
      refine hs.congr (hand_eq hphase ?_)
      cases hturn <;> rfl
  | unlock hphase hturn =>
      refine hs.congr (hand_eq hphase ?_)
      cases hturn with
      | run caller => cases caller <;> rfl
      | _ => rfl
  | wait hphase _ _ => exact hs.congr (hand_eq hphase rfl)
  | @pop task queue hphase _ =>
      show Passing (s.dequeued ++ [task]).zipIdx _ _
      have hzip : (s.dequeued ++ [task]).zipIdx
          = s.dequeued.zipIdx ++ [(task, s.dequeued.length)] := by
        rw [List.zipIdx_append, Nat.zero_add]
        rfl
      rw [hzip]
      refine hs.take (t := t) (number_new s task) ?_ ?_ hand_of_ne
      · show (s.phase t).held = none
        rw [hphase]
        rfl
      · show (Function.update s.phase t _ t).held = _
        rw [Function.update_self]
        rfl
  | resume hphase _ _ => exact hs.congr (hand_eq hphase rfl)
  | @begin task body hphase =>
      refine hs.leave (t := t) ?_ ?_ hand_of_ne
      · show (s.phase t).held = some task
        rw [hphase]
        rfl
      · show (Function.update s.phase t _ t).held = none
        rw [Function.update_self]
        rfl
  | finish hphase => exact hs.congr (hand_eq hphase rfl)
  | push hphase _ => exact hs.congr (hand_eq hphase rfl)
  | flag hphase => exact hs.congr (hand_eq hphase rfl)
  | notifyAll hphase => exact hs.congr (hand_eq hphase rfl)
  | wake _ => exact hs

/-- The tasks that have been called have returned, or some thread is in them. -/
theorem doing (h : Move t s s')
    (hheld : Passing s.dequeued.zipIdx s.executed fun u => (s.phase u).held)
    (hs : Passing s.executed s.finished fun u => (s.phase u).doing) :
    Passing s'.executed s'.finished fun u => (s'.phase u).doing := by
  cases h with
  | enter hphase hturn =>
      refine hs.congr (hand_eq hphase ?_)
      cases hturn <;> rfl
  | stop hphase => exact hs.congr (hand_eq hphase rfl)
  | lock hphase hturn _ =>
      refine hs.congr (hand_eq hphase ?_)
      cases hturn <;> rfl
  | unlock hphase hturn =>
      refine hs.congr (hand_eq hphase ?_)
      cases hturn with
      | run caller => cases caller <;> rfl
      | _ => rfl
  | wait hphase _ _ => exact hs.congr (hand_eq hphase rfl)
  | pop hphase _ => exact hs.congr (hand_eq hphase rfl)
  | resume hphase _ _ => exact hs.congr (hand_eq hphase rfl)
  | @begin task body hphase =>
      have hnew : task ∉ s.executed := hheld.apart t task (by rw [hphase]; rfl)
      refine hs.take (t := t) hnew ?_ ?_ hand_of_ne
      · show (s.phase t).doing = none
        rw [hphase]
        rfl
      · show (Function.update s.phase t _ t).doing = _
        rw [Function.update_self]
        rfl
  | @finish task hphase =>
      refine hs.leave (t := t) ?_ ?_ hand_of_ne
      · show (s.phase t).doing = some task
        rw [hphase]
        rfl
      · show (Function.update s.phase t _ t).doing = none
        rw [Function.update_self]
        rfl
  | push hphase _ => exact hs.congr (hand_eq hphase rfl)
  | flag hphase => exact hs.congr (hand_eq hphase rfl)
  | notifyAll hphase => exact hs.congr (hand_eq hphase rfl)
  | wake _ => exact hs

theorem sound (h : Move t s s') (hs : Sound threads s) : Sound threads s' where
  same := h.threads_eq.trans hs.same
  guarded := h.guarded hs.guarded
  parked := h.parked hs.parked
  inside := fun u => by rw [h.inside u, hs.inside u]
  joined := by
    have hjoined := h.joined
    rw [hs.same] at hjoined
    exact hjoined hs.joined
  order := h.order hs.order
  covers := h.covers hs.guarded hs.covers
  flagged := h.flagged hs.flagged
  stopper := h.stopper hs.stopper
  held := h.held hs.held
  doing := h.doing hs.held hs.doing

end Move

/-! ### Every state -/

theorem Sound.step (hs : Sound threads s) (a : PoolAction T τ) : Sound threads (step a s) := by
  rcases step_spec a s with heq | ⟨t, hmove⟩
  · rw [heq]
    exact hs
  · exact hmove.sound hs

theorem Reachable.sound (h : Reachable threads s) : Sound threads s := by
  induction h with
  | start => exact sound_start threads
  | step _ a ih => exact ih.step a

omit [DecidableEq τ] in
theorem nodup_zipIdx (l : List T) : l.zipIdx.Nodup := by
  refine List.Nodup.of_map Prod.snd ?_
  rw [List.zipIdx_map_snd]
  exact List.nodup_range'

/-- Where `stop` has returned, all workers have left. -/
theorem Sound.left (hs : Sound threads s) (ht : s.phase t = .stopped) {u : τ} (hu : u ∈ threads) :
    s.phase u = .left := by
  have hjoined := hs.joined t
  rw [ht] at hjoined
  exact hjoined u hu

/-- A task is only in the hands of workers. -/
theorem Sound.no_hands (hs : Sound threads s) (ht : s.phase t = .stopped) (u : τ) :
    (s.phase u).held = none ∧ (s.phase u).doing = none := by
  by_cases hu : u ∈ threads
  · rw [hs.left ht hu]
    exact ⟨rfl, rfl⟩
  · have hinside : (s.phase u).inside = false := by
      rw [← Bool.not_eq_true, hs.inside u]
      exact hu
    revert hinside
    cases s.phase u with
    | calling _ caller => cases caller with
      | none => exact fun _ => ⟨rfl, rfl⟩
      | some _ => nofun
    | pushing _ caller => cases caller with
      | none => exact fun _ => ⟨rfl, rfl⟩
      | some _ => nofun
    | leaving caller => cases caller with
      | none => exact fun _ => ⟨rfl, rfl⟩
      | some _ => nofun
    | taken _ | holding _ | working _ _ => nofun
    | _ => exact fun _ => ⟨rfl, rfl⟩

end ThreadPool

end Base
