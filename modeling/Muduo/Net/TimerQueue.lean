/-
`TimerQueue`, with the loop that runs its functors.

The queue keeps raw pointers to its timers in two sets: `timers_` by expiration, which says
what is due, and `activeTimers_` by address and sequence number, which is where a `TimerId`
is looked up.  While the callbacks of a batch run, the timers of the batch are in neither,
and the callbacks may add and cancel timers.

Memory is an explicit heap.  `new` may give out any address that is free, so one may be
used again; reading through a pointer to a deleted timer, deleting it again, and a failed
assertion are faults.  A callback is whatever the loop thread does between its start and the
start of the next one.
-/
import Mathlib.Data.Finset.Sort
import Mathlib.Data.Prod.Lex
import Mathlib.Data.Rat.Floor
import Mathlib.Logic.Relation
import Mathlib.Tactic
import Muduo.Net.Channel

namespace Net

/-- Microseconds since the epoch. -/
abbrev Timestamp := Int

/-- The address of a `Timer`. -/
abbrev Addr := Nat

def UINTPTR_MAX : Addr := 2 ^ 64 - 1

/-! ### Timers in memory -/

structure Timer where
  expiration : Timestamp
  interval : ℚ
  sequence : Nat

namespace Timer

/-- `repeat_` -/
def repeats (t : Timer) : Prop := 0 < t.interval

instance (t : Timer) : Decidable t.repeats := inferInstanceAs (Decidable (0 < t.interval))

/-- `restart`, where `Timestamp::invalid()` is the epoch. -/
def restart (t : Timer) (now : Timestamp) : Timer :=
  { t with expiration := if t.repeats then now + ⌊t.interval * 1000000⌋ else 0 }

end Timer

/-- `TimerId`: an address and a sequence number. -/
abbrev TimerId := Addr × Nat

/-- An expiration and an address, in this order of importance. -/
abbrev Entry := Timestamp ×ₗ Addr

def Entry.expiration (e : Entry) : Timestamp := (ofLex e).1

def Entry.timer (e : Entry) : Addr := (ofLex e).2

/-- The queue and the timers of its program. -/
structure TimerQueue where
  heap : Addr → Option Timer
  /-- `Timer::s_numCreated_` -/
  numCreated : Nat
  timers : Finset Entry
  activeTimers : Finset TimerId
  callingExpiredTimers : Bool
  cancelingTimers : Finset TimerId
  /-- What `timerfd_` was last set to. -/
  timerfd : Option Timestamp
  /-- The sequence numbers of the timers that have been deleted. -/
  deleted : List Nat

namespace TimerQueue

def init : TimerQueue := ⟨fun _ => none, 0, ∅, ∅, false, ∅, none, []⟩

/-- Reading through a pointer. -/
def deref (q : TimerQueue) (a : Addr) : Except Fault Timer :=
  match q.heap a with
  | some t => .ok t
  | none => .error .useAfterFree

/-- `new Timer(cb, when, interval)`, at an address that is free. -/
def new (q : TimerQueue) (a : Addr) (when : Timestamp) (interval : ℚ) : TimerQueue :=
  { q with
    heap := Function.update q.heap a (some ⟨when, interval, q.numCreated + 1⟩)
    numCreated := q.numCreated + 1 }

/-- `delete` -/
def delete (q : TimerQueue) (a : Addr) : Except Fault TimerQueue :=
  match q.heap a with
  | some t => .ok { q with heap := Function.update q.heap a none, deleted := q.deleted ++ [t.sequence] }
  | none => .error .doubleFree

/-- `*timers.begin()` -/
def first? (timers : Finset Entry) : Option Entry := timers.sort.head?

/-! ### The functions of the loop thread -/

/-- Whether the earliest expiration has changed, and the queue with the timer in both sets. -/
def insert (q : TimerQueue) (a : Addr) : Except Fault (Bool × TimerQueue) := do
  assertThat (q.timers.card = q.activeTimers.card)
  let t ← q.deref a
  let earliestChanged := match first? q.timers with
    | none => true
    | some e => decide (t.expiration < e.expiration)
  assertThat (toLex (t.expiration, a) ∉ q.timers)
  assertThat ((a, t.sequence) ∉ q.activeTimers)
  let q := { q with
    timers := Insert.insert (toLex (t.expiration, a)) q.timers
    activeTimers := Insert.insert (a, t.sequence) q.activeTimers }
  assertThat (q.timers.card = q.activeTimers.card)
  return (earliestChanged, q)

def addTimerInLoop (q : TimerQueue) (a : Addr) : Except Fault TimerQueue := do
  let (earliestChanged, q) ← q.insert a
  if earliestChanged then
    let t ← q.deref a
    return { q with timerfd := some t.expiration }
  else return q

def cancelInLoop (q : TimerQueue) (id : TimerId) : Except Fault TimerQueue := do
  assertThat (q.timers.card = q.activeTimers.card)
  if id ∈ q.activeTimers then
    let t ← q.deref id.1
    assertThat (toLex (t.expiration, id.1) ∈ q.timers)
    let q := { q with timers := q.timers.erase (toLex (t.expiration, id.1)) }
    let q ← q.delete id.1
    let q := { q with activeTimers := q.activeTimers.erase id }
    assertThat (q.timers.card = q.activeTimers.card)
    return q
  else if q.callingExpiredTimers then
    return { q with cancelingTimers := Insert.insert id q.cancelingTimers }
  else return q

/-- `activeTimers_.erase` for a timer of the batch. -/
def deactivate (q : TimerQueue) (e : Entry) : Except Fault TimerQueue := do
  let t ← q.deref e.timer
  assertThat ((e.timer, t.sequence) ∈ q.activeTimers)
  return { q with activeTimers := q.activeTimers.erase (e.timer, t.sequence) }

/-- The entries that come before `(now, UINTPTR_MAX)`, taken out of both sets. -/
def getExpired (q : TimerQueue) (now : Timestamp) : Except Fault (List Entry × TimerQueue) := do
  assertThat (q.timers.card = q.activeTimers.card)
  let sentry : Entry := toLex (now, UINTPTR_MAX)
  let rest := q.timers.filter fun e => ¬ e < sentry
  assertThat (∀ e ∈ first? rest, now < e.expiration)
  let expired := (q.timers.filter fun e => e < sentry).sort
  let q ← expired.foldlM deactivate { q with timers := rest }
  assertThat (q.timers.card = q.activeTimers.card)
  return (expired, q)

/-- A timer of the batch is started again, or deleted. -/
def resetOne (now : Timestamp) (q : TimerQueue) (e : Entry) : Except Fault TimerQueue := do
  let t ← q.deref e.timer
  if t.repeats ∧ (e.timer, t.sequence) ∉ q.cancelingTimers then
    let q := { q with heap := Function.update q.heap e.timer (some (t.restart now)) }
    let (_, q) ← q.insert e.timer
    return q
  else q.delete e.timer

def reset (q : TimerQueue) (expired : List Entry) (now : Timestamp) : Except Fault TimerQueue := do
  let q ← expired.foldlM (resetOne now) q
  match first? q.timers with
  | none => return q
  | some e =>
      let t ← q.deref e.timer
      return if 0 < t.expiration then { q with timerfd := some t.expiration } else q

/-- `handleRead` up to the first callback: the batch. -/
def beginBatch (q : TimerQueue) (now : Timestamp) : Except Fault (List Entry × TimerQueue) := do
  let (expired, q) ← q.getExpired now
  return (expired, { q with callingExpiredTimers := true, cancelingTimers := ∅ })

/-- `handleRead` behind the last callback. -/
def endBatch (q : TimerQueue) (expired : List Entry) (now : Timestamp) : Except Fault TimerQueue :=
  { q with callingExpiredTimers := false }.reset expired now

/-- `~TimerQueue` -/
def destroy (q : TimerQueue) : Except Fault TimerQueue :=
  q.timers.sort.foldlM (fun q e => q.delete e.timer) q

end TimerQueue

/-! ### The loop -/

/-- The functors that other threads queue for the timers. -/
inductive TimerFunctor where
  | addTimerInLoop (timer : Addr)
  | cancelInLoop (id : TimerId)

def TimerFunctor.run (q : TimerQueue) : TimerFunctor → Except Fault TimerQueue
  | addTimerInLoop a => q.addTimerInLoop a
  | cancelInLoop id => q.cancelInLoop id

/-- Where the loop thread is. -/
inductive TimerPhase where
  /-- Outside `TimerQueue::handleRead`. -/
  | outside
  /-- The callbacks of a batch are run; those of `rest` have not been started. -/
  | calling (now : Timestamp) (expired rest : List Entry)

/-- The program as far as its timers are concerned. -/
structure TimerLoop where
  queue : TimerQueue
  phase : TimerPhase
  /-- Timers whose `addTimer` is between `new` and `runInLoop`, in any thread. -/
  created : List Addr
  pendingFunctors : List TimerFunctor
  /-- The ids that `addTimer` has returned. -/
  returned : List TimerId

namespace TimerLoop

def init : TimerLoop := ⟨.init, .outside, [], [], []⟩

/-- User code is run by the loop thread: outside a batch, or in one of its callbacks. -/
def UserCode (l : TimerLoop) : Prop :=
  match l.phase with
  | .outside => True
  | .calling _ expired rest => rest.length < expired.length

/-- What the threads of the program do. -/
inductive TimerOp where
  /-- `addTimer`, in any thread: `new Timer`. -/
  | newTimer (a : Addr) (when : Timestamp) (interval : ℚ)
  /-- `addTimer` in another thread: the rest of it. -/
  | queueAdd (a : Addr)
  /-- `cancel` in another thread. -/
  | queueCancel (id : TimerId)
  /-- `addTimer` in the loop thread: the rest of it. -/
  | runAdd (a : Addr)
  /-- `cancel` in the loop thread. -/
  | runCancel (id : TimerId)
  /-- The loop thread runs the functor that has waited longest. -/
  | runFunctor
  /-- `handleRead`, up to the first callback. -/
  | handleRead (now : Timestamp)
  /-- The next callback of the batch is started. -/
  | runCallback
  /-- `handleRead`, behind the last callback. -/
  | reset

/-- The id of the timer at an address. -/
def idOf (q : TimerQueue) (a : Addr) : TimerId := (a, ((q.heap a).map Timer.sequence).getD 0)

/-- What one of them leads to. -/
inductive Step (l : TimerLoop) : TimerOp → Except Fault TimerLoop → Prop
  | newTimer {a : Addr} {when : Timestamp} {interval : ℚ} (hfree : l.queue.heap a = none)
      (ha : a < UINTPTR_MAX) :
      Step l (.newTimer a when interval)
        (.ok { l with queue := l.queue.new a when interval, created := l.created ++ [a] })
  | queueAdd {a : Addr} (ha : a ∈ l.created) :
      Step l (.queueAdd a)
        (.ok { l with
          created := l.created.erase a
          pendingFunctors := l.pendingFunctors ++ [.addTimerInLoop a]
          returned := l.returned ++ [idOf l.queue a] })
  | queueCancel {id : TimerId} :
      Step l (.queueCancel id)
        (.ok { l with pendingFunctors := l.pendingFunctors ++ [.cancelInLoop id] })
  | runAdd {a : Addr} (ha : a ∈ l.created) (huser : l.UserCode) :
      Step l (.runAdd a) ((l.queue.addTimerInLoop a).map fun q =>
        { l with queue := q, created := l.created.erase a, returned := l.returned ++ [idOf l.queue a] })
  | runCancel {id : TimerId} (huser : l.UserCode) :
      Step l (.runCancel id) ((l.queue.cancelInLoop id).map fun q => { l with queue := q })
  | runFunctor {f : TimerFunctor} {rest : List TimerFunctor} (hphase : l.phase = .outside)
      (hpending : l.pendingFunctors = f :: rest) :
      Step l .runFunctor ((f.run l.queue).map fun q => { l with queue := q, pendingFunctors := rest })
  | handleRead {now : Timestamp} (hphase : l.phase = .outside) :
      Step l (.handleRead now) ((l.queue.beginBatch now).map fun p =>
        { l with queue := p.2, phase := .calling now p.1 p.1 })
  | runCallback {now : Timestamp} {expired rest : List Entry} {e : Entry}
      (hphase : l.phase = .calling now expired (e :: rest)) :
      Step l .runCallback ((l.queue.deref e.timer).map fun _ =>
        { l with phase := .calling now expired rest })
  | reset {now : Timestamp} {expired : List Entry} (hphase : l.phase = .calling now expired []) :
      Step l .reset ((l.queue.endBatch expired now).map fun q =>
        { l with queue := q, phase := .outside })

/-- One step of a run. -/
def Next (l l' : TimerLoop) : Prop := ∃ op, Step l op (.ok l')

/-- The states of the runs. -/
def Reachable (l : TimerLoop) : Prop := Relation.ReflTransGen Next init l

end TimerLoop

end Net
