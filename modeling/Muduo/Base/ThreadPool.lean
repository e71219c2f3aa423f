/-
`ThreadPool`, with any threads and any tasks.

The workers run `runInThread`; any other thread may call `run`, and one of them `stop`.  A task
is known by its place in the order of queueing.  What it does is up to it: when it begins, the
tasks it is going to queue are chosen, and when it has queued them it returns.

What a thread does under the mutex between two steps nobody else can see, but for `running_`,
which the workers read without the mutex.
-/
import Muduo.Lib.Monitor
import Muduo.Lib.Passing
import Muduo.Lib.Schedule

namespace Base

open Lib

/-- A task, and its number in the order of queueing. -/
abbrev Queued (T : Type) := T × Nat

/-- Who has called `run`: a thread outside, or a task with what it is going to queue. -/
abbrev RunCaller (T : Type) := Option (Queued T × List T)

/-- Where a thread is. -/
inductive PoolPhase (T τ : Type) where
  | outside
  /-- In `runInThread`, in front of the condition of `while`. -/
  | looping
  /-- In `take`, in front of the lock. -/
  | locking
  /-- In front of the condition of `while`, with the mutex. -/
  | testing
  /-- In `wait`. -/
  | blocked
  /-- In front of the end of the lock. -/
  | taken (task : Option (Queued T))
  /-- In front of the task. -/
  | holding (task : Queued T)
  /-- In the task, which is going to queue these. -/
  | working (task : Queued T) (rest : List T)
  /-- In `run`, in front of the lock, of `push_back`, and of the end of the lock. -/
  | calling (task : T) (caller : RunCaller T)
  | pushing (task : T) (caller : RunCaller T)
  | leaving (caller : RunCaller T)
  /-- `runInThread` has returned. -/
  | left
  /-- In `stop`: in front of the lock, of `running_ = false`, of `notifyAll`, and of the end of
  the lock. -/
  | stopping
  | flagging
  | notifying
  | unlocking
  /-- In front of `join` for these threads. -/
  | joining (threads : List τ)
  /-- `stop` has returned. -/
  | stopped

namespace PoolPhase

variable {T τ : Type}

/-- The phases with the mutex. -/
def holds : PoolPhase T τ → Bool
  | testing | taken _ | pushing _ _ | leaving _ | flagging | notifying | unlocking => true
  | _ => false

/-- Where `run` returns to. -/
def back : RunCaller T → PoolPhase T τ
  | none => outside
  | some (task, rest) => working task rest

end PoolPhase

structure ThreadPool (T τ : Type) where
  threads : List τ
  queue : List T
  running : Bool
  holder : Option τ
  cond : CondVar τ
  phase : τ → PoolPhase T τ
  /-- `stop` has been called. -/
  stopCalled : Bool
  /-- What has been queued, and taken from the queue. -/
  queued : List T
  dequeued : List T
  /-- The tasks that have been called, and those that have returned. -/
  executed : List (Queued T)
  finished : List (Queued T)

inductive PoolAction (T τ : Type) where
  /-- A thread outside calls `run`, or `stop`. -/
  | run (t : τ) (task : T)
  | stop (t : τ)
  /-- A thread goes on.  A `notify` is for `who`, and a task that begins is going to queue
  `body`. -/
  | next (t who : τ) (body : List T)
  /-- A thread wakes without having been told to. -/
  | wake (t : τ)

namespace ThreadPool

variable {T τ : Type} [DecidableEq τ]

/-- The pool behind `start`. -/
def start (threads : List τ) : ThreadPool T τ where
  threads := threads
  queue := []
  running := true
  holder := none
  cond := .empty
  phase := fun t => if t ∈ threads then .looping else .outside
  stopCalled := false
  queued := []
  dequeued := []
  executed := []
  finished := []

def enter (s : ThreadPool T τ) (t : τ) (p : PoolPhase T τ) : ThreadPool T τ :=
  { s with phase := Function.update s.phase t p }

def lock (s : ThreadPool T τ) (t : τ) (p : PoolPhase T τ) : ThreadPool T τ :=
  match s.holder with
  | none => { s.enter t p with holder := some t }
  | some _ => s

def unlock (s : ThreadPool T τ) (t : τ) (p : PoolPhase T τ) : ThreadPool T τ :=
  { s.enter t p with holder := none }

/-- `take`, with the mutex. -/
def take (s : ThreadPool T τ) (t : τ) : ThreadPool T τ :=
  match s.queue, s.running with
  | [], true => { s.unlock t .blocked with cond := s.cond.wait t }
  | [], false => s.enter t (.taken none)
  | task :: queue, _ =>
      { s.enter t (.taken (some (task, s.dequeued.length))) with
        queue := queue, dequeued := s.dequeued ++ [task] }

/-- A thread goes on. -/
def next (s : ThreadPool T τ) (t who : τ) (body : List T) : ThreadPool T τ :=
  match s.phase t with
  | .outside | .left | .stopped => s
  | .looping => s.enter t (if s.running then .locking else .left)
  | .locking => s.lock t .testing
  | .testing => s.take t
  | .blocked =>
      if t ∈ s.cond.waiting then s
      else
        match s.holder with
        | none => { s.lock t .testing with cond := s.cond.resume t }
        | some _ => s
  | .taken none => s.unlock t .looping
  | .taken (some task) => s.unlock t (.holding task)
  | .holding task => { s.enter t (.working task body) with executed := s.executed ++ [task] }
  | .working task [] => { s.enter t .looping with finished := s.finished ++ [task] }
  | .working task (child :: rest) => s.enter t (.calling child (some (task, rest)))
  | .calling task caller => s.lock t (.pushing task caller)
  | .pushing task caller =>
      if s.cond.MayNotify who then
        { s.enter t (.leaving caller) with
          queue := s.queue ++ [task], queued := s.queued ++ [task], cond := s.cond.notify who }
      else s
  | .leaving caller => s.unlock t (.back caller)
  | .stopping => s.lock t .flagging
  | .flagging => { s.enter t .notifying with running := false }
  | .notifying => { s.enter t .unlocking with cond := s.cond.notifyAll }
  | .unlocking => s.unlock t (.joining s.threads)
  | .joining [] => s.enter t .stopped
  | .joining (u :: threads) =>
      match s.phase u with
      | .left => s.enter t (.joining threads)
      | _ => s

def step : PoolAction T τ → ThreadPool T τ → ThreadPool T τ
  | .run t task, s =>
      -- without threads the task is called at once, and the pool has nothing to do with it
      match s.phase t, s.threads with
      | .outside, _ :: _ => s.enter t (.calling task none)
      | _, _ => s
  | .stop t, s =>
      match s.phase t, s.stopCalled with
      | .outside, false => { s.enter t .stopping with stopCalled := true }
      | _, _ => s
  | .next t who body, s => s.next t who body
  | .wake t, s =>
      match s.phase t with
      | .blocked => { s with cond := s.cond.wake t }
      | _ => s

/-- The states of a pool with these threads. -/
inductive Reachable (threads : List τ) : ThreadPool T τ → Prop
  | start : Reachable threads (start threads)
  | step {s : ThreadPool T τ} (h : Reachable threads s) (a : PoolAction T τ) :
      Reachable threads (step a s)

/-- A step in which a thread goes on. -/
def Goes (t : τ) (a : PoolAction T τ) (s : ThreadPool T τ) : Prop :=
  ∃ who body, a = .next t who body ∧ s.next t who body ≠ s

end ThreadPool

end Base
