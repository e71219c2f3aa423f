/-
`CountDownLatch`, with any threads.

A thread is in some place of `wait` or `countDown`, or outside of them, and a step takes one
thread from one place to the next.  Threads may wake without having been told to.  Who waits is
told once, by the call that brings the count to zero.

How often it has been counted down is recorded beside the count.
-/
import Muduo.Lib.Monitor

namespace Base

open Lib

inductive LatchCall where
  | wait
  | countDown
deriving DecidableEq

/-- Where a thread is. -/
inductive LatchPhase where
  | outside
  /-- In front of the lock. -/
  | called (c : LatchCall)
  /-- In front of the condition of `while`, or of `--count_`, with the mutex. -/
  | entered (c : LatchCall)
  /-- In `condition_.wait()`. -/
  | blocked
  /-- In front of the test for zero, with the mutex. -/
  | counted
  /-- In front of the end of the lock. -/
  | leaving (c : LatchCall)
deriving DecidableEq

/-- The phases with the mutex. -/
def LatchPhase.holds : LatchPhase → Bool
  | entered _ | counted | leaving _ => true
  | _ => false

structure CountDownLatch (τ : Type) where
  count : Int
  holder : Option τ
  condition : CondVar τ
  phase : τ → LatchPhase
  /-- How often `count_` has been decremented. -/
  downs : Nat

inductive LatchAction (τ : Type) where
  | call (t : τ) (c : LatchCall)
  | lock (t : τ)
  /-- The condition is tested, and the thread waits or leaves; or the count is decremented. -/
  | test (t : τ)
  /-- The count is tested, and all are told. -/
  | tell (t : τ)
  /-- The mutex is released, and the call returns. -/
  | unlock (t : τ)
  /-- A thread wakes without having been told to. -/
  | wake (t : τ)
  /-- A thread that no longer waits gets the mutex back. -/
  | resume (t : τ)

namespace CountDownLatch

variable {τ : Type}

def init (count : Int) : CountDownLatch τ where
  count := count
  holder := none
  condition := .empty
  phase := fun _ => .outside
  downs := 0

variable [DecidableEq τ]

def enter (s : CountDownLatch τ) (t : τ) (p : LatchPhase) : CountDownLatch τ :=
  { s with phase := Function.update s.phase t p }

def step (s : CountDownLatch τ) : LatchAction τ → CountDownLatch τ
  | .call t c =>
      match s.phase t with
      | .outside => s.enter t (.called c)
      | _ => s
  | .lock t =>
      match s.phase t, s.holder with
      | .called c, none => { s.enter t (.entered c) with holder := some t }
      | _, _ => s
  | .test t =>
      match s.phase t with
      | .entered .wait =>
          if 0 < s.count then
            { s.enter t .blocked with holder := none, condition := s.condition.wait t }
          else s.enter t (.leaving .wait)
      | .entered .countDown =>
          { s.enter t .counted with count := s.count - 1, downs := s.downs + 1 }
      | _ => s
  | .tell t =>
      match s.phase t with
      | .counted =>
          if s.count = 0 then
            { s.enter t (.leaving .countDown) with condition := s.condition.notifyAll }
          else s.enter t (.leaving .countDown)
      | _ => s
  | .unlock t =>
      match s.phase t with
      | .leaving _ => { s.enter t .outside with holder := none }
      | _ => s
  | .wake t =>
      match s.phase t with
      | .blocked => { s with condition := s.condition.wake t }
      | _ => s
  | .resume t =>
      match s.phase t, s.holder with
      | .blocked, none =>
          if t ∈ s.condition.waiting then s
          else
            { s.enter t (.entered .wait) with
              holder := some t, condition := s.condition.resume t }
      | _, _ => s

def run (acts : List (LatchAction τ)) (s : CountDownLatch τ) : CountDownLatch τ :=
  acts.foldl step s

end CountDownLatch

end Base
