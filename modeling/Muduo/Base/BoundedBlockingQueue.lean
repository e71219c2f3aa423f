/-
`BoundedBlockingQueue`, with any threads.

A thread is in some place of `put` or `take`, or outside of them, and a step takes one thread
from one place to the next.  What is done under the mutex between two steps nobody else can
see.  Threads may wake without having been told to, and `notify` tells any one that waits.

What has been put, what has been taken, and the calls and returns that have been seen are
recorded beside the queue.
-/
import Muduo.Lib.Atomic
import Muduo.Lib.Monitor
import Muduo.Net.Channel

namespace Base

open Lib
open Net (Fault assertThat)

/-- A call of `put` or of `take`. -/
inductive QueueCall (α : Type) where
  | put (x : α)
  | take

/-- The condition variables of the queue. -/
inductive QueueCond where
  | notEmpty
  | notFull
deriving DecidableEq

namespace QueueCall

variable {α : Type}

/-- What the call waits for. -/
def needs : QueueCall α → QueueCond
  | put _ => .notFull
  | take => .notEmpty

/-- What the call notifies. -/
def tells : QueueCall α → QueueCond
  | put _ => .notEmpty
  | take => .notFull

end QueueCall

/-- Where a thread is. -/
inductive QueuePhase (α : Type) where
  | outside
  /-- In front of the lock. -/
  | called (c : QueueCall α)
  /-- In front of the condition of `while`, with the mutex. -/
  | testing (c : QueueCall α)
  /-- In `wait`. -/
  | blocked (c : QueueCall α)
  /-- In front of `notify`, with the mutex; `take` has its value. -/
  | changed (c : QueueCall α) (r : Option α)
  /-- In front of the end of the lock. -/
  | leaving (c : QueueCall α) (r : Option α)

/-- The phases with the mutex. -/
def QueuePhase.holds {α : Type} : QueuePhase α → Bool
  | testing _ | changed _ _ | leaving _ _ => true
  | _ => false

structure BoundedBlockingQueue (α τ : Type) where
  /-- The capacity of the circular buffer. -/
  maxSize : Nat
  queue : List α
  holder : Option τ
  cond : QueueCond → CondVar τ
  phase : τ → QueuePhase α
  /-- What has been put, and taken. -/
  puts : List α
  taken : List α
  history : List (ObjectEvent τ (QueueCall α) (Option α))

inductive QueueAction (α τ : Type) where
  | call (t : τ) (c : QueueCall α)
  | lock (t : τ)
  /-- The condition is tested, and the thread waits or changes the queue. -/
  | test (t : τ)
  | notify (t who : τ)
  /-- The mutex is released, and the call returns. -/
  | unlock (t : τ)
  /-- A thread wakes without having been told to. -/
  | wake (t : τ)
  /-- A thread that no longer waits gets the mutex back. -/
  | resume (t : τ)

namespace BoundedBlockingQueue

variable {α τ : Type}

def init (maxSize : Nat) : BoundedBlockingQueue α τ where
  maxSize := maxSize
  queue := []
  holder := none
  cond := fun _ => .empty
  phase := fun _ => .outside
  puts := []
  taken := []
  history := []

def empty (s : BoundedBlockingQueue α τ) : Bool := s.queue.isEmpty

def full (s : BoundedBlockingQueue α τ) : Bool := s.queue.length == s.maxSize

/-- `circular_buffer::push_back`, which overwrites the first element of a full buffer. -/
def pushBack (s : BoundedBlockingQueue α τ) (x : α) : List α :=
  if s.full then (s.queue ++ [x]).drop 1 else s.queue ++ [x]

variable [DecidableEq τ]

def enter (s : BoundedBlockingQueue α τ) (t : τ) (p : QueuePhase α) : BoundedBlockingQueue α τ :=
  { s with phase := Function.update s.phase t p }

/-- `wait()`, which releases the mutex. -/
def wait (s : BoundedBlockingQueue α τ) (t : τ) (c : QueueCall α) : BoundedBlockingQueue α τ :=
  { s.enter t (.blocked c) with
    holder := none
    cond := Function.update s.cond c.needs ((s.cond c.needs).wait t) }

/-- `put` and `take` from the condition of `while` to `notify`. -/
def test (s : BoundedBlockingQueue α τ) (t : τ) :
    QueueCall α → Except Fault (BoundedBlockingQueue α τ)
  | .put x =>
      if s.full then .ok (s.wait t (.put x))
      else do
        assertThat (s.full = false)
        return { s.enter t (.changed (.put x) none) with
          queue := s.pushBack x
          puts := s.puts ++ [x] }
  | .take =>
      if s.empty then .ok (s.wait t .take)
      else do
        assertThat (s.empty = false)
        match s.queue with
        | [] => .error .assertion
        | front :: queue =>
            return { s.enter t (.changed .take (some front)) with
              queue := queue, taken := s.taken ++ [front] }

def step : QueueAction α τ → BoundedBlockingQueue α τ → Except Fault (BoundedBlockingQueue α τ)
  | .call t c, s =>
      match s.phase t with
      | .outside => .ok { s.enter t (.called c) with history := s.history ++ [.call t c] }
      | _ => .ok s
  | .lock t, s =>
      match s.phase t, s.holder with
      | .called c, none => .ok { s.enter t (.testing c) with holder := some t }
      | _, _ => .ok s
  | .test t, s =>
      match s.phase t with
      | .testing c => s.test t c
      | _ => .ok s
  | .notify t who, s =>
      match s.phase t with
      | .changed c r =>
          if (s.cond c.tells).MayNotify who then
            .ok { s.enter t (.leaving c r) with
              cond := Function.update s.cond c.tells ((s.cond c.tells).notify who) }
          else .ok s
      | _ => .ok s
  | .unlock t, s =>
      match s.phase t with
      | .leaving c r =>
          .ok { s.enter t .outside with holder := none, history := s.history ++ [.ret t c r] }
      | _ => .ok s
  | .wake t, s =>
      match s.phase t with
      | .blocked c =>
          .ok { s with cond := Function.update s.cond c.needs ((s.cond c.needs).wake t) }
      | _ => .ok s
  | .resume t, s =>
      match s.phase t, s.holder with
      | .blocked c, none =>
          if t ∈ (s.cond c.needs).waiting then .ok s
          else
            .ok { s.enter t (.testing c) with
              holder := some t
              cond := Function.update s.cond c.needs ((s.cond c.needs).resume t) }
      | _, _ => .ok s

end BoundedBlockingQueue

end Base
