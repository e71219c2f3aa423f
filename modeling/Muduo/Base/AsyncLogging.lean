/-
`AsyncLogging`, with any threads that append.

Buffers are known by a number, which is new for each `new Buffer`, so that it can be said who
owns which.  The logging thread and those that append take steps; what is done under the mutex
between two steps nobody else can see.  `push_back` of a null pointer, a null pointer that is
used and `pop_back` of an empty vector are faults, as the assertions are.

A record carries the thread that appends it.  The records that have been given to a buffer, in
the order of the mutex, and those whose `append` has returned are recorded beside the logger.
-/
import Muduo.Lib.Bytes
import Muduo.Lib.Monitor
import Muduo.Net.Channel

namespace Base

open Lib
open Net (Fault assertThat)

/-- `kLargeBuffer` -/
def kLargeBuffer : Nat := 4000 * 1000

/-- The thread, and what it logs. -/
abbrev LogRecord (τ : Type) := τ × Bytes

/-- A `FixedBuffer`, with the records in it. -/
structure LogBuffer (τ : Type) where
  id : Nat
  records : List (LogRecord τ)

namespace LogBuffer

variable {τ : Type}

def length (b : LogBuffer τ) : Nat := (b.records.map fun r => r.2.length).sum

def avail (b : LogBuffer τ) : Nat := kLargeBuffer - b.length

/-- `append`, which leaves out what does not fit. -/
def append (b : LogBuffer τ) (r : LogRecord τ) : LogBuffer τ :=
  if r.2.length < b.avail then { b with records := b.records ++ [r] } else b

def reset (b : LogBuffer τ) : LogBuffer τ := { b with records := [] }

end LogBuffer

/-- What is in the log file. -/
inductive LogLine (τ : Type) where
  | record (r : LogRecord τ)
  /-- "Dropped log messages at ..., ... larger buffers" -/
  | dropped (buffers : Nat)

/-- Where a thread that appends is. -/
inductive AppendPhase where
  | outside
  /-- In front of the lock. -/
  | calling (logline : Bytes)
  /-- With the mutex. -/
  | locked (logline : Bytes)
  /-- In front of the end of the lock. -/
  | leaving (logline : Bytes)
deriving DecidableEq

def AppendPhase.holds : AppendPhase → Bool
  | locked _ | leaving _ => true
  | _ => false

/-- Where the logging thread is. -/
inductive LogPhase where
  /-- In front of `countDown`. -/
  | starting
  /-- In front of the condition of `while`. -/
  | testing
  /-- In front of the lock. -/
  | locking
  /-- In front of `if (buffers_.empty())`, with the mutex. -/
  | locked
  /-- In `waitForSeconds`, and behind it, without the mutex. -/
  | waiting
  | woken
  /-- In front of the exchange of the buffers, with the mutex. -/
  | swapping
  /-- In front of the end of the lock. -/
  | unlocking
  /-- In front of the output. -/
  | writing
  /-- In front of `resize`. -/
  | refilling
  /-- `threadFunc` has returned. -/
  | left
deriving DecidableEq

def LogPhase.holds : LogPhase → Bool
  | locked | swapping | unlocking => true
  | _ => false

/-- How far `stop` is: in front of `notify`, of `join`, or behind it. -/
inductive LogStop where
  | uncalled
  | notifying
  | joining
  | joined
deriving DecidableEq

structure AsyncLogging (τ : Type) where
  running : Bool
  /-- Who has the mutex: the logging thread is `none`. -/
  holder : Option (Option τ)
  currentBuffer : Option (LogBuffer τ)
  nextBuffer : Option (LogBuffer τ)
  buffers : List (LogBuffer τ)
  /-- The variables of `threadFunc`. -/
  newBuffer1 : Option (LogBuffer τ)
  newBuffer2 : Option (LogBuffer τ)
  buffersToWrite : List (LogBuffer τ)
  output : List (LogLine τ)
  logger : LogPhase
  phase : τ → AppendPhase
  stopped : LogStop
  /-- The number of the next new buffer. -/
  fresh : Nat
  appended : List (LogRecord τ)
  returned : List (LogRecord τ)
  /-- What had returned when `stop` was called. -/
  due : List (LogRecord τ)

inductive LogAction (τ : Type) where
  /-- A thread calls `append`, and goes on in it. -/
  | call (t : τ) (logline : Bytes)
  | append (t : τ)
  /-- The logging thread goes on. -/
  | log
  /-- `waitForSeconds` returns without having been notified. -/
  | wake
  /-- `stop` is called, and goes on. -/
  | stop

namespace AsyncLogging

variable {τ : Type}

/-- The logger behind `thread_.start()`. -/
def start : AsyncLogging τ where
  running := true
  holder := none
  currentBuffer := some ⟨0, []⟩
  nextBuffer := some ⟨1, []⟩
  buffers := []
  newBuffer1 := none
  newBuffer2 := none
  buffersToWrite := []
  output := []
  logger := .starting
  phase := fun _ => .outside
  stopped := .uncalled
  fresh := 2
  appended := []
  returned := []
  due := []

/-- `cond_.notify()`, for the one thread that waits. -/
def notify (s : AsyncLogging τ) : AsyncLogging τ :=
  { s with logger := if s.logger = .waiting then .woken else s.logger }

/-- `append`, with the mutex. -/
def appendLocked (s : AsyncLogging τ) (r : LogRecord τ) : Except Fault (AsyncLogging τ) :=
  match s.currentBuffer with
  | none => .error .assertion
  | some current =>
      if r.2.length < current.avail then .ok { s with currentBuffer := some (current.append r) }
      else
        let s := { s with buffers := s.buffers ++ [current] }
        match s.nextBuffer with
        | some next =>
            .ok { s with currentBuffer := some (next.append r), nextBuffer := none }.notify
        | none =>
            .ok { s with
              currentBuffer := some ((LogBuffer.mk s.fresh []).append r)
              fresh := s.fresh + 1 }.notify

/-- The exchange of the buffers. -/
def swap (s : AsyncLogging τ) : Except Fault (AsyncLogging τ) :=
  match s.currentBuffer with
  | none => .error .assertion
  | some current =>
      let s := { s with
        buffers := s.buffersToWrite
        buffersToWrite := s.buffers ++ [current]
        currentBuffer := s.newBuffer1
        newBuffer1 := none }
      match s.nextBuffer with
      | some _ => .ok s
      | none => .ok { s with nextBuffer := s.newBuffer2, newBuffer2 := none }

/-- The output, of which a long vector keeps two buffers. -/
def write (s : AsyncLogging τ) : Except Fault (AsyncLogging τ) := do
  assertThat (s.buffersToWrite ≠ [])
  let s :=
    if 25 < s.buffersToWrite.length then
      { s with
        output := s.output ++ [.dropped (s.buffersToWrite.length - 2)]
        buffersToWrite := s.buffersToWrite.take 2 }
    else s
  return { s with
    output := s.output ++ s.buffersToWrite.flatMap fun b => b.records.map .record }

/-- `pop_back` and `reset` -/
def popBack (buffers : List (LogBuffer τ)) :
    Except Fault (Option (LogBuffer τ) × List (LogBuffer τ)) :=
  match buffers.getLast? with
  | none => .error .assertion
  | some b => .ok (some b.reset, buffers.dropLast)

/-- A new buffer that has been given away is replaced. -/
def refilled (newBuffer : Option (LogBuffer τ)) (buffers : List (LogBuffer τ)) :
    Except Fault (Option (LogBuffer τ) × List (LogBuffer τ)) :=
  match newBuffer with
  | some b => .ok (some b, buffers)
  | none => popBack buffers

/-- From `resize` to `clear`. -/
def refill (s : AsyncLogging τ) : Except Fault (AsyncLogging τ) := do
  let buffersToWrite :=
    if 2 < s.buffersToWrite.length then s.buffersToWrite.take 2 else s.buffersToWrite
  let (newBuffer1, buffersToWrite) ← refilled s.newBuffer1 buffersToWrite
  let (newBuffer2, _) ← refilled s.newBuffer2 buffersToWrite
  return { s with newBuffer1 := newBuffer1, newBuffer2 := newBuffer2, buffersToWrite := [] }

/-- The assertions at the head of the loop. -/
def head (s : AsyncLogging τ) : Except Fault Unit := do
  assertThat (s.newBuffer1.any fun b => b.length == 0)
  assertThat (s.newBuffer2.any fun b => b.length == 0)
  assertThat (s.buffersToWrite = [])

def log (s : AsyncLogging τ) : Except Fault (AsyncLogging τ) :=
  match s.logger with
  | .starting => do
      assertThat (s.running = true)
      return { s with
        newBuffer1 := some ⟨s.fresh, []⟩, newBuffer2 := some ⟨s.fresh + 1, []⟩
        fresh := s.fresh + 2
        logger := .testing }
  | .testing =>
      if s.running then do
        s.head
        return { s with logger := .locking }
      else .ok { s with logger := .left }
  | .locking =>
      match s.holder with
      | none => .ok { s with holder := some none, logger := .locked }
      | some _ => .ok s
  | .locked =>
      if s.buffers = [] then .ok { s with holder := none, logger := .waiting }
      else .ok { s with logger := .swapping }
  | .waiting => .ok s
  | .woken =>
      match s.holder with
      | none => .ok { s with holder := some none, logger := .swapping }
      | some _ => .ok s
  | .swapping => s.swap.map fun s => { s with logger := .unlocking }
  | .unlocking => .ok { s with holder := none, logger := .writing }
  | .writing => s.write.map fun s => { s with logger := .refilling }
  | .refilling => s.refill.map fun s => { s with logger := .testing }
  | .left => .ok s

variable [DecidableEq τ]

def enter (s : AsyncLogging τ) (t : τ) (p : AppendPhase) : AsyncLogging τ :=
  { s with phase := Function.update s.phase t p }

def step : LogAction τ → AsyncLogging τ → Except Fault (AsyncLogging τ)
  | .call t logline, s =>
      match s.phase t with
      | .outside => .ok (s.enter t (.calling logline))
      | _ => .ok s
  | .append t, s =>
      match s.phase t with
      | .outside => .ok s
      | .calling logline =>
          match s.holder with
          | none => .ok { s.enter t (.locked logline) with holder := some (some t) }
          | some _ => .ok s
      | .locked logline =>
          (s.appendLocked (t, logline)).map fun s =>
            { s.enter t (.leaving logline) with appended := s.appended ++ [(t, logline)] }
      | .leaving logline =>
          .ok { s.enter t .outside with
            holder := none, returned := s.returned ++ [(t, logline)] }
  | .log, s => s.log
  | .wake, s => .ok { s with logger := if s.logger = .waiting then .woken else s.logger }
  | .stop, s =>
      match s.stopped with
      | .uncalled =>
          -- `start` returns behind `countDown`
          if s.logger = .starting then .ok s
          else .ok { s with running := false, stopped := .notifying, due := s.returned }
      | .notifying => .ok { s.notify with stopped := .joining }
      | .joining => if s.logger = .left then .ok { s with stopped := .joined } else .ok s
      | .joined => .ok s

end AsyncLogging

end Base
