/-
The descriptor that wakes the loop up for its timers, and the clock.

A one-shot timerfd is armed for a moment: it becomes readable then, and stays so until it is
read or armed again.  Each step of the loop is taken at a moment of a clock that does not
go backwards and that starts after the epoch.

Which of the loop's steps arm the descriptor is read off its queue: a step starts with
nothing noted in `timerfd`, and what is noted there afterwards is the expiration that
`resetTimerfd` was called with.
-/
import Muduo.Net.TimerQueue

namespace Net

/-- Microseconds. -/
def howMuchTimeFromNow (when now : Timestamp) : Int :=
  let microseconds := when - now
  if microseconds < 100 then 100 else microseconds

/-- The descriptor, as the kernel sees it. -/
structure Timerfd where
  /-- When it becomes readable, or since when it has been. -/
  armed : Option Timestamp
  /-- When it was last armed. -/
  lastArming : Option Timestamp

namespace Timerfd

/-- What there is to be read is gone then. -/
def readTimerfd (fd : Timerfd) (now : Timestamp) : Timerfd :=
  { fd with armed := fd.armed.filter (now < ·) }

def resetTimerfd (expiration now : Timestamp) : Timerfd :=
  ⟨some (now + howMuchTimeFromNow expiration now), some now⟩

end Timerfd

/-- A loop, its descriptor and its clock. -/
structure ClockedLoop where
  loop : TimerLoop
  timerfd : Timerfd
  clock : Timestamp

namespace ClockedLoop

open TimerLoop

def init : ClockedLoop := ⟨.init, ⟨none, none⟩, 1⟩

/-- The loop before a step, with nothing noted. -/
def unnoted (l : TimerLoop) : TimerLoop := { l with queue := { l.queue with timerfd := none } }

/-- What the step does to the descriptor first. -/
def read (fd : Timerfd) (now : Timestamp) : TimerOp → Timerfd
  | .handleRead _ => fd.readTimerfd now
  | _ => fd

/-- The step is behind: the descriptor is armed, if that was noted. -/
def after (m : ClockedLoop) (op : TimerOp) (l : TimerLoop) (now : Timestamp) : ClockedLoop :=
  ⟨l, match l.queue.timerfd with
    | some expiration => .resetTimerfd expiration now
    | none => read m.timerfd now op, now⟩

/-- The time that `handleRead` works with is of its own: it is taken just before the descriptor
is read. -/
def InTime (clock : Timestamp) (op : TimerOp) (now : Timestamp) : Prop :=
  match op with
  | .handleRead time => clock ≤ time ∧ time ≤ now
  | _ => clock ≤ now

/-- One step of a run, at a moment. -/
inductive Next (m : ClockedLoop) : ClockedLoop → Prop
  | step {op : TimerOp} {l : TimerLoop} {now : Timestamp} (htime : InTime m.clock op now)
      (hstep : Step (unnoted m.loop) op (.ok l)) : Next m (m.after op l now)

/-- The states of the runs. -/
def Reachable (m : ClockedLoop) : Prop := Relation.ReflTransGen Next init m

end ClockedLoop

end Net
