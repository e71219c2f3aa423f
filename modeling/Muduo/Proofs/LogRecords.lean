/-
The records that `AsyncLogging` writes.

As long as each record is shorter than a buffer and never more than 25 buffers are written in a
round, what has been appended is what has been written, then what the logging thread has taken
and not written yet, then what is in the shared buffers.  A round takes all of the last into
the second.

`stop` does not see to it that there is another round: the thread leaves its loop without
looking at the shared buffers, and what they hold is lost.  There is one if the thread has
tested `running_` before it is reset and has not exchanged the buffers yet.
-/
import Muduo.Proofs.LogBuffers

namespace Base

open Lib
open Net (Fault assertThat assertThat_of)

namespace LogBuffer

variable {τ : Type}

/-- A record that fits is there. -/
theorem records_append {b : LogBuffer τ} {r : LogRecord τ} (h : r.2.length < b.avail) :
    (b.append r).records = b.records ++ [r] := by
  rw [append, if_pos h]

/-- An empty buffer has room for a record that is shorter than a buffer. -/
theorem records_append_empty {b : LogBuffer τ} {r : LogRecord τ} (hempty : b.records = [])
    (h : r.2.length < kLargeBuffer) : (b.append r).records = [r] := by
  rw [records_append, hempty]
  · rfl
  · rw [avail, length, hempty]
    exact h

end LogBuffer

/-- The record of a line. -/
def LogLine.record? {τ : Type} : LogLine τ → Option (LogRecord τ)
  | .record r => some r
  | .dropped _ => none

/-- Between the condition of `while` and the exchange of the buffers. -/
def LogPhase.beforeSwap : LogPhase → Bool
  | locking | locked | waiting | woken | swapping => true
  | _ => false

namespace AsyncLogging

variable {τ : Type} {s s' : AsyncLogging τ}

/-! ### Where the records are -/

def recordsOf (bs : List (LogBuffer τ)) : List (LogRecord τ) := bs.flatMap LogBuffer.records

theorem recordsOf_append (bs cs : List (LogBuffer τ)) :
    recordsOf (bs ++ cs) = recordsOf bs ++ recordsOf cs := List.flatMap_append

theorem recordsOf_singleton (b : LogBuffer τ) : recordsOf [b] = b.records := List.append_nil _

/-- The records in the log file. -/
def written (s : AsyncLogging τ) : List (LogRecord τ) := s.output.filterMap LogLine.record?

/-- What the logging thread has taken, written or not. -/
def collected (s : AsyncLogging τ) : List (LogRecord τ) :=
  match s.logger with
  | .unlocking | .writing => s.written ++ recordsOf s.buffersToWrite
  | _ => s.written

/-- What is in `buffers_` and in `currentBuffer_`. -/
def shared (s : AsyncLogging τ) : List (LogRecord τ) :=
  recordsOf s.buffers ++ recordsOf s.currentBuffer.toList

theorem collected_notify (s : AsyncLogging τ) : s.notify.collected = s.collected := by
  unfold notify
  by_cases hwaits : s.logger = .waiting
  · rw [if_pos hwaits]
    unfold collected
    rw [hwaits]
    rfl
  · rw [if_neg hwaits]

/-- A record that is appended is the last of the shared ones. -/
theorem appendLocked_flow (h : s.Recycled) {r : LogRecord τ} (hshort : r.2.length < kLargeBuffer)
    (happend : s.appendLocked r = .ok s') :
    s'.shared = s.shared ++ [r] ∧ s'.collected = s.collected := by
  obtain ⟨current, hcurrent⟩ := h.current
  simp only [appendLocked, hcurrent] at happend
  have hshared : s.shared = recordsOf s.buffers ++ current.records := by
    rw [shared, hcurrent, Option.toList_some, recordsOf_singleton]
  by_cases hroom : r.2.length < current.avail
  · rw [if_pos hroom] at happend
    cases happend
    refine ⟨?_, rfl⟩
    show recordsOf s.buffers ++ recordsOf [current.append r] = _
    rw [recordsOf_singleton, LogBuffer.records_append hroom, hshared, List.append_assoc]
  · rw [if_neg hroom] at happend
    have hfull : ∀ {b : LogBuffer τ}, b.records = [] →
        recordsOf (s.buffers ++ [current]) ++ recordsOf [b.append r] = s.shared ++ [r] := by
      intro b hempty
      rw [recordsOf_append, recordsOf_singleton, recordsOf_singleton,
        LogBuffer.records_append_empty hempty hshort, hshared]
    cases hnext : s.nextBuffer with
    | some next =>
        simp only [hnext] at happend
        cases happend
        exact ⟨hfull (h.empty next hnext), collected_notify _⟩
    | none =>
        simp only [hnext] at happend
        cases happend
        exact ⟨hfull rfl, collected_notify _⟩

/-! ### The logging thread -/

/-- The logging thread keeps what it has and stays in front of the exchange, or takes all there
is. -/
def Collects (s s' : AsyncLogging τ) : Prop :=
  s'.collected ++ s'.shared = s.collected ++ s.shared ∧
    (s'.collected = s.collected ∧ (s.logger.beforeSwap = true → s'.logger.beforeSwap = true) ∨
      s'.collected = s.collected ++ s.shared)

/-- What the logging thread leaves alone. -/
structure Frame (s s' : AsyncLogging τ) : Prop where
  phase : s'.phase = s.phase
  stopped : s'.stopped = s.stopped
  appended : s'.appended = s.appended
  returned : s'.returned = s.returned
  due : s'.due = s.due

theorem swap_flow (h : s.Recycled) (hphase : s.logger = .swapping) (hswap : s.swap = .ok s') :
    Collects s { s' with logger := .unlocking } ∧ Frame s s' ∧ s'.holder = s.holder := by
  obtain ⟨current, hcurrent⟩ := h.current
  have hready := h.slots
  rw [hphase] at hready
  obtain ⟨⟨b₁, hb₁, hempty₁⟩, -, hwrite⟩ := hready
  have hnone : recordsOf s.newBuffer1.toList = [] := by
    rw [hb₁, Option.toList_some, recordsOf_singleton, hempty₁]
  have hall : s.written ++ recordsOf (s.buffers ++ [current]) = s.collected ++ s.shared := by
    rw [recordsOf_append, collected, hphase, shared, hcurrent]
    rfl
  have hrest : recordsOf s.buffersToWrite ++ recordsOf s.newBuffer1.toList = [] := by
    rw [hwrite, hnone]
    rfl
  have hcollects : ∀ {x : AsyncLogging τ},
      x.collected = s.written ++ recordsOf (s.buffers ++ [current]) →
      x.shared = recordsOf s.buffersToWrite ++ recordsOf s.newBuffer1.toList → Collects s x := by
    intro x hx hx'
    rw [Collects, hx, hx', hrest, hall, List.append_nil]
    exact ⟨rfl, Or.inr rfl⟩
  simp only [swap, hcurrent] at hswap
  cases hnext : s.nextBuffer with
  | some next =>
      simp only [hnext] at hswap
      cases hswap
      exact ⟨hcollects rfl rfl, ⟨rfl, rfl, rfl, rfl, rfl⟩, rfl⟩
  | none =>
      simp only [hnext] at hswap
      cases hswap
      exact ⟨hcollects rfl rfl, ⟨rfl, rfl, rfl, rfl, rfl⟩, rfl⟩

theorem filterMap_records (bs : List (LogBuffer τ)) :
    (bs.flatMap fun b => b.records.map LogLine.record).filterMap LogLine.record? = recordsOf bs := by
  rw [List.filterMap_flatMap]
  refine congrArg (fun f => bs.flatMap f) (funext fun b => ?_)
  rw [List.filterMap_map]
  exact List.filterMap_some

theorem write_flow (h : s.Recycled) (hphase : s.logger = .writing)
    (hsmall : s.buffersToWrite.length ≤ 25) (hwrite : s.write = .ok s') :
    Collects s { s' with logger := .refilling } ∧ Frame s s' ∧ s'.holder = s.holder := by
  have hswapped := h.slots
  rw [hphase] at hswapped
  simp only [write, assertThat_of (Swapped.ne_nil hswapped), bind, Except.bind,
    if_neg (Nat.not_lt.mpr hsmall)] at hwrite
  cases hwrite
  refine ⟨?_, ⟨rfl, rfl, rfl, rfl, rfl⟩, rfl⟩
  have hcollected : (s.output
      ++ s.buffersToWrite.flatMap fun b => b.records.map LogLine.record).filterMap LogLine.record?
      = s.collected := by
    rw [List.filterMap_append, filterMap_records, collected, hphase]
    rfl
  refine ⟨congrArg (fun l => l ++ s.shared) hcollected, Or.inl ⟨hcollected, ?_⟩⟩
  rw [hphase]
  exact fun hfalse => absurd hfalse Bool.false_ne_true

theorem refill_flow (hphase : s.logger = .refilling) (hrefill : s.refill = .ok s') :
    Collects s { s' with logger := .testing } ∧ Frame s s' ∧ s'.holder = s.holder := by
  have hcollected : s.written = s.collected := by
    rw [collected, hphase]
  unfold refill at hrefill
  obtain ⟨x, -, hrefill⟩ := bind_ok hrefill
  obtain ⟨y, -, hrefill⟩ := bind_ok hrefill
  cases hrefill
  refine ⟨⟨congrArg (fun l => l ++ s.shared) hcollected, Or.inl ⟨hcollected, ?_⟩⟩,
    ⟨rfl, rfl, rfl, rfl, rfl⟩, rfl⟩
  rw [hphase]
  exact nofun

/-- A step of the logging thread to another place, with the mutex or without it. -/
theorem goes_flow {p : LogPhase} (holder : Option (Option τ))
    (hcollected : { s with logger := p }.collected = s.collected)
    (hbefore : s.logger.beforeSwap = true → p.beforeSwap = true) :
    Collects s { s with holder := holder, logger := p } ∧
      Frame s { s with holder := holder, logger := p } :=
  ⟨⟨congrArg (fun l => l ++ s.shared) hcollected, Or.inl ⟨hcollected, hbefore⟩⟩,
    ⟨rfl, rfl, rfl, rfl, rfl⟩⟩

/-- The mutex is with the thread that says so. -/
structure Locked (s : AsyncLogging τ) : Prop where
  guarded : Guarded AppendPhase.holds s.holder.join s.phase
  logger : s.logger.holds = true ↔ s.holder = some none

/-- The mutex passes from the logging thread, or to it. -/
theorem Locked.pass (h : s.Locked) {p : LogPhase} {holder : Option (Option τ)}
    (hjoin : holder.join = s.holder.join) (hp : p.holds = true ↔ holder = some none) :
    Locked { s with holder := holder, logger := p } := by
  refine ⟨?_, hp⟩
  show Guarded AppendPhase.holds holder.join s.phase
  rw [hjoin]
  exact h.guarded

/-- A stretch of the logging thread's work that leaves the mutex where it is. -/
theorem Locked.works (h : s.Locked) (hframe : Frame s s') (hholder : s'.holder = s.holder)
    {p : LogPhase} (hp : p.holds = s.logger.holds) :
    Frame s { s' with logger := p } ∧ Locked { s' with logger := p } := by
  refine ⟨⟨hframe.phase, hframe.stopped, hframe.appended, hframe.returned, hframe.due⟩, ?_, ?_⟩
  · show Guarded _ s'.holder.join s'.phase
    rw [hholder, hframe.phase]
    exact h.guarded
  · show p.holds = true ↔ s'.holder = some none
    rw [hholder, hp]
    exact h.logger

/-- One step of the logging thread. -/
theorem log_flow (h : s.Recycled) (hlocked : s.Locked) (hsmall : s.buffersToWrite.length ≤ 25)
    (hlog : s.log = .ok s') : Collects s s' ∧ Frame s s' ∧ Locked s' := by
  have hmine : s.logger.holds = true → s.holder = some none := hlocked.logger.mp
  have hstay : Collects s s ∧ Frame s s ∧ Locked s :=
    ⟨⟨rfl, Or.inl ⟨rfl, id⟩⟩, ⟨rfl, rfl, rfl, rfl, rfl⟩, hlocked⟩
  cases hphase : s.logger with
  | starting =>
      simp only [log, hphase] at hlog
      obtain ⟨-, -, hlog⟩ := bind_ok hlog
      cases hlog
      have hcollected : s.written = s.collected := by rw [collected, hphase]
      refine ⟨⟨congrArg (fun l => l ++ s.shared) hcollected, Or.inl ⟨hcollected, ?_⟩⟩,
        ⟨rfl, rfl, rfl, rfl, rfl⟩, hlocked.guarded, ?_⟩
      · rw [hphase]
        exact fun hfalse => absurd hfalse Bool.false_ne_true
      · refine ⟨fun hfalse => absurd hfalse Bool.false_ne_true, fun hholder => ?_⟩
        rw [← hlocked.logger, hphase] at hholder
        cases hholder
  | testing =>
      have hcollected : s.written = s.collected := by rw [collected, hphase]
      have hother : s.holder ≠ some none := by
        intro hholder
        have hholds := hlocked.logger.mpr hholder
        rw [hphase] at hholds
        cases hholds
      simp only [log, hphase] at hlog
      by_cases hrun : s.running = true
      · rw [if_pos hrun] at hlog
        obtain ⟨-, -, hlog⟩ := bind_ok hlog
        cases hlog
        have hgoes := goes_flow (p := .locking) s.holder hcollected (fun _ => rfl)
        exact ⟨hgoes.1, hgoes.2, hlocked.pass rfl (by simp [LogPhase.holds, hother])⟩
      · rw [if_neg hrun] at hlog
        cases hlog
        have hgoes := goes_flow (p := .left) s.holder hcollected (by simp [hphase, LogPhase.beforeSwap])
        exact ⟨hgoes.1, hgoes.2, hlocked.pass rfl (by simp [LogPhase.holds, hother])⟩
  | locking =>
      have hcollected : s.written = s.collected := by rw [collected, hphase]
      simp only [log, hphase] at hlog
      cases hholder : s.holder with
      | none =>
          simp only [hholder] at hlog
          cases hlog
          have hgoes := goes_flow (p := .locked) (some none) hcollected (fun _ => rfl)
          exact ⟨hgoes.1, hgoes.2, hlocked.pass (by rw [hholder]; rfl) ⟨fun _ => rfl, fun _ => rfl⟩⟩
      | some t =>
          simp only [hholder] at hlog
          cases hlog
          exact hstay
  | locked =>
      have hcollected : s.written = s.collected := by rw [collected, hphase]
      have hholder := hmine (by rw [hphase]; rfl)
      simp only [log, hphase] at hlog
      by_cases hempty : s.buffers = []
      · rw [if_pos hempty] at hlog
        cases hlog
        have hgoes := goes_flow (p := .waiting) none hcollected (fun _ => rfl)
        exact ⟨hgoes.1, hgoes.2, hlocked.pass (by rw [hholder]; rfl) (by simp [LogPhase.holds])⟩
      · rw [if_neg hempty] at hlog
        cases hlog
        have hgoes := goes_flow (p := .swapping) s.holder hcollected (fun _ => rfl)
        exact ⟨hgoes.1, hgoes.2, hlocked.pass rfl ⟨fun _ => hholder, fun _ => rfl⟩⟩
  | waiting =>
      simp only [log, hphase] at hlog
      cases hlog
      exact hstay
  | woken =>
      have hcollected : s.written = s.collected := by rw [collected, hphase]
      simp only [log, hphase] at hlog
      cases hholder : s.holder with
      | none =>
          simp only [hholder] at hlog
          cases hlog
          have hgoes := goes_flow (p := .swapping) (some none) hcollected (fun _ => rfl)
          exact ⟨hgoes.1, hgoes.2, hlocked.pass (by rw [hholder]; rfl) ⟨fun _ => rfl, fun _ => rfl⟩⟩
      | some t =>
          simp only [hholder] at hlog
          cases hlog
          exact hstay
  | swapping =>
      simp only [log, hphase] at hlog
      obtain ⟨x, hswap, rfl⟩ := map_ok hlog
      obtain ⟨hcollects, hframe, hholder⟩ := swap_flow h hphase hswap
      exact ⟨hcollects, hlocked.works hframe hholder (by rw [hphase]; rfl)⟩
  | unlocking =>
      have hcollected : s.written ++ recordsOf s.buffersToWrite = s.collected := by
        rw [collected, hphase]
      have hholder := hmine (by rw [hphase]; rfl)
      simp only [log, hphase] at hlog
      cases hlog
      have hgoes := goes_flow (p := .writing) none hcollected (by simp [hphase, LogPhase.beforeSwap])
      exact ⟨hgoes.1, hgoes.2, hlocked.pass (by rw [hholder]; rfl) (by simp [LogPhase.holds])⟩
  | writing =>
      simp only [log, hphase] at hlog
      obtain ⟨x, hwrite, rfl⟩ := map_ok hlog
      obtain ⟨hcollects, hframe, hholder⟩ := write_flow h hphase hsmall hwrite
      exact ⟨hcollects, hlocked.works hframe hholder (by rw [hphase]; rfl)⟩
  | refilling =>
      simp only [log, hphase] at hlog
      obtain ⟨x, hrefill, rfl⟩ := map_ok hlog
      obtain ⟨hcollects, hframe, hholder⟩ := refill_flow hphase hrefill
      exact ⟨hcollects, hlocked.works hframe hholder (by rw [hphase]; rfl)⟩
  | left =>
      simp only [log, hphase] at hlog
      cases hlog
      exact hstay

/-! ### The threads that append -/

/-- The record that has been appended by a call that has not returned. -/
def unreturned (s : AsyncLogging τ) : List (LogRecord τ) :=
  match s.holder.join with
  | none => []
  | some t =>
      match s.phase t with
      | .leaving logline => [(t, logline)]
      | _ => []

theorem unreturned_of_leaving {t : τ} {logline : Bytes} (hholder : s.holder.join = some t)
    (hphase : s.phase t = .leaving logline) : s.unreturned = [(t, logline)] := by
  rw [unreturned, hholder]
  show (match s.phase t with
    | .leaving l => [(t, l)]
    | _ => []) = _
  rw [hphase]

theorem unreturned_of_locked {t : τ} {logline : Bytes} (hholder : s.holder.join = some t)
    (hphase : s.phase t = .locked logline) : s.unreturned = [] := by
  rw [unreturned, hholder]
  show (match s.phase t with
    | .leaving l => [(t, l)]
    | _ => []) = _
  rw [hphase]

/-- What every step preserves, as long as the records are short and the rounds small. -/
structure Flow (s : AsyncLogging τ) : Prop where
  recycled : s.Recycled
  locked : s.Locked
  short : ∀ t logline, s.phase t = .calling logline ∨ s.phase t = .locked logline →
    logline.length < kLargeBuffer
  flow : s.appended = s.collected ++ s.shared
  returned : s.appended = s.returned ++ s.unreturned
  due : s.stopped ≠ .uncalled → s.due <+: s.appended
  kept : s.stopped ≠ .uncalled → s.logger.beforeSwap = true ∨ s.due <+: s.collected
  joined : s.stopped = .joined → s.logger = .left

theorem flow_start : (start : AsyncLogging τ).Flow where
  recycled := recycled_start
  locked := ⟨fun _ => ⟨nofun, nofun⟩, nofun, nofun⟩
  short := by
    rintro t logline (h | h) <;> cases h
  flow := rfl
  returned := rfl
  due := fun h => absurd rfl h
  kept := fun h => absurd rfl h
  joined := nofun

/-- A step of the logging thread. -/
theorem Flow.log (h : s.Flow) (hrecycled : s'.Recycled) (hcollects : Collects s s')
    (hframe : Frame s s') (hlocked : Locked s') (hjoin : s'.holder.join = s.holder.join)
    (hleft : s.logger = .left → s'.logger = .left) : s'.Flow where
  recycled := hrecycled
  locked := hlocked
  short := by
    rw [hframe.phase]
    exact h.short
  flow := by rw [hframe.appended, h.flow, hcollects.1]
  returned := by
    rw [hframe.appended, hframe.returned, unreturned, hjoin, hframe.phase]
    exact h.returned
  due := by
    rw [hframe.stopped, hframe.due, hframe.appended]
    exact h.due
  kept := by
    rw [hframe.stopped, hframe.due]
    intro hstopped
    rcases hcollects.2 with ⟨hsame, hbefore⟩ | hall
    · rw [hsame]
      exact (h.kept hstopped).imp hbefore id
    · rw [hall, ← h.flow]
      exact Or.inr (h.due hstopped)
  joined := by
    rw [hframe.stopped]
    exact fun hjoined => hleft (h.joined hjoined)

/-- The logging thread is notified, or wakes. -/
theorem Flow.notify (h : s.Flow) : s.notify.Flow := by
  unfold AsyncLogging.notify
  by_cases hwaits : s.logger = .waiting
  · have hrecycled := h.recycled.notify
    unfold AsyncLogging.notify at hrecycled
    rw [if_pos hwaits] at hrecycled ⊢
    have hcollected : s.written = s.collected := by rw [collected, hwaits]
    have hgoes := goes_flow (p := .woken) s.holder hcollected (fun _ => rfl)
    have hother : s.holder ≠ some none := by
      intro hholder
      have hholds := h.locked.logger.mpr hholder
      rw [hwaits] at hholds
      cases hholds
    refine h.log hrecycled hgoes.1 hgoes.2 ?_ rfl ?_
    · exact h.locked.pass rfl ⟨nofun, fun h => absurd h hother⟩
    · intro hleft
      rw [hwaits] at hleft
      cases hleft
  · rw [if_neg hwaits]
    exact h

/-- What `append` leaves alone, but for the notification. -/
theorem appendLocked_frame {r : LogRecord τ} (happend : s.appendLocked r = .ok s') :
    Frame s s' ∧ s'.holder = s.holder ∧
      (s'.logger = s.logger ∨ s.logger = .waiting ∧ s'.logger = .woken) := by
  have hnotify : ∀ x : AsyncLogging τ, x.notify.logger = x.logger ∨
      x.logger = .waiting ∧ x.notify.logger = .woken := by
    intro x
    unfold AsyncLogging.notify
    by_cases hwaits : x.logger = .waiting
    · exact Or.inr ⟨hwaits, if_pos hwaits⟩
    · exact Or.inl (if_neg hwaits)
  unfold appendLocked at happend
  cases hcurrent : s.currentBuffer with
  | none =>
      simp only [hcurrent] at happend
      cases happend
  | some current =>
      simp only [hcurrent] at happend
      split_ifs at happend
      · cases happend
        exact ⟨⟨rfl, rfl, rfl, rfl, rfl⟩, rfl, Or.inl rfl⟩
      · cases hnext : s.nextBuffer with
        | some next =>
            simp only [hnext] at happend
            cases happend
            exact ⟨⟨rfl, rfl, rfl, rfl, rfl⟩, rfl, hnotify _⟩
        | none =>
            simp only [hnext] at happend
            cases happend
            exact ⟨⟨rfl, rfl, rfl, rfl, rfl⟩, rfl, hnotify _⟩

/-- `stop` goes on. -/
theorem Flow.called (h : s.Flow) (hcalled : s.stopped ≠ .uncalled) (stopped : LogStop)
    (hjoined : stopped = .joined → s.logger = .left) : Flow { s with stopped := stopped } := by
  have hr := h.recycled
  exact ⟨⟨hr.current, hr.spare, hr.empty, hr.slots, hr.distinct, hr.starts⟩,
    ⟨h.locked.guarded, h.locked.logger⟩, h.short, h.flow, h.returned, fun _ => h.due hcalled,
    fun _ => h.kept hcalled, hjoined⟩

/-- `stop` is called: what has returned by now is due. -/
theorem Flow.reset (h : s.Flow) (hstarted : s.logger ≠ .starting)
    (hkept : s.logger.beforeSwap = true ∨ s.returned <+: s.collected) :
    Flow { s with running := false, stopped := .notifying, due := s.returned } := by
  have hr := h.recycled
  refine ⟨⟨hr.current, hr.spare, hr.empty, hr.slots, hr.distinct, fun heq => absurd heq hstarted⟩,
    ⟨h.locked.guarded, h.locked.logger⟩, h.short, h.flow, h.returned, fun _ => ?_, fun _ => hkept,
    nofun⟩
  show s.returned <+: s.appended
  rw [h.returned]
  exact List.prefix_append _ _

/-- Where `stop` has returned, everything that is due has been written. -/
theorem Flow.done (h : s.Flow) (hjoined : s.stopped = .joined) :
    s.due <+: s.written ∧ s.written <+: s.appended := by
  have hleft := h.joined hjoined
  have hcollected : s.collected = s.written := by
    rw [collected, hleft]
  have hcalled : s.stopped ≠ .uncalled := by
    rw [hjoined]
    exact nofun
  constructor
  · rcases h.kept hcalled with hbefore | hkept
    · rw [hleft] at hbefore
      cases hbefore
    · rwa [hcollected] at hkept
  · rw [h.flow, hcollected]
    exact List.prefix_append _ _

variable [DecidableEq τ]

/-- The other threads' records are as short as before. -/
theorem Flow.short_update (h : s.Flow) (t : τ) {p : AppendPhase}
    (hp : ∀ l, p = .calling l ∨ p = .locked l → l.length < kLargeBuffer) :
    ∀ u l, Function.update s.phase t p u = .calling l ∨ Function.update s.phase t p u = .locked l →
      l.length < kLargeBuffer := by
  intro u l hu
  by_cases hut : u = t
  · subst hut
    rw [Function.update_self] at hu
    exact hp l hu
  · rw [Function.update_of_ne hut] at hu
    exact h.short u l hu

theorem Flow.call (h : s.Flow) {t : τ} {logline : Bytes} (hphase : s.phase t = .outside)
    (hshort : logline.length < kLargeBuffer) : (s.enter t (.calling logline)).Flow where
  recycled := h.recycled.congr _ _ _ _
  locked := ⟨h.locked.guarded.update (by rw [hphase]; rfl), h.locked.logger⟩
  short := by
    refine h.short_update t ?_
    rintro l (heq | heq)
    · rw [← AppendPhase.calling.inj heq]
      exact hshort
    · cases heq
  flow := h.flow
  returned := by
    refine h.returned.trans (congrArg (fun l => s.returned ++ l) ?_)
    unfold unreturned
    show _ = match s.holder.join with
      | none => []
      | some u => _
    cases hjoin : s.holder.join with
    | none => rfl
    | some u =>
        have hut : u ≠ t := by
          rintro rfl
          have hholds := (h.locked.guarded u).mpr hjoin
          rw [hphase] at hholds
          cases hholds
        show _ = match Function.update s.phase t (.calling logline) u with
          | .leaving l => [(u, l)]
          | _ => []
        rw [Function.update_of_ne hut]
  due := h.due
  kept := h.kept
  joined := h.joined

theorem Flow.lock (h : s.Flow) {t : τ} {logline : Bytes} (hphase : s.phase t = .calling logline)
    (hfree : s.holder = none) :
    { s.enter t (.locked logline) with holder := some (some t) }.Flow where
  recycled := h.recycled.congr _ _ _ _
  locked := by
    have hguarded := h.locked.guarded
    rw [hfree] at hguarded
    refine ⟨hguarded.lock rfl, ?_⟩
    show s.logger.holds = true ↔ some (some t) = some none
    rw [h.locked.logger, hfree]
    exact ⟨nofun, nofun⟩
  short := by
    refine h.short_update t ?_
    rintro l (heq | heq)
    · cases heq
    · rw [← AppendPhase.locked.inj heq]
      exact h.short t logline (Or.inl hphase)
  flow := h.flow
  returned := by
    have hnone : s.unreturned = [] := by
      rw [unreturned, hfree]
      rfl
    rw [unreturned_of_locked rfl (Function.update_self ..)]
    exact hnone ▸ h.returned
  due := h.due
  kept := h.kept
  joined := h.joined

theorem Flow.append (h : s.Flow) {t : τ} {logline : Bytes} (hphase : s.phase t = .locked logline)
    {x : AsyncLogging τ} (hrecycled : x.Recycled) (happend : s.appendLocked (t, logline) = .ok x) :
    { x.enter t (.leaving logline) with appended := x.appended ++ [(t, logline)] }.Flow := by
  obtain ⟨hframe, hholder, hlogger⟩ := appendLocked_frame happend
  obtain ⟨hshared, hcollected⟩ := appendLocked_flow h.recycled (h.short t logline (Or.inr hphase))
    happend
  have hjoin : s.holder.join = some t := (h.locked.guarded t).mp (by rw [hphase]; rfl)
  have hall : s.appended = s.returned := by
    have hreturned := h.returned
    rw [unreturned_of_locked hjoin hphase, List.append_nil] at hreturned
    exact hreturned
  refine ⟨hrecycled.congr _ _ _ _, ⟨?_, ?_⟩, ?_, ?_, ?_, ?_, ?_, ?_⟩
  · show Guarded _ x.holder.join (Function.update x.phase t _)
    rw [hholder, hframe.phase]
    exact h.locked.guarded.update (by rw [hphase]; rfl)
  · show x.logger.holds = true ↔ x.holder = some none
    rw [hholder, ← h.locked.logger]
    rcases hlogger with heq | ⟨hwaiting, hwoken⟩
    · rw [heq]
    · rw [hwaiting, hwoken]
      exact Iff.rfl
  · show ∀ u l, Function.update x.phase t _ u = _ ∨ Function.update x.phase t _ u = _ → _
    rw [hframe.phase]
    exact h.short_update t nofun
  · show x.appended ++ [(t, logline)] = x.collected ++ x.shared
    rw [hframe.appended, h.flow, hshared, hcollected, List.append_assoc]
  · have hjoin' : x.holder.join = some t := by rw [hholder, hjoin]
    have hlast : { x.enter t (.leaving logline) with
        appended := x.appended ++ [(t, logline)] }.unreturned = [(t, logline)] :=
      unreturned_of_leaving hjoin' (Function.update_self ..)
    rw [hlast]
    show x.appended ++ [(t, logline)] = x.returned ++ [(t, logline)]
    rw [hframe.appended, hframe.returned, hall]
  · show x.stopped ≠ .uncalled → x.due <+: x.appended ++ [(t, logline)]
    rw [hframe.stopped, hframe.due, hframe.appended]
    exact fun hstopped => (h.due hstopped).trans (List.prefix_append _ _)
  · show x.stopped ≠ .uncalled → x.logger.beforeSwap = true ∨ x.due <+: x.collected
    rw [hframe.stopped, hframe.due, hcollected]
    intro hstopped
    refine (h.kept hstopped).imp ?_ id
    rcases hlogger with heq | ⟨-, hwoken⟩
    · rw [heq]
      exact id
    · rw [hwoken]
      exact fun _ => rfl
  · show x.stopped = .joined → x.logger = .left
    rw [hframe.stopped]
    intro hjoined
    have hleft := h.joined hjoined
    rcases hlogger with heq | ⟨hwaiting, -⟩
    · rw [heq, hleft]
    · rw [hleft] at hwaiting
      cases hwaiting

theorem Flow.unlock (h : s.Flow) {t : τ} {logline : Bytes} (hphase : s.phase t = .leaving logline) :
    { s.enter t .outside with holder := none, returned := s.returned ++ [(t, logline)] }.Flow := by
  have hjoin : s.holder.join = some t := (h.locked.guarded t).mp (by rw [hphase]; rfl)
  refine ⟨h.recycled.congr _ _ _ _, ⟨?_, ?_⟩, ?_, h.flow, ?_, h.due, h.kept, h.joined⟩
  · exact h.locked.guarded.unlock (by rw [hphase]; rfl) rfl
  · show s.logger.holds = true ↔ none = some none
    refine ⟨fun hholds => ?_, nofun⟩
    have hholder := h.locked.logger.mp hholds
    rw [hholder] at hjoin
    cases hjoin
  · exact h.short_update t nofun
  · have hreturned := h.returned
    rw [unreturned_of_leaving hjoin hphase] at hreturned
    exact hreturned.trans (List.append_nil _).symm

/-! ### Runs -/

/-- When `stop` is called, the logging thread is going to exchange the buffers, or has already
taken what has returned. -/
def Timely (s : AsyncLogging τ) : Prop :=
  s.logger.beforeSwap = true ∨ s.returned <+: s.collected

instance : Decidable (Timely s) := instDecidableOr

/-- Records are shorter than a buffer, and rounds are small. -/
def Moderate (a : LogAction τ) (s : AsyncLogging τ) : Prop :=
  s.buffersToWrite.length ≤ 25 ∧
    match a with
    | .call _ logline => logline.length < kLargeBuffer
    | _ => True

instance decidableModerate (s : AsyncLogging τ) : (a : LogAction τ) → Decidable (Moderate a s)
  | .call _ _ => instDecidableAnd
  | .append _ | .log | .wake | .stop => instDecidableAnd

/-- `stop` is called in time. -/
def InTime (a : LogAction τ) (s : AsyncLogging τ) : Prop :=
  match a with
  | .stop => s.stopped = .uncalled → s.logger ≠ .starting → s.Timely
  | _ => True

instance decidableInTime (s : AsyncLogging τ) : (a : LogAction τ) → Decidable (InTime a s)
  | .stop => inferInstanceAs (Decidable (s.stopped = .uncalled → s.logger ≠ .starting → s.Timely))
  | .call _ _ | .append _ | .log | .wake => instDecidableTrue

theorem Flow.stop (h : s.Flow) (htime : InTime .stop s) (hstep : step .stop s = .ok s') :
    s'.Flow := by
  simp only [AsyncLogging.step] at hstep
  cases hstopped : s.stopped with
  | uncalled =>
      rw [hstopped] at hstep
      by_cases hstarting : s.logger = .starting
      · rw [if_pos hstarting] at hstep
        cases hstep
        exact h
      · rw [if_neg hstarting] at hstep
        cases hstep
        exact h.reset hstarting (htime hstopped hstarting)
  | notifying =>
      rw [hstopped] at hstep
      cases hstep
      have hcalled : s.stopped ≠ .uncalled := by
        simp [hstopped]
      exact h.notify.called hcalled .joining (by simp)
  | joining =>
      rw [hstopped] at hstep
      by_cases hleft : s.logger = .left
      · rw [if_pos hleft] at hstep
        cases hstep
        exact h.called (by simp [hstopped]) .joined fun _ => hleft
      · rw [if_neg hleft] at hstep
        cases hstep
        exact h
  | joined =>
      rw [hstopped] at hstep
      cases hstep
      exact h

theorem Flow.step (h : s.Flow) {a : LogAction τ} (hmoderate : Moderate a s) (htime : InTime a s)
    (hstep : step a s = .ok s') : s'.Flow := by
  cases a with
  | call t logline =>
      simp only [AsyncLogging.step] at hstep
      cases hphase : s.phase t with
      | outside =>
          rw [hphase] at hstep
          cases hstep
          exact h.call hphase hmoderate.2
      | _ =>
          rw [hphase] at hstep
          cases hstep
          exact h
  | append t =>
      simp only [AsyncLogging.step] at hstep
      cases hphase : s.phase t with
      | outside =>
          rw [hphase] at hstep
          cases hstep
          exact h
      | calling logline =>
          rw [hphase] at hstep
          cases hholder : s.holder with
          | none =>
              rw [hholder] at hstep
              cases hstep
              exact h.lock hphase hholder
          | some u =>
              rw [hholder] at hstep
              cases hstep
              exact h
      | locked logline =>
          rw [hphase] at hstep
          obtain ⟨x, happend, rfl⟩ := map_ok hstep
          obtain ⟨y, happend', hrecycled⟩ := appendLocked_recycled h.recycled (t, logline)
          obtain rfl : x = y := Except.ok.inj (happend.symm.trans happend')
          exact h.append hphase hrecycled happend
      | leaving logline =>
          rw [hphase] at hstep
          cases hstep
          exact h.unlock hphase
  | log =>
      obtain ⟨y, hlog, hrecycled⟩ := log_recycled h.recycled
      obtain rfl : s' = y := Except.ok.inj (Eq.trans (Eq.symm hstep) hlog)
      obtain ⟨hcollects, hframe, hlocked⟩ := log_flow h.recycled h.locked hmoderate.1 hlog
      refine h.log hrecycled hcollects hframe hlocked ?_ ?_
      · refine Option.ext fun t => (hlocked.guarded t).symm.trans ?_
        rw [hframe.phase]
        exact h.locked.guarded t
      · intro hleft
        have hlog' := hlog
        simp only [AsyncLogging.log, hleft] at hlog'
        cases hlog'
        exact hleft
  | wake =>
      cases hstep
      exact h.notify
  | stop => exact h.stop htime hstep

/-- **Main result.** If `stop` is called while the logging thread is between the condition of its
loop and the exchange of the buffers, or when it has taken all that has returned, then where
`stop` has returned everything that was due has been written, once and in the order of the
mutex. -/
theorem stop_loses_nothing (as : List (LogAction τ))
    (h : Along step (fun a s => Moderate a s ∧ InTime a s) as (start : AsyncLogging τ))
    (hrun : run step as start = .ok s) (hjoined : s.stopped = .joined) :
    s.due <+: s.written ∧ s.written <+: s.appended := by
  have hstep : ∀ (a : LogAction τ) s s', s.Flow → Moderate a s ∧ InTime a s →
      step a s = .ok s' → s'.Flow := fun a s s' hs hmay hstep => hs.step hmay.1 hmay.2 hstep
  exact (run_inv_along hstep flow_start h hrun).done hjoined

/-- A thread logs a record while the logging thread waits, and `stop` is called. -/
def stopInWait : List (LogAction Nat) :=
  [.log, .log, .log, .log, .call 0 [104], .append 0, .append 0, .append 0, .stop, .stop,
    .log, .log, .log, .log, .log, .log, .stop]

theorem stop_loses_nothing_inWait : ∃ s : AsyncLogging Nat, run step stopInWait start = .ok s ∧
    s.due = [(0, [104])] ∧ s.due <+: s.written :=
  ⟨_, rfl, rfl, (stop_loses_nothing stopInWait (by decide +kernel) rfl rfl).1⟩

/-- A thread logs a record before the logging thread tests `running_` for the first time, and
`stop` is called. -/
def stopBeforeTest : List (LogAction Nat) :=
  [.log, .call 0 [104], .append 0, .append 0, .append 0, .stop, .log, .stop, .stop]

/-- Without the condition records are lost. -/
theorem stop_loses_tail : ¬∀ (as : List (LogAction Nat)) (s : AsyncLogging Nat),
    Along step Moderate as start → run step as start = .ok s → s.stopped = .joined →
      s.due <+: s.written ∧ s.written <+: s.appended := by
  intro h
  have hprefix := (h stopBeforeTest _ (by decide +kernel) rfl rfl).1
  have hdue : [(0, [104])] <+: ([] : List (LogRecord Nat)) := hprefix
  exact absurd hdue (by decide)

end AsyncLogging

end Base
