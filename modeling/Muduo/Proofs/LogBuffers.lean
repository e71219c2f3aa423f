/-
The buffers of `AsyncLogging`.

Each buffer has one owner.  The logging thread begins a round with two empty buffers, gives
one of them to `currentBuffer_`, and the other one to `nextBuffer_` if it has none, and what
it gets for them is at least as many: `currentBuffer_` itself, and, if `nextBuffer_` was gone,
the buffer in whose place it had come.  That one has never left `buffers_` before: this is
what the field `spare` says.
-/
import Muduo.Base.AsyncLogging
import Muduo.Lib.Runs

namespace Base

open Lib
open Net (Fault assertThat assertThat_of)

namespace LogBuffer

variable {τ : Type}

@[simp] theorem id_append (b : LogBuffer τ) (r : LogRecord τ) : (b.append r).id = b.id := by
  unfold append
  split_ifs <;> rfl

@[simp] theorem id_reset (b : LogBuffer τ) : b.reset.id = b.id := rfl

@[simp] theorem records_reset (b : LogBuffer τ) : b.reset.records = [] := rfl

end LogBuffer

namespace AsyncLogging

variable {τ : Type} {s s' : AsyncLogging τ}

/-! ### Owners -/

/-- The numbers of all buffers, each as often as it has an owner. -/
def owned (s : AsyncLogging τ) : List Nat :=
  (s.currentBuffer.toList ++ s.nextBuffer.toList ++ s.buffers ++ s.newBuffer1.toList ++
    s.newBuffer2.toList ++ s.buffersToWrite).map LogBuffer.id

/-- How often a buffer is among these. -/
def times (i : Nat) (bs : List (LogBuffer τ)) : Nat := (bs.map LogBuffer.id).count i

theorem times_append (i : Nat) (bs cs : List (LogBuffer τ)) :
    times i (bs ++ cs) = times i bs + times i cs := by
  rw [times, List.map_append, List.count_append]
  rfl

theorem times_nil (i : Nat) : times i ([] : List (LogBuffer τ)) = 0 := rfl

theorem times_take_le (i n : Nat) (bs : List (LogBuffer τ)) : times i (bs.take n) ≤ times i bs :=
  ((List.take_sublist n bs).map _).count_le i

theorem times_singleton_congr (i : Nat) {b c : LogBuffer τ} (h : b.id = c.id) :
    times i [b] = times i [c] := by
  rw [times, times, List.map_singleton, List.map_singleton, h]

theorem count_owned (i : Nat) (s : AsyncLogging τ) : s.owned.count i
    = times i s.currentBuffer.toList + times i s.nextBuffer.toList + times i s.buffers +
      times i s.newBuffer1.toList + times i s.newBuffer2.toList + times i s.buffersToWrite := by
  simp only [owned, List.map_append, List.count_append, times]

/-- No buffer has two owners, and the next new buffer has none. -/
structure Distinct (owned : List Nat) (fresh : Nat) : Prop where
  nodup : owned.Nodup
  lt : ∀ i ∈ owned, i < fresh

/-- A step gives no buffer a second owner, and makes the `k` next new ones at most. -/
theorem Distinct.of_count {owned owned' : List Nat} {fresh : Nat} (h : Distinct owned fresh)
    (k : Nat)
    (hcount : ∀ i, owned'.count i ≤ owned.count i + (List.range' fresh k).count i) :
    Distinct owned' (fresh + k) := by
  have hnew : ∀ i, 0 < (List.range' fresh k).count i → fresh ≤ i ∧ i < fresh + k := by
    intro i hi
    rw [List.count_pos_iff, List.mem_range'_1] at hi
    exact hi
  have hone : ∀ i, (List.range' fresh k).count i ≤ 1 :=
    List.nodup_iff_count_le_one.mp List.nodup_range'
  have hold : ∀ i, 0 < owned.count i → i < fresh :=
    fun i hi => h.lt i (List.count_pos_iff.mp hi)
  refine ⟨List.nodup_iff_count_le_one.mpr fun i => ?_, fun i hi => ?_⟩
  · have hle := hcount i
    have hle' := List.nodup_iff_count_le_one.mp h.nodup i
    have hone' := hone i
    have hold' := hold i
    have hnew' := hnew i
    omega
  · rw [← List.count_pos_iff] at hi
    have hle := hcount i
    have hold' := hold i
    have hnew' := hnew i
    omega

/-- A step that makes no buffer. -/
theorem Distinct.of_count_le {owned owned' : List Nat} {fresh : Nat} (h : Distinct owned fresh)
    (hcount : ∀ i, owned'.count i ≤ owned.count i) : Distinct owned' fresh :=
  h.of_count 0 hcount

/-! ### Rounds -/

/-- What the logging thread has at the head of its loop. -/
def Ready (s : AsyncLogging τ) : Prop :=
  (∃ b, s.newBuffer1 = some b ∧ b.records = []) ∧ (∃ b, s.newBuffer2 = some b ∧ b.records = []) ∧
    s.buffersToWrite = []

/-- What it has behind the exchange: it needs one buffer, or two, and there are as many. -/
def Swapped (s : AsyncLogging τ) : Prop :=
  s.newBuffer1 = none ∧
    (s.newBuffer2 = none ∧ 2 ≤ s.buffersToWrite.length ∨
      (∃ b, s.newBuffer2 = some b ∧ b.records = []) ∧ 1 ≤ s.buffersToWrite.length)

def Slots (s : AsyncLogging τ) : LogPhase → Prop
  | .starting => s.newBuffer1 = none ∧ s.newBuffer2 = none ∧ s.buffersToWrite = []
  | .unlocking | .writing | .refilling => s.Swapped
  | _ => s.Ready

/-- What every step preserves. -/
structure Recycled (s : AsyncLogging τ) : Prop where
  current : ∃ b, s.currentBuffer = some b
  spare : s.nextBuffer = none → s.buffers ≠ []
  empty : ∀ b, s.nextBuffer = some b → b.records = []
  slots : s.Slots s.logger
  distinct : Distinct s.owned s.fresh
  starts : s.logger = .starting → s.running = true

theorem recycled_start : (start : AsyncLogging τ).Recycled where
  current := ⟨_, rfl⟩
  spare := nofun
  empty := by
    rintro b ⟨⟩
    rfl
  slots := ⟨rfl, rfl, rfl⟩
  distinct := ⟨show [0, 1].Nodup by decide, show ∀ i ∈ [0, 1], i < 2 by decide⟩
  starts := fun _ => rfl

/-- The logging thread goes on to another place, with what it has. -/
theorem Recycled.goes (h : s.Recycled) (p : LogPhase) (holder : Option (Option τ))
    (hslots : s.Slots p) (hp : p ≠ .starting) :
    { s with holder := holder, logger := p }.Recycled :=
  ⟨h.current, h.spare, h.empty, hslots, h.distinct, fun heq => absurd heq hp⟩

/-- A notification moves the logging thread, if anything. -/
theorem Recycled.notify (h : s.Recycled) : s.notify.Recycled := by
  unfold AsyncLogging.notify
  by_cases hwaits : s.logger = .waiting
  · rw [if_pos hwaits]
    refine ⟨h.current, h.spare, h.empty, ?_, h.distinct, nofun⟩
    have hslots := h.slots
    rw [hwaits] at hslots
    exact hslots
  · rw [if_neg hwaits]
    exact h

/-! ### Appending -/

theorem appendLocked_recycled (h : s.Recycled) (r : LogRecord τ) :
    ∃ s', s.appendLocked r = .ok s' ∧ s'.Recycled := by
  obtain ⟨current, hcurrent⟩ := h.current
  simp only [appendLocked, hcurrent]
  by_cases hroom : r.2.length < current.avail
  · rw [if_pos hroom]
    refine ⟨_, rfl, ⟨_, rfl⟩, h.spare, h.empty, h.slots, ?_, h.starts⟩
    refine h.distinct.of_count_le fun i => ?_
    rw [count_owned, count_owned, hcurrent]
    simp only [Option.toList_some]
    rw [times_singleton_congr i (current.id_append r)]
  · rw [if_neg hroom]
    cases hnext : s.nextBuffer with
    | some next =>
        refine ⟨_, rfl, Recycled.notify ⟨⟨_, rfl⟩, ?_, nofun, h.slots, ?_, h.starts⟩⟩
        · exact fun _ => List.append_ne_nil_of_right_ne_nil _ (List.cons_ne_nil _ _)
        · refine h.distinct.of_count_le fun i => ?_
          rw [count_owned, count_owned, hcurrent, hnext]
          simp only [Option.toList_some, Option.toList_none, times_append, times_nil]
          rw [times_singleton_congr i (next.id_append r)]
          omega
    | none =>
        refine ⟨_, rfl, Recycled.notify ⟨⟨_, rfl⟩, ?_, ?_, h.slots, ?_, h.starts⟩⟩
        · exact fun _ => List.append_ne_nil_of_right_ne_nil _ (List.cons_ne_nil _ _)
        · exact nofun
        · refine h.distinct.of_count 1 fun i => ?_
          rw [count_owned, count_owned, hcurrent, hnext]
          simp only [Option.toList_some, Option.toList_none, times_append, times_nil]
          have hnew : times i [(LogBuffer.mk s.fresh []).append r]
              = (List.range' s.fresh 1).count i := by
            rw [times, List.map_singleton, LogBuffer.id_append]
            rfl
          rw [hnew]
          omega

/-! ### The logging thread -/

theorem swap_recycled (h : s.Recycled) (hphase : s.logger = .swapping) :
    ∃ s', s.swap = .ok s' ∧ { s' with logger := .unlocking }.Recycled := by
  obtain ⟨current, hcurrent⟩ := h.current
  have hready := h.slots
  rw [hphase] at hready
  obtain ⟨⟨b₁, hb₁, hempty₁⟩, ⟨b₂, hb₂, hempty₂⟩, hwrite⟩ := hready
  simp only [swap, hcurrent]
  cases hnext : s.nextBuffer with
  | some next =>
      refine ⟨_, rfl, ⟨b₁, hb₁⟩, nofun, fun b hb => h.empty b (hnext.trans hb), ?_, ?_, nofun⟩
      · refine ⟨rfl, Or.inr ⟨⟨b₂, hb₂, hempty₂⟩, ?_⟩⟩
        show 1 ≤ (s.buffers ++ [current]).length
        rw [List.length_append]
        exact Nat.le_add_left 1 _
      · refine h.distinct.of_count_le fun i => ?_
        rw [count_owned, count_owned, hcurrent, hnext]
        simp only [Option.toList_some, Option.toList_none, times_append, times_nil]
        omega
  | none =>
      refine ⟨_, rfl, ⟨b₁, hb₁⟩, ?_, ?_, ?_, ?_, nofun⟩
      · exact fun hnone => absurd (hb₂.symm.trans hnone) nofun
      · intro b hb
        obtain rfl : b₂ = b := Option.some.inj (hb₂.symm.trans hb)
        exact hempty₂
      · refine ⟨rfl, Or.inl ⟨rfl, ?_⟩⟩
        have hpos := List.length_pos_iff.mpr (h.spare hnext)
        show 2 ≤ (s.buffers ++ [current]).length
        rw [List.length_append, List.length_singleton]
        omega
      · refine h.distinct.of_count_le fun i => ?_
        rw [count_owned, count_owned, hcurrent, hnext]
        simp only [Option.toList_some, Option.toList_none, times_append, times_nil]
        omega

theorem Swapped.ne_nil (h : s.Swapped) : s.buffersToWrite ≠ [] := by
  intro hnil
  have hcount := h.2
  rw [hnil, List.length_nil] at hcount
  omega

/-- With two buffers at most, as many are left as are needed. -/
theorem Swapped.take (h : s.Swapped) (output : List (LogLine τ)) (p : LogPhase) :
    { s with buffersToWrite := s.buffersToWrite.take 2, output := output, logger := p }.Swapped := by
  refine ⟨h.1, ?_⟩
  show s.newBuffer2 = none ∧ 2 ≤ (s.buffersToWrite.take 2).length ∨
    (∃ b, s.newBuffer2 = some b ∧ b.records = []) ∧ 1 ≤ (s.buffersToWrite.take 2).length
  rw [List.length_take]
  refine h.2.imp ?_ ?_
  · exact fun h => ⟨h.1, le_min le_rfl h.2⟩
  · exact fun h => ⟨h.1, le_min (by omega) h.2⟩

theorem write_recycled (h : s.Recycled) (hphase : s.logger = .writing) :
    ∃ s', s.write = .ok s' ∧ { s' with logger := .refilling }.Recycled := by
  have hswapped := h.slots
  rw [hphase] at hswapped
  simp only [write, assertThat_of hswapped.ne_nil, bind, Except.bind]
  by_cases hover : 25 < s.buffersToWrite.length
  · rw [if_pos hover]
    refine ⟨_, rfl, h.current, h.spare, h.empty, hswapped.take _ _, ?_, nofun⟩
    refine h.distinct.of_count_le fun i => ?_
    rw [count_owned, count_owned]
    have htake := times_take_le i 2 s.buffersToWrite
    show times i s.currentBuffer.toList + times i s.nextBuffer.toList + times i s.buffers +
      times i s.newBuffer1.toList + times i s.newBuffer2.toList +
      times i (s.buffersToWrite.take 2) ≤ _
    omega
  · rw [if_neg hover]
    exact ⟨_, rfl, h.current, h.spare, h.empty, hswapped, h.distinct, nofun⟩

/-- A buffer that is needed is the last of those that are there. -/
theorem refilled_spec (o : Option (LogBuffer τ)) {bs : List (LogBuffer τ)}
    (hne : o = none → bs ≠ [])
    (hempty : ∀ b, o = some b → b.records = []) :
    ∃ b cs, refilled o bs = .ok (some b, cs) ∧ b.records = [] ∧
      (o = none → cs.length + 1 = bs.length) ∧ (o ≠ none → cs = bs) ∧
      ∀ i, times i [b] + times i cs = times i o.toList + times i bs := by
  cases o with
  | some b => exact ⟨b, bs, rfl, hempty b rfl, nofun, fun _ => rfl, fun i => rfl⟩
  | none =>
      rcases List.eq_nil_or_concat bs with rfl | ⟨cs, b, rfl⟩
      · exact absurd rfl (hne rfl)
      · refine ⟨b.reset, cs, ?_, rfl, ?_, fun h => absurd rfl h, ?_⟩
        · rw [refilled, popBack, List.concat_eq_append, List.getLast?_concat, List.dropLast_concat]
        · exact fun _ => (List.length_concat ..).symm
        · intro i
          rw [List.concat_eq_append, times_append, times_singleton_congr i b.id_reset,
            Option.toList_none, times_nil]
          omega

theorem refill_recycled (h : s.Recycled) (hphase : s.logger = .refilling) :
    ∃ s', s.refill = .ok s' ∧ { s' with logger := .testing }.Recycled := by
  have hswapped := h.slots
  rw [hphase] at hswapped
  have hkeep : (if 2 < s.buffersToWrite.length then s.buffersToWrite.take 2 else s.buffersToWrite)
      = s.buffersToWrite.take 2 := by
    split_ifs with hlen
    · rfl
    · rw [List.take_of_length_le (Nat.le_of_not_lt hlen)]
  have htaken : Swapped _ := Swapped.take hswapped s.output s.logger
  have hne : s.buffersToWrite.take 2 ≠ [] := htaken.ne_nil
  obtain ⟨hnone, hcount⟩ := htaken
  obtain ⟨b₁, cs, hfirst, hempty₁, hlen, -, htimes⟩ := refilled_spec s.newBuffer1 (fun _ => hne)
    (fun b hb => absurd (hnone.symm.trans hb) nofun)
  have hne₂ : s.newBuffer2 = none → cs ≠ [] := by
    intro hnone₂ hnil
    have hlen₁ := hlen hnone
    rw [hnil, List.length_nil] at hlen₁
    rcases hcount with ⟨-, hle⟩ | ⟨⟨b, hb, -⟩, -⟩
    · change 2 ≤ (s.buffersToWrite.take 2).length at hle
      omega
    · exact absurd (hnone₂.symm.trans hb) nofun
  have hnew₂ : ∀ b, s.newBuffer2 = some b → b.records = [] := by
    intro b hb
    rcases hcount with ⟨hnone₂, -⟩ | ⟨⟨c, hc, hempty⟩, -⟩
    · exact absurd (hnone₂.symm.trans hb) nofun
    · rw [← Option.some.inj (hc.symm.trans hb)]
      exact hempty
  obtain ⟨b₂, ds, hsecond, hempty₂, -, -, htimes'⟩ := refilled_spec s.newBuffer2 hne₂ hnew₂
  simp only [refill, hkeep, hfirst, hsecond, bind, Except.bind]
  refine ⟨_, rfl, h.current, h.spare, h.empty,
    ⟨⟨b₁, rfl, hempty₁⟩, ⟨b₂, rfl, hempty₂⟩, rfl⟩, ?_, nofun⟩
  refine h.distinct.of_count_le fun i => ?_
  rw [count_owned, count_owned]
  have htake := times_take_le i 2 s.buffersToWrite
  have h₁ := htimes i
  have h₂ := htimes' i
  show times i s.currentBuffer.toList + times i s.nextBuffer.toList + times i s.buffers +
    times i [b₁] + times i [b₂] + 0 ≤ _
  omega

/-- The assertions at the head of the loop hold. -/
theorem Ready.head (h : s.Ready) : s.head = .ok () := by
  obtain ⟨⟨b₁, hb₁, hempty₁⟩, ⟨b₂, hb₂, hempty₂⟩, hwrite⟩ := h
  have hlength : ∀ {b : LogBuffer τ}, b.records = [] → b.length = 0 := by
    intro b hempty
    rw [LogBuffer.length, hempty]
    rfl
  have h₁ : (s.newBuffer1.any fun b => b.length == 0) = true := by
    rw [hb₁, Option.any_some, hlength hempty₁]
    rfl
  have h₂ : (s.newBuffer2.any fun b => b.length == 0) = true := by
    rw [hb₂, Option.any_some, hlength hempty₂]
    rfl
  rw [AsyncLogging.head, assertThat_of h₁, assertThat_of h₂, assertThat_of hwrite]
  rfl

theorem log_recycled (h : s.Recycled) : ∃ s', s.log = .ok s' ∧ s'.Recycled := by
  have hslots := h.slots
  cases hphase : s.logger with
  | starting =>
      rw [hphase] at hslots
      obtain ⟨hnone₁, hnone₂, hwrite⟩ := hslots
      simp only [log, hphase, assertThat_of (h.starts hphase), bind, Except.bind]
      refine ⟨_, rfl, h.current, h.spare, h.empty, ⟨⟨_, rfl, rfl⟩, ⟨_, rfl, rfl⟩, hwrite⟩, ?_, nofun⟩
      refine h.distinct.of_count 2 fun i => ?_
      rw [count_owned, count_owned, hnone₁, hnone₂]
      have hnew : times i [LogBuffer.mk (τ := τ) s.fresh []] +
          times i [LogBuffer.mk (τ := τ) (s.fresh + 1) []] = (List.range' s.fresh 2).count i := by
        rw [← times_append]
        rfl
      rw [← hnew, Option.toList_none, times_nil]
      show times i s.currentBuffer.toList + times i s.nextBuffer.toList + times i s.buffers +
        times i [LogBuffer.mk s.fresh []] + times i [LogBuffer.mk (s.fresh + 1) []] +
        times i s.buffersToWrite ≤ _
      omega
  | testing =>
      rw [hphase] at hslots
      simp only [log, hphase]
      by_cases hrun : s.running = true
      · rw [if_pos hrun, Ready.head hslots]
        exact ⟨_, rfl, h.goes .locking s.holder hslots nofun⟩
      · rw [if_neg hrun]
        exact ⟨_, rfl, h.goes .left s.holder hslots nofun⟩
  | locking =>
      rw [hphase] at hslots
      simp only [log, hphase]
      cases s.holder with
      | none => exact ⟨_, rfl, h.goes .locked (some none) hslots nofun⟩
      | some t => exact ⟨s, rfl, h⟩
  | locked =>
      rw [hphase] at hslots
      simp only [log, hphase]
      by_cases hempty : s.buffers = []
      · rw [if_pos hempty]
        exact ⟨_, rfl, h.goes .waiting none hslots nofun⟩
      · rw [if_neg hempty]
        exact ⟨_, rfl, h.goes .swapping s.holder hslots nofun⟩
  | waiting => exact ⟨s, by simp only [log, hphase], h⟩
  | woken =>
      rw [hphase] at hslots
      simp only [log, hphase]
      cases s.holder with
      | none => exact ⟨_, rfl, h.goes .swapping (some none) hslots nofun⟩
      | some t => exact ⟨s, rfl, h⟩
  | swapping =>
      obtain ⟨s', hswap, hs'⟩ := swap_recycled h hphase
      exact ⟨_, by simp only [log, hphase, hswap, Except.map], hs'⟩
  | unlocking =>
      rw [hphase] at hslots
      simp only [log, hphase]
      exact ⟨_, rfl, h.goes .writing none hslots nofun⟩
  | writing =>
      obtain ⟨s', hwrite, hs'⟩ := write_recycled h hphase
      exact ⟨_, by simp only [log, hphase, hwrite, Except.map], hs'⟩
  | refilling =>
      obtain ⟨s', hrefill, hs'⟩ := refill_recycled h hphase
      exact ⟨_, by simp only [log, hphase, hrefill, Except.map], hs'⟩
  | left => exact ⟨s, by simp only [log, hphase], h⟩

/-! ### Every state -/

variable [DecidableEq τ]

omit [DecidableEq τ] in
/-- What the recycling does not look at. -/
theorem Recycled.congr (h : s.Recycled) (holder : Option (Option τ)) (phase : τ → AppendPhase)
    (appended returned : List (LogRecord τ)) :
    { s with
      holder := holder
      phase := phase
      appended := appended
      returned := returned }.Recycled :=
  ⟨h.current, h.spare, h.empty, h.slots, h.distinct, h.starts⟩

theorem Recycled.step (h : s.Recycled) (a : LogAction τ) :
    ∃ s', step a s = .ok s' ∧ s'.Recycled := by
  cases a with
  | call t logline =>
      simp only [AsyncLogging.step]
      cases s.phase t with
      | outside => exact ⟨_, rfl, h.congr _ _ _ _⟩
      | _ => exact ⟨s, rfl, h⟩
  | append t =>
      simp only [AsyncLogging.step]
      cases s.phase t with
      | outside => exact ⟨s, rfl, h⟩
      | calling logline =>
          cases s.holder with
          | none => exact ⟨_, rfl, h.congr _ _ _ _⟩
          | some u => exact ⟨s, rfl, h⟩
      | locked logline =>
          obtain ⟨s', happend, hs'⟩ := appendLocked_recycled h (t, logline)
          simp only [happend]
          exact ⟨_, rfl, hs'.congr _ _ _ _⟩
      | leaving logline => exact ⟨_, rfl, h.congr _ _ _ _⟩
  | log => exact log_recycled h
  | wake => exact ⟨s.notify, rfl, h.notify⟩
  | stop =>
      simp only [AsyncLogging.step]
      cases s.stopped with
      | uncalled =>
          by_cases hstarting : s.logger = .starting
          · exact ⟨s, if_pos hstarting, h⟩
          · refine ⟨_, if_neg hstarting, h.current, h.spare, h.empty, h.slots, h.distinct, ?_⟩
            exact fun heq => absurd heq hstarting
      | notifying =>
          have hnotify := h.notify
          exact ⟨_, rfl, hnotify.current, hnotify.spare, hnotify.empty, hnotify.slots,
            hnotify.distinct, hnotify.starts⟩
      | joining =>
          by_cases hleft : s.logger = .left
          · exact ⟨_, if_pos hleft, h.current, h.spare, h.empty, h.slots, h.distinct, h.starts⟩
          · exact ⟨s, if_neg hleft, h⟩
      | joined => exact ⟨s, rfl, h⟩

/-- **Main result.** Whatever the threads do, no assertion fails, no null pointer is used or put
into a vector, and nothing is popped from an empty one.  At the head of a round the logging
thread has two empty buffers, `currentBuffer_` is there, and no buffer has two owners. -/
theorem buffers_recycled (as : List (LogAction τ)) :
    ∃ s : AsyncLogging τ, run step as start = .ok s ∧ (s.logger = .testing → s.Ready) ∧
      (∃ b, s.currentBuffer = some b) ∧ s.owned.Nodup := by
  have hstep : ∀ (a : LogAction τ) s, s.Recycled → True → ∃ s', step a s = .ok s' ∧ s'.Recycled :=
    fun a s hs _ => hs.step a
  obtain ⟨s, hrun, hs⟩ := run_ok hstep recycled_start (along_true as _)
  refine ⟨s, hrun, ?_, hs.current, hs.distinct.nodup⟩
  intro htesting
  have hslots := hs.slots
  rw [htesting] at hslots
  exact hslots

end AsyncLogging

end Base
