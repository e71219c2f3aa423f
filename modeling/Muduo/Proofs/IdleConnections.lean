/-
The wheel shuts down the connections that have been idle, and no others.

A history is the list of the callbacks, with the newest in front.  The age of a connection in it
is the number of timers since it came up or since bytes arrived on it while it was young enough.
The first bucket that has the entry of a connection is as many turns behind the front as the
connection is old, and a connection that is too old for the wheel has been shut down.
-/
import Muduo.Examples.IdleConnection

namespace IdleConnection

open Lib Net EchoServer

/-! ### Histories -/

/-- The timers since `conn` was active last, of those that came in time for `idleSeconds`. -/
def age (idleSeconds : Nat) (conn : Conn) : List Action → Option Nat
  | [] => none
  | .up c :: h => if c = conn then some 0 else age idleSeconds conn h
  | .message c _ :: h =>
      if c = conn then (age idleSeconds conn h).map fun a => if a < idleSeconds then 0 else a
      else age idleSeconds conn h
  | .down _ :: h => age idleSeconds conn h
  | .timer :: h => (age idleSeconds conn h).map (· + 1)

/-- The connection has come up and has not gone down. -/
def isUp (conn : Conn) : List Action → Bool
  | [] => false
  | .up c :: h => c == conn || isUp conn h
  | .down c :: h => c != conn && isUp conn h
  | _ :: h => isUp conn h

/-! ### The wheel follows -/

theorem modify_connections (s : EchoServer) (conn : Conn) (f : Connection → Connection)
    (c : Conn) :
    (s.modify conn f).connections c = if c = conn then f (s.connections conn) else s.connections c :=
  Function.update_apply _ _ _ _

/-- Entries that go shut their connections down. -/
theorem foldl_shutdown (gone : List Conn) (s : EchoServer) :
    (gone.foldl (fun s conn => s.modify conn Connection.shutdown) s).connectionBuckets =
        s.connectionBuckets ∧
      ∀ c, (gone.foldl (fun s conn => s.modify conn Connection.shutdown) s).connections c =
        if c ∈ gone then (s.connections c).shutdown else s.connections c := by
  induction gone generalizing s with
  | nil => exact ⟨rfl, fun c => (if_neg List.not_mem_nil).symm⟩
  | cons a gone ih =>
      obtain ⟨hbuckets, hconnections⟩ := ih (s.modify a Connection.shutdown)
      refine ⟨hbuckets, fun c => ?_⟩
      have htwice : ∀ c : Connection, c.shutdown.shutdown = c.shutdown := by
        intro c
        unfold Connection.shutdown
        by_cases h : c.state = .kConnected <;> simp [h]
      rw [List.foldl_cons, hconnections, modify_connections]
      by_cases hc : c = a
      · subst hc
        rw [if_pos rfl, if_pos List.mem_cons_self, htwice, ite_self]
      · simp only [List.mem_cons, hc, false_or, if_false]

/-- The server as the history says it is. -/
structure Follows (n : Nat) (h : List Action) (s : EchoServer) : Prop where
  length : s.connectionBuckets.length = n
  latest : ∀ c, Lib.latest c s.connectionBuckets =
    (age n c h).filter fun a => decide (a < n)
  established : ∀ c, (s.connections c).established ↔ isUp c h = true
  connected : ∀ c, (s.connections c).state = .kConnected ↔
    isUp c h = true ∧ ∃ a, age n c h = some a ∧ a < n
  fresh : ∀ c, (s.connections c).state = .kConnecting → age n c h = none

theorem follows_init (n : Nat) : Follows n [] (init n) where
  length := List.length_replicate
  latest _ := latest_replicate n
  established _ := by simp [init, Connection.established, isUp]
  connected _ := by simp [init, isUp]
  fresh _ _ := rfl

namespace Follows

variable {n : Nat} {h : List Action} {s s' : EchoServer}

theorem up (hf : Follows n h s) (hn : 0 < n) (conn : Conn) :
    Follows n (.up conn :: h) (s.onConnection conn) := by
  have hconnections : ∀ c, (s.onConnection conn).connections c =
      if c = conn then { s.connections conn with state := .kConnected } else s.connections c :=
    modify_connections s conn fun c => { c with state := .kConnected }
  refine ⟨?_, fun c => ?_, fun c => ?_, fun c => ?_, fun c => ?_⟩
  · exact length_insertFirst.trans hf.length
  · rw [age]
    refine (latest_insertFirst (hf.length ▸ hn)).trans ?_
    by_cases hc : c = conn
    · simp [hc, hn, Option.filter]
    · rw [if_neg hc, if_neg (Ne.symm hc)]
      exact hf.latest c
  · rw [hconnections, isUp]
    by_cases hc : c = conn
    · simp [hc, Connection.established]
    · rw [if_neg hc, hf.established]
      simp [Ne.symm hc]
  · rw [hconnections, isUp, age]
    by_cases hc : c = conn
    · simp [hc, hn]
    · rw [if_neg hc, if_neg (Ne.symm hc), hf.connected]
      simp [Ne.symm hc]
  · rw [hconnections, age]
    by_cases hc : c = conn
    · simp [hc]
    · rw [if_neg hc, if_neg (Ne.symm hc)]
      exact hf.fresh c

theorem message (hf : Follows n h s) (hn : 0 < n) (conn : Conn) (msg : Bytes) :
    Follows n (.message conn msg :: h) (s.onMessage conn msg) := by
  have hsend : ∀ c, ((s.modify conn (·.send msg)).connections c).state =
      (s.connections c).state := by
    intro c
    rw [modify_connections]
    split
    · rename_i hc
      rw [hc]
      unfold Connection.send
      split <;> rfl
    · rfl
  have hstate : ∀ c, ((s.onMessage conn msg).connections c).state = (s.connections c).state := by
    intro c
    unfold onMessage
    dsimp only
    split <;> exact hsend c
  have hbuckets : (s.onMessage conn msg).connectionBuckets =
      if (Lib.latest conn s.connectionBuckets).isSome then insertFirst conn s.connectionBuckets
      else s.connectionBuckets := by
    unfold onMessage
    dsimp only
    split
    · rename_i hlock
      exact (if_pos hlock).symm
    · rename_i hlock
      exact (if_neg hlock).symm
  have hage : ∀ c, ((age n c (.message conn msg :: h)).isSome ↔ (age n c h).isSome) ∧
      ((∃ a, age n c (.message conn msg :: h) = some a ∧ a < n) ↔
        ∃ a, age n c h = some a ∧ a < n) := by
    intro c
    rw [age]
    split
    · cases age n c h with
      | none => simp
      | some a => by_cases ha : a < n <;> simp [ha, hn]
    · exact ⟨Iff.rfl, Iff.rfl⟩
  refine ⟨?_, fun c => ?_, fun c => ?_, fun c => ?_, fun c => ?_⟩
  · rw [hbuckets]
    split
    · exact length_insertFirst.trans hf.length
    · exact hf.length
  · have hlatest := hf.latest c
    rw [hbuckets, age]
    by_cases hc : c = conn
    · subst hc
      rw [if_pos rfl]
      cases hold : age n c h with
      | none =>
          rw [hold] at hlatest
          simp [hlatest, Option.filter]
      | some a =>
          rw [hold] at hlatest
          by_cases ha : a < n
          · have hsome : Lib.latest c s.connectionBuckets = some a := by
              simpa [Option.filter, ha] using hlatest
            rw [hsome, if_pos (Option.isSome_some), latest_insertFirst (hf.length ▸ hn), if_pos rfl]
            simp [Option.filter, ha, hn]
          · have hnone : Lib.latest c s.connectionBuckets = none := by
              simpa [Option.filter, ha] using hlatest
            simp [hnone, Option.filter, ha]
    · rw [if_neg (Ne.symm hc), ← hlatest]
      split
      · rw [latest_insertFirst (hf.length ▸ hn), if_neg hc]
      · rfl
  · rw [Connection.established, hstate]
    exact hf.established c
  · rw [hstate, (hage c).2]
    exact hf.connected c
  · rw [hstate]
    intro hc
    have hnone := hf.fresh c hc
    cases hnew : age n c (.message conn msg :: h) with
    | none => rfl
    | some a =>
        have := (hage c).1.mp (by rw [hnew]; rfl)
        rw [hnone] at this
        cases this

theorem down (hf : Follows n h s) (conn : Conn) :
    Follows n (.down conn :: h) (s.modify conn fun c => { c with state := .kDisconnected }) := by
  refine ⟨hf.length, hf.latest, fun c => ?_, fun c => ?_, fun c => ?_⟩
  · rw [modify_connections, isUp]
    by_cases hc : c = conn
    · simp [hc, Connection.established]
    · rw [if_neg hc, hf.established]
      simp [Ne.symm hc]
  · rw [modify_connections, isUp]
    by_cases hc : c = conn
    · simp [hc]
    · rw [if_neg hc, hf.connected]
      simp [Ne.symm hc, age]
  · rw [modify_connections]
    by_cases hc : c = conn
    · simp [hc]
    · rw [if_neg hc]
      exact hf.fresh c

theorem timer (hf : Follows n h s) (hn : 0 < n) : Follows n (.timer :: h) s.onTimer := by
  have hpos : 0 < s.connectionBuckets.length := hf.length ▸ hn
  obtain ⟨hbuckets, hconnections⟩ := foldl_shutdown
    ((s.connectionBuckets.getLast?.getD []).filter fun conn =>
      !holds (turn s.connectionBuckets) conn)
    { s with connectionBuckets := turn s.connectionBuckets }
  have hgone : ∀ c, c ∈ ((s.connectionBuckets.getLast?.getD []).filter fun conn =>
      !holds (turn s.connectionBuckets) conn) ↔ age n c h = some (n - 1) := by
    intro c
    have hlast := latest_last (x := c) hpos
    rw [hf.length, hf.latest] at hlast
    rw [List.mem_filter, Bool.not_eq_true', holds, Option.isSome_eq_false_iff, Option.isNone_iff_eq_none,
      hlast]
    cases age n c h with
    | none => simp
    | some a =>
        by_cases ha : a < n
        · simp [Option.filter, ha]
        · have hne : a ≠ n - 1 := by omega
          simp [Option.filter, ha, hne]
  refine ⟨?_, fun c => ?_, fun c => ?_, fun c => ?_, fun c => ?_⟩
  · exact (congrArg List.length hbuckets).trans (length_turn.trans hf.length)
  · refine (congrArg (Lib.latest c) hbuckets).trans ?_
    show Lib.latest c (turn s.connectionBuckets) = ((age n c h).map (· + 1)).filter _
    rw [latest_turn, hf.latest, hf.length]
    cases age n c h with
    | none => rfl
    | some a =>
        by_cases ha : a < n
        · simp [Option.filter, ha]
        · have hlt : ¬a + 1 < n := by omega
          simp [Option.filter, ha, hlt]
  · have hshutdown : ∀ c : Connection, c.shutdown.established ↔ c.established := by
      intro c
      unfold Connection.shutdown
      split
      · rename_i hc
        simp [Connection.established, hc]
      · rfl
    refine (congrArg Connection.established (hconnections c)).to_iff.trans ?_
    show Connection.established (if _ then (s.connections c).shutdown else s.connections c) ↔ _
    split
    · exact (hshutdown _).trans (hf.established c)
    · exact hf.established c
  · have hclosed : ∀ c : Connection, c.shutdown.state ≠ .kConnected := by
      intro c
      unfold Connection.shutdown
      split
      · simp
      · assumption
    refine (congrArg (fun d => d.state = .kConnected) (hconnections c)).to_iff.trans ?_
    show (if _ then (s.connections c).shutdown else s.connections c).state = .kConnected ↔
      isUp c h = true ∧ ∃ a, (age n c h).map (· + 1) = some a ∧ a < n
    split
    · rename_i hmem
      rw [(hgone c).mp hmem]
      refine iff_of_false (hclosed _) ?_
      rintro ⟨-, a, ha, hlt⟩
      cases ha
      have hlt : n - 1 + 1 < n := hlt
      omega
    · rename_i hmem
      rw [hf.connected]
      refine and_congr_right fun _ => ?_
      constructor
      · rintro ⟨a, ha, hlt⟩
        have hne : a ≠ n - 1 := fun heq => hmem ((hgone c).mpr (heq ▸ ha))
        exact ⟨a + 1, by rw [ha]; rfl, by omega⟩
      · rintro ⟨a, ha, hlt⟩
        obtain ⟨b, hb, rfl⟩ := Option.map_eq_some_iff.mp ha
        exact ⟨b, hb, by omega⟩
  · intro hc
    have hstate : (s.connections c).state = .kConnecting := by
      have hc' := (congrArg Connection.state (hconnections c)).symm.trans hc
      split at hc'
      · unfold Connection.shutdown at hc'
        split at hc'
        · cases hc'
        · exact hc'
      · exact hc'
    show (age n c h).map (· + 1) = none
    rw [hf.fresh c hstate]
    rfl

theorem step (hf : Follows n h s) (hn : 0 < n) {a : Action}
    (hstep : IdleConnection.step a s = .ok s') : Follows n (a :: h) s' := by
  cases a with
  | up conn =>
      rw [IdleConnection.step] at hstep
      split at hstep
      · cases hstep
        exact hf.up hn conn
      · cases hstep
  | message conn msg =>
      rw [IdleConnection.step] at hstep
      split at hstep
      · cases hstep
        exact hf.message hn conn msg
      · cases hstep
  | down conn =>
      rw [IdleConnection.step] at hstep
      split at hstep
      · cases hstep
        exact hf.down conn
      · cases hstep
  | timer =>
      cases hstep
      exact hf.timer hn

theorem run (hf : Follows n h s) (hn : 0 < n) {acts : List Action}
    (hrun : Lib.run IdleConnection.step acts s = .ok s') : Follows n (acts.reverse ++ h) s' := by
  induction acts generalizing h s with
  | nil =>
      cases hrun
      exact hf
  | cons a acts ih =>
      obtain ⟨t, ht, hrest⟩ := run_cons_ok hrun
      rw [List.reverse_cons, List.append_assoc]
      exact ih (hf.step hn ht) hrest

end Follows

/-- **Idle connections.**  In every run of a wheel of `idleSeconds` buckets, a connection that is up
has been shut down by the wheel exactly if so many timers have passed since it was active last, and
it is in the wheel exactly if fewer have. -/
theorem idle_iff {idleSeconds : Nat} (hn : 0 < idleSeconds) {acts : List Action} {s : EchoServer}
    (hrun : run step acts (init idleSeconds) = .ok s) (conn : Conn) :
    ((s.connections conn).state = .kDisconnecting ↔
        isUp conn acts.reverse = true ∧
          ¬∃ a, age idleSeconds conn acts.reverse = some a ∧ a < idleSeconds) ∧
      (holds s.connectionBuckets conn = true ↔
        ∃ a, age idleSeconds conn acts.reverse = some a ∧ a < idleSeconds) := by
  have hf := (follows_init idleSeconds).run hn hrun
  rw [List.append_nil] at hf
  constructor
  · rw [← hf.established, Connection.established]
    have hconnected := hf.connected conn
    rw [← hf.established] at hconnected
    constructor
    · intro hstate
      refine ⟨Or.inr hstate, fun hyoung => ?_⟩
      rw [hconnected.mpr ⟨Or.inr hstate, hyoung⟩] at hstate
      cases hstate
    · rintro ⟨hup, hold⟩
      exact hup.resolve_left fun hc => hold (hconnected.mp hc).2
  · rw [holds, hf.latest]
    cases age idleSeconds conn acts.reverse with
    | none => simp
    | some a => by_cases ha : a < idleSeconds <;> simp [Option.filter, ha]

/-- Two seconds: one connection is active in between, the other is not. -/
theorem idle_iff_small : ∃ s,
    run step [.up 0, .up 1, .timer, .message 0 [65], .timer] (init 2) = .ok s ∧
      (s.connections 1).state = .kDisconnecting ∧ (s.connections 0).state ≠ .kDisconnecting := by
  have hok : (run step [.up 0, .up 1, .timer, .message 0 [65], .timer] (init 2)).isOk = true := by
    decide
  cases hrun : run step [.up 0, .up 1, .timer, .message 0 [65], .timer] (init 2) with
  | error e =>
      rw [hrun] at hok
      cases hok
  | ok s =>
      refine ⟨s, rfl, (idle_iff (by decide) hrun 1).1.mpr ⟨rfl, ?_⟩, fun h => ?_⟩
      · rintro ⟨a, ha, hlt⟩
        cases ha
        exact absurd hlt (by decide)
      · exact ((idle_iff (by decide) hrun 0).1.mp h).2 ⟨1, rfl, by decide⟩

end IdleConnection
