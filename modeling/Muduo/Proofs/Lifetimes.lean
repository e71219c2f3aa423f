/-
A functor with a raw pointer finds its connection alive.

What keeps it alive is the server until its `connectDestroyed` has been taken, then the
batch with it, and then nobody but the caller.  So the functors in danger are those that
are queued when `connectDestroyed` has been taken, and they are safe as long as a caller
keeps its pointer.
-/
import Muduo.Net.ConnectionPtr

namespace Net

open Lib

namespace ConnectionPtr

/-- A functor with a raw pointer waits, and only user code owns the connection until it is run. -/
def Exposed (s : ConnectionPtr) : Prop :=
  s.inConnections = false ∧ s.removing = 0 ∧ s.pendingFunctors.countP PtrFunctor.owns = 0 ∧
    ((∃ f ∈ s.pendingFunctors, f.owns = false) ∨
      ((∃ f ∈ s.todo, f.owns = false) ∧ s.batch.countP PtrFunctor.owns = 0))

/-- User code does not let go of the last pointer while a functor with a raw one depends on it. -/
def Keeps (a : PtrAction) (s : ConnectionPtr) : Prop :=
  match a with
  | .release => s.Exposed → 1 < s.users + s.calls.length
  | _ => True

/-- The invariant. -/
structure Owned (s : ConnectionPtr) : Prop where
  alive : s.alive = true ↔ 0 < s.owners
  /-- A connection is taken out of `connections_` once. -/
  leaves : (if s.listening then 1 else 0) + s.removing + (if s.inConnections then 0 else 1) = 1
  /-- And `connectDestroyed` is run once then. -/
  destroyed : s.pendingFunctors.count .connectDestroyed + s.todo.count .connectDestroyed
    + (if s.polled then 0 else 1) = if s.inConnections then 0 else 1
  todo : ∀ f ∈ s.todo, f ∈ s.batch
  kept : s.Exposed → 0 < s.users + s.calls.length

theorem owned_init : Owned init where
  alive := ⟨fun _ => Nat.zero_lt_one, fun _ => rfl⟩
  leaves := rfl
  destroyed := rfl
  todo := fun _ h => absurd h List.not_mem_nil
  kept := fun h => absurd h.1 nofun

namespace Owned

variable {s : ConnectionPtr} {sameLoop : Bool}

theorem notMem_of_countP {l : List PtrFunctor} (h : l.countP PtrFunctor.owns = 0) :
    .connectDestroyed ∉ l :=
  fun hm => List.countP_eq_zero.mp h _ hm rfl

/-- The channel of a connection without owners is not registered. -/
theorem settle (hleaves : (if s.listening then 1 else 0) + s.removing
      + (if s.inConnections then 0 else 1) = 1)
    (hdestroyed : s.pendingFunctors.count .connectDestroyed + s.todo.count .connectDestroyed
      + (if s.polled then 0 else 1) = if s.inConnections then 0 else 1)
    (htodo : ∀ f ∈ s.todo, f ∈ s.batch) (hkept : s.Exposed → 0 < s.users + s.calls.length)
    (halive : 0 < s.owners → s.alive = true) :
    ∃ s', s.settle = .ok s' ∧ Owned s' := by
  unfold ConnectionPtr.settle
  by_cases hend : s.alive = true ∧ s.owners = 0
  · have howners := hend.2
    unfold owners at howners
    have hin : s.inConnections = false := by
      by_contra hin
      rw [(Bool.not_eq_false _).mp hin, if_pos rfl] at howners
      omega
    have hpending : s.pendingFunctors.count .connectDestroyed = 0 :=
      List.count_eq_zero.mpr (notMem_of_countP (by omega))
    have hrest : s.todo.count .connectDestroyed = 0 := by
      refine List.count_eq_zero.mpr fun hm => ?_
      exact notMem_of_countP (by omega) (htodo _ hm)
    have hpolled : s.polled = false := by
      by_contra hp
      rw [hpending, hrest, hin, (Bool.not_eq_false _).mp hp] at hdestroyed
      cases hdestroyed
    rw [if_pos hend, assertThat_of hpolled]
    refine ⟨{ s with alive := false }, rfl, ?_, hleaves, hdestroyed, htodo, hkept⟩
    show false = true ↔ 0 < s.owners
    rw [hend.2]
    exact ⟨nofun, fun h => absurd h (Nat.lt_irrefl 0)⟩
  · rw [if_neg hend]
    refine ⟨s, rfl, ⟨fun ha => ?_, halive⟩, hleaves, hdestroyed, htodo, hkept⟩
    exact Nat.pos_of_ne_zero fun hzero => hend ⟨ha, hzero⟩

/-- `removeConnectionInLoop`, when it is its turn. -/
theorem removeConnectionInLoop {removing : Nat} {state : StateE} {listening : Bool} (h : Owned s)
    (hin : s.inConnections = true)
    (hleaves : (if listening then 1 else 0) + removing = 0) :
    ∃ s', { s with removing := removing, state := state, listening := listening }.removeConnectionInLoop
      = .ok s' ∧ Owned s' := by
  have howners : 0 < s.owners := by
    unfold owners
    rw [hin, if_pos rfl]
    omega
  have hold := h.destroyed
  rw [hin, if_pos rfl] at hold
  unfold ConnectionPtr.removeConnectionInLoop
  simp only [hin, assertThat_of]
  refine ⟨_, rfl, ⟨fun _ => ?_, fun _ => h.alive.mpr howners⟩, ?_, ?_, h.todo, ?_⟩
  · unfold owners
    show 0 < 0 + s.users + s.calls.length + removing + (s.pendingFunctors ++ [_]).countP _ + _ + _
    rw [List.countP_append]
    show 0 < 0 + s.users + s.calls.length + removing + (_ + 1) + _ + _
    omega
  · show (if listening then 1 else 0) + removing + 1 = 1
    omega
  · simp only [List.count_append, List.count_singleton_self, Bool.false_eq_true, reduceIte]
    omega
  · intro hexp
    have hnone : (s.pendingFunctors ++ [PtrFunctor.connectDestroyed]).countP PtrFunctor.owns = 0 :=
      hexp.2.2.1
    rw [List.countP_append] at hnone
    have hnone : _ + 1 = 0 := hnone
    omega

/-- While a functor waits the connection is alive. -/
theorem alive_of_waiting (h : Owned s) {f : PtrFunctor}
    (hf : f ∈ s.pendingFunctors ∨ f ∈ s.todo) : s.alive = true := by
  by_contra ha
  have hzero : ¬0 < s.owners := fun hown => ha (h.alive.mpr hown)
  unfold owners at hzero
  have hin : s.inConnections = false := by
    by_contra hin
    rw [(Bool.not_eq_false _).mp hin, if_pos rfl] at hzero
    omega
  have hpending : s.pendingFunctors.countP PtrFunctor.owns = 0 := by omega
  have hbatch : s.batch.countP PtrFunctor.owns = 0 := by omega
  have hraw : ∀ {l : List PtrFunctor}, f ∈ l → l.countP PtrFunctor.owns = 0 → f.owns = false :=
    fun hm hl => Bool.eq_false_iff.mpr (List.countP_eq_zero.mp hl f hm)
  have hexposed : s.Exposed := by
    refine ⟨hin, by omega, hpending, hf.imp (fun hm => ?_) fun hm => ?_⟩
    · exact ⟨f, hm, hraw hm hpending⟩
    · exact ⟨⟨f, hm, hraw (h.todo f hm) hbatch⟩, hbatch⟩
  have hkept := h.kept hexposed
  omega

/-- While the poller has the channel the connection is alive. -/
theorem alive_of_polled (h : Owned s) (hp : s.polled = true) : s.alive = true := by
  have hold := h.destroyed
  rw [hp, if_pos rfl] at hold
  by_cases hin : s.inConnections = true
  · refine h.alive.mpr ?_
    unfold owners
    rw [hin, if_pos rfl]
    omega
  · rw [if_neg hin] at hold
    by_cases hpending : PtrFunctor.connectDestroyed ∈ s.pendingFunctors
    · exact h.alive_of_waiting (Or.inl hpending)
    · rw [List.count_eq_zero.mpr hpending] at hold
      refine h.alive_of_waiting (Or.inr (List.count_pos_iff.mp (?_ : 0 < s.todo.count .connectDestroyed)))
      omega

theorem acquire (h : Owned s) :
    ∃ s', step sameLoop .acquire s = .ok s' ∧ Owned s' := by
  simp only [step]
  by_cases ha : s.alive = true
  · refine ⟨_, if_pos ha, ⟨fun _ => ?_, fun _ => ha⟩, h.leaves, h.destroyed, h.todo, fun _ => ?_⟩
    · simp only [owners]
      omega
    · show 0 < s.users + 1 + s.calls.length
      omega
  · exact ⟨s, if_neg ha, h⟩

theorem release (h : Owned s) (hkeeps : Keeps .release s) :
    ∃ s', step sameLoop .release s = .ok s' ∧ Owned s' := by
  simp only [step]
  by_cases hpos : 0 < s.users
  · rw [if_pos hpos]
    refine settle h.leaves h.destroyed h.todo (fun hexp => ?_) fun hown => h.alive.mpr ?_
    · have hmore : 1 < s.users + s.calls.length := hkeeps hexp
      show 0 < s.users - 1 + s.calls.length
      omega
    · simp only [owners] at hown ⊢
      omega
  · exact ⟨s, if_neg hpos, h⟩

theorem call (h : Owned s) (c : UserCall) :
    ∃ s', step sameLoop (.call c) s = .ok s' ∧ Owned s' := by
  have halive := h.alive
  unfold owners at halive
  simp only [step]
  by_cases hready : 0 < s.users ∧ s.state = .kConnected
  · refine ⟨_, if_pos hready, ?_, h.leaves, h.destroyed, h.todo, fun hexp => ?_⟩
    · simp only [owners, List.length_cons]
      rw [halive]
      omega
    · have hmore := h.kept hexp
      show 0 < s.users - 1 + (s.calls.length + 1)
      omega
  · exact ⟨s, if_neg hready, h⟩

/-- The pointer of the call goes back to the caller when the functor is queued. -/
theorem queue (h : Owned s) (c : UserCall) :
    ∃ s', step sameLoop (.queue c) s = .ok s' ∧ Owned s' := by
  have halive := h.alive
  unfold owners at halive
  simp only [step]
  by_cases hready : c ∈ s.calls
  · have hlen : (s.calls.erase c).length + 1 = s.calls.length := by
      have hpos := List.length_pos_of_mem hready
      rw [List.length_erase_of_mem hready]
      omega
    have hraw : c.functor.owns = false := by cases c <;> rfl
    have hne : c.functor ≠ .connectDestroyed := by cases c <;> exact nofun
    have howns : (s.pendingFunctors ++ [c.functor]).countP PtrFunctor.owns
        = s.pendingFunctors.countP PtrFunctor.owns := by
      rw [List.countP_append, List.countP_singleton, hraw]
      rfl
    refine ⟨_, if_pos hready, ?_, h.leaves, ?_, h.todo, fun _ => ?_⟩
    · simp only [owners, howns]
      rw [halive]
      omega
    · simp only [List.count_append, List.count_singleton, beq_iff_eq, if_neg hne]
      exact h.destroyed
    · show 0 < s.users + 1 + (s.calls.erase c).length
      omega
  · exact ⟨s, if_neg hready, h⟩

theorem handleClose (h : Owned s) :
    ∃ s', step sameLoop .handleClose s = .ok s' ∧ Owned s' := by
  simp only [step]
  by_cases hready : s.guard = true ∧ s.listening = true
  · rw [if_pos hready]
    obtain ⟨hguard, hlisten⟩ := hready
    have hleaves := h.leaves
    rw [hlisten, if_pos rfl] at hleaves
    have hin : s.inConnections = true := by
      by_contra hin
      rw [if_neg hin] at hleaves
      omega
    unfold ConnectionPtr.handleClose
    cases sameLoop with
    | true => exact h.removeConnectionInLoop hin (by simp only [Bool.false_eq_true, reduceIte]; omega)
    | false =>
        have howners : 0 < s.owners := by
          simp only [owners, hguard, reduceIte]
          omega
        refine ⟨_, rfl, ⟨fun _ => ?_, fun _ => h.alive.mpr howners⟩, ?_, h.destroyed, h.todo,
          fun hexp => ?_⟩
        · simp only [owners]
          omega
        · simp only [Bool.false_eq_true, reduceIte]
          omega
        · exact absurd hexp.2.1 (Nat.succ_ne_zero _)
  · exact ⟨s, if_neg hready, h⟩

theorem queueCallback (h : Owned s) :
    ∃ s', step sameLoop .queueCallback s = .ok s' ∧ Owned s' := by
  simp only [step]
  by_cases ha : s.alive = true
  · have howns : (s.pendingFunctors ++ [PtrFunctor.callback]).countP PtrFunctor.owns
        = s.pendingFunctors.countP PtrFunctor.owns + 1 := by
      rw [List.countP_append]
      rfl
    refine ⟨_, if_pos ha, ⟨fun _ => ?_, fun _ => ha⟩, h.leaves, ?_, h.todo, fun hexp => ?_⟩
    · simp only [owners, howns]
      omega
    · have hne : PtrFunctor.callback ≠ .connectDestroyed := nofun
      simp only [List.count_append, List.count_singleton, beq_iff_eq, if_neg hne]
      exact h.destroyed
    · have hnone : (s.pendingFunctors ++ [PtrFunctor.callback]).countP PtrFunctor.owns = 0 := hexp.2.2.1
      rw [howns] at hnone
      omega
  · exact ⟨s, if_neg ha, h⟩

/-- What waits in the batch has waited in the queue. -/
theorem beginBatch (h : Owned s) :
    ∃ s', step sameLoop .beginBatch s = .ok s' ∧ Owned s' := by
  have halive := h.alive
  unfold owners at halive
  simp only [step]
  by_cases hready : s.batch = [] ∧ s.guard = false
  · obtain ⟨hbatch, hguard⟩ := hready
    have htodo : s.todo = [] := by
      refine List.eq_nil_iff_forall_not_mem.mpr fun f hf => ?_
      have hmem := h.todo f hf
      rw [hbatch] at hmem
      cases hmem
    refine ⟨_, if_pos ⟨hbatch, hguard⟩, ?_, h.leaves, ?_, fun f hf => hf, fun hexp => ?_⟩
    · simp only [owners, List.countP_nil]
      rw [halive, hbatch, List.countP_nil]
      omega
    · have hold := h.destroyed
      rw [htodo] at hold
      simp only [List.count_nil] at hold ⊢
      omega
    · -- what waits in the batch has waited in the queue
      obtain ⟨hin, hrem, -, hwait⟩ := hexp
      refine h.kept ⟨hin, hrem, ?_, Or.inl ?_⟩
      · rcases hwait with ⟨f, hf, -⟩ | ⟨-, hnone⟩
        · cases hf
        · exact hnone
      · rcases hwait with ⟨f, hf, -⟩ | ⟨hraw, -⟩
        · cases hf
        · exact hraw
  · exact ⟨s, if_neg hready, h⟩

/-- A functor that is run finds the connection alive. -/
theorem runFunctor (h : Owned s) :
    ∃ s', step sameLoop .runFunctor s = .ok s' ∧ Owned s' := by
  simp only [step]
  cases htodo : s.todo with
  | nil => exact ⟨s, rfl, h⟩
  | cons f rest =>
      have hmem : f ∈ s.todo := by rw [htodo]; exact List.mem_cons_self
      have hrest : ∀ g ∈ rest, g ∈ s.batch := fun g hg =>
        h.todo g (by rw [htodo]; exact List.mem_cons_of_mem f hg)
      have hexposed : ∀ s' : ConnectionPtr, s'.todo = rest → s'.inConnections = s.inConnections →
          s'.removing = s.removing → s'.pendingFunctors = s.pendingFunctors →
          s'.batch = s.batch → s'.Exposed → s.Exposed := by
        rintro s' h₁ h₂ h₃ h₄ h₅ ⟨hin, hrem, hnone, hwait⟩
        rw [h₂] at hin
        rw [h₃] at hrem
        rw [h₄] at hnone hwait
        rw [h₁, h₅] at hwait
        refine ⟨hin, hrem, hnone, hwait.imp_right fun ⟨⟨g, hg, hraw⟩, hbatch⟩ => ?_⟩
        exact ⟨⟨g, by rw [htodo]; exact List.mem_cons_of_mem f hg, hraw⟩, hbatch⟩
      have hold := h.destroyed
      rw [htodo, List.count_cons] at hold
      have hleaves := h.leaves
      by_cases hf : f = .connectDestroyed
      · subst hf
        rw [beq_self_eq_true, if_pos rfl] at hold
        have hin : s.inConnections = false := by
          by_contra hin
          rw [(Bool.not_eq_false _).mp hin, if_pos rfl] at hold
          omega
        rw [hin] at hold hleaves
        simp only [Bool.false_eq_true, reduceIte] at hold hleaves
        have hpolled : s.polled = true := by
          by_contra hp
          rw [if_neg hp] at hold
          omega
        rw [hpolled, if_pos rfl] at hold
        refine ⟨{ s with todo := rest, listening := false, polled := false }, ?_, h.alive, ?_, ?_,
          hrest, fun hexp => h.kept (hexposed { s with todo := rest, listening := false, polled := false }
            rfl rfl rfl rfl rfl hexp)⟩
        · show (assertThat (s.polled = true) >>= _) = _
          rw [assertThat_of hpolled]
          rfl
        · simp only [hin, Bool.false_eq_true, reduceIte]
          omega
        · simp only [hin, Bool.false_eq_true, reduceIte]
          omega
      · have ha : s.alive = true := h.alive_of_waiting (Or.inr hmem)
        refine ⟨{ s with todo := rest }, ?_, h.alive, h.leaves, ?_, hrest,
          fun hexp => h.kept (hexposed { s with todo := rest } rfl rfl rfl rfl rfl hexp)⟩
        · cases f with
          | connectDestroyed => exact absurd rfl hf
          | sendInLoop => exact if_pos ha
          | shutdownInLoop => exact if_pos ha
          | callback => exact if_pos ha
        · rw [if_neg (by simpa only [beq_iff_eq] using hf)] at hold
          exact hold

/-- With the batch the functors in it are deleted. -/
theorem endBatch (h : Owned s) :
    ∃ s', step sameLoop .endBatch s = .ok s' ∧ Owned s' := by
  simp only [step]
  by_cases hend : s.todo = []
  · rw [if_pos hend]
    refine settle h.leaves h.destroyed ?_ (fun hexp => ?_) fun hown => h.alive.mpr ?_
    · intro f hf
      have hf : f ∈ s.todo := hf
      rw [hend] at hf
      cases hf
    · obtain ⟨hin, hrem, hnone, hwait⟩ := hexp
      refine h.kept ⟨hin, hrem, hnone, Or.inl ?_⟩
      rcases hwait with hwait | ⟨⟨f, hf, -⟩, -⟩
      · exact hwait
      · have hf : f ∈ s.todo := hf
        rw [hend] at hf
        cases hf
    · simp only [owners, List.countP_nil] at hown ⊢
      omega
  · exact ⟨s, if_neg hend, h⟩

/-- One step of a run in which the callers keep their pointers. -/
theorem step_ok (h : Owned s) {a : PtrAction} (hkeeps : Keeps a s) :
    ∃ s', step sameLoop a s = .ok s' ∧ Owned s' := by
  have halive := h.alive
  unfold owners at halive
  cases a with
  | acquire => exact h.acquire
  | release => exact h.release hkeeps
  | call c => exact h.call c
  | queue c => exact h.queue c
  | handleEvent =>
      simp only [step]
      by_cases hready : s.alive = true ∧ s.listening = true ∧ s.batch = []
      · refine ⟨_, if_pos hready, ⟨fun _ => ?_, fun _ => hready.1⟩, h.leaves, h.destroyed, h.todo,
          h.kept⟩
        simp only [owners, reduceIte]
        omega
      · exact ⟨s, if_neg hready, h⟩
  | handleClose => exact h.handleClose
  | endEvent =>
      simp only [step]
      refine settle h.leaves h.destroyed h.todo h.kept fun hown => h.alive.mpr ?_
      simp only [owners, Bool.false_eq_true, reduceIte] at hown ⊢
      omega
  | queueCallback => exact h.queueCallback
  | removeConnectionInLoop =>
      simp only [step]
      by_cases hpos : 0 < s.removing
      · rw [if_pos hpos]
        have hleaves := h.leaves
        have hin : s.inConnections = true := by
          by_contra hin
          rw [if_neg hin] at hleaves
          omega
        rw [hin, if_pos rfl] at hleaves
        exact h.removeConnectionInLoop hin (by omega)
      · exact ⟨s, if_neg hpos, h⟩
  | beginBatch => exact h.beginBatch
  | runFunctor => exact h.runFunctor
  | endBatch => exact h.endBatch

end Owned

/-- **Main result.** When the callers keep a pointer as long as a functor with a raw one depends on
it, no functor is run on a dead connection, the connection is alive as long as one waits, and it is
deleted when the poller does not have its channel any more. -/
theorem functors_alive (sameLoop : Bool) {as : List PtrAction}
    (h : Along (step sameLoop) Keeps as init) :
    ∃ s, run (step sameLoop) as init = .ok s ∧
      ((s.pendingFunctors ≠ [] ∨ s.todo ≠ []) → s.alive = true) ∧
      (s.polled = true → s.alive = true) := by
  obtain ⟨s, hrun, howned⟩ := run_ok (fun _ _ hs hkeeps => Owned.step_ok hs hkeeps) owned_init h
  refine ⟨s, hrun, fun hwait => ?_, howned.alive_of_polled⟩
  rcases hwait with hne | hne
  · obtain ⟨f, hf⟩ := List.exists_mem_of_ne_nil _ hne
    exact howned.alive_of_waiting (Or.inl hf)
  · obtain ⟨f, hf⟩ := List.exists_mem_of_ne_nil _ hne
    exact howned.alive_of_waiting (Or.inr hf)

/-- A caller that lets go of its pointer as soon as its message is queued, in time. -/
theorem functors_alive_sent : ∃ s, run (step true)
      [.acquire, .call .send, .queue .send, .release, .beginBatch, .runFunctor, .endBatch] init = .ok s ∧
    ((s.pendingFunctors ≠ [] ∨ s.todo ≠ []) → s.alive = true) ∧ (s.polled = true → s.alive = true) := by
  refine functors_alive true ⟨trivial, fun _ h₁ => ?_⟩
  cases h₁
  refine ⟨trivial, fun _ h₂ => ?_⟩
  cases h₂
  refine ⟨trivial, fun _ h₃ => ?_⟩
  cases h₃
  refine ⟨fun hexposed => absurd hexposed.1 nofun, fun _ h₄ => ?_⟩
  cases h₄
  refine ⟨trivial, fun _ h₅ => ?_⟩
  cases h₅
  refine ⟨trivial, fun _ h₆ => ?_⟩
  cases h₆
  exact ⟨trivial, fun _ _ => trivial⟩

/-- A thread finds the connection up; it is closed and destroyed; then the thread queues its functor
and lets go of the last pointer.  The functor is run on a dead connection. -/
theorem functor_dead : run (step true)
    [.acquire, .call .send, .handleEvent, .handleClose, .endEvent, .beginBatch, .runFunctor, .endBatch,
      .queue .send, .release, .beginBatch, .runFunctor] init = .error .useAfterFree := rfl

end ConnectionPtr

end Net
