/-
Removing channels while a batch is handled.

`runInLoop` is a call in the thread of the loop, and so `TcpClient::stop` and the destructors of
clients and servers act at once, in the middle of a batch.  A channel that they remove may be one
of the batch, before or behind the one whose turn it is, and the assertion in `removeChannel`
fails then; a connection that only its client holds is destroyed with the client, and so is its
channel, even if its turn is still to come.  Nothing else of what a callback can do removes or
destroys a channel.
-/
import Muduo.Lib.Runs
import Muduo.Net.Dispatch

namespace Net

open Lib

/-! ### Faults -/

/-- If something goes wrong, then neither of the two faults this is about. -/
def Fine {α : Type} (x : Except DispatchFault α) : Prop :=
  ∀ fault, x = .error fault → fault = .other

@[simp] theorem fine_ok {α : Type} (a : α) : Fine (.ok a) := nofun

@[simp] theorem fine_pure {α : Type} (a : α) : Fine (pure a) := nofun

@[simp] theorem fine_other {α : Type} : Fine (.error .other : Except DispatchFault α) := by
  rintro fault h
  cases h
  rfl

@[simp] theorem not_fine_removeChannel {α : Type} :
    ¬ Fine (.error .removeChannel : Except DispatchFault α) := fun h => nomatch h _ rfl

@[simp] theorem not_fine_destroyed {α : Type} :
    ¬ Fine (.error .destroyed : Except DispatchFault α) := fun h => nomatch h _ rfl

theorem fine_bind {α β : Type} {x : Except DispatchFault α} {f : α → Except DispatchFault β} :
    Fine (x >>= f) ↔ Fine x ∧ ∀ a, x = .ok a → Fine (f a) := by
  cases x with
  | error fault =>
      show Fine (.error fault) ↔ _
      constructor
      · exact fun h => ⟨fun _ he => h _ (by rw [Except.error.inj he]), nofun⟩
      · exact fun h _ he => h.1 _ (by rw [Except.error.inj he])
  | ok a =>
      show Fine (f a) ↔ _
      constructor
      · exact fun h => ⟨fine_ok a, fun b hb => Except.ok.inj hb ▸ h⟩
      · exact fun h => h.2 a rfl

/-- Only what comes first can go wrong. -/
theorem fine_bind_left {α β : Type} {x : Except DispatchFault α} {f : α → Except DispatchFault β}
    (h : ∀ a, Fine (f a)) : Fine (x >>= f) ↔ Fine x :=
  fine_bind.trans (and_iff_left fun a _ => h a)

namespace Dispatcher

variable {l l' : Dispatcher} {k v a : Nat}

/-! ### What removes and what destroys -/

theorem current_notMem_pending (p : DispatchPhase) (h : p.current = some a) : a ∉ p.pending := by
  cases p with
  | functors fs => nofun
  | events b =>
      intro hmem
      change a ∈ b.list.drop (b.it + 1) at hmem
      obtain ⟨hlt, hget⟩ := List.getElem?_eq_some_iff.mp h
      obtain ⟨j, hj, hjget⟩ := List.getElem_of_mem hmem
      rw [List.getElem_drop] at hjget
      have := (List.Nodup.getElem_inj_iff b.nodup).mp (hget.trans hjget.symm)
      omega

theorem pending_subset (p : DispatchPhase) (h : a ∉ p.active) : a ∉ p.pending := by
  cases p with
  | functors fs => nofun
  | events b => exact fun hmem => h (List.mem_of_mem_drop hmem)

theorem Removable.notMem_pending (h : l.Removable a) : a ∉ l.phase.pending :=
  h.elim (current_notMem_pending _) (pending_subset _)

/-- What waits for its turn has neither come to it nor is it for a functor. -/
theorem owned_of_pending (h : a ∈ l.phase.pending) (conn : DispatchConnection) :
    l.Owned a conn ↔
      conn.held = true ∨ 0 < conn.users ∨ .connectDestroyed a ∈ l.pendingFunctors := by
  have hcurrent : l.phase.current ≠ some a := fun hc => current_notMem_pending _ hc h
  have hbatch : l.phase.batch = [] := by
    cases hphase : l.phase with
    | functors fs =>
        rw [hphase] at h
        nomatch h
    | events b => rfl
  unfold Owned
  rw [hbatch]
  simp [hcurrent]

theorem fine_removeChannel : Fine (l.removeChannel a) ↔ l.Removable a := by
  unfold removeChannel
  by_cases h : l.Removable a
  · rw [if_neg (not_not_intro h)]
    split <;> simp [h]
  · simp [h]

theorem removeChannel_ok (h : l.removeChannel a = .ok l') :
    l' = { l with polled := Function.update l.polled a false } := by
  unfold removeChannel at h
  split at h
  · cases h
  · split at h
    · cases h
    · exact (Except.ok.inj h).symm

theorem fine_destroyChannel : Fine (l.destroyChannel a) ↔ a ∉ l.phase.pending := by
  unfold destroyChannel
  by_cases h : a ∈ l.phase.pending
  · simp [h]
  · rw [if_neg h]
    split <;> simp [h]

/-- A connection may be let go. -/
def MayLetGo (l : Dispatcher) (a : Nat) (conn : DispatchConnection) : Prop :=
  a ∈ l.phase.pending →
    conn.held = true ∨ 0 < conn.users ∨ .connectDestroyed a ∈ l.pendingFunctors

theorem fine_settle : Fine (l.settle a) ↔ ∀ conn ∈ l.connections a, l.MayLetGo a conn := by
  unfold settle
  cases hconn : l.connections a with
  | none => simp
  | some conn =>
      simp only [Option.mem_def, Option.some.injEq, forall_eq', MayLetGo]
      by_cases hmem : a ∈ l.phase.pending
      · rw [← owned_of_pending hmem]
        by_cases howned : l.Owned a conn
        · simp [howned]
        · rw [if_neg howned, fine_bind_left (fun _ => fine_pure _), fine_destroyChannel]
          simp [hmem, howned]
      · split
        · simp [hmem]
        · rw [fine_bind_left (fun _ => fine_pure _), fine_destroyChannel]
          simp [hmem]

/-! ### Connectors -/

/-- A connector may be stopped: its channel is not one of the batch, unless it has its turn. -/
def MayStop (l : Dispatcher) (k : Nat) : Prop :=
  ∀ c ∈ l.connectors k, c.state = .kConnecting → ∀ a ∈ c.channel, l.Removable a

theorem fine_removeAndResetChannel (k : Nat) (c : DispatchConnector) :
    Fine (l.removeAndResetChannel k c) ↔ ∀ a ∈ c.channel, l.Removable a := by
  unfold removeAndResetChannel
  cases c.channel with
  | none => simp
  | some a =>
      simp only [Option.mem_def, Option.some.injEq, forall_eq']
      rw [fine_bind_left (fun _ => fine_pure _), fine_removeChannel]

theorem fine_stopInLoop : Fine (l.stopInLoop k) ↔ l.MayStop k := by
  unfold stopInLoop MayStop
  cases l.connectors k with
  | none => simp
  | some c =>
      simp only [Option.mem_def, Option.some.injEq, forall_eq']
      by_cases hstate : c.state = .kConnecting
      · rw [if_pos hstate, fine_bind_left (fun _ => fine_pure _), fine_removeAndResetChannel]
        simp [hstate]
      · simp [hstate]

theorem fine_handleError : Fine (l.handleError k) ↔ l.MayStop k := by
  unfold handleError MayStop
  cases l.connectors k with
  | none => simp
  | some c =>
      simp only [Option.mem_def, Option.some.injEq, forall_eq']
      by_cases hstate : c.state = .kConnecting
      · rw [if_neg (not_not_intro hstate), fine_bind_left (fun _ => fine_pure _),
          fine_removeAndResetChannel]
        simp [hstate]
      · simp [hstate]

theorem fine_handleWrite (err isSelfConnect : Bool) :
    Fine (l.handleWrite k err isSelfConnect a) ↔ l.MayStop k := by
  unfold handleWrite MayStop
  cases l.connectors k with
  | none => simp
  | some c =>
      simp only [Option.mem_def, Option.some.injEq, forall_eq']
      by_cases hstate : c.state = .kConnecting
      · rw [if_pos hstate, fine_bind_left, fine_removeAndResetChannel]
        · simp [hstate]
        · intro l'
          split
          · exact fine_pure _
          · split
            · exact fine_pure _
            · split
              · split
                · exact fine_other
                · exact fine_pure _
              · exact fine_pure _
      · rw [if_neg hstate]
        split <;> simp [hstate]

theorem fine_connectConnector (k : Nat) (c : DispatchConnector) (savedErrno : Connector.Errno)
    (a : Nat) : Fine (l.connectConnector k c savedErrno a) := by
  unfold connectConnector
  split
  all_goals first
    | exact fine_ok _
    | split <;> simp

theorem fine_startInLoop (k : Nat) (savedErrno : Connector.Errno) (a : Nat) :
    Fine (l.startInLoop k savedErrno a) := by
  unfold startInLoop
  split
  · exact fine_other
  · split
    · exact fine_other
    · split
      · exact fine_connectConnector _ _ _ _
      · exact fine_ok _

theorem fine_releaseConnector (k : Nat) : Fine (l.releaseConnector k) := by
  unfold releaseConnector
  split
  · exact fine_ok _
  · split
    · exact fine_ok _
    · split <;> simp

theorem fine_stopConnector : Fine (l.stopConnector k) ↔ l.MayStop k := by
  unfold stopConnector
  cases hc : l.connectors k with
  | none => simp [MayStop, hc]
  | some c =>
      simp only
      rw [fine_stopInLoop]
      simp [MayStop, setConnector, Removable, hc]

/-- The channel of a connector has its turn. -/
theorem mayStop_of_current {b : Nat} (hc : (l.connectors k).bind (fun c => c.channel) = some b)
    (hcurrent : l.phase.current = some b) : l.MayStop k := by
  rintro c hmem - a ha
  rw [Option.mem_def] at hmem ha
  rw [hmem, Option.bind_some, ha] at hc
  exact Or.inl (hcurrent.trans hc.symm)

/-- A connector whose attempt has failed may be stopped. -/
theorem mayStop_of_handleError (h : l.handleError k = .ok l') : l'.MayStop k := by
  unfold handleError at h
  split at h
  · cases h
  · split at h
    · cases h
    · obtain ⟨l₁, -, h₁⟩ := bind_ok h
      cases h₁
      intro c hmem hstate
      simp only [setConnector, Function.update_self, Option.mem_def, Option.some.injEq] at hmem
      rw [← hmem] at hstate
      cases hstate

theorem fine_connectorEvent (error write err isSelfConnect : Bool) (h : l.MayStop k) :
    Fine (l.connectorEvent k error write err isSelfConnect a) := by
  have hwrite : ∀ l : Dispatcher, l.MayStop k →
      Fine (if write then l.handleWrite k err isSelfConnect a else pure l) := by
    intro l h
    split
    · exact (fine_handleWrite _ _).mpr h
    · exact fine_pure _
  cases error with
  | true =>
      exact fine_bind.mpr ⟨fine_handleError.mpr h, fun l' hl' =>
        hwrite l' (mayStop_of_handleError hl')⟩
  | false => exact hwrite l h

/-! ### Connections, clients and servers -/

/-- A connection that is destroyed is not one of the batch, and then may be let go. -/
theorem fine_connectDestroyed_settle : Fine (do (← l.connectDestroyed a).settle a)
    ↔ ∀ conn ∈ l.connections a, conn.state ≠ .kDisconnecting → l.Removable a := by
  rw [fine_bind]
  unfold connectDestroyed
  cases l.connections a with
  | none => simp
  | some conn =>
      simp only [Option.mem_def, Option.some.injEq, forall_eq']
      by_cases hstate : conn.state = .kDisconnecting
      · simp [hstate]
      · rw [if_neg hstate, fine_bind_left (fun _ => fine_pure _), fine_removeChannel]
        simp only [ne_eq, hstate, not_false_eq_true, forall_const]
        refine and_iff_left_of_imp fun hremovable l' hl' => ?_
        obtain ⟨l₁, h₁, h₂⟩ := bind_ok hl'
        cases h₂
        rw [fine_settle, removeChannel_ok h₁]
        exact fun conn _ hmem => absurd hmem hremovable.notMem_pending

theorem fine_removeConnection (conn : DispatchConnection) (savedErrno : Connector.Errno)
    (fresh : Nat) : Fine (l.removeConnection a conn savedErrno fresh) := by
  unfold removeConnection
  split
  · split
    · split
      · exact fine_other
      · simp only
        split
        · exact fine_startInLoop _ _ _
        · exact fine_ok _
    · exact fine_other
  · split
    · exact fine_other
    · split <;> simp
  · exact fine_ok _
  · exact fine_ok _

/-- Outside of a batch nothing is in the way. -/
theorem fine_runFunctor {rest : List DispatchFunctor} (hphase : l.phase = .functors rest)
    (savedErrno : Connector.Errno) (fresh : Nat) (f : DispatchFunctor) :
    Fine (l.runFunctor savedErrno fresh f) := by
  have hremovable : ∀ a, l.Removable a := by
    intro a
    right
    rw [hphase]
    exact List.not_mem_nil
  cases f with
  | startInLoop k => exact fine_startInLoop _ _ _
  | stopInLoop k => exact fine_stopInLoop.mpr fun _ _ _ a _ => hremovable a
  | resetChannel k =>
      show Fine (l.resetChannel k)
      unfold resetChannel
      split
      · exact fine_other
      · split
        · exact fine_ok _
        · rw [fine_bind_left (fun _ => fine_pure _), fine_destroyChannel]
          exact (hremovable _).notMem_pending
  | connectDestroyed a =>
      exact fine_connectDestroyed_settle.mpr fun _ _ _ => hremovable a

/-! ### Steps -/

/-- What a step must not do: stop a connector whose channel is one of the batch, unless it has
its turn, destroy the server of such a channel, or let go of the last pointer to a connection
whose turn is still to come. -/
def May : DispatchAct → Dispatcher → Prop
  | .stop k, l => (l.clients k).isSome → l.MayStop k
  | .destroyClient k, l => ∀ client ∈ l.clients k,
      match client.connection with
      | none => l.MayStop k
      | some a => ∀ conn ∈ l.connections a, l.MayLetGo a { conn with held := false }
  | .release a, l => ∀ conn ∈ l.connections a, 0 < conn.users →
      l.MayLetGo a { conn with users := conn.users - 1 }
  | .destroyNext v, l => ∀ server ∈ l.servers v, server.destructing = true →
      ∀ a ∈ server.connections.head?, ∀ conn ∈ l.connections a,
        conn.state ≠ .kDisconnecting → l.Removable a
  | .endDestroy v, l => ∀ server ∈ l.servers v, server.destructing = true →
      server.connections = [] → l.Removable v
  | _, _ => True

theorem fine_stop : Fine (l.stop k) ↔ May (.stop k) l := by
  unfold stop
  cases hclient : l.clients k with
  | none => simp [May, hclient]
  | some client =>
      simp only
      rw [fine_stopConnector]
      simp [May, hclient, MayStop, setClient, Removable]

theorem fine_destroyClient : Fine (l.destroyClient k) ↔ May (.destroyClient k) l := by
  unfold destroyClient
  cases hclient : l.clients k with
  | none => simp [May, hclient]
  | some client =>
      simp only [May, hclient, Option.mem_def, Option.some.injEq, forall_eq']
      cases hconnection : client.connection with
      | none =>
          simp only
          rw [fine_bind_left, fine_stopConnector]
          · simp [MayStop, Removable]
          · intro l'
            split <;> exact fine_pure _
      | some a =>
          simp only
          rw [fine_bind_left (fun _ => fine_releaseConnector _), fine_settle]
          unfold letGo
          cases hconn : l.connections a with
          | none => simp [hconn]
          | some conn => simp [setConnection, MayLetGo]

theorem fine_release : Fine (l.release a) ↔ May (.release a) l := by
  unfold release
  cases hconn : l.connections a with
  | none => simp [May, hconn]
  | some conn =>
      simp only [May, hconn, Option.mem_def, Option.some.injEq, forall_eq']
      by_cases husers : 0 < conn.users
      · rw [if_pos husers, fine_settle]
        simp [setConnection, MayLetGo, husers]
      · simp [husers]

theorem fine_destroyNext : Fine (l.destroyNext v) ↔ May (.destroyNext v) l := by
  unfold destroyNext
  cases hserver : l.servers v with
  | none => simp [May, hserver]
  | some server =>
      obtain ⟨connections, destructing⟩ := server
      cases destructing with
      | false => cases connections <;> simp [May, hserver]
      | true =>
          cases connections with
          | nil => simp [May, hserver]
          | cons a rest =>
              simp only [May, hserver, Option.mem_def, Option.some.injEq, forall_eq',
                List.head?_cons, forall_const]
              set l₁ := (l.setServer v ⟨rest, true⟩).letGo a (.server v) with hl₁
              have hphase : l₁.phase = l.phase := by
                rw [hl₁]
                unfold letGo
                split <;> rfl
              rw [fine_connectDestroyed_settle]
              unfold Removable
              rw [hphase, hl₁]
              unfold letGo setServer
              cases hconn : l.connections a <;> simp [setConnection, hconn]

theorem fine_endDestroy : Fine (l.endDestroy v) ↔ May (.endDestroy v) l := by
  unfold endDestroy
  cases hserver : l.servers v with
  | none => simp [May, hserver]
  | some server =>
      obtain ⟨connections, destructing⟩ := server
      cases destructing with
      | false => cases connections <;> simp [May, hserver]
      | true =>
          cases connections with
          | cons a rest => simp [May, hserver]
          | nil =>
              simp only [May, hserver, Option.mem_def, Option.some.injEq, forall_eq',
                forall_const]
              rw [fine_bind, fine_removeChannel]
              refine and_iff_left_of_imp fun h l' hl' => ?_
              rw [fine_bind_left (fun _ => fine_pure _), fine_destroyChannel, removeChannel_ok hl']
              exact h.notMem_pending

/-- The event of a connection is over, and nothing else may hold the connection. -/
theorem fine_next : Fine l.next := by
  unfold next
  cases hphase : l.phase with
  | functors fs => simp
  | events b =>
      cases hget : b.list[b.it]? with
      | none => simp [hget]
      | some a =>
          simp only [hget]
          split
          · exact fine_ok _
          · rw [fine_settle]
            intro conn _ hmem
            have hlater : a ∈ (DispatchPhase.events b).pending := by
              refine List.mem_of_mem_drop (i := 1) ?_
              rw [DispatchPhase.pending, List.drop_drop]
              exact hmem
            exact absurd hlater (current_notMem_pending _ hget)

theorem fine_runNext (savedErrno : Connector.Errno) (a : Nat) :
    Fine (l.runNext savedErrno a) := by
  unfold runNext
  split
  · split
    · exact fine_ok _
    · exact fine_runFunctor rfl _ _ _
  · exact fine_ok _

theorem fine_handleConnector (k : Nat) (error write err isSelfConnect : Bool) (a : Nat) :
    Fine (l.handleConnector k error write err isSelfConnect a) := by
  unfold handleConnector
  split
  · exact fine_ok _
  · split
    · exact fine_connectorEvent _ _ _ _ (mayStop_of_current ‹_› (And.left ‹_›))
    · exact fine_ok _

theorem fine_connect (k : Nat) (savedErrno : Connector.Errno) (a : Nat) :
    Fine (l.connect k savedErrno a) := by
  unfold connect
  split
  · split
    · exact fine_ok _
    · exact fine_startInLoop _ _ _
  · exact fine_ok _

theorem fine_callCloseCallback (a : Nat) (savedErrno : Connector.Errno) (fresh : Nat) :
    Fine (l.callCloseCallback a savedErrno fresh) := by
  unfold callCloseCallback
  split
  · exact fine_ok _
  · split
    · exact fine_removeConnection _ _ _
    · exact fine_ok _

theorem fine_retryTimer (k : Nat) (savedErrno : Connector.Errno) (a : Nat) :
    Fine (l.retryTimer k savedErrno a) := by
  unfold retryTimer
  split
  · exact fine_ok _
  · split
    · refine fine_bind.mpr ⟨fine_startInLoop _ _ _, fun l' _ => ?_⟩
      split
      · exact fine_pure _
      · exact fine_releaseConnector _
    · exact fine_ok _

theorem fine_keepTimer (k : Nat) : Fine (l.keepTimer k) := by
  unfold keepTimer
  split
  · exact fine_ok _
  · split
    · exact fine_releaseConnector _
    · exact fine_ok _

/-- **One step** goes wrong in one of the two ways exactly if it does what it must not do. -/
theorem fine_step (act : DispatchAct) (l : Dispatcher) : Fine (step act l) ↔ May act l := by
  cases act with
  | stop k => exact fine_stop
  | destroyClient k => exact fine_destroyClient
  | release a => exact fine_release
  | destroyNext v => exact fine_destroyNext
  | endDestroy v => exact fine_endDestroy
  | next => exact iff_of_true fine_next trivial
  | runFunctor savedErrno a => exact iff_of_true (fine_runNext savedErrno a) trivial
  | connectorEvent k error write err isSelfConnect a =>
      exact iff_of_true (fine_handleConnector k error write err isSelfConnect a) trivial
  | connect k savedErrno a => exact iff_of_true (fine_connect k savedErrno a) trivial
  | closeCallback a savedErrno fresh =>
      exact iff_of_true (fine_callCloseCallback a savedErrno fresh) trivial
  | retryTimer k savedErrno a => exact iff_of_true (fine_retryTimer k savedErrno a) trivial
  | keepTimer k => exact iff_of_true (fine_keepTimer k) trivial
  | shutdown a => exact iff_of_true (fine_ok _) trivial
  -- the others cannot go wrong at all
  | newClient k =>
      refine iff_of_true ?_ trivial
      show Fine (l.newClient k)
      unfold newClient
      split <;> exact fine_ok _
  | newServer v =>
      refine iff_of_true ?_ trivial
      show Fine (l.newServer v)
      unfold newServer
      split <;> exact fine_ok _
  | connectionHere a =>
      refine iff_of_true ?_ trivial
      show Fine (l.connectionHere a)
      unfold connectionHere
      split <;> exact fine_ok _
  | enableRetry k =>
      refine iff_of_true ?_ trivial
      show Fine (l.enableRetry k)
      unfold enableRetry
      split <;> exact fine_ok _
  | start v =>
      refine iff_of_true ?_ trivial
      show Fine (l.startServer v)
      unfold startServer
      split <;> exact fine_ok _
  | beginDestroy v =>
      refine iff_of_true ?_ trivial
      show Fine (l.beginDestroy v)
      unfold beginDestroy
      split <;> exact fine_ok _
  | hold a =>
      refine iff_of_true ?_ trivial
      show Fine (l.hold a)
      unfold hold
      split <;> exact fine_ok _
  | queueStart k =>
      refine iff_of_true ?_ trivial
      show Fine (l.queueStart k)
      unfold queueStart
      split <;> exact fine_ok _
  | queueStop k =>
      refine iff_of_true ?_ trivial
      show Fine (l.queueStop k)
      unfold queueStop
      split <;> exact fine_ok _
  | disconnect k =>
      refine iff_of_true ?_ trivial
      show Fine (l.disconnect k)
      unfold disconnect
      split
      · exact fine_ok _
      · split <;> exact fine_ok _
  | poll active =>
      refine iff_of_true ?_ trivial
      show Fine (l.poll active)
      unfold poll
      split
      · split <;> exact fine_ok _
      · exact fine_ok _
  | doPendingFunctors =>
      refine iff_of_true ?_ trivial
      show Fine l.doPendingFunctors
      unfold doPendingFunctors
      split
      · split <;> exact fine_ok _
      · exact fine_ok _
  | accept v here =>
      refine iff_of_true ?_ trivial
      show Fine (l.accept v here)
      unfold accept
      split
      · split <;> exact fine_ok _
      · exact fine_ok _
  | handleClose a =>
      refine iff_of_true ?_ trivial
      show Fine (l.handleClose a)
      unfold handleClose
      split
      · exact fine_ok _
      · split <;> exact fine_ok _
  | connectionGone a =>
      refine iff_of_true ?_ trivial
      show Fine (l.connectionGone a)
      unfold connectionGone
      split
      · exact fine_ok _
      · split <;> exact fine_ok _

/-! ### Runs -/

/-- **Removing channels.**  Along a run the assertion of `removeChannel` holds at every removal
and no channel is destroyed before its turn, exactly if no step stops a connector in the batch,
destroys the server of a channel in it, or lets go of a connection whose turn is to come. -/
theorem removals_iff (acts : List DispatchAct) (l : Dispatcher) :
    (run step acts l ≠ .error .removeChannel ∧ run step acts l ≠ .error .destroyed)
      ↔ Along step May acts l := by
  rw [← run_errors_iff (P := fun fault => fault = .other) fine_step]
  constructor
  · rintro ⟨hremove, hdestroy⟩ fault h
    cases fault with
    | removeChannel => exact absurd h hremove
    | destroyed => exact absurd h hdestroy
    | other => rfl
  · exact fun h => ⟨fun he => absurd (h _ he) (by decide),
      fun he => absurd (h _ he) (by decide)⟩

/-! ### Examples -/

/-- The channels of two objects, of which the second is still to have its turn. -/
def twoActive (a b : Nat) (h : a ≠ b) : ActiveChannels := ⟨[a, b], 0, by simpa using h⟩

/-- Two attempts succeed in one batch, and the first client stops the second. -/
def stopsOther : List DispatchAct :=
  [.newClient 0, .newClient 1, .connect 0 .EINPROGRESS 5, .connect 1 .EINPROGRESS 6,
    .poll (twoActive 5 6 (by decide)), .connectorEvent 0 false true false false 7, .stop 1]

/-- Two clients are connected and something has arrived for both of them; the first destroys
the second. -/
def destroysOther : List DispatchAct :=
  stopsOther.dropLast ++
    [.next, .connectorEvent 1 false true false false 8, .next, .doPendingFunctors,
      .runFunctor .zero 9, .runFunctor .zero 9, .poll (twoActive 7 8 (by decide)),
      .destroyClient 1]

/-- A server is destroyed when a connection of it is in the batch. -/
def destroysServer : List DispatchAct :=
  [.newServer 5, .start 5, .poll ⟨[5], 0, by decide⟩, .accept 5 (some 6), .next,
    .doPendingFunctors, .poll (twoActive 1 6 (by decide)), .beginDestroy 5, .destroyNext 5]

/-- The assertion fails, or a channel is gone when its turn comes. -/
theorem not_removals :
    ¬ (∀ acts : List DispatchAct,
        run step acts init ≠ .error .removeChannel ∧ run step acts init ≠ .error .destroyed) ∧
      run step stopsOther init = .error .removeChannel ∧
      run step destroysOther init = .error .destroyed ∧
      run step destroysServer init = .error .removeChannel :=
  ⟨fun h => (h stopsOther).1 rfl, rfl, rfl, rfl⟩

end Dispatcher

end Net
