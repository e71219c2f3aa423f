/-
When `TcpClient::stop` is final.

A call of `stop` leaves both flags down, and with both flags down nothing puts them up again but
a call of `connect`, and a call of `restart` that `removeConnection` has decided upon before.  If
neither is on its way when `stop` stores the connector's flag, the attempt that may be in progress
is the last one, and `stopInLoop` ends it.
-/
import Muduo.Net.TcpClient

namespace Net

open Lib

/-! ### What the connector does with its flag down -/

namespace Connector

variable {c c' : Connector} {loop : Handling}

theorem retry_flag (c : Connector) (sockfd : Nat) : (c.retry sockfd).connect_ = c.connect_ := by
  unfold retry
  simp only
  split <;> rfl

theorem retry_state (c : Connector) (sockfd : Nat) : (c.retry sockfd).state = .kDisconnected := by
  unfold retry
  simp only
  split <;> rfl

theorem connecting_flag {sockfd : Nat} (h : c.connecting sockfd = .ok c') :
    c'.connect_ = c.connect_ := by
  unfold Connector.connecting at h
  obtain ⟨_, -, h⟩ := bind_ok h
  obtain ⟨channel, -, h⟩ := bind_ok h
  cases h
  rfl

theorem connect_flag {savedErrno : Errno} (h : c.connect savedErrno = .ok c') :
    c'.connect_ = c.connect_ := by
  have hretry := retry_flag { c with created := c.created + 1 } c.created
  unfold Connector.connect at h
  cases savedErrno with
  | zero | EINPROGRESS | EINTR | EISCONN =>
      have hflag := connecting_flag h
      exact hflag
  | EAGAIN | EADDRINUSE | EADDRNOTAVAIL | ECONNREFUSED | ENETUNREACH =>
      cases h
      exact hretry
  | EACCES | EPERM | EAFNOSUPPORT | EALREADY | EBADF | EFAULT | ENOTSOCK | unexpected =>
      cases h
      rfl

theorem removeAndResetChannel_flag {sockfd : Nat}
    (h : c.removeAndResetChannel loop = .ok (sockfd, c')) : c'.connect_ = c.connect_ := by
  unfold removeAndResetChannel at h
  cases hchannel : c.channel with
  | none =>
      rw [hchannel] at h
      cases h
  | some p =>
      simp only [hchannel] at h
      obtain ⟨_, -, h⟩ := bind_ok h
      obtain ⟨_, -, h⟩ := bind_ok h
      cases h
      rfl

theorem stopInLoop_flag (h : c.stopInLoop loop = .ok c') :
    c'.connect_ = c.connect_ ∧ c'.state ≠ .kConnecting := by
  unfold Connector.stopInLoop at h
  by_cases hstate : c.state = .kConnecting
  · rw [if_pos hstate] at h
    obtain ⟨⟨sockfd, c₁⟩, hremove, h⟩ := bind_ok h
    cases h
    rw [retry_flag, retry_state]
    have hflag := removeAndResetChannel_flag hremove
    exact ⟨hflag, nofun⟩
  · rw [if_neg hstate] at h
    cases h
    exact ⟨rfl, hstate⟩

theorem handleError_flag (h : c.handleError loop = .ok c') : c'.connect_ = c.connect_ := by
  unfold Connector.handleError at h
  obtain ⟨_, -, h⟩ := bind_ok h
  obtain ⟨⟨sockfd, c₁⟩, hremove, h⟩ := bind_ok h
  cases h
  rw [retry_flag]
  exact removeAndResetChannel_flag hremove

theorem handleWrite_flag {err isSelfConnect : Bool}
    (h : c.handleWrite loop err isSelfConnect = .ok c') : c'.connect_ = c.connect_ := by
  unfold Connector.handleWrite at h
  by_cases hstate : c.state = .kConnecting
  · rw [if_pos hstate] at h
    obtain ⟨⟨sockfd, c₁⟩, hremove, h⟩ := bind_ok h
    have hflag := removeAndResetChannel_flag hremove
    cases err with
    | true =>
        cases h
        exact (retry_flag c₁ sockfd).trans hflag
    | false =>
        cases isSelfConnect with
        | true =>
            cases h
            exact (retry_flag c₁ sockfd).trans hflag
        | false =>
            by_cases hconnect : c₁.connect_ = true
            · simp only [hconnect] at h
              cases h
              rw [← hflag, hconnect]
            · simp only [hconnect] at h
              cases h
              rw [← hflag]
              exact (Bool.eq_false_of_not_eq_true hconnect).symm
  · rw [if_neg hstate] at h
    obtain ⟨_, -, h⟩ := bind_ok h
    cases h
    rfl

/-- Without an attempt there is nothing to handle. -/
theorem handleError_idle (hstate : c.state ≠ .kConnecting) : c.handleError loop ≠ .ok c' := by
  intro h
  unfold Connector.handleError at h
  obtain ⟨_, hassert, -⟩ := bind_ok h
  exact hstate (assertThat_ok hassert)

theorem handleWrite_idle {err isSelfConnect : Bool} (hstate : c.state ≠ .kConnecting)
    (h : c.handleWrite loop err isSelfConnect = .ok c') : c' = c := by
  unfold Connector.handleWrite at h
  rw [if_neg hstate] at h
  obtain ⟨_, -, h⟩ := bind_ok h
  cases h
  rfl

theorem stopInLoop_idle (hstate : c.state ≠ .kConnecting) : c.stopInLoop loop = .ok c := by
  unfold Connector.stopInLoop
  rw [if_neg hstate]
  rfl

end Connector

namespace ConnectorLoop

open Connector

variable {l l' : ConnectorLoop} {a : ConnectorAct}

theorem startInLoop_cases (h : l.startInLoop = .ok l') :
    l'.connector = l.connector ∧ (l.connector.connect_ = false → l'.next = none) := by
  unfold ConnectorLoop.startInLoop at h
  obtain ⟨_, -, h⟩ := bind_ok h
  cases h
  refine ⟨rfl, fun hflag => ?_⟩
  rw [hflag]
  rfl

theorem stopInLoop_cases (h : l.stopInLoop = .ok l') :
    l'.connector.connect_ = l.connector.connect_ ∧ l'.connector.state ≠ .kConnecting ∧
      l'.next = none := by
  unfold ConnectorLoop.stopInLoop at h
  obtain ⟨c, hc, h⟩ := bind_ok h
  cases h
  obtain ⟨hflag, hstate⟩ := stopInLoop_flag hc
  exact ⟨hflag, hstate, rfl⟩

/-- What a step of the loop does with the connector. -/
inductive Worked (l : ConnectorLoop) : ConnectorLoop → Prop
  /-- It does nothing that matters. -/
  | same {l' : ConnectorLoop} (hflag : l'.connector.connect_ = l.connector.connect_)
      (hstate : l'.connector.state = l.connector.state)
      (hcreated : l'.connector.created = l.connector.created)
      (hhanded : l'.connector.handed = l.connector.handed)
      (hnext : l'.next = l.next ∨ l'.next = some .stopInLoop) : Worked l l'
  | started {l₁ l' : ConnectorLoop} (hflag : l₁.connector.connect_ = l.connector.connect_)
      (hstate : l₁.connector.state = l.connector.state)
      (hcreated : l₁.connector.created = l.connector.created)
      (hhanded : l₁.connector.handed = l.connector.handed) (hstart : l₁.startInLoop = .ok l') :
      Worked l l'
  | stopped {phase : Connector.Phase} {l' : ConnectorLoop}
      (hstop : ConnectorLoop.stopInLoop { l with phase := phase } = .ok l') : Worked l l'
  | connected {savedErrno : Errno} {l' : ConnectorLoop} (hnext : l.next = some .connect)
      (hconnect : l.connector.connect savedErrno = .ok l'.connector) : Worked l l'
  | handled {l' : ConnectorLoop} (hnext : l'.next = l.next)
      (hhandle : l.connector.handleError (handlingOf l.phase) = .ok l'.connector ∨
        ∃ err isSelfConnect,
          l.connector.handleWrite (handlingOf l.phase) err isSelfConnect = .ok l'.connector) :
      Worked l l'

theorem Worked.refl (l : ConnectorLoop) : Worked l l := .same rfl rfl rfl rfl (Or.inl rfl)

theorem worked_handle {err isSelfConnect : Bool} (h : l.handle err isSelfConnect = .ok l') :
    Worked l l' := by
  unfold ConnectorLoop.handle at h
  split at h
  · obtain ⟨c, hc, h⟩ := bind_ok h
    cases h
    exact .handled rfl (Or.inl hc)
  · obtain ⟨c, hc, h⟩ := bind_ok h
    cases h
    exact .handled rfl (Or.inr ⟨err, isSelfConnect, hc⟩)
  · cases h
    exact .refl l

theorem worked_loopStep (hown : TcpClient.isOwn a = true) (h : loopStep a l = .ok l') :
    Worked l l' := by
  cases a with
  | startHere | stopHere | restart | start | stop => cases hown
  | queueStart | queueStop | goOn =>
      cases h
      exact .refl l
  | handle err isSelfConnect => exact worked_handle h
  | runFunctor =>
      simp only [loopStep] at h
      split at h
      · rename_i f batch hphase
        cases f with
        | startInLoop =>
            have h : ConnectorLoop.startInLoop { l with phase := .functors batch } = .ok l' := h
            exact .started (by rfl) (by rfl) (by rfl) (by rfl) h
        | stopInLoop => exact .stopped h
        | resetChannel =>
            cases h
            exact .same rfl rfl rfl rfl (Or.inl rfl)
      · cases h
        exact .refl l
  | timer i =>
      simp only [loopStep] at h
      split at h
      · split at h
        · exact .started (by rfl) (by rfl) (by rfl) (by rfl) h
        · cases h
          exact .refl l
      · cases h
        exact .refl l
  | poll active =>
      simp only [loopStep] at h
      split at h
      · split at h
        · cases h
          exact .refl l
        · cases h
          exact .same rfl rfl rfl rfl (Or.inl rfl)
      · cases h
        exact .refl l
  | handleEvent | handled | doPendingFunctors =>
      simp only [loopStep] at h
      split at h
      · cases h
        exact .same rfl rfl rfl rfl (Or.inl rfl)
      · cases h
        exact .refl l

/-- The steps of the loop, by what they do with the connector. -/
theorem worked (hown : TcpClient.isOwn a = true) (h : step a l = .ok l') : Worked l l' := by
  have hloop : (if l.next = none then loopStep a l else .ok l) = .ok l' → Worked l l' := by
    intro h
    by_cases hnext : l.next = none
    · rw [if_pos hnext] at h
      exact worked_loopStep hown h
    · rw [if_neg hnext] at h
      cases h
      exact .refl l
  cases a with
  | start | stop => cases hown
  | queueStart | queueStop =>
      simp only [step] at h
      split at h
      · cases h
        exact .same rfl rfl rfl rfl (Or.inl rfl)
      · cases h
        exact .refl l
  | goOn savedErrno =>
      cases hnext : l.next with
      | none =>
          simp only [step, hnext] at h
          cases h
          exact .refl l
      | some call =>
          simp only [step, hnext] at h
          cases call with
          | startInLoop => exact .started rfl rfl rfl rfl h
          | stopInLoop =>
              have h : ConnectorLoop.stopInLoop { l with phase := l.phase } = .ok l' := h
              exact .stopped h
          | connect =>
              obtain ⟨c, hc, h⟩ := bind_ok h
              cases h
              exact .connected hnext hc
  | startHere | stopHere | restart | runFunctor | timer | poll | handleEvent | handle | handled
  | doPendingFunctors => exact hloop h

/-- No attempt is in progress, and none comes next. -/
structure Quiet (l : ConnectorLoop) : Prop where
  flag : l.connector.connect_ = false
  next : l.next ≠ some .connect
  state : l.connector.state ≠ .kConnecting

theorem Worked.flag (h : Worked l l') : l'.connector.connect_ = l.connector.connect_ := by
  cases h with
  | same hflag => exact hflag
  | started hflag _ _ _ hstart => rw [(startInLoop_cases hstart).1, hflag]
  | stopped hstop =>
      have hflag := (stopInLoop_cases hstop).1
      exact hflag
  | connected _ hconnect => exact connect_flag hconnect
  | handled _ hhandle =>
      rcases hhandle with herror | ⟨_, _, hwrite⟩
      · exact handleError_flag herror
      · exact handleWrite_flag hwrite

/-- A quiet connector stays so, creates no socket and hands none over. -/
theorem Quiet.worked (hquiet : Quiet l) (h : Worked l l') :
    Quiet l' ∧ l'.connector.created = l.connector.created ∧
      l'.connector.handed = l.connector.handed := by
  have hflag : l'.connector.connect_ = false := h.flag.trans hquiet.flag
  cases h with
  | same _ hstate hcreated hhanded hnext =>
      refine ⟨⟨hflag, ?_, ?_⟩, hcreated, hhanded⟩
      · rcases hnext with hnext | hnext
        · rw [hnext]
          exact hquiet.next
        · rw [hnext]
          nofun
      · rw [hstate]
        exact hquiet.state
  | started hflag₁ hstate hcreated hhanded hstart =>
      obtain ⟨hconnector, hnext⟩ := startInLoop_cases hstart
      rw [hconnector, hcreated, hhanded]
      refine ⟨⟨hflag, ?_, ?_⟩, rfl, rfl⟩
      · rw [hnext (hflag₁.trans hquiet.flag)]
        nofun
      · rw [hconnector, hstate]
        exact hquiet.state
  | @stopped phase _ hstop =>
      have hidle : l.connector.stopInLoop (handlingOf phase) = .ok l.connector :=
        stopInLoop_idle hquiet.state
      unfold ConnectorLoop.stopInLoop at hstop
      simp only [hidle] at hstop
      cases hstop
      exact ⟨⟨hquiet.flag, nofun, hquiet.state⟩, rfl, rfl⟩
  | connected hnext => exact absurd hnext hquiet.next
  | handled hnext hhandle =>
      rcases hhandle with herror | ⟨_, _, hwrite⟩
      · exact absurd herror (handleError_idle hquiet.state)
      · have hsame := handleWrite_idle hquiet.state hwrite
        rw [hsame]
        refine ⟨⟨hflag, ?_, ?_⟩, rfl, rfl⟩
        · rw [hnext]
          exact hquiet.next
        · rw [hsame]
          exact hquiet.state

end ConnectorLoop

namespace TcpClient

open ConnectorLoop

/-! ### What is asked of the calls -/

/-- A call of `stop` stores the connector's flag. -/
def storesStop : ClientAct → TcpClient → Bool
  | .connectorStop, c => decide (0 < c.stopping)
  | .goOn, c => decide (c.next = some .stop)
  | _, _ => false

/-- The step runs `stopInLoop`. -/
def runsStop : ClientAct → TcpClient → Bool
  | .loop .runFunctor, c =>
      match c.next, c.connector.next, c.connector.phase with
      | none, none, .functors (.stopInLoop :: _) => true
      | _, _, _ => false
  | .loop (.goOn _), c => decide (c.next = none) && decide (c.connector.next = some .stopInLoop)
  | _, _ => false

/-- A call of `connect` begins. -/
def callsConnect : ClientAct → Bool
  | .connect | .connectHere => true
  | _ => false

/-- Behind a call of `stop` whose `stopInLoop` has run, and without another call of `connect`, no
attempt is made and no connection comes up. -/
def StopFinal (acts : List ClientAct) : Prop :=
  ∀ before a between b after rest c₀ c₁ c₂ c₃ c₄,
    acts = before ++ a :: (between ++ b :: (after ++ rest)) →
    run step before init = .ok c₀ → storesStop a c₀ = true → step a c₀ = .ok c₁ →
    run step between c₁ = .ok c₂ → runsStop b c₂ = true → step b c₂ = .ok c₃ →
    run step after c₃ = .ok c₄ → (∀ x ∈ between ++ after, callsConnect x = false) →
    c₄.connector.connector.created = c₃.connector.connector.created ∧
      c₄.nextConnId_ = c₃.nextConnId_

/-- Nobody is about to put a flag up again: no call of `connect` has come between the two stores of
this call of `stop` or is between its own, and `removeConnection` has not decided to restart. -/
structure Timely (a : ClientAct) (c : TcpClient) : Prop where
  flag : storesStop a c = true → c.connect_ = false
  connecting : storesStop a c = true → c.connecting = 0
  next : storesStop a c = true → c.next = none ∨ c.next = some .stop

instance (a : ClientAct) (c : TcpClient) : Decidable (Timely a c) :=
  decidable_of_iff ((storesStop a c = true → c.connect_ = false) ∧
      (storesStop a c = true → c.connecting = 0) ∧
      (storesStop a c = true → c.next = none ∨ c.next = some .stop))
    ⟨fun h => ⟨h.1, h.2.1, h.2.2⟩, fun h => ⟨h.flag, h.connecting, h.next⟩⟩

/-- Both flags are down, and stay so. -/
structure Halted (c : TcpClient) : Prop where
  flag : c.connect_ = false
  connectorFlag : c.connector.connector.connect_ = false
  connecting : c.connecting = 0
  next : c.next = none ∨ c.next = some .stop

variable {c c' : TcpClient} {a : ClientAct}

/-- What a step of the client does with its connector, and what with itself. -/
theorem afterStep_eq (c : TcpClient) (l : ConnectorLoop) :
    (c.afterStep l).connector = l ∧ (c.afterStep l).connect_ = c.connect_ ∧
      (c.afterStep l).connecting = c.connecting ∧ (c.afterStep l).next = c.next := by
  have hfold : ∀ (fds : List Nat) (c : TcpClient),
      (fds.foldl newConnection c).connector = c.connector ∧
        (fds.foldl newConnection c).connect_ = c.connect_ ∧
        (fds.foldl newConnection c).connecting = c.connecting ∧
        (fds.foldl newConnection c).next = c.next := by
    intro fds
    induction fds with
    | nil => exact fun c => ⟨rfl, rfl, rfl, rfl⟩
    | cons fd fds ih => exact fun c => ih (c.newConnection fd)
  exact hfold _ _

theorem afterStep_nextConnId (c : TcpClient) {l : ConnectorLoop}
    (h : l.connector.handed = c.connector.connector.handed) :
    (c.afterStep l).nextConnId_ = c.nextConnId_ := by
  unfold afterStep
  rw [h, List.drop_length]
  rfl

/-- The connector's part of a call of `stop`, with the connector's flag down already. -/
theorem worked_stop {l l' : ConnectorLoop} (hflag : l.connector.connect_ = false)
    (h : l.step .stop = .ok l') : l'.connector.connect_ = false ∧ Worked l l' := by
  cases h
  exact ⟨rfl, .same hflag.symm rfl rfl rfl (Or.inl rfl)⟩

theorem worked_stopHere {l l' : ConnectorLoop} (hflag : l.connector.connect_ = false)
    (h : l.step .stopHere = .ok l') : l'.connector.connect_ = false ∧ Worked l l' := by
  simp only [ConnectorLoop.step, loopStep] at h
  split at h
  · split at h
    · cases h
      exact ⟨rfl, .same hflag.symm rfl rfl rfl (Or.inr rfl)⟩
    · cases h
      exact ⟨hflag, .refl _⟩
  · cases h
    exact ⟨hflag, .refl _⟩

/-- A step in which no call of `connect` begins, with both flags down. -/
theorem Halted.step (h : Halted c) (hcalls : callsConnect a = false) (hstep : TcpClient.step a c = .ok c') :
    Halted c' ∧ Worked c.connector c'.connector ∧
      (c'.connector.connector.handed = c.connector.connector.handed →
        c'.nextConnId_ = c.nextConnId_) := by
  have hsame : c' = c → Halted c' ∧ Worked c.connector c'.connector ∧
      (c'.connector.connector.handed = c.connector.connector.handed →
        c'.nextConnId_ = c.nextConnId_) := by
    rintro rfl
    exact ⟨h, .refl _, fun _ => rfl⟩
  cases a with
  | connect | connectHere => cases hcalls
  | enableRetry | shutdown =>
      simp only [TcpClient.step] at hstep
      first
        | (split at hstep <;> cases hstep)
        | cases hstep
      all_goals exact ⟨⟨h.flag, h.connectorFlag, h.connecting, h.next⟩, .refl _, fun _ => rfl⟩
  | stop | disconnect =>
      cases hstep
      exact ⟨⟨rfl, h.connectorFlag, h.connecting, h.next⟩, .refl _, fun _ => rfl⟩
  | connectorStart =>
      refine hsame ?_
      simp only [TcpClient.step, h.connecting, Nat.lt_irrefl, if_false] at hstep
      cases hstep
      rfl
  | connectorStop =>
      by_cases hstopping : 0 < c.stopping
      · simp only [TcpClient.step, hstopping, if_true] at hstep
        obtain ⟨l, hl, hstep⟩ := bind_ok hstep
        cases hstep
        obtain ⟨hflag, hworked⟩ := worked_stop h.connectorFlag hl
        exact ⟨⟨h.flag, hflag, h.connecting, h.next⟩, hworked, fun _ => rfl⟩
      · simp only [TcpClient.step, hstopping, if_false] at hstep
        cases hstep
        exact hsame rfl
  | stopHere =>
      simp only [TcpClient.step] at hstep
      split at hstep
      · cases hstep
        exact ⟨⟨rfl, h.connectorFlag, h.connecting, Or.inr rfl⟩, .refl _, fun _ => rfl⟩
      · cases hstep
        exact hsame rfl
  | removeConnection conn =>
      simp only [TcpClient.step] at hstep
      split at hstep
      · split at hstep
        · unfold TcpClient.removeConnection at hstep
          obtain ⟨_, -, hstep⟩ := bind_ok hstep
          cases hstep
          refine ⟨⟨h.flag, h.connectorFlag, h.connecting, Or.inl ?_⟩, .refl _, fun _ => rfl⟩
          rw [h.flag]
          exact if_neg (fun hc => Bool.false_ne_true hc.2)
        · cases hstep
          exact hsame rfl
      · cases hstep
        exact hsame rfl
  | goOn =>
      rcases h.next with hnext | hnext
      · simp only [TcpClient.step, hnext] at hstep
        cases hstep
        exact hsame rfl
      · simp only [TcpClient.step, hnext] at hstep
        obtain ⟨l, hl, hstep⟩ := bind_ok hstep
        cases hstep
        obtain ⟨hflag, hworked⟩ := worked_stopHere h.connectorFlag hl
        exact ⟨⟨h.flag, hflag, h.connecting, Or.inl rfl⟩, hworked, fun _ => rfl⟩
  | loop a =>
      simp only [TcpClient.step] at hstep
      split at hstep
      · rename_i hown
        obtain ⟨l, hl, hstep⟩ := bind_ok hstep
        cases hstep
        obtain ⟨hconnector, hflag, hconnecting, hnext⟩ := c.afterStep_eq l
        have hworked := worked hown.1 hl
        refine ⟨⟨?_, ?_, ?_, ?_⟩, ?_, ?_⟩
        · rw [hflag, h.flag]
        · rw [hconnector, hworked.flag, h.connectorFlag]
        · rw [hconnecting, h.connecting]
        · rw [hnext]
          exact h.next
        · rw [hconnector]
          exact hworked
        · rw [hconnector]
          exact c.afterStep_nextConnId
      · cases hstep
        exact hsame rfl

/-- `stopInLoop` ends the attempt that may be in progress. -/
theorem Halted.stopped (h : Halted c) (hruns : runsStop a c = true) (hstep : TcpClient.step a c = .ok c') :
    Halted c' ∧ Quiet c'.connector := by
  have hquiet : ∀ {l l' : ConnectorLoop}, l.connector.connect_ = false → l.stopInLoop = .ok l' →
      Quiet l' := by
    intro l l' hflag hstop
    obtain ⟨hflag', hstate, hnext⟩ := stopInLoop_cases hstop
    exact ⟨hflag'.trans hflag, by rw [hnext]; nofun, hstate⟩
  cases a with
  | loop a =>
      refine ⟨(h.step rfl hstep).1, ?_⟩
      cases a with
      | runFunctor =>
          simp only [runsStop] at hruns
          split at hruns
          · rename_i rest hnext hloop hphase
            simp only [TcpClient.step, isOwn, isOther, hnext, or_true, and_self, if_true] at hstep
            obtain ⟨l, hl, hstep⟩ := bind_ok hstep
            cases hstep
            rw [(c.afterStep_eq l).1]
            simp only [ConnectorLoop.step, hloop, if_true, loopStep, hphase] at hl
            have hstop : ∀ {l₁ : ConnectorLoop}, l₁.connector = c.connector.connector →
                l₁.stopInLoop = .ok l → Quiet l := by
              intro l₁ hsame hl₁
              refine hquiet ?_ hl₁
              rw [hsame]
              exact h.connectorFlag
            refine hstop ?_ hl
            rfl
          · cases hruns
      | goOn savedErrno =>
          simp only [runsStop, Bool.and_eq_true, decide_eq_true_eq] at hruns
          obtain ⟨hnext, hloop⟩ := hruns
          simp only [TcpClient.step, isOwn, isOther, hnext, or_true, and_self, if_true] at hstep
          obtain ⟨l, hl, hstep⟩ := bind_ok hstep
          cases hstep
          rw [(c.afterStep_eq l).1]
          simp only [ConnectorLoop.step, hloop] at hl
          exact hquiet h.connectorFlag hl
      | start | queueStart | stop | queueStop | startHere | stopHere | restart | timer | poll
      | handleEvent | handle | handled | doPendingFunctors => cases hruns
  | enableRetry | connect | connectorStart | stop | connectorStop | disconnect | shutdown
  | connectHere | stopHere | removeConnection | goOn => cases hruns

/-- While a call waits for the connector's part of it, the loop does nothing else. -/
def Waits (c : TcpClient) : Prop :=
  c.next ≠ none → c.connector.next = none ∧ c.connector.userCode = true

theorem Waits.of_free (h : c.free = true) : c.connector.next = none ∧ c.connector.userCode = true := by
  unfold free at h
  simp only [Bool.and_eq_true, decide_eq_true_eq] at h
  exact ⟨h.1.2, h.2⟩

/-- Other threads do not move the loop thread on. -/
theorem other_step {x : ConnectorAct} {l l' : ConnectorLoop}
    (hx : isOther x = true ∨ x = .start ∨ x = .stop) (h : l.step x = .ok l') :
    l'.next = l.next ∧ l'.userCode = l.userCode := by
  rcases hx with hx | rfl | rfl
  · cases x with
    | queueStart | queueStop =>
        simp only [ConnectorLoop.step] at h
        split at h <;> cases h <;> exact ⟨rfl, rfl⟩
    | start | stop | startHere | stopHere | restart | goOn | runFunctor | timer | poll
    | handleEvent | handle | handled | doPendingFunctors => cases hx
  · cases h
    exact ⟨rfl, rfl⟩
  · cases h
    exact ⟨rfl, rfl⟩

theorem Waits.step (h : Waits c) (hstep : TcpClient.step a c = .ok c') : Waits c' := by
  have hkeep : ∀ {x : ConnectorAct} {l : ConnectorLoop}, isOther x = true ∨ x = .start ∨ x = .stop →
      c.connector.step x = .ok l → c.next ≠ none → l.next = none ∧ l.userCode = true := by
    intro x l hx hl hnext
    obtain ⟨hn, hu⟩ := other_step hx hl
    rw [hn, hu]
    exact h hnext
  cases a with
  | enableRetry | connect | stop | disconnect =>
      cases hstep
      exact h
  | shutdown =>
      simp only [TcpClient.step] at hstep
      split at hstep <;> cases hstep <;> exact h
  | connectorStart =>
      simp only [TcpClient.step] at hstep
      split at hstep
      · obtain ⟨l, hl, hstep⟩ := bind_ok hstep
        cases hstep
        exact hkeep (Or.inr (Or.inl rfl)) hl
      · cases hstep
        exact h
  | connectorStop =>
      simp only [TcpClient.step] at hstep
      split at hstep
      · obtain ⟨l, hl, hstep⟩ := bind_ok hstep
        cases hstep
        exact hkeep (Or.inr (Or.inr rfl)) hl
      · cases hstep
        exact h
  | connectHere | stopHere =>
      simp only [TcpClient.step] at hstep
      split at hstep
      · rename_i hfree
        have hwaits := Waits.of_free hfree
        cases hstep
        exact fun _ => hwaits
      · cases hstep
        exact h
  | removeConnection conn =>
      simp only [TcpClient.step] at hstep
      split at hstep
      · split at hstep
        · rename_i hcond
          have hwaits := Waits.of_free hcond.1
          unfold TcpClient.removeConnection at hstep
          obtain ⟨_, -, hstep⟩ := bind_ok hstep
          cases hstep
          exact fun _ => hwaits
        · cases hstep
          exact h
      · cases hstep
        exact h
  | goOn =>
      cases hnext : c.next with
      | none =>
          simp only [TcpClient.step, hnext] at hstep
          cases hstep
          exact h
      | some call =>
          simp only [TcpClient.step, hnext] at hstep
          obtain ⟨l, -, hstep⟩ := bind_ok hstep
          cases hstep
          exact fun hc => absurd rfl hc
  | loop x =>
      simp only [TcpClient.step] at hstep
      split at hstep
      · rename_i hcond
        obtain ⟨l, hl, hstep⟩ := bind_ok hstep
        cases hstep
        obtain ⟨hconnector, -, -, hnext⟩ := c.afterStep_eq l
        intro hc
        rw [hnext] at hc
        rw [hconnector]
        rcases hcond.2 with hx | hnone
        · exact hkeep (Or.inl hx) hl hc
        · exact absurd hnone hc
      · cases hstep
        exact h

/-- A call of `stop` that is timely leaves both flags down. -/
theorem Timely.halted (h : Timely a c) (hwaits : Waits c) (hstores : storesStop a c = true)
    (hstep : TcpClient.step a c = .ok c') : Halted c' := by
  have hflag := h.flag hstores
  have hconnecting := h.connecting hstores
  have hnext := h.next hstores
  cases a with
  | connectorStop =>
      have hstopping : 0 < c.stopping := of_decide_eq_true hstores
      simp only [TcpClient.step, hstopping, if_true] at hstep
      obtain ⟨l, hl, hstep⟩ := bind_ok hstep
      cases hl
      cases hstep
      exact ⟨hflag, rfl, hconnecting, hnext⟩
  | goOn =>
      have hnext : c.next = some .stop := of_decide_eq_true hstores
      simp only [TcpClient.step, hnext] at hstep
      obtain ⟨l, hl, hstep⟩ := bind_ok hstep
      cases hstep
      obtain ⟨hloop, huser⟩ := hwaits (by rw [hnext]; nofun)
      simp only [act, ConnectorLoop.step, hloop, if_true, loopStep, huser] at hl
      cases hl
      exact ⟨hflag, rfl, hconnecting, Or.inl rfl⟩
  | enableRetry | connect | connectorStart | stop | disconnect | shutdown
  | connectHere | stopHere | removeConnection | loop => cases hstores

/-- As long as nobody calls `connect`, the flags stay down. -/
theorem Halted.stays {acts : List ClientAct} (h : Halted c)
    (hcalls : ∀ x ∈ acts, callsConnect x = false) (hrun : Lib.run TcpClient.step acts c = .ok c') :
    Halted c' :=
  run_inv_along (fun _ _ _ h hcall hstep => (h.step hcall.2 hstep).1) h
    ((along_true acts c).of_mem hcalls) hrun

/-- And with no attempt in progress, none is made, and no connection comes up. -/
theorem Halted.quiet {acts : List ClientAct} (h : Halted c) (hquiet : Quiet c.connector)
    (hcalls : ∀ x ∈ acts, callsConnect x = false) (hrun : Lib.run TcpClient.step acts c = .ok c') :
    c'.connector.connector.created = c.connector.connector.created ∧
      c'.nextConnId_ = c.nextConnId_ := by
  have hstep : ∀ a (d d' : TcpClient),
      (Halted d ∧ Quiet d.connector ∧
        d.connector.connector.created = c.connector.connector.created ∧
        d.nextConnId_ = c.nextConnId_) →
      (True ∧ callsConnect a = false) → TcpClient.step a d = .ok d' →
      Halted d' ∧ Quiet d'.connector ∧
        d'.connector.connector.created = c.connector.connector.created ∧
        d'.nextConnId_ = c.nextConnId_ := by
    rintro a d d' ⟨hd, hquiet, hcreated, hconn⟩ ⟨-, hcall⟩ hstep
    obtain ⟨hd', hworked, hconn'⟩ := hd.step hcall hstep
    obtain ⟨hquiet', hcreated', hhanded'⟩ := hquiet.worked hworked
    exact ⟨hd', hquiet', hcreated'.trans hcreated, (hconn' hhanded').trans hconn⟩
  obtain ⟨-, -, hcreated, hconn⟩ := run_inv_along hstep ⟨h, hquiet, rfl, rfl⟩
    ((along_true acts c).of_mem hcalls) hrun
  exact ⟨hcreated, hconn⟩

/-- **`stop` is final**, in every run in which the calls of `stop` are timely. -/
theorem stop_final (acts : List ClientAct) (htimely : Along step Timely acts init) :
    StopFinal acts := by
  rintro before a between b after rest c₀ c₁ c₂ c₃ c₄ rfl h₀ hstores h₁ h₂ hruns h₃ h₄ hcalls
  have hwaits : Waits c₀ := run_inv (fun _ _ _ h hstep => Waits.step h hstep) (fun hc => absurd rfl hc) h₀
  have htimely₀ : Timely a c₀ := (htimely.of_append h₀).1
  have hhalted₁ : Halted c₁ := htimely₀.halted hwaits hstores h₁
  have hhalted₂ : Halted c₂ :=
    hhalted₁.stays (fun x hx => hcalls x (List.mem_append_left _ hx)) h₂
  obtain ⟨hhalted₃, hquiet⟩ := hhalted₂.stopped hruns h₃
  exact hhalted₃.quiet hquiet (fun x hx => hcalls x (List.mem_append_right _ hx)) h₄

/-! ### Two runs -/

/-- Another thread calls `connect`, and an attempt begins. -/
def begun : List ClientAct :=
  [.enableRetry, .connect, .connectorStart, .loop .queueStart, .loop (.poll false),
    .loop .doPendingFunctors, .loop .runFunctor, .loop (.goOn .EINPROGRESS)]

/-- It calls `stop` while the attempt is in progress. -/
def stoppedInTime : List ClientAct :=
  begun ++ [.stop, .connectorStop, .loop .queueStop, .loop (.poll false), .loop .doPendingFunctors,
    .loop .runFunctor, .loop (.poll false), .loop (.timer 0), .loop .doPendingFunctors]

theorem stop_final_stoppedInTime : Along step Timely stoppedInTime init ∧ StopFinal stoppedInTime := by
  have htimely : Along step Timely stoppedInTime init := by decide
  exact ⟨htimely, stop_final stoppedInTime htimely⟩

/-- The connection comes up and is closed, and `removeConnection` decides to restart. -/
def decided : List ClientAct :=
  begun ++ [.loop (.poll true), .loop (.handleEvent false true), .loop (.handle false false),
    .loop .handled, .loop .doPendingFunctors, .loop .runFunctor, .loop (.poll false),
    .removeConnection 0]

/-- `stop` returns before `restart` is called, and its functor finds the new attempt, whose retry
timer it sets. -/
theorem restarted_behind_stop :
    ¬StopFinal (decided ++ [.stop, .connectorStop, .loop .queueStop, .goOn, .loop (.goOn .zero),
      .loop (.goOn .EINPROGRESS), .loop .doPendingFunctors, .loop .runFunctor, .loop (.poll false),
      .loop .doPendingFunctors, .loop .runFunctor, .loop (.poll false), .loop (.timer 0),
      .loop (.goOn .EINPROGRESS)]) := by
  intro h
  have hfinal := h (decided ++ [.stop]) .connectorStop
    [.loop .queueStop, .goOn, .loop (.goOn .zero), .loop (.goOn .EINPROGRESS),
      .loop .doPendingFunctors]
    (.loop .runFunctor)
    [.loop (.poll false), .loop .doPendingFunctors, .loop .runFunctor, .loop (.poll false),
      .loop (.timer 0), .loop (.goOn .EINPROGRESS)]
    [] _ _ _ _ _ rfl rfl rfl rfl rfl rfl rfl rfl (by decide)
  exact absurd hfinal.1 (by decide)

end TcpClient

end Net
