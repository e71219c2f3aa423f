/-
One attempt at a time.

The connector keeps to one attempt as long as nobody begins another one beside it: what runs
`startInLoop` must find it disconnected, a new attempt must find that the channel of the one
before is gone, `restart` must not come in the middle of an attempt, and `stop` must not be
called by the handler of another channel while the event of its own is waiting.  These are
exactly the runs in which no assertion fails and no socket gets lost.
-/
import Muduo.Net.Connector

namespace Net

open Lib

namespace Connector

/-! ### What is to hold of the sockets and channels -/

/-- How often a socket has been closed or handed over. -/
def settled (c : Connector) (sockfd : Nat) : Nat := c.closed.count sockfd + c.handed.count sockfd

/-- One channel at most is known to the poller, each socket is closed or handed over once, or
it is that of the channel, and no channel is destroyed that the poller knows. -/
structure Sane (c : Connector) : Prop where
  single : ((c.channel.map Prod.snd).toList ++ c.destroyed).countP (·.polled) ≤ 1
  accounted : ∀ fd < c.created, c.settled fd = 1 ∨ c.settled fd = 0 ∧ c.state = .kConnecting ∧
    ∃ channel, c.channel = some (fd, channel) ∧ channel.polled = true
  only : ∀ fd, c.created ≤ fd → c.settled fd = 0
  unregistered : ∀ channel ∈ c.destroyed, channel.polled = false

/-- Where an attempt stands, with the number of queued calls of `resetChannel`. -/
inductive Attempt (c : Connector) : Nat → Prop
  | none (hchannel : c.channel = none) (hstate : c.state ≠ .kConnecting) : Attempt c 0
  /-- In progress. -/
  | waiting (fd : Nat) (hchannel : c.channel = some (fd, .waiting)) (hstate : c.state = .kConnecting)
      (hfd : fd < c.created) (hopen : c.settled fd = 0) : Attempt c 0
  /-- Over, with the channel still to be destroyed. -/
  | removed (fd : Nat) (hchannel : c.channel = some (fd, .init)) (hstate : c.state ≠ .kConnecting) :
      Attempt c 1

/-- What the functions of the connector keep. -/
structure Kept (c : Connector) (resets : Nat) : Prop where
  attempt : Attempt c resets
  accounted : ∀ fd < c.created, c.settled fd = 1 ∨
    c.settled fd = 0 ∧ c.state = .kConnecting ∧ c.channel = some (fd, .waiting)
  only : ∀ fd, c.created ≤ fd → c.settled fd = 0
  unregistered : ∀ channel ∈ c.destroyed, channel.polled = false

variable {c c' : Connector} {resets : Nat} {loop : Handling}

theorem Kept.sane (h : Kept c resets) : Sane c := by
  refine ⟨?_, fun fd hfd => ?_, h.only, h.unregistered⟩
  · have hzero : c.destroyed.countP (·.polled) = 0 := by
      refine List.countP_eq_zero.mpr fun channel hmem => ?_
      rw [h.unregistered channel hmem]
      exact Bool.false_ne_true
    rw [List.countP_append, hzero, Nat.add_zero]
    refine List.countP_le_length.trans ?_
    cases c.channel with
    | none => exact Nat.zero_le 1
    | some p => exact Nat.le_refl 1
  · rcases h.accounted fd hfd with hone | ⟨hzero, hstate, hchannel⟩
    · exact Or.inl hone
    · exact Or.inr ⟨hzero, hstate, .waiting, hchannel, rfl⟩

theorem kept_init : Kept init 0 where
  attempt := .none rfl nofun
  accounted := nofun
  only := fun _ _ => rfl
  unregistered := nofun

/-- The flag, the delay, the functors and the timers do not matter. -/
theorem Kept.flags (h : Kept c resets) (connect_ : Bool) (retryDelayMs : Nat)
    (pendingFunctors : List Functor) (retryTimers : List Nat) :
    Kept { c with
      connect_ := connect_
      retryDelayMs := retryDelayMs
      pendingFunctors := pendingFunctors
      retryTimers := retryTimers } resets := by
  refine ⟨?_, h.accounted, h.only, h.unregistered⟩
  cases h.attempt with
  | none hchannel hstate => exact .none hchannel hstate
  | waiting fd hchannel hstate hfd hopen => exact .waiting fd hchannel hstate hfd hopen
  | removed fd hchannel hstate => exact .removed fd hchannel hstate

/-- The channel of the attempt that is in progress. -/
theorem Kept.channel (h : Kept c resets) (hstate : c.state = .kConnecting) :
    resets = 0 ∧ ∃ fd < c.created, c.channel = some (fd, .waiting) ∧ c.settled fd = 0 := by
  cases h.attempt with
  | none _ hnot => exact absurd hstate hnot
  | waiting fd hchannel _ hfd hopen => exact ⟨rfl, fd, hfd, hchannel, hopen⟩
  | removed _ _ hnot => exact absurd hstate hnot

/-- Outside of an attempt the state may change. -/
theorem Kept.setState (h : Kept c resets) (hstate : c.state ≠ .kConnecting) {s : States}
    (hs : s ≠ .kConnecting) : Kept { c with state := s } resets := by
  refine ⟨?_, fun fd hfd => ?_, h.only, h.unregistered⟩
  · cases h.attempt with
    | none hchannel _ => exact .none hchannel hs
    | waiting _ _ hconnecting => exact absurd hconnecting hstate
    | removed fd hchannel _ => exact .removed fd hchannel hs
  · rcases h.accounted fd hfd with hone | ⟨-, hconnecting, -⟩
    · exact Or.inl hone
    · exact absurd hconnecting hstate

/-- The attempt is over: its socket is closed or handed over, and its channel removed. -/
theorem Kept.over (h : Kept c resets) (hstate : c.state = .kConnecting) {fd : Nat}
    (hchannel : c.channel = some (fd, .waiting)) (hchannel' : c'.channel = some (fd, .init))
    (hstate' : c'.state ≠ .kConnecting) (hcreated : c'.created = c.created)
    (hsettled : ∀ n, c'.settled n = c.settled n + if n = fd then 1 else 0)
    (hdestroyed : c'.destroyed = c.destroyed) : Kept c' (resets + 1) := by
  obtain ⟨rfl, fd', hfd, hfd', hopen⟩ := h.channel hstate
  rw [hchannel] at hfd'
  cases hfd'
  refine ⟨.removed fd hchannel' hstate', fun n hn => ?_, fun n hn => ?_, ?_⟩
  · rw [hsettled]
    by_cases hnfd : n = fd
    · rw [if_pos hnfd, hnfd, hopen]
      exact Or.inl rfl
    · rw [if_neg hnfd]
      rcases h.accounted n (hcreated ▸ hn) with hone | ⟨-, -, hn'⟩
      · exact Or.inl hone
      · rw [hchannel] at hn'
        cases hn'
        exact absurd rfl hnfd
  · rw [hsettled, h.only n (hcreated ▸ hn), if_neg]
    rw [hcreated] at hn
    omega
  · rw [hdestroyed]
    exact h.unregistered

/-- A socket is created, and closed at once. -/
theorem Kept.failed (h : Kept c resets) (hstate : c.state ≠ .kConnecting)
    (hchannel : c'.channel = c.channel) (hstate' : c'.state ≠ .kConnecting)
    (hcreated : c'.created = c.created + 1)
    (hsettled : ∀ n, c'.settled n = c.settled n + if n = c.created then 1 else 0)
    (hdestroyed : c'.destroyed = c.destroyed) : Kept c' resets := by
  refine ⟨?_, fun n hn => ?_, fun n hn => ?_, ?_⟩
  · cases h.attempt with
    | none hnone _ => exact .none (hchannel.trans hnone) hstate'
    | waiting _ _ hconnecting => exact absurd hconnecting hstate
    | removed fd hremoved _ => exact .removed fd (hchannel.trans hremoved) hstate'
  · rw [hsettled]
    by_cases hlast : n = c.created
    · rw [if_pos hlast, hlast, h.only c.created (Nat.le_refl _)]
      exact Or.inl rfl
    · rw [if_neg hlast]
      rcases h.accounted n (by omega) with hone | ⟨-, hconnecting, -⟩
      · exact Or.inl hone
      · exact absurd hconnecting hstate
  · rw [hsettled, h.only n (by omega), if_neg (by omega)]
  · rw [hdestroyed]
    exact h.unregistered

private theorem count_concat (l : List Nat) (a n : Nat) :
    (l ++ [a]).count n = l.count n + if n = a then 1 else 0 := by
  rw [List.count_append, List.count_singleton]
  by_cases hn : n = a
  · simp [hn]
  · have hne : (a == n) = false := beq_false_of_ne (Ne.symm hn)
    simp [hn, hne]

theorem settled_close (c : Connector) (sockfd n : Nat) :
    (c.close sockfd).settled n = c.settled n + if n = sockfd then 1 else 0 := by
  show (c.closed ++ [sockfd]).count n + c.handed.count n = c.closed.count n + c.handed.count n + _
  rw [count_concat, Nat.add_right_comm]

theorem settled_handed (c : Connector) (sockfd n : Nat) :
    ({ c with handed := c.handed ++ [sockfd] } : Connector).settled n
      = c.settled n + if n = sockfd then 1 else 0 := by
  show c.closed.count n + (c.handed ++ [sockfd]).count n = c.closed.count n + _ + _
  rw [count_concat, Nat.add_assoc]

/-! ### The functions -/

/-- `retry` closes the socket, and may set a timer. -/
theorem retry_eq (c : Connector) (sockfd : Nat) : ∃ retryTimers retryDelayMs,
    c.retry sockfd = { c.close sockfd with
      state := .kDisconnected, retryTimers := retryTimers, retryDelayMs := retryDelayMs } := by
  unfold retry
  simp only
  by_cases hconnect : (c.close sockfd).connect_ = true
  · rw [if_pos hconnect]
    exact ⟨_, _, rfl⟩
  · rw [if_neg hconnect]
    exact ⟨_, _, rfl⟩

/-- The loop lets the channel be removed. -/
def Removable (loop : Handling) : Prop :=
  loop.eventHandling = true → loop.current = true ∨ loop.active = false

theorem removeAndResetChannel_waiting {fd : Nat} (hchannel : c.channel = some (fd, .waiting))
    (hloop : Removable loop) : c.removeAndResetChannel loop = .ok (fd, { c with
      channel := some (fd, .init)
      pendingFunctors := c.pendingFunctors ++ [.resetChannel] }) := by
  unfold removeAndResetChannel
  rw [hchannel]
  simp only [Channel.disableAll_waiting]
  show (Channel.closed.remove loop >>= _) = _
  rw [Channel.remove_closed hloop]
  rfl

/-- What the end of an attempt leaves. -/
structure Over (c c' : Connector) (resets : Nat) : Prop where
  kept : Kept c' (resets + 1)
  state : c'.state ≠ .kConnecting
  pendingFunctors : c'.pendingFunctors = c.pendingFunctors ++ [.resetChannel]

/-- An attempt that has failed. -/
theorem Kept.retried (h : Kept c resets) (hstate : c.state = .kConnecting) {fd : Nat}
    (hchannel : c.channel = some (fd, .waiting)) {s : States} :
    Over c (retry { c with
      state := s
      channel := some (fd, .init)
      pendingFunctors := c.pendingFunctors ++ [.resetChannel] } fd) resets := by
  obtain ⟨retryTimers, retryDelayMs, heq⟩ := retry_eq { c with
      state := s
      channel := some (fd, .init)
      pendingFunctors := c.pendingFunctors ++ [.resetChannel] } fd
  rw [heq]
  exact ⟨h.over hstate hchannel rfl nofun rfl (settled_close c fd) rfl, nofun, rfl⟩

theorem Kept.stopInLoop (h : Kept c resets) (hloop : c.state = .kConnecting → Removable loop) :
    ∃ c', c.stopInLoop loop = .ok c' ∧
      (c.state = .kConnecting ∧ c'.state = .kDisconnected ∧ Over c c' resets ∨
        c.state ≠ .kConnecting ∧ c' = c) := by
  unfold Connector.stopInLoop
  by_cases hstate : c.state = .kConnecting
  · obtain ⟨-, fd, -, hchannel, -⟩ := h.channel hstate
    rw [if_pos hstate, removeAndResetChannel_waiting (c := { c with state := .kDisconnected })
      hchannel (hloop hstate)]
    have hover := h.retried hstate hchannel (s := .kDisconnected)
    refine ⟨_, rfl, Or.inl ⟨hstate, ?_, hover⟩⟩
    obtain ⟨_, _, heq⟩ := retry_eq _ fd
    rw [heq]
  · rw [if_neg hstate]
    exact ⟨c, rfl, Or.inr ⟨hstate, rfl⟩⟩

theorem Kept.handleError (h : Kept c resets) (hstate : c.state = .kConnecting)
    (hloop : Removable loop) :
    ∃ c', c.handleError loop = .ok c' ∧ c'.state = .kDisconnected ∧ Over c c' resets := by
  obtain ⟨-, fd, -, hchannel, -⟩ := h.channel hstate
  unfold Connector.handleError
  rw [assertThat_of hstate]
  show ∃ c', (c.removeAndResetChannel loop >>= _) = _ ∧ _
  rw [removeAndResetChannel_waiting hchannel hloop]
  refine ⟨_, rfl, ?_, h.retried hstate hchannel (s := c.state)⟩
  obtain ⟨_, _, heq⟩ := retry_eq _ fd
  rw [heq]

/-- Another event than that of the attempt is ignored. -/
theorem handleWrite_disconnected (hstate : c.state = .kDisconnected) (err isSelfConnect : Bool) :
    c.handleWrite loop err isSelfConnect = .ok c := by
  unfold Connector.handleWrite
  rw [if_neg (by rw [hstate]; nofun), assertThat_of hstate]
  rfl

theorem Kept.handleWrite (h : Kept c resets) (hstate : c.state = .kConnecting)
    (hloop : Removable loop) (err isSelfConnect : Bool) :
    ∃ c', c.handleWrite loop err isSelfConnect = .ok c' ∧ Over c c' resets := by
  obtain ⟨-, fd, -, hchannel, -⟩ := h.channel hstate
  unfold Connector.handleWrite
  rw [if_pos hstate, removeAndResetChannel_waiting hchannel hloop]
  cases err with
  | true => exact ⟨_, rfl, h.retried hstate hchannel (s := c.state)⟩
  | false =>
      cases isSelfConnect with
      | true => exact ⟨_, rfl, h.retried hstate hchannel (s := c.state)⟩
      | false =>
          by_cases hconnect : c.connect_ = true
          · refine ⟨_, if_pos hconnect, ⟨?_, nofun, rfl⟩⟩
            exact h.over hstate hchannel rfl nofun rfl (settled_handed c fd) rfl
          · refine ⟨_, if_neg hconnect, ⟨?_, nofun, rfl⟩⟩
            exact h.over hstate hchannel rfl nofun rfl (settled_close c fd) rfl

theorem connect_of_inProgress {savedErrno : Errno} (h : savedErrno.inProgress = true) :
    c.connect savedErrno = connecting { c with created := c.created + 1 } c.created := by
  cases savedErrno <;> first | rfl | cases h

/-- A socket that is not of use is closed. -/
theorem connect_of_not_inProgress {savedErrno : Errno} (h : ¬savedErrno.inProgress = true) :
    c.connect savedErrno = .ok (retry { c with created := c.created + 1 } c.created) ∨
      c.connect savedErrno = .ok (close { c with created := c.created + 1 } c.created) := by
  cases savedErrno <;> first | exact Or.inl rfl | exact Or.inr rfl | exact absurd rfl h

/-- A new attempt begins, or has failed already. -/
theorem Kept.connect (h : Kept c resets) (hstate : c.state = .kDisconnected) {savedErrno : Errno}
    (hchannel : savedErrno.inProgress = true → c.channel = none) :
    ∃ c', c.connect savedErrno = .ok c' ∧ Kept c' resets ∧
      c'.pendingFunctors = c.pendingFunctors := by
  have hnot : c.state ≠ .kConnecting := by
    rw [hstate]
    nofun
  by_cases hprogress : savedErrno.inProgress = true
  · have hnone := hchannel hprogress
    rw [connect_of_inProgress hprogress]
    unfold Connector.connecting
    simp only [hnone, assertThat_of]
    refine ⟨_, rfl, ⟨?_, fun n hn => ?_, fun n hn => h.only n (Nat.le_of_succ_le hn),
      h.unregistered⟩, rfl⟩
    · cases h.attempt with
      | none => exact .waiting c.created rfl rfl (Nat.lt_succ_self _) (h.only c.created (Nat.le_refl _))
      | waiting _ hsome => rw [hnone] at hsome; cases hsome
      | removed _ hsome => rw [hnone] at hsome; cases hsome
    · by_cases hlast : n = c.created
      · subst hlast
        exact Or.inr ⟨h.only c.created (Nat.le_refl _), rfl, rfl⟩
      · have hn : n < c.created + 1 := hn
        rcases h.accounted n (by omega) with hone | ⟨-, hconnecting, -⟩
        · exact Or.inl hone
        · exact absurd hconnecting hnot
  · rcases connect_of_not_inProgress (c := c) hprogress with heq | heq
    · obtain ⟨retryTimers, retryDelayMs, hretry⟩ :=
        retry_eq { c with created := c.created + 1 } c.created
      rw [heq, hretry]
      exact ⟨_, rfl, h.failed hnot rfl nofun rfl (settled_close c c.created) rfl, rfl⟩
    · rw [heq]
      exact ⟨_, rfl, h.failed hnot rfl hnot rfl (settled_close c c.created) rfl, rfl⟩

/-- What `resetChannel` destroys is the removed channel of an attempt that is over. -/
theorem Kept.resetChannel (h : Kept c (resets + 1)) : Kept c.resetChannel resets := by
  generalize hresets : resets + 1 = n at h
  cases h.attempt with
  | none => omega
  | waiting => omega
  | removed fd hchannel hstate =>
      obtain rfl : resets = 0 := by omega
      refine ⟨.none rfl hstate, fun n hn => ?_, h.only, fun channel hmem => ?_⟩
      · rcases h.accounted n hn with hone | ⟨-, hconnecting, -⟩
        · exact Or.inl hone
        · exact absurd hconnecting hstate
      · unfold Connector.resetChannel at hmem
        rw [hchannel] at hmem
        rcases List.mem_append.mp hmem with hmem | hmem
        · exact h.unregistered channel hmem
        · rw [List.mem_singleton.mp hmem]
          rfl

end Connector

namespace ConnectorLoop

open Connector

/-! ### What is asked of the calls -/

/-- The step runs `startInLoop`. -/
def starts : ConnectorAct → ConnectorLoop → Bool
  | .goOn _, l => decide (l.next = some .startInLoop)
  | .runFunctor, l =>
      match l.next, l.phase with
      | none, .functors (.startInLoop :: _) => true
      | _, _ => false
  | .timer i, l =>
      match l.next, l.phase with
      | none, .events _ _ => decide (i < l.connector.retryTimers.length)
      | _, _ => false
  | _, _ => false

/-- The step begins an attempt. -/
def connects : ConnectorAct → ConnectorLoop → Bool
  | .goOn savedErrno, l => decide (l.next = some .connect) && savedErrno.inProgress
  | _, _ => false

/-- The step is a call of `restart`. -/
def restarts : ConnectorAct → ConnectorLoop → Bool
  | .restart, l => decide (l.next = none) && l.userCode
  | _, _ => false

/-- The step runs `stopInLoop` in a call of `stop`. -/
def stops : ConnectorAct → ConnectorLoop → Bool
  | .goOn _, l => decide (l.next = some .stopInLoop)
  | _, _ => false

/-- The channel is among the active ones, and it is not its turn. -/
def active : Connector.Phase → Bool
  | .events active _ => active
  | _ => false

/-- Nobody begins an attempt beside another, and nobody gives one up behind its back. -/
structure May (a : ConnectorAct) (l : ConnectorLoop) : Prop where
  /-- There is no attempt, and no connection. -/
  free : starts a l = true → l.connector.state = .kDisconnected
  /-- The channel of the attempt before is gone. -/
  reset : connects a l = true → l.connector.channel = none
  idle : restarts a l = true → l.connector.state ≠ .kConnecting
  inactive : stops a l = true → l.connector.state = .kConnecting → active l.phase = false

instance (a : ConnectorAct) (l : ConnectorLoop) : Decidable (May a l) :=
  decidable_of_iff (((starts a l = true → l.connector.state = .kDisconnected) ∧
      (connects a l = true → l.connector.channel = none)) ∧
      (restarts a l = true → l.connector.state ≠ .kConnecting) ∧
      (stops a l = true → l.connector.state = .kConnecting → active l.phase = false))
    ⟨fun h => ⟨h.1.1, h.1.2, h.2.1, h.2.2⟩, fun h => ⟨⟨h.free, h.reset⟩, h.idle, h.inactive⟩⟩

/-! ### What the steps keep -/

def batch : Connector.Phase → List Functor
  | .functors batch => batch
  | _ => []

/-- The queued calls of `resetChannel`. -/
def resets (l : ConnectorLoop) : Nat :=
  (batch l.phase).count .resetChannel + l.connector.pendingFunctors.count .resetChannel

structure LoopKept (l : ConnectorLoop) : Prop where
  kept : Kept l.connector (resets l)
  active : l.phase = .events true true → l.connector.state = .kConnecting
  error : ∀ user write, l.phase = .handling user true write → l.connector.state = .kConnecting
  write : ∀ user error, l.phase = .handling user error true → l.connector.state ≠ .kConnected
  user : ∀ error write, l.phase = .handling true error write → error = false ∧ write = false
  next : l.next = some .connect → l.connector.state = .kDisconnected
  calling : l.next ≠ none → l.userCode = true

theorem loopKept_init : LoopKept init := ⟨kept_init, nofun, nofun, nofun, nofun, nofun, nofun⟩

variable {l l' : ConnectorLoop}

/-- The flag and the queue may change, as long as no `resetChannel` gets lost. -/
theorem LoopKept.flags (h : LoopKept l) (connect_ : Bool) {pendingFunctors : List Functor}
    (retryTimers : List Nat) (starting stopping : Nat)
    (hcount : pendingFunctors.count .resetChannel = l.connector.pendingFunctors.count .resetChannel) :
    LoopKept { l with
      connector := { l.connector with
        connect_ := connect_
        pendingFunctors := pendingFunctors
        retryTimers := retryTimers }
      starting := starting
      stopping := stopping } := by
  refine ⟨?_, h.active, h.error, h.write, h.user, h.next, h.calling⟩
  show Kept _ ((batch l.phase).count _ + pendingFunctors.count _)
  rw [hcount]
  exact h.kept.flags connect_ _ pendingFunctors retryTimers

theorem count_append_one (fs : List Functor) {f : Functor} (hf : f ≠ .resetChannel) :
    (fs ++ [f]).count .resetChannel = fs.count .resetChannel := by
  rw [List.count_append, List.count_singleton, beq_false_of_ne hf]
  rfl

theorem LoopKept.startInLoop (h : LoopKept l) (hfree : l.connector.state = .kDisconnected)
    (huser : l.userCode = true) : ∃ l', l.startInLoop = .ok l' ∧ LoopKept l' := by
  unfold ConnectorLoop.startInLoop
  rw [assertThat_of hfree]
  exact ⟨_, rfl, h.kept, h.active, h.error, h.write, h.user, fun _ => hfree, fun _ => huser⟩

/-- User code is run by the last handler. -/
theorem LoopKept.last (h : LoopKept l) (huser : l.userCode = true) {user error write : Bool}
    (hphase : l.phase = .handling user error write) : error = false ∧ write = false := by
  rw [userCode, hphase] at huser
  have huser : user = true := huser
  rw [huser] at hphase
  exact h.user error write hphase

theorem removable_of_inactive {phase : Connector.Phase} (h : ConnectorLoop.active phase = false) :
    Removable (handlingOf phase) := by
  intro heventHandling
  cases phase with
  | functors batch => cases heventHandling
  | events active pending => exact Or.inr h
  | handling user error write => exact Or.inl rfl

theorem LoopKept.stopInLoop (h : LoopKept l) (huser : l.userCode = true)
    (hinactive : l.connector.state = .kConnecting → ConnectorLoop.active l.phase = false) :
    ∃ l', l.stopInLoop = .ok l' ∧ LoopKept l' := by
  obtain ⟨c, hc, hcases⟩ :=
    h.kept.stopInLoop fun hs => removable_of_inactive (hinactive hs)
  unfold ConnectorLoop.stopInLoop
  rw [hc]
  refine ⟨_, rfl, ?_⟩
  rcases hcases with ⟨hstate, hstate', hover⟩ | ⟨-, rfl⟩
  · refine ⟨?_, fun hphase => ?_, fun user write hphase => ?_, fun user error _ => ?_, h.user,
      nofun, nofun⟩
    · show Kept c ((batch l.phase).count _ + c.pendingFunctors.count _)
      rw [hover.pendingFunctors, List.count_append, ← Nat.add_assoc]
      exact hover.kept
    · have hphase : l.phase = .events true true := hphase
      have hnot := hinactive hstate
      rw [hphase] at hnot
      cases hnot
    · cases (h.last huser hphase).1
    · show c.state ≠ _
      rw [hstate']
      nofun
  · exact ⟨h.kept, h.active, h.error, h.write, h.user, nofun, nofun⟩

theorem LoopKept.goOn (h : LoopKept l) {savedErrno : Errno} {call : Call} (hnext : l.next = some call)
    (hmay : May (.goOn savedErrno) l) : ∃ l', l.goOn savedErrno call = .ok l' ∧ LoopKept l' := by
  have huser : l.userCode = true := h.calling (by rw [hnext]; nofun)
  cases call with
  | startInLoop => exact h.startInLoop (hmay.free (by simp [starts, hnext])) huser
  | stopInLoop => exact h.stopInLoop huser (hmay.inactive (by simp [stops, hnext]))
  | connect =>
      have hstate := h.next hnext
      obtain ⟨c, hc, hkept, hpending⟩ := h.kept.connect hstate
        fun (hprogress : savedErrno.inProgress = true) =>
          hmay.reset (by simp [connects, hnext, hprogress])
      unfold ConnectorLoop.goOn
      rw [hc]
      refine ⟨_, rfl, ?_, fun hphase => ?_, fun user write hphase => ?_, fun user error hphase => ?_,
        h.user, nofun, nofun⟩
      · show Kept c ((batch l.phase).count _ + c.pendingFunctors.count _)
        rw [hpending]
        exact hkept
      · have hconnecting := h.active hphase
        rw [hstate] at hconnecting
        cases hconnecting
      · cases (h.last huser hphase).1
      · cases (h.last huser hphase).2

theorem LoopKept.runFunctor (h : LoopKept l) (hnext : l.next = none) {f : Functor}
    {rest : List Functor} (hphase : l.phase = .functors (f :: rest)) (hmay : May .runFunctor l) :
    ∃ l', runFunctor { l with phase := .functors rest } f = .ok l' ∧ LoopKept l' := by
  have hfunctors : f ≠ .resetChannel → LoopKept { l with phase := .functors rest } := by
    intro hf
    refine ⟨?_, nofun, nofun, nofun, nofun, h.next, fun _ => rfl⟩
    have hcount : resets l = resets { l with phase := .functors rest } := by
      simp only [resets, hphase, batch]
      rw [List.count_cons_of_ne hf]
    rw [← hcount]
    exact h.kept
  cases f with
  | startInLoop =>
      exact (hfunctors nofun).startInLoop (hmay.free (by simp [starts, hnext, hphase])) rfl
  | stopInLoop => exact (hfunctors nofun).stopInLoop rfl fun _ => rfl
  | resetChannel =>
      refine ⟨_, rfl, ?_, nofun, nofun, nofun, nofun, fun hc => ?_, fun _ => rfl⟩
      · have hcount : resets l = resets { l with phase := .functors rest } + 1 := by
          simp only [resets, hphase, batch]
          rw [List.count_cons_self]
          omega
        have hkept := h.kept
        rw [hcount] at hkept
        exact hkept.resetChannel
      · have hc : l.next = some .connect := hc
        rw [hnext] at hc
        cases hc

/-- The attempt is over, and its handler too. -/
theorem LoopKept.over (hnext : l.next = none) {c : Connector} {user write : Bool}
    (hphase : batch l.phase = []) (hover : Over l.connector c (resets l))
    (hwrite : write = true → c.state ≠ .kConnected) (huser : user = true → write = false) :
    LoopKept { l with connector := c, phase := .handling user false write } := by
  have hcount : resets { l with connector := c, phase := .handling user false write }
      = resets l + 1 := by
    show (batch (.handling user false write)).count _ + c.pendingFunctors.count .resetChannel
      = (batch l.phase).count .resetChannel + _ + 1
    rw [hphase, hover.pendingFunctors, List.count_append, List.count_singleton_self, ← Nat.add_assoc]
    rfl
  refine ⟨?_, nofun, ?_, ?_, ?_, fun hc => ?_, fun hc => absurd hnext hc⟩
  · rw [hcount]
    exact hover.kept
  · rintro _ _ ⟨⟩
  · intro _ _ heq
    injection heq with _ _ hw
    exact hwrite hw
  · intro _ _ heq
    injection heq with hu he hw
    exact ⟨he.symm, hw ▸ huser hu⟩
  · have hc : l.next = some .connect := hc
    rw [hnext] at hc
    cases hc

theorem LoopKept.handle (h : LoopKept l) (hnext : l.next = none) (err isSelfConnect : Bool) :
    ∃ l', l.handle err isSelfConnect = .ok l' ∧ LoopKept l' := by
  have hcurrent : ∀ {user error write : Bool}, l.phase = .handling user error write →
      Removable (handlingOf l.phase) := by
    intro user error write hphase
    rw [hphase]
    exact fun _ => Or.inl rfl
  unfold ConnectorLoop.handle
  split
  · rename_i user write hphase
    obtain ⟨c, hc, hstate, hover⟩ :=
      h.kept.handleError (h.error user write hphase) (hcurrent hphase)
    rw [hc]
    refine ⟨_, rfl, LoopKept.over hnext (by rw [hphase]; rfl) hover (fun _ => ?_) nofun⟩
    rw [hstate]
    nofun
  · rename_i user hphase
    by_cases hstate : l.connector.state = .kConnecting
    · obtain ⟨c, hc, hover⟩ := h.kept.handleWrite hstate (hcurrent hphase) err isSelfConnect
      rw [hc]
      exact ⟨_, rfl, LoopKept.over hnext (by rw [hphase]; rfl) hover nofun fun _ => rfl⟩
    · have hdisconnected : l.connector.state = .kDisconnected := by
        have hnot := h.write user false hphase
        cases hs : l.connector.state with
        | kDisconnected => rfl
        | kConnecting => exact absurd hs hstate
        | kConnected => exact absurd hs hnot
      rw [handleWrite_disconnected hdisconnected]
      refine ⟨_, rfl, ?_, nofun, ?_, ?_, ?_, h.next, fun hc => absurd hnext hc⟩
      · have hcount : resets l = resets { l with phase := .handling false false false } := by
          simp only [resets, hphase, batch]
        have hkept := h.kept
        rw [hcount] at hkept
        exact hkept.flags _ _ _ _
      · rintro _ _ ⟨⟩
      · rintro _ _ ⟨⟩
      · intro _ _ heq
        injection heq with _ he hw
        exact ⟨he.symm, hw.symm⟩
  · exact ⟨l, rfl, h⟩

theorem state_of_watched (h : LoopKept l) (hwatched : l.watched = true) :
    l.connector.state = .kConnecting := by
  unfold watched at hwatched
  have hattempt := h.kept.attempt
  generalize resets l = n at hattempt
  cases hattempt with
  | none hchannel =>
      rw [hchannel] at hwatched
      cases hwatched
  | waiting _ _ hstate => exact hstate
  | removed fd hchannel =>
      rw [hchannel] at hwatched
      cases hwatched

/-- A step of the loop thread that is not in a call. -/
theorem LoopKept.loopStep (h : LoopKept l) (hnext : l.next = none) {a : ConnectorAct}
    (hmay : May a l) : ∃ l', loopStep a l = .ok l' ∧ LoopKept l' := by
  have hstay : ∃ l', (.ok l : Except Fault ConnectorLoop) = .ok l' ∧ LoopKept l' := ⟨l, rfl, h⟩
  have hquiet : ∀ phase, (batch phase).count .resetChannel = (batch l.phase).count .resetChannel →
      Kept l.connector (resets { l with phase := phase }) := by
    intro phase hcount
    show Kept l.connector ((batch phase).count _ + _)
    rw [hcount]
    exact h.kept
  cases a with
  | start | queueStart | stop | queueStop | goOn => exact hstay
  | startHere =>
      by_cases huser : l.userCode = true
      · refine ⟨_, if_pos huser, ?_, h.active, h.error, h.write, h.user, nofun, fun _ => huser⟩
        exact h.kept.flags true _ _ _
      · exact ⟨l, if_neg huser, h⟩
  | stopHere =>
      by_cases huser : l.userCode = true
      · refine ⟨_, if_pos huser, ?_, h.active, h.error, h.write, h.user, nofun, fun _ => huser⟩
        exact h.kept.flags false _ _ _
      · exact ⟨l, if_neg huser, h⟩
  | restart =>
      by_cases huser : l.userCode = true
      · have hidle := hmay.idle (by simp [restarts, hnext, huser])
        refine ⟨_, if_pos huser, ?_, fun hphase => ?_, fun user write hphase => ?_, ?_, h.user,
          nofun, fun _ => huser⟩
        · exact (h.kept.setState hidle (s := .kDisconnected) nofun).flags true kInitRetryDelayMs _ _
        · exact absurd (h.active hphase) hidle
        · exact absurd (h.error user write hphase) hidle
        · exact fun _ _ _ => nofun
      · exact ⟨l, if_neg huser, h⟩
  | runFunctor =>
      simp only [ConnectorLoop.loopStep]
      split
      · rename_i f rest hphase
        exact h.runFunctor hnext hphase hmay
      · exact hstay
  | timer i =>
      simp only [ConnectorLoop.loopStep]
      split
      · rename_i active pending hphase
        by_cases hi : i < l.connector.retryTimers.length
        · rw [if_pos hi]
          have hfree := hmay.free (by simp [starts, hnext, hphase, hi])
          have hfired := h.flags l.connector.connect_ (l.connector.retryTimers.eraseIdx i)
            l.starting l.stopping rfl
          exact hfired.startInLoop hfree (by simp [userCode, hphase])
        · rw [if_neg hi]
          exact hstay
      · exact hstay
  | poll active =>
      simp only [ConnectorLoop.loopStep]
      split
      · rename_i hphase
        by_cases hwatched : active = true ∧ l.watched = false
        · rw [if_pos hwatched]
          exact hstay
        · rw [if_neg hwatched]
          refine ⟨_, rfl, hquiet _ (by rw [hphase]; rfl), fun heq => ?_, nofun, nofun, nofun, h.next,
            fun _ => rfl⟩
          injection heq with hactive
          have hstate := state_of_watched h (by simpa [hactive] using hwatched)
          exact hstate
      · exact hstay
  | handleEvent error write =>
      simp only [ConnectorLoop.loopStep]
      split
      · rename_i hphase
        have hstate := h.active hphase
        refine ⟨_, rfl, hquiet _ (by rw [hphase]; rfl), nofun, fun _ _ _ => hstate, fun _ _ _ => ?_,
          nofun, h.next, fun hc => absurd hnext hc⟩
        show l.connector.state ≠ _
        rw [hstate]
        nofun
      · exact hstay
  | handle err isSelfConnect => exact h.handle hnext err isSelfConnect
  | handled =>
      simp only [ConnectorLoop.loopStep]
      split
      · rename_i hphase
        exact ⟨_, rfl, hquiet _ (by rw [hphase]; rfl), nofun, nofun, nofun, nofun, h.next,
          fun _ => rfl⟩
      · exact hstay
  | doPendingFunctors =>
      simp only [ConnectorLoop.loopStep]
      split
      · rename_i hphase
        refine ⟨_, rfl, ?_, nofun, nofun, nofun, nofun, h.next, fun _ => rfl⟩
        have heq : resets l = l.connector.pendingFunctors.count .resetChannel + 0 := by
          simp only [resets, hphase, batch, List.count_nil, Nat.zero_add, Nat.add_zero]
        have hkept := h.kept
        rw [heq] at hkept
        exact hkept.flags _ _ [] _
      · exact hstay

/-- One step under the conditions. -/
theorem LoopKept.step (h : LoopKept l) {a : ConnectorAct} (hmay : May a l) :
    ∃ l', step a l = .ok l' ∧ LoopKept l' := by
  have hloop : ∃ l', (if l.next = none then ConnectorLoop.loopStep a l else .ok l) = .ok l' ∧
      LoopKept l' := by
    by_cases hnext : l.next = none
    · rw [if_pos hnext]
      exact h.loopStep hnext hmay
    · rw [if_neg hnext]
      exact ⟨l, rfl, h⟩
  cases a with
  | start => exact ⟨_, rfl, h.flags true _ _ _ rfl⟩
  | stop => exact ⟨_, rfl, h.flags false _ _ _ rfl⟩
  | queueStart =>
      by_cases hstarting : 0 < l.starting
      · exact ⟨_, if_pos hstarting, h.flags _ _ _ _ (count_append_one _ nofun)⟩
      · exact ⟨l, if_neg hstarting, h⟩
  | queueStop =>
      by_cases hstopping : 0 < l.stopping
      · exact ⟨_, if_pos hstopping, h.flags _ _ _ _ (count_append_one _ nofun)⟩
      · exact ⟨l, if_neg hstopping, h⟩
  | goOn savedErrno =>
      cases hnext : l.next with
      | none => exact ⟨l, by simp only [ConnectorLoop.step, hnext], h⟩
      | some call =>
          obtain ⟨l', hl', hkept⟩ := h.goOn hnext hmay
          exact ⟨l', by simp only [ConnectorLoop.step, hnext, hl'], hkept⟩
  | startHere | stopHere | restart | runFunctor | timer | poll | handleEvent | handle | handled
  | doPendingFunctors => exact hloop

/-! ### The conditions are needed -/

theorem startInLoop_ok (h : l.startInLoop = .ok l') : l.connector.state = .kDisconnected := by
  unfold ConnectorLoop.startInLoop at h
  obtain ⟨_, hassert, -⟩ := bind_ok h
  exact assertThat_ok hassert

theorem connect_ok {c c' : Connector} {savedErrno : Errno} (hprogress : savedErrno.inProgress = true)
    (h : c.connect savedErrno = .ok c') : c.channel = none := by
  rw [connect_of_inProgress hprogress] at h
  unfold Connector.connecting at h
  obtain ⟨_, hassert, -⟩ := bind_ok h
  exact assertThat_ok hassert

/-- An attempt that `restart` comes upon is lost: its socket is neither closed nor handed over,
and it is not waited for. -/
theorem not_sane_of_idle {c c' : Connector} {n : Nat} (h : Kept c n) (hstate : c.state = .kConnecting)
    (hstate' : c'.state ≠ .kConnecting) (hcreated : c'.created = c.created)
    (hclosed : c'.closed = c.closed) (hhanded : c'.handed = c.handed) : ¬Sane c' := by
  intro hsane
  obtain ⟨-, fd, hfd, -, hopen⟩ := h.channel hstate
  rcases hsane.accounted fd (hcreated ▸ hfd) with hone | ⟨-, hconnecting, -⟩
  · rw [settled, hclosed, hhanded] at hone
    rw [settled, hone] at hopen
    cases hopen
  · exact hstate' hconnecting

theorem stopInLoop_active {c : Connector} {n : Nat} (h : Kept c n) (hstate : c.state = .kConnecting) :
    c.stopInLoop ⟨true, false, true⟩ = .error .assertion := by
  obtain ⟨-, fd, -, hchannel, -⟩ := h.channel hstate
  unfold Connector.stopInLoop
  rw [if_pos hstate]
  unfold Connector.removeAndResetChannel
  simp only [hchannel, Channel.disableAll_waiting]
  rfl

/-- A step that runs `startInLoop` and goes well. -/
theorem free_of_step {a : ConnectorAct} (hstarts : starts a l = true) (hstep : step a l = .ok l') :
    l.connector.state = .kDisconnected := by
  cases a with
  | goOn savedErrno =>
      have hnext : l.next = some .startInLoop := of_decide_eq_true hstarts
      simp only [step, hnext] at hstep
      exact startInLoop_ok hstep
  | runFunctor =>
      simp only [starts] at hstarts
      split at hstarts
      · rename_i batch hnext hphase
        simp only [step, hnext, if_true, ConnectorLoop.loopStep, hphase] at hstep
        have hfree := startInLoop_ok hstep
        exact hfree
      · cases hstarts
  | timer i =>
      simp only [starts] at hstarts
      split at hstarts
      · rename_i active pending hnext hphase
        have hi : i < l.connector.retryTimers.length := of_decide_eq_true hstarts
        simp only [step, hnext, if_true, ConnectorLoop.loopStep, hphase, hi] at hstep
        have hfree := startInLoop_ok hstep
        exact hfree
      · cases hstarts
  | start | queueStart | stop | queueStop | startHere | stopHere | restart | poll | handleEvent
  | handle | handled | doPendingFunctors => cases hstarts

theorem reset_of_step {a : ConnectorAct} (hconnects : connects a l = true)
    (hstep : step a l = .ok l') : l.connector.channel = none := by
  cases a with
  | goOn savedErrno =>
      simp only [connects, Bool.and_eq_true, decide_eq_true_eq] at hconnects
      obtain ⟨hnext, hprogress⟩ := hconnects
      simp only [step, hnext] at hstep
      obtain ⟨c, hc, -⟩ := bind_ok hstep
      exact connect_ok hprogress hc
  | start | queueStart | stop | queueStop | startHere | stopHere | restart | runFunctor | timer
  | poll | handleEvent | handle | handled | doPendingFunctors => cases hconnects

theorem idle_of_step (h : LoopKept l) {a : ConnectorAct} (hrestarts : restarts a l = true)
    (hstep : step a l = .ok l') (hsane : Sane l'.connector) :
    l.connector.state ≠ .kConnecting := by
  cases a with
  | restart =>
      simp only [restarts, Bool.and_eq_true, decide_eq_true_eq] at hrestarts
      obtain ⟨hnext, huser⟩ := hrestarts
      simp only [step, hnext, if_true, ConnectorLoop.loopStep, huser] at hstep
      cases hstep
      refine fun hstate => not_sane_of_idle h.kept hstate ?_ ?_ ?_ ?_ hsane
      · exact nofun
      · rfl
      · rfl
      · rfl
  | start | queueStart | stop | queueStop | startHere | stopHere | goOn | runFunctor | timer
  | poll | handleEvent | handle | handled | doPendingFunctors => cases hrestarts

theorem inactive_of_step (h : LoopKept l) {a : ConnectorAct} (hstops : stops a l = true)
    (hstate : l.connector.state = .kConnecting) (hstep : step a l = .ok l') :
    active l.phase = false := by
  cases a with
  | goOn savedErrno =>
      have hnext : l.next = some .stopInLoop := of_decide_eq_true hstops
      simp only [step, hnext] at hstep
      obtain ⟨c, hc, -⟩ := bind_ok hstep
      cases hphase : l.phase with
      | functors fs => rfl
      | handling user error write => rfl
      | events active pending =>
          cases active with
          | false => rfl
          | true =>
              rw [hphase] at hc
              have hfails : l.connector.stopInLoop (handlingOf (.events true pending))
                  = .error .assertion := stopInLoop_active h.kept hstate
              rw [hfails] at hc
              cases hc
  | start | queueStart | stop | queueStop | startHere | stopHere | restart | runFunctor | timer
  | poll | handleEvent | handle | handled | doPendingFunctors => cases hstops

/-- A step that goes well, and leaves things in order, meets the conditions. -/
theorem may_of_step (h : LoopKept l) {a : ConnectorAct} (hstep : step a l = .ok l')
    (hsane : Sane l'.connector) : May a l where
  free := fun hstarts => free_of_step hstarts hstep
  reset := fun hconnects => reset_of_step hconnects hstep
  idle := fun hrestarts => idle_of_step h hrestarts hstep hsane
  inactive := fun hstops hstate => inactive_of_step h hstops hstate hstep

/-- **One attempt at a time**: a run goes without a failed assertion, with every socket closed or
handed over once and no channel destroyed that the poller knows, exactly if nobody begins an
attempt beside another or gives one up behind its back. -/
theorem single_attempt_iff (acts : List ConnectorAct) :
    Always step (fun l => Sane l.connector) acts init ↔ Along step May acts init := by
  have hgood : ∀ a l, LoopKept l → True → May a l →
      ∃ l', step a l = .ok l' ∧ Sane l'.connector ∧ LoopKept l' := by
    intro a l h _ hmay
    obtain ⟨l', hl', hkept⟩ := h.step hmay
    exact ⟨l', hl', hkept.kept.sane, hkept⟩
  have hneeded : ∀ a l l', LoopKept l → True → step a l = .ok l' → Sane l'.connector → May a l :=
    fun _ _ _ h _ hstep hsane => may_of_step h hstep hsane
  exact always_iff hgood hneeded loopKept_init (along_true acts init)

/-- Another thread stops the connector and starts it again, while an attempt is in progress: the
new attempt comes before `resetChannel`. -/
def startedAgain : List ConnectorAct :=
  [.start, .queueStart, .poll false, .doPendingFunctors, .runFunctor, .goOn .EINPROGRESS,
    .stop, .queueStop, .start, .queueStart, .poll false, .doPendingFunctors, .runFunctor,
    .runFunctor, .goOn .EINPROGRESS]

/-- The last of these steps fails an assertion; so does the second of two calls of `start`; and
`restart` loses the socket of the attempt that is in progress. -/
theorem attempts_collide :
    run step startedAgain init = .error .assertion ∧
      run step [.startHere, .goOn .zero, .goOn .EINPROGRESS, .startHere, .goOn .zero] init
        = .error .assertion ∧
      ∃ l, run step [.startHere, .goOn .zero, .goOn .EINPROGRESS, .restart] init = .ok l ∧
        ¬Sane l.connector := by
  refine ⟨rfl, rfl, _, rfl, fun h => ?_⟩
  rcases h.accounted 0 Nat.one_pos with hone | ⟨-, hstate, -⟩
  · cases hone
  · cases hstate

end ConnectorLoop

end Net
