/-
What holds of a connection over whole runs of its loop.

`Life` says what has become of a connection that has been told about, closed, taken out of
`connections_` and destroyed, with what is still queued for it, and `May` when a step does
not go wrong.  The two belong together: in a state of `Life` the steps that succeed are
those that may be taken, and they lead to a state of `Life`.
-/
import Muduo.Proofs.Connections

namespace Net

open Lib

namespace ConnectionLoop

/-! ### The invariant -/

/-- The handlers that are still to be called for an event. -/
structure Due (l : ConnectionLoop) (revents : Revents) (user : Bool) (todo : List Handler) : Prop where
  nodup : todo.Nodup
  close : .handleClose ∈ todo → todo.head? = some .handleClose ∧ user = false ∧ l.conn.isOpen ∧
    revents.hungUp = true
  call : .closeCallback ∈ todo → todo.head? = some .closeCallback ∧ l.conn.state = .kDisconnected ∧
    l.closeCallbacks = 0 ∧ (l.serverGone = false → l.inConnections = true ∧ l.removing = 0)
  read : .handleRead ∈ todo → (l.conn.isOpen ∧ user = false ∧
      (revents.hungUp = true → .handleClose ∈ todo)) ∨
    (l.conn.state = .kDisconnected ∧ revents.hungUp = true)

/-- The connection in what the loop is doing. -/
def Doing (l : ConnectionLoop) : Prop :=
  match l.phase with
  | .functors => True
  | .events active pending => (pending = true → active = true ∧ l.conn.isOpen) ∧
      (active = true → l.conn.state ≠ .kConnecting)
  | .handling revents user todo => l.conn.state ≠ .kConnecting ∧ Due l revents user todo

/-- What has become of a connection. -/
structure Life (l : ConnectionLoop) : Prop where
  intact : Intact l.conn l.sent
  doing : Doing l
  fresh : l.conn.state = .kConnecting → l.conn.ups = 0
  up : l.conn.state ≠ .kConnecting → l.conn.ups = 1
  notDown : l.conn.state ≠ .kDisconnected → l.conn.downs = 0 ∧ l.conn.closes = 0 ∧
    l.closeCallbacks = 0 ∧ l.removing = 0 ∧ l.destroyed = 0 ∧ l.conn.removals = []
  listed : l.conn.state ≠ .kDisconnected → l.serverGone = false →
    l.inConnections = true ∧ l.destroying = 0
  down : l.conn.state = .kDisconnected → l.conn.downs = 1 ∧ l.conn.closes ≤ 1
  alive : l.conn.state = .kDisconnected → l.destroyed = 0 →
    l.conn.channel = .closed ∧ l.conn.removals = []
  gone : l.conn.state = .kDisconnected → l.destroyed ≠ 0 → l.conn.removals = [.closed]
  once : l.destroying + l.destroyed ≤ 1
  owned : l.serverGone = false → l.inConnections = true → l.destroying = 0 ∧ l.destroyed = 0
  leaving : l.serverGone = false → 0 < l.removing → l.removing = 1 ∧ l.inConnections = true
  called : l.closeCallbacks ≤ 1

/-! ### What may go wrong -/

/-- A step that does not go wrong. -/
def May (sameLoop : Bool) (a : LoopAction) (l : ConnectionLoop) : Prop :=
  match a with
  | .handle read _ => ∀ revents user todo,
      (l.phase = .handling revents user (.handleRead :: todo) → revents.hungUp = true →
        read ≠ .endOfFile) ∧
      (l.phase = .handling revents user (.closeCallback :: todo) → l.serverGone = false)
  | .removeConnectionInLoop => 0 < l.removing → l.serverGone = false
  | .connectDestroyed => l.runsFunctors = true → 0 < l.destroying → l.conn.state ≠ .kDisconnecting
  | .destroyServer => sameLoop = true → l.userCode = true → l.serverGone = false →
      l.inConnections = true →
        l.conn.state ≠ .kDisconnecting ∧ ∀ pending, l.phase ≠ .events true pending
  | _ => True

theorem life_init : Life init where
  intact := TcpConnection.intact_init
  doing := trivial
  fresh := fun _ => rfl
  up := fun h => absurd rfl h
  notDown := fun _ => ⟨rfl, rfl, rfl, rfl, rfl, rfl⟩
  listed := fun _ _ => ⟨rfl, rfl⟩
  down := nofun
  alive := nofun
  gone := nofun
  once := Nat.zero_le 1
  owned := fun _ _ => ⟨rfl, rfl⟩
  leaving := fun _ h => absurd h (Nat.lt_irrefl 0)
  called := Nat.zero_le 1

theorem handlers_nodup (r : Revents) : r.handlers.Nodup := by
  unfold Revents.handlers
  split <;> split <;> split <;> split <;> decide

theorem closeCallback_notMem (r : Revents) : .closeCallback ∉ r.handlers := by
  unfold Revents.handlers
  split <;> split <;> split <;> split <;> decide

/-- `handleClose` is called first, and just when the peer has hung up. -/
theorem handleClose_mem (r : Revents) : (.handleClose ∈ r.handlers ↔ r.hungUp = true) ∧
    (.handleClose ∈ r.handlers → r.handlers.head? = some .handleClose) := by
  unfold Revents.handlers
  by_cases h : r.hungUp = true
  · rw [if_pos h]
    exact ⟨⟨fun _ => h, fun _ => List.mem_cons_self⟩, fun _ => rfl⟩
  · rw [if_neg h]
    have hnot : .handleClose ∉ ([] : List Handler) ++
        ((if r.pollErr || r.pollNval then [.handleError] else []) ++
          ((if r.pollIn || r.pollPri || r.pollRdHup then [.handleRead] else []) ++
            (if r.pollOut then [.handleWrite] else []))) := by
      split <;> split <;> split <;> decide
    exact ⟨⟨fun hm => absurd hm hnot, fun hm => absurd hm h⟩, fun hm => absurd hm hnot⟩

/-- `closeCallback_`, while there is a server. -/
theorem closeCallback_eq {sameLoop : Bool} {l : ConnectionLoop} (hgone : l.serverGone = false) :
    l.closeCallback sameLoop =
      if sameLoop then { l with closeCallbacks := l.closeCallbacks + 1 }.removeConnectionInLoop
      else .ok { l with closeCallbacks := l.closeCallbacks + 1, removing := l.removing + 1 } := by
  show (if l.serverGone = true then _ else _) = _
  rw [if_neg (by rw [hgone]; decide)]
  rfl

theorem removeConnectionInLoop_fails {l : ConnectionLoop} (hgone : l.serverGone = true) :
    l.removeConnectionInLoop = .error .useAfterFree := by
  show (if l.serverGone = true then _ else _) = _
  rw [if_pos hgone]
  rfl

theorem closeCallback_fails {sameLoop : Bool} {l : ConnectionLoop} (hgone : l.serverGone = true) :
    l.closeCallback sameLoop = .error .useAfterFree := by
  show (if l.serverGone = true then _ else _) = _
  rw [if_pos hgone]
  rfl

theorem connectDestroyed_fails {l : ConnectionLoop} (h : Intact l.conn l.sent)
    (hnot : ¬(l.conn.Destroyable ∧ (handlingOf l.phase).Free)) :
    l.connectDestroyed = .error .assertion := by
  unfold connectDestroyed
  rw [TcpConnection.connectDestroyed_fails h hnot]
  rfl

theorem not_destroyable {c : TcpConnection} (hs : c.state = .kDisconnecting) : ¬c.Destroyable := by
  rintro (h | ⟨h, -⟩) <;> rw [hs] at h <;> cases h

namespace Life

variable {l : ConnectionLoop} {sameLoop : Bool}

/-! ### Steps of the connection -/

theorem due_congr {l' : ConnectionLoop} {revents : Revents} {user : Bool} {todo : List Handler}
    (h : Due l revents user todo) (hopen : l.conn.isOpen → l'.conn.isOpen)
    (hdown : l.conn.state = .kDisconnected → l'.conn.state = .kDisconnected)
    (hcalls : l'.closeCallbacks = l.closeCallbacks)
    (hserver : l'.serverGone = false → l.serverGone = false ∧ l'.inConnections = l.inConnections ∧
      (l.removing = 0 → l'.removing = 0)) : Due l' revents user todo where
  nodup := h.nodup
  close hm :=
    have ⟨hhead, huser, ho, hup⟩ := h.close hm
    ⟨hhead, huser, hopen ho, hup⟩
  call hm := by
    obtain ⟨hhead, hstate, hzero, hlisted⟩ := h.call hm
    refine ⟨hhead, hdown hstate, hcalls.trans hzero, fun hgone => ?_⟩
    obtain ⟨hgone, hin, hrem⟩ := hserver hgone
    obtain ⟨hlisted, hnone⟩ := hlisted hgone
    exact ⟨hin.trans hlisted, hrem hnone⟩
  read hm := (h.read hm).imp (fun ⟨ho, hrest⟩ => ⟨hopen ho, hrest⟩) (fun ⟨hs, hup⟩ => ⟨hdown hs, hup⟩)

/-- What the loop is doing goes on with a connection that is as open and as closed. -/
theorem doing_congr {l' : ConnectionLoop} (h : Doing l) (hphase : l'.phase = l.phase)
    (hopen : l.conn.isOpen → l'.conn.isOpen)
    (hnew : l.conn.state ≠ .kConnecting → l'.conn.state ≠ .kConnecting)
    (hdown : l.conn.state = .kDisconnected → l'.conn.state = .kDisconnected)
    (hcalls : l'.closeCallbacks = l.closeCallbacks)
    (hserver : l'.serverGone = false → l.serverGone = false ∧ l'.inConnections = l.inConnections ∧
      (l.removing = 0 → l'.removing = 0)) : Doing l' := by
  unfold Doing at h ⊢
  rw [hphase]
  cases hdoing : l.phase with
  | functors => trivial
  | events active pending =>
      rw [hdoing] at h
      exact ⟨fun hp => ⟨(h.1 hp).1, hopen (h.1 hp).2⟩, fun ha => hnew (h.2 ha)⟩
  | handling revents user todo =>
      rw [hdoing] at h
      exact ⟨hnew h.1, due_congr h.2 hopen hdown hcalls hserver⟩

/-- Writing changes nothing but the output side. -/
theorem same (h : Life l) {c : TcpConnection} {sent : List Bytes} (hintact : Intact c sent)
    (hsame : Same l.conn c) : Life { l with conn := c, sent := sent } where
  intact := hintact
  doing := by
    refine doing_congr h.doing rfl hsame.isOpen.mpr ?_ ?_ rfl fun hg => ⟨hg, rfl, id⟩
    · exact fun hne hs => hne (hsame.state.symm.trans hs)
    · exact fun hs => hsame.state.trans hs
  fresh hs := hsame.ups.trans (h.fresh (hsame.state.symm.trans hs))
  up hs := hsame.ups.trans (h.up (by rwa [← hsame.state]))
  notDown hs := by
    rw [hsame.downs, hsame.closes, hsame.removals]
    exact h.notDown (by rwa [← hsame.state])
  listed hs := h.listed (by rwa [← hsame.state])
  down hs := by
    rw [hsame.downs, hsame.closes]
    exact h.down (hsame.state.symm.trans hs)
  alive hs hd := by
    have hdown := hsame.state.symm.trans hs
    rw [hsame.removals, hsame.channel fun ho => (TcpConnection.isOpen_ne ho).1 hdown]
    exact h.alive hdown hd
  gone hs hd := by
    rw [hsame.removals]
    exact h.gone (hsame.state.symm.trans hs) hd
  once := h.once
  owned := h.owned
  leaving := h.leaving
  called := h.called

/-- `kDisconnecting` is as good as `kConnected`. -/
theorem disconnecting (h : Life l) (hs : l.conn.state = .kConnected) :
    Life { l with conn := { l.conn with state := .kDisconnecting } } := by
  have hne : l.conn.state ≠ .kDisconnected := by rw [hs]; decide
  refine ⟨⟨h.intact.fifo, fun _ => h.intact.opened (Or.inl hs), nofun, nofun, h.intact.drained⟩, ?_,
    nofun, fun _ => h.up (by rw [hs]; decide), fun _ => h.notDown hne, fun _ => h.listed hne,
    nofun, nofun, nofun, h.once, h.owned, h.leaving, h.called⟩
  refine doing_congr h.doing rfl (fun _ => Or.inr rfl) (fun _ => nofun) ?_ rfl ?_
  · exact fun hd => absurd hd hne
  · exact fun hg => ⟨hg, rfl, id⟩

theorem shutdown (h : Life l) : Life { l with conn := l.conn.shutdown } := by
  obtain ⟨hintact, hsame | ⟨hs, hsame⟩⟩ := TcpConnection.shutdown_intact h.intact
  · exact h.same hintact hsame
  · exact (h.disconnecting hs).same hintact hsame

/-- The handlers behind one that has been called. -/
theorem due_tail {revents : Revents} {user : Bool} {h : Handler} {todo : List Handler}
    (hdue : Due l revents user (h :: todo)) :
    todo.Nodup ∧ .handleClose ∉ todo ∧ .closeCallback ∉ todo ∧ h ∉ todo := by
  obtain ⟨hnot, hnodup⟩ := List.nodup_cons.mp hdue.nodup
  refine ⟨hnodup, fun hm => hnot ?_, fun hm => hnot ?_, hnot⟩
  · have hhead : some h = some .handleClose := (hdue.close (List.mem_cons_of_mem h hm)).1
    rwa [Option.some.inj hhead]
  · have hhead : some h = some .closeCallback := (hdue.call (List.mem_cons_of_mem h hm)).1
    rwa [Option.some.inj hhead]

/-- Handlers without one that closes. -/
theorem due_plain {l' : ConnectionLoop} {revents : Revents} {user : Bool} {todo : List Handler}
    (hnodup : todo.Nodup) (hclose : .handleClose ∉ todo) (hcall : .closeCallback ∉ todo)
    (hread : .handleRead ∈ todo → (l'.conn.isOpen ∧ user = false ∧ revents.hungUp = false) ∨
      (l'.conn.state = .kDisconnected ∧ revents.hungUp = true)) : Due l' revents user todo where
  nodup := hnodup
  close hm := absurd hm hclose
  call hm := absurd hm hcall
  read hm := (hread hm).imp (fun ⟨ho, hu, hup⟩ => ⟨ho, hu, fun h => by rw [hup] at h; cases h⟩) id

/-- What is known of the reading when nothing closes before it. -/
theorem due_read {revents : Revents} {user : Bool} {todo : List Handler}
    (hdue : Due l revents user todo) (hclose : .handleClose ∉ todo) (hm : .handleRead ∈ todo) :
    (l.conn.isOpen ∧ user = false ∧ revents.hungUp = false) ∨
      (l.conn.state = .kDisconnected ∧ revents.hungUp = true) := by
  rcases hdue.read hm with ⟨ho, hu, hup⟩ | hdown
  · exact Or.inl ⟨ho, hu, Bool.eq_false_iff.mpr fun h => hclose (hup h)⟩
  · exact Or.inr hdown

/-- A step that concerns only what the loop is doing. -/
theorem phase (h : Life l) {phase : Phase} (hdoing : Doing { l with phase := phase }) :
    Life { l with phase := phase } :=
  ⟨h.intact, hdoing, h.fresh, h.up, h.notDown, h.listed, h.down, h.alive, h.gone, h.once, h.owned,
    h.leaving, h.called⟩

/-- `connectEstablished` -/
theorem established (h : Life l) (hs : l.conn.state = .kConnecting) :
    ∃ c, l.conn.connectEstablished = .ok c ∧ Life { l with conn := c } := by
  obtain ⟨hok, hintact⟩ := TcpConnection.connectEstablished_spec h.intact hs
  have hne : l.conn.state ≠ .kDisconnected := by rw [hs]; decide
  refine ⟨_, hok, hintact, ?_, nofun, fun _ => ?_, fun _ => h.notDown hne, fun _ => h.listed hne,
    nofun, nofun, nofun, h.once, h.owned, h.leaving, h.called⟩
  · refine doing_congr h.doing rfl (fun _ => Or.inl rfl) (fun _ => nofun) ?_ rfl ?_
    · exact fun hd => absurd hd hne
    · exact fun hg => ⟨hg, rfl, id⟩
  · show l.conn.ups + 1 = 1
    rw [h.fresh hs]

/-- `handleClose` of an open connection. -/
theorem closed (h : Life l) (hopen : l.conn.isOpen) {revents : Revents} {todo : List Handler}
    (hnodup : todo.Nodup) (hclose : .handleClose ∉ todo) (hcall : .closeCallback ∉ todo)
    (hread : .handleRead ∈ todo → revents.hungUp = true) :
    ∃ l', l.handleClose revents todo = .ok l' ∧ Life l' := by
  obtain ⟨hne, hnew⟩ := TcpConnection.isOpen_ne hopen
  obtain ⟨hdowns, hcloses, hcalls, hremoving, hdestroyed, hremovals⟩ := h.notDown hne
  unfold handleClose
  rw [TcpConnection.handleClose_spec h.intact hopen]
  refine ⟨_, rfl, ⟨h.intact.fifo, ?_, nofun, fun _ => Or.inl rfl, h.intact.drained⟩, ⟨nofun, ?_⟩,
    nofun, fun _ => h.up hnew, fun hs => absurd rfl hs, fun hs => absurd rfl hs, fun _ => ?_, ?_, ?_,
    h.once, h.owned, h.leaving, h.called⟩
  · intro ho
    rcases ho with ho | ho <;> cases ho
  · refine ⟨List.nodup_cons.mpr ⟨hcall, hnodup⟩, ?_, ?_, ?_⟩
    · intro hm
      exact absurd ((List.mem_cons.mp hm).resolve_left nofun) hclose
    · exact fun _ => ⟨rfl, rfl, hcalls, fun hg => ⟨(h.listed hne hg).1, hremoving⟩⟩
    · intro hm
      exact Or.inr ⟨rfl, hread ((List.mem_cons.mp hm).resolve_left nofun)⟩
  · show l.conn.downs + 1 = 1 ∧ l.conn.closes + 1 ≤ 1
    rw [hdowns, hcloses]
    exact ⟨rfl, Nat.le_refl 1⟩
  · exact fun _ _ => ⟨rfl, hremovals⟩
  · exact fun _ hd => absurd hdestroyed hd

/-- `removeConnectionInLoop`, while there is a server. -/
theorem removed (h : Life l) (hs : l.conn.state = .kDisconnected) (hgone : l.serverGone = false)
    (hin : l.inConnections = true) {removing : Nat} (hnone : removing = 0) {phase : Phase}
    {calls : Nat} (hcalls : calls ≤ 1) (hdoing : ∀ l' : ConnectionLoop, l'.conn = l.conn → l'.phase = phase →
      Doing l') :
    ∃ l', { l with phase := phase, removing := removing, closeCallbacks := calls }.removeConnectionInLoop
        = .ok l' ∧ Life l' := by
  obtain ⟨hnodestroy, hdestroyed⟩ := h.owned hgone hin
  unfold removeConnectionInLoop
  simp only [hgone, hin, assertThat_of]
  refine ⟨_, rfl, h.intact, hdoing _ rfl rfl, h.fresh, h.up, fun hne => absurd hs hne,
    fun hne => absurd hs hne, h.down, h.alive, h.gone, ?_, by simp, ?_, hcalls⟩
  · show l.destroying + 1 + l.destroyed ≤ 1
    rw [hnodestroy, hdestroyed]
  · intro _ hpos
    have hpos : 0 < removing := hpos
    rw [hnone] at hpos
    exact absurd hpos (Nat.lt_irrefl 0)

/-- `connectDestroyed` of a connection that has not been destroyed. -/
theorem destroyed (h : Life l) (hd : l.conn.Destroyable) (hfree : (handlingOf l.phase).Free)
    (hnone : l.destroyed = 0) {destroying : Nat} (hzero : destroying = 0) {serverGone : Bool}
    (howned : serverGone = false → l.inConnections = false ∧ l.removing = 0)
    (hdoing : ∀ l' : ConnectionLoop, l'.conn.state = .kDisconnected → l'.phase = l.phase →
      l'.closeCallbacks = l.closeCallbacks → l'.serverGone = serverGone → Doing l') :
    ∃ l', { l with destroying := destroying, serverGone := serverGone }.connectDestroyed = .ok l' ∧
      Life l' := by
  have hnew : l.conn.state ≠ .kConnecting := by
    rcases hd with hs | ⟨hs, -⟩ <;> rw [hs] <;> decide
  unfold connectDestroyed
  simp only [TcpConnection.connectDestroyed_spec h.intact hd hfree]
  refine ⟨_, rfl, ⟨h.intact.fifo, ?_, nofun, fun _ => Or.inr rfl, h.intact.drained⟩,
    hdoing _ rfl rfl rfl rfl, nofun, fun _ => h.up hnew, fun hs => absurd rfl hs,
    fun hs => absurd rfl hs, fun _ => ?_, ?_, fun _ _ => ?_, ?_, ?_, ?_, h.called⟩
  · intro ho
    rcases ho with ho | ho <;> cases ho
  · show (if l.conn.state = .kConnected then l.conn.downs + 1 else l.conn.downs) = 1 ∧
      l.conn.closes ≤ 1
    rcases hd with hs | ⟨hs, -⟩
    · obtain ⟨hdowns, hcloses, -⟩ := h.notDown (by rw [hs]; decide)
      rw [if_pos hs, hdowns, hcloses]
      exact ⟨rfl, Nat.zero_le 1⟩
    · rw [if_neg (by rw [hs]; decide)]
      exact h.down hs
  · intro _ hd
    exact absurd hd (Nat.succ_ne_zero _)
  · show l.conn.removals ++ [Channel.closed] = [Channel.closed]
    have hremovals : l.conn.removals = [] := by
      rcases hd with hs | ⟨hs, -⟩
      · exact (h.notDown (by rw [hs]; decide)).2.2.2.2.2
      · exact (h.alive hs hnone).2
    rw [hremovals]
    rfl
  · show destroying + (l.destroyed + 1) ≤ 1
    rw [hzero, hnone]
  · intro hg hin
    have hin : l.inConnections = true := hin
    rw [(howned hg).1] at hin
    cases hin
  · intro hg hpos
    have hpos : 0 < l.removing := hpos
    rw [(howned hg).2] at hpos
    exact absurd hpos (Nat.lt_irrefl 0)

/-! ### The steps -/

/-- One handler that may be called. -/
theorem handle (h : Life l) {revents : Revents} {user : Bool} {todo : List Handler} {head : Handler}
    (hphase : l.phase = .handling revents user (head :: todo)) {read : ReadResult}
    (hread : head = .handleRead → revents.hungUp = true → read ≠ .endOfFile)
    (hserver : head = .closeCallback → l.serverGone = false) (result : WriteResult) :
    ∃ l', l.handle sameLoop revents todo read result head = .ok l' ∧ Life l' := by
  have hdoing := h.doing
  unfold Doing at hdoing
  rw [hphase] at hdoing
  obtain ⟨hnew, hdue⟩ := hdoing
  obtain ⟨hnodup, hclose, hcall, hhead⟩ := due_tail hdue
  -- a handler that does not close leaves the reading as it is
  have hnext : ∀ l' : ConnectionLoop, head ≠ .handleClose → head ≠ .closeCallback →
      l'.conn.state = l.conn.state → l'.phase = .handling revents false todo → Doing l' := by
    intro l' hne₁ hne₂ hstate hphase'
    have hnot : .handleClose ∉ head :: todo := fun hm =>
      (List.mem_cons.mp hm).elim (fun heq => hne₁ heq.symm) hclose
    unfold Doing
    rw [hphase']
    refine ⟨by rw [hstate]; exact hnew, due_plain hnodup hclose hcall fun hm => ?_⟩
    unfold TcpConnection.isOpen
    rw [hstate]
    refine (due_read hdue hnot (List.mem_cons_of_mem head hm)).imp_left ?_
    exact fun ⟨ho, _, hup⟩ => ⟨ho, rfl, hup⟩
  cases head with
  | handleClose =>
      obtain ⟨-, -, hopen, hup⟩ := hdue.close List.mem_cons_self
      exact h.closed hopen hnodup hclose hcall fun _ => hup
  | closeCallback =>
      obtain ⟨-, hs, hcalls, hlisted⟩ := hdue.call List.mem_cons_self
      have hg := hserver rfl
      obtain ⟨hin, hremoving⟩ := hlisted hg
      have hdoing : ∀ l' : ConnectionLoop, l'.conn = l.conn →
          l'.phase = .handling revents false todo → Doing l' := by
        intro l' hconn hphase'
        unfold Doing
        rw [hphase', hconn]
        refine ⟨hnew, due_plain hnodup hclose hcall fun hm => Or.inr ?_⟩
        rw [hconn]
        refine ⟨hs, ?_⟩
        rcases hdue.read (List.mem_cons_of_mem _ hm) with ⟨ho, -⟩ | ⟨-, hup⟩
        · exact absurd hs (TcpConnection.isOpen_ne ho).1
        · exact hup
      have hcalled : l.closeCallbacks + 1 ≤ 1 := by rw [hcalls]
      have hgone : { l with phase := .handling revents false todo }.serverGone = false := hg
      show ∃ l', closeCallback sameLoop { l with phase := .handling revents false todo } = _ ∧ _
      rw [closeCallback_eq hgone]
      cases sameLoop with
      | true => exact h.removed hs hg hin hremoving hcalled hdoing
      | false =>
          refine ⟨_, rfl, h.intact, hdoing _ rfl rfl, h.fresh, h.up, fun hne => absurd hs hne,
            fun hne => absurd hs hne, h.down, h.alive, h.gone, h.once, h.owned, ?_, hcalled⟩
          intro _ _
          show l.removing + 1 = 1 ∧ l.inConnections = true
          rw [hremoving]
          exact ⟨rfl, hin⟩
  | handleError => exact ⟨_, rfl, h.phase (hnext _ nofun nofun rfl rfl)⟩
  | handleRead =>
      have hnot : .handleClose ∉ Handler.handleRead :: todo := fun hm =>
        (List.mem_cons.mp hm).elim nofun hclose
      cases read with
      | bytes =>
          -- the callback for messages is user code, and the reading is over
          refine ⟨_, rfl, h.phase ⟨hnew, due_plain hnodup hclose hcall fun hm => absurd hm hhead⟩⟩
      | failed => exact ⟨_, rfl, h.phase (hnext _ nofun nofun rfl rfl)⟩
      | endOfFile =>
          rcases due_read hdue hnot List.mem_cons_self with ⟨hopen, -, -⟩ | ⟨-, hup⟩
          · exact h.closed hopen hnodup hclose hcall fun hm => absurd hm hhead
          · exact absurd rfl (hread rfl hup)
  | handleWrite =>
      obtain ⟨c, hok, hsame, hintact⟩ := TcpConnection.handleWrite_spec h.intact result
      refine ⟨{ l with conn := c, phase := .handling revents false todo }, ?_, ?_⟩
      · unfold ConnectionLoop.handle
        simp only [hok]
        rfl
      · exact (h.same hintact hsame).phase (hnext _ nofun nofun hsame.state rfl)

/-- `~TcpServer`, where it may be. -/
theorem destroyServer (h : Life l) (hsafe : sameLoop = true → l.serverGone = false →
      l.inConnections = true → l.userCode = true ∧ l.conn.state ≠ .kConnecting ∧
        l.conn.state ≠ .kDisconnecting ∧ ∀ pending, l.phase ≠ .events true pending) :
    ∃ l', l.destroyServer sameLoop = .ok l' ∧ Life l' := by
  unfold ConnectionLoop.destroyServer
  by_cases hg : l.serverGone = true
  · exact ⟨l, by rw [if_pos hg], h⟩
  have hg : l.serverGone = false := Bool.eq_false_iff.mpr hg
  rw [if_neg (by rw [hg]; decide)]
  -- without the server nothing is promised about what it has listed
  have hdoing : ∀ l' : ConnectionLoop, l'.conn = l.conn → l'.phase = l.phase →
      l'.closeCallbacks = l.closeCallbacks → l'.serverGone = true → Doing l' := by
    intro l' hconn hphase hcalls hgone
    refine doing_congr h.doing hphase ?_ ?_ ?_ hcalls fun hf => ?_
    · exact fun ho => by rwa [hconn]
    · exact fun hne => by rwa [hconn]
    · exact fun hs => by rwa [hconn]
    · rw [hgone] at hf
      cases hf
  by_cases hin : l.inConnections = true
  · obtain ⟨hnone, hnot⟩ := h.owned hg hin
    rw [if_pos hin]
    cases sameLoop with
    | false =>
        refine ⟨_, rfl, h.intact, hdoing _ rfl rfl rfl rfl, h.fresh, h.up, h.notDown, nofun, h.down,
          h.alive, h.gone, ?_, nofun, nofun, h.called⟩
        show l.destroying + 1 + l.destroyed ≤ 1
        rw [hnone, hnot]
    | true =>
        obtain ⟨huser, hnew, hne, hevents⟩ := hsafe rfl hg hin
        have hd : l.conn.Destroyable := by
          rcases TcpConnection.state_cases l.conn with (hs | hs) | hs | hs
          · exact Or.inl hs
          · exact absurd hs hne
          · exact absurd hs hnew
          · exact Or.inr ⟨hs, (h.alive hs hnot).1⟩
        have hold := h.doing
        unfold Doing at hold
        refine h.destroyed hd ?_ hnot hnone nofun ?_
        · intro hhandling
          cases hphase : l.phase with
          | functors => rw [hphase] at hhandling; cases hhandling
          | events active pending =>
              cases active with
              | false => exact Or.inr rfl
              | true => exact absurd hphase (hevents pending)
          | handling revents user todo => exact Or.inl rfl
        · intro l' hs hphase' hcalls hgone
          unfold Doing
          rw [hphase', hs]
          cases hphase : l.phase with
          | functors => trivial
          | events active pending =>
              rw [hphase] at hold
              cases active with
              | true => exact absurd hphase (hevents pending)
              | false => exact ⟨fun hp => absurd (hold.1 hp).1 nofun, nofun⟩
          | handling revents user todo =>
              rw [hphase] at hold
              have huser : user = true := by
                unfold userCode at huser
                rwa [hphase] at huser
              refine ⟨nofun, hold.2.nodup, fun hm => ?_, fun hm => ?_, fun hm => ?_⟩
              · have := (hold.2.close hm).2.1
                rw [huser] at this
                cases this
              · obtain ⟨hhead, -, hzero, -⟩ := hold.2.call hm
                refine ⟨hhead, hs, hcalls.trans hzero, fun hf => ?_⟩
                rw [hgone] at hf
                cases hf
              · rcases hold.2.read hm with ⟨-, hu, -⟩ | ⟨-, hup⟩
                · rw [huser] at hu
                  cases hu
                · exact Or.inr ⟨hs, hup⟩
  · rw [if_neg hin]
    exact ⟨_, rfl, h.intact, hdoing _ rfl rfl rfl rfl, h.fresh, h.up, h.notDown, nofun, h.down,
      h.alive, h.gone, h.once, nofun, nofun, h.called⟩

/-- epoll reports a connection only while it is open. -/
theorem poll (h : Life l) (active : Bool) :
    ∃ l', step sameLoop (.poll active) l = .ok l' ∧ Life l' := by
  simp only [step]
  cases hphase : l.phase with
  | functors =>
      by_cases hskip : active = true ∧ l.conn.channel.index ≠ .kAdded
      · exact ⟨l, if_pos hskip, h⟩
      · refine ⟨_, if_neg hskip, h.phase ⟨fun hactive => ⟨hactive, ?_⟩, fun hactive hs => ?_⟩⟩
        · -- epoll watches the descriptors of open connections only
          rcases TcpConnection.state_cases l.conn with hopen | hs | hs
          · exact hopen
          · refine absurd ⟨hactive, ?_⟩ hskip
            rw [(h.intact.unopened hs).1]
            decide
          · refine absurd ⟨hactive, ?_⟩ hskip
            rcases h.intact.closed hs with hc | hc <;> rw [hc] <;> decide
        · refine hskip ⟨hactive, ?_⟩
          rw [(h.intact.unopened hs).1]
          decide
  | events active pending => exact ⟨l, rfl, h⟩
  | handling revents user todo => exact ⟨l, rfl, h⟩

theorem handleEvent (h : Life l) (revents : Revents) :
    ∃ l', step sameLoop (.handleEvent revents) l = .ok l' ∧ Life l' := by
  have hdoing := h.doing
  unfold Doing at hdoing
  simp only [step]
  cases hphase : l.phase with
  | functors => exact ⟨l, rfl, h⟩
  | handling revents user todo => exact ⟨l, rfl, h⟩
  | events active pending =>
      cases active with
      | false => exact ⟨l, rfl, h⟩
      | true =>
          cases pending with
          | false => exact ⟨l, rfl, h⟩
          | true =>
              rw [hphase] at hdoing
              have hopen := (hdoing.1 rfl).2
              obtain ⟨hiff, hfirst⟩ := handleClose_mem revents
              refine ⟨_, rfl, h.phase ⟨hdoing.2 rfl, handlers_nodup revents, ?_, ?_, ?_⟩⟩
              · exact fun hm => ⟨hfirst hm, rfl, hopen, hiff.mp hm⟩
              · exact fun hm => absurd hm (closeCallback_notMem revents)
              · exact fun _ => Or.inl ⟨hopen, rfl, hiff.mpr⟩

/-- The queued `removeConnectionInLoop`. -/
theorem runRemove (h : Life l) (hmay : May sameLoop .removeConnectionInLoop l) :
    ∃ l', step sameLoop .removeConnectionInLoop l = .ok l' ∧ Life l' := by
  have hdoing := h.doing
  unfold Doing at hdoing
  simp only [step]
  by_cases hpos : 0 < l.removing
  · rw [if_pos hpos]
    have hg := hmay hpos
    obtain ⟨hone, hin⟩ := h.leaving hg hpos
    have hs : l.conn.state = .kDisconnected := by
      by_contra hne
      have hnone := (h.notDown hne).2.2.2.1
      omega
    refine h.removed hs hg hin (by omega) h.called fun l' hconn hphase => ?_
    unfold Doing
    rw [hphase, hconn]
    cases hphase : l.phase with
    | functors => trivial
    | events active pending =>
        rw [hphase] at hdoing
        exact hdoing
    | handling revents user todo =>
        rw [hphase] at hdoing
        obtain ⟨hnew, hdue⟩ := hdoing
        refine ⟨hnew, hdue.nodup, ?_, fun hm => ?_, ?_⟩
        · rw [hconn]
          exact hdue.close
        · have hnone := ((hdue.call hm).2.2.2 hg).2
          omega
        · rw [hconn]
          exact hdue.read
  · rw [if_neg hpos]
    exact ⟨l, rfl, h⟩

/-- The queued `connectDestroyed`. -/
theorem runDestroy (h : Life l) (hmay : May sameLoop .connectDestroyed l) :
    ∃ l', step sameLoop .connectDestroyed l = .ok l' ∧ Life l' := by
  simp only [step]
  by_cases hready : l.runsFunctors = true ∧ 0 < l.destroying ∧ l.conn.state ≠ .kConnecting
  · obtain ⟨hfunctors, hpos, hnew⟩ := hready
    rw [if_pos ⟨hfunctors, hpos, hnew⟩]
    have honce := h.once
    have hnone : l.destroyed = 0 := by omega
    have hphase : l.phase = .functors := by
      unfold runsFunctors at hfunctors
      cases hphase : l.phase with
      | functors => rfl
      | events active pending => rw [hphase] at hfunctors; cases hfunctors
      | handling revents user todo => rw [hphase] at hfunctors; cases hfunctors
    have hd : l.conn.Destroyable := by
      rcases TcpConnection.state_cases l.conn with (hs | hs) | hs | hs
      · exact Or.inl hs
      · exact absurd hs (hmay hfunctors hpos)
      · exact absurd hs hnew
      · exact Or.inr ⟨hs, (h.alive hs hnone).1⟩
    refine h.destroyed hd ?_ hnone (by omega) (fun hg => ?_) ?_
    · rw [hphase]
      exact nofun
    · have hin : l.inConnections = false := by
        by_contra hin
        have := (h.owned hg ((Bool.not_eq_false _).mp hin)).1
        omega
      refine ⟨hin, ?_⟩
      by_contra hrem
      have := (h.leaving hg (Nat.pos_of_ne_zero hrem)).2
      rw [hin] at this
      cases this
    · intro l' _ hphase' _ _
      unfold Doing
      rw [hphase', hphase]
      trivial
  · rw [if_neg hready]
    exact ⟨l, rfl, h⟩

/-- A step that may be taken does not go wrong. -/
theorem step_ok (h : Life l) {a : LoopAction} (hmay : May sameLoop a l) :
    ∃ l', step sameLoop a l = .ok l' ∧ Life l' := by
  have hdoing := h.doing
  unfold Doing at hdoing
  cases a with
  | connectEstablished =>
      simp only [step]
      by_cases hs : l.conn.state = .kConnecting
      · obtain ⟨c, hok, hlife⟩ := h.established hs
        rw [if_pos hs, hok]
        exact ⟨_, rfl, hlife⟩
      · rw [if_neg hs]
        exact ⟨l, rfl, h⟩
  | send data result =>
      simp only [step]
      by_cases huser : l.userCode = true
      · obtain ⟨c, hok, hsame, hintact⟩ := TcpConnection.send_spec h.intact data result
        rw [if_pos huser]
        unfold ConnectionLoop.send
        rw [hok]
        exact ⟨_, rfl, h.same hintact hsame⟩
      · rw [if_neg huser]
        exact ⟨l, rfl, h⟩
  | shutdown =>
      simp only [step]
      by_cases huser : l.userCode = true
      · rw [if_pos huser]
        exact ⟨_, rfl, h.shutdown⟩
      · rw [if_neg huser]
        exact ⟨l, rfl, h⟩
  | poll active => exact h.poll active
  | handleEvent revents => exact h.handleEvent revents
  | handle read result =>
      simp only [step]
      cases hphase : l.phase with
      | functors => exact ⟨l, rfl, h⟩
      | events active pending => exact ⟨l, rfl, h⟩
      | handling revents user todo =>
          cases todo with
          | nil => exact ⟨l, rfl, h⟩
          | cons head todo =>
              refine h.handle hphase (fun heq => ?_) (fun heq => ?_) result
              · subst heq
                exact (hmay revents user todo).1 hphase
              · subst heq
                exact (hmay revents user todo).2 hphase
  | handled =>
      simp only [step]
      cases hphase : l.phase with
      | functors => exact ⟨l, rfl, h⟩
      | events active pending => exact ⟨l, rfl, h⟩
      | handling revents user todo =>
          rw [hphase] at hdoing
          cases todo with
          | nil => exact ⟨_, rfl, h.phase ⟨nofun, fun _ => hdoing.1⟩⟩
          | cons head todo => exact ⟨l, rfl, h⟩
  | doPendingFunctors =>
      simp only [step]
      cases hphase : l.phase with
      | functors => exact ⟨l, rfl, h⟩
      | handling revents user todo => exact ⟨l, rfl, h⟩
      | events active pending =>
          cases pending with
          | true => exact ⟨l, rfl, h⟩
          | false => exact ⟨_, rfl, h.phase trivial⟩
  | removeConnectionInLoop => exact h.runRemove hmay
  | connectDestroyed => exact h.runDestroy hmay
  | destroyServer =>
      simp only [step]
      by_cases hskip : sameLoop = true ∧ (l.userCode = false ∨ l.conn.state = .kConnecting)
      · exact ⟨l, if_pos hskip, h⟩
      · rw [if_neg hskip]
        refine h.destroyServer fun hsame hg hin => ?_
        have huser : l.userCode = true :=
          (Bool.not_eq_false _).mp fun hf => hskip ⟨hsame, Or.inl hf⟩
        exact ⟨huser, fun hs => hskip ⟨hsame, Or.inr hs⟩, hmay hsame huser hg hin⟩

/-- A step that does not go wrong may be taken. -/
theorem may_of_ok (h : Life l) {a : LoopAction} {l' : ConnectionLoop}
    (hok : step sameLoop a l = .ok l') : May sameLoop a l := by
  have hdoing := h.doing
  unfold Doing at hdoing
  cases a with
  | connectEstablished => trivial
  | send data result => trivial
  | shutdown => trivial
  | poll active => trivial
  | handleEvent revents => trivial
  | handled => trivial
  | doPendingFunctors => trivial
  | handle read result =>
      intro revents user todo
      simp only [step] at hok
      refine ⟨fun hphase hup heof => ?_, fun hphase => ?_⟩
      · rw [hphase] at hok hdoing
        obtain ⟨-, hclose, -, -⟩ := due_tail hdoing.2
        have hnot : .handleClose ∉ Handler.handleRead :: todo := fun hm =>
          (List.mem_cons.mp hm).elim nofun hclose
        rcases due_read hdoing.2 hnot List.mem_cons_self with ⟨-, -, hno⟩ | ⟨hs, -⟩
        · rw [hup] at hno
          cases hno
        · -- the connection has been closed by the same event
          subst heof
          have hok : l.handleClose revents todo = .ok l' := hok
          unfold handleClose at hok
          rw [TcpConnection.handleClose_fails fun ho => (TcpConnection.isOpen_ne ho).1 hs] at hok
          cases hok
      · rw [hphase] at hok
        by_contra hg
        have hg : l.serverGone = true := (Bool.not_eq_false _).mp hg
        have hok : closeCallback sameLoop { l with phase := .handling revents false todo } = .ok l' :=
          hok
        rw [closeCallback_fails (by exact hg)] at hok
        cases hok
  | removeConnectionInLoop =>
      intro hpos
      simp only [step] at hok
      rw [if_pos hpos] at hok
      by_contra hg
      have hg : l.serverGone = true := (Bool.not_eq_false _).mp hg
      rw [removeConnectionInLoop_fails (by exact hg)] at hok
      cases hok
  | connectDestroyed =>
      intro hfunctors hpos hs
      simp only [step] at hok
      rw [if_pos ⟨hfunctors, hpos, by rw [hs]; decide⟩] at hok
      rw [connectDestroyed_fails (l := { l with destroying := l.destroying - 1 }) h.intact] at hok
      · cases hok
      · exact fun hd => not_destroyable hs hd.1
  | destroyServer =>
      intro hsame huser hg hin
      simp only [step] at hok
      subst hsame
      have hfail : ∀ hnew : l.conn.state ≠ .kConnecting,
          ¬(l.conn.Destroyable ∧ (handlingOf l.phase).Free) → False := by
        intro hnew hnot
        rw [if_neg (by rw [huser]; exact fun hc => hc.2.elim nofun hnew)] at hok
        unfold ConnectionLoop.destroyServer at hok
        rw [if_neg (by rw [hg]; decide), if_pos hin, if_pos rfl] at hok
        rw [connectDestroyed_fails (l := { l with serverGone := true }) h.intact hnot] at hok
        cases hok
      refine ⟨fun hs => ?_, fun pending hphase => ?_⟩
      · exact hfail (by rw [hs]; decide) fun hd => not_destroyable hs hd.1
      · rw [hphase] at hdoing
        refine hfail (hdoing.2 rfl) fun hd => ?_
        have hfree := hd.2
        rw [hphase] at hfree
        rcases hfree rfl with hc | hc <;> cases hc

/-- Every run keeps the invariant. -/
theorem of_run {as : List LoopAction} (hrun : run (step sameLoop) as init = .ok l) : Life l := by
  refine run_inv (fun a s s' hs hok => ?_) life_init hrun
  obtain ⟨s₂, hok₂, hlife⟩ := hs.step_ok (hs.may_of_ok hok)
  have heq : s₂ = s' := Except.ok.inj (hok₂.symm.trans hok)
  exact heq ▸ hlife

end Life

/-! ### What holds of every run -/

/-- The runs that do not go wrong. -/
theorem run_ok_iff_may (sameLoop : Bool) (as : List LoopAction) :
    (∃ l, run (step sameLoop) as init = .ok l) ↔ Along (step sameLoop) (May sameLoop) as init :=
  run_ok_iff (fun _ _ hs hmay => hs.step_ok hmay) (fun _ _ _ hs hok => hs.may_of_ok hok) life_init

/-- **Main result.** No byte is lost, doubled or moved: the bytes that the socket has accepted and
those that wait are the messages sent while the connection was up.  While it is open the channel
waits for room just as long as bytes wait, and the write side is shut down only when none do. -/
theorem output_intact (sameLoop : Bool) {as : List LoopAction} {l : ConnectionLoop}
    (hrun : run (step sameLoop) as init = .ok l) :
    l.conn.accepted ++ l.conn.outputBuffer.readable = l.sent.flatten ∧
      (l.conn.isOpen → (l.conn.channel.isWriting = true ↔ l.conn.outputBuffer.readable ≠ [])) ∧
      ∀ s ∈ l.conn.shutdownWrites, s.waiting = [] := by
  have hintact := (Life.of_run hrun).intact
  refine ⟨hintact.fifo, fun hopen => ?_, hintact.drained⟩
  obtain ⟨w, hchan, hw⟩ := hintact.opened hopen
  rw [hchan]
  exact hw

/-- A message is written at once, and the write side shut down behind it. -/
theorem output_intact_written : ∃ l : ConnectionLoop,
    (l.conn.accepted = [1, 2, 3] ∧ l.conn.shutdownWrites.length = 1) ∧
      l.conn.accepted ++ l.conn.outputBuffer.readable = l.sent.flatten ∧
      (l.conn.isOpen → (l.conn.channel.isWriting = true ↔ l.conn.outputBuffer.readable ≠ [])) ∧
      ∀ s ∈ l.conn.shutdownWrites, s.waiting = [] := by
  have hrun : run (step true) [.connectEstablished, .send [1, 2, 3] (.wrote 3), .shutdown] init
      = .ok _ := rfl
  exact ⟨_, ⟨rfl, rfl⟩, output_intact true hrun⟩

/-- When the peer hangs up and there is something else to read, the reading does not end. -/
def ReadsOn (a : LoopAction) (l : ConnectionLoop) : Prop :=
  match a with
  | .handle read _ => ∀ revents user todo,
      l.phase = .handling revents user (.handleRead :: todo) → revents.hungUp = true →
        read ≠ .endOfFile
  | _ => True

theorem ReadsOn.of_may {sameLoop : Bool} {a : LoopAction} {l : ConnectionLoop}
    (h : May sameLoop a l) : ReadsOn a l := by
  cases a with
  | handle read result => exact fun revents user todo => (h revents user todo).1
  | _ => trivial

theorem serverGone_removed {l l' : ConnectionLoop} (h : l.removeConnectionInLoop = .ok l') :
    l'.serverGone = l.serverGone := by
  by_cases hg : l.serverGone = true
  · rw [removeConnectionInLoop_fails hg] at h
    cases h
  · have h : (if l.serverGone = true then _ else _) = Except.ok l' := h
    rw [if_neg hg] at h
    obtain ⟨-, -, h⟩ := bind_ok h
    cases h
    rfl

theorem serverGone_handle {sameLoop : Bool} {l l' : ConnectionLoop} {revents : Revents}
    {todo : List Handler} {read : ReadResult} {result : WriteResult} {head : Handler}
    (h : l.handle sameLoop revents todo read result head = .ok l') :
    l'.serverGone = l.serverGone := by
  have hclose : l.handleClose revents todo = .ok l' → l'.serverGone = l.serverGone := by
    intro h
    obtain ⟨c, -, h⟩ := bind_ok h
    cases h
    rfl
  cases head with
  | handleClose => exact hclose h
  | closeCallback =>
      have h : closeCallback sameLoop { l with phase := .handling revents false todo } = .ok l' := h
      by_cases hg : l.serverGone = true
      · rw [closeCallback_fails (by exact hg)] at h
        cases h
      · rw [closeCallback_eq (by exact Bool.eq_false_iff.mpr hg)] at h
        split at h
        · have hgone := serverGone_removed h
          exact hgone
        · cases h
          rfl
  | handleError => cases h; rfl
  | handleRead =>
      cases read with
      | bytes => cases h; rfl
      | endOfFile => exact hclose h
      | failed => cases h; rfl
  | handleWrite =>
      obtain ⟨c, -, h⟩ := bind_ok h
      cases h
      rfl

/-- Only `~TcpServer` ends the server. -/
theorem serverGone_step {sameLoop : Bool} {a : LoopAction} {l l' : ConnectionLoop}
    (ha : a ≠ .destroyServer) (h : step sameLoop a l = .ok l') : l'.serverGone = l.serverGone := by
  cases a with
  | destroyServer => exact absurd rfl ha
  | connectEstablished | send | connectDestroyed =>
      simp only [step] at h
      split at h
      · obtain ⟨c, -, h⟩ := bind_ok h
        cases h
        rfl
      · cases h
        rfl
  | shutdown | handleEvent | handled | doPendingFunctors =>
      simp only [step] at h
      split at h <;> cases h <;> rfl
  | poll active =>
      simp only [step] at h
      split at h
      · split at h <;> cases h <;> rfl
      · cases h
        rfl
  | handle read result =>
      simp only [step] at h
      split at h
      · exact serverGone_handle h
      · cases h
        rfl
  | removeConnectionInLoop =>
      simp only [step] at h
      split at h
      · have hgone := serverGone_removed h
        exact hgone
      · cases h
        rfl

/-- While there is a server, only the reading can go wrong. -/
theorem ReadsOn.may {sameLoop : Bool} {a : LoopAction} {l : ConnectionLoop} (h : Life l)
    (hgone : l.serverGone = false) (ha : a ≠ .destroyServer) (hreads : ReadsOn a l) :
    May sameLoop a l := by
  cases a with
  | handle read result => exact fun revents user todo => ⟨hreads revents user todo, fun _ => hgone⟩
  | removeConnectionInLoop => exact fun _ => hgone
  | connectDestroyed =>
      intro _ hpos hs
      have hnone := (h.listed (by rw [hs]; decide) hgone).2
      omega
  | destroyServer => exact absurd rfl ha
  | _ => trivial

/-- **Main result.** A connection of a server is closed at most once, and nothing goes wrong, in
just the runs in which no event both reports that the peer has hung up, with nothing to read, and
lets a read return the end of the stream. -/
theorem closes_once (sameLoop : Bool) {as : List LoopAction} (howned : .destroyServer ∉ as) :
    (∃ l, run (step sameLoop) as init = .ok l ∧ l.conn.closes ≤ 1 ∧ l.closeCallbacks ≤ 1) ↔
      Along (step sameLoop) ReadsOn as init := by
  refine ⟨fun ⟨l, hrun, _⟩ => ?_, fun h => ?_⟩
  · have hmay : Along (step sameLoop) (May sameLoop) as init :=
      (run_ok_iff_may sameLoop as).mp ⟨l, hrun⟩
    exact hmay.mono fun a s => ReadsOn.of_may
  · have hall := h.of_mem (P := (· ≠ .destroyServer)) fun a ha heq => howned (heq ▸ ha)
    have hstep : ∀ (a : LoopAction) (s : ConnectionLoop), (Life s ∧ s.serverGone = false) →
        (ReadsOn a s ∧ a ≠ .destroyServer) →
        ∃ s', step sameLoop a s = .ok s' ∧ Life s' ∧ s'.serverGone = false := by
      intro a s hs ha
      obtain ⟨s', hok, hlife⟩ := hs.1.step_ok (ha.1.may hs.1 hs.2 ha.2)
      exact ⟨s', hok, hlife, (serverGone_step ha.2 hok).trans hs.2⟩
    obtain ⟨l, hrun, hlife, -⟩ := run_ok hstep ⟨life_init, rfl⟩ hall
    refine ⟨l, hrun, ?_, hlife.called⟩
    by_cases hs : l.conn.state = .kDisconnected
    · exact (hlife.down hs).2
    · rw [(hlife.notDown hs).2.1]
      exact Nat.zero_le 1

/-- The peer ends the stream, and the connection is closed and destroyed. -/
theorem closes_once_endOfFile : Along (step true) ReadsOn [.connectEstablished, .poll true,
    .handleEvent ⟨true, false, false, false, false, false, false⟩, .handle .endOfFile .failed,
    .handle .failed .failed, .handled, .doPendingFunctors, .connectDestroyed] init :=
  (closes_once true (by simp)).mp ⟨_, rfl, by decide, by decide⟩

/-- The peer hangs up, which closes the connection; the read of the same event returns the end of
the stream, and closes it again. -/
theorem closes_twice : ∃ as : List LoopAction, .destroyServer ∉ as ∧
    run (step true) as init = .error .assertion :=
  ⟨[.connectEstablished, .poll true, .handleEvent ⟨false, false, false, true, true, false, false⟩,
    .handle .failed .failed, .handle .failed .failed, .handle .endOfFile .failed], by simp, rfl⟩

/-- **Main result.** Nothing goes wrong, the user is told once that the connection is up and once
that it is down, and a channel without events is removed from the poller that has it, in just the
runs whose steps all may be taken. -/
theorem destroyed_once (sameLoop : Bool) (as : List LoopAction) :
    (∃ l, run (step sameLoop) as init = .ok l ∧ l.destroyed ≤ 1 ∧
      (∀ ch ∈ l.conn.removals, ch.isNoneEvent = true ∧ ch.polled = true) ∧
      (l.destroyed = 1 → l.conn.ups = 1 ∧ l.conn.downs = 1 ∧ l.conn.removals.length = 1)) ↔
      Along (step sameLoop) (May sameLoop) as init := by
  refine ⟨fun ⟨l, hrun, _⟩ => (run_ok_iff_may sameLoop as).mp ⟨l, hrun⟩, fun h => ?_⟩
  obtain ⟨l, hrun⟩ := (run_ok_iff_may sameLoop as).mpr h
  have hlife := Life.of_run hrun
  have honce := hlife.once
  have hend : l.destroyed = 1 → l.conn.state = .kDisconnected := by
    intro hd
    by_contra hs
    have hnone := (hlife.notDown hs).2.2.2.2.1
    omega
  refine ⟨l, hrun, by omega, fun ch hch => ?_, fun hd => ?_⟩
  · have hs : l.conn.state = .kDisconnected := by
      by_contra hs
      rw [(hlife.notDown hs).2.2.2.2.2] at hch
      cases hch
    by_cases hd : l.destroyed = 0
    · rw [(hlife.alive hs hd).2] at hch
      cases hch
    · rw [hlife.gone hs hd] at hch
      rw [List.mem_singleton.mp hch]
      exact ⟨rfl, rfl⟩
  · have hs := hend hd
    rw [hlife.gone hs (by omega)]
    exact ⟨hlife.up (by rw [hs]; decide), (hlife.down hs).1, rfl⟩

/-- The server goes while the write side of a connection is to be shut down; and it goes in the
handler of another channel when that of the connection is among the active ones. -/
theorem destroyed_open :
    run (step true) [.connectEstablished, .shutdown, .destroyServer] init = .error .assertion ∧
      run (step true) [.connectEstablished, .poll true, .destroyServer] init = .error .assertion :=
  ⟨rfl, rfl⟩

end ConnectionLoop

end Net
