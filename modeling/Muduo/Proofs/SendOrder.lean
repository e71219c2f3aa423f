/-
The order in which a connection writes what several threads send.

The functions of the connection are looked at once more, in every state: what a race leaves
behind need not be a state that the loop thread alone could reach.
-/
import Muduo.Net.SharedConnection
import Muduo.Proofs.Connections

namespace Net

open Lib

/-! ### Bytes in every state -/

namespace TcpConnection

variable {c c' : TcpConnection}

/-- The bytes that have gone through the connection. -/
def through (c : TcpConnection) : Bytes := c.accepted ++ c.outputBuffer.readable

/-- A write side is shut down, or nothing is. -/
def ShutsDown (c c' : TcpConnection) : Prop :=
  c'.shutdownWrites = c.shutdownWrites ∨
    c'.shutdownWrites = c.shutdownWrites ++ [⟨c'.accepted, c'.outputBuffer.readable⟩]

theorem enqueue_ok {rest : Bytes} (h : c.enqueue rest = .ok c') :
    c'.through = c.through ++ rest ∧ c'.state = c.state ∧ c'.shutdownWrites = c.shutdownWrites := by
  have hthrough : c.accepted ++ (c.outputBuffer.append rest).readable = c.through ++ rest := by
    rw [Buffer.readable_append, ← List.append_assoc]
    rfl
  unfold enqueue at h
  by_cases hw : c.channel.isWriting = true
  · have h : (if c.channel.isWriting = true then _ else _) = Except.ok c' := h
    rw [if_pos hw] at h
    cases h
    exact ⟨hthrough, rfl, rfl⟩
  · have h : (if c.channel.isWriting = true then _ else _) = Except.ok c' := h
    rw [if_neg hw] at h
    obtain ⟨channel, -, h⟩ := bind_ok h
    cases h
    exact ⟨hthrough, rfl, rfl⟩

/-- `sendInLoop` adds its message behind what has gone through, unless it is lost. -/
theorem sendInLoop_ok {data : Bytes} {result : WriteResult}
    (h : c.sendInLoop data result = .ok c') :
    c'.through = (if c.state ≠ .kDisconnected ∧
        (c.writesDirectly && (result.nwrote data.length).2) = false then c.through ++ data
      else c.through) ∧
      c'.state = c.state ∧ c'.shutdownWrites = c.shutdownWrites := by
  unfold sendInLoop at h
  by_cases hs : c.state = .kDisconnected
  · rw [if_pos hs] at h
    cases h
    exact ⟨by rw [if_neg fun hc => hc.1 hs], rfl, rfl⟩
  rw [if_neg hs] at h
  set p : Nat × Bool :=
    if c.writesDirectly then result.nwrote data.length else (0, false) with hp
  obtain ⟨hlost, hnone, hdirect⟩ := writtenAtOnce_spec c data result
  rw [← hp] at hlost hnone hdirect
  set d : TcpConnection := { c with accepted := c.accepted ++ data.take p.1 } with hd
  have hthrough : d.through = c.through ++ data.take p.1 := hdirect
  simp only [assertThat_of (Nat.sub_le data.length p.1)] at h
  have h : (if p.2 = false ∧ 0 < data.length - p.1 then d.enqueue (data.drop p.1) else .ok d)
      = Except.ok c' := h
  rw [← hlost]
  by_cases herr : p.2 = true
  · rw [if_neg (fun hc => by rw [herr] at hc; cases hc.1)] at h
    rw [← Except.ok.inj h, if_neg (fun hc => by rw [herr] at hc; cases hc.2), hthrough, hnone herr,
      List.take_zero, List.append_nil]
    exact ⟨rfl, rfl, rfl⟩
  · have hok : p.2 = false := Bool.eq_false_iff.mpr herr
    rw [if_pos ⟨hs, hok⟩]
    by_cases hrest : 0 < data.length - p.1
    · rw [if_pos ⟨hok, hrest⟩] at h
      obtain ⟨ht, hstate, hshut⟩ := enqueue_ok h
      refine ⟨?_, hstate, hshut⟩
      rw [ht, hthrough, List.append_assoc, List.take_append_drop]
    · rw [if_neg fun hc => hrest hc.2] at h
      rw [← Except.ok.inj h]
      refine ⟨?_, rfl, rfl⟩
      rw [hthrough, List.take_of_length_le (by omega)]

theorem shutdownInLoop_shutsDown (c : TcpConnection) :
    c.shutdownInLoop.through = c.through ∧ c.shutdownInLoop.state = c.state ∧
      ShutsDown c c.shutdownInLoop := by
  unfold shutdownInLoop
  split
  · exact ⟨rfl, rfl, Or.inl rfl⟩
  · exact ⟨rfl, rfl, Or.inr rfl⟩

theorem handleWrite_ok {result : WriteResult} (h : c.handleWrite result = .ok c') :
    c'.through = c.through ∧ c'.state = c.state ∧
      (c'.shutdownWrites = c.shutdownWrites ∨ (c.state = .kDisconnecting ∧ ShutsDown c c')) := by
  unfold handleWrite at h
  by_cases hw : c.channel.isWriting = false
  · rw [if_pos hw] at h
    cases h
    exact ⟨rfl, rfl, Or.inl rfl⟩
  rw [if_neg hw] at h
  cases result with
  | wouldBlock => cases h; exact ⟨rfl, rfl, Or.inl rfl⟩
  | brokenPipe => cases h; exact ⟨rfl, rfl, Or.inl rfl⟩
  | failed => cases h; exact ⟨rfl, rfl, Or.inl rfl⟩
  | wrote n =>
      set m := min n c.outputBuffer.readableBytes with hm
      have hdrain : (c.drain n).through = c.through := by
        show c.accepted ++ c.outputBuffer.readable.take m ++
          (c.outputBuffer.retrieve m (Nat.min_le_right _ _)).readable = _
        rw [Buffer.readable_retrieve, List.append_assoc, List.take_append_drop]
        rfl
      have h : (if m = 0 then pure c
        else if (c.drain n).outputBuffer.readableBytes = 0 then _ else _) = Except.ok c' := h
      by_cases hzero : m = 0
      · rw [if_pos hzero] at h
        cases h
        exact ⟨rfl, rfl, Or.inl rfl⟩
      rw [if_neg hzero] at h
      by_cases hlast : (c.drain n).outputBuffer.readableBytes = 0
      · rw [if_pos hlast] at h
        obtain ⟨channel, -, h⟩ := bind_ok h
        set d : TcpConnection := { c.drain n with channel := channel } with hd
        have h : Except.ok (if d.state = .kDisconnecting then d.shutdownInLoop else d) = .ok c' := h
        cases h
        have hthrough : d.through = c.through := hdrain
        split
        · rename_i hs
          obtain ⟨ht, hstate, hshut⟩ := shutdownInLoop_shutsDown d
          exact ⟨ht.trans hthrough, hstate, Or.inr ⟨hs, hshut⟩⟩
        · exact ⟨hthrough, rfl, Or.inl rfl⟩
      · rw [if_neg hlast] at h
        cases h
        exact ⟨hdrain, rfl, Or.inl rfl⟩

theorem handleClose_ok (h : c.handleClose = .ok c') :
    c'.through = c.through ∧ c'.state = .kDisconnected ∧ c'.shutdownWrites = c.shutdownWrites := by
  unfold handleClose at h
  obtain ⟨-, -, h⟩ := bind_ok h
  obtain ⟨channel, -, h⟩ := bind_ok h
  cases h
  exact ⟨rfl, rfl, rfl⟩

theorem connectDestroyed_ok {loop : Handling} (h : c.connectDestroyed loop = .ok c') :
    c'.through = c.through ∧ (c'.state = c.state ∨ c'.state = .kDisconnected) ∧
      c'.shutdownWrites = c.shutdownWrites := by
  unfold connectDestroyed at h
  by_cases hs : c.state = .kConnected
  · rw [if_pos hs] at h
    obtain ⟨channel, -, h⟩ := bind_ok h
    obtain ⟨d, hd, h⟩ := bind_ok h
    obtain ⟨channel', -, h⟩ := bind_ok h
    cases hd
    cases h
    exact ⟨rfl, Or.inr rfl, rfl⟩
  · rw [if_neg hs] at h
    obtain ⟨d, hd, h⟩ := bind_ok h
    obtain ⟨channel, -, h⟩ := bind_ok h
    cases hd
    cases h
    exact ⟨rfl, Or.inl rfl, rfl⟩

end TcpConnection

/-! ### The invariant -/

def SendFunctor.message? : SendFunctor → Option Message
  | sendInLoop m => some m
  | shutdownInLoop => none

/-- `x` may be written before `y`: if `y` had been sent when `x` was, then in another thread, and
`x` in the loop thread. -/
def InOrder (x y : Message) : Prop :=
  y.returned < x.called → x.fromLoop = true ∧ y.fromLoop = false

namespace SharedConnection

/-- The messages that wait in the queue of the loop. -/
def queued (s : SharedConnection) : List Message := s.pendingFunctors.filterMap SendFunctor.message?

/-- The invariant, in front of a step at the time `now`. -/
structure Ordered (s : SharedConnection) (now : Nat) : Prop where
  fifo : s.conn.through = (s.sent.map Message.data).flatten
  called : ∀ m ∈ s.sent ++ s.queued, m.called < now
  calls : ∀ c ∈ s.calls, c.called < now
  order : (s.sent ++ s.queued).Pairwise InOrder
  foreign : ∀ m ∈ s.queued, m.fromLoop = false
  intact : s.closed = false → Intact s.conn (s.sent.map Message.data) ∧ s.conn.isOpen
  up : s.conn.state = .kConnected → s.shutdownAt = none
  asked : (s.conn.state = .kDisconnecting ∨ 0 < s.disconnecting ∨
    SendFunctor.shutdownInLoop ∈ s.pendingFunctors) → s.shutdownAt ≠ none
  late : ∀ t n, s.shutdownAt = some (t, n) → n ≤ s.sent.length ∧
    (∀ m ∈ s.sent ++ s.queued, m.called < t) ∧ ∀ c ∈ s.calls, c.called < t
  flushed : s.closed = false → ∀ w ∈ s.conn.shutdownWrites, ∃ k t n,
    w.accepted = ((s.sent.take k).map Message.data).flatten ∧ k ≤ s.sent.length ∧
      s.shutdownAt = some (t, n) ∧ n ≤ k

namespace Ordered

variable {s : SharedConnection} {now : Nat}

theorem init : Ordered init 0 where
  fifo := rfl
  called := fun _ h => absurd h List.not_mem_nil
  calls := fun _ h => absurd h List.not_mem_nil
  order := List.Pairwise.nil
  foreign := fun _ h => absurd h List.not_mem_nil
  intact := fun _ => by
    obtain ⟨-, hintact⟩ := TcpConnection.connectEstablished_spec TcpConnection.intact_init rfl
    exact ⟨hintact, Or.inl rfl⟩
  up := fun _ => rfl
  asked := fun h => by
    rcases h with h | h | h
    · cases h
    · exact absurd h (Nat.lt_irrefl 0)
    · cases h
  late := nofun
  flushed := fun _ _ h => absurd h List.not_mem_nil

theorem later (h : Ordered s now) {now' : Nat} (hle : now ≤ now') : Ordered s now' :=
  ⟨h.fifo, fun m hm => Nat.lt_of_lt_of_le (h.called m hm) hle,
    fun c hc => Nat.lt_of_lt_of_le (h.calls c hc) hle, h.order, h.foreign, h.intact, h.up, h.asked,
    h.late, h.flushed⟩

/-- The time of the state itself does not matter. -/
theorem tick (h : Ordered s now) (clock : Nat) : Ordered { s with clock := clock } now :=
  ⟨h.fifo, h.called, h.calls, h.order, h.foreign, h.intact, h.up, h.asked, h.late, h.flushed⟩

/-! ### Steps -/

/-- A step of the connection that sends nothing. -/
theorem frame (h : Ordered s now) {c : TcpConnection} {closed : Bool}
    (hthrough : c.through = s.conn.through)
    (hstate : c.state = s.conn.state ∨ (c.state ≠ .kConnected ∧ c.state ≠ .kDisconnecting))
    (hopen : closed = false → s.closed = false ∧ Intact c (s.sent.map Message.data) ∧ c.isOpen)
    (hshut : c.shutdownWrites = s.conn.shutdownWrites ∨
      (TcpConnection.ShutsDown s.conn c ∧ s.shutdownAt ≠ none)) :
    Ordered { s with conn := c, closed := closed } now := by
  refine ⟨hthrough.trans h.fifo, h.called, h.calls, h.order, h.foreign, fun hc => (hopen hc).2,
    fun hs => ?_, fun hask => ?_, h.late, fun hc w hw => ?_⟩
  · rcases hstate with heq | ⟨hne, -⟩
    · exact h.up (heq.symm.trans hs)
    · exact absurd hs hne
  · refine h.asked (hask.imp_left fun hs => ?_)
    rcases hstate with heq | ⟨-, hne⟩
    · exact heq.symm.trans hs
    · exact absurd hs hne
  · obtain ⟨hclosed, hintact, -⟩ := hopen hc
    have hw : w ∈ c.shutdownWrites := hw
    rcases hshut with heq | ⟨heq | heq, hsome⟩
    · rw [heq] at hw
      exact h.flushed hclosed w hw
    · rw [heq] at hw
      exact h.flushed hclosed w hw
    · have hempty := hintact.drained w hw
      rw [heq] at hw
      rcases List.mem_append.mp hw with hw | hw
      · exact h.flushed hclosed w hw
      · -- nothing waits, so all that has been sent has been accepted
        have hw := List.mem_singleton.mp hw
        subst hw
        have hfifo := hthrough.trans h.fifo
        unfold TcpConnection.through at hfifo
        have hempty : c.outputBuffer.readable = [] := hempty
        rw [hempty, List.append_nil] at hfifo
        obtain ⟨⟨t, n⟩, htn⟩ := Option.ne_none_iff_exists'.mp hsome
        refine ⟨s.sent.length, t, n, ?_, Nat.le_refl _, htn, (h.late t n htn).1⟩
        rw [List.take_length]
        exact hfifo

/-- `sendInLoop` of a message that is in order. -/
theorem sendInLoop (h : Ordered s now) {m : Message} {result : WriteResult} {s' : SharedConnection}
    (hok : s.sendInLoop m result = .ok s') (hm : m.called < now)
    (hafter : ∀ x ∈ s.sent, InOrder x m) (hbefore : ∀ y ∈ s.queued, InOrder m y)
    (hlate : ∀ t n, s.shutdownAt = some (t, n) → m.called < t) : Ordered s' now := by
  obtain ⟨c, hc, hok⟩ := bind_ok hok
  obtain ⟨hthrough, hstate, hshut⟩ := TcpConnection.sendInLoop_ok hc
  set lost := s.conn.writesDirectly && (result.nwrote m.data.length).2 with hlost
  have hintact : s.closed = false → Intact c
      ((if s.conn.state ≠ .kDisconnected ∧ lost = false then s.sent ++ [m] else s.sent).map Message.data)
        ∧ c.isOpen := by
    intro hclosed
    obtain ⟨hintact, hopen⟩ := h.intact hclosed
    obtain ⟨c', hc', hsame, hintact'⟩ := TcpConnection.sendInLoop_spec hintact hopen m.data result
    have heq : c' = c := Except.ok.inj (hc'.symm.trans hc)
    subst heq
    refine ⟨?_, hsame.isOpen.mpr hopen⟩
    by_cases hl : lost = false
    · rw [if_pos ⟨(TcpConnection.isOpen_ne hopen).1, hl⟩, List.map_append]
      rw [if_neg (by rw [← Bool.and_eq_true, ← hlost, hl]; decide)] at hintact'
      exact hintact'
    · rw [if_neg fun hx => hl hx.2]
      rw [if_pos (by rw [← Bool.and_eq_true, ← hlost]; exact (Bool.not_eq_false _).mp hl)] at hintact'
      exact hintact'
  cases hok
  by_cases htaken : s.conn.state ≠ .kDisconnected ∧ lost = false
  · rw [if_pos htaken] at hthrough hintact
    simp only [if_pos htaken]
    have hmem : ∀ x ∈ s.sent ++ [m] ++ s.queued, x ∈ s.sent ++ s.queued ∨ x = m := by
      intro x hx
      rcases List.mem_append.mp hx with hx | hx
      · rcases List.mem_append.mp hx with hx | hx
        · exact Or.inl (List.mem_append_left _ hx)
        · exact Or.inr (List.mem_singleton.mp hx)
      · exact Or.inl (List.mem_append_right _ hx)
    refine ⟨?_, fun x hx => ?_, h.calls, ?_, h.foreign, hintact, fun hs => h.up (hstate.symm.trans hs),
      fun hask => h.asked (hask.imp_left fun hs => hstate.symm.trans hs), fun t n htn => ?_,
      fun hclosed w hw => ?_⟩
    · rw [List.map_append, List.flatten_append]
      show c.through = _ ++ [m.data].flatten
      rw [hthrough, h.fifo, List.flatten_singleton]
    · rcases hmem x hx with hx | rfl
      · exact h.called x hx
      · exact hm
    · show (s.sent ++ [m] ++ s.queued).Pairwise InOrder
      obtain ⟨hsent, hqueued, hcross⟩ := List.pairwise_append.mp h.order
      rw [List.append_assoc]
      refine List.pairwise_append.mpr ⟨hsent, List.pairwise_cons.mpr ⟨hbefore, hqueued⟩, ?_⟩
      intro x hx y hy
      rcases List.mem_cons.mp hy with rfl | hy
      · exact hafter x hx
      · exact hcross x hx y hy
    · obtain ⟨hle, hall, hcalls⟩ := h.late t n htn
      refine ⟨?_, fun x hx => ?_, hcalls⟩
      · rw [List.length_append]
        omega
      · rcases hmem x hx with hx | rfl
        · exact hall x hx
        · exact hlate t n htn
    · have hw : w ∈ c.shutdownWrites := hw
      rw [hshut] at hw
      obtain ⟨k, t, n, haccepted, hk, htn, hn⟩ := h.flushed hclosed w hw
      refine ⟨k, t, n, ?_, ?_, htn, hn⟩
      · rw [List.take_append_of_le_length hk]
        exact haccepted
      · rw [List.length_append]
        omega
  · rw [if_neg htaken] at hthrough hintact
    simp only [if_neg htaken]
    refine h.frame hthrough (Or.inl hstate) (fun hclosed => ⟨hclosed, hintact hclosed⟩) (Or.inl hshut)

/-- `setState(kDisconnecting)` -/
theorem setDisconnecting (h : Ordered s s.clock) : Ordered s.setDisconnecting s.clock := by
  refine ⟨h.fifo, h.called, h.calls, h.order, h.foreign, fun hclosed => ?_, nofun, fun _ => nofun,
    fun t n htn => ?_, fun hclosed w hw => ?_⟩
  · obtain ⟨hintact, hopen⟩ := h.intact hclosed
    exact ⟨⟨hintact.fifo, fun _ => hintact.opened hopen, nofun, nofun, hintact.drained⟩, Or.inr rfl⟩
  · have htn : some (s.shutdownAt.getD (s.clock, s.sent.length)) = some (t, n) := htn
    cases hat : s.shutdownAt with
    | some p =>
        rw [hat] at htn
        exact h.late t n (hat.trans htn)
    | none =>
        rw [hat] at htn
        cases htn
        exact ⟨Nat.le_refl _, h.called, h.calls⟩
  · obtain ⟨k, t, n, haccepted, hk, htn, hn⟩ := h.flushed hclosed w hw
    refine ⟨k, t, n, haccepted, hk, ?_, hn⟩
    show some (s.shutdownAt.getD _) = _
    rw [htn]
    rfl

/-- A thread queues its message. -/
theorem queueSend (h : Ordered s s.clock) {call : PendingCall} (hcall : call ∈ s.calls) :
    Ordered { s with
      calls := s.calls.erase call
      pendingFunctors := s.pendingFunctors ++
        [.sendInLoop ⟨call.data, false, call.called, s.clock⟩] } s.clock := by
  set m : Message := ⟨call.data, false, call.called, s.clock⟩ with hm
  have hqueued : (s.pendingFunctors ++ [SendFunctor.sendInLoop m]).filterMap SendFunctor.message?
      = s.queued ++ [m] := by
    rw [List.filterMap_append]
    rfl
  have hall : ∀ x ∈ s.sent ++ (s.queued ++ [m]), x ∈ s.sent ++ s.queued ∨ x = m := by
    intro x hx
    rw [← List.append_assoc] at hx
    exact (List.mem_append.mp hx).imp_right List.mem_singleton.mp
  refine ⟨h.fifo, fun x hx => ?_, fun c hc => h.calls c (List.mem_of_mem_erase hc), ?_, fun x hx => ?_,
    h.intact, h.up, fun hask => ?_, fun t n htn => ?_, h.flushed⟩
  · unfold queued at hx
    rw [hqueued] at hx
    rcases hall x hx with hx | rfl
    · exact h.called x hx
    · exact h.calls call hcall
  · unfold queued
    rw [hqueued, ← List.append_assoc]
    refine List.pairwise_append.mpr ⟨h.order, List.pairwise_singleton _ _, ?_⟩
    intro x hx y hy hlt
    rw [List.mem_singleton.mp hy] at hlt
    have hpast := h.called x hx
    have hlt : s.clock < x.called := hlt
    omega
  · unfold queued at hx
    rw [hqueued] at hx
    rcases List.mem_append.mp hx with hx | hx
    · exact h.foreign x hx
    · rw [List.mem_singleton.mp hx]
  · refine h.asked (hask.imp_right fun hask => hask.imp_right fun hf => ?_)
    exact (List.mem_append.mp hf).resolve_right fun hf => by
      have := List.mem_singleton.mp hf
      cases this
  · obtain ⟨hle, hmem, hcalls⟩ := h.late t n htn
    refine ⟨hle, fun x hx => ?_, fun c hc => hcalls c (List.mem_of_mem_erase hc)⟩
    unfold queued at hx
    rw [hqueued] at hx
    rcases hall x hx with hx | rfl
    · exact hmem x hx
    · exact hcalls call hcall

/-- The loop takes a functor. -/
theorem pop (h : Ordered s now) {f : SendFunctor} {rest : List SendFunctor}
    (hq : s.pendingFunctors = f :: rest) : Ordered { s with pendingFunctors := rest } now := by
  have hsub : (rest.filterMap SendFunctor.message?).Sublist s.queued := by
    unfold queued
    rw [hq]
    exact (List.sublist_cons_self f rest).filterMap _
  have hall := List.Sublist.append (List.Sublist.refl s.sent) hsub
  refine ⟨h.fifo, fun x hx => h.called x (hall.subset hx), h.calls, h.order.sublist hall,
    fun x hx => h.foreign x (hsub.subset hx), h.intact, h.up, fun hask => ?_, fun t n htn => ?_, h.flushed⟩
  · refine h.asked (hask.imp_right fun hask => hask.imp_right fun hf => ?_)
    rw [hq]
    exact List.mem_cons_of_mem f hf
  · obtain ⟨hle, hmem, hcalls⟩ := h.late t n htn
    exact ⟨hle, fun x hx => hmem x (hall.subset hx), hcalls⟩

/-- The write side is shut down, or left to `handleWrite`, when a thread has asked for it. -/
theorem shutdownInLoop (h : Ordered s now) (hasked : s.shutdownAt ≠ none) :
    Ordered { s with conn := s.conn.shutdownInLoop } now := by
  obtain ⟨hthrough, hstate, hshut⟩ := TcpConnection.shutdownInLoop_shutsDown s.conn
  refine h.frame hthrough (Or.inl hstate) (fun hclosed => ?_) (Or.inr ⟨hshut, hasked⟩)
  obtain ⟨hintact, hopen⟩ := h.intact hclosed
  obtain ⟨hintact', hsame⟩ := TcpConnection.shutdownInLoop_intact hintact hopen
  exact ⟨hclosed, hintact', hsame.isOpen.mpr hopen⟩

/-- A call of the loop thread. -/
theorem actSend (h : Ordered s s.clock) {data : Bytes} {result : WriteResult} {s' : SharedConnection}
    (hok : s.act (.send data result) = .ok s') : Ordered s' (s.clock + 1) ∧ s'.clock = s.clock := by
  have hlater := h.later (Nat.le_succ s.clock)
  simp only [SharedConnection.act] at hok
  by_cases hs : s.conn.state = .kConnected
  · rw [if_pos hs] at hok
    refine ⟨hlater.sendInLoop hok (Nat.lt_succ_self _) (fun x hx hlt => ?_) (fun y hy _ => ?_)
      (fun t n htn => ?_), ?_⟩
    · have hpast := h.called x (List.mem_append_left _ hx)
      have hlt : s.clock < x.called := hlt
      omega
    · exact ⟨rfl, h.foreign y hy⟩
    · rw [h.up hs] at htn
      cases htn
    · obtain ⟨c, -, hok⟩ := bind_ok hok
      cases hok
      rfl
  · rw [if_neg hs] at hok
    cases hok
    exact ⟨hlater, rfl⟩

theorem actCallSend (h : Ordered s s.clock) {data : Bytes} {s' : SharedConnection}
    (hok : s.act (.callSend data) = .ok s') : Ordered s' (s.clock + 1) ∧ s'.clock = s.clock := by
  have hlater := h.later (Nat.le_succ s.clock)
  cases hok
  by_cases hs : s.conn.state = .kConnected
  · rw [if_pos hs]
    refine ⟨⟨h.fifo, hlater.called, fun c hc => ?_, h.order, h.foreign, h.intact, h.up, h.asked,
      fun t n htn => ?_, h.flushed⟩, rfl⟩
    · rcases List.mem_cons.mp hc with rfl | hc
      · exact Nat.lt_succ_self _
      · exact hlater.calls c hc
    · have htn : s.shutdownAt = some (t, n) := htn
      rw [h.up hs] at htn
      cases htn
  · rw [if_neg hs]
    exact ⟨hlater, rfl⟩

theorem actQueueShutdown (h : Ordered s s.clock) {s' : SharedConnection}
    (hok : s.act .queueShutdown = .ok s') : Ordered s' (s.clock + 1) ∧ s'.clock = s.clock := by
  have hlater := h.later (Nat.le_succ s.clock)
  cases hok
  split
  · rename_i hpos
    have hqueued : (s.pendingFunctors ++ [SendFunctor.shutdownInLoop]).filterMap SendFunctor.message?
        = s.queued := by
      rw [List.filterMap_append]
      exact List.append_nil _
    refine ⟨⟨h.fifo, ?_, hlater.calls, ?_, ?_, h.intact, h.up, fun _ => h.asked (Or.inr (Or.inl hpos)),
      ?_, h.flushed⟩, rfl⟩
    · unfold queued
      rw [hqueued]
      exact hlater.called
    · unfold queued
      rw [hqueued]
      exact h.order
    · unfold queued
      rw [hqueued]
      exact h.foreign
    · unfold queued
      rw [hqueued]
      exact h.late
  · exact ⟨hlater, rfl⟩

/-- A queued call has been made before those that wait behind it. -/
theorem actRunFunctor (h : Ordered s s.clock) {result : WriteResult} {s' : SharedConnection}
    (hok : s.act (.runFunctor result) = .ok s') : Ordered s' (s.clock + 1) ∧ s'.clock = s.clock := by
  have hlater := h.later (Nat.le_succ s.clock)
  simp only [SharedConnection.act] at hok
  cases hq : s.pendingFunctors with
  | nil =>
      rw [hq] at hok
      cases hok
      exact ⟨hlater, rfl⟩
  | cons f rest =>
      rw [hq] at hok
      have hpop := hlater.pop hq
      cases f with
      | shutdownInLoop =>
          cases hok
          refine ⟨hpop.shutdownInLoop (h.asked (Or.inr (Or.inr ?_))), rfl⟩
          rw [hq]
          exact List.mem_cons_self
      | sendInLoop m =>
          have hqueued : s.queued = m :: rest.filterMap SendFunctor.message? := by
            unfold queued
            rw [hq]
            rfl
          have hmem : m ∈ s.sent ++ s.queued := by
            rw [hqueued]
            exact List.mem_append_right _ List.mem_cons_self
          obtain ⟨-, hq', hcross⟩ := List.pairwise_append.mp h.order
          rw [hqueued] at hq' hcross
          refine ⟨hpop.sendInLoop hok (hlater.called m hmem) ?_ ?_ ?_, ?_⟩
          · exact fun x hx => hcross x hx m List.mem_cons_self
          · exact fun y hy => (List.pairwise_cons.mp hq').1 y hy
          · exact fun t n htn => (h.late t n htn).2.1 m hmem
          · obtain ⟨c, -, hok⟩ := bind_ok hok
            cases hok
            rfl

theorem actHandleWrite (h : Ordered s s.clock) {result : WriteResult} {s' : SharedConnection}
    (hok : s.act (.handleWrite result) = .ok s') : Ordered s' (s.clock + 1) ∧ s'.clock = s.clock := by
  have hlater := h.later (Nat.le_succ s.clock)
  obtain ⟨c, hc, hok⟩ := bind_ok hok
  obtain ⟨hthrough, hstate, hshut⟩ := TcpConnection.handleWrite_ok hc
  cases hok
  refine ⟨hlater.frame hthrough (Or.inl hstate) (fun hclosed => ?_)
    (hshut.imp_right fun ⟨hs, hshut⟩ => ⟨hshut, h.asked (Or.inl hs)⟩), rfl⟩
  obtain ⟨hintact, hopen⟩ := h.intact hclosed
  obtain ⟨c', hc', hsame, hintact'⟩ := TcpConnection.handleWrite_spec hintact result
  have heq : c' = c := Except.ok.inj (hc'.symm.trans hc)
  subst heq
  exact ⟨hclosed, hintact', hsame.isOpen.mpr hopen⟩

theorem act (h : Ordered s s.clock) {a : SharedAction} {s' : SharedConnection}
    (hok : s.act a = .ok s') : Ordered s' (s.clock + 1) ∧ s'.clock = s.clock := by
  have hlater := h.later (Nat.le_succ s.clock)
  cases a with
  | send data result => exact h.actSend hok
  | shutdown =>
      simp only [SharedConnection.act] at hok
      by_cases hs : s.conn.state = .kConnected
      · rw [if_pos hs] at hok
        cases hok
        exact ⟨(h.setDisconnecting.later (Nat.le_succ _)).shutdownInLoop nofun, rfl⟩
      · rw [if_neg hs] at hok
        cases hok
        exact ⟨hlater, rfl⟩
  | callSend data => exact h.actCallSend hok
  | queueSend call =>
      cases hok
      by_cases hcall : call ∈ s.calls
      · rw [if_pos hcall]
        exact ⟨(h.queueSend hcall).later (Nat.le_succ _), rfl⟩
      · rw [if_neg hcall]
        exact ⟨hlater, rfl⟩
  | callShutdown =>
      cases hok
      split
      · exact ⟨⟨h.fifo, hlater.called, hlater.calls, h.order, h.foreign, h.intact, h.up, h.asked, h.late,
          h.flushed⟩, rfl⟩
      · exact ⟨hlater, rfl⟩
  | setState =>
      cases hok
      split
      · have hset := h.setDisconnecting.later (Nat.le_succ _)
        exact ⟨⟨hset.fifo, hset.called, hset.calls, hset.order, hset.foreign, hset.intact, hset.up,
          fun _ => nofun, hset.late, hset.flushed⟩, rfl⟩
      · exact ⟨hlater, rfl⟩
  | queueShutdown => exact h.actQueueShutdown hok
  | runFunctor result => exact h.actRunFunctor hok
  | handleWrite result => exact h.actHandleWrite hok
  | handleClose =>
      simp only [SharedConnection.act] at hok
      split at hok
      · cases hok
        exact ⟨hlater, rfl⟩
      · obtain ⟨c, hc, hok⟩ := bind_ok hok
        obtain ⟨hthrough, hstate, hshut⟩ := TcpConnection.handleClose_ok hc
        cases hok
        refine ⟨hlater.frame hthrough (Or.inr ?_) nofun (Or.inl hshut), rfl⟩
        rw [hstate]
        decide
  | connectDestroyed loop =>
      obtain ⟨c, hc, hok⟩ := bind_ok hok
      obtain ⟨hthrough, hstate, hshut⟩ := TcpConnection.connectDestroyed_ok hc
      cases hok
      refine ⟨hlater.frame hthrough (hstate.imp_right fun hs => ?_) nofun (Or.inl hshut), rfl⟩
      rw [hs]
      decide

theorem step (h : Ordered s s.clock) {a : SharedAction} {s' : SharedConnection}
    (hok : step a s = .ok s') : Ordered s' s'.clock := by
  unfold SharedConnection.step at hok
  cases hact : s.act a with
  | error e =>
      rw [hact] at hok
      cases hok
  | ok s₁ =>
      rw [hact] at hok
      cases hok
      obtain ⟨hordered, hclock⟩ := h.act hact
      show Ordered _ (s₁.clock + 1)
      rw [hclock]
      exact hordered.tick _

end Ordered

/-- **Main result.** The socket is given the messages in the order of their calls, but that the loop
thread may overtake what another thread has queued.  Nothing is written that was sent when `shutdown`
had set the state.  And as long as the connection has not been closed its write side is shut down
behind all that `sendInLoop` has taken, which includes what it had taken when `shutdown` was called. -/
theorem sends_ordered {as : List SharedAction} {s : SharedConnection}
    (hrun : run step as init = .ok s) :
    s.conn.accepted ++ s.conn.outputBuffer.readable = (s.sent.map Message.data).flatten ∧
      s.sent.Pairwise InOrder ∧
      (∀ t n, s.shutdownAt = some (t, n) → ∀ m ∈ s.sent, m.called < t) ∧
      (s.closed = false → ∀ w ∈ s.conn.shutdownWrites, w.waiting = [] ∧ ∃ k t n,
        w.accepted = ((s.sent.take k).map Message.data).flatten ∧ s.shutdownAt = some (t, n) ∧
          n ≤ k) := by
  have hstep : ∀ (a : SharedAction) (s s' : SharedConnection), Ordered s s.clock →
      step a s = .ok s' → Ordered s' s'.clock := fun _ _ _ hs hok => hs.step hok
  have h : Ordered s s.clock := run_inv hstep Ordered.init hrun
  refine ⟨h.fifo, (List.pairwise_append.mp h.order).1, fun t n htn m hm => ?_, fun hclosed w hw => ?_⟩
  · exact (h.late t n htn).2.1 m (List.mem_append_left _ hm)
  · obtain ⟨k, t, n, haccepted, -, htn, hn⟩ := h.flushed hclosed w hw
    exact ⟨(h.intact hclosed).1.drained w hw, k, t, n, haccepted, htn, hn⟩

/-- Two threads send, one after the other, and a third shuts the write side down. -/
theorem sends_ordered_threads : ∃ s : SharedConnection,
    s.conn.accepted = [1, 2] ∧ s.conn.shutdownWrites.length = 1 ∧
    s.conn.accepted ++ s.conn.outputBuffer.readable = (s.sent.map Message.data).flatten ∧
      s.sent.Pairwise InOrder ∧
      (∀ t n, s.shutdownAt = some (t, n) → ∀ m ∈ s.sent, m.called < t) ∧
      (s.closed = false → ∀ w ∈ s.conn.shutdownWrites, w.waiting = [] ∧ ∃ k t n,
        w.accepted = ((s.sent.take k).map Message.data).flatten ∧ s.shutdownAt = some (t, n) ∧
          n ≤ k) := by
  have hrun : run step [.callSend [1], .queueSend ⟨[1], 0⟩, .callSend [2], .queueSend ⟨[2], 2⟩,
    .callShutdown, .setState, .queueShutdown, .runFunctor (.wrote 1), .runFunctor (.wrote 1),
    .runFunctor .failed] init = .ok _ := rfl
  exact ⟨_, rfl, rfl, sends_ordered hrun⟩

/-- A message is queued in another thread, and the call returns.  Then the loop thread sends, and is
first; or it shuts the write side down, and the message is written behind that. -/
theorem send_overtaken :
    (∃ s, run step [.callSend [1], .queueSend ⟨[1], 0⟩, .send [2] (.wrote 1), .runFunctor (.wrote 1)]
        init = .ok s ∧ s.conn.accepted = [2, 1]) ∧
      ∃ s, run step [.callSend [1], .queueSend ⟨[1], 0⟩, .shutdown, .runFunctor (.wrote 1)]
        init = .ok s ∧ s.conn.accepted = [1] ∧ s.conn.shutdownWrites = [⟨[], []⟩] :=
  ⟨⟨_, rfl, rfl⟩, ⟨_, rfl, rfl, rfl⟩⟩

end SharedConnection

end Net
