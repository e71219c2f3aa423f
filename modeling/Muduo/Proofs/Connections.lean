/-
What a connection writes, and how it ends.

`Intact` is the invariant of the output side: the socket has accepted a prefix of what was
sent, the buffer holds the rest, and epoll is asked for room to write just as long as there
is a rest.  Each function of the connection keeps it and says what else it changes.
-/
import Muduo.Lib.Runs
import Muduo.Net.TcpConnection

namespace Net

open Lib

/-! ### The output side -/

/-- The output side of a connection through which `sent` has been sent. -/
structure Intact (c : TcpConnection) (sent : List Bytes) : Prop where
  fifo : c.accepted ++ c.outputBuffer.readable = sent.flatten
  opened : c.isOpen → ∃ w, c.channel = .open_ w ∧ (w = true ↔ c.outputBuffer.readable ≠ [])
  unopened : c.state = .kConnecting → c.channel = .init ∧ c.outputBuffer.readable = []
  closed : c.state = .kDisconnected → c.channel = .closed ∨ c.channel = .init
  drained : ∀ s ∈ c.shutdownWrites, s.waiting = []

/-- What writing leaves as it is. -/
structure Same (c c' : TcpConnection) : Prop where
  state : c'.state = c.state
  ups : c'.ups = c.ups
  downs : c'.downs = c.downs
  closes : c'.closes = c.closes
  removals : c'.removals = c.removals
  channel : ¬c.isOpen → c'.channel = c.channel

theorem Same.refl (c : TcpConnection) : Same c c := ⟨rfl, rfl, rfl, rfl, rfl, fun _ => rfl⟩

theorem Same.isOpen {c c' : TcpConnection} (h : Same c c') : c'.isOpen ↔ c.isOpen := by
  unfold TcpConnection.isOpen
  rw [h.state]

theorem WriteResult.nwrote_of_error {len : Nat} {result : WriteResult}
    (h : (result.nwrote len).2 = true) : (result.nwrote len).1 = 0 := by
  cases result with
  | wrote n => cases h
  | wouldBlock => rfl
  | brokenPipe => rfl
  | failed => rfl

/-- Nothing keeps `removeChannel` from removing the channel. -/
def Handling.Free (loop : Handling) : Prop :=
  loop.eventHandling = true → loop.current = true ∨ loop.active = false

namespace TcpConnection

variable {c : TcpConnection} {sent : List Bytes}

theorem intact_init : Intact .init [] := by
  refine ⟨rfl, ?_, fun _ => ⟨rfl, rfl⟩, ?_, fun s hs => absurd hs List.not_mem_nil⟩
  · intro h
    rcases h with h | h <;> cases h
  · intro h
    cases h

theorem isOpen_ne (h : c.isOpen) : c.state ≠ .kDisconnected ∧ c.state ≠ .kConnecting := by
  rcases h with h | h <;> rw [h] <;> decide

theorem state_cases (c : TcpConnection) :
    c.isOpen ∨ c.state = .kConnecting ∨ c.state = .kDisconnected := by
  cases h : c.state with
  | kConnecting => exact Or.inr (Or.inl rfl)
  | kDisconnected => exact Or.inr (Or.inr rfl)
  | kConnected => exact Or.inl (Or.inl h)
  | kDisconnecting => exact Or.inl (Or.inr h)

theorem writesDirectly_iff : c.writesDirectly = true ↔
    c.channel.isWriting = false ∧ c.outputBuffer.readable = [] := by
  unfold writesDirectly
  rw [Bool.and_eq_true, Bool.not_eq_true', beq_iff_eq, ← Buffer.length_readable,
    List.length_eq_zero_iff]

/-- What `sendInLoop` writes at once: only an empty buffer is passed by, and nothing has been
written when the write fails. -/
theorem writtenAtOnce_spec (c : TcpConnection) (data : Bytes) (result : WriteResult) :
    let p : Nat × Bool := if c.writesDirectly then result.nwrote data.length else (0, false)
    p.2 = (c.writesDirectly && (result.nwrote data.length).2) ∧ (p.2 = true → p.1 = 0) ∧
      c.accepted ++ data.take p.1 ++ c.outputBuffer.readable
        = c.accepted ++ c.outputBuffer.readable ++ data.take p.1 := by
  intro p
  by_cases hd : c.writesDirectly = true
  · have hp : p = result.nwrote data.length := if_pos hd
    have hempty : c.outputBuffer.readable = [] := (writesDirectly_iff.mp hd).2
    refine ⟨by rw [hp, hd, Bool.true_and], ?_, ?_⟩
    · rw [hp]
      exact WriteResult.nwrote_of_error
    · rw [hempty, List.append_nil, List.append_nil]
  · have hp : p = (0, false) := if_neg hd
    refine ⟨?_, fun _ => congrArg Prod.fst hp, ?_⟩
    · rw [hp, Bool.eq_false_iff.mpr hd]
      rfl
    · rw [hp, List.take_zero, List.append_nil, List.append_nil]

/-- Messages are added behind what waits. -/
theorem sendInLoop_spec (h : Intact c sent) (hopen : c.isOpen) (data : Bytes) (result : WriteResult) :
    ∃ c', c.sendInLoop data result = .ok c' ∧ Same c c' ∧
      Intact c' (if c.writesDirectly = true ∧ (result.nwrote data.length).2 = true then sent
        else sent ++ [data]) := by
  obtain ⟨w, hw, hwrites⟩ := h.opened hopen
  set p : Nat × Bool :=
    if c.writesDirectly then result.nwrote data.length else (0, false) with hp
  obtain ⟨hlost', hnone, hdirect⟩ := writtenAtOnce_spec c data result
  rw [← hp] at hlost' hnone hdirect
  have hlost : p.2 = true ↔ c.writesDirectly = true ∧ (result.nwrote data.length).2 = true := by
    rw [hlost', Bool.and_eq_true]
  have hfifo : c.accepted ++ data.take p.1 ++ c.outputBuffer.readable
      = sent.flatten ++ data.take p.1 := by rw [hdirect, h.fifo]
  unfold sendInLoop
  rw [if_neg (isOpen_ne hopen).1, ← hp]
  simp only [assertThat_of (Nat.sub_le data.length p.1)]
  by_cases herr : p.2 = true
  · refine ⟨{ c with accepted := c.accepted ++ data.take p.1 }, ?_,
      ⟨rfl, rfl, rfl, rfl, rfl, fun hc => absurd hopen hc⟩, ?_⟩
    · show (if p.2 = false ∧ _ then _ else _) = _
      rw [if_neg (by rw [herr]; exact fun h => Bool.noConfusion h.1)]
      rfl
    · rw [if_pos (hlost.mp herr)]
      refine ⟨?_, h.opened, h.unopened, h.closed, h.drained⟩
      show c.accepted ++ data.take p.1 ++ c.outputBuffer.readable = _
      rw [hfifo, hnone herr, List.take_zero, List.append_nil]
  · rw [if_neg (fun hl => herr (hlost.mpr hl))]
    have hok : p.2 = false := Bool.eq_false_iff.mpr herr
    have hflat : (sent ++ [data]).flatten = sent.flatten ++ data := by
      rw [List.flatten_append, List.flatten_singleton]
    by_cases hrest : 0 < data.length - p.1
    · -- the rest of the message is buffered, and the channel waits for room
      refine ⟨{ c with
        accepted := c.accepted ++ data.take p.1
        outputBuffer := c.outputBuffer.append (data.drop p.1)
        channel := .open_ true }, ?_, ⟨rfl, rfl, rfl, rfl, rfl, fun hc => absurd hopen hc⟩, ?_⟩
      · show (if p.2 = false ∧ _ then _ else _) = _
        rw [if_pos ⟨hok, hrest⟩]
        unfold enqueue
        rw [hw]
        cases w with
        | true => rfl
        | false => rfl
      · have hne : data.drop p.1 ≠ [] := by
          rw [Ne, ← List.length_eq_zero_iff, List.length_drop]
          omega
        refine ⟨?_, fun _ => ⟨true, rfl, fun _ => ?_, fun _ => rfl⟩, ?_, ?_, h.drained⟩
        · show c.accepted ++ data.take p.1 ++ (c.outputBuffer.append _).readable = _
          rw [Buffer.readable_append, ← List.append_assoc, hfifo, List.append_assoc,
            List.take_append_drop, hflat]
        · rw [Buffer.readable_append]
          exact fun hnil => hne (List.append_eq_nil_iff.mp hnil).2
        · exact fun hs => absurd hs (isOpen_ne hopen).2
        · exact fun hs => absurd hs (isOpen_ne hopen).1
    · refine ⟨{ c with accepted := c.accepted ++ data.take p.1 }, ?_,
        ⟨rfl, rfl, rfl, rfl, rfl, fun hc => absurd hopen hc⟩, ?_⟩
      · show (if p.2 = false ∧ _ then _ else _) = _
        rw [if_neg (fun hr => hrest hr.2)]
        rfl
      · refine ⟨?_, h.opened, h.unopened, h.closed, h.drained⟩
        show c.accepted ++ data.take p.1 ++ c.outputBuffer.readable = _
        rw [hfifo, hflat, List.take_of_length_le (by omega)]

theorem send_spec (h : Intact c sent) (data : Bytes) (result : WriteResult) :
    ∃ c', c.send data result = .ok c' ∧ Same c c' ∧
      Intact c' (if c.state = .kConnected ∧
        (c.writesDirectly && (result.nwrote data.length).2) = false then sent ++ [data] else sent) := by
  unfold send
  by_cases hs : c.state = .kConnected
  · obtain ⟨c', hok, hsame, hintact⟩ := sendInLoop_spec h (Or.inl hs) data result
    refine ⟨c', by rw [if_pos hs, hok], hsame, ?_⟩
    by_cases hlost : c.writesDirectly = true ∧ (result.nwrote data.length).2 = true
    · rw [if_pos hlost] at hintact
      rw [if_neg (by rw [hlost.1, hlost.2]; exact fun h => Bool.noConfusion h.2)]
      exact hintact
    · rw [if_neg hlost] at hintact
      rw [if_pos ⟨hs, by rw [← Bool.not_eq_true, Bool.and_eq_true]; exact hlost⟩]
      exact hintact
  · refine ⟨c, by rw [if_neg hs], Same.refl c, ?_⟩
    rw [if_neg (fun hc => hs hc.1)]
    exact h

/-- The write side is shut down when nothing waits. -/
theorem shutdownInLoop_intact (h : Intact c sent) (hopen : c.isOpen) :
    Intact c.shutdownInLoop sent ∧ Same c c.shutdownInLoop := by
  obtain ⟨w, hw, hwrites⟩ := h.opened hopen
  unfold shutdownInLoop
  cases w with
  | true =>
      rw [if_pos (by rw [hw]; rfl)]
      exact ⟨h, Same.refl c⟩
  | false =>
      rw [if_neg (by rw [hw]; exact Bool.noConfusion)]
      have hempty : c.outputBuffer.readable = [] := by
        by_contra hne
        exact Bool.noConfusion (hwrites.mpr hne)
      refine ⟨⟨h.fifo, h.opened, h.unopened, h.closed, ?_⟩, rfl, rfl, rfl, rfl, rfl, fun _ => rfl⟩
      intro s hs
      rcases List.mem_append.mp hs with hs | hs
      · exact h.drained s hs
      · rw [List.mem_singleton.mp hs]
        exact hempty

theorem shutdown_intact (h : Intact c sent) : Intact c.shutdown sent ∧
    (Same c c.shutdown ∨ (c.state = .kConnected ∧ Same { c with state := .kDisconnecting } c.shutdown)) := by
  unfold shutdown
  by_cases hs : c.state = .kConnected
  · rw [if_pos hs]
    have hmid : Intact { c with state := .kDisconnecting } sent :=
      ⟨h.fifo, fun _ => h.opened (Or.inl hs), nofun, nofun, h.drained⟩
    obtain ⟨hintact, hsame⟩ := shutdownInLoop_intact hmid (Or.inr rfl)
    exact ⟨hintact, Or.inr ⟨hs, hsame⟩⟩
  · rw [if_neg hs]
    exact ⟨h, Or.inl (Same.refl c)⟩

/-- What waits is written in order, and the channel stops waiting for room behind the last. -/
theorem handleWrite_spec (h : Intact c sent) (result : WriteResult) :
    ∃ c', c.handleWrite result = .ok c' ∧ Same c c' ∧ Intact c' sent := by
  by_cases hw : c.channel.isWriting = false
  · exact ⟨c, by unfold handleWrite; rw [if_pos hw]; rfl, Same.refl c, h⟩
  have hopen : c.isOpen := by
    rcases state_cases c with hopen | hs | hs
    · exact hopen
    · rw [(h.unopened hs).1] at hw
      exact absurd rfl hw
    · rcases h.closed hs with hc | hc <;> rw [hc] at hw <;> exact absurd rfl hw
  obtain ⟨w, hchan, hwrites⟩ := h.opened hopen
  unfold handleWrite
  rw [if_neg hw]
  cases result with
  | wouldBlock => exact ⟨c, rfl, Same.refl c, h⟩
  | brokenPipe => exact ⟨c, rfl, Same.refl c, h⟩
  | failed => exact ⟨c, rfl, Same.refl c, h⟩
  | wrote n =>
      set m := min n c.outputBuffer.readableBytes with hm
      have hread : (c.drain n).outputBuffer.readable = c.outputBuffer.readable.drop m :=
        Buffer.readable_retrieve _ m (Nat.min_le_right _ _)
      have hfifo : (c.drain n).accepted ++ (c.drain n).outputBuffer.readable = sent.flatten := by
        rw [hread]
        show c.accepted ++ c.outputBuffer.readable.take m ++ _ = _
        rw [List.append_assoc, List.take_append_drop]
        exact h.fifo
      have hsame : Same c (c.drain n) := ⟨rfl, rfl, rfl, rfl, rfl, fun _ => rfl⟩
      show ∃ c', (if m = 0 then pure c
        else if (c.drain n).outputBuffer.readableBytes = 0 then _ else _) = _ ∧ _
      by_cases hzero : m = 0
      · exact ⟨c, by rw [if_pos hzero]; rfl, Same.refl c, h⟩
      rw [if_neg hzero]
      by_cases hlast : (c.drain n).outputBuffer.readableBytes = 0
      · have hempty : (c.drain n).outputBuffer.readable = [] := by
          rw [← List.length_eq_zero_iff, Buffer.length_readable]
          exact hlast
        set d : TcpConnection := { c.drain n with channel := .open_ false } with hd
        have hdrained : Intact d sent :=
          ⟨hfifo, fun _ => ⟨false, rfl, nofun, fun hne => absurd hempty hne⟩,
            fun hs => absurd hs (isOpen_ne hopen).2, fun hs => absurd hs (isOpen_ne hopen).1, h.drained⟩
        have hdopen : d.isOpen := hopen
        refine ⟨if d.state = .kDisconnecting then d.shutdownInLoop else d, ?_, ?_⟩
        · rw [if_pos hlast]
          show (c.channel.disableWriting >>= _) = _
          rw [hchan]
          rfl
        · split
          · obtain ⟨hintact, hsame'⟩ := shutdownInLoop_intact hdrained hdopen
            exact ⟨⟨hsame'.state, hsame'.ups, hsame'.downs, hsame'.closes, hsame'.removals,
              fun hc => absurd hopen hc⟩, hintact⟩
          · exact ⟨⟨rfl, rfl, rfl, rfl, rfl, fun hc => absurd hopen hc⟩, hdrained⟩
      · rw [if_neg hlast]
        have hne : (c.drain n).outputBuffer.readable ≠ [] := by
          rw [Ne, ← List.length_eq_zero_iff, Buffer.length_readable]
          exact hlast
        have htrue : w = true := by
          rw [hchan] at hw
          exact (Bool.not_eq_false w).mp hw
        exact ⟨c.drain n, rfl, hsame, hfifo,
          fun _ => ⟨w, hchan, fun _ => hne, fun _ => htrue⟩,
          fun hs => absurd hs (isOpen_ne hopen).2, fun hs => absurd hs (isOpen_ne hopen).1, h.drained⟩

/-! ### The ends of a connection -/

theorem connectEstablished_spec (h : Intact c sent) (hs : c.state = .kConnecting) :
    c.connectEstablished
        = .ok { c with state := .kConnected, channel := .open_ false, ups := c.ups + 1 } ∧
      Intact { c with state := .kConnected, channel := .open_ false, ups := c.ups + 1 } sent := by
  obtain ⟨hchan, hempty⟩ := h.unopened hs
  refine ⟨?_, h.fifo, fun _ => ⟨false, rfl, nofun, fun hne => absurd hempty hne⟩, nofun, nofun,
    h.drained⟩
  unfold connectEstablished
  simp only [assertThat_of hs, hchan]
  rfl

/-- A connection is closed while it is open. -/
theorem handleClose_spec (h : Intact c sent) (hopen : c.isOpen) :
    c.handleClose = .ok { c with
      state := .kDisconnected, channel := .closed, closes := c.closes + 1, downs := c.downs + 1 } := by
  obtain ⟨w, hchan, -⟩ := h.opened hopen
  unfold handleClose
  simp only [assertThat_of hopen, hchan]
  rfl

theorem handleClose_fails (hopen : ¬c.isOpen) : c.handleClose = .error .assertion := by
  unfold handleClose
  simp only [assertThat_of_not hopen]
  rfl

/-- `connectDestroyed` finds a state it can deal with. -/
def Destroyable (c : TcpConnection) : Prop :=
  c.state = .kConnected ∨ (c.state = .kDisconnected ∧ c.channel = .closed)

theorem connectDestroyed_spec (h : Intact c sent) (hd : c.Destroyable) {loop : Handling}
    (hloop : loop.Free) :
    c.connectDestroyed loop = .ok { c with
      state := .kDisconnected, channel := .init
      downs := if c.state = .kConnected then c.downs + 1 else c.downs
      removals := c.removals ++ [.closed] } := by
  unfold connectDestroyed
  rcases hd with hs | ⟨hs, hchan⟩
  · obtain ⟨w, hchan, -⟩ := h.opened (Or.inl hs)
    rw [if_pos hs, if_pos hs, hchan]
    show (Channel.closed.remove loop >>= _) = _
    rw [Channel.remove_closed hloop]
    rfl
  · have hne : c.state ≠ .kConnected := by rw [hs]; decide
    rw [if_neg hne, if_neg hne, ← hs]
    show (c.channel.remove loop >>= _) = _
    rw [hchan, Channel.remove_closed hloop]
    rfl

theorem connectDestroyed_fails (h : Intact c sent) {loop : Handling}
    (hnot : ¬(c.Destroyable ∧ loop.Free)) : c.connectDestroyed loop = .error .assertion := by
  unfold connectDestroyed
  rcases state_cases c with hopen | hs | hs
  · obtain ⟨w, hchan, -⟩ := h.opened hopen
    rcases hopen with hs | hs
    · rw [if_pos hs, hchan]
      show (Channel.closed.remove loop >>= _) = _
      rw [Channel.remove_closed_not fun hloop => hnot ⟨Or.inl hs, hloop⟩]
      rfl
    · rw [if_neg (by rw [hs]; decide)]
      show (c.channel.remove loop >>= _) = _
      rw [hchan, Channel.remove_open]
      rfl
  · rw [if_neg (by rw [hs]; decide)]
    show (c.channel.remove loop >>= _) = _
    rw [(h.unopened hs).1, Channel.remove_init]
    rfl
  · rw [if_neg (by rw [hs]; decide)]
    show (c.channel.remove loop >>= _) = _
    rcases h.closed hs with hchan | hchan
    · rw [hchan, Channel.remove_closed_not fun hloop => hnot ⟨Or.inr ⟨hs, hchan⟩, hloop⟩]
      rfl
    · rw [hchan, Channel.remove_init]
      rfl

end TcpConnection

end Net
