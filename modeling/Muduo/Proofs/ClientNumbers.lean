/-
The numbers of the multiplexer's clients.

While there is a backend, every number is in the queue or belongs to one client that is
there, and the map says to which, so that what the backend sends under a number reaches the
client that the number was given to and nobody else.

A client that loses its number to the end of the backend's connection keeps it as its context
until it goes down.  If the backend is back before that, the client gives back a number that is
in the queue already.  The runs in which this does not happen are those in which the backend
comes up after all such clients have gone.
-/
import Muduo.Examples.Multiplexer
import Muduo.Lib.Runs

namespace Multiplexer

open Lib Net MultiplexServer

/-! ### What a callback leaves alone -/

/-- What the numbers depend on. -/
def Client.key (c : Client) : Option Nat × Bool × Bool :=
  (c.context, decide c.established, decide (c.state = .kConnecting))

theorem Client.key_send (c : Client) (message : Bytes) : (c.send message).key = c.key := by
  unfold Client.send
  split <;> rfl

theorem Client.key_shutdown (c : Client) : c.shutdown.key = c.key := by
  unfold Client.shutdown
  split
  · rename_i h
    simp [key, established, h]
  · rfl

structure Keeps (s s' : MultiplexServer) : Prop where
  backendConn : s'.backendConn = s.backendConn
  availIds : s'.availIds = s.availIds
  clientConns : s'.clientConns = s.clientConns
  key : ∀ c, (s'.clients c).key = (s.clients c).key

namespace Keeps

variable {s s' s'' : MultiplexServer}

theorem refl (s : MultiplexServer) : Keeps s s := ⟨rfl, rfl, rfl, fun _ => rfl⟩

theorem trans (h : Keeps s s') (h' : Keeps s' s'') : Keeps s s'' :=
  ⟨h'.backendConn.trans h.backendConn, h'.availIds.trans h.availIds,
    h'.clientConns.trans h.clientConns, fun c => (h'.key c).trans (h.key c)⟩

theorem modify (s : MultiplexServer) (conn : Conn) {f : Client → Client}
    (hf : ∀ c, (f c).key = c.key) : Keeps s (s.modify conn f) := by
  refine ⟨rfl, rfl, rfl, fun c => ?_⟩
  unfold MultiplexServer.modify
  dsimp only
  rw [Function.update_apply]
  split
  · rename_i hc
    rw [hc, hf]
  · rfl

theorem shutdown (s : MultiplexServer) (conn : Conn) : Keeps s (s.modify conn Client.shutdown) :=
  modify s conn Client.key_shutdown

theorem sendBackendPacket (s : MultiplexServer) (id : Nat) (buf : Bytes) :
    Keeps s (s.sendBackendPacket id buf).1 := by
  unfold MultiplexServer.sendBackendPacket
  dsimp only
  split
  · exact ⟨rfl, rfl, rfl, fun _ => rfl⟩
  · exact refl s

theorem sendBackendBuffer (s : MultiplexServer) (id : Nat) (buf : Bytes) :
    Keeps s (s.sendBackendBuffer id buf).1 := by
  induction s, buf using MultiplexServer.sendBackendBuffer.induct id with
  | case1 s buf h ih =>
      rw [MultiplexServer.sendBackendBuffer, if_pos h]
      exact (sendBackendPacket s id _).trans ih
  | case2 s buf h hpos =>
      rw [MultiplexServer.sendBackendBuffer, if_neg h, if_pos hpos]
      exact sendBackendPacket s id buf
  | case3 s buf h hpos =>
      rw [MultiplexServer.sendBackendBuffer, if_neg h, if_neg hpos]
      exact refl s

theorem onClientMessage (s : MultiplexServer) (conn : Conn) (bytes : Bytes) :
    Keeps s (s.onClientMessage conn bytes) := by
  unfold MultiplexServer.onClientMessage
  split
  · exact (sendBackendBuffer s _ _).trans (modify _ conn fun _ => rfl)
  · exact modify s conn fun _ => rfl

theorem doCommand (s : MultiplexServer) (cmd : Bytes) : Keeps s (s.doCommand cmd) := by
  unfold MultiplexServer.doCommand
  dsimp only
  split
  · split
    · exact shutdown s _
    · exact refl s
  · exact refl s

theorem sendPacket (s : MultiplexServer) (packet : Bytes) : Keeps s (s.sendPacket packet) := by
  unfold MultiplexServer.sendPacket
  dsimp only
  split
  · split
    · exact modify s _ fun c => c.key_send _
    · exact refl s
  · exact doCommand s _

theorem onBackendMessage (s : MultiplexServer) (bytes : Bytes) :
    Keeps s (s.onBackendMessage bytes) := by
  have hdrain : Keeps s (Id.run (Framing.drain packets
      (fun s packet => pure (MultiplexServer.sendPacket s packet)) s
        (s.backendBuffer ++ bytes))).1 :=
    Framing.drain_inv (fun t packet ht => ht.trans (sendPacket t packet)) _ (refl s)
  exact ⟨hdrain.backendConn, hdrain.availIds, hdrain.clientConns, hdrain.key⟩

end Keeps

/-! ### The numbers -/

def allIds : List Nat := (List.range kMaxConns).map (· + 1)

theorem mem_allIds {id : Nat} : id ∈ allIds ↔ 0 < id ∧ id ≤ kMaxConns := by
  rw [allIds, List.mem_map]
  constructor
  · rintro ⟨n, hn, rfl⟩
    have := List.mem_range.mp hn
    omega
  · rintro ⟨hpos, hle⟩
    exact ⟨id - 1, List.mem_range.mpr (by omega), by omega⟩

theorem nodup_allIds : allIds.Nodup := by decide

/-- The client is there under a number. -/
def Holds (s : MultiplexServer) (c : Conn) (id : Nat) : Prop :=
  (s.clients c).established ∧ (s.clients c).context = some id

structure Ordered (s : MultiplexServer) : Prop where
  ids : s.backendConn = true → (s.availIds ++ s.clientConns.map Prod.fst).Perm allIds
  none : s.backendConn = false → s.availIds = [] ∧ s.clientConns = []
  held : s.backendConn = true → ∀ c id, (id, c) ∈ s.clientConns ↔ Holds s c id
  range : ∀ c id, (s.clients c).context = some id → 0 < id ∧ id ≤ kMaxConns
  fresh : ∀ c, (s.clients c).state = .kConnecting → (s.clients c).context = .none

namespace Ordered

variable {s s' : MultiplexServer}

theorem keeps (ho : Ordered s) (h : Keeps s s') : Ordered s' := by
  have hcontext : ∀ c, (s'.clients c).context = (s.clients c).context := fun c =>
    congrArg Prod.fst (h.key c)
  have hestablished : ∀ c, (s'.clients c).established ↔ (s.clients c).established := fun c =>
    decide_eq_decide.mp (congrArg (fun k => k.2.1) (h.key c))
  have hfresh : ∀ c, (s'.clients c).state = .kConnecting ↔ (s.clients c).state = .kConnecting :=
    fun c => decide_eq_decide.mp (congrArg (fun k => k.2.2) (h.key c))
  refine ⟨fun hb => ?_, fun hb => ?_, fun hb c id => ?_, fun c id hid => ?_, fun c hc => ?_⟩
  · rw [h.availIds, h.clientConns]
    exact ho.ids (h.backendConn ▸ hb)
  · rw [h.availIds, h.clientConns]
    exact ho.none (h.backendConn ▸ hb)
  · rw [h.clientConns, Holds, hestablished, hcontext]
    exact ho.held (h.backendConn ▸ hb) c id
  · exact ho.range c id (hcontext c ▸ hid)
  · rw [hcontext]
    exact ho.fresh c ((hfresh c).mp hc)

/-- Nobody shares a number, and none that is given is in the queue. -/
theorem nodup (ho : Ordered s) (hb : s.backendConn = true) :
    s.availIds.Nodup ∧ (s.clientConns.map Prod.fst).Nodup ∧
      ∀ id ∈ s.availIds, id ∉ s.clientConns.map Prod.fst := by
  have h := (ho.ids hb).nodup_iff.mpr nodup_allIds
  obtain ⟨h₁, h₂, hdisjoint⟩ := List.nodup_append.mp h
  exact ⟨h₁, h₂, fun id hid hid' => hdisjoint id hid id hid' rfl⟩

/-- The map says who is there under a number. -/
theorem lookup (ho : Ordered s) (hb : s.backendConn = true) {c : Conn} {id : Nat}
    (h : Holds s c id) : s.clientConns.lookup id = some c := by
  have hmem := (ho.held hb c id).mpr h
  have hnodup := (ho.nodup hb).2.1
  generalize s.clientConns = m at hmem hnodup
  induction m with
  | nil => exact absurd hmem List.not_mem_nil
  | cons p m ih =>
      obtain ⟨a, b⟩ := p
      obtain ⟨ha, hnodup⟩ := List.nodup_cons.mp hnodup
      rw [lookup_cons]
      rcases List.mem_cons.mp hmem with heq | hmem
      · cases heq
        rw [if_pos rfl]
      · have hne : id ≠ a := fun h => ha (List.mem_map.mpr ⟨(id, c), hmem, h⟩)
        rw [if_neg hne]
        exact ih hmem hnodup

/-! ### The steps -/

theorem modify_clients (s : MultiplexServer) (conn : Conn) (f : Client → Client) (c : Conn) :
    (s.modify conn f).clients c = if c = conn then f (s.clients conn) else s.clients c :=
  Function.update_apply _ _ _ _

/-- A client that comes up, before it has a number. -/
theorem up (ho : Ordered s) {conn : Conn} (hconn : (s.clients conn).state = .kConnecting)
    (peer : Bytes) : Ordered (s.modify conn fun c => { c with state := .kConnected, peer }) := by
  have hnone := ho.fresh conn hconn
  refine ⟨ho.ids, ho.none, fun hb c id => (ho.held hb c id).trans ?_, fun c id => ?_,
    fun c => ?_⟩
  · unfold Holds
    rw [modify_clients]
    split
    · rename_i hc
      simp [hc, hnone]
    · rfl
  · rw [modify_clients]
    split
    · exact ho.range conn id
    · exact ho.range c id
  · rw [modify_clients]
    split
    · exact fun _ => hnone
    · exact ho.fresh c

/-- It takes the number at the front. -/
theorem take (ho : Ordered s) {conn : Conn} {id : Nat} {ids : List Nat}
    (hids : s.availIds = id :: ids) (hup : (s.clients conn).state = .kConnected)
    (hnone : (s.clients conn).context = .none) :
    Ordered (({ s with
      availIds := ids, clientConns := assign id conn s.clientConns } : MultiplexServer).modify conn
        fun c => { c with context := some id }) := by
  have hb : s.backendConn = true := by
    by_contra hb
    rw [(ho.none (by simpa using hb)).1] at hids
    cases hids
  have hfree : id ∉ s.clientConns.map Prod.fst :=
    (ho.nodup hb).2.2 id (by rw [hids]; exact List.mem_cons_self)
  have hperm := assign_perm hfree conn
  have hid : id ∈ allIds := (ho.ids hb).mem_iff.mp (by rw [hids]; exact List.mem_cons_self)
  refine ⟨fun _ => ?_, fun hb' => ?_, fun _ c id' => ?_, fun c id' => ?_, fun c => ?_⟩
  · refine List.Perm.trans ?_ (ho.ids hb)
    rw [hids]
    exact ((hperm.map Prod.fst).append_left ids).trans List.perm_middle
  · exact absurd (hb'.symm.trans hb) (by simp)
  · refine (hperm.mem_iff).trans ?_
    unfold Holds
    rw [modify_clients, List.mem_cons, ho.held hb]
    split
    · rename_i hc
      subst hc
      simp [Holds, hnone, Client.established, hup, eq_comm]
    · rename_i hc
      simp [Holds, hc]
  · rw [modify_clients]
    split
    · intro h
      cases h
      exact mem_allIds.mp hid
    · exact ho.range c id'
  · rw [modify_clients]
    split
    · intro h
      rw [show (s.clients conn).state = .kConnecting from h] at hup
      cases hup
    · exact ho.fresh c

theorem clientUp (ho : Ordered s) {conn : Conn} (hconn : (s.clients conn).state = .kConnecting)
    (peer : Bytes) : Ordered (s.clientUp conn peer) := by
  have hup := ho.up hconn peer
  have hclient : (s.modify conn fun c => { c with state := .kConnected, peer }).clients conn =
      { s.clients conn with state := .kConnected, peer } := by
    rw [modify_clients, if_pos rfl]
  unfold MultiplexServer.clientUp
  dsimp only
  split
  · exact hup.keeps (Keeps.shutdown _ conn)
  · rename_i id ids hids
    refine (hup.take hids ?_ ?_).keeps (Keeps.sendBackendPacket _ 0 _)
    · rw [hclient]
    · rw [hclient]
      exact ho.fresh conn hconn

/-- A client that goes down without a number. -/
theorem gone (ho : Ordered s) {conn : Conn}
    (hnone : s.backendConn = true → (s.clients conn).context = .none) :
    Ordered (s.modify conn fun c => { c with state := .kDisconnected }) := by
  refine ⟨ho.ids, ho.none, fun hb c id => (ho.held hb c id).trans ?_, fun c id => ?_,
    fun c => ?_⟩
  · unfold Holds
    rw [modify_clients]
    split
    · rename_i hc
      simp [hc, hnone hb]
    · rfl
  · rw [modify_clients]
    split
    · exact ho.range conn id
    · exact ho.range c id
  · rw [modify_clients]
    split
    · intro h
      cases h
    · exact ho.fresh c

/-- One that goes down with a number, which is put back. -/
theorem back (ho : Ordered s) (hb : s.backendConn = true) {conn : Conn} {id : Nat}
    (hheld : Holds s conn id) :
    Ordered (({ s with
      availIds := s.availIds ++ [id]
      clientConns := s.clientConns.filter fun p => p.1 ≠ id } : MultiplexServer).modify conn
        fun c => { c with state := .kDisconnected }) := by
  have hnodup := (ho.nodup hb).2.1
  have hmem := (ho.held hb conn id).mpr hheld
  have hkeys : (s.clientConns.filter fun p => p.1 ≠ id).map Prod.fst =
      (s.clientConns.map Prod.fst).erase id := by
    rw [hnodup.erase_eq_filter, List.filter_map]
    refine congrArg _ (List.filter_congr fun p _ => ?_)
    by_cases h : p.1 = id <;> simp [h]
  have hkey : id ∈ s.clientConns.map Prod.fst := List.mem_map.mpr ⟨(id, conn), hmem, rfl⟩
  refine ⟨fun _ => ?_, fun hb' => ?_, fun _ c id' => ?_, fun c id' => ?_, fun c => ?_⟩
  · refine List.Perm.trans ?_ (ho.ids hb)
    show (s.availIds ++ [id] ++ (s.clientConns.filter fun p => p.1 ≠ id).map Prod.fst).Perm _
    rw [hkeys, List.append_assoc]
    exact (List.perm_cons_erase hkey).symm.append_left _
  · exact absurd (hb'.symm.trans hb) (by simp)
  · have hone : ∀ d, (id, d) ∈ s.clientConns → d = conn := fun d hd =>
      congrArg Prod.snd (List.inj_on_of_nodup_map hnodup hd hmem rfl)
    show (id', c) ∈ s.clientConns.filter _ ↔ _
    rw [List.mem_filter, decide_eq_true_eq, ho.held hb]
    unfold Holds
    rw [modify_clients]
    split
    · rename_i hc
      subst hc
      simp [Client.established, hheld.2, eq_comm]
    · rename_i hc
      refine and_iff_left_of_imp fun h hid => hc (hone c ?_)
      exact hid ▸ (ho.held hb c id').mpr h
  · rw [modify_clients]
    split
    · exact ho.range conn id'
    · exact ho.range c id'
  · rw [modify_clients]
    split
    · intro h
      cases h
    · exact ho.fresh c

theorem clientDown (ho : Ordered s) {conn : Conn} (hup : (s.clients conn).established) :
    ∃ s', s.clientDown conn = .ok s' ∧ Ordered s' := by
  have hclient : (s.modify conn fun c => { c with state := .kDisconnected }).clients conn =
      { s.clients conn with state := .kDisconnected } := by
    rw [modify_clients, if_pos rfl]
  unfold MultiplexServer.clientDown
  dsimp only
  rw [hclient]
  dsimp only
  cases hcontext : (s.clients conn).context with
  | none => exact ⟨_, rfl, ho.gone fun _ => hcontext⟩
  | some id =>
      dsimp only
      rw [if_pos (ho.range conn id hcontext)]
      generalize notice id _ _ = msg
      have hkeeps : Keeps (s.modify conn fun c => { c with state := .kDisconnected })
          ((s.modify conn fun c => { c with state := .kDisconnected }).sendBackendString 0 msg) :=
        Keeps.sendBackendPacket _ 0 msg
      generalize (s.modify conn _).sendBackendString 0 msg = t at hkeeps ⊢
      have hbackend : t.backendConn = s.backendConn := hkeeps.backendConn
      have havail : t.availIds = s.availIds := hkeeps.availIds
      have hconns : t.clientConns = s.clientConns := hkeeps.clientConns
      by_cases hb : s.backendConn = true
      · rw [if_pos (hbackend.trans hb)]
        refine ⟨_, rfl, (ho.back hb ⟨hup, hcontext⟩).keeps ⟨hbackend, ?_, ?_, hkeeps.key⟩⟩
        · show t.availIds ++ [id] = s.availIds ++ [id]
          rw [havail]
        · show t.clientConns.filter _ = s.clientConns.filter _
          rw [hconns]
      · rw [if_neg (by rwa [hbackend]), havail, hconns, if_pos (ho.none (by simpa using hb))]
        exact ⟨t, rfl, (ho.gone fun h => absurd h hb).keeps hkeeps⟩

/-- The backend comes up, and no client has a number of an earlier connection. -/
theorem backendUp (ho : Ordered s) (hb : s.backendConn = false)
    (hgone : ∀ c, (s.clients c).established → (s.clients c).context = .none) :
    ∃ s', s.backendUp = .ok s' ∧ Ordered s' := by
  obtain ⟨havail, hclients⟩ := ho.none hb
  refine ⟨_, if_pos havail, fun _ => ?_, fun h => ?_, fun _ c id => ?_, ho.range, ho.fresh⟩
  · rw [hclients, List.map_nil, List.append_nil]
    exact List.Perm.refl _
  · cases h
  · show (id, c) ∈ s.clientConns ↔ _
    rw [hclients]
    refine iff_of_false List.not_mem_nil fun h => ?_
    rw [Holds, hgone c h.1] at h
    cases h.2

theorem backendDown (ho : Ordered s) : Ordered s.backendDown := by
  have hfold : ∀ (m : List (Nat × Conn)) (t : MultiplexServer),
      Keeps t (m.foldl (fun s p => s.modify p.2 Client.shutdown) t) := by
    intro m
    induction m with
    | nil => exact Keeps.refl
    | cons p m ih => exact fun t => (Keeps.shutdown t p.2).trans (ih _)
  have h := ho.keeps (hfold s.clientConns s)
  exact ⟨fun hb => (by cases hb), fun _ => ⟨rfl, rfl⟩, fun hb => (by cases hb), h.range, h.fresh⟩

end Ordered

/-- The backend comes up when the clients that had a number of an earlier connection have gone. -/
def Settled : Action → MultiplexServer → Prop
  | .backendUp, s => ∀ c, (s.clients c).established → (s.clients c).context = none
  | _, _ => True

theorem Ordered.step {s : MultiplexServer} (ho : Ordered s) {a : Action} (ha : Settled a s) :
    Multiplexer.step a s = .error .impossible ∨ ∃ s', Multiplexer.step a s = .ok s' ∧ Ordered s' := by
  cases a with
  | clientUp conn peer =>
      rw [Multiplexer.step]
      split
      · exact Or.inr ⟨_, rfl, ho.clientUp ‹_› peer⟩
      · exact Or.inl rfl
  | clientMessage conn bytes =>
      rw [Multiplexer.step]
      split
      · exact Or.inr ⟨_, rfl, ho.keeps (Keeps.onClientMessage s conn bytes)⟩
      · exact Or.inl rfl
  | clientDown conn =>
      rw [Multiplexer.step]
      split
      · exact Or.inr (ho.clientDown ‹_›)
      · exact Or.inl rfl
  | backendUp =>
      rw [Multiplexer.step]
      split
      · exact Or.inl rfl
      · rename_i hb
        exact Or.inr (ho.backendUp (by simpa using hb) ha)
  | backendMessage bytes =>
      rw [Multiplexer.step]
      split
      · exact Or.inr ⟨_, rfl, ho.keeps (Keeps.onBackendMessage s bytes)⟩
      · exact Or.inl rfl
  | backendDown =>
      rw [Multiplexer.step]
      split
      · exact Or.inr ⟨_, rfl, ho.backendDown⟩
      · exact Or.inl rfl

theorem Ordered.run {acts : List Action} {s : MultiplexServer} (ho : Ordered s)
    (h : Along Multiplexer.step Settled acts s) :
    Lib.run Multiplexer.step acts s = .error .impossible ∨
      ∃ s', Lib.run Multiplexer.step acts s = .ok s' ∧ Ordered s' := by
  induction acts generalizing s with
  | nil => exact Or.inr ⟨s, rfl, ho⟩
  | cons a acts ih =>
      rcases ho.step h.1 with herror | ⟨t, ht, ho'⟩
      · refine Or.inl ?_
        rw [Lib.run, herror]
        rfl
      · rw [run_cons_of_ok ht]
        exact ih ho' (h.2 t ht)

/-- A client that goes down when the backend is back: its number is in the queue twice. -/
example : (run step [.backendUp, .clientUp 0 [49], .backendDown, .backendUp, .clientDown 0]
    {}).toOption.map (·.availIds) = some [1, 2, 3, 4, 5, 6, 7, 8, 9, 10, 1] := rfl

end Multiplexer
