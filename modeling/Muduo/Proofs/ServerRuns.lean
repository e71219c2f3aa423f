/-
What becomes of the connections of a server, and of the server.

Two accounts are kept for each connection.  `connectDestroyed` has run, is queued, or is
still owed by the server: exactly one of them.  And while the server is alive a connection
is at exactly one of the stages between `newConnection` and `removeConnectionInLoop`.
-/
import Muduo.Net.TcpServer
import Mathlib.Tactic

namespace Net

open Lib

def ServerFunctor.conn : ServerFunctor → Nat
  | connectEstablished c => c
  | removeConnectionInLoop c => c
  | connectDestroyed c => c

namespace TcpServer

/-- The loop in which a functor is queued. -/
def home (s : TcpServer) : ServerFunctor → Nat
  | .connectEstablished c => s.loop c
  | .removeConnectionInLoop _ => 0
  | .connectDestroyed c => s.loop c

/-- How often a functor is queued. -/
def queued (s : TcpServer) (f : ServerFunctor) : Nat := (s.queues (s.home f)).count f

/-- The connections for which the server owes a `connectDestroyed`. -/
def owed (phase : ServerPhase) (connections : List Nat) : List Nat :=
  match phase with
  | .alive => connections
  | .destructing rest => rest
  | .gone => []

/-- The stages that a connection is at, while there is a server. -/
def stages (s : TcpServer) (c : Nat) : Nat :=
  s.queued (.connectEstablished c) + (if s.isOpen c then 1 else 0)
    + (if s.closing (s.loop c) = some c then 1 else 0)
    + s.queued (.removeConnectionInLoop c) + (1 - s.connections.count c)

/-- `newConnection`, before the connection is told. -/
def numbered (s : TcpServer) (ioLoop : Nat) : TcpServer :=
  { s with
    nextConnId := s.nextConnId + 1
    connections := s.connections ++ [s.nextConnId]
    loop := Function.update s.loop s.nextConnId ioLoop }

/-- The accounts are right, but for the stage of a connection that is on its way to the next. -/
structure Sound (s : TcpServer) (moving : Option Nat) : Prop where
  fresh : ∀ c, s.nextConnId ≤ c → s.destroyed c = 0 ∧ s.isOpen c = false
  owes : ∀ c ∈ owed s.phase s.connections, c < s.nextConnId
  home : ∀ l, ∀ f ∈ s.queues l, l = s.home f ∧ f.conn < s.nextConnId
  closing : ∀ l c, s.closing l = some c → s.loop c = l ∧ c < s.nextConnId
  account : ∀ c < s.nextConnId,
    s.destroyed c + s.queued (.connectDestroyed c) + (owed s.phase s.connections).count c = 1
  stages : s.phase = .alive → ∀ c < s.nextConnId,
    s.stages c + (if moving = some c then 1 else 0) = 1
  quiet : s.phase ≠ .alive →
    (∀ l, s.closing l = none) ∧ ∀ c, .removeConnectionInLoop c ∉ s.queues 0

/-- A step that leads to no call of a member behind the destructor. -/
def May (a : ServerAction) (s : TcpServer) : Prop :=
  match a with
  | .handleClose c => s.isOpen c = true → s.phase = .alive
  | .beginDestroy => s.phase = .alive →
      (∀ l, s.closing l = none) ∧ ∀ c, .removeConnectionInLoop c ∉ s.queues 0
  | _ => True

/-! ### Queues -/

theorem queued_queueInLoop (s : TcpServer) (f g : ServerFunctor) :
    (s.queueInLoop (s.home f) f).queued g = s.queued g + if f = g then 1 else 0 := by
  unfold queued queueInLoop
  show (Function.update s.queues (s.home f) (s.queues (s.home f) ++ [f]) (s.home g)).count g = _
  by_cases heq : s.home g = s.home f
  · rw [heq, Function.update_self, List.count_append, List.count_singleton]
    simp only [beq_iff_eq]
  · rw [Function.update_of_ne heq, if_neg (by rintro rfl; exact heq rfl)]
    rfl

theorem mem_queueInLoop {s : TcpServer} {f g : ServerFunctor} {l : Nat}
    (h : g ∈ (s.queueInLoop (s.home f) f).queues l) : g ∈ s.queues l ∨ (g = f ∧ l = s.home f) := by
  unfold queueInLoop at h
  have h : g ∈ Function.update s.queues (s.home f) (s.queues (s.home f) ++ [f]) l := h
  by_cases heq : l = s.home f
  · subst heq
    rw [Function.update_self, List.mem_append, List.mem_singleton] at h
    exact h.imp_right fun hg => ⟨hg, rfl⟩
  · rw [Function.update_of_ne heq] at h
    exact Or.inl h

/-- The functor that a loop takes is gone from its queue. -/
theorem queued_pop {s : TcpServer} {f : ServerFunctor} {rest : List ServerFunctor}
    (h : s.queues (s.home f) = f :: rest) (g : ServerFunctor) :
    s.queued g = { s with queues := Function.update s.queues (s.home f) rest }.queued g
      + if f = g then 1 else 0 := by
  unfold queued
  show _ = (Function.update s.queues (s.home f) rest (s.home g)).count g + _
  by_cases heq : s.home g = s.home f
  · rw [heq, Function.update_self, h, List.count_cons]
    simp only [beq_iff_eq]
  · rw [Function.update_of_ne heq, if_neg (by rintro rfl; exact heq rfl)]
    rfl

theorem mem_pop {s : TcpServer} {f g : ServerFunctor} {rest : List ServerFunctor} {l l' : Nat}
    (h : s.queues l = f :: rest) (hg : g ∈ Function.update s.queues l rest l') : g ∈ s.queues l' := by
  by_cases heq : l' = l
  · subst heq
    rw [Function.update_self] at hg
    rw [h]
    exact List.mem_cons_of_mem f hg
  · rwa [Function.update_of_ne heq] at hg

namespace Sound

variable {s : TcpServer}

theorem init : Sound init none where
  fresh := fun _ _ => ⟨rfl, rfl⟩
  owes := fun _ h => absurd h List.not_mem_nil
  home := fun _ _ h => absurd h List.not_mem_nil
  closing := nofun
  account := fun _ h => absurd h (Nat.not_lt_zero _)
  stages := fun _ _ h => absurd h (Nat.not_lt_zero _)
  quiet := fun h => absurd rfl h

variable {moving : Option Nat}

theorem home_queueInLoop (h : Sound s moving) {f : ServerFunctor} (hf : f.conn < s.nextConnId) :
    ∀ l, ∀ g ∈ (s.queueInLoop (s.home f) f).queues l, l = s.home g ∧ g.conn < s.nextConnId := by
  intro l g hg
  rcases mem_queueInLoop hg with hg | ⟨rfl, hl⟩
  · exact h.home l g hg
  · exact ⟨hl, hf⟩

theorem home_pop (h : Sound s moving) {f : ServerFunctor} {rest : List ServerFunctor} {l : Nat}
    (hq : s.queues l = f :: rest) :
    ∀ l', ∀ g ∈ Function.update s.queues l rest l', l' = s.home g ∧ g.conn < s.nextConnId :=
  fun l' g hg => h.home l' g (mem_pop hq hg)

/-! ### Steps -/

/-- `removeConnectionInLoop` of a connection that has left the stage before. -/
theorem removeConnectionInLoop {c : Nat} (h : Sound s (some c)) (halive : s.phase = .alive)
    (hc : c < s.nextConnId) :
    ∃ s', s.removeConnectionInLoop c = .ok s' ∧ Sound s' none := by
  have hstage := h.stages halive c hc
  rw [if_pos rfl] at hstage
  have haccount := h.account c hc
  rw [halive] at haccount
  have haccount : _ + s.connections.count c = 1 := haccount
  have hcount : s.connections.count c = 1 := by
    unfold TcpServer.stages at hstage
    omega
  have hin : c ∈ s.connections := List.count_pos_iff.mp (by omega)
  set f := ServerFunctor.connectDestroyed c with hf
  set s₁ : TcpServer := { s with connections := s.connections.erase c } with hs₁
  have hqueued : ∀ g, (s₁.queueInLoop (s₁.home f) f).queued g = s.queued g + if f = g then 1 else 0 :=
    queued_queueInLoop s₁ f
  have herase : ∀ c', (s.connections.erase c).count c' =
      s.connections.count c' - if c = c' then 1 else 0 := by
    intro c'
    rw [List.count_erase]
    simp only [beq_iff_eq]
  refine ⟨s₁.queueInLoop (s₁.home f) f, ?_, h.fresh, ?_, ?_, h.closing, ?_, ?_,
    fun hne => absurd halive hne⟩
  · unfold TcpServer.removeConnectionInLoop
    rw [if_neg (by rw [halive]; decide), assertThat_of hin]
    rfl
  · intro c' hc'
    refine h.owes c' ?_
    show c' ∈ owed s.phase s.connections
    have hc' : c' ∈ owed s.phase (s.connections.erase c) := hc'
    rw [halive] at hc' ⊢
    exact List.mem_of_mem_erase hc'
  · intro l g hg
    rcases mem_queueInLoop hg with hg | ⟨rfl, hl⟩
    · exact h.home l g hg
    · exact ⟨hl, hc⟩
  · intro c' hc'
    have hold := h.account c' hc'
    rw [hqueued]
    show s.destroyed c' + _ + (owed s.phase (s.connections.erase c)).count c' = 1
    rw [halive] at hold ⊢
    show s.destroyed c' + _ + (s.connections.erase c).count c' = 1
    have hold : s.destroyed c' + _ + s.connections.count c' = 1 := hold
    rw [herase]
    by_cases heq : c = c'
    · subst heq
      rw [if_pos rfl, if_pos rfl]
      omega
    · rw [if_neg (by rw [hf]; exact fun he => heq (ServerFunctor.connectDestroyed.inj he)), if_neg heq]
      exact hold
  · intro _ c' hc'
    have hold := h.stages halive c' hc'
    unfold TcpServer.stages at hold ⊢
    have hne : f ≠ .connectEstablished c' ∧ f ≠ .removeConnectionInLoop c' := ⟨nofun, nofun⟩
    rw [hqueued, hqueued, if_neg hne.1, if_neg hne.2]
    show s.queued _ + 0 + (if s.isOpen c' then 1 else 0) +
      (if s.closing (s.loop c') = some c' then 1 else 0) + (s.queued _ + 0)
      + (1 - (s.connections.erase c).count c') + 0 = 1
    rw [herase]
    by_cases heq : c = c'
    · subst heq
      rw [if_pos rfl] at hold
      rw [if_pos (rfl : c = c)]
      omega
    · rw [if_neg fun he => heq (Option.some.inj he)] at hold
      rw [if_neg heq]
      exact hold

/-- The close callback in another loop queues the removal. -/
theorem queueRemoval {c : Nat} (h : Sound s (some c)) (halive : s.phase = .alive)
    (hc : c < s.nextConnId) : Sound (s.queueInLoop 0 (.removeConnectionInLoop c)) none := by
  set f := ServerFunctor.removeConnectionInLoop c with hf
  have hqueued : ∀ g, (s.queueInLoop 0 f).queued g = s.queued g + if f = g then 1 else 0 :=
    queued_queueInLoop s f
  refine ⟨h.fresh, h.owes, h.home_queueInLoop (f := f) hc, h.closing, ?_, ?_,
    fun hne => absurd halive hne⟩
  · intro c' hc'
    rw [hqueued, if_neg (by rw [hf]; exact nofun)]
    exact h.account c' hc'
  · intro _ c' hc'
    have hold := h.stages halive c' hc'
    unfold TcpServer.stages at hold ⊢
    have hne : f ≠ .connectEstablished c' := nofun
    rw [hqueued, hqueued, if_neg hne]
    show s.queued _ + 0 + (if s.isOpen c' then 1 else 0) +
      (if s.closing (s.loop c') = some c' then 1 else 0) + (s.queued _ + (if f = _ then 1 else 0))
      + (1 - s.connections.count c') + 0 = 1
    by_cases heq : c = c'
    · subst heq
      rw [if_pos rfl] at hold
      rw [if_pos (rfl : f = _)]
      omega
    · rw [if_neg fun he => heq (Option.some.inj he)] at hold
      rw [if_neg (fun he => heq (ServerFunctor.removeConnectionInLoop.inj he))]
      exact hold

/-- `handleClose` begins. -/
theorem handleClose (h : Sound s none) (halive : s.phase = .alive) {c : Nat}
    (hopen : s.isOpen c = true) (hnone : s.closing (s.loop c) = none) :
    Sound { s with
      isOpen := Function.update s.isOpen c false
      closing := Function.update s.closing (s.loop c) (some c) } none := by
  have hc : c < s.nextConnId := by
    by_contra hge
    rw [(h.fresh c (Nat.le_of_not_lt hge)).2] at hopen
    cases hopen
  refine ⟨?_, h.owes, h.home, ?_, h.account, ?_, fun hne => absurd halive hne⟩
  · intro c' hc'
    have hc' : s.nextConnId ≤ c' := hc'
    refine ⟨(h.fresh c' hc').1, ?_⟩
    show Function.update s.isOpen c false c' = false
    rw [Function.update_of_ne (by omega)]
    exact (h.fresh c' hc').2
  · intro l c' hl
    have hl : Function.update s.closing (s.loop c) (some c) l = some c' := hl
    by_cases heq : l = s.loop c
    · rw [heq, Function.update_self] at hl
      rw [heq, ← Option.some.inj hl]
      exact ⟨rfl, hc⟩
    · rw [Function.update_of_ne heq] at hl
      exact h.closing l c' hl
  · intro _ c' hc'
    have hold := h.stages halive c' hc'
    unfold TcpServer.stages at hold ⊢
    show s.queued _ + (if Function.update s.isOpen c false c' then 1 else 0) +
      (if Function.update s.closing (s.loop c) (some c) (s.loop c') = some c' then 1 else 0)
      + s.queued _ + (1 - s.connections.count c') + 0 = 1
    by_cases heq : c' = c
    · subst heq
      rw [hopen, hnone] at hold
      rw [Function.update_self, Function.update_self, if_pos rfl, if_neg Bool.false_ne_true]
      rw [if_pos rfl, if_neg (nofun : ¬(none : Option Nat) = some c')] at hold
      exact hold
    · rw [Function.update_of_ne heq]
      by_cases hloop : s.loop c' = s.loop c
      · rw [hloop, Function.update_self, if_neg fun he => heq (Option.some.inj he).symm]
        rw [hloop, hnone, if_neg (nofun : ¬(none : Option Nat) = some c')] at hold
        exact hold
      · rw [Function.update_of_ne hloop]
        exact hold

/-- `handleClose` comes to its close callback. -/
theorem closed (h : Sound s none) {l c : Nat} (hl : s.closing l = some c) :
    s.phase = .alive ∧ c < s.nextConnId ∧
      Sound { s with closing := Function.update s.closing l none } (some c) := by
  have halive : s.phase = .alive := by
    by_contra hne
    rw [(h.quiet hne).1 l] at hl
    cases hl
  obtain ⟨hloop, hc⟩ := h.closing l c hl
  refine ⟨halive, hc, h.fresh, h.owes, h.home, ?_, h.account, ?_, fun hne => absurd halive hne⟩
  · intro l' c' hl'
    have hl' : Function.update s.closing l none l' = some c' := hl'
    by_cases heq : l' = l
    · rw [heq, Function.update_self] at hl'
      cases hl'
    · rw [Function.update_of_ne heq] at hl'
      exact h.closing l' c' hl'
  · intro _ c' hc'
    have hold := h.stages halive c' hc'
    unfold TcpServer.stages at hold ⊢
    show s.queued _ + (if s.isOpen c' then 1 else 0) +
      (if Function.update s.closing l none (s.loop c') = some c' then 1 else 0)
      + s.queued _ + (1 - s.connections.count c') + (if some c = some c' then 1 else 0) = 1
    by_cases heq : c = c'
    · subst heq
      rw [hloop, Function.update_self, if_neg (nofun : ¬none = some c), if_pos rfl]
      rw [hloop, hl, if_pos rfl] at hold
      have hold : s.queued _ + (if s.isOpen c then 1 else 0) + 1 + s.queued _ + _ + 0 = 1 := hold
      omega
    · rw [if_neg fun he => heq (Option.some.inj he)]
      by_cases hsame : s.loop c' = l
      · rw [hsame, Function.update_self, if_neg (nofun : ¬none = some c')]
        rw [hsame, hl, if_neg fun he => heq (Option.some.inj he)] at hold
        exact hold
      · rw [Function.update_of_ne hsame]
        exact hold

/-- `connectEstablished` of a connection that has left the stage before. -/
theorem connectEstablished {c : Nat} (h : Sound s (some c)) (hc : c < s.nextConnId) :
    Sound (s.connectEstablished c) none := by
  refine ⟨?_, h.owes, h.home, h.closing, h.account, ?_, h.quiet⟩
  · intro c' hc'
    have hc' : s.nextConnId ≤ c' := hc'
    refine ⟨(h.fresh c' hc').1, ?_⟩
    show Function.update s.isOpen c true c' = false
    rw [Function.update_of_ne (by omega)]
    exact (h.fresh c' hc').2
  · intro halive c' hc'
    have hold := h.stages halive c' hc'
    unfold TcpServer.stages at hold ⊢
    show s.queued _ + (if Function.update s.isOpen c true c' then 1 else 0) +
      (if s.closing (s.loop c') = some c' then 1 else 0) + s.queued _
      + (1 - s.connections.count c') + 0 = 1
    by_cases heq : c' = c
    · subst heq
      rw [if_pos rfl] at hold
      rw [Function.update_self, if_pos rfl]
      omega
    · rw [if_neg fun he => heq (Option.some.inj he).symm] at hold
      rw [Function.update_of_ne heq]
      exact hold

theorem queueEstablished {c : Nat} (h : Sound s (some c)) (hc : c < s.nextConnId) :
    Sound (s.queueInLoop (s.loop c) (.connectEstablished c)) none := by
  set f := ServerFunctor.connectEstablished c with hf
  have hqueued : ∀ g, (s.queueInLoop (s.loop c) f).queued g = s.queued g + if f = g then 1 else 0 :=
    queued_queueInLoop s f
  have hhome := h.home_queueInLoop (f := f) hc
  refine ⟨h.fresh, h.owes, hhome, h.closing, ?_, ?_, ?_⟩
  · intro c' hc'
    rw [hqueued, if_neg (by rw [hf]; exact nofun)]
    exact h.account c' hc'
  · intro halive c' hc'
    have hold := h.stages halive c' hc'
    unfold TcpServer.stages at hold ⊢
    have hne : f ≠ .removeConnectionInLoop c' := nofun
    rw [hqueued, hqueued, if_neg hne]
    show s.queued _ + (if f = _ then 1 else 0) + (if s.isOpen c' then 1 else 0) +
      (if s.closing (s.loop c') = some c' then 1 else 0) + (s.queued _ + 0)
      + (1 - s.connections.count c') + 0 = 1
    by_cases heq : c = c'
    · subst heq
      rw [if_pos rfl] at hold
      rw [if_pos (rfl : f = _)]
      omega
    · rw [if_neg fun he => heq (Option.some.inj he)] at hold
      rw [if_neg (fun he => heq (ServerFunctor.connectEstablished.inj he))]
      exact hold
  · intro hne
    refine ⟨(h.quiet hne).1, fun c' hm => ?_⟩
    rcases mem_queueInLoop (f := f) hm with hm | ⟨he, -⟩
    · exact (h.quiet hne).2 c' hm
    · exact absurd he (by rw [hf]; exact nofun)

theorem numbered_loop (ioLoop : Nat) {c : Nat} (hc : c < s.nextConnId) :
    (s.numbered ioLoop).loop c = s.loop c := Function.update_of_ne (Nat.ne_of_lt hc) _ _

theorem numbered_home (ioLoop : Nat) {f : ServerFunctor} (hf : f.conn < s.nextConnId) :
    (s.numbered ioLoop).home f = s.home f := by
  cases f with
  | connectEstablished c => exact numbered_loop ioLoop hf
  | removeConnectionInLoop c => rfl
  | connectDestroyed c => exact numbered_loop ioLoop hf

theorem numbered_queued (ioLoop : Nat) {f : ServerFunctor} (hf : f.conn < s.nextConnId) :
    (s.numbered ioLoop).queued f = s.queued f := by
  unfold queued
  rw [numbered_home ioLoop hf]
  rfl

/-- Nothing is queued for a connection before there is one. -/
theorem numbered_queued_new (h : Sound s none) (ioLoop : Nat) {f : ServerFunctor}
    (hf : f.conn = s.nextConnId) : (s.numbered ioLoop).queued f = 0 := by
  unfold queued
  rw [List.count_eq_zero]
  intro hm
  have hlt := (h.home _ f hm).2
  omega

theorem count_connections (s : TcpServer) (c c' : Nat) :
    (s.connections ++ [c]).count c' = s.connections.count c' + if c = c' then 1 else 0 := by
  rw [List.count_append, List.count_singleton]
  simp only [beq_iff_eq]

/-- A connection that has its number has its `connectEstablished` before it. -/
theorem numbered (h : Sound s none) (halive : s.phase = .alive) (ioLoop : Nat) :
    Sound (s.numbered ioLoop) (some s.nextConnId) := by
  have hnew : s.connections.count s.nextConnId = 0 := by
    refine List.count_eq_zero.mpr fun hm => ?_
    have hlt := h.owes s.nextConnId (by rw [halive]; exact hm)
    omega
  have hclosing : ∀ l, s.closing l ≠ some s.nextConnId := by
    intro l hl
    have hlt := (h.closing l _ hl).2
    omega
  refine ⟨?_, ?_, ?_, ?_, ?_, ?_, fun hne => absurd halive hne⟩
  · exact fun c hc => h.fresh c (Nat.le_of_succ_le hc)
  · intro c hc
    have hc : c ∈ owed s.phase (s.connections ++ [s.nextConnId]) := hc
    rw [halive] at hc
    show c < s.nextConnId + 1
    rcases List.mem_append.mp hc with hc | hc
    · have hlt := h.owes c (by rw [halive]; exact hc)
      omega
    · rw [List.mem_singleton.mp hc]
      omega
  · intro l f hf
    obtain ⟨hl, hlt⟩ := h.home l f hf
    rw [numbered_home ioLoop hlt]
    exact ⟨hl, Nat.lt_succ_of_lt hlt⟩
  · intro l c hl
    obtain ⟨hl', hlt⟩ := h.closing l c hl
    rw [numbered_loop ioLoop hlt]
    exact ⟨hl', Nat.lt_succ_of_lt hlt⟩
  · intro c hc
    have hc : c < s.nextConnId + 1 := hc
    show s.destroyed c + (s.numbered ioLoop).queued _
      + (owed s.phase (s.connections ++ [s.nextConnId])).count c = 1
    rw [halive]
    show s.destroyed c + (s.numbered ioLoop).queued _ + (s.connections ++ [s.nextConnId]).count c = 1
    rw [count_connections]
    by_cases heq : s.nextConnId = c
    · subst heq
      rw [numbered_queued_new h ioLoop rfl, if_pos rfl, (h.fresh _ (Nat.le_refl _)).1, hnew]
    · have hlt : c < s.nextConnId := by omega
      have hold := h.account c hlt
      rw [halive] at hold
      have hqueued := numbered_queued ioLoop (f := .connectDestroyed c) hlt
      rw [hqueued, if_neg heq]
      exact hold
  · intro _ c hc
    have hc : c < s.nextConnId + 1 := hc
    unfold TcpServer.stages
    show (s.numbered ioLoop).queued _ + (if s.isOpen c then 1 else 0)
      + (if s.closing ((s.numbered ioLoop).loop c) = some c then 1 else 0)
      + (s.numbered ioLoop).queued _ + (1 - (s.connections ++ [s.nextConnId]).count c) + _ = 1
    rw [count_connections]
    by_cases heq : s.nextConnId = c
    · subst heq
      rw [numbered_queued_new h ioLoop rfl, numbered_queued_new h ioLoop rfl, if_neg (hclosing _),
        (h.fresh _ (Nat.le_refl _)).2, hnew, if_pos (rfl : s.nextConnId = s.nextConnId), if_pos rfl,
        if_neg Bool.false_ne_true]
    · have hlt : c < s.nextConnId := by omega
      have hold := h.stages halive c hlt
      unfold TcpServer.stages at hold
      have hestablished := numbered_queued ioLoop (f := .connectEstablished c) hlt
      have hremoving := numbered_queued ioLoop (f := .removeConnectionInLoop c) hlt
      rw [hestablished, hremoving, numbered_loop ioLoop hlt, if_neg heq,
        if_neg fun he => heq (Option.some.inj he)]
      exact hold

theorem newConnection (h : Sound s none) (halive : s.phase = .alive) (ioLoop : Nat) :
    Sound (s.newConnection ioLoop) none := by
  have hnumbered := h.numbered halive ioLoop
  show Sound (if ioLoop = 0 then (s.numbered ioLoop).connectEstablished s.nextConnId
    else (s.numbered ioLoop).queueInLoop ioLoop (.connectEstablished s.nextConnId)) none
  by_cases hzero : ioLoop = 0
  · rw [if_pos hzero]
    exact hnumbered.connectEstablished (Nat.lt_succ_self _)
  · rw [if_neg hzero]
    have hqueue := hnumbered.queueEstablished (Nat.lt_succ_self _)
    rwa [show (s.numbered ioLoop).loop s.nextConnId = ioLoop from Function.update_self ..] at hqueue

/-- A loop takes a functor that is a stage of a connection. -/
theorem popStage (h : Sound s none) {f : ServerFunctor} {rest : List ServerFunctor} {l c : Nat}
    (hq : s.queues l = f :: rest)
    (hf : f = .connectEstablished c ∨ f = .removeConnectionInLoop c) :
    Sound { s with queues := Function.update s.queues l rest } (some c) := by
  have hl : l = s.home f := (h.home l f (by rw [hq]; exact List.mem_cons_self)).1
  subst hl
  refine ⟨h.fresh, h.owes, h.home_pop hq, h.closing, ?_, ?_, fun hne => ⟨(h.quiet hne).1, ?_⟩⟩
  · intro c' hc'
    have hold := h.account c' hc'
    have hne : f ≠ .connectDestroyed c' := by
      rcases hf with rfl | rfl <;> exact nofun
    rw [queued_pop hq, if_neg hne] at hold
    exact hold
  · intro halive c' hc'
    have hold := h.stages halive c' hc'
    unfold TcpServer.stages at hold ⊢
    rw [queued_pop hq, queued_pop hq] at hold
    by_cases heq : c = c'
    · subst heq
      rw [if_pos rfl]
      rcases hf with rfl | rfl
      · rw [if_pos rfl, if_neg (nofun : ¬ServerFunctor.connectEstablished c = .removeConnectionInLoop c)]
          at hold
        show _ + (if s.isOpen c then 1 else 0) + (if s.closing (s.loop c) = some c then 1 else 0) + _
          + (1 - s.connections.count c) + 1 = 1
        rw [if_neg (nofun : ¬(none : Option Nat) = some c)] at hold
        omega
      · rw [if_pos (rfl : ServerFunctor.removeConnectionInLoop c = _),
          if_neg (nofun : ¬ServerFunctor.removeConnectionInLoop c = .connectEstablished c)] at hold
        show _ + (if s.isOpen c then 1 else 0) + (if s.closing (s.loop c) = some c then 1 else 0) + _
          + (1 - s.connections.count c) + 1 = 1
        rw [if_neg (nofun : ¬(none : Option Nat) = some c)] at hold
        omega
    · have hne : f ≠ .connectEstablished c' ∧ f ≠ .removeConnectionInLoop c' := by
        rcases hf with rfl | rfl
        · exact ⟨fun he => heq (ServerFunctor.connectEstablished.inj he), nofun⟩
        · exact ⟨nofun, fun he => heq (ServerFunctor.removeConnectionInLoop.inj he)⟩
      rw [if_neg hne.1, if_neg hne.2] at hold
      rw [if_neg fun he => heq (Option.some.inj he)]
      exact hold
  · intro c' hm
    exact (h.quiet hne).2 c' (mem_pop hq hm)

theorem destroyed_connectDestroyed (s : TcpServer) (c c' : Nat) :
    (s.connectDestroyed c).destroyed c' = s.destroyed c' + if c = c' then 1 else 0 := by
  show Function.update s.destroyed c (s.destroyed c + 1) c' = _
  by_cases heq : c = c'
  · subst heq
    rw [Function.update_self, if_pos rfl]
  · rw [Function.update_of_ne (Ne.symm heq), if_neg heq]
    rfl

/-- A connection that has not been made is not the one that is destroyed. -/
theorem fresh_connectDestroyed (h : Sound s moving) {c c' : Nat} (hc : c < s.nextConnId)
    (hc' : s.nextConnId ≤ c') :
    (s.connectDestroyed c).destroyed c' = 0 ∧ (s.connectDestroyed c).isOpen c' = false := by
  show Function.update s.destroyed c _ c' = 0 ∧ Function.update s.isOpen c false c' = false
  rw [Function.update_of_ne (by omega), Function.update_of_ne (by omega)]
  exact h.fresh c' hc'

/-- A loop takes a `connectDestroyed` and runs it. -/
theorem popDestroyed (h : Sound s none) {rest : List ServerFunctor} {l c : Nat}
    (hq : s.queues l = .connectDestroyed c :: rest) :
    Sound ({ s with queues := Function.update s.queues l rest }.connectDestroyed c) none := by
  obtain ⟨hl, hc⟩ := h.home l _ (by rw [hq]; exact List.mem_cons_self)
  subst hl
  have hc : c < s.nextConnId := hc
  have haccount := h.account c hc
  rw [queued_pop hq, if_pos rfl] at haccount
  set s₁ : TcpServer :=
    { s with queues := Function.update s.queues (s.home (.connectDestroyed c)) rest } with hs₁
  have hqueued : ∀ g, (s₁.connectDestroyed c).queued g = s₁.queued g := fun _ => rfl
  refine ⟨?_, h.owes, h.home_pop hq, h.closing, ?_, ?_, fun hne => ⟨(h.quiet hne).1, ?_⟩⟩
  · exact fun c' hc' => h.fresh_connectDestroyed hc hc'
  · intro c' hc'
    have hold := h.account c' hc'
    rw [queued_pop hq, ← hs₁] at hold
    simp only [ServerFunctor.connectDestroyed.injEq] at hold
    rw [hqueued, destroyed_connectDestroyed]
    show s.destroyed c' + _ + s₁.queued _ + (owed s.phase s.connections).count c' = 1
    omega
  · intro halive' c' hc'
    have halive : s.phase = .alive := halive'
    have hold := h.stages halive c' hc'
    unfold TcpServer.stages at hold ⊢
    rw [queued_pop hq, queued_pop hq] at hold
    have hne : ServerFunctor.connectDestroyed c ≠ .connectEstablished c' ∧
        ServerFunctor.connectDestroyed c ≠ .removeConnectionInLoop c' := ⟨nofun, nofun⟩
    rw [if_neg hne.1, if_neg hne.2] at hold
    show _ + (if Function.update s.isOpen c false c' then 1 else 0) + _ + _ + _ + _ = 1
    by_cases heq : c' = c
    · -- it has been removed, so it is not open
      subst heq
      have haccount : _ + _ + (owed s.phase s.connections).count c' = 1 := haccount
      rw [halive] at haccount
      have haccount : _ + (_ + 1) + s.connections.count c' = 1 := haccount
      have hcount : s.connections.count c' = 0 := by omega
      rw [hcount] at hold
      have hclosed : s.isOpen c' = false := by
        by_contra ho
        have ho : s.isOpen c' = true := (Bool.not_eq_false _).mp ho
        rw [ho, if_pos rfl] at hold
        omega
      rw [Function.update_self, ← hclosed]
      show _ + (if s.isOpen c' then 1 else 0) + _ + _ + (1 - s.connections.count c') + _ = 1
      rw [hcount]
      exact hold
    · rw [Function.update_of_ne heq]
      exact hold
  · intro c' hm
    exact (h.quiet hne).2 c' (mem_pop hq hm)

/-! ### The destructor -/

theorem beginDestroy (h : Sound s none) (halive : s.phase = .alive)
    (hquiet : (∀ l, s.closing l = none) ∧ ∀ c, .removeConnectionInLoop c ∉ s.queues 0) :
    Sound { s with phase := .destructing s.connections } none := by
  have howes := h.owes
  have haccount := h.account
  rw [halive] at howes haccount
  exact ⟨h.fresh, howes, h.home, h.closing, haccount, nofun, fun _ => hquiet⟩

theorem destroyNext (h : Sound s none) {c : Nat} {rest : List Nat}
    (hphase : s.phase = .destructing (c :: rest)) :
    Sound ({ s with phase := .destructing rest }.destroyNext c) none := by
  have hquiet := h.quiet (by rw [hphase]; exact nofun)
  have hc : c < s.nextConnId := h.owes c (by rw [hphase]; exact List.mem_cons_self)
  have howes : ∀ c' ∈ rest, c' < s.nextConnId := fun c' hc' =>
    h.owes c' (by rw [hphase]; exact List.mem_cons_of_mem c hc')
  have haccount : ∀ c' < s.nextConnId,
      s.destroyed c' + s.queued (.connectDestroyed c') + (rest.count c' + if c = c' then 1 else 0) = 1 := by
    intro c' hc'
    have hold := h.account c' hc'
    rw [hphase] at hold
    have hold : _ + (c :: rest).count c' = 1 := hold
    rw [List.count_cons] at hold
    simpa only [beq_iff_eq] using hold
  unfold TcpServer.destroyNext
  by_cases hloop : s.loop c = 0
  · rw [if_pos (by exact hloop)]
    refine ⟨?_, howes, h.home, h.closing, ?_, nofun, fun _ => hquiet⟩
    · exact fun c' hc' => h.fresh_connectDestroyed hc hc'
    · intro c' hc'
      have hold := haccount c' hc'
      rw [destroyed_connectDestroyed]
      show s.destroyed c' + _ + s.queued _ + rest.count c' = 1
      omega
  · rw [if_neg (by exact hloop)]
    set f := ServerFunctor.connectDestroyed c with hf
    have hqueued : ∀ g, (s.queueInLoop (s.loop c) f).queued g = s.queued g + if f = g then 1 else 0 :=
      queued_queueInLoop s f
    refine ⟨h.fresh, howes, h.home_queueInLoop (f := f) hc, h.closing, ?_, nofun, fun _ => ?_⟩
    · intro c' hc'
      have hold := haccount c' hc'
      show s.destroyed c' + (s.queueInLoop (s.loop c) f).queued _ + rest.count c' = 1
      rw [hqueued]
      simp only [hf, ServerFunctor.connectDestroyed.injEq]
      omega
    · refine ⟨hquiet.1, fun c' hm => ?_⟩
      rcases mem_queueInLoop (f := f) hm with hm | ⟨he, -⟩
      · exact hquiet.2 c' hm
      · exact absurd he (by rw [hf]; exact nofun)

theorem endDestroy (h : Sound s none) (hphase : s.phase = .destructing []) :
    Sound { s with phase := .gone } none := by
  have haccount := h.account
  rw [hphase] at haccount
  exact ⟨h.fresh, nofun, h.home, h.closing, haccount, nofun,
    fun _ => h.quiet (by rw [hphase]; exact nofun)⟩

/-! ### Runs -/

/-- A step that may be taken goes well. -/
theorem step_ok (h : Sound s none) {a : ServerAction} (hmay : May a s) :
    ∃ s', step a s = .ok s' ∧ Sound s' none := by
  cases a with
  | newConnection ioLoop =>
      simp only [step]
      by_cases hready : s.phase = .alive ∧ s.closing 0 = none
      · exact ⟨_, if_pos hready, h.newConnection hready.1 ioLoop⟩
      · exact ⟨s, if_neg hready, h⟩
  | handleClose c =>
      simp only [step]
      by_cases hready : s.isOpen c = true ∧ s.closing (s.loop c) = none ∧
          (s.loop c = 0 → s.destructing = false)
      · exact ⟨_, if_pos hready, h.handleClose (hmay hready.1) hready.1 hready.2.1⟩
      · exact ⟨s, if_neg hready, h⟩
  | closeCallback l =>
      simp only [step]
      cases hl : s.closing l with
      | none => exact ⟨s, rfl, h⟩
      | some c =>
          obtain ⟨halive, hc, hclosed⟩ := h.closed hl
          show ∃ s', (if l = 0 ∧ s.destructing = true then _ else _) = _ ∧ _
          rw [if_neg (fun hd => by unfold destructing at hd; rw [halive] at hd; cases hd.2)]
          set s₁ : TcpServer := { s with closing := Function.update s.closing l none }
          have halive₁ : s₁.phase = .alive := halive
          unfold removeConnection
          rw [if_neg (by rw [halive₁]; decide)]
          show ∃ s', (if s₁.loop c = 0 then _ else _) = _ ∧ _
          by_cases hzero : s₁.loop c = 0
          · rw [if_pos hzero]
            exact hclosed.removeConnectionInLoop halive₁ hc
          · rw [if_neg hzero]
            exact ⟨_, rfl, hclosed.queueRemoval halive₁ hc⟩
  | runFunctor l =>
      simp only [step]
      cases hq : s.queues l with
      | nil => exact ⟨s, rfl, h⟩
      | cons f rest =>
          show ∃ s', (if s.closing l = none ∧ (l = 0 → s.destructing = false) then _ else _) = _ ∧ _
          by_cases hready : s.closing l = none ∧ (l = 0 → s.destructing = false)
          · rw [if_pos hready]
            have hmem : f ∈ s.queues l := by rw [hq]; exact List.mem_cons_self
            obtain ⟨hl, hc⟩ := h.home l f hmem
            cases f with
            | connectEstablished c =>
                exact ⟨_, rfl, (h.popStage hq (Or.inl rfl)).connectEstablished hc⟩
            | connectDestroyed c => exact ⟨_, rfl, h.popDestroyed hq⟩
            | removeConnectionInLoop c =>
                have halive : s.phase = .alive := by
                  by_contra hne
                  have hl : l = 0 := hl
                  rw [hl] at hmem
                  exact (h.quiet hne).2 c hmem
                exact (h.popStage hq (Or.inr rfl)).removeConnectionInLoop halive hc
          · exact ⟨s, if_neg hready, h⟩
  | beginDestroy =>
      simp only [step]
      by_cases halive : s.phase = .alive
      · exact ⟨_, if_pos halive, h.beginDestroy halive (hmay halive)⟩
      · exact ⟨s, if_neg halive, h⟩
  | destroyNext =>
      simp only [step]
      cases hphase : s.phase with
      | alive => exact ⟨s, rfl, h⟩
      | gone => exact ⟨s, rfl, h⟩
      | destructing rest =>
          cases rest with
          | nil => exact ⟨s, rfl, h⟩
          | cons c rest => exact ⟨_, rfl, h.destroyNext hphase⟩
  | endDestroy =>
      simp only [step]
      cases hphase : s.phase with
      | alive => exact ⟨s, rfl, h⟩
      | gone => exact ⟨s, rfl, h⟩
      | destructing rest =>
          cases rest with
          | nil => exact ⟨_, rfl, h.endDestroy hphase⟩
          | cons c rest => exact ⟨s, rfl, h⟩

end Sound

end TcpServer

end Net
