/-
The sorted list shuts idle connections down, as well as the clock lets it.

The list is in the order in which its connections were heard, and the timer stops at the first
that is not idle.  The times it is given come from two calls of the clock, and the clock may be
set, so that a later time can be the smaller one.  If no time is by more than some slack behind
an earlier one, then the timer is right about every connection but for that slack.

A history is the list of the callbacks, with the newest in front.
-/
import Muduo.Examples.SortedList

namespace SortedList

open Lib Net EchoServer

/-! ### Histories -/

/-- The time that a callback is given or takes. -/
def Action.stamp : Action → Option Int
  | .up _ now => some now
  | .message _ _ time => some time
  | .down _ => none
  | .destroy _ => none
  | .timer now => some now

/-- When `conn` was heard last. -/
def heard (conn : Conn) : List Action → Option Int
  | [] => none
  | .up c now :: h => if c = conn then some now else heard conn h
  | .message c _ time :: h => if c = conn then some time else heard conn h
  | .down _ :: h => heard conn h
  | .destroy _ :: h => heard conn h
  | .timer _ :: h => heard conn h

/-- No time is by more than `slack` behind an earlier one. -/
def InOrder (slack : Nat) (h : List Action) : Prop :=
  (h.filterMap Action.stamp).Pairwise fun later earlier : Int => earlier ≤ later + slack

instance (slack : Nat) (h : List Action) : Decidable (InOrder slack h) :=
  inferInstanceAs (Decidable (List.Pairwise _ _))

theorem heard_mem {conn : Conn} {t : Int} {h : List Action} (ht : heard conn h = some t) :
    t ∈ h.filterMap Action.stamp := by
  induction h with
  | nil => cases ht
  | cons a h ih =>
      cases a with
      | up c now =>
          rw [heard] at ht
          split at ht
          · cases ht
            exact List.mem_cons_self
          · exact List.mem_cons_of_mem _ (ih ht)
      | message c msg time =>
          rw [heard] at ht
          split at ht
          · cases ht
            exact List.mem_cons_self
          · exact List.mem_cons_of_mem _ (ih ht)
      | down c => exact ih ht
      | destroy c => exact ih ht
      | timer now => exact List.mem_cons_of_mem _ (ih ht)

theorem InOrder.of_append {slack : Nat} {h h' : List Action} (ho : InOrder slack (h' ++ h)) :
    InOrder slack h := by
  rw [InOrder, List.filterMap_append] at ho
  exact (List.pairwise_append.mp ho).2.1

theorem InOrder.le {slack : Nat} {a : Action} {h : List Action} (ho : InOrder slack (a :: h))
    {now : Int} (ha : a.stamp = some now) {conn : Conn} {t : Int} (ht : heard conn h = some t) :
    t ≤ now + slack := by
  rw [InOrder, List.filterMap_cons_some ha] at ho
  exact (List.pairwise_cons.mp ho).1 t (heard_mem ht)

/-! ### The walk of the timer -/

theorem modify_connections (s : EchoServer) (conn : Conn) (f : Connection → Connection)
    (c : Conn) :
    (s.modify conn f).connections c = if c = conn then f (s.connections conn) else s.connections c :=
  Function.update_apply _ _ _ _

/-- Whether the timer goes on behind a connection. -/
def goesOn (s : EchoServer) (now : Int) (conn : Conn) : Bool :=
  match (s.connections conn).context with
  | none => false
  | some n => s.idleSeconds * kMicroSecondsPerSecond < now - n || now < n

/-- What it does to the ones it goes by. -/
def visit (idleSeconds now : Int) (c : Connection) : Connection :=
  match c.context with
  | none => c
  | some n =>
      if idleSeconds * kMicroSecondsPerSecond < now - n then c.shutdown
      else if now < n then { c with context := some now }
      else c

theorem onTimerLoop_cons {s : EchoServer} {now : Int} {conn : Conn} {rest : List Conn}
    (halive : (s.connections conn).alive = true) {n : Int}
    (hcontext : (s.connections conn).context = some n) :
    onTimerLoop now (conn :: rest) s =
      if goesOn s now conn then onTimerLoop now rest (s.modify conn (visit s.idleSeconds now))
      else .ok s := by
  have hmodify : ∀ f : Connection → Connection,
      visit s.idleSeconds now (s.connections conn) = f (s.connections conn) →
        s.modify conn (visit s.idleSeconds now) = s.modify conn f := by
    intro f hf
    unfold EchoServer.modify
    rw [hf]
  rw [onTimerLoop, if_pos halive, hcontext]
  dsimp only
  by_cases hidle : s.idleSeconds * kMicroSecondsPerSecond < now - n
  · rw [if_pos hidle, if_pos (by simp [goesOn, hcontext, hidle]),
      hmodify Connection.shutdown (by simp [visit, hcontext, hidle])]
  · rw [if_neg hidle]
    by_cases hjump : now < n
    · rw [if_pos (by omega), if_pos (by simp [goesOn, hcontext, hjump]),
        hmodify (fun c => { c with context := some now }) (by simp [visit, hcontext, hidle, hjump])]
    · rw [if_neg (by omega), if_neg (by simp [goesOn, hcontext, hidle, hjump])]

/-- The timer visits the connections in front of the first at which it stops. -/
theorem onTimerLoop_spec {s : EchoServer} {now : Int} {l : List Conn} (hnodup : l.Nodup)
    (hnodes : ∀ c ∈ l, (s.connections c).alive = true ∧ ∃ n, (s.connections c).context = some n) :
    ∀ {t : EchoServer}, t.idleSeconds = s.idleSeconds →
      (∀ c ∈ l, t.connections c = s.connections c) →
        ∃ s', onTimerLoop now l t = .ok s' ∧ s'.idleSeconds = s.idleSeconds ∧
          s'.connectionList = t.connectionList ∧ ∀ c, s'.connections c =
            if c ∈ l.takeWhile (goesOn s now) then visit s.idleSeconds now (s.connections c)
            else t.connections c := by
  induction l with
  | nil => exact fun {t} hidle _ => ⟨t, rfl, hidle, rfl, fun c => (if_neg List.not_mem_nil).symm⟩
  | cons a l ih =>
      intro t hidle hsame
      obtain ⟨ha, hnodup⟩ := List.nodup_cons.mp hnodup
      obtain ⟨halive, n, hcontext⟩ := hnodes a List.mem_cons_self
      have hta := hsame a List.mem_cons_self
      have hgoes : goesOn t now a = goesOn s now a := by rw [goesOn, hta, hidle, goesOn]
      rw [onTimerLoop_cons (by rwa [hta]) (by rwa [hta]), hgoes]
      cases hgo : goesOn s now a with
      | false =>
          rw [List.takeWhile_cons_of_neg (by rw [hgo]; exact Bool.false_ne_true)]
          exact ⟨t, rfl, hidle, rfl, fun c => (if_neg List.not_mem_nil).symm⟩
      | true =>
          obtain ⟨s', hloop, hidle', hlist, hconnections⟩ :=
            ih hnodup (fun c hc => hnodes c (List.mem_cons_of_mem a hc))
              (t := t.modify a (visit t.idleSeconds now)) hidle fun c hc => by
                have hca : c ≠ a := fun hca => ha (hca ▸ hc)
                rw [modify_connections, if_neg hca]
                exact hsame c (List.mem_cons_of_mem a hc)
          refine ⟨s', hloop, hidle', hlist, fun c => ?_⟩
          rw [hconnections, List.takeWhile_cons_of_pos hgo, modify_connections]
          by_cases hc : c = a
          · have hnot : a ∉ l.takeWhile (goesOn s now) := fun hmem =>
              ha ((List.takeWhile_sublist _).subset hmem)
            rw [hc, if_neg hnot, if_pos rfl, if_pos List.mem_cons_self, hta, hidle]
          · simp only [List.mem_cons, hc, false_or, if_false]

theorem visit_spec (idleSeconds now : Int) (c : Connection) :
    (visit idleSeconds now c).alive = c.alive ∧
      ((visit idleSeconds now c).established ↔ c.established) ∧
        ((visit idleSeconds now c).state = .kDisconnected ↔ c.state = .kDisconnected) := by
  unfold visit
  cases hcontext : c.context with
  | none => exact ⟨rfl, Iff.rfl, Iff.rfl⟩
  | some n =>
      dsimp only
      split
      · unfold Connection.shutdown
        split
        · rename_i hstate
          simp [Connection.established, hstate]
        · exact ⟨rfl, Iff.rfl, Iff.rfl⟩
      · split
        · exact ⟨rfl, Iff.rfl, Iff.rfl⟩
        · exact ⟨rfl, Iff.rfl, Iff.rfl⟩

/-- A time from the future is set back. -/
theorem context_visit {idleSeconds now n : Int} {c : Connection} (hcontext : c.context = some n) :
    (visit idleSeconds now c).context = some n ∨
      now < n ∧ (visit idleSeconds now c).context = some now := by
  unfold visit
  rw [hcontext]
  dsimp only
  split
  · left
    unfold Connection.shutdown
    split <;> exact hcontext
  · split
    · rename_i hjump
      exact Or.inr ⟨hjump, rfl⟩
    · exact Or.inl hcontext

/-! ### The list follows -/

/-- The server as the history says it is. -/
structure Follows (slack : Nat) (idleSeconds : Int) (h : List Action) (s : EchoServer) : Prop where
  idleSeconds : s.idleSeconds = idleSeconds
  nodup : s.connectionList.Nodup
  listed : ∀ c, c ∈ s.connectionList ↔ (s.connections c).established
  alive : ∀ c, (s.connections c).state ≠ .kDisconnected → (s.connections c).alive = true
  node : ∀ c ∈ s.connectionList, ∃ n t, (s.connections c).context = some n ∧
    heard c h = some t ∧ n ≤ t ∧ t ≤ n + slack
  sorted : s.connectionList.Pairwise fun c c' => ∀ n n', (s.connections c).context = some n →
    (s.connections c').context = some n' → n ≤ n' + slack

theorem follows_init (slack : Nat) (idleSeconds : Int) :
    Follows slack idleSeconds [] (init idleSeconds) where
  idleSeconds := rfl
  nodup := List.nodup_nil
  listed _ := by simp [init, Connection.established]
  alive _ _ := rfl
  node _ hc := absurd hc List.not_mem_nil
  sorted := List.Pairwise.nil

namespace Follows

variable {slack : Nat} {idleSeconds : Int} {h : List Action} {a : Action} {s s' : EchoServer}

theorem not_disconnected {c : Connection} (hc : c.established) : c.state ≠ .kDisconnected := by
  rcases hc with hc | hc <;> simp [hc]

/-- The order is that of the contexts alone. -/
theorem pairwise_congr {l : List Conn}
    (hl : l.Pairwise fun c c' => ∀ n n', (s.connections c).context = some n →
      (s.connections c').context = some n' → n ≤ n' + slack)
    (hsame : ∀ c ∈ l, (s'.connections c).context = (s.connections c).context) :
    l.Pairwise fun c c' => ∀ n n', (s'.connections c).context = some n →
      (s'.connections c').context = some n' → n ≤ n' + slack := by
  refine hl.imp_of_mem fun {c c'} hc hc' hle n n' hn hn' => ?_
  rw [hsame c hc] at hn
  rw [hsame c' hc'] at hn'
  exact hle n n' hn hn'

/-- A connection that is heard goes to the end. -/
theorem hears (hf : Follows slack idleSeconds h s) {conn : Conn} {now : Int}
    (hidle : s'.idleSeconds = s.idleSeconds)
    (hlist : s'.connectionList = s.connectionList.erase conn ++ [conn])
    (hother : ∀ c, c ≠ conn → s'.connections c = s.connections c)
    (hcontext : (s'.connections conn).context = some now)
    (hup : (s'.connections conn).established) (halive : (s'.connections conn).alive = true)
    (hheard : ∀ c, heard c (a :: h) = if conn = c then some now else heard c h)
    (hnow : ∀ c t, heard c h = some t → t ≤ now + slack) :
    Follows slack idleSeconds (a :: h) s' := by
  have herase : ∀ c ∈ s.connectionList.erase conn, c ≠ conn ∧ c ∈ s.connectionList :=
    fun c hc => hf.nodup.mem_erase_iff.mp hc
  refine ⟨hidle.trans hf.idleSeconds, ?_, fun c => ?_, fun c hc => ?_, fun c hc => ?_, ?_⟩
  · rw [hlist]
    refine (hf.nodup.erase conn).append (List.nodup_singleton conn) fun c hc hmem => ?_
    exact (herase c hc).1 (List.mem_singleton.mp hmem)
  · rw [hlist, List.mem_append, hf.nodup.mem_erase_iff, List.mem_singleton]
    by_cases hc : c = conn
    · exact ⟨fun _ => hc ▸ hup, fun _ => Or.inr hc⟩
    · rw [hother c hc, ← hf.listed]
      simp [hc]
  · by_cases hconn : c = conn
    · rw [hconn]
      exact halive
    · rw [hother c hconn] at hc ⊢
      exact hf.alive c hc
  · rw [hheard]
    by_cases hconn : c = conn
    · subst hconn
      exact ⟨now, now, hcontext, if_pos rfl, le_refl now, by omega⟩
    · rw [hother c hconn, if_neg (Ne.symm hconn)]
      rw [hlist, List.mem_append, List.mem_singleton] at hc
      exact hf.node c (herase c (hc.resolve_right hconn)).2
  · rw [hlist, List.pairwise_append]
    refine ⟨?_, List.pairwise_singleton _ _, fun c hc c' hc' n n' hn hn' => ?_⟩
    · refine pairwise_congr (s := s) (hf.sorted.sublist List.erase_sublist) fun c hc => ?_
      rw [hother c (herase c hc).1]
    · -- No time in the list is further ahead than the slack allows.
      obtain rfl := List.mem_singleton.mp hc'
      obtain ⟨hne, hmem⟩ := herase c hc
      obtain ⟨m, t, hm, ht, hle, -⟩ := hf.node c hmem
      rw [hother c hne, hm] at hn
      rw [hcontext] at hn'
      cases hn
      cases hn'
      exact le_trans hle (hnow c t ht)

/-- A connection that goes is taken out. -/
theorem leaves (hf : Follows slack idleSeconds h s) {conn : Conn}
    (hidle : s'.idleSeconds = s.idleSeconds)
    (hlist : s'.connectionList = s.connectionList.erase conn)
    (hother : ∀ c, c ≠ conn → s'.connections c = s.connections c)
    (hdown : (s'.connections conn).state = .kDisconnected)
    (hheard : ∀ c, heard c (a :: h) = heard c h) :
    Follows slack idleSeconds (a :: h) s' := by
  have herase : ∀ c ∈ s.connectionList.erase conn, c ≠ conn ∧ c ∈ s.connectionList :=
    fun c hc => hf.nodup.mem_erase_iff.mp hc
  refine ⟨hidle.trans hf.idleSeconds, ?_, fun c => ?_, fun c hc => ?_, fun c hc => ?_, ?_⟩
  · rw [hlist]
    exact hf.nodup.erase conn
  · rw [hlist, hf.nodup.mem_erase_iff]
    by_cases hc : c = conn
    · subst hc
      exact ⟨fun hmem => absurd rfl hmem.1, fun hup => absurd hdown (not_disconnected hup)⟩
    · rw [hother c hc, ← hf.listed]
      simp [hc]
  · by_cases hconn : c = conn
    · exact absurd (hconn ▸ hdown) hc
    · rw [hother c hconn] at hc ⊢
      exact hf.alive c hc
  · rw [hlist] at hc
    rw [hheard, hother c (herase c hc).1]
    exact hf.node c (herase c hc).2
  · rw [hlist]
    refine pairwise_congr (s := s) (hf.sorted.sublist List.erase_sublist) fun c hc => ?_
    rw [hother c (herase c hc).1]

theorem up (hf : Follows slack idleSeconds h s) {conn : Conn} {now : Int}
    (ho : InOrder slack (.up conn now :: h)) (hconn : (s.connections conn).state = .kConnecting) :
    Follows slack idleSeconds (.up conn now :: h) (s.onConnection conn now) := by
  have hnot : conn ∉ s.connectionList := by
    rw [hf.listed]
    simp [Connection.established, hconn]
  have hself : (s.onConnection conn now).connections conn =
      { s.connections conn with state := .kConnected, context := some now } := by
    rw [onConnection, modify_connections, if_pos rfl]
    rfl
  refine hf.hears rfl ?_ (fun c hc => ?_) ?_ ?_ ?_ (fun c => rfl) fun c t ht => ho.le rfl ht
  · rw [List.erase_of_not_mem hnot]
    rfl
  · rw [onConnection, modify_connections, if_neg hc]
    rfl
  · rw [hself]
  · rw [hself]
    exact Or.inl rfl
  · rw [hself]
    exact hf.alive conn (by simp [hconn])

theorem context_of_listed (hf : Follows slack idleSeconds h s) {conn : Conn}
    (hconn : (s.connections conn).established) :
    conn ∈ s.connectionList ∧ (s.connections conn).context.isNone = false := by
  have hmem := (hf.listed conn).mpr hconn
  obtain ⟨n, t, hn, -⟩ := hf.node conn hmem
  rw [hn]
  exact ⟨hmem, rfl⟩

theorem erase_modify {conn : Conn} (hmem : conn ∈ s.connectionList) (f : Connection → Connection) :
    (s.modify conn f).erase conn =
      .ok ⟨s.idleSeconds, s.connectionList.erase conn, (s.modify conn f).connections⟩ :=
  if_pos hmem

theorem message (hf : Follows slack idleSeconds h s) {conn : Conn} {msg : Bytes} {time : Int}
    (ho : InOrder slack (.message conn msg time :: h))
    (hconn : (s.connections conn).established) :
    ∃ s', s.onMessage conn msg time = .ok s' ∧
      Follows slack idleSeconds (.message conn msg time :: h) s' := by
  obtain ⟨hmem, hcontext⟩ := hf.context_of_listed hconn
  have hmessage : s.onMessage conn msg time = .ok ⟨s.idleSeconds,
      s.connectionList.erase conn ++ [conn],
      (s.modify conn fun c => { c.send msg with context := some time }).connections⟩ := by
    rw [onMessage, hcontext, if_neg Bool.false_ne_true]
    dsimp only
    rw [erase_modify hmem]
    rfl
  refine ⟨_, hmessage, ?_⟩
  have hsend : ((s.connections conn).send msg).state = (s.connections conn).state ∧
      ((s.connections conn).send msg).alive = (s.connections conn).alive := by
    unfold Connection.send
    split <;> exact ⟨rfl, rfl⟩
  have hself := modify_connections s conn (fun c => { c.send msg with context := some time }) conn
  rw [if_pos rfl] at hself
  refine hf.hears rfl rfl (fun c hc => ?_) ?_ ?_ ?_ (fun c => rfl) fun c t ht => ho.le rfl ht
  · dsimp only
    rw [modify_connections, if_neg hc]
  · exact congrArg Connection.context hself
  · refine (congrArg Connection.established hself).mpr ?_
    rw [Connection.established]
    exact hsend.1 ▸ hconn
  · refine (congrArg Connection.alive hself).trans (hsend.2.trans ?_)
    exact hf.alive conn (not_disconnected hconn)

theorem down (hf : Follows slack idleSeconds h s) {conn : Conn}
    (hconn : (s.connections conn).established) :
    ∃ s', s.onDisconnection conn = .ok s' ∧ Follows slack idleSeconds (.down conn :: h) s' := by
  obtain ⟨hmem, hcontext⟩ := hf.context_of_listed hconn
  have hdown : s.onDisconnection conn = .ok ⟨s.idleSeconds, s.connectionList.erase conn,
      (s.modify conn fun c => { c with state := .kDisconnected }).connections⟩ := by
    rw [onDisconnection, hcontext, if_neg Bool.false_ne_true, erase_modify hmem]
  refine ⟨_, hdown, hf.leaves rfl rfl (fun c hc => ?_) ?_ fun c => rfl⟩
  · dsimp only
    rw [modify_connections, if_neg hc]
  · dsimp only
    rw [modify_connections, if_pos rfl]

theorem destroy (hf : Follows slack idleSeconds h s) {conn : Conn}
    (hconn : (s.connections conn).state = .kDisconnected) :
    Follows slack idleSeconds (.destroy conn :: h)
      (s.modify conn fun c => { c with alive := false }) := by
  have hnot : conn ∉ s.connectionList := by
    rw [hf.listed]
    exact fun hup => not_disconnected hup hconn
  refine hf.leaves rfl (List.erase_of_not_mem hnot).symm (fun c hc => ?_) ?_ fun c => rfl
  · exact (modify_connections s conn _ c).trans (if_neg hc)
  · rw [modify_connections, if_pos rfl]
    exact hconn

/-- What the timer does: it visits the connections in front of the first at which it stops. -/
theorem onTimer_spec (hf : Follows slack idleSeconds h s) (now : Int) :
    ∃ s', s.onTimer now = .ok s' ∧ s'.idleSeconds = s.idleSeconds ∧
      s'.connectionList = s.connectionList ∧ ∀ c, s'.connections c =
        if c ∈ s.connectionList.takeWhile (goesOn s now) then
          visit s.idleSeconds now (s.connections c)
        else s.connections c := by
  refine onTimerLoop_spec hf.nodup (fun c hc => ?_) rfl fun c _ => rfl
  obtain ⟨n, t, hn, -⟩ := hf.node c hc
  exact ⟨hf.alive c (not_disconnected ((hf.listed c).mp hc)), n, hn⟩

theorem timer (hf : Follows slack idleSeconds h s) {now : Int}
    (ho : InOrder slack (.timer now :: h)) :
    ∃ s', s.onTimer now = .ok s' ∧ Follows slack idleSeconds (.timer now :: h) s' := by
  obtain ⟨s', htimer, hidle, hlist, hconnections⟩ := hf.onTimer_spec now
  -- What a visit leaves out is left as it is.
  have hvisit : ∀ c, s'.connections c = visit s.idleSeconds now (s.connections c) ∨
      s'.connections c = s.connections c := by
    intro c
    rw [hconnections]
    split
    · exact Or.inl rfl
    · exact Or.inr rfl
  have hcontext : ∀ c n, (s.connections c).context = some n →
      (s'.connections c).context = some n ∨
        now < n ∧ (s'.connections c).context = some now := by
    intro c n hn
    rcases hvisit c with hc | hc
    · rw [hc]
      exact context_visit hn
    · rw [hc]
      exact Or.inl hn
  refine ⟨s', htimer, hidle.trans hf.idleSeconds, hlist ▸ hf.nodup, fun c => ?_, fun c hc => ?_,
    fun c hc => ?_, ?_⟩
  · rw [hlist, hf.listed]
    rcases hvisit c with hc | hc
    · rw [hc, (visit_spec _ _ _).2.1]
    · rw [hc]
  · rcases hvisit c with hv | hv
    · rw [hv] at hc ⊢
      rw [(visit_spec _ _ _).1]
      exact hf.alive c fun hdown => hc ((visit_spec _ _ _).2.2.mpr hdown)
    · rw [hv] at hc ⊢
      exact hf.alive c hc
  · obtain ⟨n, t, hn, ht, hle, hslack⟩ := hf.node c (hlist ▸ hc)
    rcases hcontext c n hn with hn' | ⟨hjump, hn'⟩
    · exact ⟨n, t, hn', ht, hle, hslack⟩
    · exact ⟨now, t, hn', ht, by omega, ho.le rfl ht⟩
  · rw [hlist]
    refine hf.sorted.imp_of_mem fun {c c'} hc hc' hsorted m m' hm hm' => ?_
    obtain ⟨n, t, hn, ht, hle, -⟩ := hf.node c hc
    obtain ⟨n', t', hn', -⟩ := hf.node c' hc'
    have hbefore := hsorted n n' hn hn'
    have hnow := ho.le rfl ht
    have hmn : m ≤ n := by
      rcases hcontext c n hn with h | ⟨hjump, h⟩
      · rw [h] at hm
        cases hm
        exact le_refl _
      · rw [h] at hm
        cases hm
        exact hjump.le
    rcases hcontext c' n' hn' with h | ⟨hjump, h⟩
    · rw [h] at hm'
      cases hm'
      omega
    · rw [h] at hm'
      cases hm'
      omega

theorem step (hf : Follows slack idleSeconds h s) (ho : InOrder slack (a :: h))
    (hstep : SortedList.step a s = .ok s') : Follows slack idleSeconds (a :: h) s' := by
  cases a with
  | up conn now =>
      rw [SortedList.step] at hstep
      split at hstep
      · rename_i hconn
        cases hstep
        exact hf.up ho hconn
      · cases hstep
  | message conn msg time =>
      rw [SortedList.step] at hstep
      split at hstep
      · rename_i hconn
        obtain ⟨t, ht, hft⟩ := hf.message ho hconn
        rw [ht] at hstep
        cases hstep
        exact hft
      · cases hstep
  | down conn =>
      rw [SortedList.step] at hstep
      split at hstep
      · rename_i hconn
        obtain ⟨t, ht, hft⟩ := hf.down hconn
        rw [ht] at hstep
        cases hstep
        exact hft
      · cases hstep
  | destroy conn =>
      rw [SortedList.step] at hstep
      split at hstep
      · rename_i hconn
        cases hstep
        exact hf.destroy hconn
      · cases hstep
  | timer now =>
      obtain ⟨t, ht, hft⟩ := hf.timer ho
      rw [SortedList.step, ht] at hstep
      cases hstep
      exact hft

theorem run (hf : Follows slack idleSeconds h s) {acts : List Action}
    (hrun : Lib.run SortedList.step acts s = .ok s') (ho : InOrder slack (acts.reverse ++ h)) :
    Follows slack idleSeconds (acts.reverse ++ h) s' := by
  induction acts generalizing h s with
  | nil =>
      cases hrun
      exact hf
  | cons a acts ih =>
      obtain ⟨t, ht, hrest⟩ := run_cons_ok hrun
      rw [List.reverse_cons, List.append_assoc] at ho ⊢
      exact ih (hf.step ho.of_append ht) hrest ho

/-- Where the timer does not come by, it has stopped at one that is not idle. -/
theorem stops (hf : Follows slack idleSeconds h s) {now : Int} {conn : Conn}
    (hmem : conn ∈ s.connectionList) (hnot : conn ∉ s.connectionList.takeWhile (goesOn s now))
    {n : Int} (hn : (s.connections conn).context = some n) :
    ∃ n', ¬s.idleSeconds * kMicroSecondsPerSecond < now - n' ∧ n' ≤ n + slack := by
  have hsplit := List.takeWhile_append_dropWhile (p := goesOn s now) (l := s.connectionList)
  have hrest : conn ∈ s.connectionList.dropWhile (goesOn s now) := by
    rw [← hsplit, List.mem_append] at hmem
    exact hmem.resolve_left hnot
  have hsorted := hf.sorted.sublist (List.dropWhile_sublist (goesOn s now))
  have hsub := (List.dropWhile_sublist (goesOn s now) (l := s.connectionList)).subset
  cases hdrop : s.connectionList.dropWhile (goesOn s now) with
  | nil =>
      rw [hdrop] at hrest
      exact absurd hrest List.not_mem_nil
  | cons k rest =>
      have hk : goesOn s now k = false := by
        have hhead := List.head?_dropWhile_not (goesOn s now) s.connectionList
        rw [hdrop] at hhead
        simpa using hhead
      rw [hdrop] at hrest hsorted hsub
      obtain ⟨n', t, hn', -⟩ := hf.node k (hsub List.mem_cons_self)
      rw [goesOn, hn'] at hk
      simp only [Bool.or_eq_false_iff, decide_eq_false_iff_not] at hk
      refine ⟨n', hk.1, ?_⟩
      rcases List.mem_cons.mp hrest with rfl | hbehind
      · rw [hn] at hn'
        cases hn'
        omega
      · exact (List.pairwise_cons.mp hsorted).1 conn hbehind n' n hn' hn

end Follows

/-- **Idle connections.**  In every run in which no time is by more than `slack` behind an earlier
one, the timer comes to its end, and a connection that is up is shut down by it if it was heard
more than `idleSeconds` and the slack ago, and left as it is if it was heard at most `idleSeconds`
without the slack ago. -/
theorem idle_within {slack : Nat} {idleSeconds : Int} {acts : List Action} {s : EchoServer}
    {now : Int} (hrun : run step acts (init idleSeconds) = .ok s)
    (ho : InOrder slack (.timer now :: acts.reverse)) :
    ∃ s', step (.timer now) s = .ok s' ∧ ∀ conn, (s.connections conn).established →
      ∃ t, heard conn acts.reverse = some t ∧
        (idleSeconds * kMicroSecondsPerSecond + slack < now - t →
          (s'.connections conn).state = .kDisconnecting) ∧
        (now - t ≤ idleSeconds * kMicroSecondsPerSecond - slack →
          (s'.connections conn).state = (s.connections conn).state) := by
  have hbefore : InOrder slack (acts.reverse ++ []) := by
    rw [List.append_nil]
    exact (show InOrder slack ([.timer now] ++ acts.reverse) from ho).of_append
  have hf := (follows_init slack idleSeconds).run hrun hbefore
  rw [List.append_nil] at hf
  obtain ⟨s', htimer, -, -, hconnections⟩ := hf.onTimer_spec now
  refine ⟨s', htimer, fun conn hconn => ?_⟩
  have hmem := (hf.listed conn).mpr hconn
  obtain ⟨n, t, hn, ht, hle, hslack⟩ := hf.node conn hmem
  refine ⟨t, ht, fun hold => ?_, fun hyoung => ?_⟩
  · -- Whoever is not visited stands behind one that is not idle, and was heard hardly earlier.
    have hidle : s.idleSeconds * kMicroSecondsPerSecond < now - n := by
      rw [hf.idleSeconds]
      omega
    have hvisited : conn ∈ s.connectionList.takeWhile (goesOn s now) := by
      by_contra hnot
      obtain ⟨n', hstops, hbefore⟩ := hf.stops hmem hnot hn
      rw [hf.idleSeconds] at hstops
      omega
    rw [hconnections, if_pos hvisited, visit, hn]
    dsimp only
    rw [if_pos hidle, Connection.shutdown]
    rcases hconn with hstate | hstate
    · rw [if_pos hstate]
    · rw [if_neg (by simp [hstate])]
      exact hstate
  · rw [hconnections]
    split
    · rw [visit, hn]
      dsimp only
      rw [if_neg (by rw [hf.idleSeconds]; omega)]
      split <;> rfl
    · rfl

/-- The clock was set back between two connections, by a microsecond. -/
theorem idle_within_small : ∃ s s',
    run step [.up 0 10, .up 1 9, .message 0 [65] 500000] (init 1) = .ok s ∧
      step (.timer 1000011) s = .ok s' ∧ (s'.connections 1).state = .kDisconnecting ∧
        (s'.connections 0).state = .kConnected := by
  obtain ⟨s', htimer, hconns⟩ :=
    @idle_within 1 1 [.up 0 10, .up 1 9, .message 0 [65] 500000] _ 1000011 rfl (by decide)
  obtain ⟨t, ht, hold, -⟩ := hconns 1 (Or.inl rfl)
  obtain ⟨t', ht', -, hyoung⟩ := hconns 0 (Or.inl rfl)
  cases ht
  cases ht'
  exact ⟨_, s', rfl, htimer, hold (by decide), hyoung (by decide)⟩

end SortedList
