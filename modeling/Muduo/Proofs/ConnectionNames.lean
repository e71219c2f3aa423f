/-
Whether two connections of a server can have the same name.

The name ends in a colon, the address, and the connection's id behind a `#`, as far as that
fits into 31 characters.  Where it fits, the id can be read off the name, ids grow, and so the
map has each connection that is alive under its own name.  Where it does not fit, the last
digits of the id are missing: with an address of 21 characters the connection after
99999999 others has the name of the one with the number 10000000, takes its place in the map,
and the second of the two to be removed is no longer there.
-/
import Muduo.Lib.Runs
import Muduo.Net.ConnectionNames

namespace Net

open Lib

namespace NamingServer

/-- The name of the next connection has the whole of `nextConnId_`, which has not overflowed. -/
def Fits (s : NamingServer) : Prop := s.suffix.length ≤ 31 ∧ 0 < s.nextConnId

/-- Names are made under that condition only. -/
def FitsAt : NamingAction → NamingServer → Prop
  | .newConnection, s => s.Fits
  | .removeConnectionInLoop _, _ => True

/-- The entry of a connection in the map. -/
def entry (c : NamedConnection) : Bytes × NamedConnection := (c.name, c)

/-- No two connections that are alive have the same name, and the map has each of them, and
nothing else. -/
structure Unique (s : NamingServer) : Prop where
  names : (s.alive.map NamedConnection.name).Nodup
  entries : s.connections.Perm (s.alive.map entry)

/-- The text behind the name of the server, for an id. -/
def suffixOf (s : NamingServer) (id : Int) : Bytes := 58 :: s.hostport ++ 35 :: intText id

/-- The names in use are those of smaller ids. -/
structure Named (s : NamingServer) : Prop extends s.Unique where
  int : s.nextConnId < 2 ^ 31
  numbers : ∀ c ∈ s.alive, c.number < s.accepted
  ids : ∀ c ∈ s.alive, ∃ id : Int, 0 < id ∧ (0 < s.nextConnId → id < s.nextConnId) ∧
    c.name = s.name ++ s.suffixOf id

theorem intText_inj {x y : Int} (hx : 0 < x) (hy : 0 < y) (h : intText x = intText y) : x = y := by
  rw [intText, intText, if_neg (by omega), if_neg (by omega), List.nil_append,
    List.nil_append] at h
  have hnat : x.natAbs = y.natAbs := by
    rw [← digitsValue_natText x.natAbs, h, digitsValue_natText]
  omega

variable {s : NamingServer}

theorem connName_of_fits (h : s.Fits) : s.connName = s.name ++ s.suffixOf s.nextConnId := by
  rw [connName, InetAddress.snprintf, List.take_of_length_le h.1]
  rfl

/-- A name that fits is not in use. -/
theorem Named.fresh (h : s.Named) (hfits : s.Fits) {c : NamedConnection} (hc : c ∈ s.alive) :
    c.name ≠ s.connName := by
  obtain ⟨id, hpos, hlt, hname⟩ := h.ids c hc
  intro heq
  rw [hname, connName_of_fits hfits] at heq
  have hsuffix := List.append_cancel_left heq
  have htext := List.append_cancel_left hsuffix
  have hid := intText_inj hpos hfits.2 (List.cons.inj htext).2
  have := hlt hfits.2
  omega

/-- The next id is larger, or negative. -/
theorem bmod_succ {x : Int} (hx : 0 < x) (h : x < 2 ^ 31) :
    (x + 1).bmod (2 ^ 32) = x + 1 ∧ x + 1 < 2 ^ 31 ∨ (x + 1).bmod (2 ^ 32) = -2 ^ 31 := by
  rw [Int.bmod_def]
  omega

theorem not_mem_names (h : s.Named) (hfits : s.Fits) :
    s.connName ∉ s.alive.map NamedConnection.name := by
  intro hmem
  obtain ⟨c, hc, heq⟩ := List.mem_map.mp hmem
  exact h.fresh hfits hc heq

theorem map_fst_entry (cs : List NamedConnection) :
    (cs.map entry).map Prod.fst = cs.map NamedConnection.name := by
  rw [List.map_map]
  rfl

theorem Named.newConnection (h : s.Named) (hfits : s.Fits) : s.newConnection.Named := by
  have hfresh := not_mem_names h hfits
  have hkeys : s.connName ∉ s.connections.map Prod.fst := by
    rwa [(h.entries.map Prod.fst).mem_iff, map_fst_entry]
  have hnext := bmod_succ hfits.2 h.int
  constructor
  · refine ⟨?_, ?_⟩
    · show ((s.alive ++ [_]).map NamedConnection.name).Nodup
      rw [List.map_append, List.map_singleton]
      refine List.nodup_append.mpr ⟨h.names, List.nodup_singleton _, fun a ha b hb heq => ?_⟩
      rw [heq, List.mem_singleton.mp hb] at ha
      exact hfresh ha
    · show (assign s.connName _ s.connections).Perm ((s.alive ++ [_]).map entry)
      refine (assign_perm hkeys _).trans ?_
      rw [List.map_append, List.map_singleton]
      exact (h.entries.cons _).trans (List.perm_append_singleton _ _).symm
  · show (s.nextConnId + 1).bmod (2 ^ 32) < 2 ^ 31
    rcases hnext with hn | hn <;> omega
  · intro c hc
    rcases List.mem_append.mp hc with hc | hc
    · exact Nat.lt_succ_of_lt (h.numbers c hc)
    · rw [List.mem_singleton.mp hc]
      exact Nat.lt_succ_self _
  · intro c hc
    show ∃ id : Int, 0 < id ∧ (0 < (s.nextConnId + 1).bmod (2 ^ 32) →
      id < (s.nextConnId + 1).bmod (2 ^ 32)) ∧ c.name = s.name ++ s.suffixOf id
    rcases List.mem_append.mp hc with hc | hc
    · obtain ⟨id, hpos, hlt, hname⟩ := h.ids c hc
      have hid := hlt hfits.2
      refine ⟨id, hpos, fun hnew => ?_, hname⟩
      rcases hnext with hn | hn <;> omega
    · rw [List.mem_singleton.mp hc]
      refine ⟨s.nextConnId, hfits.2, fun hnew => ?_, connName_of_fits hfits⟩
      rcases hnext with hn | hn <;> omega

theorem Unique.eq_of_name (h : s.Unique) {c d : NamedConnection} (hc : c ∈ s.alive)
    (hd : d ∈ s.alive) : d.name = c.name ↔ d = c :=
  ⟨fun heq => List.inj_on_of_nodup_map h.names hd hc heq, fun heq => heq ▸ rfl⟩

/-- The entries that a test on names picks are those of the connections it holds of. -/
theorem Unique.filter_entries (h : s.Unique) {p : Bytes → Bool} {q : NamedConnection → Bool}
    (hpq : ∀ d ∈ s.alive, p d.name = q d) :
    (s.connections.filter fun e => p e.1).Perm ((s.alive.filter q).map entry) := by
  have hmap : (s.alive.map entry).filter (fun e => p e.1) = (s.alive.filter q).map entry := by
    rw [List.filter_map]
    exact congrArg (List.map entry) (List.filter_congr hpq)
  rw [← hmap]
  exact h.entries.filter _

/-- The entry of a connection that is alive is the only one under its name. -/
theorem Unique.length_filter (h : s.Unique) {c : NamedConnection} (hc : c ∈ s.alive) :
    (s.connections.filter (·.1 = c.name)).length = 1 := by
  have hperm := h.filter_entries (p := fun n => n = c.name) (q := fun d => d = c)
    fun d hd => decide_eq_decide.mpr (h.eq_of_name hc hd)
  have hone : (s.alive.filter fun d => d = c) = [c] := by
    rw [List.filter_eq, List.count_eq_one_of_mem h.names.of_map hc]
    rfl
  rw [hperm.length_eq, hone]
  rfl

theorem Unique.filter_other (h : s.Unique) {c : NamedConnection} (hc : c ∈ s.alive) :
    (s.connections.filter (·.1 ≠ c.name)).Perm ((s.alive.filter (· ≠ c)).map entry) :=
  h.filter_entries (p := fun n => n ≠ c.name) (q := fun d => d ≠ c)
    fun _ hd => decide_eq_decide.mpr (not_congr (h.eq_of_name hc hd))

theorem removeConnectionInLoop_ok (h : s.Unique) {c : NamedConnection} (hc : c ∈ s.alive) :
    s.removeConnectionInLoop c = .ok { s with
      connections := s.connections.filter (·.1 ≠ c.name)
      alive := s.alive.filter (· ≠ c) } := by
  rw [removeConnectionInLoop, assertThat_of (h.length_filter hc)]
  rfl

theorem step_ok (a : NamingAction) (s : NamingServer) (h : s.Named) (hfits : FitsAt a s) :
    ∃ s', step a s = .ok s' ∧ s'.Named := by
  cases a with
  | newConnection => exact ⟨_, rfl, h.newConnection hfits⟩
  | removeConnectionInLoop number =>
      rw [step]
      cases hfind : s.alive.find? (·.number = number) with
      | none => exact ⟨s, rfl, h⟩
      | some c =>
          have hc := List.mem_of_find?_eq_some hfind
          refine ⟨_, removeConnectionInLoop_ok h.toUnique hc, ⟨⟨?_, h.filter_other hc⟩, h.int, ?_, ?_⟩⟩
          · exact h.names.sublist ((List.filter_sublist).map _)
          · exact fun d hd => h.numbers d (List.mem_of_mem_filter hd)
          · exact fun d hd => h.ids d (List.mem_of_mem_filter hd)

theorem named_init (listenAddr : InetAddress) (nameArg : Bytes) : (init listenAddr nameArg).Named :=
  ⟨⟨List.nodup_nil, List.Perm.refl _⟩, by show (1 : Int) < 2 ^ 31; decide, nofun, nofun⟩

/-- **Main result.** In every run in which no id is cut or has overflowed where a connection is
accepted, connections that are alive have different names, the map has each of them under its
own, and each removal erases one entry. -/
theorem names_unique (listenAddr : InetAddress) (nameArg : Bytes) (as : List NamingAction)
    (hfits : Along step FitsAt as (init listenAddr nameArg)) :
    ∃ s, run step as (init listenAddr nameArg) = .ok s ∧ s.Unique := by
  obtain ⟨s, hrun, hs⟩ := run_ok step_ok (named_init listenAddr nameArg) hfits
  exact ⟨s, hrun, hs.toUnique⟩

/-- With an address of up to nineteen characters nothing is ever cut. -/
theorem fits_of_short (h : s.hostport.length ≤ 19) (hpos : 0 < s.nextConnId)
    (hint : s.nextConnId < 2 ^ 31) : s.Fits := by
  have hid : (intText s.nextConnId).length ≤ 10 := by
    rw [intText, if_neg (by omega)]
    exact length_natText_le (by omega) (by omega)
  refine ⟨?_, hpos⟩
  rw [suffix, List.length_append, List.length_cons, List.length_cons]
  omega

instance (s : NamingServer) : Decidable s.Fits :=
  inferInstanceAs (Decidable (s.suffix.length ≤ 31 ∧ 0 < s.nextConnId))

instance (a : NamingAction) (s : NamingServer) : Decidable (FitsAt a s) :=
  match a with
  | .newConnection => inferInstanceAs (Decidable s.Fits)
  | .removeConnectionInLoop _ => isTrue trivial

/-- 127.0.0.1:80 -/
def localAddr : InetAddress := ⟨(127, 0, 0, 1), 80⟩

theorem names_unique_local : ∃ s, run step
    [.newConnection, .newConnection, .removeConnectionInLoop 0] (init localAddr []) = .ok s ∧
      s.Unique :=
  names_unique localAddr [] _ (by decide)

/-- 192.168.100.100:12345 -/
def wideAddr : InetAddress := ⟨(192, 168, 100, 100), 12345⟩

/-- Connections that come and go, one after the other; the first has the number `start`. -/
def churn (start n : Nat) : List NamingAction :=
  (List.range n).flatMap fun i => [.newConnection, .removeConnectionInLoop (start + i)]

/-- What a connection that has come and gone leaves behind. -/
structure After (n : Nat) (s s' : NamingServer) : Prop where
  named : s'.Named
  hostport : s'.hostport = s.hostport
  name : s'.name = s.name
  nextConnId : s'.nextConnId = s.nextConnId + n
  accepted : s'.accepted = s.accepted + n
  alive : s'.alive = s.alive

theorem fits_of_small (hport : s.hostport.length ≤ 21) (hpos : 0 < s.nextConnId)
    (hid : s.nextConnId < 10 ^ 8) : s.Fits := by
  have htext : (intText s.nextConnId).length ≤ 8 := by
    rw [intText, if_neg (by omega)]
    exact length_natText_le (by omega) (by omega)
  refine ⟨?_, hpos⟩
  rw [suffix, List.length_append, List.length_cons, List.length_cons]
  omega

theorem run_newConnection {as : List NamingAction} {t : NamingServer}
    (h : run step as s = .ok t) : run step (as ++ [.newConnection]) s = .ok t.newConnection := by
  rw [run_append_of_ok h, run_singleton]
  rfl

theorem find_new (h : s.Named) (c : NamedConnection) (hc : c.number = s.accepted) :
    (s.alive ++ [c]).find? (·.number = s.accepted) = some c := by
  have hnone : s.alive.find? (·.number = s.accepted) = none := by
    rw [List.find?_eq_none]
    intro d hd heq
    have := h.numbers d hd
    simp only [decide_eq_true_eq] at heq
    omega
  rw [List.find?_append, hnone, Option.none_or]
  exact List.find?_cons_of_pos (by simpa using hc)

theorem run_once (h : s.Named) (hfits : s.Fits) (hid : s.nextConnId < 10 ^ 8) :
    ∃ s', run step [.newConnection, .removeConnectionInLoop s.accepted] s = .ok s' ∧
      After 1 s s' := by
  let c : NamedConnection := ⟨s.accepted, s.connName⟩
  have hc : c ∈ s.newConnection.alive := by simp [newConnection, c]
  have hnew := h.newConnection hfits
  have hfind : s.newConnection.alive.find? (·.number = s.accepted) = some c := find_new h c rfl
  have hstep : step (.removeConnectionInLoop s.accepted) s.newConnection
      = s.newConnection.removeConnectionInLoop c := by
    rw [step, hfind]
  obtain ⟨s', hs', hnamed⟩ := step_ok (.removeConnectionInLoop s.accepted) _ hnew trivial
  have heq := hs'
  rw [hstep, removeConnectionInLoop_ok hnew.toUnique hc] at heq
  have hval := Except.ok.inj heq
  refine ⟨s', ?_, hnamed, ?_, ?_, ?_, ?_, ?_⟩
  · show (Except.ok s.newConnection).bind (run step [.removeConnectionInLoop s.accepted]) = _
    exact (run_singleton ..).trans hs'
  · rw [← hval]
    rfl
  · rw [← hval]
    rfl
  · rw [← hval]
    show (s.nextConnId + 1).bmod (2 ^ 32) = s.nextConnId + 1
    have hpos := hfits.2
    rcases bmod_succ hpos h.int with hn | hn
    · exact hn.1
    · rw [Int.bmod_def] at hn
      omega
  · rw [← hval]
    rfl
  · rw [← hval]
    show (s.alive ++ [c]).filter (· ≠ c) = s.alive
    have hout : ∀ d ∈ s.alive, decide (d ≠ c) = true := by
      intro d hd
      have hnum := h.numbers d hd
      refine decide_eq_true fun hdc => ?_
      rw [hdc] at hnum
      exact Nat.lt_irrefl _ hnum
    rw [List.filter_append, List.filter_eq_self.mpr hout]
    simp

theorem run_churn (h : s.Named) (hport : s.hostport.length ≤ 21) (hpos : 0 < s.nextConnId) :
    ∀ n : Nat, s.nextConnId + n ≤ 10 ^ 8 →
      ∃ s', run step (churn s.accepted n) s = .ok s' ∧ After n s s' := by
  intro n
  induction n with
  | zero =>
      intro _
      exact ⟨s, rfl, h, rfl, rfl, (add_zero _).symm, rfl, rfl⟩
  | succ n ih =>
      intro hroom
      obtain ⟨t, ht, hafter⟩ := ih (by omega)
      have hnext := hafter.nextConnId
      have hfits : t.Fits := fits_of_small (by rw [hafter.hostport]; exact hport) (by omega)
        (by omega)
      obtain ⟨s', hs', hone⟩ := run_once hafter.named hfits (by omega)
      refine ⟨s', ?_, hone.named, hone.hostport.trans hafter.hostport,
        hone.name.trans hafter.name, ?_, ?_, hone.alive.trans hafter.alive⟩
      · have hchurn : churn s.accepted (n + 1) = churn s.accepted n
            ++ [.newConnection, .removeConnectionInLoop (s.accepted + n)] := by
          rw [churn, List.range_succ, List.flatMap_append, List.flatMap_singleton, churn]
        rw [hchurn, run_append_of_ok ht, ← hafter.accepted]
        exact hs'
      · rw [hone.nextConnId, hnext]
        omega
      · rw [hone.accepted, hafter.accepted]
        omega

/-- The connection with the id 10000000 stays; the others come and go up to the one with the id
100000000, which stays as well. -/
def collidingRun : List NamingAction :=
  churn 0 9999999 ++ [.newConnection] ++ (churn 10000000 89999999 ++ [.newConnection])

/-- The last digit is cut. -/
theorem connName_cut (hport : s.hostport.length = 21) (hid : s.nextConnId = 100000000) :
    s.connName = s.name ++ s.suffixOf 10000000 := by
  have hlen : (58 :: s.hostport ++ 35 :: intText 10000000).length = 31 := by
    have htext : (intText 10000000).length = 8 := by decide
    rw [List.length_append, List.length_cons, List.length_cons, hport, htext]
  have htext : s.suffix = (58 :: s.hostport ++ 35 :: intText 10000000) ++ [48] := by
    have hid8 : intText 100000000 = intText 10000000 ++ [48] := by decide
    rw [suffix, hid, hid8]
    simp
  rw [connName, InetAddress.snprintf, htext, List.take_left' hlen]
  rfl

theorem run_colliding : ∃ s c d, run step collidingRun (init wideAddr []) = .ok s ∧
    s.alive = [c, d] ∧ c.number = 9999999 ∧ d.number = 99999999 ∧ c.name = d.name ∧
    s.connections = [(d.name, d)] := by
  have hport : (init wideAddr []).hostport.length = 21 := by decide
  -- Up to the connection that stays.
  obtain ⟨s1, hrun1, h1⟩ := run_churn (named_init wideAddr []) hport.le (by decide) 9999999
    (by decide)
  have hid1 : s1.nextConnId = 10000000 := h1.nextConnId
  have hnum1 : s1.accepted = 9999999 := h1.accepted
  have hport1 : s1.hostport.length = 21 := by rw [h1.hostport, hport]
  have hfits1 : s1.Fits := fits_of_small hport1.le (by omega) (by omega)
  let c : NamedConnection := ⟨s1.accepted, s1.connName⟩
  have hnew := h1.named.newConnection hfits1
  have hid2 : s1.newConnection.nextConnId = 10000001 := by
    show (s1.nextConnId + 1).bmod (2 ^ 32) = _
    rw [hid1]
    decide
  have hnum2 : s1.newConnection.accepted = 10000000 := by
    show s1.accepted + 1 = _
    rw [hnum1]
  have halive2 : s1.newConnection.alive = [c] := by
    show s1.alive ++ [c] = [c]
    rw [h1.alive]
    rfl
  -- Up to the one that takes its name.
  obtain ⟨s3, hrun3, h3⟩ := run_churn hnew hport1.le (by omega) 89999999 (by omega)
  have hid3 : s3.nextConnId = 100000000 := by
    rw [h3.nextConnId, hid2]
    rfl
  have hport3 : s3.hostport.length = 21 := by
    rw [h3.hostport]
    exact hport1
  have hname : s3.connName = c.name := by
    have hfull := connName_of_fits hfits1
    rw [hid1] at hfull
    show s3.connName = s1.connName
    rw [connName_cut hport3 hid3, hfull, suffixOf, suffixOf, h3.name, h3.hostport]
    rfl
  let d : NamedConnection := ⟨s3.accepted, s3.connName⟩
  have hconns : s3.connections = [entry c] := by
    refine List.perm_singleton.mp ?_
    have hentries := h3.named.entries
    rwa [h3.alive, halive2] at hentries
  refine ⟨s3.newConnection, c, d, ?_, ?_, hnum1, ?_, hname.symm, ?_⟩
  · have hfirst : run step (churn 0 9999999) (init wideAddr []) = .ok s1 := hrun1
    rw [hnum2] at hrun3
    rw [collidingRun, run_append_of_ok (run_newConnection hfirst)]
    exact run_newConnection hrun3
  · show s3.alive ++ [d] = [c, d]
    rw [h3.alive, halive2]
    rfl
  · show s3.accepted = _
    rw [h3.accepted, hnum2]
  · show assign s3.connName d s3.connections = _
    rw [hconns, entry, assign, if_pos hname]

/-- Two connections have the same name, and the second that is removed is not found. -/
theorem names_collide : (∃ s, run step collidingRun (init wideAddr []) = .ok s ∧ ¬s.Unique) ∧
    run step (collidingRun ++ [.removeConnectionInLoop 9999999, .removeConnectionInLoop 99999999])
      (init wideAddr []) = .error .assertion := by
  obtain ⟨s, c, d, hrun, halive, hc, hd, hname, hconns⟩ := run_colliding
  refine ⟨⟨s, hrun, fun h => ?_⟩, ?_⟩
  · have hnames := h.names
    rw [halive, List.map_cons, List.map_singleton, hname] at hnames
    simp at hnames
  · have hcd : d ≠ c := fun heq => by rw [heq, hc] at hd; omega
    have hfirst : step (.removeConnectionInLoop 9999999) s
        = .ok { s with connections := [], alive := [d] } := by
      have hfind : s.alive.find? (·.number = 9999999) = some c := by
        rw [halive]
        exact List.find?_cons_of_pos (by simpa using hc)
      rw [step, hfind]
      show s.removeConnectionInLoop c = _
      have hone : ([(d.name, d)].filter (·.1 = c.name)).length = 1 := by simp [hname]
      rw [removeConnectionInLoop, hconns, assertThat_of hone, halive]
      simp [hname, hcd, bind, Except.bind, pure, Except.pure]
    rw [run_append_of_ok hrun, run, hfirst]
    show (step (.removeConnectionInLoop 99999999) { s with connections := [], alive := [d] }).bind _
      = _
    rw [step, List.find?_cons_of_pos (by simpa using hd)]
    rfl

end NamingServer

end Net
