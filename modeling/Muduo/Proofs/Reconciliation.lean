/-
Every balance is the sum of what was booked.

A transaction changes balances and writes rows about them, and it does both or neither.  What
waits to be committed is known to its thread; the other threads can do nothing to it, since rows
get numbers that nobody else has and no account is ever taken away.  So whoever commits leaves
the difference between the balances and the rows as it was.
-/
import Muduo.Proofs.Closing
import Muduo.Proofs.LedgerContract

namespace Windows

open Lib Bank

/-! ### What a thread knows is so -/

/-- The changes that wait for the commit. -/
def waiting (link : Link) : List Write := link.tx.getD []

structure Keeps (s : Server) (link : Link) (g : Entry) : Prop where
  inTx : link.tx.isSome = g.inTx
  insertId : link.insertId = g.insertId
  opened : g.opened = false → accountIds (waiting link) = []
  found : ∀ a ∈ g.found, a ∈ s.db.bankAccount.keys
  due : effectOf (waiting link) = g.due
  awaits : s.db.Awaits (waiting link)
  below : ∀ w ∈ waiting link, w.Below s.nextAccountId s.nextTransId

/-- What a call of a thread comes to for the other threads, and for its own knowledge. -/
structure Served (s s' : Server) (link link' : Link) (g' : Entry) : Prop where
  keeps : Keeps s' link' g'
  gap : s'.db.gap = s.db.gap
  fresh : s'.Fresh
  counters : s.nextAccountId ≤ s'.nextAccountId ∧ s.nextTransId ≤ s'.nextTransId
  /-- What is committed: changes of this thread. -/
  commits : ∃ ws, s'.db = s.db.replay ws ∧
    (∀ i ∈ accountIds ws, i ∈ accountIds (waiting link)) ∧
    (∀ i ∈ transIds ws, i ∈ transIds (waiting link))
  /-- The numbers of its rows are its own. -/
  accounts : ∀ i ∈ accountIds (waiting link'), i ∈ accountIds (waiting link) ∨ s.nextAccountId ≤ i
  trans : ∀ i ∈ transIds (waiting link'), i ∈ transIds (waiting link) ∨ s.nextTransId ≤ i

namespace Keeps

variable {d : Dialect} {s : Server} {link : Link} {g : Entry}

/-- Without a transaction. -/
theorem none (s : Server) {link : Link} {g : Entry} (htx : link.tx = .none)
    (hid : link.insertId = g.insertId) (hin : g.inTx = false)
    (hfound : ∀ a ∈ g.found, a ∈ s.db.bankAccount.keys) (hdue : g.due = 0) : Keeps s link g where
  inTx := by rw [htx, hin]; rfl
  insertId := hid
  opened := fun _ => by rw [waiting, htx]; rfl
  found := hfound
  due := by rw [waiting, htx, hdue]; rfl
  awaits := by
    rw [waiting, htx]
    exact ⟨⟨List.nodup_nil, List.nodup_nil⟩, by simp, by simp, by simp⟩
  below := by rw [waiting, htx]; simp

theorem waiting_nil (h : Keeps s link g) (hin : g.inTx = false) : link.tx = .none := by
  have htx := h.inTx
  rw [hin] at htx
  exact Option.isSome_eq_false_iff.mp htx |> Option.isNone_iff_eq_none.mp

/-- A call that does nothing to the transaction, and after which the thread may have found
an account. -/
theorem served_same (h : Keeps s link g) (hs : s.Fresh) {s' : Server} (hdb : s'.db = s.db)
    (hcount : s'.nextAccountId = s.nextAccountId ∧ s'.nextTransId = s.nextTransId) {link' : Link}
    (htx : link'.tx = link.tx) (hid : link'.insertId = link.insertId) {g' : Entry}
    (hg : g' = { g with found := g'.found })
    (hfound : ∀ a ∈ g'.found, a ∈ s.db.bankAccount.keys) : Served s s' link link' g' := by
  have hw : waiting link' = waiting link := by rw [waiting, htx, waiting]
  rw [hg]
  refine ⟨⟨?_, ?_, ?_, ?_, ?_, ?_, ?_⟩, by rw [hdb], ?_, ⟨by omega, by omega⟩, ⟨[], hdb, ?_, ?_⟩,
    ?_, ?_⟩
  · rw [htx]
    exact h.inTx
  · rw [hid]
    exact h.insertId
  · rw [hw]
    exact h.opened
  · rw [hdb]
    exact hfound
  · rw [hw]
    exact h.due
  · rw [hw, hdb]
    exact h.awaits
  · rw [hw, hcount.1, hcount.2]
    exact h.below
  · rw [Server.Fresh, hdb, hcount.1, hcount.2]
    exact hs
  · simp
  · simp
  · rw [hw]
    exact fun i hi => Or.inl hi
  · rw [hw]
    exact fun i hi => Or.inl hi

/-- The end of a transaction, of which something or nothing is committed. -/
theorem served_ended (h : Keeps s link g) (hs : s.Fresh) {s' : Server} {ws : List Write}
    (hws : ws = waiting link ∧ g.due = 0 ∨ ws = []) (hdb : s'.db = s.db.replay ws)
    (hcount : s'.nextAccountId = s.nextAccountId ∧ s'.nextTransId = s.nextTransId) {link' : Link}
    (htx : waiting link' = []) {g' : Entry} (hin : link'.tx.isSome = g'.inTx)
    (hid : link'.insertId = g'.insertId) (hfound : g'.found = []) (hdue : g'.due = 0) :
    Served s s' link link' g' := by
  have hgap : s'.db.gap = s.db.gap := by
    rcases hws with ⟨rfl, hzero⟩ | rfl
    · rw [hdb, h.awaits.gap_replay, h.due, hzero, add_zero]
    · rw [hdb, Database.replay_nil]
  have hsub : ∀ w ∈ ws, w ∈ waiting link := by
    rcases hws with ⟨rfl, -⟩ | rfl
    · exact fun w hw => hw
    · simp
  refine ⟨⟨hin, hid, ?_, ?_, ?_, ?_, ?_⟩, hgap, ?_, ⟨by omega, by omega⟩, ⟨ws, hdb, ?_, ?_⟩, ?_, ?_⟩
  · rw [htx]
    exact fun _ => rfl
  · rw [hfound]
    simp
  · rw [htx, hdue]
    rfl
  · rw [htx]
    exact ⟨⟨List.nodup_nil, List.nodup_nil⟩, by simp, by simp, by simp⟩
  · rw [htx]
    simp
  · rw [Server.Fresh, hdb, hcount.1, hcount.2]
    exact Database.Below.replay (fun w hw => h.below w (hsub w hw)) hs
  · rcases hws with ⟨rfl, -⟩ | rfl
    · exact fun i hi => hi
    · simp
  · rcases hws with ⟨rfl, -⟩ | rfl
    · exact fun i hi => hi
    · simp
  · rw [htx]
    simp
  · rw [htx]
    simp

theorem lt_of_accountIds {ws : List Write} {a t i : Int} (h : ∀ w ∈ ws, w.Below a t)
    (hi : i ∈ accountIds ws) : i < a := by
  obtain ⟨w, hw, hwi⟩ := List.mem_filterMap.mp hi
  cases w with
  | insertAccount r =>
      obtain rfl : r.accountId = i := Option.some.inj hwi
      exact h _ hw
  | insertTrans | addBalance | setPass | setFlag => cases hwi

theorem lt_of_transIds {ws : List Write} {a t i : Int} (h : ∀ w ∈ ws, w.Below a t)
    (hi : i ∈ transIds ws) : i < t := by
  obtain ⟨w, hw, hwi⟩ := List.mem_filterMap.mp hi
  cases w with
  | insertTrans r =>
      obtain rfl : r.transId = i := Option.some.inj hwi
      exact h _ hw
  | insertAccount | addBalance | setPass | setFlag => cases hwi

theorem below_mono {w : Write} {a t a' t' : Int} (h : w.Below a t) (ha : a ≤ a') (ht : t ≤ t') :
    w.Below a' t' := by
  cases w with
  | insertAccount r => exact lt_of_lt_of_le h ha
  | insertTrans r => exact lt_of_lt_of_le h ht
  | addBalance | setPass | setFlag => exact trivial

/-- One more change, with a number of its own if it adds a row. -/
theorem served_append (h : Keeps s link g) (hs : s.Fresh) {ws : List Write}
    (htx : link.tx = some ws) {w : Write} {s' : Server} (hdb : s'.db = s.db)
    (hcounters : s.nextAccountId ≤ s'.nextAccountId ∧ s.nextTransId ≤ s'.nextTransId)
    (hbelow : w.Below s'.nextAccountId s'.nextTransId)
    (haccount : ∀ i, w.accountId? = some i → i = s.nextAccountId)
    (htrans : ∀ i, w.transId? = some i → i = s.nextTransId)
    (hfound : ∀ i cents, w = .addBalance i cents → i ∈ s.db.bankAccount.keys) {link' : Link}
    (htx' : link'.tx = some (ws ++ [w])) {g' : Entry} (hin : g'.inTx = g.inTx)
    (hid : link'.insertId = g'.insertId)
    (hopened : g'.opened = false → g.opened = false ∧ w.accountId? = .none)
    (hsame : g'.found = g.found) (hdue : g'.due = g.due + w.effect) :
    Served s s' link link' g' := by
  have hw : waiting link = ws := by rw [waiting, htx]; rfl
  have hw' : waiting link' = ws ++ [w] := by rw [waiting, htx']; rfl
  have hA : accountIds (ws ++ [w]) = accountIds ws ++ w.accountId?.toList := by
    cases hwi : w.accountId? <;> simp [accountIds, hwi]
  have hT : transIds (ws ++ [w]) = transIds ws ++ w.transId?.toList := by
    cases hwi : w.transId? <;> simp [transIds, hwi]
  have hold := h.below
  rw [hw] at hold
  have hawaits := h.awaits
  rw [hw] at hawaits
  refine ⟨⟨?_, hid, ?_, ?_, ?_, ?_, ?_⟩, by rw [hdb], ?_, hcounters, ⟨[], hdb, by simp, by simp⟩,
    ?_, ?_⟩
  · rw [htx', hin, ← h.inTx, htx]
    rfl
  · intro hg'
    obtain ⟨hg, hnone⟩ := hopened hg'
    have hempty := h.opened hg
    rw [hw] at hempty
    rw [hw', hA, hempty, hnone]
    rfl
  · rw [hsame, hdb]
    exact h.found
  · have hlast := h.due
    rw [hw] at hlast
    rw [hw', effectOf, List.map_append, List.sum_append, hdue, ← hlast]
    simp [effectOf]
  · rw [hw', hdb]
    refine ⟨⟨?_, ?_⟩, ?_, ?_, ?_⟩
    · rw [hA, List.nodup_append]
      refine ⟨hawaits.nodup.1, ?_, fun i hi j hj hij => ?_⟩
      · cases w.accountId? <;> simp
      · have hlt := lt_of_accountIds hold hi
        have := haccount j (by simpa using hj)
        omega
    · rw [hT, List.nodup_append]
      refine ⟨hawaits.nodup.2, ?_, fun i hi j hj hij => ?_⟩
      · cases w.transId? <;> simp
      · have hlt := lt_of_transIds hold hi
        have := htrans j (by simpa using hj)
        omega
    · intro i hi hmem
      rw [hA, List.mem_append] at hi
      rcases hi with hi | hi
      · exact hawaits.accounts i hi hmem
      · have := haccount i (by simpa using hi)
        have := hs.account i hmem
        omega
    · intro i hi hmem
      rw [hT, List.mem_append] at hi
      rcases hi with hi | hi
      · exact hawaits.trans i hi hmem
      · have := htrans i (by simpa using hi)
        have := hs.trans i hmem
        omega
    · intro i cents hi
      rcases List.mem_append.mp hi with hi | hi
      · exact hawaits.found i cents hi
      · exact hfound i cents (List.mem_singleton.mp hi).symm
  · rw [hw']
    intro v hv
    rcases List.mem_append.mp hv with hv | hv
    · exact below_mono (hold v hv) hcounters.1 hcounters.2
    · rw [List.mem_singleton.mp hv]
      exact hbelow
  · rw [Server.Fresh, hdb]
    exact hs.mono hcounters.1 hcounters.2
  · rw [hw, hw', hA]
    intro i hi
    rcases List.mem_append.mp hi with hi | hi
    · exact Or.inl hi
    · exact Or.inr (haccount i (by simpa using hi)).ge
  · rw [hw, hw', hT]
    intro i hi
    rcases List.mem_append.mp hi with hi | hi
    · exact Or.inl hi
    · exact Or.inr (htrans i (by simpa using hi)).ge

/-- A change outside of a transaction, which is not about money. -/
theorem served_alone (h : Keeps s link g) (hs : s.Fresh) (htx : link.tx = .none) {w : Write}
    (heffect : w.effect = 0) (haccount : w.accountId? = .none) (htrans : w.transId? = .none)
    (hmoney : ∀ i cents, w ≠ .addBalance i cents) {s' : Server} (hdb : s'.db = s.db.replay [w])
    (hcount : s'.nextAccountId = s.nextAccountId ∧ s'.nextTransId = s.nextTransId) :
    Served s s' link link g := by
  have hnoA : accountIds [w] = [] := by simp [accountIds, haccount]
  have hnoT : transIds [w] = [] := by simp [transIds, htrans]
  have hw : waiting link = [] := by rw [waiting, htx]; rfl
  have hawaits : s.db.Awaits [w] := by
    refine ⟨⟨?_, ?_⟩, ?_, ?_, fun i cents hi =>
      absurd (List.mem_singleton.mp hi).symm (hmoney i cents)⟩
    · rw [hnoA]
      exact List.nodup_nil
    · rw [hnoT]
      exact List.nodup_nil
    · simp [hnoA]
    · simp [hnoT]
  have hbelow : ∀ v ∈ [w], v.Below s.nextAccountId s.nextTransId := by
    intro v hv
    rw [List.mem_singleton.mp hv]
    cases w with
    | insertAccount r => cases haccount
    | insertTrans r => cases htrans
    | addBalance | setPass | setFlag => exact trivial
  refine ⟨⟨h.inTx, h.insertId, h.opened, ?_, h.due, ?_, ?_⟩, ?_, ?_, ⟨by omega, by omega⟩,
    ⟨[w], hdb, ?_, ?_⟩, fun i hi => Or.inl hi, fun i hi => Or.inl hi⟩
  · rw [hdb]
    exact fun a ha => Database.mem_keys_replay.1.mpr (Or.inl (h.found a ha))
  · rw [hw]
    exact ⟨⟨List.nodup_nil, List.nodup_nil⟩, by simp, by simp, by simp⟩
  · rw [hw]
    simp
  · rw [hdb, hawaits.gap_replay, effectOf, List.map_singleton, List.sum_singleton, heffect, add_zero]
  · rw [Server.Fresh, hdb, hcount.1, hcount.2]
    exact Database.Below.replay hbelow hs
  · simp [hnoA]
  · simp [hnoT]

theorem mem_keys_of_select {account : AccountRef} {cond : AccountCond} {forUpdate : Bool}
    {db : Database} {clock : Nat}
    (h : Server.select d db clock (.selectBalance account cond forUpdate) ≠ []) :
    Server.refersTo d account ∈ db.bankAccount.keys := by
  cases hr : db.account? (Server.refersTo d account) with
  | none =>
      refine absurd ?_ h
      simp [Server.select, hr]
  | some r => exact Table.mem_keys_of_find? hr

/-- What a thread finds before it has inserted an account is committed. -/
theorem mem_keys_of_view (h : Keeps s link g) (hopened : g.opened = false) {a : Int}
    (ha : a ∈ (s.view link).bankAccount.keys) : a ∈ s.db.bankAccount.keys := by
  have hnone := h.opened hopened
  unfold Server.view at ha
  cases htx : link.tx with
  | none => rwa [htx] at ha
  | some ws =>
      rw [waiting, htx, Option.getD_some] at hnone
      rw [htx] at ha
      rcases Database.mem_keys_replay.1.mp ha with ha | ha
      · exact ha
      · rw [hnone] at ha
        cases ha

theorem served_of_reads (h : Keeps s link g) (hs : s.Fresh) {sql : Sql} (hreads : reads sql = true)
    {g' : Entry} (hg : g' = { g with found := g'.found })
    (hfound : ∀ a ∈ g'.found, a ∈ s.db.bankAccount.keys) :
    Served s (s.query d link sql).2.1 link (s.query d link sql).2.2 g' := by
  rw [query_of_reads d s link hreads]
  exact h.served_same hs (by rfl) (by exact ⟨rfl, rfl⟩) (by rfl) (by rfl) hg hfound

theorem query_served (h : Keeps s link g) (hs : s.Fresh) {sql : Sql} (hallow : g.Allows d sql) :
    ∃ n, Served s (s.query d link sql).2.1 link (s.query d link sql).2.2
      (g.served d sql (s.query d link sql).1 n) := by
  refine ⟨s.lastInsert link sql, ?_⟩
  have hcount := s.count_le sql
  cases sql with
  | startTransaction =>
      have htx := h.waiting_nil hallow
      refine h.served_ended hs (.inr rfl) ?_ (by exact ⟨rfl, rfl⟩) (by rfl) (by rfl)
        (by exact h.insertId) (by rfl) (by rfl)
      show s.view link = _
      rw [Server.view, htx]
      rfl
  | commit =>
      refine h.served_ended hs (.inl ⟨rfl, hallow⟩) ?_ (by exact ⟨rfl, rfl⟩) (by rfl) (by rfl)
        (by exact h.insertId) (by rfl) (by rfl)
      show s.view link = _
      unfold Server.view waiting
      cases link.tx <;> rfl
  | rollback =>
      exact h.served_ended hs (.inr rfl) (by rfl) (by exact ⟨rfl, rfl⟩) (by rfl) (by rfl)
        (by exact h.insertId) (by rfl) (by rfl)
  | selectTeller | selectOpenDate | selectTransName | selectNameNow | selectInterest | countTrans
  | selectTrans => exact h.served_of_reads hs (by rfl) (by rfl) h.found
  | selectBalance account cond forUpdate =>
      unfold Entry.served
      dsimp only
      split
      · rename_i hfinds
        refine h.served_of_reads hs (by rfl) (by rfl) fun a ha => ?_
        rcases List.mem_cons.mp ha with rfl | ha
        · have hrs := hfinds.2
          rw [query_fst] at hrs
          exact h.mem_keys_of_view hfinds.1 (mem_keys_of_select hrs)
        · exact h.found a ha
      · exact h.served_of_reads hs (by rfl) (by rfl) h.found
  | insertAccount name pass id balance =>
      have htx := h.inTx
      rw [show g.inTx = true from hallow] at htx
      obtain ⟨ws, hws⟩ := Option.isSome_iff_exists.mp htx
      rw [query_of_write d s hws rfl]
      refine h.served_append hs hws
        (w := .insertAccount ⟨s.nextAccountId, d.quoted 16 name, d.quoted 16 pass, d.quoted 18 id,
          balance, d.time s.clock, 0⟩) (by rfl) hcount ?_ ?_ ?_ ?_ (by rfl) (by rfl) (by rfl) ?_
        (by rfl) (by rfl)
      · exact Int.lt_succ _
      · exact fun i hi => (Option.some.inj hi).symm
      · exact fun i hi => by cases hi
      · exact fun i cents hi => by cases hi
      · exact fun hi => by cases hi
  | insertTrans accountId other abstractId money balance =>
      have htx := h.inTx
      rw [show g.inTx = true from hallow] at htx
      obtain ⟨ws, hws⟩ := Option.isSome_iff_exists.mp htx
      rw [query_of_write d s hws rfl]
      refine h.served_append hs hws
        (w := .insertTrans ⟨s.nextTransId, accountId, other, abstractId, money, balance,
          d.time s.clock⟩) (by rfl) hcount ?_ ?_ ?_ ?_ (by rfl) (by rfl) (by rfl)
        (fun hg => ⟨hg, rfl⟩) (by rfl) (by rfl)
      · exact Int.lt_succ _
      · exact fun i hi => by cases hi
      · exact fun i hi => (Option.some.inj hi).symm
      · exact fun i cents hi => by cases hi
  | updateBalance account cents =>
      obtain ⟨hin, hmem⟩ : g.inTx = true ∧ Server.refersTo d account ∈ g.found := hallow
      have htx := h.inTx
      rw [hin] at htx
      obtain ⟨ws, hws⟩ := Option.isSome_iff_exists.mp htx
      rw [query_of_write d s hws rfl]
      refine h.served_append hs hws (w := .addBalance (Server.refersTo d account) cents) (by rfl)
        hcount trivial (fun i hi => by cases hi) (fun i hi => by cases hi) ?_ (by rfl) (by rfl)
        (by exact h.insertId) (fun hg => ⟨hg, rfl⟩) (by rfl) (by rfl)
      intro i x hi
      obtain ⟨rfl, -⟩ := Write.addBalance.inj hi
      exact h.found _ hmem
  | updatePass accountId pass =>
      cases htx : link.tx with
      | none =>
          have hquery : (s.query d link (.updatePass accountId pass)).2 =
              ({ s.count (.updatePass accountId pass) with
                  db := s.db.replay [.setPass accountId (d.quoted 16 pass)] }, link) := by
            obtain ⟨connected, reconnect, tx, insertId⟩ := link
            obtain rfl : tx = .none := htx
            rfl
          rw [hquery]
          exact h.served_alone hs htx (w := .setPass accountId (d.quoted 16 pass)) rfl rfl rfl
            (fun _ _ hw => by cases hw) (by rfl) (by exact ⟨rfl, rfl⟩)
      | some ws =>
          rw [query_of_write d s htx rfl]
          exact h.served_append hs htx (w := .setPass accountId (d.quoted 16 pass)) (by rfl) hcount
            trivial (fun i hi => by cases hi) (fun i hi => by cases hi)
            (fun i cents hi => by cases hi) (by rfl) (by rfl) (by exact h.insertId)
            (fun hg => ⟨hg, rfl⟩) (by rfl) (by exact (add_zero _).symm)
  | updateFlag accountId =>
      cases htx : link.tx with
      | none =>
          have hquery : (s.query d link (.updateFlag accountId)).2 =
              ({ s.count (.updateFlag accountId) with
                  db := s.db.replay [.setFlag accountId] }, link) := by
            obtain ⟨connected, reconnect, tx, insertId⟩ := link
            obtain rfl : tx = .none := htx
            rfl
          rw [hquery]
          exact h.served_alone hs htx (w := .setFlag accountId) rfl rfl rfl
            (fun _ _ hw => by cases hw) (by rfl) (by exact ⟨rfl, rfl⟩)
      | some ws =>
          rw [query_of_write d s htx rfl]
          exact h.served_append hs htx (w := .setFlag accountId) (by rfl) hcount
            trivial (fun i hi => by cases hi) (fun i hi => by cases hi)
            (fun i cents hi => by cases hi) (by rfl) (by rfl) (by exact h.insertId)
            (fun hg => ⟨hg, rfl⟩) (by rfl) (by exact (add_zero _).symm)

/-- A call that touches neither the data nor the transaction. -/
theorem served_idle (h : Keeps s link g) (hs : s.Fresh) {link' : Link} (htx : link'.tx = link.tx)
    (hid : link'.insertId = link.insertId) : Served s s link link' g :=
  h.served_same hs rfl ⟨rfl, rfl⟩ htx hid rfl h.found

/-- A call that gives the connection up. -/
theorem served_renewed (h : Keeps s link g) (hs : s.Fresh) : Served s s link .closed .renewed :=
  h.served_ended hs (.inr rfl) rfl ⟨rfl, rfl⟩ rfl rfl rfl rfl rfl

/-- **One call.** -/
theorem call_served (h : Keeps s link g) (hs : s.Fresh) (c : Call) (fault : Option Bytes)
    (hallow : (ledger d).allow g c) :
    ∃ g', (ledger d).next g c (answer d (.ofFaults fun _ => fault) c ⟨s, link, 0, 0⟩).1 g' ∧
      Served s (answer d (.ofFaults fun _ => fault) c ⟨s, link, 0, 0⟩).2.server link
        (answer d (.ofFaults fun _ => fault) c ⟨s, link, 0, 0⟩).2.link g' := by
  cases c with
  | init =>
      cases fault with
      | none => exact ⟨.renewed, rfl, h.served_renewed hs⟩
      | some e => exact ⟨.renewed, rfl, h.served_renewed hs⟩
  | optionReconnect => exact ⟨g, rfl, h.served_idle hs rfl rfl⟩
  | optionCharset => exact ⟨g, rfl, h.served_idle hs rfl rfl⟩
  | connect =>
      cases fault with
      | none => exact ⟨g, rfl, h.served_idle hs rfl rfl⟩
      | some e => exact ⟨g, rfl, h.served_idle hs rfl rfl⟩
  | insertId => exact ⟨g, ⟨h.insertId, rfl⟩, h.served_idle hs rfl rfl⟩
  | close => exact ⟨.renewed, rfl, h.served_renewed hs⟩
  | query sql =>
      cases fault with
      | some e => exact ⟨g, rfl, h.served_idle hs rfl rfl⟩
      | none =>
          obtain ⟨connected, reconnect, tx, insertId⟩ := link
          have hup : Keeps s ⟨true, reconnect, tx, insertId⟩ g :=
            ⟨h.inTx, h.insertId, h.opened, h.found, h.due, h.awaits, h.below⟩
          obtain ⟨n, hserved⟩ := hup.query_served hs hallow
          -- A statement goes out if the connection is up or the library brings it up again.
          cases hconn : connected || reconnect with
          | true =>
              refine ⟨g.served d sql (s.query d ⟨true, reconnect, tx, insertId⟩ sql).1 n, ?_, ?_⟩
              · simp only [answer, Env.ofFaults, Bool.false_eq_true, ↓reduceIte, hconn]
                exact ⟨n, rfl⟩
              · simp only [answer, Env.ofFaults, Bool.false_eq_true, ↓reduceIte, hconn]
                exact ⟨hserved.keeps, hserved.gap, hserved.fresh, hserved.counters,
                  hserved.commits, hserved.accounts, hserved.trans⟩
          | false =>
              refine ⟨g, ?_, ?_⟩
              · simp only [answer, Env.ofFaults, Bool.false_eq_true, ↓reduceIte, hconn]
                rfl
              · simp only [answer, Env.ofFaults, Bool.false_eq_true, ↓reduceIte, hconn]
                exact h.served_idle hs rfl rfl

/-- What another thread has committed. -/
theorem other (h : Keeps s link g) {s' : Server} {ws : List Write} (hdb : s'.db = s.db.replay ws)
    (haccounts : ∀ i ∈ accountIds ws, i ∉ accountIds (waiting link))
    (htrans : ∀ i ∈ transIds ws, i ∉ transIds (waiting link))
    (hcounters : s.nextAccountId ≤ s'.nextAccountId ∧ s.nextTransId ≤ s'.nextTransId) :
    Keeps s' link g where
  inTx := h.inTx
  insertId := h.insertId
  opened := h.opened
  found := fun a ha => by
    rw [hdb]
    exact Database.mem_keys_replay.1.mpr (Or.inl (h.found a ha))
  due := h.due
  awaits := by
    rw [hdb]
    exact h.awaits.other haccounts htrans
  below := fun w hw => below_mono (h.below w hw) hcounters.1 hcounters.2

end Keeps

/-! ### All threads -/

/-- What every thread knows is so, the rows that wait to be committed have numbers of their own,
and nothing has become of what no row accounts for. -/
structure Balanced (d : Dialect) (db : Database) (s : BankThreads) (entry : Nat → Entry) : Prop where
  fresh : s.server.Fresh
  gap : s.server.db.gap = db.gap
  keeps : ∀ i, Keeps s.server (s.thread i).link (entry i)
  programs : ∀ i op p, (s.thread i).serving = some (op, p) →
    p.wp (ledger d) (fun _ _ => True) (entry i)
  apart : ∀ i j, i ≠ j →
    (∀ a ∈ accountIds (waiting (s.thread i).link), a ∉ accountIds (waiting (s.thread j).link)) ∧
    ∀ a ∈ transIds (waiting (s.thread i).link), a ∉ transIds (waiting (s.thread j).link)

namespace Balanced

variable {sys : System} {d : Dialect} {db : Database} {s : BankThreads} {entry : Nat → Entry}

theorem init {server : Server} (h : server.Fresh) :
    Balanced d server.db (.init server) fun _ => .renewed where
  fresh := h
  gap := rfl
  keeps := fun _ => .none _ rfl rfl rfl (by simp [Entry.renewed]) rfl
  programs := fun _ _ _ hp => by cases hp
  apart := fun _ _ _ => ⟨by simp [BankThreads.init, waiting, Link.closed],
    by simp [BankThreads.init, waiting, Link.closed]⟩

/-- What is to be shown of every thread is shown of the one that changes and of the others. -/
theorem forall_thread {P : Nat → BankThread → Entry → Prop} {thread : Nat → BankThread} {i : Nat}
    {t : BankThread} {g : Entry} (hi : P i t g) (hother : ∀ j, j ≠ i → P j (thread j) (entry j))
    (j : Nat) : P j (Function.update thread i t j) (Function.update entry i g j) := by
  by_cases hj : j = i
  · subst hj
    rw [Function.update_self, Function.update_self]
    exact hi
  · rw [Function.update_of_ne hj, Function.update_of_ne hj]
    exact hother j hj

/-- The same for pairs of threads. -/
theorem apart_update {P : List Write → List Write → Prop} {thread : Nat → BankThread} {i : Nat}
    {t : BankThread} (hsymm : ∀ ws vs, P ws vs → P vs ws)
    (hi : ∀ j, j ≠ i → P (waiting t.link) (waiting (thread j).link))
    (hold : ∀ j k, j ≠ k → P (waiting (thread j).link) (waiting (thread k).link)) (j k : Nat)
    (hjk : j ≠ k) :
    P (waiting (Function.update thread i t j).link) (waiting (Function.update thread i t k).link) := by
  by_cases hj : j = i
  · subst hj
    rw [Function.update_self, Function.update_of_ne (Ne.symm hjk)]
    exact hi k (Ne.symm hjk)
  · rw [Function.update_of_ne hj]
    by_cases hk : k = i
    · subst hk
      rw [Function.update_self]
      exact hsymm _ _ (hi j hj)
    · rw [Function.update_of_ne hk]
      exact hold j k hjk

/-- No row has a number in both. -/
def Apart (ws vs : List Write) : Prop :=
  (∀ a ∈ accountIds ws, a ∉ accountIds vs) ∧ ∀ a ∈ transIds ws, a ∉ transIds vs

theorem Apart.symm (ws vs : List Write) (h : Apart ws vs) : Apart vs ws :=
  ⟨fun a ha hb => h.1 a hb ha, fun a ha hb => h.2 a hb ha⟩

/-- A thread with a new connection. -/
theorem request (h : Balanced d db s entry) (i : Nat) {op : Operation} (hop : op.Plain sys d) :
    ∃ entry', Balanced d db (s.request sys i op) entry' := by
  unfold BankThreads.request
  split
  · exact ⟨entry, h⟩
  · refine ⟨Function.update entry i .renewed, h.fresh, h.gap, ?_, ?_, ?_⟩
    · exact forall_thread (P := fun _ t g => Keeps s.server t.link g)
        (.none _ rfl rfl rfl (by simp [Entry.renewed]) rfl) fun j _ => h.keeps j
    · refine forall_thread (P := fun _ t g => ∀ op p, t.serving = some (op, p) →
        p.wp (ledger d) (fun _ _ => True) g) (fun op' p hp => ?_) fun j _ => h.programs j
      obtain ⟨rfl, rfl⟩ := Prod.mk.inj (Option.some.inj hp)
      exact Entry.program_keeps hop _
    · exact apart_update (P := Apart) Apart.symm
        (fun j _ => ⟨by simp [waiting, Link.closed], by simp [waiting, Link.closed]⟩) h.apart

theorem call (h : Balanced d db s entry) (i : Nat) (fault : Option Bytes) :
    ∃ entry', Balanced d db (s.call d i fault) entry' := by
  unfold BankThreads.call
  split
  · rename_i op c k hserving
    split
    · exact ⟨entry, h⟩
    · obtain ⟨hallow, hrest⟩ := h.programs i op _ hserving
      obtain ⟨g', hnext, hserved⟩ := (h.keeps i).call_served h.fresh c fault hallow
      obtain ⟨ws, hdb, haccounts, htrans⟩ := hserved.commits
      refine ⟨Function.update entry i g', hserved.fresh, hserved.gap.trans h.gap, ?_, ?_, ?_⟩
      · refine forall_thread (P := fun _ t g => Keeps _ t.link g) hserved.keeps fun j hj => ?_
        exact (h.keeps j).other hdb (fun a ha => (h.apart i j (Ne.symm hj)).1 a (haccounts a ha))
          (fun a ha => (h.apart i j (Ne.symm hj)).2 a (htrans a ha)) hserved.counters
      · refine forall_thread (P := fun _ t g => ∀ op p, t.serving = some (op, p) →
          p.wp (ledger d) (fun _ _ => True) g) (fun op' p hp => ?_) fun j _ => h.programs j
        obtain ⟨rfl, rfl⟩ := Prod.mk.inj (Option.some.inj hp)
        exact hrest _ _ hnext
      · refine apart_update (P := Apart) Apart.symm (fun j hj => ⟨fun a ha hb => ?_, fun a ha hb => ?_⟩)
          h.apart
        · rcases hserved.accounts a ha with ha | ha
          · exact (h.apart i j (Ne.symm hj)).1 a ha hb
          · have := Keeps.lt_of_accountIds (h.keeps j).below hb
            omega
        · rcases hserved.trans a ha with ha | ha
          · exact (h.apart i j (Ne.symm hj)).2 a ha hb
          · have := Keeps.lt_of_transIds (h.keeps j).below hb
            omega
  · exact ⟨entry, h⟩

theorem answer (h : Balanced d db s entry) (i : Nat) {s' : BankThreads}
    (hstep : s.answer i = .ok s') : Balanced d db s' entry := by
  unfold BankThreads.answer at hstep
  split at hstep
  · cases hstep
  · obtain rfl := Except.ok.inj hstep
    refine ⟨h.fresh, h.gap, fun j => ?_, fun j op p hp => ?_, ?_⟩
    · have hlink : (Function.update s.thread i ⟨none, (s.thread i).link⟩ j).link = (s.thread j).link := by
        by_cases hj : j = i
        · subst hj
          rw [Function.update_self]
        · rw [Function.update_of_ne hj]
      show Keeps s.server (Function.update s.thread i _ j).link (entry j)
      rw [hlink]
      exact h.keeps j
    · by_cases hj : j = i
      · subst hj
        simp only [Function.update_self] at hp
        cases hp
      · simp only [Function.update_of_ne hj] at hp
        exact h.programs j op p hp
    · exact apart_update (P := Apart) Apart.symm (fun j hj => h.apart i j (Ne.symm hj)) h.apart
  · obtain rfl := Except.ok.inj hstep
    exact h

end Balanced

/-- **Reconciliation.**  However many threads serve requests, however they take turns and
whatever calls fail: at every moment the balances that are committed differ from the sums of
the rows that are committed by what they differed at the start, if the account that a transfer
names is read alike by everybody. -/
theorem balances_reconcile {sys : System} {d : Dialect} {server : Server} (hserver : server.Fresh)
    {acts : List Action} (hplain : ∀ i op, .request i op ∈ acts → op.Plain sys d) {s : BankThreads}
    (hrun : run (BankThreads.step sys d) acts (.init server) = .ok s) (a : Int) :
    s.server.db.balance a - s.server.db.recorded a =
      server.db.balance a - server.db.recorded a := by
  have hmay : Along (BankThreads.step sys d)
      (fun act _ => True ∧ ∀ i op, act = .request i op → op.Plain sys d) acts (.init server) :=
    Along.of_mem (along_true acts _) fun act hact i op hop => hplain i op (hop ▸ hact)
  have hkeep : ∀ act t t', (∃ entry, Balanced d server.db t entry) →
      (True ∧ ∀ i op, act = .request i op → op.Plain sys d) →
      BankThreads.step sys d act t = .ok t' → ∃ entry, Balanced d server.db t' entry := by
    rintro act t t' ⟨entry, h⟩ hact hstep
    cases act with
    | request i op =>
        obtain rfl := Except.ok.inj hstep
        exact h.request i (hact.2 i op rfl)
    | call i fault =>
        obtain rfl := Except.ok.inj hstep
        exact h.call i fault
    | answer i => exact ⟨entry, h.answer i hstep⟩
  obtain ⟨entry, h⟩ := run_inv_along hkeep ⟨_, Balanced.init hserver⟩ hmay hrun
  exact congrFun h.gap a

/-- While account 1 pays account 2, another thread waits to deposit on it, and rolls back because
its row cannot be written. -/
def transferMeanwhile : List Action :=
  [.request 0 (.transfer (smallLocals 10).account [50])] ++ calls 0 10 ++
    [.request 1 (.deposit (smallLocals 5).account)] ++ calls 1 6 ++ calls 0 6 ++ [.answer 0] ++
    calls 1 2 ++ [.call 1 (some [])] ++ calls 1 2 ++ [.answer 1]

theorem balances_reconcile_meanwhile :
    ∃ s, run (BankThreads.step Setup.zero.sys .plain) transferMeanwhile (.init smallBank) = .ok s ∧
      ∀ a, s.server.db.balance a - s.server.db.recorded a =
        smallBank.db.balance a - smallBank.db.recorded a := by
  obtain ⟨s, hrun, -⟩ := exists_run (n := 0) (x := 9000)
    (show Option.map _ (run _ transferMeanwhile _).toOption = _ by decide +kernel)
  refine ⟨s, hrun, balances_reconcile fresh_smallBank (fun i op _ => ?_) hrun⟩
  cases op with
  | transfer account other => exact rfl
  | _ => exact trivial

end Windows
