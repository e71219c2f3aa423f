/-
What a thread knows of the rows it has locked.

A row is locked by one thread, and what is committed about it changes by the commits of that
thread only.  So an account that was open when its row was locked is open until then, and
what a transaction commits is about accounts that are open.

`Answered` says what a call that a thread may make does to the database, and that what the
thread knows is so again behind it.
-/
import Muduo.Proofs.BankThreads

namespace Bank

open Lib

/-! ### Open and closed accounts -/

/-- The account or the history that a change is about. -/
def Write.touches : Write → Int
  | .insertAccount row => row.accountId
  | .insertTrans row => row.accountId
  | .addBalance accountId _ => accountId
  | .setPass accountId _ => accountId
  | .setFlag accountId => accountId

namespace Database

variable {db : Database} {a : Int}

def IsOpen (db : Database) (accountId : Int) : Prop :=
  ∃ r, db.account? accountId = some r ∧ r.flag = 0

def IsClosed (db : Database) (accountId : Int) : Prop :=
  ∃ r, db.account? accountId = some r ∧ r.flag ≠ 0

theorem IsOpen.not_isClosed (h : db.IsOpen a) : ¬ db.IsClosed a := by
  obtain ⟨r, hr, hflag⟩ := h
  rintro ⟨r', hr', hflag'⟩
  exact hflag' (Option.some.inj (hr'.symm.trans hr) ▸ hflag)

/-- Two databases agree about an account, but for its password. -/
structure Alike (db db' : Database) (accountId : Int) : Prop where
  account : (db'.account? accountId).map (fun r => (r.flag, r.balance))
    = (db.account? accountId).map fun r => (r.flag, r.balance)
  history : db'.history accountId = db.history accountId

theorem Alike.refl (db : Database) (accountId : Int) : db.Alike db accountId := ⟨rfl, rfl⟩

theorem Alike.trans {db' db'' : Database} (h : db.Alike db' a) (h' : db'.Alike db'' a) :
    db.Alike db'' a :=
  ⟨h'.account.trans h.account, h'.history.trans h.history⟩

theorem Alike.flag {db' : Database} (h : db.Alike db' a) :
    (db'.account? a).map BankAccount.flag = (db.account? a).map BankAccount.flag := by
  have heq := congrArg (Option.map Prod.fst) h.account
  rw [Option.map_map, Option.map_map] at heq
  exact heq

theorem Alike.balance {db' : Database} (h : db.Alike db' a) : db'.balance a = db.balance a := by
  have heq := congrArg (Option.map Prod.snd) h.account
  rw [Option.map_map, Option.map_map] at heq
  exact congrArg (Option.getD · 0) heq

theorem isOpen_iff : db.IsOpen a ↔ (db.account? a).map BankAccount.flag = some 0 := by
  simp [IsOpen, Option.map_eq_some_iff]

theorem isClosed_iff :
    db.IsClosed a ↔ ∃ n, n ≠ 0 ∧ (db.account? a).map BankAccount.flag = some n := by
  simp only [IsClosed, Option.map_eq_some_iff]
  constructor
  · rintro ⟨r, hr, hflag⟩
    exact ⟨_, hflag, r, hr, rfl⟩
  · rintro ⟨_, hflag, r, hr, rfl⟩
    exact ⟨r, hr, hflag⟩

theorem Alike.isOpen {db' : Database} (h : db.Alike db' a) : db'.IsOpen a ↔ db.IsOpen a := by
  rw [isOpen_iff, isOpen_iff, h.flag]

theorem Alike.isClosed {db' : Database} (h : db.Alike db' a) : db'.IsClosed a ↔ db.IsClosed a := by
  rw [isClosed_iff, isClosed_iff, h.flag]

theorem Alike.none {db' : Database} (h : db.Alike db' a) :
    db'.account? a = none ↔ db.account? a = none := by
  rw [← Option.map_eq_none_iff (f := BankAccount.flag), h.flag, Option.map_eq_none_iff]

/-- A change is nothing to the accounts it does not touch. -/
theorem write_untouched {w : Write} (hw : w.touches ≠ a) :
    (db.write w).account? a = db.account? a ∧ (db.write w).history a = db.history a := by
  cases w with
  | insertAccount row => exact ⟨Table.find?_insert_of_ne hw, rfl⟩
  | insertTrans row =>
      refine ⟨rfl, ?_⟩
      have hw : row.accountId ≠ a := hw
      unfold history Database.write Table.insert
      simp only
      split
      · rfl
      · simp [hw]
  | addBalance accountId cents =>
      exact ⟨(account?_addBalance db accountId cents a).trans (if_neg (Ne.symm hw)), rfl⟩
  | setPass accountId pass =>
      exact ⟨(account?_setPass db accountId pass a).trans (if_neg (Ne.symm hw)), rfl⟩
  | setFlag accountId =>
      exact ⟨(account?_setFlag db accountId a).trans (if_neg (Ne.symm hw)), rfl⟩

theorem replay_untouched {ws : List Write} (hws : ∀ w ∈ ws, w.touches ≠ a) :
    ∀ {db : Database}, (db.replay ws).account? a = db.account? a ∧
      (db.replay ws).history a = db.history a := by
  induction ws with
  | nil => exact ⟨rfl, rfl⟩
  | cons w rest ih =>
      intro db
      obtain ⟨haccount, hhistory⟩ := @write_untouched db a w (hws w List.mem_cons_self)
      obtain ⟨haccount', hhistory'⟩ := @ih (fun v hv => hws v (List.mem_cons_of_mem w hv)) (db.write w)
      exact ⟨haccount'.trans haccount, hhistory'.trans hhistory⟩

theorem setPass_alike (accountId : Int) (pass : Bytes) (a : Int) :
    db.Alike (db.write (.setPass accountId pass)) a := by
  refine ⟨?_, rfl⟩
  rw [account?_setPass]
  split
  · rename_i ha
    rw [ha, Option.map_map]
    rfl
  · rfl

/-- No change takes a row away or takes a flag back. -/
theorem write_keeps {r : BankAccount} (hr : db.account? a = some r) (w : Write) :
    ∃ r', (db.write w).account? a = some r' ∧ (r.flag ≠ 0 ∨ w = .setFlag a → r'.flag ≠ 0) := by
  by_cases ha : w.touches = a
  · subst ha
    cases w with
    | insertAccount row =>
        refine ⟨r, ?_, by simp⟩
        have hmem : row.accountId ∈ db.bankAccount.rows.map BankAccount.accountId :=
          Table.mem_keys_of_find? hr
        show (db.bankAccount.insert row).find? _ = _
        rw [Table.insert, dif_pos hmem]
        exact hr
    | insertTrans row => exact ⟨r, hr, by simp⟩
    | addBalance accountId cents =>
        have hrow := account?_addBalance db accountId cents accountId
        rw [if_pos rfl, show db.account? accountId = some r from hr] at hrow
        exact ⟨_, hrow, by simp⟩
    | setPass accountId pass =>
        have hrow := account?_setPass db accountId pass accountId
        rw [if_pos rfl, show db.account? accountId = some r from hr] at hrow
        exact ⟨_, hrow, by simp⟩
    | setFlag accountId =>
        have hrow := account?_setFlag db accountId accountId
        rw [if_pos rfl, show db.account? accountId = some r from hr] at hrow
        exact ⟨_, hrow, by simp⟩
  · refine ⟨r, (write_untouched ha).1.trans hr, ?_⟩
    rintro (hflag | rfl)
    · exact hflag
    · exact absurd rfl ha

/-- A row that is there stays, and is closed when a change has flagged it. -/
theorem replay_keeps (ws : List Write) : ∀ {db : Database} {r : BankAccount},
    db.account? a = some r → ∃ r', (db.replay ws).account? a = some r' ∧
      (r.flag ≠ 0 ∨ .setFlag a ∈ ws → r'.flag ≠ 0) := by
  induction ws with
  | nil => exact fun {_ r} hr => ⟨r, hr, by simp⟩
  | cons w rest ih =>
      intro db r hr
      obtain ⟨r₁, hr₁, hflag₁⟩ := write_keeps hr w
      obtain ⟨r₂, hr₂, hflag₂⟩ := ih hr₁
      refine ⟨r₂, hr₂, ?_⟩
      rintro (hflag | hmem)
      · exact hflag₂ (Or.inl (hflag₁ (Or.inl hflag)))
      · rcases List.mem_cons.mp hmem with rfl | hmem
        · exact hflag₂ (Or.inl (hflag₁ (Or.inr rfl)))
        · exact hflag₂ (Or.inr hmem)

theorem isSome_insertAccount (db : Database) (row : BankAccount) :
    ((db.write (.insertAccount row)).account? row.accountId).isSome := by
  cases hr : db.account? row.accountId with
  | none =>
      rw [account?_insertAccount hr, if_pos rfl]
      rfl
  | some r =>
      obtain ⟨r', hr', -⟩ := write_keeps hr (.insertAccount row)
      rw [hr']
      rfl

end Database

/-- The counter of the accounts is ahead of them. -/
def Server.Ahead (s : Server) : Prop := ∀ a, (s.db.account? a).isSome → a < s.nextAccountId

end Bank

namespace Windows

open Lib Bank

/-! ### Locks -/

namespace Locks

variable {locks : Locks} {i : Nat} {s : Server} {link : Link} {row : Option Int} {p : Int × Nat}

theorem mem_after_of_ne (h : p ∈ locks) (hp : p.2 ≠ i) : p ∈ locks.after i s link row := by
  unfold after
  split
  · exact List.mem_append_right _ h
  · exact List.mem_filter.mpr ⟨h, by simpa using hp⟩

theorem mem_after_of_tx (h : p ∈ locks) (htx : link.tx.isSome) : p ∈ locks.after i s link row := by
  unfold after
  rw [if_pos htx]
  exact List.mem_append_right _ h

/-- A transaction gets the lock of a row that is there. -/
theorem mem_after_row {a : Int} (htx : link.tx.isSome) (ha : ((s.view link).account? a).isSome) :
    (a, i) ∈ locks.after i s link (some a) := by
  unfold after
  rw [if_pos htx, Option.filter_some, if_pos ha]
  exact List.mem_cons_self

theorem of_mem_after (h : p ∈ locks.after i s link row) : p ∈ locks ∨ (p.2 = i ∧ row = some p.1) := by
  unfold after at h
  split at h
  · rcases List.mem_append.mp h with h | h
    · obtain ⟨a, ha, rfl⟩ := List.mem_map.mp h
      obtain ⟨ha, -⟩ := Option.mem_filter_iff.mp (Option.mem_toList.mp ha)
      exact Or.inr ⟨rfl, ha⟩
    · exact Or.inl h
  · exact Or.inl (List.mem_of_mem_filter h)

/-- A row is locked by one thread. -/
def Unique (locks : Locks) : Prop := ∀ a i j, (a, i) ∈ locks → (a, j) ∈ locks → i = j

theorem Unique.after (h : locks.Unique) (hwaits : ¬ locks.Waits i row) :
    (locks.after i s link row).Unique := by
  have hfree : ∀ a j, row = some a → (a, j) ∈ locks → j = i := fun a j hrow hmem =>
    by_contra fun hne => hwaits ⟨(a, j), hmem, hrow, hne⟩
  intro a j k hj hk
  rcases of_mem_after hj with hj' | ⟨hij, hrow⟩
  · rcases of_mem_after hk with hk' | ⟨hik, hrow⟩
    · exact h a j k hj' hk'
    · exact (hfree a j hrow hj').trans hik.symm
  · rcases of_mem_after hk with hk' | ⟨hik, -⟩
    · exact Eq.trans hij (hfree a k hrow hk').symm
    · exact Eq.trans hij hik.symm

end Locks

/-! ### What a thread knows is so -/

/-- What a thread knows, of its connection, its locks and what is committed. -/
structure Knows (s : Server) (locks : Locks) (i : Nat) (link : Link) (g : Know) : Prop where
  inTx : link.tx.isSome = g.inTx
  insertId : link.insertId = g.insertId
  locked : ∀ a, g.Owns a → (a, i) ∈ locks
  found : ∀ a ∈ g.found, s.db.IsOpen a
  fresh : ∀ a ∈ g.fresh, s.db.account? a = none ∧ a < s.nextAccountId
  writes : ∀ ws, link.tx = some ws → ∀ w ∈ ws, g.Owns w.touches
  flagged : ∀ a ∈ g.flagged, a ∈ g.found ∧ ∃ ws, link.tx = some ws ∧ .setFlag a ∈ ws
  idle : g.inTx = false → g.found = [] ∧ g.fresh = []

namespace Knows

variable {s : Server} {locks : Locks} {i : Nat} {link : Link} {g : Know}

/-- Without a transaction there is nothing to know. -/
theorem none (s : Server) (locks : Locks) (i : Nat) {link : Link} {g : Know}
    (htx : link.tx = .none) (hid : link.insertId = g.insertId) (hin : g.inTx = false)
    (hfound : g.found = []) (hfresh : g.fresh = []) (hflagged : g.flagged = []) :
    Knows s locks i link g where
  inTx := by rw [htx, hin]; rfl
  insertId := hid
  locked := by simp [Know.Owns, hfound, hfresh]
  found := by simp [hfound]
  fresh := by simp [hfresh]
  writes := by simp [htx]
  flagged := by simp [hflagged]
  idle := fun _ => ⟨hfound, hfresh⟩

theorem not_isClosed (h : Knows s locks i link g) {a : Int} (ha : g.Owns a) : ¬ s.db.IsClosed a := by
  rcases ha with ha | ha
  · exact (h.found a ha).not_isClosed
  · rintro ⟨r, hr, -⟩
    rw [(h.fresh a ha).1] at hr
    cases hr

theorem not_owns (h : Knows s locks i link g) (hin : g.inTx = false) (a : Int) : ¬ g.Owns a := by
  simp [Know.Owns, h.idle hin]

/-- What the other threads do is nothing to the rows of this one. -/
theorem other (h : Knows s locks i link g) {s' : Server} {locks' : Locks}
    (halike : ∀ a, g.Owns a → s.db.Alike s'.db a) (hnext : s.nextAccountId ≤ s'.nextAccountId)
    (hlocks : ∀ a, (a, i) ∈ locks → (a, i) ∈ locks') : Knows s' locks' i link g where
  inTx := h.inTx
  insertId := h.insertId
  locked := fun a ha => hlocks a (h.locked a ha)
  found := fun a ha => (halike a (Or.inl ha)).isOpen.mpr (h.found a ha)
  fresh := fun a ha =>
    ⟨(halike a (Or.inr ha)).none.mpr (h.fresh a ha).1, lt_of_lt_of_le (h.fresh a ha).2 hnext⟩
  writes := h.writes
  flagged := h.flagged
  idle := h.idle

/-- A call that leaves the transaction as it is. -/
theorem same (h : Knows s locks i link g) (s' : Server) (hdb : s'.db = s.db)
    (hnext : s'.nextAccountId = s.nextAccountId) {link' : Link} (htx : link'.tx = link.tx)
    (hid : link'.insertId = link.insertId) (row : Option Int) :
    Knows s' (locks.after i s' link' row) i link' g where
  inTx := htx ▸ h.inTx
  insertId := hid.trans h.insertId
  locked := by
    intro a ha
    cases hin : g.inTx with
    | false => exact absurd ha (h.not_owns hin a)
    | true => exact Locks.mem_after_of_tx (h.locked a ha) (by rw [htx, h.inTx, hin])
  found := hdb ▸ h.found
  fresh := by rw [hdb, hnext]; exact h.fresh
  writes := htx ▸ h.writes
  flagged := htx ▸ h.flagged
  idle := h.idle

end Knows

/-! ### One call -/

/-- What becomes of the server, of the locks and of a thread's connection and knowledge by a
call of the thread. -/
structure Answered (s s' : Server) (locks' : Locks) (i : Nat) (link' : Link) (g g' : Know) :
    Prop where
  knows : Knows s' locks' i link' g'
  others : ∀ a, ¬ g.Owns a → s.db.Alike s'.db a
  counter : s.nextAccountId ≤ s'.nextAccountId
  ahead : s'.Ahead
  closed : ∀ a ∈ g'.closed, a ∈ g.closed ∨ (s.db.IsOpen a ∧ s'.db.IsClosed a)

/-- Where a `select .. for update` finds a row by its password, the row is open. -/
def FindsOpen (d : Dialect) (s : Server) : Sql → Prop
  | .selectBalance account (.pass text) true =>
      ∀ r ∈ s.db.account? (Server.refersTo d account), d.passIs text r.pass → r.flag = 0
  | _ => True

instance (d : Dialect) (s : Server) (sql : Sql) : Decidable (FindsOpen d s sql) := by
  unfold FindsOpen
  split <;> infer_instance

/-- The statements that only read. -/
def reads : Sql → Bool
  | .startTransaction | .commit | .rollback => false
  | .insertAccount .. | .insertTrans .. | .updateBalance .. | .updatePass .. | .updateFlag .. => false
  | _ => true

theorem query_of_reads (d : Dialect) (s : Server) (link : Link) {sql : Sql} (h : reads sql = true) :
    (s.query d link sql).2 = ({ s with clock := s.clock + 1 }, link) := by
  obtain ⟨connected, reconnect, _ | ws, insertId⟩ := link <;> cases sql <;>
    first
    | exact (Bool.false_ne_true h).elim
    | rfl
    | simp [Server.query, Server.count, Server.lastInsert, Server.writes]

/-- The statements that change rows. -/
def changes : Sql → Bool
  | .insertAccount .. | .insertTrans .. | .updateBalance .. | .updatePass .. | .updateFlag .. => true
  | _ => false

/-- In a transaction a change waits for the commit. -/
theorem query_of_write (d : Dialect) (s : Server) {link : Link} {ws : List Write}
    (htx : link.tx = some ws) {sql : Sql} (h : changes sql = true) :
    (s.query d link sql).2 = (s.count sql,
      { link with insertId := s.lastInsert link sql, tx := some (ws ++ s.writes d sql) }) := by
  obtain ⟨connected, reconnect, tx, insertId⟩ := link
  obtain rfl : tx = some ws := htx
  cases sql <;>
    first
    | exact (Bool.false_ne_true h).elim
    | rfl

theorem query_fst (d : Dialect) (s : Server) (link : Link) (sql : Sql) :
    (s.query d link sql).1 = Server.select d (s.view link) s.clock sql := by
  obtain ⟨connected, reconnect, _ | ws, insertId⟩ := link <;> cases sql <;> rfl

namespace Knows

variable {d : Dialect} {s : Server} {locks : Locks} {i : Nat} {link : Link} {g : Know}

theorem view_untouched (h : Knows s locks i link g) {a : Int} (ha : ¬ g.Owns a) :
    (s.view link).account? a = s.db.account? a ∧ (s.view link).history a = s.db.history a := by
  unfold Server.view
  cases htx : link.tx with
  | none => exact ⟨rfl, rfl⟩
  | some ws =>
      refine Database.replay_untouched fun w hw hwa => ha ?_
      rw [← hwa]
      exact h.writes ws htx w hw

theorem view_alike (h : Knows s locks i link g) {a : Int} (ha : ¬ g.Owns a) :
    s.db.Alike (s.view link) a :=
  ⟨congrArg _ (h.view_untouched ha).1, (h.view_untouched ha).2⟩

theorem answered_of_reads (h : Knows s locks i link g)
    (hahead : s.Ahead) {sql : Sql}
    (hreads : reads sql = true) {row : Option Int} :
    Answered s (s.query d link sql).2.1 (locks.after i (s.query d link sql).2.1
      (s.query d link sql).2.2 row) i (s.query d link sql).2.2 g g := by
  rw [query_of_reads d s link hreads]
  refine ⟨?_, fun a _ => .refl _ _, le_rfl, hahead, fun a ha => Or.inl ha⟩
  exact h.same { s with clock := s.clock + 1 } rfl rfl rfl rfl row

/-- The row that a `select .. for update` finds is open. -/
theorem isOpen_of_find (h : Knows s locks i link g) {account : AccountRef} {cond : AccountCond}
    (hfresh : g.fresh = []) (hfinds : FindsOpen d s (.selectBalance account cond true))
    (hrs : (s.query d link (.selectBalance account cond true)).1 ≠ []) :
    s.db.IsOpen (Server.refersTo d account) ∧
      ((s.view link).account? (Server.refersTo d account)).isSome := by
  rw [query_fst] at hrs
  have hrow : ∃ r, (s.view link).account? (Server.refersTo d account) = some r ∧
      Server.accountCond d cond r = true := by
    cases hr : (s.view link).account? (Server.refersTo d account) with
    | none =>
        refine absurd ?_ hrs
        show (((s.view link).account? (Server.refersTo d account)).toList.filter _).map _ = []
        rw [hr]
        rfl
    | some r =>
        refine ⟨r, rfl, by_contra fun hcond => hrs ?_⟩
        show (((s.view link).account? (Server.refersTo d account)).toList.filter _).map _ = []
        rw [hr]
        simp [hcond]
  obtain ⟨r, hr, hcond⟩ := hrow
  refine ⟨?_, by rw [hr]; rfl⟩
  by_cases hown : g.Owns (Server.refersTo d account)
  · rcases hown with hown | hown
    · exact h.found _ hown
    · rw [hfresh] at hown
      cases hown
  · rw [(h.view_untouched hown).1] at hr
    refine ⟨r, hr, ?_⟩
    cases cond with
    | flagZero => exact of_decide_eq_true hcond
    | pass text => exact hfinds r hr hcond

/-- A `select .. for update` in a transaction that has found its row. -/
theorem answered_of_found (h : Knows s locks i link g)
    (hahead : s.Ahead) (hin : g.inTx = true) {a : Int}
    (hopen : s.db.IsOpen a) (hsome : ((s.view link).account? a).isSome) :
    Answered s { s with clock := s.clock + 1 }
      (locks.after i { s with clock := s.clock + 1 } link (some a)) i link g
      { g with found := a :: g.found } := by
  have hsame := h.same { s with clock := s.clock + 1 } rfl rfl rfl rfl (some a)
  refine ⟨⟨h.inTx, h.insertId, ?_, ?_, h.fresh, ?_, ?_, ?_⟩, fun a _ => .refl _ _, le_rfl, hahead,
    fun a ha => Or.inl ha⟩
  · rintro b (hb | hb)
    · rcases List.mem_cons.mp hb with rfl | hb
      · exact Locks.mem_after_row (h.inTx.trans hin) hsome
      · exact hsame.locked b (Or.inl hb)
    · exact hsame.locked b (Or.inr hb)
  · intro b hb
    rcases List.mem_cons.mp hb with rfl | hb
    · exact hopen
    · exact h.found b hb
  · exact fun ws hws w hw => (h.writes ws hws w hw).imp (List.mem_cons_of_mem a) fun hf => hf
  · exact fun b hb => (h.flagged b hb).imp (List.mem_cons_of_mem a) fun hf => hf
  · exact fun hout => (Bool.false_ne_true (hout.symm.trans hin)).elim

/-- A statement in a transaction that changes a row of the thread. -/
theorem answered_of_write (h : Knows s locks i link g)
    (hahead : s.Ahead) (sql : Sql)
    (hsql : changes sql = true) (hin : g.inTx = true) {w : Write} (hwrites : s.writes d sql = [w])
    (hw : g.Owns w.touches) (hnext : (s.count sql).nextAccountId = s.nextAccountId)
    (row : Option Int) (g' : Know) (hid : s.lastInsert link sql = g'.insertId)
    (hin' : g'.inTx = g.inTx) (hfound : g'.found = g.found) (hfresh : g'.fresh = g.fresh)
    (hclosed : g'.closed = g.closed)
    (hflagged : ∀ a ∈ g'.flagged, a ∈ g.flagged ∨ (a ∈ g.found ∧ w = .setFlag a)) :
    let r := s.query d link sql
    Answered s r.2.1 (locks.after i r.2.1 r.2.2 row) i r.2.2 g g' := by
  obtain ⟨ws, htx⟩ := Option.isSome_iff_exists.mp (h.inTx.trans hin)
  intro r
  rw [show r.2 = _ from query_of_write d s htx hsql, hwrites]
  have howns : ∀ a, g'.Owns a ↔ g.Owns a := fun a => by rw [Know.Owns, Know.Owns, hfound, hfresh]
  refine ⟨?_, fun a _ => .refl _ _, hnext.ge, ?_, fun a ha => Or.inl (hclosed ▸ ha)⟩
  · constructor
    · rw [hin', hin]
      rfl
    · exact hid
    · exact fun a ha => Locks.mem_after_of_tx (h.locked a ((howns a).mp ha)) rfl
    · rw [hfound]
      exact h.found
    · rw [hfresh, hnext]
      exact h.fresh
    · intro vs hvs v hv
      obtain rfl := Option.some.inj hvs
      rw [howns]
      rcases List.mem_append.mp hv with hv | hv
      · exact h.writes ws htx v hv
      · obtain rfl : v = w := by simpa using hv
        exact hw
    · intro a ha
      rcases hflagged a ha with ha | ⟨ha, rfl⟩
      · obtain ⟨hmem, vs, hvs, hflag⟩ := h.flagged a ha
        obtain rfl : ws = vs := by simpa [htx] using hvs
        exact ⟨hfound ▸ hmem, _, rfl, List.mem_append_left _ hflag⟩
      · exact ⟨hfound ▸ ha, _, rfl, by simp⟩
    · rw [hin', hfound, hfresh]
      exact h.idle
  · intro a ha
    show a < (s.count sql).nextAccountId
    rw [hnext]
    exact hahead a ha

theorem answered_insertAccount (h : Knows s locks i link g)
    (hahead : s.Ahead) (hin : g.inTx = true)
    {name pass id : Bytes} {balance : Int} :
    let r := s.query d link (.insertAccount name pass id balance)
    Answered s r.2.1 (locks.after i r.2.1 r.2.2 (some s.nextAccountId)) i r.2.2 g
      { g with fresh := s.nextAccountId :: g.fresh, insertId := s.nextAccountId } := by
  obtain ⟨connected, reconnect, tx, insertId⟩ := link
  cases tx with
  | none => exact (Bool.false_ne_true (h.inTx.trans hin)).elim
  | some ws =>
      intro r
      have howns : ∀ a, g.Owns a →
          ({ g with fresh := s.nextAccountId :: g.fresh, insertId := s.nextAccountId } : Know).Owns a :=
        fun a ha => ha.imp (fun hfound => hfound) (List.mem_cons_of_mem _)
      have hnone : s.db.account? s.nextAccountId = Option.none := by
        cases hfind : s.db.account? s.nextAccountId with
        | none => rfl
        | some r => exact absurd (hahead s.nextAccountId (by rw [hfind]; rfl)) (lt_irrefl _)
      refine ⟨⟨h.inTx, rfl, ?_, h.found, ?_, ?_, ?_, ?_⟩, fun a _ => .refl _ _, ?_, ?_,
        fun a ha => Or.inl ha⟩
      · rintro a (ha | ha)
        · exact Locks.mem_after_of_tx (h.locked a (Or.inl ha)) rfl
        · rcases List.mem_cons.mp ha with rfl | ha
          · refine Locks.mem_after_row rfl ?_
            show ((s.db.replay (ws ++ [_])).account? _).isSome
            rw [Database.replay_append]
            exact Database.isSome_insertAccount _ _
          · exact Locks.mem_after_of_tx (h.locked a (Or.inr ha)) rfl
      · intro a ha
        rcases List.mem_cons.mp ha with rfl | ha
        · exact ⟨hnone, lt_add_one _⟩
        · exact ⟨(h.fresh a ha).1, (h.fresh a ha).2.trans (lt_add_one _)⟩
      · rintro vs hvs v hv
        obtain rfl := Option.some.inj hvs
        rcases List.mem_append.mp hv with hv | hv
        · exact howns _ (h.writes ws rfl v hv)
        · obtain rfl := List.mem_singleton.mp hv
          exact Or.inr List.mem_cons_self
      · intro a ha
        obtain ⟨hmem, vs, hvs, hflag⟩ := h.flagged a ha
        obtain rfl := Option.some.inj hvs
        exact ⟨hmem, _, rfl, List.mem_append_left _ hflag⟩
      · exact fun hout => (Bool.false_ne_true (hout.symm.trans hin)).elim
      · exact (lt_add_one _).le
      · exact fun a ha => (hahead a ha).trans (lt_add_one _)

/-- Committing makes the changes of the transaction, which are about open accounts. -/
theorem answered_commit (h : Knows s locks i link g)
    (hahead : s.Ahead) :
    let r := s.query d link .commit
    Answered s r.2.1 (locks.after i r.2.1 r.2.2 Option.none) i r.2.2 g
      { g.ended with closed := g.flagged ++ g.closed } := by
  intro r
  refine ⟨.none _ _ _ rfl h.insertId rfl rfl rfl rfl, fun a ha => h.view_alike ha, le_rfl, ?_, ?_⟩
  · intro a ha
    have ha : ((s.view link).account? a).isSome := ha
    by_cases hown : g.Owns a
    · rcases hown with hown | hown
      · obtain ⟨r, hr, -⟩ := h.found a hown
        exact hahead a (by rw [hr]; rfl)
      · exact (h.fresh a hown).2
    · rw [(h.view_untouched hown).1] at ha
      exact hahead a ha
  · intro a ha
    rcases List.mem_append.mp ha with ha | ha
    · obtain ⟨hfound, ws, hws, hflag⟩ := h.flagged a ha
      obtain ⟨r, hr, hopen⟩ := h.found a hfound
      obtain ⟨r', hr', hclosed⟩ := Database.replay_keeps ws hr
      refine Or.inr ⟨⟨r, hr, hopen⟩, r', ?_, hclosed (Or.inr hflag)⟩
      show (s.view link).account? a = some r'
      unfold Server.view
      rw [hws]
      exact hr'
    · exact Or.inl ha

/-- **What a statement does that a thread may send.** -/
theorem query_answered (h : Knows s locks i link g)
    (hahead : s.Ahead) (sql : Sql)
    (hallow : g.Allows d sql) (hfinds : FindsOpen d s sql) :
    let r := s.query d link sql
    ∃ n, Answered s r.2.1 (locks.after i r.2.1 r.2.2 (lockOf d s sql)) i r.2.2 g
      (g.served d sql r.1 n) := by
  intro r
  cases sql with
  | startTransaction =>
      have hin : g.inTx = false := hallow
      obtain ⟨hfound, hfresh⟩ := h.idle hin
      have hflagged : g.flagged = [] :=
        List.eq_nil_iff_forall_not_mem.mpr fun a ha => by simpa [hfound] using (h.flagged a ha).1
      have htx : link.tx = Option.none := by simpa [hin] using h.inTx
      have hview : s.view link = s.db := by rw [Server.view, htx]
      refine ⟨0, ⟨rfl, h.insertId, ?_, ?_, ?_, ?_, ?_, ?_⟩, ?_, le_rfl, ?_, fun a ha => Or.inl ha⟩
      · exact fun a ha => absurd ha (h.not_owns hin a)
      · simp [Know.served, hfound]
      · simp [Know.served, hfresh]
      · rintro ws hws w hw
        obtain rfl := Option.some.inj hws
        cases hw
      · simp [Know.served, hflagged]
      · exact fun hout => (Bool.false_ne_true hout.symm).elim
      · intro a _
        show s.db.Alike (s.view link) a
        rw [hview]
        exact .refl _ _
      · intro a ha
        have ha : ((s.view link).account? a).isSome := ha
        rw [hview] at ha
        exact hahead a ha
  | commit => exact ⟨0, h.answered_commit hahead⟩
  | rollback =>
      exact ⟨0, .none _ _ _ rfl h.insertId rfl rfl rfl rfl, fun a _ => .refl _ _, le_rfl, hahead,
        fun a ha => Or.inl ha⟩
  | selectBalance account cond forUpdate =>
      cases forUpdate with
      | false => exact ⟨0, h.answered_of_reads hahead rfl⟩
      | true =>
          by_cases hfind : g.inTx ∧ r.1 ≠ []
          · obtain ⟨hopen, hsome⟩ := h.isOpen_of_find hallow hfinds hfind.2
            have hserved : g.served d (.selectBalance account cond true) r.1 0
                = { g with found := Server.refersTo d account :: g.found } := if_pos hfind
            have hr : r.2 = ({ s with clock := s.clock + 1 }, link) := query_of_reads d s link rfl
            refine ⟨0, ?_⟩
            rw [hserved, hr]
            exact h.answered_of_found hahead hfind.1 hopen hsome
          · have hserved : g.served d (.selectBalance account cond true) r.1 0 = g := if_neg hfind
            refine ⟨0, ?_⟩
            rw [hserved]
            exact h.answered_of_reads hahead rfl
  | insertAccount name pass id balance =>
      exact ⟨_, h.answered_insertAccount hahead hallow⟩
  | insertTrans accountId other abstractId money balance =>
      exact ⟨s.nextTransId, h.answered_of_write
        (w := .insertTrans ⟨s.nextTransId, accountId, other, abstractId, money, balance, d.time s.clock⟩)
        hahead _ rfl hallow.1 rfl hallow.2 rfl _ _ rfl rfl rfl rfl rfl fun a ha => Or.inl ha⟩
  | updateBalance account cents =>
      exact ⟨0, h.answered_of_write (w := .addBalance (Server.refersTo d account) cents) hahead _ rfl
        hallow.1 rfl hallow.2 rfl _ _ h.insertId rfl rfl rfl rfl fun a ha => Or.inl ha⟩
  | updateFlag accountId =>
      refine ⟨0, h.answered_of_write (w := .setFlag accountId) hahead _ rfl hallow.1 rfl
        (Or.inl hallow.2) rfl _ _ h.insertId rfl rfl rfl rfl fun a ha => ?_⟩
      rcases List.mem_cons.mp ha with rfl | ha
      · exact Or.inr ⟨hallow.2, rfl⟩
      · exact Or.inl ha
  | updatePass accountId pass =>
      have hin : g.inTx = false := hallow
      have htx : link.tx = Option.none := by simpa [hin] using h.inTx
      obtain ⟨hfound, hfresh⟩ := h.idle hin
      have hflagged : g.flagged = [] :=
        List.eq_nil_iff_forall_not_mem.mpr fun a ha => by simpa [hfound] using (h.flagged a ha).1
      have hr : r.2 = ({ s.count (.updatePass accountId pass) with
          db := s.db.write (.setPass accountId (d.quoted 16 pass)) }, link) := by
        obtain ⟨connected, reconnect, tx, insertId⟩ := link
        obtain rfl : tx = Option.none := htx
        rfl
      refine ⟨0, ?_⟩
      rw [hr]
      refine ⟨.none _ _ _ htx h.insertId hin hfound hfresh hflagged,
        fun a _ => Database.setPass_alike _ _ a, le_rfl, fun a ha => hahead a ?_,
        fun a ha => Or.inl ha⟩
      rw [Option.isSome_iff_ne_none, Ne, (Database.setPass_alike _ _ a).none] at ha
      exact Option.isSome_iff_ne_none.mpr ha
  | _ => exact ⟨0, h.answered_of_reads hahead rfl⟩

theorem answered_same (h : Knows s locks i link g)
    (hahead : s.Ahead) (link' : Link)
    (htx : link'.tx = link.tx) (hid : link'.insertId = link.insertId) (row : Option Int) :
    Answered s s (locks.after i s link' row) i link' g g :=
  ⟨h.same s rfl rfl htx hid row, fun _ _ => .refl _ _, le_rfl, hahead, fun _ ha => Or.inl ha⟩

theorem answered_renewed (g : Know) (hahead : s.Ahead)
    (locks' : Locks) : Answered s s locks' i .closed g g.renewed :=
  ⟨.none _ _ _ rfl rfl rfl rfl rfl rfl, fun _ _ => .refl _ _, le_rfl, hahead, fun _ ha => Or.inl ha⟩

/-- **What a call does that a thread may make.** -/
theorem call_answered (h : Knows s locks i link g)
    (hahead : s.Ahead) (c : Call)
    (fault : Option Bytes) (hallow : (pact d).allow g c)
    (hfinds : fault = Option.none → ∀ sql, c = .query sql → FindsOpen d s sql) :
    let r := Bank.answer d (.ofFaults fun _ => fault) c ⟨s, link, 0, 0⟩
    ∃ g', (pact d).next g c r.1 g' ∧ Answered s r.2.server
      (locks.after i r.2.server r.2.link (if fault = Option.none then lockOfCall d s c else Option.none))
      i r.2.link g g' := by
  intro r
  cases c with
  | init =>
      refine ⟨g.renewed, ?_, ?_⟩
      · cases fault <;> rfl
      · cases fault <;> exact answered_renewed g hahead _
  | optionReconnect => exact ⟨g, rfl, h.answered_same hahead { link with reconnect := true } rfl rfl _⟩
  | optionCharset => exact ⟨g, rfl, h.answered_same hahead link rfl rfl _⟩
  | connect =>
      refine ⟨g, ?_, ?_⟩
      · cases fault <;> rfl
      · cases fault with
        | some e => exact h.answered_same hahead link rfl rfl _
        | none => exact h.answered_same hahead { link with connected := true } rfl rfl _
  | insertId => exact ⟨g, ⟨h.insertId, rfl⟩, h.answered_same hahead link rfl rfl _⟩
  | close => exact ⟨g.renewed, rfl, answered_renewed g hahead _⟩
  | query sql =>
      cases fault with
      | some e => exact ⟨g, rfl, h.answered_same hahead link rfl rfl _⟩
      | none =>
          by_cases hlink : (link.connected || link.reconnect) = true
          · have hr : r = (.ok (s.query d { link with connected := true } sql).1,
                ⟨(s.query d { link with connected := true } sql).2.1,
                  (s.query d { link with connected := true } sql).2.2, 1, 1⟩) := if_pos hlink
            have h' : Knows s locks i { link with connected := true } g :=
              ⟨h.inTx, h.insertId, h.locked, h.found, h.fresh, h.writes, h.flagged, h.idle⟩
            obtain ⟨n, hn⟩ := h'.query_answered hahead sql hallow (hfinds rfl sql rfl)
            refine ⟨g.served d sql (s.query d { link with connected := true } sql).1 n, ?_, ?_⟩
            · rw [hr]
              exact ⟨n, rfl⟩
            · rw [hr]
              exact hn
          · have hr : r = (.error [], ⟨s, link, 1, 1⟩) := if_neg hlink
            refine ⟨g, ?_, ?_⟩
            · rw [hr]
              rfl
            · rw [hr]
              exact h.answered_same hahead link rfl rfl _

end Knows

end Windows
