/-
What a thread of the server may rely on, and what it does to the others.

Seen from one thread, the rows it has locked while they were open, and the rows it has
inserted, are its own.  `Pact` is the contract between a thread and the rest of the server:
a thread writes only to rows that are its own, and nobody else writes to those.  Every
member of `BankService` keeps to it, and closes an account at most when it says so.
-/
import Muduo.Proofs.MysqlRules
import Muduo.Windows.BankThreads

namespace Windows

open Lib Bank MysqlDB BankService

/-! ### The contract -/

/-- What a thread knows. -/
structure Know where
  inTx : Bool
  /-- Rows it has locked, which were open then. -/
  found : List Int
  /-- Accounts it has inserted. -/
  fresh : List Int
  insertId : Int
  /-- Accounts it has flagged as closed. -/
  flagged : List Int
  /-- Accounts for which it has committed that. -/
  closed : List Int

namespace Know

/-- Before its first request. -/
def start : Know := ⟨false, [], [], 0, [], []⟩

/-- A row that nobody else will write to. -/
def Owns (g : Know) (accountId : Int) : Prop := accountId ∈ g.found ∨ accountId ∈ g.fresh

/-- The transaction is over. -/
def ended (g : Know) : Know := ⟨false, [], [], g.insertId, [], g.closed⟩

/-- A new connection, or none. -/
def renewed (g : Know) : Know := ⟨false, [], [], 0, [], g.closed⟩

/-- Behind a statement that was answered with `rs`; `n` is the number of a new row. -/
def served (d : Dialect) (g : Know) (sql : Sql) (rs : Recordset) (n : Int) : Know :=
  match sql with
  | .startTransaction => { g with inTx := true }
  | .commit => { g.ended with closed := g.flagged ++ g.closed }
  | .rollback => g.ended
  | .selectBalance account _ true =>
      if g.inTx ∧ rs ≠ [] then { g with found := Server.refersTo d account :: g.found } else g
  | .insertAccount .. => { g with fresh := n :: g.fresh, insertId := n }
  | .insertTrans .. => { g with insertId := n }
  | .updateFlag accountId => { g with flagged := accountId :: g.flagged }
  | _ => g

/-- The statements a thread may send. -/
def Allows (d : Dialect) (g : Know) : Sql → Prop
  | .startTransaction => g.inTx = false
  | .selectBalance _ _ true => g.fresh = []
  | .insertAccount .. => g.inTx = true
  | .insertTrans accountId .. => g.inTx = true ∧ g.Owns accountId
  | .updateBalance account _ => g.inTx = true ∧ g.Owns (Server.refersTo d account)
  | .updatePass .. => g.inTx = false
  | .updateFlag accountId => g.inTx = true ∧ accountId ∈ g.found
  | _ => True

end Know

/-- The contract of a thread with the rest of the server. -/
def pact (d : Dialect) : Prog.Contract Call Reply Know where
  allow := fun g c =>
    match c with
    | .query sql => g.Allows d sql
    | _ => True
  next := fun g c r g' =>
    match c, r with
    | .init, _ => g' = g.renewed
    | .optionReconnect, _ => g' = g
    | .optionCharset, _ => g' = g
    | .connect, _ => g' = g
    | .query _, .error _ => g' = g
    | .query sql, .ok rs => ∃ n, g' = g.served d sql rs n
    | .insertId, r => r = g.insertId ∧ g' = g
    | .close, _ => g' = g.renewed

/-! ### The library under the contract -/

section

variable {d : Dialect} {l : Locals} {g : Know} {α : Type}

/-- Whatever exception it may be. -/
def leaves : Signal → Locals → Know → Prop := fun _ _ _ => True

theorem wp_mysqlQuery (hm : l.mysql = true) {sql : Sql} (hallow : g.Allows d sql)
    {Q : Except Bytes Recordset → Locals → Know → Prop} (hfail : ∀ e, Q (.error e) l g)
    (hok : ∀ rs n, Q (.ok rs) l (g.served d sql rs n)) {E : Signal → Locals → Know → Prop} :
    Proc.wp (pact d) (mysqlQuery sql) Q E l g := by
  refine (mysqlQuery_spec hm).mpr ⟨hallow, fun r g' hn => ?_⟩
  cases r with
  | error e =>
      obtain rfl : g' = g := hn
      exact hfail e
  | ok rs =>
      obtain ⟨n, rfl⟩ : ∃ n, g' = g.served d sql rs n := hn
      exact hok rs n

theorem wp_querySQL (hm : l.mysql = true) {sql : Sql} (hallow : g.Allows d sql)
    {Q : Recordset → Locals → Know → Prop} (hok : ∀ rs n, Q rs l (g.served d sql rs n)) :
    Proc.wp (pact d) (querySQL sql) Q leaves l g := by
  unfold querySQL
  rw [Proc.wp_bind]
  exact wp_mysqlQuery hm hallow (fun _ => trivial) hok

theorem wp_execSQL (hm : l.mysql = true) {sql : Sql} (hallow : g.Allows d sql)
    {Q : Unit → Locals → Know → Prop} (hok : ∀ rs n, Q () l (g.served d sql rs n)) :
    Proc.wp (pact d) (execSQL sql) Q leaves l g := by
  unfold execSQL
  rw [Proc.wp_bind]
  exact wp_querySQL hm hallow hok

theorem wp_getInsertId {Q : Int → Locals → Know → Prop} (h : Q g.insertId l g) :
    Proc.wp (pact d) getInsertId Q leaves l g := by
  refine (Proc.wp_call (pact d) leaves l g Call.insertId Q).mpr ⟨trivial, fun r g' hn => ?_⟩
  obtain ⟨rfl, rfl⟩ : r = g.insertId ∧ g' = g := hn
  exact h

theorem wp_getItem {rs : Recordset} {nRow : Nat} {column : Field} {Q : Cell → Locals → Know → Prop}
    (h : ∀ cell, Q cell l g) : Proc.wp (pact d) (getItem rs nRow column) Q leaves l g :=
  getItem_spec trivial fun _ _ cell _ => h cell

theorem wp_close {Q : Unit → Locals → Know → Prop} {E : Signal → Locals → Know → Prop}
    (hopen : Q () { l with mysql := false } g.renewed) (hnull : Q () l g) :
    Proc.wp (pact d) close Q E l g := by
  refine close_spec trivial (fun r g' hn => ?_) fun _ => hnull
  obtain rfl : g' = g.renewed := hn
  exact hopen

theorem opens (d : Dialect) (g : Know) : Opens (pact d) g g.renewed where
  init := ⟨trivial, fun _ _ h => h⟩
  optionReconnect := ⟨trivial, fun _ _ h => h⟩
  optionCharset := ⟨trivial, fun _ _ h => h⟩
  connect := ⟨trivial, fun _ _ h => h⟩
  close := trivial

theorem wp_connect {Q : Unit → Locals → Know → Prop}
    (h : Q () { l with mysql := true } g.renewed) : Proc.wp (pact d) connect Q leaves l g :=
  connect_spec (opens d g) h fun _ _ _ => trivial

/-- A rollback may work, fail, or end the process. -/
theorem wp_rollback {Q : Unit → Locals → Know → Prop} (h : Q () l g) :
    Proc.wp (pact d) rollback Q leaves l g := by
  unfold rollback
  rw [Proc.wp_bind]
  by_cases hm : l.mysql = true
  · have hallow : g.Allows d .rollback := trivial
    exact wp_mysqlQuery hm hallow (fun _ => h) fun _ _ => trivial
  · obtain ⟨_ | _, account, interest, result⟩ := l
    · exact trivial
    · exact absurd rfl hm

/-- A `select .. for update` that has found its row. -/
theorem Know.served_found {rs : Recordset} (hrs : ¬ rs.length < 1) (htx : g.inTx = true)
    (account : AccountRef) (cond : AccountCond) (n : Int) :
    g.served d (.selectBalance account cond true) rs n
      = { g with found := Server.refersTo d account :: g.found } := by
  have hne : rs ≠ [] := by
    rintro rfl
    exact hrs Nat.zero_lt_one
  exact if_pos ⟨htx, hne⟩

/-- A query that has to find a row, and what comes when it has. -/
theorem wp_found (hm : l.mysql = true) {sql : Sql} (hallow : g.Allows d sql) {code : Int}
    {rest : Recordset → Service Int} {Q : Int → Locals → Know → Prop} (hcode : ∀ g, Q code l g)
    (h : ∀ rs n, ¬ rs.length < 1 →
      Proc.wp (pact d) (rest rs) Q leaves l (g.served d sql rs n)) :
    Proc.wp (pact d) (querySQL sql)
      (fun rs l g => Proc.wp (pact d) (if rs.length < 1 then pure code else rest rs) Q leaves l g)
      leaves l g := by
  refine wp_querySQL hm hallow fun rs n => ?_
  split
  · exact hcode _
  · exact h rs n ‹_›

/-- The same `for update`: the row that is found is the thread's own from then on. -/
theorem wp_locked (hm : l.mysql = true) (htx : g.inTx = true) {account : AccountRef}
    {cond : AccountCond} (hallow : g.Allows d (.selectBalance account cond true)) {code : Int}
    {rest : Recordset → Service Int} {Q : Int → Locals → Know → Prop} (hcode : ∀ g, Q code l g)
    (h : ∀ rs, Proc.wp (pact d) (rest rs) Q leaves l
      { g with found := Server.refersTo d account :: g.found }) :
    Proc.wp (pact d) (querySQL (.selectBalance account cond true))
      (fun rs l g => Proc.wp (pact d) (if rs.length < 1 then pure code else rest rs) Q leaves l g)
      leaves l g := by
  refine wp_found hm hallow hcode fun rs n hrs => ?_
  rw [Know.served_found hrs htx]
  exact h rs

/-! ### The members of `BankService` -/

/-- What is shown of a member: its answer, and the accounts that its thread has closed. -/
theorem wp_member {p handler : Service Int} {P : Int → List Int → Prop}
    (hhandler : ∀ l g, Proc.wp (pact d) handler (fun r _ g => P r g.closed) leaves l g)
    (hp : Proc.wp (pact d) p (fun r _ g => P r g.closed) leaves l g) :
    Proc.wp (pact d) (withDb (catchException p handler)) (fun r _ g => P r g.closed) leaves l g := by
  have hclose : ∀ {r : Int} {l g}, P r g.closed →
      Proc.wp (pact d) close (fun _ _ g => P r g.closed) leaves l g :=
    fun h => wp_close h h
  have hleave : ∀ {l g}, Proc.wp (pact d) close (fun _ _ _ => True) leaves l g :=
    wp_close trivial trivial
  refine block_spec hp (fun r l g h => hclose h) (fun what l g _ => ?_) fun _ _ _ _ => hleave
  exact Proc.wp_mono (fun r l g h => hclose h) (fun _ _ _ _ => hleave) (hhandler l g)

/-- A member of which nothing more is to be shown than that it keeps to the contract, and
which answers an exception with -1. -/
theorem wp_reads {p : Service Int} (hp : Proc.wp (pact d) p (fun _ _ _ => True) leaves l g) :
    Proc.wp (pact d) (withDb (catchException p (return -1))) (fun _ _ _ => True) leaves l g :=
  wp_member (P := fun _ _ => True) (fun _ _ => trivial) hp

/-- The same for one that rolls back. -/
theorem wp_books {p : Service Int} (hp : Proc.wp (pact d) p (fun _ _ _ => True) leaves l g) :
    Proc.wp (pact d) (withDb (catchException p (do rollback; return -1))) (fun _ _ _ => True)
      leaves l g := by
  refine wp_member (P := fun _ _ => True) (fun l g => ?_) hp
  rw [Proc.wp_bind]
  exact wp_rollback trivial

variable (sys : System)

theorem userLogin_keeps (user pass : Bytes) :
    Proc.wp (pact d) (userLogin user pass) (fun _ _ _ => True) leaves l g := by
  refine wp_reads ?_
  simp only [Proc.wp_bind]
  refine wp_connect (wp_querySQL rfl (by trivial) fun rs n => ?_)
  split <;> exact trivial

theorem balanceInquiry_keeps :
    Proc.wp (pact d) (balanceInquiry sys) (fun _ _ _ => True) leaves l g := by
  refine wp_reads ?_
  simp only [Proc.wp_bind, Proc.wp_get]
  refine wp_connect (wp_found rfl (by trivial) (fun _ => trivial) fun rs n _ => ?_)
  simp only [Proc.wp_bind]
  refine wp_found rfl (by trivial) (fun _ => trivial) fun rs n _ => ?_
  simp only [Proc.wp_bind, Proc.wp_modify]
  refine wp_getItem fun balance => wp_querySQL rfl (by trivial) fun rs n => ?_
  exact wp_getItem fun name => wp_getItem fun opDate => trivial

theorem changePassword_keeps (newPass : Bytes) :
    Proc.wp (pact d) (changePassword newPass) (fun _ _ _ => True) leaves l g := by
  refine wp_reads ?_
  simp only [Proc.wp_bind, Proc.wp_get]
  refine wp_connect (wp_found rfl (by trivial) (fun _ => trivial) fun rs n _ => ?_)
  simp only [Proc.wp_bind]
  refine wp_found rfl (by trivial) (fun _ => trivial) fun rs n _ => ?_
  simp only [Proc.wp_bind]
  exact wp_execSQL rfl (by rfl) fun rs n => trivial

theorem wp_pushDetails (total : Int) (rs : Recordset) (rows : List Nat) : ∀ (l : Locals) (g : Know),
    Proc.wp (pact d) (pushDetails sys total rs rows) (fun _ _ _ => True) leaves l g := by
  induction rows with
  | nil => exact fun _ _ => trivial
  | cons i rest ih =>
      intro l g
      simp only [pushDetails, toDetail, Proc.wp_bind, Proc.wp_modify]
      refine wp_getItem fun _ => wp_getItem fun _ => wp_getItem fun _ => wp_getItem fun _ => ?_
      exact wp_getItem fun _ => wp_getItem fun _ => ih _ _

theorem queryBill_keeps (filter : BillFilter) (page : Int) :
    Proc.wp (pact d) (queryBill sys filter page) (fun _ _ _ => True) leaves l g := by
  refine wp_reads ?_
  simp only [Proc.wp_bind]
  refine wp_connect (wp_querySQL rfl (by trivial) fun rs n => wp_getItem fun total => ?_)
  refine wp_found rfl (by trivial) (fun _ => trivial) fun rs n _ => ?_
  simp only [Proc.wp_bind]
  exact wp_pushDetails sys _ _ _ _ _

theorem openAccount_keeps :
    Proc.wp (pact d) openAccount (fun _ _ _ => True) leaves l g := by
  refine wp_books ?_
  simp only [Proc.wp_bind, Proc.wp_get, Proc.wp_modify, startTransaction, commit]
  refine wp_connect (wp_execSQL rfl (by rfl) fun _ _ => wp_execSQL rfl (by rfl) fun _ n => ?_)
  refine wp_getInsertId (wp_execSQL rfl (by exact ⟨rfl, Or.inr List.mem_cons_self⟩) fun _ _ => ?_)
  refine wp_execSQL rfl (by trivial) fun _ _ => wp_querySQL rfl (by trivial) fun rs _ => ?_
  exact wp_getItem fun opDate => trivial

theorem deposit_keeps : Proc.wp (pact d) (deposit sys) (fun _ _ _ => True) leaves l g := by
  refine wp_books ?_
  simp only [Proc.wp_bind, Proc.wp_get, startTransaction]
  refine wp_connect (wp_execSQL rfl (by rfl) fun _ _ => ?_)
  refine wp_locked rfl rfl (by rfl) (fun _ => trivial) fun rs => ?_
  simp only [Proc.wp_bind, Proc.wp_modify, commit]
  refine wp_getItem fun balance => ?_
  refine wp_execSQL rfl (by exact ⟨rfl, Or.inl List.mem_cons_self⟩) fun _ _ => ?_
  refine wp_execSQL rfl (by exact ⟨rfl, Or.inl List.mem_cons_self⟩) fun _ _ => ?_
  refine wp_getInsertId (wp_execSQL rfl (by trivial) fun _ _ => ?_)
  refine wp_querySQL rfl (by trivial) fun rs _ => wp_getItem fun name => ?_
  exact wp_getItem fun opDate => trivial

theorem withDraw_keeps : Proc.wp (pact d) (withDraw sys) (fun _ _ _ => True) leaves l g := by
  refine wp_books ?_
  simp only [Proc.wp_bind, Proc.wp_get, startTransaction]
  refine wp_connect (wp_execSQL rfl (by rfl) fun _ _ => ?_)
  refine wp_found rfl (by trivial) (fun _ => trivial) fun rs n _ => ?_
  simp only [Proc.wp_bind]
  refine wp_locked rfl rfl (by rfl) (fun _ => trivial) fun rs => ?_
  simp only [Proc.wp_bind]
  refine wp_getItem fun balance => ?_
  split
  · exact trivial
  simp only [Proc.wp_bind, Proc.wp_modify, commit]
  refine wp_execSQL rfl (by exact ⟨rfl, Or.inl List.mem_cons_self⟩) fun _ _ => ?_
  refine wp_execSQL rfl (by exact ⟨rfl, Or.inl List.mem_cons_self⟩) fun _ _ => ?_
  refine wp_getInsertId (wp_execSQL rfl (by trivial) fun _ _ => ?_)
  refine wp_querySQL rfl (by trivial) fun rs _ => wp_getItem fun name => ?_
  exact wp_getItem fun opDate => trivial

/-- The number that is written into the rows of the transfer is the other account's. -/
theorem transfer_keeps {other : Bytes} (hother : Convert.stringToInt sys.junk other = d.idOf other) :
    Proc.wp (pact d) (transfer sys other) (fun _ _ _ => True) leaves l g := by
  refine wp_books ?_
  simp only [Proc.wp_bind, Proc.wp_get, startTransaction]
  refine wp_connect (wp_execSQL rfl (by rfl) fun _ _ => ?_)
  refine wp_found rfl (by trivial) (fun _ => trivial) fun rs n _ => ?_
  simp only [Proc.wp_bind]
  refine wp_locked rfl rfl (by rfl) (fun _ => trivial) fun rs => ?_
  simp only [Proc.wp_bind]
  refine wp_getItem fun balance => ?_
  split
  · exact trivial
  simp only [Proc.wp_bind]
  refine wp_locked rfl rfl (by rfl) (fun _ => trivial) fun rs => ?_
  simp only [Proc.wp_bind, Proc.wp_modify, commit, hother]
  refine wp_getItem fun balance2 => ?_
  have hmine : l.account.accountId ∈ [d.idOf other, l.account.accountId] := by simp
  refine wp_execSQL rfl (by exact ⟨rfl, Or.inl hmine⟩) fun _ _ => ?_
  refine wp_execSQL rfl (by exact ⟨rfl, Or.inl List.mem_cons_self⟩) fun _ _ => ?_
  refine wp_execSQL rfl (by exact ⟨rfl, Or.inl hmine⟩) fun _ _ => ?_
  refine wp_getInsertId (wp_querySQL rfl (by trivial) fun rs _ => ?_)
  refine wp_execSQL rfl (by exact ⟨rfl, Or.inl List.mem_cons_self⟩) fun _ _ => ?_
  refine wp_execSQL rfl (by trivial) fun _ _ => wp_getItem fun name => ?_
  exact wp_getItem fun opDate => trivial

/-- An account is closed when `CloseAccount` says so. -/
theorem closeAccount_keeps :
    Proc.wp (pact d) (closeAccount sys) (fun r _ g => r = 0 → l.account.accountId ∈ g.closed)
      leaves l g := by
  refine wp_member (P := fun r closed => r = 0 → l.account.accountId ∈ closed)
    (fun _ _ h => absurd h (by decide)) ?_
  simp only [Proc.wp_bind, Proc.wp_get, startTransaction]
  refine wp_connect (wp_execSQL rfl (by rfl) fun _ _ => ?_)
  refine wp_found rfl (by trivial) (fun _ h => absurd h (by decide)) fun rs n _ => ?_
  simp only [Proc.wp_bind]
  refine wp_locked rfl rfl (by rfl) (fun _ h => absurd h (by decide)) fun rs => ?_
  simp only [Proc.wp_bind, Proc.wp_modify, commit]
  refine wp_getItem fun balance => wp_querySQL rfl (by trivial) fun rs _ => ?_
  refine wp_getItem fun interest => ?_
  refine wp_execSQL rfl (by exact ⟨rfl, List.mem_cons_self⟩) fun _ _ => ?_
  refine wp_execSQL rfl (by trivial) fun _ _ => wp_querySQL rfl (by trivial) fun rs _ => ?_
  exact wp_getItem fun name => wp_getItem fun opDate => fun _ => List.mem_cons_self

end

/-! ### The operations -/

namespace Operation

variable {sys : System} {d : Dialect}

/-- The text of an account number is read alike by the database and by `Convert`. -/
def Plain (sys : System) (d : Dialect) : Operation → Prop
  | transfer _ other => Convert.stringToInt sys.junk other = d.idOf other
  | _ => True

/-- What is promised of the end: `CloseAccount` with zero has closed the account. -/
def Ends (op : Operation) (r : Ending) (g : Know) : Prop :=
  ∀ a, op = closeAccount a → r.1 = .ok 0 → a.accountId ∈ g.closed

theorem ends_of_wp {op : Operation} (hop : ∀ a, op ≠ closeAccount a) {p : Service Int} {l : Locals}
    {g : Know} (h : Proc.wp (pact d) p (fun _ _ _ => True) leaves l g) :
    (p.start l).wp (pact d) op.Ends g :=
  Prog.wp_mono (fun _ _ _ a ha => absurd ha (hop a)) h

/-- **Every operation keeps to the contract**, whatever its calls are answered. -/
theorem program_keeps {op : Operation} (hop : op.Plain sys d) (g : Know) :
    (op.program sys).wp (pact d) op.Ends g := by
  cases op with
  | userLogin user pass => exact ends_of_wp (by simp) (userLogin_keeps user pass)
  | openAccount a => exact ends_of_wp (by simp) openAccount_keeps
  | deposit a => exact ends_of_wp (by simp) (deposit_keeps sys)
  | withDraw a => exact ends_of_wp (by simp) (withDraw_keeps sys)
  | transfer a other => exact ends_of_wp (by simp) (transfer_keeps sys hop)
  | balanceInquiry a => exact ends_of_wp (by simp) (balanceInquiry_keeps sys)
  | changePassword a newPass => exact ends_of_wp (by simp) (changePassword_keeps newPass)
  | queryBill filter page => exact ends_of_wp (by simp) (queryBill_keeps sys filter page)
  | closeAccount a =>
      refine Prog.wp_mono (fun r g h b hb hr => ?_) (closeAccount_keeps sys)
      obtain rfl : a = b := by simpa using hb
      obtain ⟨r, l⟩ := r
      obtain rfl : r = .ok 0 := hr
      exact h rfl

end Operation

end Windows
