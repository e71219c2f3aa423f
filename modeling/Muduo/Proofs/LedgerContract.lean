/-
A thread's part of the ledger.

A thread knows what the writes of its transaction have done so far to the difference between
balances and rows, which accounts it has found, and the number of its last row.  `ledger` is the
contract of a thread that commits only when the difference is nothing.  Every member of
`BankService` keeps to it, whatever its calls are answered.
-/
import Muduo.Proofs.BankThreads
import Muduo.Proofs.LedgerGap

namespace Windows

open Lib Bank MysqlDB BankService

/-! ### The contract -/

/-- What a thread knows of its transaction. -/
structure Entry where
  inTx : Bool
  /-- It has inserted an account. -/
  opened : Bool
  /-- Accounts it has found. -/
  found : List Int
  /-- What its writes have done to the balances, less what they have done to the rows. -/
  due : Int → Int
  insertId : Int

namespace Entry

/-- Without a transaction. -/
def ended (g : Entry) : Entry := ⟨false, false, [], 0, g.insertId⟩

/-- A new connection, or none. -/
def renewed : Entry := ⟨false, false, [], 0, 0⟩

/-- Behind a statement that was answered with `rs`; `n` is the number of a new row. -/
def served (d : Dialect) (g : Entry) (sql : Sql) (rs : Recordset) (n : Int) : Entry :=
  match sql with
  | .startTransaction => { g.ended with inTx := true }
  | .commit | .rollback => g.ended
  | .selectBalance account _ _ =>
      if g.opened = false ∧ rs ≠ [] then { g with found := Server.refersTo d account :: g.found }
      else g
  | .insertAccount _ _ _ balance =>
      { g with opened := true, due := g.due + amountOn n balance, insertId := n }
  | .insertTrans accountId _ abstractId money _ =>
      { g with due := g.due + -amountOn accountId (bookedAs abstractId money), insertId := n }
  | .updateBalance account cents =>
      { g with due := g.due + amountOn (Server.refersTo d account) cents }
  | _ => g

/-- The statements a thread may send. -/
def Allows (d : Dialect) (g : Entry) : Sql → Prop
  | .startTransaction => g.inTx = false
  | .commit => g.due = 0
  | .insertAccount .. | .insertTrans .. => g.inTx = true
  | .updateBalance account _ => g.inTx = true ∧ Server.refersTo d account ∈ g.found
  | _ => True

end Entry

/-- The contract of a thread that keeps its part of the ledger. -/
def ledger (d : Dialect) : Prog.Contract Call Reply Entry where
  allow := fun g c =>
    match c with
    | .query sql => g.Allows d sql
    | _ => True
  next := fun g c r g' =>
    match c, r with
    | .init, _ => g' = .renewed
    | .optionReconnect, _ => g' = g
    | .optionCharset, _ => g' = g
    | .connect, _ => g' = g
    | .query _, .error _ => g' = g
    | .query sql, .ok rs => ∃ n, g' = g.served d sql rs n
    | .insertId, r => r = g.insertId ∧ g' = g
    | .close, _ => g' = .renewed

namespace Entry

section

variable {d : Dialect} {l : Locals} {g : Entry}

/-- Whatever comes. -/
def anything {α : Type} : α → Locals → Entry → Prop := fun _ _ _ => True

theorem wp_mysqlQuery (hm : l.mysql = true) {sql : Sql} (hallow : g.Allows d sql)
    {Q : Except Bytes Recordset → Locals → Entry → Prop} (hfail : ∀ e, Q (.error e) l g)
    (hok : ∀ rs n, Q (.ok rs) l (g.served d sql rs n)) :
    Proc.wp (ledger d) (mysqlQuery sql) Q anything l g := by
  refine (mysqlQuery_spec hm).mpr ⟨hallow, fun r g' hn => ?_⟩
  cases r with
  | error e =>
      obtain rfl : g' = g := hn
      exact hfail e
  | ok rs =>
      obtain ⟨n, rfl⟩ : ∃ n, g' = g.served d sql rs n := hn
      exact hok rs n

theorem wp_querySQL (hm : l.mysql = true) {sql : Sql} (hallow : g.Allows d sql)
    {Q : Recordset → Locals → Entry → Prop} (hok : ∀ rs n, Q rs l (g.served d sql rs n)) :
    Proc.wp (ledger d) (querySQL sql) Q anything l g := by
  unfold querySQL
  rw [Proc.wp_bind]
  exact wp_mysqlQuery hm hallow (fun _ => trivial) hok

theorem wp_execSQL (hm : l.mysql = true) {sql : Sql} (hallow : g.Allows d sql)
    {Q : Unit → Locals → Entry → Prop} (hok : ∀ rs n, Q () l (g.served d sql rs n)) :
    Proc.wp (ledger d) (execSQL sql) Q anything l g := by
  unfold execSQL
  rw [Proc.wp_bind]
  exact wp_querySQL hm hallow hok

theorem wp_getInsertId {Q : Int → Locals → Entry → Prop} (h : Q g.insertId l g) :
    Proc.wp (ledger d) getInsertId Q anything l g := by
  refine (Proc.wp_call (ledger d) anything l g Call.insertId Q).mpr ⟨trivial, fun r g' hn => ?_⟩
  obtain ⟨rfl, rfl⟩ : r = g.insertId ∧ g' = g := hn
  exact h

theorem wp_getItem {rs : Recordset} {nRow : Nat} {column : Field}
    {Q : Cell → Locals → Entry → Prop} (h : ∀ cell, Q cell l g) :
    Proc.wp (ledger d) (getItem rs nRow column) Q anything l g :=
  getItem_spec trivial fun _ _ cell _ => h cell

theorem wp_close {l : Locals} {g : Entry} :
    Proc.wp (ledger d) MysqlDB.close anything anything l g :=
  close_spec trivial (fun _ _ _ => trivial) fun _ => trivial

theorem opens (d : Dialect) (g : Entry) : Opens (ledger d) g renewed where
  init := ⟨trivial, fun _ _ h => h⟩
  optionReconnect := ⟨trivial, fun _ _ h => h⟩
  optionCharset := ⟨trivial, fun _ _ h => h⟩
  connect := ⟨trivial, fun _ _ h => h⟩
  close := trivial

theorem wp_connect {Q : Unit → Locals → Entry → Prop} (h : Q () { l with mysql := true } renewed) :
    Proc.wp (ledger d) connect Q anything l g :=
  connect_spec (opens d g) h fun _ _ _ => trivial

theorem wp_rollback {Q : Unit → Locals → Entry → Prop} (h : Q () l g) :
    Proc.wp (ledger d) rollback Q anything l g := by
  unfold rollback
  rw [Proc.wp_bind]
  by_cases hm : l.mysql = true
  · have hallow : g.Allows d .rollback := trivial
    exact wp_mysqlQuery hm hallow (fun _ => h) fun _ _ => trivial
  · obtain ⟨_ | _, account, interest, result⟩ := l
    · exact trivial
    · exact absurd rfl hm

/-- A query that has to find a row, and what comes when it has. -/
theorem wp_found (hm : l.mysql = true) {sql : Sql} (hallow : g.Allows d sql) {code : Int}
    {rest : Recordset → Service Int}
    (h : ∀ rs n, rs ≠ [] → Proc.wp (ledger d) (rest rs) anything anything l (g.served d sql rs n)) :
    Proc.wp (ledger d) (querySQL sql)
      (fun rs l g => Proc.wp (ledger d) (if rs.length < 1 then pure code else rest rs) anything
        anything l g)
      anything l g := by
  refine wp_querySQL hm hallow fun rs n => ?_
  by_cases hrs : rs.length < 1
  · rw [if_pos hrs]
    exact trivial
  · rw [if_neg hrs]
    exact h rs n (List.ne_nil_of_length_pos (by omega))

/-- A `select balance` that has found its row, before any account was inserted. -/
theorem wp_balance (hm : l.mysql = true) (hopened : g.opened = false) {account : AccountRef}
    {cond : AccountCond} {forUpdate : Bool} {code : Int} {rest : Recordset → Service Int}
    (h : ∀ rs, Proc.wp (ledger d) (rest rs) anything anything l
      { g with found := Server.refersTo d account :: g.found }) :
    Proc.wp (ledger d) (querySQL (.selectBalance account cond forUpdate))
      (fun rs l g => Proc.wp (ledger d) (if rs.length < 1 then pure code else rest rs) anything
        anything l g)
      anything l g := by
  have hallow : g.Allows d (.selectBalance account cond forUpdate) := trivial
  refine wp_found hm hallow fun rs n hrs => ?_
  rw [served, if_pos ⟨hopened, hrs⟩]
  exact h rs

/-! ### The members of `BankService` -/

theorem wp_member {p handler : Service Int}
    (hhandler : ∀ l g, Proc.wp (ledger d) handler anything anything l g)
    (hp : Proc.wp (ledger d) p anything anything l g) :
    Proc.wp (ledger d) (withDb (catchException p handler)) anything anything l g :=
  block_spec hp (fun _ _ _ _ => wp_close)
    (fun _ l g _ => Proc.wp_mono (fun _ _ _ _ => wp_close) (fun _ _ _ _ => wp_close) (hhandler l g))
    fun _ _ _ _ => wp_close

/-- A member that answers an exception with -1. -/
theorem wp_reads {p : Service Int} (hp : Proc.wp (ledger d) p anything anything l g) :
    Proc.wp (ledger d) (withDb (catchException p (return -1))) anything anything l g :=
  wp_member (fun _ _ => trivial) hp

/-- One that rolls back before. -/
theorem wp_books {p : Service Int} (hp : Proc.wp (ledger d) p anything anything l g) :
    Proc.wp (ledger d) (withDb (catchException p (do rollback; return -1))) anything anything
      l g := by
  refine wp_member (fun l g => ?_) hp
  rw [Proc.wp_bind]
  exact wp_rollback trivial

variable (sys : System)

theorem userLogin_keeps (user pass : Bytes) :
    Proc.wp (ledger d) (userLogin user pass) anything anything l g := by
  refine wp_reads ?_
  simp only [Proc.wp_bind]
  exact wp_connect (wp_found rfl (by trivial) fun rs n _ => trivial)

theorem balanceInquiry_keeps :
    Proc.wp (ledger d) (balanceInquiry sys) anything anything l g := by
  refine wp_reads ?_
  simp only [Proc.wp_bind, Proc.wp_get]
  refine wp_connect (wp_balance rfl rfl fun rs => ?_)
  simp only [Proc.wp_bind]
  refine wp_balance rfl rfl fun rs => ?_
  simp only [Proc.wp_bind, Proc.wp_modify]
  refine wp_getItem fun balance => wp_querySQL rfl (by trivial) fun rs n => ?_
  exact wp_getItem fun name => wp_getItem fun opDate => trivial

theorem changePassword_keeps (newPass : Bytes) :
    Proc.wp (ledger d) (changePassword newPass) anything anything l g := by
  refine wp_reads ?_
  simp only [Proc.wp_bind, Proc.wp_get]
  refine wp_connect (wp_balance rfl rfl fun rs => ?_)
  simp only [Proc.wp_bind]
  refine wp_balance rfl rfl fun rs => ?_
  simp only [Proc.wp_bind]
  exact wp_execSQL rfl (by trivial) fun rs n => trivial

theorem wp_pushDetails (total : Int) (rs : Recordset) (rows : List Nat) :
    ∀ (l : Locals) (g : Entry), Proc.wp (ledger d) (pushDetails sys total rs rows) anything anything
      l g := by
  induction rows with
  | nil => exact fun _ _ => trivial
  | cons i rest ih =>
      intro l g
      simp only [pushDetails, toDetail, Proc.wp_bind, Proc.wp_modify]
      refine wp_getItem fun _ => wp_getItem fun _ => wp_getItem fun _ => wp_getItem fun _ => ?_
      exact wp_getItem fun _ => wp_getItem fun _ => ih _ _

theorem queryBill_keeps (filter : BillFilter) (page : Int) :
    Proc.wp (ledger d) (queryBill sys filter page) anything anything l g := by
  refine wp_reads ?_
  simp only [Proc.wp_bind]
  refine wp_connect (wp_querySQL rfl (by trivial) fun rs n => wp_getItem fun total => ?_)
  refine wp_found rfl (by trivial) fun rs n _ => ?_
  simp only [Proc.wp_bind]
  exact Proc.wp_mono (fun _ _ _ _ => trivial) (fun _ _ _ _ => trivial) (wp_pushDetails sys _ _ _ _ _)

/-- The amount in the row is the balance the account is opened with. -/
theorem openAccount_keeps : Proc.wp (ledger d) openAccount anything anything l g := by
  refine wp_books ?_
  simp only [Proc.wp_bind, Proc.wp_get, Proc.wp_modify, startTransaction, commit]
  refine wp_connect (wp_execSQL rfl (by rfl) fun _ _ => wp_execSQL rfl (by rfl) fun _ n => ?_)
  refine wp_getInsertId (wp_execSQL rfl (by rfl) fun _ _ => ?_)
  refine wp_execSQL rfl ?_ fun _ _ => wp_querySQL rfl (by trivial) fun rs _ => ?_
  · exact add_amountOn_neg _ _
  · exact wp_getItem fun opDate => trivial

theorem deposit_keeps : Proc.wp (ledger d) (deposit sys) anything anything l g := by
  refine wp_books ?_
  simp only [Proc.wp_bind, Proc.wp_get, startTransaction]
  refine wp_connect (wp_execSQL rfl (by rfl) fun _ _ => ?_)
  refine wp_balance rfl rfl fun rs => ?_
  simp only [Proc.wp_bind, Proc.wp_modify, commit]
  refine wp_getItem fun balance => ?_
  refine wp_execSQL rfl (by exact ⟨rfl, List.mem_cons_self⟩) fun _ _ => ?_
  refine wp_execSQL rfl (by rfl) fun _ _ => wp_getInsertId (wp_execSQL rfl ?_ fun _ _ => ?_)
  · exact add_amountOn_neg _ _
  · refine wp_querySQL rfl (by trivial) fun rs _ => wp_getItem fun name => ?_
    exact wp_getItem fun opDate => trivial

theorem withDraw_keeps : Proc.wp (ledger d) (withDraw sys) anything anything l g := by
  refine wp_books ?_
  simp only [Proc.wp_bind, Proc.wp_get, startTransaction]
  refine wp_connect (wp_execSQL rfl (by rfl) fun _ _ => ?_)
  refine wp_balance rfl rfl fun rs => ?_
  simp only [Proc.wp_bind]
  refine wp_balance rfl rfl fun rs => ?_
  simp only [Proc.wp_bind]
  refine wp_getItem fun balance => ?_
  split
  · exact trivial
  simp only [Proc.wp_bind, Proc.wp_modify, commit]
  refine wp_execSQL rfl (by exact ⟨rfl, List.mem_cons_self⟩) fun _ _ => ?_
  refine wp_execSQL rfl (by rfl) fun _ _ => wp_getInsertId (wp_execSQL rfl ?_ fun _ _ => ?_)
  · exact add_amountOn_neg _ _
  · refine wp_querySQL rfl (by trivial) fun rs _ => wp_getItem fun name => ?_
    exact wp_getItem fun opDate => trivial

/-- The two sides of a transfer, which may be one account. -/
theorem transfer_keeps {other : Bytes} (hother : Convert.stringToInt sys.junk other = d.idOf other) :
    Proc.wp (ledger d) (transfer sys other) anything anything l g := by
  refine wp_books ?_
  simp only [Proc.wp_bind, Proc.wp_get, startTransaction]
  refine wp_connect (wp_execSQL rfl (by rfl) fun _ _ => ?_)
  refine wp_balance rfl rfl fun rs => ?_
  simp only [Proc.wp_bind]
  refine wp_balance rfl rfl fun rs => ?_
  simp only [Proc.wp_bind]
  refine wp_getItem fun balance => ?_
  split
  · exact trivial
  simp only [Proc.wp_bind]
  refine wp_balance rfl rfl fun rs => ?_
  simp only [Proc.wp_bind, Proc.wp_modify, commit, hother]
  refine wp_getItem fun balance2 => ?_
  refine wp_execSQL rfl (by exact ⟨rfl, List.mem_cons_of_mem _ List.mem_cons_self⟩) fun _ _ => ?_
  refine wp_execSQL rfl (by exact ⟨rfl, List.mem_cons_self⟩) fun _ _ => ?_
  refine wp_execSQL rfl (by rfl) fun _ _ => wp_getInsertId (wp_querySQL rfl (by trivial) fun rs _ => ?_)
  refine wp_execSQL rfl (by rfl) fun _ _ => wp_execSQL rfl ?_ fun _ _ => wp_getItem fun name => ?_
  · show (0 + amountOn l.account.accountId (-roundCents l.account.balance) +
      amountOn (d.idOf other) (roundCents l.account.balance) +
      -amountOn l.account.accountId (-roundCents l.account.balance) +
      -amountOn (d.idOf other) (roundCents l.account.balance) : Int → Int) = 0
    abel
  · exact wp_getItem fun opDate => trivial

theorem closeAccount_keeps : Proc.wp (ledger d) (closeAccount sys) anything anything l g := by
  refine wp_reads ?_
  simp only [Proc.wp_bind, Proc.wp_get, startTransaction]
  refine wp_connect (wp_execSQL rfl (by rfl) fun _ _ => ?_)
  refine wp_balance rfl rfl fun rs => ?_
  simp only [Proc.wp_bind]
  refine wp_balance rfl rfl fun rs => ?_
  simp only [Proc.wp_bind, Proc.wp_modify, commit]
  refine wp_getItem fun balance => wp_querySQL rfl (by trivial) fun rs _ => ?_
  refine wp_getItem fun interest => wp_execSQL rfl (by trivial) fun _ _ => ?_
  refine wp_execSQL rfl (by rfl) fun _ _ => wp_querySQL rfl (by trivial) fun rs _ => ?_
  exact wp_getItem fun name => wp_getItem fun opDate => trivial

end

/-- **Every operation keeps its part of the ledger**, whatever its calls are answered. -/
theorem program_keeps {sys : System} {d : Dialect} {op : Operation} (hop : op.Plain sys d)
    (g : Entry) : (op.program sys).wp (ledger d) (fun _ _ => True) g := by
  have hend : ∀ {p : Service Int} {l : Locals}, Proc.wp (ledger d) p anything anything l g →
      (p.start l).wp (ledger d) (fun _ _ => True) g :=
    fun h => Prog.wp_mono (fun _ _ _ => trivial) h
  cases op with
  | userLogin user pass => exact hend (userLogin_keeps user pass)
  | openAccount a => exact hend openAccount_keeps
  | deposit a => exact hend (deposit_keeps sys)
  | withDraw a => exact hend (withDraw_keeps sys)
  | transfer a other => exact hend (transfer_keeps sys hop)
  | balanceInquiry a => exact hend (balanceInquiry_keeps sys)
  | changePassword a newPass => exact hend (changePassword_keeps newPass)
  | queryBill filter page => exact hend (queryBill_keeps sys filter page)
  | closeAccount a => exact hend (closeAccount_keeps sys)

end Entry

end Windows
