/-
What the operations of the bank are to do, and how each of them ends.

A `Plan` is what one operation comes to on one database when nothing fails: the code it
answers with, how many calls it makes, which of them is the commit, and what it
changes.  The plans below say in a few lines what each operation is for, and
`Follows` that the code does that, and what it has done when one of its calls fails.

The ends of an operation follow from its plan by two rules, one for the operations that
answer a failure with -1 and one for those that first roll back: since `Rollback`
throws when it has succeeded, these answer with -1 only if the rollback fails too.
-/
import Muduo.Proofs.Session

namespace Bank

open Lib MysqlDB BankService Database

/-- What an operation comes to on a database when no call fails. -/
structure Plan where
  ret : Int
  /-- How many calls that can fail it makes. -/
  calls : Nat
  /-- The number of the call that commits, or `calls` if none does. -/
  commit : Nat
  writes : List Write
  /-- The balance it answers with. -/
  balance : Option ℚ
  /-- How many rows it answers with. -/
  rows : Nat := 0
  opened : 2 ≤ commit := by decide
  commit_le : commit ≤ calls := by decide
  two_lt : 2 < calls := by decide

namespace Plan

/-- An operation that changes nothing. -/
def reading (ret : Int) (calls : Nat) (h : 2 < calls := by decide) : Plan :=
  ⟨ret, calls, calls, [], none, 0, Nat.le_of_lt h, Nat.le_refl _, h⟩

/-- What is committed when `k` calls have succeeded. -/
def dbAt (plan : Plan) (db : Database) (k : Nat) : Database :=
  if k ≤ plan.commit then db else db.replay plan.writes

theorem dbAt_of_le {plan : Plan} {k : Nat} (h : k ≤ plan.commit) (db : Database) :
    plan.dbAt db k = db := if_pos h

theorem dbAt_of_lt {plan : Plan} {k : Nat} (h : plan.commit < k) (db : Database) :
    plan.dbAt db k = db.replay plan.writes := if_neg (by omega)

end Plan

/-! ### Ends of operations -/

/-- The variables at the start of an operation: no handle, and no rows yet. -/
structure Locals.New (l : Locals) : Prop where
  mysql : l.mysql = false
  result : l.result = []

/-- There are no rows yet when the connection is open. -/
theorem Locals.New.opened {l : Locals} (h : l.New) : ({ l with mysql := true } : Locals).result = [] :=
  h.result

variable (d : Dialect) (env : Env)

/-- The first of the calls from number `start` on to fail is the `k`-th. -/
def Env.FirstFault (env : Env) (start k : Nat) : Prop :=
  env.Clear start k ∧ env.fault (start + k) ≠ none

/-- All calls have succeeded, and the operation has come to its planned end. -/
def Completes (plan : Plan) (w₀ : World) (ret : Int) (l : Locals) (w : World) : Prop :=
  ret = plan.ret ∧ (∀ b ∈ plan.balance, l.account.balance = b) ∧ l.result.length = plan.rows ∧
    env.Clear w₀.calls plan.calls ∧ w.server.Fresh ∧
    w.server.db = plan.dbAt w₀.server.db plan.calls

/-- A call has failed, and the exception is on its way. -/
def Breaks (plan : Plan) (w₀ : World) (e : Signal) (l : Locals) (w : World) : Prop :=
  (∃ errmsg, e = dbError errmsg) ∧ ∃ k server, k < plan.calls ∧ Failed env w₀ k server w ∧
    server.db = plan.dbAt w₀.server.db k ∧ l.mysql = decide (2 ≤ k)

/-- The body of an operation follows a plan: it completes, or breaks where a call fails. -/
def Follows (plan : Plan) (p : Service Int) (l : Locals) (w₀ : World) : Prop :=
  Proc.wp (library d env) p (Completes env plan w₀) (Breaks env plan w₀) l w₀

/-- An operation that returns has done what was planned, or answers -1 for a failure. -/
def Returns (plan : Plan) (rollsBack : Bool) (w₀ : World) (ret : Int) (l : Locals) (w : World) :
    Prop :=
  w.server.Fresh ∧
    (ret = plan.ret ∧ (∀ b ∈ plan.balance, l.account.balance = b) ∧ l.result.length = plan.rows ∧
        env.Clear w₀.calls plan.calls ∧
        w.server.db = plan.dbAt w₀.server.db plan.calls ∨
      ret = -1 ∧ ∃ k, k < plan.calls ∧ env.FirstFault w₀.calls k ∧
        w.server.db = plan.dbAt w₀.server.db k ∧
        (rollsBack = true → 2 ≤ k ∧ env.fault (w₀.calls + k + 1) ≠ none))

/-- An operation that does not return had a failure and tried to roll back. -/
def Leaves (plan : Plan) (rollsBack : Bool) (w₀ : World) (e : Signal) (w : World) : Prop :=
  w.server.Fresh ∧ rollsBack = true ∧ ∃ k, k < plan.calls ∧ env.FirstFault w₀.calls k ∧
    w.server.db = plan.dbAt w₀.server.db k ∧
    (k < 2 ∧ e = .crash .nullHandle ∨
      2 ≤ k ∧ env.fault (w₀.calls + k + 1) = none ∧ e = dbError [])

/-- The operation ends as its plan and the failures have it. -/
def Ends (plan : Plan) (rollsBack : Bool) (p : Service Int) (l : Locals) (w₀ : World) : Prop :=
  Proc.wp (library d env) p (Returns env plan rollsBack w₀)
    (fun e _ w => Leaves env plan rollsBack w₀ e w) l w₀

variable {d env} {plan : Plan} {p : Service Int} {l : Locals} {w₀ : World}

theorem not_breaks_crash {c : Crash} {w : World} : ¬ Breaks env plan w₀ (.crash c) l w := by
  rintro ⟨⟨errmsg, herror⟩, -⟩
  cases herror

/-- An operation that is complete closes its handle. -/
private theorem Completes.close {ret : Int} {w : World} (h : Completes env plan w₀ ret l w)
    (rollsBack : Bool) :
    Proc.wp (library d env) MysqlDB.close (fun _ l w => Returns env plan rollsBack w₀ ret l w)
      (fun e _ w => Leaves env plan rollsBack w₀ e w) l w := by
  obtain ⟨hret, hreply, hrows, hclear, hfresh, hdb⟩ := h
  refine wp_close fun w' hserver _ => ⟨hserver ▸ hfresh, Or.inl ⟨hret, hreply, hrows, hclear, ?_⟩⟩
  rw [hserver, hdb]

/-- Operations that answer a failure with -1. -/
theorem Follows.returns (h : Follows d env plan p l w₀) :
    Ends d env plan false (withDb (catchException p (return -1))) l w₀ := by
  refine block_spec h (fun ret l w hdone => hdone.close false) ?_
    fun c l w hbreaks => absurd hbreaks not_breaks_crash
  rintro what l w ⟨-, k, server, hk, hfailed, hdb, -⟩
  rw [Proc.wp_pure]
  refine wp_close fun w' hserver _ => ⟨?_, Or.inr ⟨rfl, k, hk, ⟨hfailed.clear, hfailed.fault⟩, ?_,
    fun hrolls => absurd hrolls Bool.false_ne_true⟩⟩
  · rw [hserver, hfailed.shown]
    exact hfailed.fresh
  · rw [hserver, hfailed.shown, hdb]

/-- Operations that roll back after a failure. -/
theorem Follows.returns_or_leaves (h : Follows d env plan p l w₀) :
    Ends d env plan true (withDb (catchException p (do rollback; return -1))) l w₀ := by
  refine block_spec h (fun ret l w hdone => hdone.close true) ?_
    fun c l w hbreaks => absurd hbreaks not_breaks_crash
  rintro what l w ⟨-, k, server, hk, hfailed, hdb, hm⟩
  rw [Proc.wp_bind]
  refine hfailed.wp_rollback hm ?_ ?_ ?_
  · intro h2
    refine wp_close fun w' hserver _ => ⟨?_, rfl, k, hk, ⟨hfailed.clear, hfailed.fault⟩, ?_,
      Or.inl ⟨h2, rfl⟩⟩
    · rw [hserver, hfailed.shown]
      exact hfailed.fresh
    · rw [hserver, hfailed.shown, hdb]
  · intro h2 hfault w' hw'
    rw [Proc.wp_pure]
    refine wp_close fun w'' hserver _ => ⟨?_, Or.inr ⟨rfl, k, hk, ⟨hfailed.clear, hfailed.fault⟩, ?_,
      fun _ => ⟨h2, hfault⟩⟩⟩
    · rw [hserver, hw']
      exact hfailed.fresh
    · rw [hserver, hw', hdb]
  · intro h2 hfault w' hdb' hfresh
    refine wp_close fun w'' hserver _ => ⟨?_, rfl, k, hk, ⟨hfailed.clear, hfailed.fault⟩, ?_,
      Or.inr ⟨h2, hfault, rfl⟩⟩
    · rw [hserver]
      exact hfresh
    · rw [hserver, hdb', hdb]

/-! ### Statements of an operation

From here on the connection does not drop, so a statement is served by the session the
one before it has left.
-/

section

variable {fault : Nat → Option Bytes} {w : World} {k : Nat} {s : Session}

/-- Opening the connection, as the first thing an operation does. -/
theorem wp_open (hw : w₀.server.Fresh) (hl : l.New) {f : Unit → Service Int}
    {Q : Int → Locals → World → Prop}
    (hok : ∀ w', At (.ofFaults fault) w₀ 2 (.opened w₀.server) w' →
      Proc.wp (library d (.ofFaults fault)) (f ()) Q (Breaks (.ofFaults fault) plan w₀)
        { l with mysql := true } w') :
    Proc.wp (library d (.ofFaults fault)) (connect >>= f) Q (Breaks (.ofFaults fault) plan w₀) l w₀ := by
  rw [Proc.wp_bind]
  refine wp_connect hw (fun e w' k hk hfailed => ?_) hok hl.mysql
  have hcommit := plan.opened
  have hcalls := plan.commit_le
  exact ⟨⟨e, rfl⟩, k, w₀.server, by omega, hfailed, (Plan.dbAt_of_le (by omega) _).symm,
    (decide_eq_false (by omega)).symm⟩

private theorem breaks_of_failed (hm : l.mysql = true) (hk : k + 2 < plan.calls)
    (hdb : s.server.db = plan.dbAt w₀.server.db (k + 2)) (e : Bytes) (w' : World)
    (h : Failed env w₀ (k + 2) s.server w') : Breaks env plan w₀ (dbError e) l w' :=
  ⟨⟨e, rfl⟩, k + 2, s.server, hk, h, hdb, by rw [hm, decide_eq_true (by omega)]⟩

theorem At.query (h : At (.ofFaults fault) w₀ (k + 2) s w) (hm : l.mysql = true) {sql : Sql}
    (hk : k + 2 < plan.calls) (hdb : s.server.db = plan.dbAt w₀.server.db (k + 2)) {rs : Recordset}
    (hrs : Server.select d s.view s.server.clock sql = rs) {f : Recordset → Service Int}
    {Q : Int → Locals → World → Prop}
    (hok : ∀ w', At (.ofFaults fault) w₀ (k + 3) (s.serve d sql) w' →
      Proc.wp (library d (.ofFaults fault)) (f rs) Q (Breaks (.ofFaults fault) plan w₀) l w') :
    Proc.wp (library d (.ofFaults fault)) (querySQL sql >>= f) Q (Breaks (.ofFaults fault) plan w₀)
      l w := by
  subst hrs
  rw [Proc.wp_bind]
  exact h.wp_querySQL hm sql (breaks_of_failed hm hk hdb) hok

theorem At.exec (h : At (.ofFaults fault) w₀ (k + 2) s w) (hm : l.mysql = true) {sql : Sql}
    (hk : k + 2 < plan.calls) (hdb : s.server.db = plan.dbAt w₀.server.db (k + 2))
    {f : Unit → Service Int} {Q : Int → Locals → World → Prop}
    (hok : ∀ w', At (.ofFaults fault) w₀ (k + 3) (s.serve d sql) w' →
      Proc.wp (library d (.ofFaults fault)) (f ()) Q (Breaks (.ofFaults fault) plan w₀) l w') :
    Proc.wp (library d (.ofFaults fault)) (execSQL sql >>= f) Q (Breaks (.ofFaults fault) plan w₀)
      l w := by
  rw [Proc.wp_bind]
  exact h.wp_execSQL hm sql (breaks_of_failed hm hk hdb) hok

/-- The beginning of a transaction, behind opening the connection. -/
theorem wp_begin (hw : w₀.server.Fresh) (hl : l.New) {f : Unit → Service Int}
    {Q : Int → Locals → World → Prop}
    (hok : ∀ w', At (.ofFaults fault) w₀ 3 (.within w₀.server.db w₀.server.db
        w₀.server.nextAccountId w₀.server.nextTransId (w₀.server.clock + 1) 0) w' →
      Proc.wp (library d (.ofFaults fault)) (f ()) Q (Breaks (.ofFaults fault) plan w₀)
        { l with mysql := true } w') :
    Proc.wp (library d (.ofFaults fault)) (connect >>= fun _ => startTransaction >>= f) Q
      (Breaks (.ofFaults fault) plan w₀) l w₀ :=
  wp_open hw hl fun _ h₂ => h₂.exec rfl plan.two_lt (Plan.dbAt_of_le plan.opened _).symm hok

theorem At.insertId (h : At (.ofFaults fault) w₀ k s w) {f : Int → Service Int}
    {Q : Int → Locals → World → Prop}
    (hok : Proc.wp (library d (.ofFaults fault)) (f s.insertId) Q (Breaks (.ofFaults fault) plan w₀) l w) :
    Proc.wp (library d (.ofFaults fault)) (getInsertId >>= f) Q (Breaks (.ofFaults fault) plan w₀)
      l w := by
  rw [Proc.wp_bind]
  exact h.wp_getInsertId hok

/-- The planned end. -/
theorem At.returns (h : At env w₀ plan.calls s w)
    (hreply : ∀ b ∈ plan.balance, l.account.balance = b) (hrows : l.result.length = plan.rows)
    (hdb : s.server.db = plan.dbAt w₀.server.db plan.calls) {E : Signal → Locals → World → Prop} :
    Proc.wp (library d env) (pure plan.ret) (Completes env plan w₀) E l w :=
  ⟨rfl, hreply, hrows, h.clear, h.shows.server ▸ h.fresh.committed, by rw [h.shows.server, hdb]⟩

/-- The end of an operation that has changed nothing. -/
theorem At.reads {ret : Int} {calls : Nat} {h2 : 2 < calls} (h : At env w₀ calls s w)
    (hl : l.result = []) (hdb : s.server.db = w₀.server.db) {E : Signal → Locals → World → Prop} :
    Proc.wp (library d env) (pure ret) (Completes env (.reading ret calls h2) w₀) E l w :=
  ⟨rfl, fun _ hb => (by cases hb), congrArg List.length hl, h.clear, h.shows.server ▸ h.fresh.committed, by
    rw [h.shows.server, hdb]
    exact (Plan.dbAt_of_le (Nat.le_refl _) _).symm⟩

end

/-! ### Reading an account -/

/-- The account a `select balance` finds. -/
def Server.find (d : Dialect) (db : Database) (ref : AccountRef) (cond : AccountCond) :
    Option BankAccount :=
  (db.account? (Server.refersTo d ref)).filter (Server.accountCond d cond)

/-- The rows a `select balance` answers. -/
def balanceRows : Option BankAccount → Recordset
  | none => []
  | some r => [[(.balance, .number (r.balance / 100))]]

theorem select_selectBalance (d : Dialect) (db : Database) (clock : Nat) (ref : AccountRef)
    (cond : AccountCond) (forUpdate : Bool) :
    Server.select d db clock (.selectBalance ref cond forUpdate)
      = balanceRows (Server.find d db ref cond) := by
  simp only [Server.select, Server.find]
  cases db.account? (Server.refersTo d ref) with
  | none => rfl
  | some r =>
      cases h : Server.accountCond d cond r with
      | true => simp [balanceRows, Option.filter, h]
      | false => simp [balanceRows, Option.filter, h]

theorem select_of_find {d : Dialect} {db : Database} {clock : Nat} {ref : AccountRef}
    {cond : AccountCond} {forUpdate : Bool} {r : Option BankAccount}
    (h : Server.find d db ref cond = r) :
    Server.select d db clock (.selectBalance ref cond forUpdate) = balanceRows r := by
  rw [select_selectBalance, h]

/-- The name and the date a `select` about a row of `trans` answers. -/
theorem select_selectTransName {d : Dialect} {db : Database} {i : Int} {t : Trans} {r : BankAccount}
    (ht : db.trans.find? i = some t) (hr : db.account? t.accountId = some r) (clock : Nat) :
    Server.select d db clock (.selectTransName i)
      = [[(.name, .text r.name), (.transDate, .text (d.dateTime t.transDate))]] := by
  simp [Server.select, ht, hr]

theorem select_selectNameNow {d : Dialect} {db : Database} {i : Int} {r : BankAccount}
    (hr : db.account? i = some r) (clock : Nat) (column : Field) :
    Server.select d db clock (.selectNameNow i column)
      = [[(.name, .text r.name), (column, .text (d.dateTime (d.time clock)))]] := by
  simp [Server.select, hr]

theorem select_selectOpenDate {d : Dialect} {db : Database} {i : Int} {r : BankAccount}
    (hr : db.account? i = some r) (clock : Nat) :
    Server.select d db clock (.selectOpenDate i)
      = [[(.openDate, .text (d.dateTime r.openDate))]] := by
  simp [Server.select, hr]

theorem Server.account?_of_find {d : Dialect} {db : Database} {i : Int} {cond : AccountCond}
    {r : BankAccount} (h : Server.find d db (.number i) cond = some r) :
    db.account? i = some r ∧ r.accountId = i :=
  have hr := (Option.filter_eq_some_iff.mp h).1
  ⟨hr, (Table.mem_of_find? hr).2⟩

/-- The numbers dealt out next are not in use. -/
theorem Server.find?_nextTransId {s : Server} (hs : s.Fresh) :
    s.db.trans.find? s.nextTransId = none :=
  Table.find?_eq_none_of_notMem fun hmem => absurd (hs.trans _ hmem) (lt_irrefl _)

theorem Server.account?_nextAccountId {s : Server} (hs : s.Fresh) :
    s.db.account? s.nextAccountId = none :=
  Table.find?_eq_none_of_notMem fun hmem => absurd (hs.account _ hmem) (lt_irrefl _)

end Bank
