/-
A connection, seen by the code that uses it.

What a transaction has written is a list of changes that will be replayed on what is
committed when it ends.  The code never sees the list: it sees one database, and all
it knows of the other connections is what is committed.  `Session` keeps these two
databases and nothing else, and a statement takes a session to the next one by a
function that evaluates.

`At` says that a world shows a session after so many calls of an operation that all
succeeded, `Failed` that the next call has failed.  The rules at the end run the
operations on sessions: one rule for a statement, whichever it is.
-/
import Muduo.Bank.BankService
import Muduo.Proofs.MysqlRules

namespace Bank

open Lib MysqlDB

/-! ### Counters are ahead of the rows -/

/-- Every number in use is below the counter that deals it out. -/
structure Database.Below (db : Database) (nextAccountId nextTransId : Int) : Prop where
  account : ∀ i ∈ db.bankAccount.keys, i < nextAccountId
  trans : ∀ i ∈ db.trans.keys, i < nextTransId

/-- The rows a change adds have numbers below the counters. -/
def Write.Below (nextAccountId nextTransId : Int) : Write → Prop
  | .insertAccount r => r.accountId < nextAccountId
  | .insertTrans t => t.transId < nextTransId
  | _ => True

/-- The numbers of new rows are new. -/
def Server.Fresh (s : Server) : Prop := s.db.Below s.nextAccountId s.nextTransId

namespace Database

variable {db : Database} {a t : Int}

theorem Below.mono (h : db.Below a t) {a' t' : Int} (ha : a ≤ a') (ht : t ≤ t') :
    db.Below a' t' :=
  ⟨fun r hr => lt_of_lt_of_le (h.account r hr) ha, fun r hr => lt_of_lt_of_le (h.trans r hr) ht⟩

theorem Below.write (h : db.Below a t) {w : Write} (hw : w.Below a t) : (db.write w).Below a t := by
  cases w with
  | insertAccount row =>
      refine ⟨fun i hi => ?_, h.trans⟩
      rcases Table.mem_keys_insert.mp hi with hi | rfl
      · exact h.account i hi
      · exact hw
  | insertTrans row =>
      refine ⟨h.account, fun i hi => ?_⟩
      rcases Table.mem_keys_insert.mp hi with hi | rfl
      · exact h.trans i hi
      · exact hw
  | addBalance accountId cents => exact ⟨by simpa [Database.write] using h.account, h.trans⟩
  | setPass accountId pass => exact ⟨by simpa [Database.write] using h.account, h.trans⟩
  | setFlag accountId => exact ⟨by simpa [Database.write] using h.account, h.trans⟩

theorem Below.replay {ws : List Write} (hws : ∀ w ∈ ws, w.Below a t) :
    ∀ {db : Database}, db.Below a t → (db.replay ws).Below a t := by
  induction ws with
  | nil => exact fun h => h
  | cons w rest ih =>
      exact fun h => ih (fun v hv => hws v (by simp [hv])) (h.write (hws w (by simp)))

end Database

/-- What a statement writes has the numbers the counters are then ahead of. -/
theorem Server.below_writes (d : Dialect) (s : Server) (sql : Sql) :
    ∀ w ∈ s.writes d sql, w.Below (s.count sql).nextAccountId (s.count sql).nextTransId := by
  cases sql <;> simp [Server.writes, Server.count, Write.Below]

theorem Server.count_le (s : Server) (sql : Sql) :
    s.nextAccountId ≤ (s.count sql).nextAccountId ∧ s.nextTransId ≤ (s.count sql).nextTransId := by
  cases sql <;> simp [Server.count]

/-! ### Sessions -/

/-- What is committed, with the counters; what the connection sees; whether it is in a
transaction; and the number of its last insert. -/
structure Session where
  server : Server
  view : Database
  inTx : Bool
  insertId : Int

namespace Session

/-- A connection that has just been made. -/
def opened (server : Server) : Session := ⟨server, server.db, false, 0⟩

/-- In a transaction that began when `db` was committed. -/
def within (db view : Database) (nextAccountId nextTransId : Int) (clock : Nat) (insertId : Int) :
    Session :=
  ⟨⟨db, nextAccountId, nextTransId, clock⟩, view, true, insertId⟩

/-- Statements that only read let time pass. -/
def tick (s : Session) (n : Nat) : Session :=
  { s with server := { s.server with clock := s.server.clock + n } }

/-- The connection is lost, and its transaction with it. -/
def lost (s : Session) : Session := { s with view := s.server.db, inTx := false }

/-- A statement is served. -/
def serve (d : Dialect) (s : Session) (sql : Sql) : Session :=
  let after := s.server.count sql
  let id := s.server.lastInsert { Link.closed with insertId := s.insertId } sql
  match sql with
  | .startTransaction => ⟨{ after with db := s.view }, s.view, true, id⟩
  | .commit => ⟨{ after with db := s.view }, s.view, false, id⟩
  | .rollback => ⟨after, s.server.db, false, id⟩
  | sql =>
      let view := s.view.replay (s.server.writes d sql)
      ⟨{ after with db := if s.inTx then s.server.db else view }, view, s.inTx, id⟩

theorem serve_selectBalance {s : Session} (h : s.view = s.server.db) (d : Dialect)
    (ref : AccountRef) (cond : AccountCond) (forUpdate : Bool) :
    s.serve d (.selectBalance ref cond forUpdate) = s.tick 1 := by
  have hdb : (if s.inTx then s.server.db else s.view) = s.server.db := by
    split
    · rfl
    · exact h
  show Session.mk ⟨if s.inTx then s.server.db else s.view, _, _, _⟩ _ _ _ = _
  rw [hdb]
  rfl

/-- Both databases have numbers below the counters. -/
structure Fresh (s : Session) : Prop where
  committed : s.server.Fresh
  seen : s.view.Below s.server.nextAccountId s.server.nextTransId

theorem fresh_opened {server : Server} (h : server.Fresh) : (opened server).Fresh := ⟨h, h⟩

theorem Fresh.lost {s : Session} (h : s.Fresh) : s.lost.Fresh := ⟨h.committed, h.committed⟩

theorem Fresh.serve {s : Session} (h : s.Fresh) (d : Dialect) (sql : Sql) : (s.serve d sql).Fresh := by
  obtain ⟨ha, ht⟩ := s.server.count_le sql
  have hcommitted : s.server.db.Below (s.server.count sql).nextAccountId
      (s.server.count sql).nextTransId := h.committed.mono ha ht
  have hseen : s.view.Below (s.server.count sql).nextAccountId (s.server.count sql).nextTransId :=
    h.seen.mono ha ht
  have hwritten := Database.Below.replay (s.server.below_writes d sql) hseen
  unfold Session.serve
  split
  · exact ⟨hseen, hseen⟩
  · exact ⟨hseen, hseen⟩
  · exact ⟨hcommitted, hcommitted⟩
  · refine ⟨?_, hwritten⟩
    show Database.Below (if s.inTx then _ else _) _ _
    split
    · exact hcommitted
    · exact hwritten

end Session

/-! ### Worlds that show a session -/

/-- What a connection with a handle sees of the world. -/
structure World.Shows (w : World) (s : Session) : Prop where
  server : w.server = s.server
  view : w.server.view w.link = s.view
  inTx : w.link.tx.isSome = s.inTx
  insertId : w.link.insertId = s.insertId
  reconnect : w.link.reconnect = true

namespace World

variable {w : World} {s : Session}

theorem Shows.lost (h : w.Shows s) : { w with link := w.link.dropped }.Shows s.lost where
  server := h.server
  view := congrArg Server.db h.server
  inTx := rfl
  insertId := h.insertId
  reconnect := h.reconnect

/-- A statement does to the session what it does to the world. -/
theorem Shows.serve (h : w.Shows s) (d : Dialect) (sql : Sql) :
    let r := w.server.query d { w.link with connected := true } sql
    r.1 = Server.select d s.view s.server.clock sql ∧
      { w with server := r.2.1, link := r.2.2 }.Shows (s.serve d sql) := by
  obtain ⟨server, ⟨connected, reconnect, tx, insertId⟩, calls, statements⟩ := w
  obtain ⟨server', view, inTx, insertId'⟩ := s
  obtain ⟨rfl, rfl, rfl, rfl, rfl⟩ := h
  intro r
  refine ⟨?_, ?_⟩
  · cases sql <;> cases tx <;> rfl
  · cases tx with
    | none => cases sql <;> exact ⟨rfl, rfl, rfl, rfl, rfl⟩
    | some ws =>
        cases sql <;> refine ⟨rfl, ?_, rfl, rfl, rfl⟩ <;>
          first
            | rfl
            | exact Database.replay_append _ ws _

end World

/-! ### Operations, call by call -/

/-- The first `n` of the calls from number `from_` on succeed. -/
def Env.Clear (env : Env) (start n : Nat) : Prop := ∀ i < n, env.fault (start + i) = none

theorem Env.Clear.succ {env : Env} {start n : Nat} (h : env.Clear start n)
    (hn : env.fault (start + n) = none) : env.Clear start (n + 1) := by
  intro i hi
  rcases Nat.lt_succ_iff_lt_or_eq.mp hi with hi | rfl
  · exact h i hi
  · exact hn

/-- The session a statement finds, the connection having dropped before it or not. -/
def Env.arrive (env : Env) (statement : Nat) (s : Session) : Session :=
  if env.drop statement then s.lost else s

/-- After `k` calls of an operation, all of which succeeded: initialising, connecting,
and `k - 2` statements. -/
structure At (env : Env) (w₀ : World) (k : Nat) (s : Session) (w : World) : Prop where
  shows : w.Shows s
  calls : w.calls = w₀.calls + k
  statements : w.statements + 2 = w₀.statements + k
  clear : env.Clear w₀.calls k
  fresh : s.Fresh

/-- After `k` calls that succeeded and one that failed. -/
structure Failed (env : Env) (w₀ : World) (k : Nat) (server : Server) (w : World) : Prop where
  shown : w.server = server
  calls : w.calls = w₀.calls + k + 1
  clear : env.Clear w₀.calls k
  fault : env.fault (w₀.calls + k) ≠ none
  fresh : server.Fresh
  reconnect : 2 ≤ k → w.link.reconnect = true

/-- The contract of the library in one environment. -/
abbrev library (d : Dialect) (env : Env) : Prog.Contract Call Reply World :=
  Prog.Contract.ofHandler (answer d env)

variable {d : Dialect} {env : Env} {w₀ w : World} {k : Nat} {s : Session} {l : Locals}

theorem wp_libraryCall (c : Call) {Q : Reply c → Locals → World → Prop}
    {E : Signal → Locals → World → Prop}
    (h : Q (answer d env c w).1 l (answer d env c w).2) :
    Proc.wp (library d env) (Proc.call c) Q E l w := by
  rw [Proc.wp_call]
  refine ⟨trivial, fun r w' hn => ?_⟩
  obtain ⟨rfl, rfl⟩ := Prod.mk.inj hn
  exact h

/-- **The rule for a statement.**  It finds the session it arrives at, and fails there
or is served. -/
theorem At.wp_mysqlQuery (h : At env w₀ (k + 2) s w) (hm : l.mysql = true) (sql : Sql)
    {Q : Except Bytes Recordset → Locals → World → Prop} {E : Signal → Locals → World → Prop}
    (hfail : ∀ e w', Failed env w₀ (k + 2) s.server w' → Q (.error e) l w')
    (hok : let s' := env.arrive (w₀.statements + k) s
      ∀ w', At env w₀ (k + 3) (s'.serve d sql) w' →
        Q (.ok (Server.select d s'.view s'.server.clock sql)) l w') :
    Proc.wp (library d env) (mysqlQuery sql) Q E l w := by
  have hcalls := h.calls
  have hstatements : w.statements = w₀.statements + k := by
    have := h.statements
    omega
  obtain ⟨_, account, interest, result⟩ := l
  cases hm
  show Proc.wp (library d env) (Proc.call (Call.query sql) : Service (Reply (.query sql))) Q E _ w
  refine wp_libraryCall (Call.query sql) ?_
  -- the world the statement finds
  obtain ⟨link, hlink, hshows⟩ : ∃ link,
      link = (if env.drop w.statements then w.link.dropped else w.link) ∧
      { w with link := link }.Shows (env.arrive (w₀.statements + k) s) := by
    refine ⟨_, rfl, ?_⟩
    rw [← hstatements, Env.arrive]
    split
    · exact h.shows.lost
    · exact h.shows
  have hfresh : (env.arrive (w₀.statements + k) s).Fresh := by
    unfold Env.arrive
    split
    · exact h.fresh.lost
    · exact h.fresh
  have hreconnect : link.reconnect = true := hshows.reconnect
  have hserved : (link.connected || link.reconnect) = true := by rw [hreconnect, Bool.or_true]
  unfold answer
  simp only [← hlink]
  cases hfault : env.fault w.calls with
  | some e =>
      refine hfail e _ ⟨h.shows.server, ?_, h.clear, ?_, h.fresh.committed, fun _ => hreconnect⟩
      · show w.calls + 1 = _
        omega
      · rw [← hcalls, hfault]
        simp
  | none =>
      simp only [hserved, if_true]
      obtain ⟨hrs, hnext⟩ := hshows.serve d sql
      simp only at hrs hnext
      rw [hrs]
      refine hok _ ⟨?_, ?_, ?_, ?_, hfresh.serve d sql⟩
      · exact ⟨hnext.server, hnext.view, hnext.inTx, hnext.insertId, hnext.reconnect⟩
      · show w.calls + 1 = _
        omega
      · show w.statements + 1 + 2 = _
        omega
      · exact h.clear.succ (by rw [← hcalls]; exact hfault)

theorem At.wp_querySQL (h : At env w₀ (k + 2) s w) (hm : l.mysql = true) (sql : Sql)
    {Q : Recordset → Locals → World → Prop} {E : Signal → Locals → World → Prop}
    (hfail : ∀ e w', Failed env w₀ (k + 2) s.server w' → E (dbError e) l w')
    (hok : let s' := env.arrive (w₀.statements + k) s
      ∀ w', At env w₀ (k + 3) (s'.serve d sql) w' →
        Q (Server.select d s'.view s'.server.clock sql) l w') :
    Proc.wp (library d env) (querySQL sql) Q E l w := by
  unfold querySQL
  rw [Proc.wp_bind]
  exact h.wp_mysqlQuery hm sql hfail hok

theorem At.wp_execSQL (h : At env w₀ (k + 2) s w) (hm : l.mysql = true) (sql : Sql)
    {Q : Unit → Locals → World → Prop} {E : Signal → Locals → World → Prop}
    (hfail : ∀ e w', Failed env w₀ (k + 2) s.server w' → E (dbError e) l w')
    (hok : let s' := env.arrive (w₀.statements + k) s
      ∀ w', At env w₀ (k + 3) (s'.serve d sql) w' → Q () l w') :
    Proc.wp (library d env) (execSQL sql) Q E l w := by
  unfold execSQL
  rw [Proc.wp_bind]
  exact h.wp_querySQL hm sql hfail hok

theorem At.wp_getInsertId (h : At env w₀ k s w) {Q : Int → Locals → World → Prop}
    {E : Signal → Locals → World → Prop} (hok : Q s.insertId l w) :
    Proc.wp (library d env) getInsertId Q E l w := by
  refine wp_libraryCall Call.insertId ?_
  show Q w.link.insertId l w
  rw [h.shows.insertId]
  exact hok

private theorem wp_mysqlInit {Q : Except Bytes Unit → Locals → World → Prop}
    {E : Signal → Locals → World → Prop}
    (h : Q (answer d env .init w).1 l (answer d env .init w).2) :
    Proc.wp (library d env) mysqlInit Q E l w :=
  wp_libraryCall Call.init h

private theorem wp_mysqlOptions (option : Call) {Q : Reply option → Locals → World → Prop}
    {E : Signal → Locals → World → Prop}
    (h : Q (answer d env option w).1 l (answer d env option w).2) :
    Proc.wp (library d env) (mysqlOptions option) Q E l w :=
  wp_libraryCall option h

private theorem wp_mysqlRealConnect {Q : Except Bytes Unit → Locals → World → Prop}
    {E : Signal → Locals → World → Prop}
    (h : Q (answer d env .connect w).1 l (answer d env .connect w).2) :
    Proc.wp (library d env) mysqlRealConnect Q E l w :=
  wp_libraryCall Call.connect h

/-- Closing leaves the server as it is. -/
theorem wp_close {Q : Unit → Locals → World → Prop} {E : Signal → Locals → World → Prop}
    (h : ∀ w', w'.server = w.server → w'.calls = w.calls → Q () { l with mysql := false } w') :
    Proc.wp (library d env) close Q E l w := by
  refine close_spec trivial (fun r w' hn => ?_) fun hm => ?_
  · obtain ⟨rfl, rfl⟩ := Prod.mk.inj hn
    exact h _ rfl rfl
  · have hl : l = { l with mysql := false } := by rw [← hm]
    rw [hl]
    exact h w rfl rfl

/-- Opening a connection is two calls. -/
theorem wp_connect (hw : w₀.server.Fresh) {Q : Unit → Locals → World → Prop}
    {E : Signal → Locals → World → Prop}
    (hfail : ∀ e w' k, k < 2 → Failed env w₀ k w₀.server w' → E (dbError e) { l with mysql := false } w')
    (hok : ∀ w', At env w₀ 2 (.opened w₀.server) w' → Q () { l with mysql := true } w')
    (hl : l.mysql = false) : Proc.wp (library d env) connect Q E l w₀ := by
  have hl' : l = { l with mysql := false } := by rw [← hl]
  unfold connect
  rw [Proc.wp_bind]
  refine wp_mysqlInit ?_
  simp only [answer]
  cases hinit : env.fault w₀.calls with
  | some e =>
      show E (dbError e) l _
      rw [hl']
      refine hfail e _ 0 (by decide) ⟨rfl, rfl, nofun, by simp [hinit], hw, nofun⟩
  | none =>
      simp only [Proc.wp_bind, Proc.wp_modify]
      refine wp_mysqlOptions _ (wp_mysqlOptions _ (wp_mysqlRealConnect ?_))
      have hclear : env.Clear w₀.calls 1 := by
        intro i hi
        obtain rfl : i = 0 := by omega
        exact hinit
      simp only [answer]
      cases hconnect : env.fault (w₀.calls + 1) with
      | some e =>
          show Proc.wp _ (close >>= fun _ => Proc.raise (dbError e)) Q E _ _
          rw [Proc.wp_bind]
          refine wp_close fun w' hserver hcalls => ?_
          exact hfail e w' 1 (by decide) ⟨hserver, hcalls, hclear, by simp [hconnect], hw,
            fun h2 => absurd h2 (by decide)⟩
      | none =>
          refine hok _ ⟨⟨rfl, rfl, rfl, rfl, rfl⟩, rfl, rfl, hclear.succ hconnect, ?_⟩
          exact Session.fresh_opened hw

/-- A rollback that works makes `Rollback` throw, and one that fails makes it return; on a
handle that was not opened it ends the process. -/
theorem Failed.wp_rollback {server : Server} (h : Failed env w₀ k server w)
    (hm : l.mysql = decide (2 ≤ k)) {Q : Unit → Locals → World → Prop}
    {E : Signal → Locals → World → Prop}
    (hnull : k < 2 → E (.crash .nullHandle) l w)
    (hreturn : 2 ≤ k → env.fault (w₀.calls + k + 1) ≠ none →
      ∀ w', w'.server = server → Q () l w')
    (hthrow : 2 ≤ k → env.fault (w₀.calls + k + 1) = none →
      ∀ w', w'.server.db = server.db → w'.server.Fresh → E (dbError []) l w') :
    Proc.wp (library d env) rollback Q E l w := by
  unfold rollback
  rw [Proc.wp_bind]
  obtain ⟨mysql, account, interest, result⟩ := l
  by_cases hk : 2 ≤ k
  · obtain rfl : mysql = true := hm.trans (decide_eq_true hk)
    show Proc.wp (library d env) (Proc.call (Call.query .rollback) : Service (Reply (.query .rollback)))
      _ E _ w
    refine wp_libraryCall _ ?_
    have hserved : ∀ link : Link, link.reconnect = true →
        (link.connected || link.reconnect) = true := fun link hre => by rw [hre, Bool.or_true]
    have hre := h.reconnect hk
    simp only [answer, h.calls]
    cases hfault : env.fault (w₀.calls + k + 1) with
    | some e => exact hreturn hk (by simp [hfault]) _ h.shown
    | none =>
        simp only
        rw [if_pos (hserved _ (by split <;> exact hre))]
        refine hthrow hk hfault _ ?_ ?_
        · show (w.server.count .rollback).db = server.db
          rw [h.shown]
          rfl
        · show (w.server.count .rollback).Fresh
          rw [h.shown]
          exact h.fresh
  · obtain rfl : mysql = false := hm.trans (decide_eq_false hk)
    exact hnull (by omega)

end Bank
