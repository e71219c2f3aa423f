/-
What is left of a transaction whose connection drops.

The client library reconnects by itself, so the statement behind the drop is served, and
so are the ones that follow it; but the transaction is gone, and each of them is now
committed on its own.  What is committed in the end is therefore what is written from
the drop on, and nothing of what was written before.

Of a transfer this is everything as long as the drop comes before the first update, and
nothing when it comes before the `commit`.  In between it is a part.
-/
import Muduo.Proofs.Ledger

namespace Bank

open Lib MysqlDB BankService Database

/-! ### Sequences of statements -/

/-- A statement that reads or writes rows. -/
def Sql.isData : Sql → Bool
  | .startTransaction | .commit | .rollback => false
  | _ => true

namespace Server

/-- The counters and the clock behind some statements. -/
def countAll (s : Server) (sqls : List Sql) : Server := sqls.foldl count s

/-- What some statements write. -/
def effects (d : Dialect) : Server → List Sql → List Write
  | _, [] => []
  | s, sql :: rest => s.writes d sql ++ effects d (s.count sql) rest

theorem count_withDb (s : Server) (db : Database) (sql : Sql) :
    ({ s with db := db } : Server).count sql = { s.count sql with db := db } := rfl

/-- What is written depends on the counters and the clock only. -/
theorem writes_withDb (d : Dialect) (s : Server) (db : Database) (sql : Sql) :
    ({ s with db := db } : Server).writes d sql = s.writes d sql := by
  cases sql <;> rfl

theorem effects_withDb (d : Dialect) (db : Database) (sqls : List Sql) : ∀ s : Server,
    effects d ({ s with db := db } : Server) sqls = effects d s sqls := by
  induction sqls with
  | nil => exact fun _ => rfl
  | cons sql rest ih =>
      intro s
      rw [effects, effects, writes_withDb, count_withDb, ih]

end Server

namespace Session

variable {d : Dialect} {s : Session}

/-- A session that is served some statements, with the drops of an environment. -/
def serveAll (d : Dialect) (env : Env) : Nat → Session → List Sql → Session
  | _, s, [] => s
  | n, s, sql :: rest => serveAll d env (n + 1) ((env.arrive n s).serve d sql) rest

/-- The connection does not drop before any of `len` statements from `start` on. -/
def Steady (env : Env) (start len : Nat) : Prop := ∀ i < len, env.drop (start + i) = false

theorem arrive_of_steady {env : Env} {n : Nat} (h : env.drop n = false) : env.arrive n s = s := by
  unfold Env.arrive
  rw [h]
  rfl

theorem serve_data {sql : Sql} (h : sql.isData = true) :
    let view := s.view.replay (s.server.writes d sql)
    s.serve d sql
      = ⟨{ s.server.count sql with db := if s.inTx then s.server.db else view }, view, s.inTx,
        (s.serve d sql).insertId⟩ := by
  cases sql <;> first | rfl | exact absurd h (by decide)

/-- In a transaction statements add to what it sees. -/
theorem serveAll_inTx (env : Env) {sqls : List Sql} (hdata : ∀ sql ∈ sqls, sql.isData = true) :
    ∀ {n : Nat} {s : Session}, s.inTx = true → Steady env n sqls.length →
      let s' := serveAll d env n s sqls
      s'.inTx = true ∧ s'.server = { s.server.countAll sqls with db := s.server.db } ∧
        s'.view = s.view.replay (s.server.effects d sqls) := by
  induction sqls with
  | nil => exact fun h _ => ⟨h, rfl, rfl⟩
  | cons sql rest ih =>
      intro n s htx hsteady
      have hnext := serve_data (d := d) (s := s) (hdata sql (by simp))
      simp only [htx, if_true] at hnext
      have harrive : env.arrive n s = s := arrive_of_steady (hsteady 0 (by simp))
      obtain ⟨h₁, h₂, h₃⟩ := ih (fun q hq => hdata q (by simp [hq])) (n := n + 1) (s := s.serve d sql)
        (by rw [hnext]) fun i hi => by
          have := hsteady (i + 1) (by simpa using hi)
          rwa [Nat.add_right_comm, Nat.add_assoc]
      simp only [serveAll, harrive]
      refine ⟨h₁, ?_, ?_⟩
      · rw [h₂, hnext]
        rfl
      · rw [h₃, hnext, Server.effects_withDb, ← replay_append]
        rfl

/-- Outside a transaction there is nothing to lose. -/
theorem arrive_of_autocommit {env : Env} {n : Nat} (htx : s.inTx = false) (hview : s.view = s.server.db) :
    env.arrive n s = s := by
  have hlost : s.lost = s := by
    obtain ⟨server, view, inTx, insertId⟩ := s
    simp only at htx hview
    rw [Session.lost, htx, hview]
  unfold Env.arrive
  rw [hlost]
  split <;> rfl

/-- Outside a transaction every statement commits what it writes, whether the connection
drops or not. -/
theorem serveAll_autocommit (env : Env) {sqls : List Sql}
    (hdata : ∀ sql ∈ sqls, sql.isData = true) :
    ∀ {n : Nat} {s : Session}, s.inTx = false → s.view = s.server.db →
      let s' := serveAll d env n s sqls
      s'.server.db = s.server.db.replay (s.server.effects d sqls) ∧ s'.view = s'.server.db ∧
        s'.inTx = false := by
  induction sqls with
  | nil => exact fun htx hview => ⟨rfl, hview, htx⟩
  | cons sql rest ih =>
      intro n s htx hview
      have hnext := serve_data (d := d) (s := s) (hdata sql (by simp))
      simp only [htx, Bool.false_eq_true, if_false, hview] at hnext
      obtain ⟨h₁, h₂, h₃⟩ := ih (fun q hq => hdata q (by simp [hq])) (n := n + 1)
        (s := s.serve d sql) (by rw [hnext]) (by rw [hnext])
      simp only [serveAll, arrive_of_autocommit htx hview]
      refine ⟨?_, h₂, h₃⟩
      rw [h₁, hnext, Server.effects_withDb, ← replay_append]
      rfl

theorem serveAll_append (env : Env) (sqls rest : List Sql) : ∀ (n : Nat) (s : Session),
    serveAll d env n s (sqls ++ rest)
      = serveAll d env (n + sqls.length) (serveAll d env n s sqls) rest := by
  induction sqls with
  | nil => exact fun _ _ => rfl
  | cons sql sqls ih =>
      intro n s
      rw [List.cons_append, serveAll, serveAll, ih, List.length_cons, Nat.add_right_comm, Nat.add_assoc]

/-- What a transaction commits whose connection does not drop. -/
theorem db_serveAll_of_steady {env : Env} {server : Server} {body : List Sql} {n : Nat}
    (hdata : ∀ sql ∈ body, sql.isData = true) (hsteady : Steady env (n + 1) (body.length + 1)) :
    (serveAll d env n (opened server) (.startTransaction :: (body ++ [.commit]))).server.db
      = server.db.replay ((server.count .startTransaction).effects d body) := by
  have hfirst : env.arrive n (opened server) = opened server := arrive_of_autocommit rfl rfl
  obtain ⟨-, -, hview⟩ := serveAll_inTx (d := d) env hdata (n := n + 1)
    (s := (opened server).serve d .startTransaction) rfl fun i hi => hsteady i (by omega)
  have hlast := hsteady body.length (by omega)
  simp only [serveAll, hfirst, serveAll_append]
  rw [arrive_of_steady hlast]
  show (serveAll d env (n + 1) _ body).view = _
  rw [hview]
  rfl

/-- What a transaction commits whose connection drops behind the statements of `before`. -/
theorem db_serveAll_of_drop {env : Env} {server : Server} {before after : List Sql} {n : Nat}
    (hbefore : ∀ sql ∈ before, sql.isData = true) (hafter : ∀ sql ∈ after, sql.isData = true)
    (hsteady : Steady env (n + 1) before.length) (hdrop : env.drop (n + 1 + before.length) = true) :
    (serveAll d env n (opened server)
        (.startTransaction :: (before ++ (after ++ [.commit])))).server.db
      = server.db.replay
          (((server.count .startTransaction).countAll before).effects d after) := by
  have hfirst : env.arrive n (opened server) = opened server := arrive_of_autocommit rfl rfl
  obtain ⟨-, hserver, -⟩ := serveAll_inTx (d := d) env hbefore (n := n + 1)
    (s := (opened server).serve d .startTransaction) rfl hsteady
  simp only [serveAll, hfirst]
  rw [serveAll_append]
  set s := serveAll d env (n + 1) ((opened server).serve d .startTransaction) before
  have hlost : env.arrive (n + 1 + before.length) s = s.lost := by
    unfold Env.arrive
    rw [hdrop]
    rfl
  have hdb : s.server.db = server.db := by
    rw [hserver]
    rfl
  obtain ⟨hfinal, hview, htx⟩ := serveAll_autocommit (d := d) env hafter
    (n := n + 1 + before.length) (s := s.lost) rfl rfl
  -- the first statement behind the drop finds the session as if it had been lost before
  have hsame : serveAll d env (n + 1 + before.length) s (after ++ [.commit])
      = serveAll d env (n + 1 + before.length) s.lost (after ++ [.commit]) := by
    cases after with
    | nil =>
        simp only [List.nil_append, serveAll]
        rw [hlost, arrive_of_autocommit (s := s.lost) rfl rfl]
    | cons sql rest =>
        simp only [List.cons_append, serveAll]
        rw [hlost, arrive_of_autocommit (s := s.lost) rfl rfl]
  rw [hsame, serveAll_append]
  simp only [serveAll]
  rw [arrive_of_autocommit htx hview]
  show (serveAll d env (n + 1 + before.length) s.lost after).view = _
  rw [hview, hfinal]
  show s.server.db.replay (s.server.effects d after) = _
  rw [hdb, hserver, Server.effects_withDb]
  rfl

end Session

/-! ### Operations whose calls do not fail -/

section

variable {d : Dialect} {env : Env} {w₀ w : World} {k : Nat} {s : Session} {l : Locals}
  (hclear : ∀ n, env.fault n = none)

include hclear

theorem At.query_clear (h : At env w₀ (k + 2) s w) (hm : l.mysql = true) {sql : Sql} (rs : Recordset)
    (hrs : Server.select d (env.arrive (w₀.statements + k) s).view
      (env.arrive (w₀.statements + k) s).server.clock sql = rs)
    {f : Recordset → Service Int} {Q : Int → Locals → World → Prop} {E : Signal → Locals → World → Prop}
    (hok : ∀ w', At env w₀ (k + 3) ((env.arrive (w₀.statements + k) s).serve d sql) w' →
      Proc.wp (library d env) (f rs) Q E l w') :
    Proc.wp (library d env) (querySQL sql >>= f) Q E l w := by
  subst hrs
  rw [Proc.wp_bind]
  exact h.wp_querySQL hm sql (fun e w' hfailed => absurd (hclear _) hfailed.fault) hok

theorem At.exec_clear (h : At env w₀ (k + 2) s w) (hm : l.mysql = true) {sql : Sql}
    {f : Unit → Service Int} {Q : Int → Locals → World → Prop} {E : Signal → Locals → World → Prop}
    (hok : ∀ w', At env w₀ (k + 3) ((env.arrive (w₀.statements + k) s).serve d sql) w' →
      Proc.wp (library d env) (f ()) Q E l w') :
    Proc.wp (library d env) (execSQL sql >>= f) Q E l w := by
  rw [Proc.wp_bind]
  exact h.wp_execSQL hm sql (fun e w' hfailed => absurd (hclear _) hfailed.fault) hok

theorem wp_connect_clear (hw : w₀.server.Fresh) (hl : l.New) {f : Unit → Service Int}
    {Q : Int → Locals → World → Prop} {E : Signal → Locals → World → Prop}
    (hok : ∀ w', At env w₀ 2 (.opened w₀.server) w' →
      Proc.wp (library d env) (f ()) Q E { l with mysql := true } w') :
    Proc.wp (library d env) (connect >>= f) Q E l w₀ := by
  rw [Proc.wp_bind]
  exact wp_connect hw (fun e w' k _ hfailed => absurd (hclear _) hfailed.fault) hok hl.mysql

end

/-- What the server has committed is the same when the handle is closed, and no exception is
caught when none is thrown. -/
theorem wp_withDb_of_crash {d : Dialect} {env : Env} {P : Server → Prop} {p q : Service Int}
    {l : Locals} {w₀ : World}
    (h : Proc.wp (library d env) p (fun _ _ w => P w.server)
      (fun e _ w => (∃ c, e = .crash c) ∧ P w.server) l w₀) :
    Proc.wp (library d env) (withDb (catchException p q)) (fun _ _ w => P w.server)
      (fun _ _ w => P w.server) l w₀ := by
  refine block_spec h (fun _ _ w hP => ?_) ?_ (fun _ _ w hP => ?_)
  · exact wp_close fun w' hserver _ => hserver ▸ hP
  · rintro what l w ⟨⟨c, hc⟩, -⟩
    cases hc
  · exact wp_close fun w' hserver _ => hserver ▸ hP.2

/-- Reading a value of a result leaves the server as it is, whether the row is there or not. -/
theorem wp_getItem {d : Dialect} {env : Env} {P : Server → Prop} {rs : Recordset} {i : Nat}
    {column : Field} {l : Locals} {w : World} {f : Cell → Service Int} (hP : P w.server)
    (h : ∀ cell, Proc.wp (library d env) (f cell) (fun _ _ w => P w.server)
      (fun e _ w => (∃ c, e = .crash c) ∧ P w.server) l w) :
    Proc.wp (library d env) (getItem rs i column >>= f) (fun _ _ w => P w.server)
      (fun e _ w => (∃ c, e = .crash c) ∧ P w.server) l w := by
  rw [Proc.wp_bind]
  exact getItem_spec ⟨⟨_, rfl⟩, hP⟩ fun _ _ cell _ => h cell

/-! ### Transfers -/

/-- The statements of a transfer between its brackets. -/
def transferBody (sys : System) (a : Account) (other : Bytes) (r r₂ : BankAccount) (transId : Int) :
    List Sql :=
  [.selectBalance (.number a.accountId) .flagZero false,
    .selectBalance (.number a.accountId) (.pass a.pass) true,
    .selectBalance (.text other) .flagZero true,
    .updateBalance (.number a.accountId) (-roundCents a.balance),
    .updateBalance (.text other) (roundCents a.balance),
    .insertTrans a.accountId (some (Convert.stringToInt sys.junk other)) 5 (roundCents a.balance)
      (roundCents (r.balance / 100 - a.balance)),
    .selectTransName transId,
    .insertTrans (Convert.stringToInt sys.junk other) (some a.accountId) 4 (roundCents a.balance)
      (roundCents (r₂.balance / 100 + a.balance))]

/-- A transfer that is accepted: the accounts it reads. -/
structure Payable (d : Dialect) (db : Database) (a : Account) (other : Bytes) (r r₂ : BankAccount) :
    Prop where
  opened : Server.find d db (.number a.accountId) .flagZero ≠ none
  pass : Server.find d db (.number a.accountId) (.pass a.pass) = some r
  enough : a.balance ≤ r.balance / 100
  other : Server.find d db (.text other) .flagZero = some r₂

/-- A session before anything has been written. -/
private theorem arrive_serve_select (d : Dialect) (env : Env) {s : Session} {db : Database}
    (hview : s.view = db) (hdb : s.server.db = db) (n : Nat) (ref : AccountRef) (cond : AccountCond)
    (forUpdate : Bool) :
    (env.arrive n s).view = db ∧
      ((env.arrive n s).serve d (.selectBalance ref cond forUpdate)).view = db ∧
      ((env.arrive n s).serve d (.selectBalance ref cond forUpdate)).server.db = db := by
  have harrive : (env.arrive n s).view = db ∧ (env.arrive n s).server.db = db := by
    unfold Env.arrive
    split
    · exact ⟨hdb, hdb⟩
    · exact ⟨hview, hdb⟩
  refine ⟨harrive.1, ?_⟩
  rw [Session.serve_selectBalance (harrive.1.trans harrive.2.symm)]
  exact harrive

/-- What a transfer has committed in the end, wherever the connection drops. -/
theorem transfer_commits (sys : System) {d : Dialect} {env : Env} {l : Locals} {w₀ : World}
    (hclear : ∀ n, env.fault n = none) (hw : w₀.server.Fresh) (hl : l.New) (other : Bytes) :
    let P : Server → Prop := fun server =>
      (∃ r r₂ i, Payable d w₀.server.db l.account other r r₂ ∧
        server.db = (Session.serveAll d env w₀.statements (.opened w₀.server)
          (.startTransaction :: (transferBody sys l.account other r r₂ i ++ [.commit]))).server.db) ∨
      (¬ ∃ r r₂, Payable d w₀.server.db l.account other r r₂) ∧ server.db = w₀.server.db
    Proc.wp (library d env) (transfer sys other) (fun _ _ w => P w.server) (fun _ _ w => P w.server)
      l w₀ := by
  intro P
  refine wp_withDb_of_crash (wp_connect_clear hclear hw hl fun w₂ h₂ => ?_)
  refine h₂.exec_clear hclear rfl fun w₃ h₃ => ?_
  rw [Proc.wp_bind, Proc.wp_get]
  have hrefused : ∀ {w : World} {k : Nat} {s : Session}, At env w₀ k s w → s.server.db = w₀.server.db →
      (¬ ∃ r r₂, Payable d w₀.server.db l.account other r r₂) → P w.server :=
    fun h hdb hnot => Or.inr ⟨hnot, (congrArg Server.db h.shows.server).trans hdb⟩
  -- the three selects find what is committed, whether the connection has dropped or not
  have hs₀ : env.arrive (w₀.statements + 0) (.opened w₀.server) = .opened w₀.server :=
    Session.arrive_of_autocommit rfl rfl
  rw [hs₀] at h₃
  obtain ⟨hsee₁, hview₁, hdb₁⟩ := arrive_serve_select d env
    (s := (Session.opened w₀.server).serve d .startTransaction) rfl rfl
    (w₀.statements + 1) (.number l.account.accountId) .flagZero false
  cases hopen : Server.find d w₀.server.db (.number l.account.accountId) .flagZero with
  | none =>
      refine h₃.query_clear hclear rfl [] ?_ fun w₄ h₄ => ?_
      · rw [hsee₁]
        exact select_of_find hopen
      · exact hrefused h₄ hdb₁ fun ⟨r, r₂, hp⟩ => hp.opened hopen
  | some r₀ =>
      refine h₃.query_clear hclear rfl (balanceRows (some r₀)) ?_ fun w₄ h₄ => ?_
      · rw [hsee₁]
        exact select_of_find hopen
      obtain ⟨hsee₂, hview₂, hdb₂⟩ := arrive_serve_select d env hview₁ hdb₁
        (w₀.statements + 2) (.number l.account.accountId) (.pass l.account.pass) true
      cases hpass : Server.find d w₀.server.db (.number l.account.accountId) (.pass l.account.pass) with
      | none =>
          refine h₄.query_clear hclear rfl [] ?_ fun w₅ h₅ => ?_
          · rw [hsee₂]
            exact select_of_find hpass
          · refine hrefused h₅ hdb₂ fun ⟨r, r₂, hp⟩ => ?_
            rw [hp.pass] at hpass
            cases hpass
      | some r =>
          refine h₄.query_clear hclear rfl (balanceRows (some r)) ?_ fun w₅ h₅ => ?_
          · rw [hsee₂]
            exact select_of_find hpass
          show Proc.wp _ (if l.account.balance > r.balance / 100 then _ else _) _ _ _ _
          by_cases henough : l.account.balance > r.balance / 100
          · rw [if_pos henough]
            refine hrefused h₅ hdb₂ fun ⟨r', r₂, hp⟩ => ?_
            rw [hp.pass] at hpass
            cases hpass
            exact absurd hp.enough (not_le.mpr henough)
          rw [if_neg henough]
          obtain ⟨hsee₃, hview₃, hdb₃⟩ := arrive_serve_select d env hview₂ hdb₂
            (w₀.statements + 3) (.text other) .flagZero true
          cases hother : Server.find d w₀.server.db (.text other) .flagZero with
          | none =>
              refine h₅.query_clear hclear rfl [] ?_ fun w₆ h₆ => ?_
              · rw [hsee₃]
                exact select_of_find hother
              · refine hrefused h₆ hdb₃ fun ⟨r', r₂, hp⟩ => ?_
                rw [hp.other] at hother
                cases hother
          | some r₂ =>
              refine h₅.query_clear hclear rfl (balanceRows (some r₂)) ?_ fun w₆ h₆ => ?_
              · rw [hsee₃]
                exact select_of_find hother
              refine h₆.exec_clear hclear rfl fun w₇ h₇ => ?_
              refine h₇.exec_clear hclear rfl fun w₈ h₈ => ?_
              refine h₈.exec_clear hclear rfl fun w₉ h₉ => ?_
              rw [Proc.wp_bind]
              refine h₉.wp_getInsertId ?_
              generalize Session.insertId _ = transId
              refine h₉.query_clear hclear rfl _ rfl fun w₁₀ h₁₀ => ?_
              refine h₁₀.exec_clear hclear rfl fun w₁₁ h₁₁ => ?_
              refine h₁₁.exec_clear hclear rfl fun w₁₂ h₁₂ => ?_
              have hpayable : Payable d w₀.server.db l.account other r r₂ :=
                ⟨by rw [hopen]; exact nofun, hpass, not_lt.mp henough, hother⟩
              have hdone : P w₁₂.server := by
                refine Or.inl ⟨r, r₂, transId, hpayable, (congrArg Server.db h₁₂.shows.server).trans ?_⟩
                simp only [transferBody, List.cons_append, List.nil_append, Session.serveAll]
                rw [show w₀.statements = w₀.statements + 0 from rfl, hs₀]
                rfl
              rw [Proc.wp_bind, Proc.wp_modify]
              refine wp_getItem hdone fun name => wp_getItem hdone fun opDate => ?_
              rw [Proc.wp_bind, Proc.wp_modify]
              exact hdone

/-! ### What is left of a transfer -/

/-- The connection drops before one statement, and nothing else goes wrong. -/
def Env.dropAt (n : Nat) : Env := ⟨fun _ => none, fun m => m = n, []⟩

theorem steady_dropAt {n start len : Nat} (h : n < start ∨ start + len ≤ n) :
    Session.Steady (.dropAt n) start len := by
  intro i hi
  exact decide_eq_false (by omega)

section

variable {sys : System} {d : Dialect} {a : Account} {other : Bytes} {r r₂ : BankAccount}

/-- What a transfer that is accepted writes: debit, credit, and the two rows. -/
theorem writes_of_payable {s : Server} (h : Payable d s.db a other r r₂) :
    (transferPlan sys d s a other).writes
      = [.addBalance a.accountId (-roundCents a.balance),
        .addBalance (d.idOf other) (roundCents a.balance),
        .insertTrans ⟨s.nextTransId, a.accountId, Convert.stringToInt sys.junk other, 5,
          roundCents a.balance, roundCents (r.balance / 100 - a.balance), d.time (s.clock + 6)⟩,
        .insertTrans ⟨s.nextTransId + 1, Convert.stringToInt sys.junk other, a.accountId, 4,
          roundCents a.balance, roundCents (r₂.balance / 100 + a.balance), d.time (s.clock + 8)⟩] := by
  obtain ⟨r₀, hr₀⟩ := Option.ne_none_iff_exists'.mp h.opened
  unfold transferPlan checkedPlan
  simp only [hr₀, h.pass, h.other, if_neg (not_lt.mpr h.enough : ¬ a.balance > r.balance / 100)]

theorem writes_of_not_payable {s : Server} (h : ¬ ∃ r r₂, Payable d s.db a other r r₂) :
    (transferPlan sys d s a other).writes = [] := by
  unfold transferPlan checkedPlan
  cases hopen : Server.find d s.db (.number a.accountId) .flagZero with
  | none => rfl
  | some r₀ =>
      cases hpass : Server.find d s.db (.number a.accountId) (.pass a.pass) with
      | none => rfl
      | some r =>
          by_cases henough : a.balance > r.balance / 100
          · simp only [if_pos henough]
            rfl
          · simp only [if_neg henough]
            cases hother : Server.find d s.db (.text other) .flagZero with
            | none => rfl
            | some r₂ =>
                exact absurd ⟨r, r₂, by simp [hopen], hpass, not_lt.mp henough, hother⟩ h

/-- How many of the four writes are lost when the connection drops before a statement. -/
def lostWrites (statement : Nat) : Nat :=
  match statement with
  | 5 => 1
  | 6 => 2
  | 7 | 8 => 3
  | 9 => 4
  | _ => 0

/-- What is committed in the end is the writes that are not lost. -/
theorem db_transfer_dropped {s : Server} (h : Payable d s.db a other r r₂) (n statement : Nat)
    (transId : Int) :
    (Session.serveAll d (.dropAt (n + statement)) n (.opened s)
      (.startTransaction :: (transferBody sys a other r r₂ transId ++ [.commit]))).server.db
        = s.db.replay ((transferPlan sys d s a other).writes.drop (lostWrites statement)) := by
  rw [writes_of_payable h]
  have hdata : ∀ sql ∈ transferBody sys a other r r₂ transId, sql.isData = true := by
    simp [transferBody, Sql.isData]
  have hsplit : ∀ k, k ≤ 8 →
      (Session.serveAll d (.dropAt (n + (k + 1))) n (.opened s)
        (.startTransaction :: (transferBody sys a other r r₂ transId ++ [.commit]))).server.db
          = s.db.replay (((s.count .startTransaction).countAll
              ((transferBody sys a other r r₂ transId).take k)).effects d
                ((transferBody sys a other r r₂ transId).drop k)) := by
    intro k hk
    have hlen : ((transferBody sys a other r r₂ transId).take k).length = k := by
      rw [List.length_take]
      exact Nat.min_eq_left hk
    conv => lhs; rw [← List.take_append_drop k (transferBody sys a other r r₂ transId)]
    rw [List.append_assoc]
    refine Session.db_serveAll_of_drop (fun sql hmem => hdata sql (List.mem_of_mem_take hmem))
      (fun sql hmem => hdata sql (List.mem_of_mem_drop hmem)) (steady_dropAt (by omega)) ?_
    exact decide_eq_true (by omega)
  by_cases hin : 1 ≤ statement ∧ statement ≤ 9
  · obtain ⟨k, rfl⟩ : ∃ k, statement = k + 1 := ⟨statement - 1, by omega⟩
    have hk : k ≤ 8 := by omega
    rw [hsplit k hk]
    interval_cases k <;> rfl
  · rw [Session.db_serveAll_of_steady hdata (steady_dropAt ?_)]
    · have hlost : lostWrites statement = 0 := by
        unfold lostWrites
        split <;> omega
      rw [hlost]
      rfl
    · show _ ∨ n + 1 + (8 + 1) ≤ _
      omega

/-- A transfer that is accepted, with a part of its writes lost that matters. -/
def BreaksApart (d : Dialect) (db : Database) (a : Account) (other : Bytes) (statement : Nat) : Prop :=
  (∃ r r₂, Payable d db a other r r₂) ∧
    (statement = 5 ∧ roundCents a.balance ≠ 0 ∨
      statement = 6 ∧ roundCents a.balance ≠ 0 ∧ d.idOf other ≠ a.accountId ∨
      statement = 7 ∨ statement = 8)

/-- Everything the transfer is to write, or nothing. -/
def AllOrNone (db db' : Database) (ws : List Write) : Prop := db' = db ∨ db' = db.replay ws

theorem write_addBalance_addBalance (db : Database) (i c c' : Int) :
    (db.write (.addBalance i c)).write (.addBalance i c') = db.write (.addBalance i (c + c')) := by
  have htable : (db.write (.addBalance i c)).write (.addBalance i c')
      = { db with bankAccount := ((db.write (.addBalance i c)).write (.addBalance i c')).bankAccount } := rfl
  rw [htable]
  show _ = { db with bankAccount := (db.write (.addBalance i (c + c'))).bankAccount }
  congr 1
  apply Table.ext
  show List.map _ (List.map _ db.bankAccount.rows) = List.map _ db.bankAccount.rows
  rw [List.map_map]
  refine List.map_congr_left fun row _ => ?_
  simp only [Function.comp_apply]
  by_cases hi : row.accountId = i
  · simp only [if_pos hi, Int.add_assoc]
  · simp only [if_neg hi]

theorem write_addBalance_zero (db : Database) (i : Int) : db.write (.addBalance i 0) = db := by
  show ({ db with bankAccount := _ } : Database) = _
  obtain ⟨bankAccount, trans, abstract, teller⟩ := db
  congr 1
  apply Table.ext
  show List.map _ bankAccount.rows = bankAccount.rows
  conv => rhs; rw [← List.map_id bankAccount.rows]
  refine List.map_congr_left fun row _ => ?_
  by_cases hi : row.accountId = i
  · rw [if_pos hi]
    show { row with balance := row.balance + 0 } = row
    rw [Int.add_zero]
  · rw [if_neg hi]
    rfl

/-- What a change does to a balance. -/
theorem balance_addBalance {db : Database} {i : Int} {r : BankAccount} (h : db.account? i = some r)
    (c j : Int) : (db.write (.addBalance i c)).balance j = db.balance j + if j = i then c else 0 := by
  unfold Database.balance
  rw [account?_addBalance]
  by_cases hj : j = i
  · subst hj
    rw [if_pos rfl, if_pos rfl, h]
    rfl
  · rw [if_neg hj, if_neg hj, Int.add_zero]

private theorem exists_addBalance {db : Database} {j : Int} {r : BankAccount}
    (h : db.account? j = some r) (i c : Int) :
    ∃ r', (db.write (.addBalance i c)).account? j = some r' := by
  rw [account?_addBalance]
  by_cases hj : j = i
  · subst hj
    rw [if_pos rfl, h]
    exact ⟨_, rfl⟩
  · rw [if_neg hj]
    exact ⟨r, h⟩

/-- A row with a number that is not in use makes a difference. -/
theorem write_insertTrans_ne {db db' : Database} {t : Trans} (h : t.transId ∉ db.trans.keys) :
    db'.write (.insertTrans t) ≠ db := by
  intro heq
  refine h ?_
  rw [← heq]
  exact Table.mem_keys_insert.mpr (Or.inr rfl)

section

variable {db : Database} {i j c : Int} {t₁ t₂ : Trans}

/-- Without the debit, all has been done only if there was nothing to debit. -/
theorem allOrNone_drop_one {r₁ r₂ : BankAccount} (h₁ : db.account? i = some r₁)
    (h₂ : db.account? j = some r₂) (ht₂ : t₂.transId ∉ db.trans.keys) :
    AllOrNone db (db.replay [.addBalance j c, .insertTrans t₁, .insertTrans t₂])
        [.addBalance i (-c), .addBalance j c, .insertTrans t₁, .insertTrans t₂] ↔ c = 0 := by
  constructor
  · rintro (hnone | hall)
    · exact absurd hnone (write_insertTrans_ne ht₂)
    · obtain ⟨r', h₂'⟩ := exists_addBalance h₂ i (-c)
      have hbalance : (db.write (.addBalance j c)).balance i
          = ((db.write (.addBalance i (-c))).write (.addBalance j c)).balance i := by
        have := congrArg (fun x : Database => x.balance i) hall
        exact this
      rw [balance_addBalance h₂, balance_addBalance h₂', balance_addBalance h₁, if_pos rfl] at hbalance
      omega
  · rintro rfl
    refine Or.inr ?_
    simp only [replay_cons, Int.neg_zero, write_addBalance_zero]

/-- Without debit and credit, all has been done only if they come to nothing. -/
theorem allOrNone_drop_two {r₁ r₂ : BankAccount} (h₁ : db.account? i = some r₁)
    (h₂ : db.account? j = some r₂) (ht₂ : t₂.transId ∉ db.trans.keys) :
    AllOrNone db (db.replay [.insertTrans t₁, .insertTrans t₂])
        [.addBalance i (-c), .addBalance j c, .insertTrans t₁, .insertTrans t₂]
      ↔ c = 0 ∨ j = i := by
  constructor
  · rintro (hnone | hall)
    · exact absurd hnone (write_insertTrans_ne ht₂)
    · obtain ⟨r', h₂'⟩ := exists_addBalance h₂ i (-c)
      have hbalance : db.balance i
          = ((db.write (.addBalance i (-c))).write (.addBalance j c)).balance i := by
        have := congrArg (fun x : Database => x.balance i) hall
        exact this
      rw [balance_addBalance h₂', balance_addBalance h₁, if_pos rfl] at hbalance
      by_cases hij : j = i
      · exact Or.inr hij
      · rw [if_neg (Ne.symm hij)] at hbalance
        omega
  · rintro (rfl | rfl)
    · refine Or.inr ?_
      simp only [replay_cons, Int.neg_zero, write_addBalance_zero]
    · refine Or.inr ?_
      simp only [replay_cons, write_addBalance_addBalance, Int.add_left_neg, write_addBalance_zero]

/-- Without the first row it has never been all. -/
theorem not_allOrNone_drop_three (ht₁ : t₁.transId ∉ db.trans.keys) (ht₂ : t₂.transId ∉ db.trans.keys)
    (hne : t₁.transId ≠ t₂.transId) :
    ¬ AllOrNone db (db.replay [.insertTrans t₂])
        [.addBalance i (-c), .addBalance j c, .insertTrans t₁, .insertTrans t₂] := by
  rintro (hnone | hall)
  · exact write_insertTrans_ne ht₂ hnone
  · have hmem : t₁.transId ∈ (db.replay [.insertTrans t₂]).trans.keys := by
      rw [hall]
      exact Table.mem_keys_insert.mpr (Or.inl (Table.mem_keys_insert.mpr (Or.inr rfl)))
    rcases Table.mem_keys_insert.mp hmem with hold | hsame
    · exact ht₁ hold
    · exact hne hsame

end

/-- **Where a transfer breaks apart.**  Whether all or nothing of it is committed depends
on the statement before which the connection drops. -/
theorem allOrNone_drop_iff {s : Server} (hs : s.Fresh) (statement : Nat) :
    AllOrNone s.db (s.db.replay ((transferPlan sys d s a other).writes.drop (lostWrites statement)))
        (transferPlan sys d s a other).writes
      ↔ ¬ BreaksApart d s.db a other statement := by
  unfold BreaksApart
  by_cases hpay : ∃ r r₂, Payable d s.db a other r r₂
  · simp only [hpay, true_and]
    obtain ⟨r, r₂, hp⟩ := hpay
    rw [writes_of_payable hp]
    obtain ⟨hr, -⟩ := Server.account?_of_find hp.pass
    have hr₂ : s.db.account? (d.idOf other) = some r₂ := (Option.filter_eq_some_iff.mp hp.other).1
    have hfirst : s.nextTransId ∉ s.db.trans.keys := fun hmem => absurd (hs.trans _ hmem) (lt_irrefl _)
    have hsecond : s.nextTransId + 1 ∉ s.db.trans.keys := fun hmem => by
      have := hs.trans _ hmem
      omega
    by_cases h5 : statement = 5
    · subst h5
      refine (allOrNone_drop_one hr hr₂ hsecond).trans ?_
      simp
    by_cases h6 : statement = 6
    · subst h6
      refine (allOrNone_drop_two hr hr₂ hsecond).trans ?_
      simp only [Nat.reduceEqDiff, false_and, true_and, false_or, or_false]
      tauto
    by_cases h78 : statement = 7 ∨ statement = 8
    · have hlost : lostWrites statement = 3 := by rcases h78 with rfl | rfl <;> rfl
      rw [hlost]
      refine iff_of_false (not_allOrNone_drop_three hfirst hsecond (Int.ne_of_lt (Int.lt_succ _))) ?_
      exact fun h => h (Or.inr (Or.inr h78))
    · refine iff_of_true ?_ ?_
      · by_cases h9 : statement = 9
        · subst h9
          exact Or.inl rfl
        · have hlost : lostWrites statement = 0 := by
            unfold lostWrites
            split <;> omega
          rw [hlost]
          exact Or.inr rfl
      · rintro (⟨h, -⟩ | ⟨h, -⟩ | h)
        · exact h5 h
        · exact h6 h
        · exact h78 h
  · rw [writes_of_not_payable hpay, List.drop_nil]
    exact iff_of_true (Or.inl rfl) fun h => hpay h.1

/-! ### The result -/

/-- What a transfer that loses its connection before a statement has committed in the end is
everything or nothing. -/
def SurvivesDrop (sys : System) (d : Dialect) (l : Locals) (other : Bytes) (w₀ : World)
    (statement : Nat) : Prop :=
  ∀ r w', ((transfer sys other).start l).run (answer d (.dropAt (w₀.statements + statement))) w₀
      = (r, w') →
    AllOrNone w₀.server.db w'.server.db (transferPlan sys d w₀.server l.account other).writes

/-- What it has committed. -/
theorem transfer_dropped {l : Locals} {w₀ : World} (hw : w₀.server.Fresh) (hl : l.New)
    (other : Bytes) (statement : Nat) {r : Except Signal Int × Locals} {w' : World}
    (hrun : ((transfer sys other).start l).run (answer d (.dropAt (w₀.statements + statement))) w₀
      = (r, w')) :
    w'.server.db = w₀.server.db.replay
      ((transferPlan sys d w₀.server l.account other).writes.drop (lostWrites statement)) := by
  have hclear : ∀ n, (Env.dropAt (w₀.statements + statement)).fault n = none := fun _ => rfl
  have hwp := transfer_commits sys (d := d) hclear hw hl other
  simp only [Proc.wp, Prog.wp_ofHandler] at hwp
  rw [hrun] at hwp
  have hend : (∃ r r₂ i, Payable d w₀.server.db l.account other r r₂ ∧
        w'.server.db = (Session.serveAll d (.dropAt (w₀.statements + statement)) w₀.statements
          (.opened w₀.server)
          (.startTransaction :: (transferBody sys l.account other r r₂ i ++ [.commit]))).server.db) ∨
      (¬ ∃ r r₂, Payable d w₀.server.db l.account other r r₂) ∧ w'.server.db = w₀.server.db := by
    obtain ⟨_ | _, _⟩ := r <;> exact hwp
  rcases hend with ⟨r, r₂, i, hp, hdb⟩ | ⟨hnot, hdb⟩
  · rw [hdb, db_transfer_dropped hp]
  · rw [hdb, writes_of_not_payable hnot]
    simp

theorem survivesDrop_iff_allOrNone {l : Locals} {w₀ : World} (hw : w₀.server.Fresh) (hl : l.New)
    (other : Bytes) (statement : Nat) :
    SurvivesDrop sys d l other w₀ statement
      ↔ AllOrNone w₀.server.db (w₀.server.db.replay
          ((transferPlan sys d w₀.server l.account other).writes.drop (lostWrites statement)))
        (transferPlan sys d w₀.server l.account other).writes := by
  constructor
  · intro h
    rcases hrun : ((transfer sys other).start l).run
      (answer d (.dropAt (w₀.statements + statement))) w₀ with ⟨r, w'⟩
    have := h r w' hrun
    rwa [transfer_dropped hw hl other statement hrun] at this
  · intro h r w' hrun
    rwa [transfer_dropped hw hl other statement hrun]

/-- **Which drops a transfer survives.**  All or nothing of it is committed, but for a
transfer that is accepted and loses its connection between the update of the one account
and the last insert. -/
theorem survivesDrop_iff {l : Locals} {w₀ : World} (hw : w₀.server.Fresh) (hl : l.New) (other : Bytes)
    (statement : Nat) :
    SurvivesDrop sys d l other w₀ statement
      ↔ ¬ BreaksApart d w₀.server.db l.account other statement :=
  (survivesDrop_iff_allOrNone hw hl other statement).trans (allOrNone_drop_iff hw statement)

end

/-- A transfer of one yuan that loses its connection before the `commit`. -/
theorem survivesDrop_iff_commit :
    SurvivesDrop Setup.zero.sys .plain (smallLocals 1) [50] smallWorld 9
      ↔ ¬ BreaksApart .plain smallWorld.server.db (smallLocals 1).account [50] 9 :=
  survivesDrop_iff fresh_smallBank (new_smallLocals 1) [50] 9

/-- A transfer of one yuan that loses its connection between the two updates. -/
theorem not_survivesDrop_credit :
    ¬ SurvivesDrop Setup.zero.sys .plain (smallLocals 1) [50] smallWorld 5 := by
  rw [survivesDrop_iff_allOrNone fresh_smallBank (new_smallLocals 1),
    allOrNone_drop_iff (s := smallWorld.server) fresh_smallBank, not_not]
  refine ⟨⟨smallAccount 1, smallAccount 2, nofun, rfl, ?_, rfl⟩, Or.inl ⟨rfl, ?_⟩⟩
  · norm_num [smallLocals, smallAccount]
  · decide +kernel

end Bank
