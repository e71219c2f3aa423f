/-
All or nothing.

Five operations of the bank are transactions.  If one of the calls of such an operation
fails, it should answer with zero only when everything it is for has been committed,
and with anything else only when nothing has.

Four of them never get as far as an answer: after one failure the rollback works, and
`Rollback` throws when it has worked.  `CloseAccount` has no rollback and answers with
-1, also when the call that fails is the `select` behind its `commit`.
-/
import Muduo.Proofs.Operations
import Muduo.Proofs.Replies
import Mathlib.Data.List.Sort

namespace Bank

open Lib MysqlDB BankService Database

/-! ### The transactions -/

/-- The operations that book money. -/
inductive Booking where
  | deposit
  | withDraw
  | transfer (otherAccountId : Bytes)

/-- The operations between a `start transaction` and a `commit`. -/
inductive Transaction where
  | booking (b : Booking)
  | openAccount
  | closeAccount

namespace Booking

def service (sys : System) : Booking → Service Int
  | deposit => BankService.deposit sys
  | withDraw => BankService.withDraw sys
  | transfer other => BankService.transfer sys other

def plan (sys : System) (d : Dialect) (s : Server) (a : Account) : Booking → Plan
  | deposit => depositPlan d s a
  | withDraw => withDrawPlan d s a
  | transfer other => transferPlan sys d s a other

theorem ends (b : Booking) (sys : System) (d : Dialect) (fault : Nat → Option Bytes) {l : Locals}
    {w₀ : World} (hw : w₀.server.Fresh) (hl : l.New) :
    Ends d (.ofFaults fault) (b.plan sys d w₀.server l.account) true (b.service sys) l w₀ := by
  cases b with
  | deposit => exact deposit_ends sys hw hl
  | withDraw => exact withDraw_ends sys hw hl
  | transfer other => exact transfer_ends sys hw hl other

end Booking

namespace Transaction

def service (sys : System) : Transaction → Service Int
  | booking b => b.service sys
  | openAccount => BankService.openAccount
  | closeAccount => BankService.closeAccount sys

def plan (sys : System) (d : Dialect) (s : Server) (a : Account) : Transaction → Plan
  | booking b => b.plan sys d s a
  | openAccount => openAccountPlan d s a
  | closeAccount => closeAccountPlan d s a

/-- Whether a failure is answered by a rollback. -/
def rollsBack : Transaction → Bool
  | closeAccount => false
  | _ => true

theorem ends (t : Transaction) (sys : System) (d : Dialect) (fault : Nat → Option Bytes) {l : Locals}
    {w₀ : World} (hw : w₀.server.Fresh) (hl : l.New) :
    Ends d (.ofFaults fault) (t.plan sys d w₀.server l.account) t.rollsBack (t.service sys) l w₀ := by
  cases t with
  | booking b => exact b.ends sys d fault hw hl
  | openAccount => exact openAccount_ends hw hl
  | closeAccount => exact closeAccount_ends sys hw hl

end Transaction

/-! ### What is to be shown -/

/-- Only the `k`-th call fails. -/
def onlyFault (k : Nat) (errmsg : Bytes) (n : Nat) : Option Bytes :=
  if n = k then some errmsg else none

/-- What the operation comes to when it is run in a world whose calls fail so. -/
def Transaction.run (sys : System) (d : Dialect) (fault : Nat → Option Bytes) (t : Transaction)
    (l : Locals) (w₀ : World) : (Except Signal Int × Locals) × World :=
  ((t.service sys).start l).run (answer d (.ofFaults fault)) w₀

/-- The complete effect of an operation on a database. -/
def Transaction.effect (sys : System) (d : Dialect) (t : Transaction) (l : Locals) (s : Server) :
    Database :=
  s.db.replay (t.plan sys d s l.account).writes

/-- With the `k`-th call failing, zero means everything and any other code nothing. -/
def AllOrNothing (sys : System) (d : Dialect) (t : Transaction) (l : Locals) (w₀ : World) (k : Nat)
    (errmsg : Bytes) : Prop :=
  ∀ ret l' w', t.run sys d (onlyFault (w₀.calls + k) errmsg) l w₀ = ((.ok ret, l'), w') →
    (ret = 0 → w'.server.db = t.effect sys d l w₀.server) ∧
      (ret ≠ 0 → w'.server.db = w₀.server.db)

/-! ### Plans -/

/-- A refusal changes nothing. -/
def Plan.Honest (plan : Plan) : Prop :=
  (plan.ret = 0 → plan.commit < plan.calls ∨ plan.writes = []) ∧ (plan.ret ≠ 0 → plan.writes = [])

private theorem Plan.honest_reading (ret : Int) (calls : Nat) (h : 2 < calls) :
    (Plan.reading ret calls h).Honest := ⟨fun _ => Or.inr rfl, fun _ => rfl⟩

private theorem honest_bookedPlan (calls : Nat) (h : 2 ≤ calls) (i cents : Int) (row : Trans) (b : ℚ) :
    (bookedPlan calls h i cents row b).Honest :=
  ⟨fun _ => Or.inl (by simp [bookedPlan]), fun h => absurd rfl h⟩

private theorem honest_checkedPlan {d : Dialect} {db : Database} {a : Account} {calls : Nat}
    {h : 2 ≤ calls} {plan : BankAccount → Plan} (hplan : ∀ r, (plan r).Honest) :
    (checkedPlan d db a calls h plan).Honest :=
  checkedPlan_of (Plan.honest_reading 2) (Plan.honest_reading 3) hplan

theorem Booking.honest_plan (sys : System) (d : Dialect) (s : Server) (a : Account) (b : Booking) :
    (b.plan sys d s a).Honest := by
  cases b with
  | deposit =>
      show (depositPlan d s a).Honest
      unfold depositPlan
      cases Server.find d s.db (.number a.accountId) .flagZero with
      | none => exact Plan.honest_reading _ _ _
      | some r => exact honest_bookedPlan _ _ _ _ _ _
  | withDraw =>
      refine honest_checkedPlan (h := by decide) fun r => ?_
      split
      · exact Plan.honest_reading _ _ _
      · exact honest_bookedPlan _ _ _ _ _ _
  | transfer other =>
      refine honest_checkedPlan (h := by decide) fun r => ?_
      split
      · exact Plan.honest_reading _ _ _
      · cases Server.find d s.db (.text other) .flagZero with
        | none => exact Plan.honest_reading _ _ _
        | some r₂ => exact ⟨fun _ => Or.inl (show 11 < 12 by decide), fun h => absurd rfl h⟩

theorem Transaction.honest_plan (sys : System) (d : Dialect) (s : Server) (a : Account)
    (t : Transaction) : (t.plan sys d s a).Honest := by
  cases t with
  | booking b => exact b.honest_plan sys d s a
  | openAccount => exact ⟨fun _ => Or.inl (show 5 < 7 by decide), fun h => absurd rfl h⟩
  | closeAccount =>
      exact honest_checkedPlan (h := by decide) fun r =>
        ⟨fun _ => Or.inl (show 7 < 9 by decide), fun h => absurd rfl h⟩

/-- What a plan commits in the end is its effect. -/
theorem Plan.Honest.dbAt_calls {plan : Plan} (h : plan.Honest) (db : Database) :
    plan.dbAt db plan.calls = db.replay plan.writes := by
  by_cases hret : plan.ret = 0
  · rcases h.1 hret with hlt | hnil
    · exact Plan.dbAt_of_lt hlt db
    · unfold Plan.dbAt
      rw [hnil]
      split <;> rfl
  · unfold Plan.dbAt
    rw [h.2 hret]
    split <;> rfl

/-! ### The result -/

variable {sys : System} {d : Dialect} {l : Locals} {w₀ : World}

theorem firstFault_onlyFault {k n : Nat} {errmsg : Bytes}
    (h : (Env.ofFaults (onlyFault (w₀.calls + k) errmsg)).FirstFault w₀.calls n) : n = k := by
  have hfault : onlyFault (w₀.calls + k) errmsg (w₀.calls + n) ≠ none := h.2
  unfold onlyFault at hfault
  by_contra hne
  exact hfault (if_neg (by omega))

/-- What an operation does that returns although a call has failed, or because none has. -/
theorem Transaction.run_onlyFault (t : Transaction) (hw : w₀.server.Fresh) (hl : l.New) {k : Nat}
    {errmsg : Bytes} {ret : Int} {l' : Locals} {w' : World}
    (hrun : t.run sys d (onlyFault (w₀.calls + k) errmsg) l w₀ = ((.ok ret, l'), w')) :
    let plan := t.plan sys d w₀.server l.account
    ret = plan.ret ∧ plan.calls ≤ k ∧ w'.server.db = plan.dbAt w₀.server.db plan.calls ∨
      ret = -1 ∧ k < plan.calls ∧ t = .closeAccount ∧ w'.server.db = plan.dbAt w₀.server.db k := by
  intro plan
  have hends := t.ends sys d (onlyFault (w₀.calls + k) errmsg) hw hl
  unfold Ends at hends
  unfold Transaction.run at hrun
  rw [Proc.wp, Prog.wp_ofHandler, hrun] at hends
  obtain ⟨-, ⟨hret, -, -, hclear, hdb⟩ | ⟨hret, n, hn, hfirst, hdb, hback⟩⟩ := hends
  · refine Or.inl ⟨hret, ?_, hdb⟩
    by_contra hlt
    have hnone := hclear k (Nat.lt_of_not_le hlt)
    have hsome : (Env.ofFaults (onlyFault (w₀.calls + k) errmsg)).fault (w₀.calls + k) = some errmsg :=
      if_pos rfl
    rw [hsome] at hnone
    cases hnone
  · obtain rfl := firstFault_onlyFault hfirst
    have hclose : t.rollsBack = false := by
      by_contra htrue
      obtain ⟨-, hnext⟩ := hback (by simpa using htrue)
      exact hnext (if_neg (by omega))
    have ht : t = .closeAccount := by
      cases t with
      | booking b => exact absurd hclose nofun
      | openAccount => exact absurd hclose nofun
      | closeAccount => rfl
    exact Or.inr ⟨hret, hn, ht, hdb⟩

/-- The account is open and the password is right. -/
def Authorised (d : Dialect) (db : Database) (a : Account) : Prop :=
  Server.find d db (.number a.accountId) .flagZero ≠ none ∧
    Server.find d db (.number a.accountId) (.pass a.pass) ≠ none

/-- The plan of an authorised closing, and of one that is not. -/
theorem closeAccountPlan_cases (d : Dialect) (s : Server) (a : Account) :
    (Authorised d s.db a ∧ (closeAccountPlan d s a).calls = 9 ∧ (closeAccountPlan d s a).commit = 7 ∧
        (closeAccountPlan d s a).writes = [.setFlag a.accountId]) ∨
      (¬ Authorised d s.db a ∧ (closeAccountPlan d s a).writes = []) := by
  unfold closeAccountPlan checkedPlan Authorised
  cases Server.find d s.db (.number a.accountId) .flagZero with
  | none => exact Or.inr ⟨fun h => h.1 rfl, rfl⟩
  | some _ =>
      cases Server.find d s.db (.number a.accountId) (.pass a.pass) with
      | none => exact Or.inr ⟨fun h => h.2 rfl, rfl⟩
      | some r => exact Or.inl ⟨⟨nofun, nofun⟩, rfl, rfl, rfl⟩

/-- Closing an open account changes the database. -/
theorem write_setFlag_ne {db : Database} {a : Account}
    (h : Server.find d db (.number a.accountId) .flagZero ≠ none) :
    db.write (.setFlag a.accountId) ≠ db := by
  obtain ⟨r, hfind⟩ := Option.ne_none_iff_exists'.mp h
  obtain ⟨hr, -⟩ := Server.account?_of_find hfind
  have hflag : r.flag = 0 := by
    simpa [Server.accountCond] using (Option.filter_eq_some_iff.mp hfind).2
  intro heq
  have hread := account?_setFlag db a.accountId a.accountId
  rw [heq, if_pos rfl, hr] at hread
  have hone : r.flag = 1 := congrArg BankAccount.flag (Option.some.inj hread)
  omega

/-- When the select behind the commit of a closing fails, the account is closed and the answer
is -1. -/
theorem not_allOrNothing_closeAccount (hw : w₀.server.Fresh) (hl : l.New) (errmsg : Bytes)
    (hauth : Authorised d w₀.server.db l.account) :
    ¬ AllOrNothing sys d .closeAccount l w₀ 8 errmsg := by
  intro hall
  obtain ⟨-, hcalls, hcommit, hwrites⟩ | ⟨hnot, -⟩ := closeAccountPlan_cases d w₀.server l.account
  · -- the run does return, for closing has no rollback
    have hends := Transaction.closeAccount.ends sys d (onlyFault (w₀.calls + 8) errmsg) hw hl
    unfold Ends Transaction.service at hends
    rw [Proc.wp, Prog.wp_ofHandler] at hends
    rcases hrun : ((closeAccount sys).start l).run
      (answer d (.ofFaults (onlyFault (w₀.calls + 8) errmsg))) w₀ with ⟨⟨e | ret, l'⟩, w'⟩
    · rw [hrun] at hends
      exact absurd hends.2.1 nofun
    · obtain ⟨-, hle, -⟩ | ⟨hret, -, -, hdb⟩ :=
        Transaction.closeAccount.run_onlyFault hw hl hrun
      · have : (closeAccountPlan d w₀.server l.account).calls ≤ 8 := hle
        omega
      · have hsame := (hall ret l' w' hrun).2 (by rw [hret]; decide)
        refine write_setFlag_ne hauth.1 ?_
        have hdb : w'.server.db = (closeAccountPlan d w₀.server l.account).dbAt w₀.server.db 8 := hdb
        rw [hsame, Plan.dbAt_of_lt (by omega), hwrites] at hdb
        exact hdb.symm
  · exact hnot hauth

/-- **Which failures break all-or-nothing.**  An operation with one failing call keeps to
it, but for the closing of an account whose owner is authorised: the select behind its
commit, the ninth call, must not be the one that fails. -/
theorem allOrNothing_iff (t : Transaction) (hw : w₀.server.Fresh) (hl : l.New) (k : Nat)
    (errmsg : Bytes) :
    AllOrNothing sys d t l w₀ k errmsg
      ↔ ¬ (t = .closeAccount ∧ Authorised d w₀.server.db l.account ∧ k = 8) := by
  have hhonest := t.honest_plan sys d w₀.server l.account
  constructor
  · rintro hall ⟨rfl, hauth, rfl⟩
    exact not_allOrNothing_closeAccount hw hl errmsg hauth hall
  · intro hcond ret l' w' hrun
    obtain ⟨hret, -, hdb⟩ | ⟨hret, hk, rfl, hdb⟩ := t.run_onlyFault hw hl hrun
    · rw [hhonest.dbAt_calls] at hdb
      refine ⟨fun _ => hdb, fun hne => ?_⟩
      rw [hdb, hhonest.2 (hret ▸ hne)]
      rfl
    · refine ⟨fun hzero => absurd (hzero.symm.trans hret) (by decide), fun _ => ?_⟩
      rw [hdb]
      have hk : k < (closeAccountPlan d w₀.server l.account).calls := hk
      show (closeAccountPlan d w₀.server l.account).dbAt w₀.server.db k = _
      obtain ⟨hauth, hcalls, hcommit, -⟩ | ⟨-, hnil⟩ := closeAccountPlan_cases d w₀.server l.account
      · refine Plan.dbAt_of_le ?_ _
        have : k ≠ 8 := fun h8 => hcond ⟨rfl, hauth, h8⟩
        omega
      · unfold Plan.dbAt
        rw [hnil]
        split <;> rfl

/-! ### A small bank -/

/-- A server that takes texts as they are. -/
def Dialect.plain : Dialect where
  idOf := Convert.stringToInt Setup.zero.sys.junk
  passIs := fun text pass => text = pass
  quoted := fun n s => s.take n
  dayIs := fun _ _ => true
  dayBetween := fun _ _ _ => true
  time := id
  dateTime := fun _ => List.replicate 19 48
  length_dateTime := fun _ => rfl
  orderByDate := fun _ l => l.insertionSort fun a b => a.transDate ≤ b.transDate
  perm_orderByDate := fun _ l => List.perm_insertionSort _ l
  sorted_orderByDate := fun _ l => List.pairwise_insertionSort _ l

/-- An account with the password `1` and one hundred yuan. -/
def smallAccount (accountId : Int) : BankAccount := ⟨accountId, [], [49], [], 10000, 0, 0⟩

/-- Two accounts, each with the row its opening has written. -/
def smallBank : Server where
  db := {
    bankAccount := ⟨[smallAccount 1, smallAccount 2], by decide⟩
    trans := ⟨[⟨1, 1, none, 1, 10000, 10000, 0⟩, ⟨2, 2, none, 1, 10000, 10000, 0⟩], by decide⟩
    abstract := []
    teller := [] }
  nextAccountId := 3
  nextTransId := 3
  clock := 0

theorem fresh_smallBank : smallBank.Fresh := ⟨by decide, by decide⟩

/-- Nothing has been called yet. -/
def smallWorld : World := ⟨smallBank, .closed, 0, 0⟩

/-- The arguments for account 1 and an amount. -/
def smallLocals (amount : ℚ) : Locals := ⟨false, ⟨1, [], [49], [], [], amount⟩, 0, []⟩

theorem new_smallLocals (amount : ℚ) : (smallLocals amount).New := ⟨rfl, rfl⟩

theorem authorised_smallLocals (amount : ℚ) :
    Authorised .plain smallBank.db (smallLocals amount).account := ⟨nofun, nofun⟩

/-- A deposit whose update fails. -/
theorem allOrNothing_iff_deposit :
    AllOrNothing Setup.zero.sys .plain (.booking .deposit) (smallLocals 1) smallWorld 4 []
      ↔ ¬ (Transaction.booking .deposit = .closeAccount ∧
        Authorised .plain smallWorld.server.db (smallLocals 1).account ∧ 4 = 8) :=
  allOrNothing_iff (.booking .deposit) fresh_smallBank (new_smallLocals 1) 4 []

/-- A closing whose last select fails. -/
theorem closeAccount_not_allOrNothing :
    ¬ AllOrNothing Setup.zero.sys .plain .closeAccount (smallLocals 0) smallWorld 8 [] :=
  not_allOrNothing_closeAccount fresh_smallBank (new_smallLocals 0) []
    (authorised_smallLocals 0)

end Bank
