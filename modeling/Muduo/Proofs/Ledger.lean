/-
What sequences of bookings do to the ledger.

The account rows are changed by amounts, the rows of `trans` carry the balances that
were computed from what had been read, and so does the answer.  The three agree as long
as a booking changes every account once.  A transfer of an account to itself reads one
balance twice and books on it twice, and what it writes of the second is wrong.

Whether there is enough money is asked where it is taken out, and not what sign it has.
A deposit of a negative amount takes money out of an account whose password nobody has
given, and so does a transfer of one.
-/
import Muduo.Proofs.Transactions
import Mathlib.Logic.Relation

namespace Bank

open Lib MysqlDB BankService Database

/-! ### Entries -/

/-- A balance is changed and a row says so. -/
def Database.enter (db : Database) (accountId cents : Int) (t : Trans) : Database :=
  (db.write (.addBalance accountId cents)).write (.insertTrans t)

theorem account?_enter (db : Database) (i cents : Int) (t : Trans) (j : Int) :
    (db.enter i cents t).account? j
      = if j = i then (db.account? i).map fun r => { r with balance := r.balance + cents }
        else db.account? j :=
  account?_addBalance db i cents j

/-- The account an entry is about. -/
theorem account?_enter_self {db : Database} {i : Int} {r : BankAccount} (h : db.account? i = some r)
    (cents : Int) (t : Trans) :
    (db.enter i cents t).account? i = some { r with balance := r.balance + cents } := by
  rw [account?_enter, if_pos rfl, h]
  rfl

theorem account?_enter_ne {db : Database} {i j : Int} (h : j ≠ i) (cents : Int) (t : Trans) :
    (db.enter i cents t).account? j = db.account? j := by
  rw [account?_enter, if_neg h]

/-- The balance of each account is the one in the latest row about it. -/
def Consistent (db : Database) : Prop :=
  ∀ i r, db.account? i = some r → ∃ t, db.IsLatest t ∧ t.accountId = i ∧ t.balance = r.balance

/-- An entry whose row has the new balance, and the highest number. -/
theorem Consistent.enter {db : Database} (h : Consistent db) {i : Int} (cents : Int) {t : Trans}
    {r : BankAccount} (hr : db.account? i = some r) (hnew : ∀ u ∈ db.trans.rows, u.transId < t.transId)
    (haccount : t.accountId = i) (hbalance : t.balance = r.balance + cents) :
    Consistent (db.enter i cents t) := by
  have hrows : (db.enter i cents t).trans.rows = db.trans.rows ++ [t] := by
    refine Table.rows_insert (Table.find?_eq_none_of_notMem fun hmem => ?_)
    obtain ⟨u, hu, hid⟩ := List.mem_map.mp hmem
    exact absurd hid (Int.ne_of_lt (hnew u hu))
  intro j rj hj
  by_cases hji : j = i
  · subst hji
    rw [account?_enter_self hr] at hj
    cases hj
    refine ⟨t, ⟨?_, fun u hu _ => ?_⟩, haccount, hbalance⟩
    · rw [hrows]
      simp
    · rw [hrows] at hu
      rcases List.mem_append.mp hu with hu | hu
      · exact Int.le_of_lt (hnew u hu)
      · rw [List.mem_singleton.mp hu]
  · rw [account?_enter_ne hji] at hj
    obtain ⟨u, ⟨hmem, hlast⟩, hacc, hbal⟩ := h j rj hj
    refine ⟨u, ⟨?_, fun v hv hsame => ?_⟩, hacc, hbal⟩
    · rw [hrows]
      simp [hmem]
    · rw [hrows] at hv
      rcases List.mem_append.mp hv with hv | hv
      · exact hlast v hv hsame
      · rw [List.mem_singleton.mp hv, haccount, hacc] at hsame
        exact absurd hsame.symm hji

/-! ### What a booking does -/

/-- A booking that is accepted: the database it leaves, and the balance it answers with. -/
inductive Accepts (sys : System) (d : Dialect) (s : Server) (a : Account) :
    Booking → Database → ℚ → Prop
  | deposit {r : BankAccount} {date : Nat}
      (open_ : Server.find d s.db (.number a.accountId) .flagZero = some r) :
      Accepts sys d s a .deposit
        (s.db.enter a.accountId (roundCents a.balance) ⟨s.nextTransId, a.accountId, none, 2,
          roundCents a.balance, roundCents (r.balance / 100 + a.balance), date⟩)
        (a.balance + r.balance / 100)
  | withDraw {r : BankAccount} {date : Nat}
      (pass : Server.find d s.db (.number a.accountId) (.pass a.pass) = some r)
      (enough : a.balance ≤ r.balance / 100) :
      Accepts sys d s a .withDraw
        (s.db.enter a.accountId (-roundCents a.balance) ⟨s.nextTransId, a.accountId, none, 3,
          roundCents a.balance, roundCents (r.balance / 100 - a.balance), date⟩)
        (r.balance / 100 - a.balance)
  | transfer {r r₂ : BankAccount} {date date₂ : Nat} {other : Bytes}
      (pass : Server.find d s.db (.number a.accountId) (.pass a.pass) = some r)
      (enough : a.balance ≤ r.balance / 100)
      (open_ : Server.find d s.db (.text other) .flagZero = some r₂) :
      Accepts sys d s a (.transfer other)
        ((s.db.enter a.accountId (-roundCents a.balance) ⟨s.nextTransId, a.accountId,
            some (Convert.stringToInt sys.junk other), 5, roundCents a.balance,
            roundCents (r.balance / 100 - a.balance), date⟩).enter
          (d.idOf other) (roundCents a.balance) ⟨s.nextTransId + 1,
            Convert.stringToInt sys.junk other, some a.accountId, 4, roundCents a.balance,
            roundCents (r₂.balance / 100 + a.balance), date₂⟩)
        (r.balance / 100 - a.balance)

/-- A plan that answers with zero accepts, and any other changes nothing. -/
theorem accepts_of_plan (sys : System) (d : Dialect) (s : Server) (a : Account) (b : Booking)
    (hret : (b.plan sys d s a).ret = 0) :
    ∃ balance, (b.plan sys d s a).balance = some balance ∧
      Accepts sys d s a b (s.db.replay (b.plan sys d s a).writes) balance := by
  cases b with
  | deposit =>
      revert hret
      show (depositPlan d s a).ret = 0 → ∃ balance, (depositPlan d s a).balance = some balance ∧
        Accepts sys d s a .deposit (s.db.replay (depositPlan d s a).writes) balance
      unfold depositPlan
      cases hopen : Server.find d s.db (.number a.accountId) .flagZero with
      | none => exact fun h => absurd h (by decide : (2 : Int) ≠ 0)
      | some r => exact fun _ => ⟨_, rfl, .deposit hopen⟩
  | withDraw =>
      revert hret
      show (withDrawPlan d s a).ret = 0 → ∃ balance, (withDrawPlan d s a).balance = some balance ∧
        Accepts sys d s a .withDraw (s.db.replay (withDrawPlan d s a).writes) balance
      unfold withDrawPlan checkedPlan
      cases Server.find d s.db (.number a.accountId) .flagZero with
      | none => exact fun h => absurd h (by decide : (2 : Int) ≠ 0)
      | some _ =>
          cases hpass : Server.find d s.db (.number a.accountId) (.pass a.pass) with
          | none => exact fun h => absurd h (by decide : (3 : Int) ≠ 0)
          | some r =>
              by_cases henough : a.balance > r.balance / 100
              · simp only [if_pos henough]
                exact fun h => absurd h (by decide : (4 : Int) ≠ 0)
              · simp only [if_neg henough]
                exact fun _ => ⟨_, rfl, .withDraw hpass (not_lt.mp henough)⟩
  | transfer other =>
      revert hret
      show (transferPlan sys d s a other).ret = 0 → ∃ balance,
        (transferPlan sys d s a other).balance = some balance ∧
          Accepts sys d s a (.transfer other) (s.db.replay (transferPlan sys d s a other).writes) balance
      unfold transferPlan checkedPlan
      cases Server.find d s.db (.number a.accountId) .flagZero with
      | none => exact fun h => absurd h (by decide : (2 : Int) ≠ 0)
      | some _ =>
          cases hpass : Server.find d s.db (.number a.accountId) (.pass a.pass) with
          | none => exact fun h => absurd h (by decide : (3 : Int) ≠ 0)
          | some r =>
              by_cases henough : a.balance > r.balance / 100
              · simp only [if_pos henough]
                exact fun h => absurd h (by decide : (4 : Int) ≠ 0)
              · simp only [if_neg henough]
                cases hopen : Server.find d s.db (.text other) .flagZero with
                | none => exact fun h => absurd h (by decide : (5 : Int) ≠ 0)
                | some r₂ => exact fun _ => ⟨_, rfl, .transfer hpass (not_lt.mp henough) hopen⟩

/-- A booking that has been asked for, and has come to its end. -/
structure Booked (sys : System) (d : Dialect) (b : Booking) (l : Locals) (w : World) (ret : Int)
    (l' : Locals) (w' : World) : Prop where
  new : l.New
  run : ((b.service sys).start l).run (answer d .healthy) w = ((.ok ret, l'), w')

variable {sys : System} {d : Dialect} {b : Booking} {l l' : Locals} {w w' : World} {ret : Int}

/-- Where nothing fails a booking is accepted or changes nothing. -/
theorem Booked.cases (h : Booked sys d b l w ret l' w') (hw : w.server.Fresh) :
    w'.server.Fresh ∧
      (ret = 0 ∧ Accepts sys d w.server l.account b w'.server.db l'.account.balance ∨
        ret ≠ 0 ∧ w'.server.db = w.server.db) := by
  have hends := b.ends sys d (fun _ => none) hw h.new
  have hhonest := b.honest_plan sys d w.server l.account
  unfold Ends at hends
  rw [Proc.wp, Prog.wp_ofHandler,
    show ((b.service sys).start l).run (answer d (.ofFaults fun _ => none)) w = _ from h.run] at hends
  obtain ⟨hfresh, ⟨hret, hbalance, -, -, hdb⟩ | ⟨-, k, -, hfirst, -⟩⟩ := hends
  · rw [hhonest.dbAt_calls] at hdb
    refine ⟨hfresh, ?_⟩
    by_cases hzero : ret = 0
    · obtain ⟨balance, hsome, haccepts⟩ := accepts_of_plan sys d w.server l.account b (hret ▸ hzero)
      rw [← hdb, ← hbalance balance hsome] at haccepts
      exact Or.inl ⟨hzero, haccepts⟩
    · refine Or.inr ⟨hzero, ?_⟩
      rw [hdb, hhonest.2 (hret ▸ hzero)]
      rfl
  · exact absurd rfl hfirst.2

/-- What a booking of so many cents adds to the money in the bank. -/
def Booking.moves (cents : Int) : Booking → Int
  | deposit => cents
  | withDraw => -cents
  | transfer _ => 0

/-- No balance is below zero. -/
def Covered (db : Database) : Prop := ∀ i r, db.account? i = some r → 0 ≤ r.balance

/-- An entry that leaves its account covered leaves all covered. -/
theorem Covered.enter {db : Database} (h : Covered db) {i : Int} (cents : Int) {r : BankAccount}
    (hr : db.account? i = some r) (hcents : 0 ≤ r.balance + cents) (t : Trans) :
    Covered (db.enter i cents t) := by
  intro j rj hj
  by_cases hji : j = i
  · subst hji
    rw [account?_enter_self hr] at hj
    cases hj
    exact hcents
  · rw [account?_enter_ne hji] at hj
    exact h j rj hj

end Bank
