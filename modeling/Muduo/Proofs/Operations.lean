/-
What each operation of the bank is for, and that it does it.

The plans say it in a few lines each; the theorems behind them run the operations
statement by statement.  Nothing is assumed of the database but that its counters are
ahead of its rows.
-/
import Muduo.Proofs.Plans

namespace Bank

open Lib MysqlDB BankService Database

variable {d : Dialect} {l : Locals} {w₀ : World}

/-! ### The plans -/

/-- A balance is changed and a row says so; `calls` have been made before. -/
def bookedPlan (calls : Nat) (h : 2 ≤ calls) (accountId cents : Int) (row : Trans) (balance : ℚ) :
    Plan where
  ret := 0
  calls := calls + 4
  commit := calls + 2
  writes := [.addBalance accountId cents, .insertTrans row]
  balance := some balance
  opened := by omega
  commit_le := by omega
  two_lt := by omega

/-- Deposit: the account is open. -/
def depositPlan (d : Dialect) (s : Server) (a : Account) : Plan :=
  match Server.find d s.db (.number a.accountId) .flagZero with
  | none => .reading 2 4
  | some r =>
      bookedPlan 4 (by decide) a.accountId (roundCents a.balance)
        ⟨s.nextTransId, a.accountId, none, 2, roundCents a.balance,
          roundCents (r.balance / 100 + a.balance), d.time (s.clock + 3)⟩ (a.balance + r.balance / 100)

/-- What is done by operations that ask for a password: the account is open, and the
password is right.  `calls` have been made before. -/
def checkedPlan (d : Dialect) (db : Database) (a : Account) (calls : Nat) (h : 2 ≤ calls)
    (plan : BankAccount → Plan) : Plan :=
  match Server.find d db (.number a.accountId) .flagZero with
  | none => .reading 2 (calls + 1) (by omega)
  | some _ =>
      match Server.find d db (.number a.accountId) (.pass a.pass) with
      | none => .reading 3 (calls + 2) (by omega)
      | some r => plan r

/-- What holds of the two refusals and of the rest holds of the whole. -/
theorem checkedPlan_of {P : Plan → Prop} (h2 : ∀ n h, P (.reading 2 n h)) (h3 : ∀ n h, P (.reading 3 n h))
    {d : Dialect} {db : Database} {a : Account} {calls : Nat} {h : 2 ≤ calls}
    {plan : BankAccount → Plan} (hplan : ∀ r, P (plan r)) : P (checkedPlan d db a calls h plan) := by
  unfold checkedPlan
  cases Server.find d db (.number a.accountId) .flagZero with
  | none => exact h2 _ _
  | some _ =>
      cases Server.find d db (.number a.accountId) (.pass a.pass) with
      | none => exact h3 _ _
      | some r => exact hplan r

/-- Withdrawal: there is enough money. -/
def withDrawPlan (d : Dialect) (s : Server) (a : Account) : Plan :=
  checkedPlan d s.db a 3 (by decide) fun r =>
    if a.balance > r.balance / 100 then .reading 4 5
    else
      bookedPlan 5 (by decide) a.accountId (-roundCents a.balance)
        ⟨s.nextTransId, a.accountId, none, 3, roundCents a.balance,
          roundCents (r.balance / 100 - a.balance), d.time (s.clock + 4)⟩ (r.balance / 100 - a.balance)

/-- Transfer: there is enough money, and the other account is open.  One account is debited,
the other credited, and each gets its row. -/
def transferPlan (sys : System) (d : Dialect) (s : Server) (a : Account) (other : Bytes) : Plan :=
  checkedPlan d s.db a 3 (by decide) fun r =>
    if a.balance > r.balance / 100 then .reading 4 5
    else
      match Server.find d s.db (.text other) .flagZero with
      | none => .reading 5 6
      | some r₂ =>
          let otherId := Convert.stringToInt sys.junk other
          { ret := 0, calls := 12, commit := 11
            writes := [.addBalance a.accountId (-roundCents a.balance),
              .addBalance (d.idOf other) (roundCents a.balance),
              .insertTrans ⟨s.nextTransId, a.accountId, otherId, 5, roundCents a.balance,
                roundCents (r.balance / 100 - a.balance), d.time (s.clock + 6)⟩,
              .insertTrans ⟨s.nextTransId + 1, otherId, a.accountId, 4, roundCents a.balance,
                roundCents (r₂.balance / 100 + a.balance), d.time (s.clock + 8)⟩]
            balance := some (r.balance / 100 - a.balance) }

/-- Opening: a new account, and a first row for it. -/
def openAccountPlan (d : Dialect) (s : Server) (a : Account) : Plan where
  ret := 0
  calls := 7
  commit := 5
  writes := [.insertAccount ⟨s.nextAccountId, d.quoted 16 a.name, d.quoted 16 a.pass,
      d.quoted 18 a.id, roundCents a.balance, d.time (s.clock + 1), 0⟩,
    .insertTrans ⟨s.nextTransId, s.nextAccountId, none, 1, roundCents a.balance,
      roundCents a.balance, d.time (s.clock + 2)⟩]
  balance := none

/-- Closing: the flag is set, and nothing else. -/
def closeAccountPlan (d : Dialect) (s : Server) (a : Account) : Plan :=
  checkedPlan d s.db a 3 (by decide) fun r =>
    { ret := 0, calls := 9, commit := 7, writes := [.setFlag a.accountId]
      balance := some (r.balance / 100) }

/-- Inquiry changes nothing. -/
def balanceInquiryPlan (d : Dialect) (s : Server) (a : Account) : Plan :=
  checkedPlan d s.db a 2 (by decide) fun r =>
    { ret := 0, calls := 5, commit := 5, writes := [], balance := some (r.balance / 100) }

/-- A new password, set outside any transaction. -/
def changePasswordPlan (d : Dialect) (s : Server) (a : Account) (newPass : Bytes) : Plan :=
  checkedPlan d s.db a 2 (by decide) fun _ =>
    { ret := 0, calls := 5, commit := 4, writes := [.setPass a.accountId (d.quoted 16 newPass)]
      balance := none }

/-- A teller is looked up. -/
def userLoginPlan (d : Dialect) (s : Server) (user pass : Bytes) : Plan :=
  .reading (if Server.select d s.db s.clock (.selectTeller user pass) = [] then 1 else 0) 3

/-- A page of a bill is looked up. -/
def queryBillPlan (d : Dialect) (s : Server) (filter : BillFilter) (page : Int) : Plan :=
  let rs := Server.select d s.db (s.clock + 1) (.selectTrans filter (mulInt page 15))
  { Plan.reading (if rs = [] then 6 else 0) 4 with rows := rs.length }

/-! ### The operations follow their plans -/

section

variable {fault : Nat → Option Bytes} {w : World} {k : Nat} {s : Session}

/-- The check of flag and password, before which nothing has been changed. -/
theorem At.check (h : At (.ofFaults fault) w₀ (k + 2) s w) (hm : l.mysql = true) {a : Account}
    {forUpdate : Bool} (hl : l.result = []) (hview : s.view = s.server.db) (hdb : s.server.db = w₀.server.db)
    {plan : BankAccount → Plan} (hplan : ∀ r, k + 3 < (plan r).calls ∧ k + 3 ≤ (plan r).commit)
    {f : Recordset → Service Int}
    (hok : ∀ r, Server.find d s.view (.number a.accountId) (.pass a.pass) = some r →
      ∀ w', At (.ofFaults fault) w₀ (k + 4) (s.tick 2) w' →
        Proc.wp (library d (.ofFaults fault)) (f (balanceRows (some r)))
          (Completes (.ofFaults fault) (plan r) w₀) (Breaks (.ofFaults fault) (plan r) w₀) l w') :
    Proc.wp (library d (.ofFaults fault))
      (do
        let rs ← querySQL (.selectBalance (.number a.accountId) .flagZero false)
        if rs.length < 1 then return 2
        let rs ← querySQL (.selectBalance (.number a.accountId) (.pass a.pass) forUpdate)
        if rs.length < 1 then return 3
        f rs)
      (Completes (.ofFaults fault) (checkedPlan d s.view a (k + 2) (by omega) plan) w₀)
      (Breaks (.ofFaults fault) (checkedPlan d s.view a (k + 2) (by omega) plan) w₀) l w := by
  have hfirst := Session.serve_selectBalance hview d (.number a.accountId) .flagZero false
  have hsecond := Session.serve_selectBalance (show (s.tick 1).view = (s.tick 1).server.db from hview)
    d (.number a.accountId) (.pass a.pass) forUpdate
  have hdbAt : ∀ {plan : Plan} {n : Nat}, n ≤ plan.commit → ∀ {db}, db = w₀.server.db →
      db = plan.dbAt w₀.server.db n := fun hn _ hdb => hdb.trans (Plan.dbAt_of_le hn _).symm
  unfold checkedPlan
  cases hopen : Server.find d s.view (.number a.accountId) .flagZero with
  | none =>
      refine h.query hm (by simp [Plan.reading]) (hdbAt (by simp [Plan.reading]) hdb)
        (select_of_find hopen) fun w₁ h₁ => ?_
      rw [hfirst] at h₁
      exact h₁.reads hl hdb
  | some r' =>
      cases hpass : Server.find d s.view (.number a.accountId) (.pass a.pass) with
      | none =>
          refine h.query hm (by simp [Plan.reading]) (hdbAt (by simp [Plan.reading]) hdb)
            (select_of_find hopen) fun w₁ h₁ => ?_
          rw [hfirst] at h₁
          refine h₁.query hm (by simp [Plan.reading]) (hdbAt (by simp [Plan.reading]) hdb)
            (select_of_find hpass) fun w₂ h₂ => ?_
          rw [hsecond] at h₂
          exact h₂.reads hl hdb
      | some r =>
          obtain ⟨hcalls, hcommit⟩ := hplan r
          refine h.query hm (by simp only; omega) (hdbAt (by simp only; omega) hdb)
            (select_of_find hopen) fun w₁ h₁ => ?_
          rw [hfirst] at h₁
          refine h₁.query hm (by simp only; omega) (hdbAt (by simp only; omega) hdb)
            (select_of_find hpass) fun w₂ h₂ => ?_
          rw [hsecond] at h₂
          exact hok r hpass w₂ h₂

/-- Changing a balance and writing the row about it: the rest of a deposit and of a
withdrawal, once the account has been read. -/
theorem At.book {nextAccountId nextTransId id accountId : Int} {clock : Nat}
    (h : At (.ofFaults fault) w₀ (k + 2)
      (.within w₀.server.db w₀.server.db nextAccountId nextTransId clock id) w)
    (hm : l.mysql = true) (hl : l.result = []) {r : BankAccount}
    (hr : w₀.server.db.account? accountId = some r)
    (hnew : w₀.server.db.trans.find? nextTransId = none) {cents money after : Int} {kind : Nat} {b : ℚ} :
    let plan := bookedPlan (k + 2) (by omega) accountId cents
      ⟨nextTransId, accountId, none, kind, money, after, d.time (clock + 1)⟩ b
    Proc.wp (library d (.ofFaults fault))
      (do
        execSQL (.updateBalance (.number accountId) cents)
        execSQL (.insertTrans accountId none kind money after)
        let transId ← getInsertId
        commit
        let rs ← querySQL (.selectTransName transId)
        let name ← getItem rs 0 .name
        let opDate ← getItem rs 0 .transDate
        Proc.modify fun l =>
          { l with account := { l.account with name := name.str, opDate := opDate.str, balance := b } }
        return 0)
      (Completes (.ofFaults fault) plan w₀) (Breaks (.ofFaults fault) plan w₀) l w := by
  intro plan
  have hbefore : ∀ n, n ≤ k + 4 → w₀.server.db = plan.dbAt w₀.server.db n :=
    fun n hn => (Plan.dbAt_of_le hn _).symm
  have hafter : ∀ n, k + 4 < n → w₀.server.db.replay plan.writes = plan.dbAt w₀.server.db n :=
    fun n hn => (Plan.dbAt_of_lt hn _).symm
  have hcalls : plan.calls = k + 6 := rfl
  set row : Trans := ⟨nextTransId, accountId, none, kind, money, after, d.time (clock + 1)⟩
  refine h.exec hm (by omega) (hbefore _ (by omega)) fun w₁ h₁ => ?_
  refine h₁.exec hm (by omega) (hbefore _ (by omega)) fun w₂ h₂ => ?_
  have h₂ : At _ w₀ (k + 4) (.within w₀.server.db (w₀.server.db.replay plan.writes) nextAccountId
    (nextTransId + 1) (clock + 2) nextTransId) w₂ := h₂
  refine h₂.insertId (h₂.exec hm (by omega) (hbefore _ (by omega)) fun w₃ h₃ => ?_)
  refine h₃.query hm (by omega) (hafter _ (by omega)) (select_selectTransName
    ((find?_insertTrans (by exact hnew) _).trans (if_pos rfl))
    ((account?_addBalance _ _ _ _).trans ((if_pos rfl).trans (congrArg _ hr))) _) fun w₄ h₄ => ?_
  exact h₄.returns (fun b hb => Option.some.inj hb) (congrArg List.length hl) (hafter _ (by omega))

end

/-- The account is there when it has been debited and another one credited. -/
private theorem account?_transferred {db : Database} {i : Int} {r : BankAccount}
    (h : db.account? i = some r) (j cents : Int) :
    ∃ r', ((db.write (.addBalance i (-cents))).write (.addBalance j cents)).account? i = some r' := by
  have hdebited := (account?_addBalance db i (-cents) i).trans (if_pos rfl)
  rw [h] at hdebited
  rw [account?_addBalance]
  by_cases hij : i = j
  · subst hij
    rw [if_pos rfl, hdebited]
    exact ⟨_, rfl⟩
  · rw [if_neg hij, hdebited]
    exact ⟨_, rfl⟩

variable (sys : System) {fault : Nat → Option Bytes} (hw : w₀.server.Fresh) (hl : l.New)

include hw hl

theorem deposit_ends :
    Ends d (.ofFaults fault) (depositPlan d w₀.server l.account) true (deposit sys) l w₀ := by
  refine Follows.returns_or_leaves (wp_begin hw hl fun w₃ h₃ => ?_)
  rw [Proc.wp_bind, Proc.wp_get]
  unfold depositPlan
  cases hfind : Server.find d w₀.server.db (.number l.account.accountId) .flagZero with
  | none =>
      refine h₃.query rfl (by simp [Plan.reading]) rfl (select_of_find hfind) fun w₄ h₄ => ?_
      exact h₄.reads hl.opened rfl
  | some r =>
      refine h₃.query rfl (by simp [bookedPlan]) rfl (select_of_find hfind) fun w₄ h₄ => ?_
      exact h₄.book rfl hl.opened (Server.account?_of_find hfind).1 (Server.find?_nextTransId hw)

theorem withDraw_ends :
    Ends d (.ofFaults fault) (withDrawPlan d w₀.server l.account) true (withDraw sys) l w₀ := by
  refine Follows.returns_or_leaves (wp_begin hw hl fun w₃ h₃ => ?_)
  rw [Proc.wp_bind, Proc.wp_get]
  unfold withDrawPlan
  refine h₃.check rfl hl.opened rfl rfl ?_ fun r hr w₅ h₅ => ?_
  · intro r
    split <;> simp [Plan.reading, bookedPlan]
  · show Proc.wp _ (if l.account.balance > r.balance / 100 then _ else _) _ _ _ _
    split
    · exact h₅.reads hl.opened rfl
    · exact h₅.book rfl hl.opened (Server.account?_of_find hr).1 (Server.find?_nextTransId hw)

theorem transfer_ends (other : Bytes) :
    Ends d (.ofFaults fault) (transferPlan sys d w₀.server l.account other) true
      (transfer sys other) l w₀ := by
  refine Follows.returns_or_leaves (wp_begin hw hl fun w₃ h₃ => ?_)
  rw [Proc.wp_bind, Proc.wp_get]
  unfold transferPlan
  refine h₃.check rfl hl.opened rfl rfl ?_ fun r hr w₅ h₅ => ?_
  · intro r
    split
    · simp [Plan.reading]
    · split <;> simp [Plan.reading]
  · show Proc.wp _ (if l.account.balance > r.balance / 100 then _ else _) _ _ _ _
    obtain ⟨hr, -⟩ := Server.account?_of_find hr
    split
    · exact h₅.reads hl.opened rfl
    · cases hother : Server.find d w₀.server.db (.text other) .flagZero with
      | none =>
          refine h₅.query rfl (by simp [Plan.reading]) rfl (select_of_find hother) fun w₆ h₆ => ?_
          exact h₆.reads hl.opened rfl
      | some r₂ =>
          refine h₅.query rfl (by simp) rfl (select_of_find hother) fun w₆ h₆ => ?_
          refine h₆.exec rfl (by simp) rfl fun w₇ h₇ => ?_
          refine h₇.exec rfl (by simp) rfl fun w₈ h₈ => ?_
          obtain ⟨r', hr'⟩ := account?_transferred hr (d.idOf other) (roundCents l.account.balance)
          set paid := (w₀.server.db.write (.addBalance l.account.accountId
            (-roundCents l.account.balance))).write
              (.addBalance (d.idOf other) (roundCents l.account.balance)) with hpaid
          have h₈ : At _ w₀ 8 (.within w₀.server.db paid w₀.server.nextAccountId
            w₀.server.nextTransId (w₀.server.clock + 6) 0) w₈ := h₈
          refine h₈.exec rfl (by simp) rfl fun w₉ h₉ => ?_
          refine h₉.insertId (h₉.query rfl (by simp) rfl (select_selectTransName
            ((find?_insertTrans (by exact Server.find?_nextTransId hw) _).trans (if_pos rfl))
            hr' _) fun w₁₀ h₁₀ => ?_)
          have h₁₀ : At _ w₀ 10 (.within w₀.server.db _ w₀.server.nextAccountId
            (w₀.server.nextTransId + 1) (w₀.server.clock + 8) w₀.server.nextTransId) w₁₀ := h₁₀
          refine h₁₀.exec rfl (by simp) rfl fun w₁₁ h₁₁ => ?_
          refine h₁₁.exec rfl (by simp) rfl fun w₁₂ h₁₂ => ?_
          exact h₁₂.returns (fun b hb => Option.some.inj hb) (congrArg List.length hl.opened) rfl

theorem openAccount_ends :
    Ends d (.ofFaults fault) (openAccountPlan d w₀.server l.account) true openAccount l w₀ := by
  refine Follows.returns_or_leaves (wp_begin hw hl fun w₃ h₃ => ?_)
  rw [Proc.wp_bind, Proc.wp_get]
  refine h₃.exec rfl (by simp [openAccountPlan]) rfl fun w₄ h₄ => ?_
  refine h₄.insertId ?_
  rw [Proc.wp_bind, Proc.wp_modify]
  refine h₄.exec rfl (by simp [openAccountPlan]) rfl fun w₅ h₅ => ?_
  refine h₅.exec rfl (by simp [openAccountPlan]) rfl fun w₆ h₆ => ?_
  refine h₆.query rfl (by simp [openAccountPlan]) rfl (select_selectOpenDate
    ((account?_insertAccount (by exact Server.account?_nextAccountId hw) _).trans (if_pos rfl))
    (w₀.server.clock + 4))
    fun w₇ h₇ => ?_
  exact h₇.returns (fun b hb => by cases hb) (congrArg List.length hl.opened) rfl

theorem closeAccount_ends :
    Ends d (.ofFaults fault) (closeAccountPlan d w₀.server l.account) false (closeAccount sys) l w₀ := by
  refine Follows.returns (wp_begin hw hl fun w₃ h₃ => ?_)
  rw [Proc.wp_bind, Proc.wp_get]
  unfold closeAccountPlan
  refine h₃.check rfl hl.opened rfl rfl (fun r => by simp) fun r hr w₅ h₅ => ?_
  obtain ⟨hr, -⟩ := Server.account?_of_find hr
  refine h₅.query rfl (by simp) rfl rfl fun w₆ h₆ => ?_
  refine h₆.exec rfl (by simp) rfl fun w₇ h₇ => ?_
  refine h₇.exec rfl (by simp) rfl fun w₈ h₈ => ?_
  refine h₈.query rfl (by simp) rfl (select_selectNameNow
    ((account?_setFlag _ _ _).trans ((if_pos rfl).trans (congrArg _ hr))) _ _) fun w₉ h₉ => ?_
  exact h₉.returns (fun b hb => Option.some.inj hb) (congrArg List.length hl.opened) rfl

theorem balanceInquiry_ends :
    Ends d (.ofFaults fault) (balanceInquiryPlan d w₀.server l.account) false (balanceInquiry sys)
      l w₀ := by
  refine Follows.returns (wp_open hw hl fun w₂ h₂ => ?_)
  rw [Proc.wp_bind, Proc.wp_get]
  unfold balanceInquiryPlan
  refine h₂.check rfl hl.opened rfl rfl (fun r => by simp) fun r hr w₄ h₄ => ?_
  obtain ⟨hr, -⟩ := Server.account?_of_find hr
  refine h₄.query rfl (by simp) rfl (select_selectNameNow hr _ _) fun w₅ h₅ => ?_
  exact h₅.returns (fun b hb => Option.some.inj hb) (congrArg List.length hl.opened) rfl

theorem changePassword_ends (newPass : Bytes) :
    Ends d (.ofFaults fault) (changePasswordPlan d w₀.server l.account newPass) false
      (changePassword newPass) l w₀ := by
  refine Follows.returns (wp_open hw hl fun w₂ h₂ => ?_)
  rw [Proc.wp_bind, Proc.wp_get]
  unfold changePasswordPlan
  refine h₂.check rfl hl.opened rfl rfl (fun r => by simp) fun r hr w₄ h₄ => ?_
  refine h₄.exec rfl (by simp) rfl fun w₅ h₅ => ?_
  exact h₅.returns (fun b hb => by cases hb) (congrArg List.length hl.opened) rfl

theorem userLogin_ends (user pass : Bytes) :
    Ends d (.ofFaults fault) (userLoginPlan d w₀.server user pass) false (userLogin user pass)
      l w₀ := by
  refine Follows.returns (wp_open hw hl fun w₂ h₂ => ?_)
  refine h₂.query rfl (by simp [userLoginPlan, Plan.reading]) rfl rfl fun w₃ h₃ => ?_
  unfold userLoginPlan
  simp only [Nat.lt_one_iff, List.length_eq_zero_iff]
  show Proc.wp _ (if Server.select d w₀.server.db w₀.server.clock (.selectTeller user pass) = [] then _
    else _) _ _ _ _
  split
  · exact h₃.reads hl.opened rfl
  · exact h₃.reads hl.opened rfl

omit hw hl in
/-- Reading a row of a bill. -/
private theorem wp_toDetail {rs : Recordset} {i : Nat} {t : Trans} {a : Abstract}
    (hget : rs[i]? = some (Server.billRow d t a)) (total : Int) {w : World}
    {Q : TransDetail → Locals → World → Prop} {E : Signal → Locals → World → Prop}
    (hok : ∀ td, Q td l w) : Proc.wp (library d (.ofFaults fault)) (toDetail sys total rs i) Q E l w := by
  simp only [toDetail, getItem, hget, Server.billRow]
  exact hok _

omit hw hl in
/-- Reading the rows of a bill adds to the result and changes nothing else. -/
private theorem wp_pushDetails {rs : Recordset}
    (hrs : ∀ row ∈ rs, ∃ t a, row = Server.billRow d t a) (total : Int) {w : World}
    {Q : Unit → Locals → World → Prop} {E : Signal → Locals → World → Prop} (is : List Nat) :
    (∀ i ∈ is, i < rs.length) → ∀ l,
      (∀ result, result.length = l.result.length + is.length → Q () { l with result := result } w) →
      Proc.wp (library d (.ofFaults fault)) (pushDetails sys total rs is) Q E l w := by
  induction is with
  | nil => exact fun _ l hok => hok l.result rfl
  | cons i rest ih =>
      intro his l hok
      obtain ⟨t, a, hrow⟩ := hrs _ (List.getElem_mem (his i (by simp)))
      rw [pushDetails, Proc.wp_bind]
      refine wp_toDetail sys (by rw [List.getElem?_eq_getElem (his i (by simp)), hrow]) total fun td => ?_
      rw [Proc.wp_bind, Proc.wp_modify]
      refine ih (fun j hj => his j (by simp [hj])) _ fun result hlen => hok result ?_
      rw [hlen]
      simp only [List.length_append, List.length_cons, List.length_nil]
      omega

theorem queryBill_ends (filter : BillFilter) (page : Int) :
    Ends d (.ofFaults fault) (queryBillPlan d w₀.server filter page) false (queryBill sys filter page)
      l w₀ := by
  refine Follows.returns (wp_open hw hl fun w₂ h₂ => ?_)
  refine h₂.query rfl (by simp [queryBillPlan, Plan.reading]) rfl rfl fun w₃ h₃ => ?_
  refine h₃.query rfl (by simp [queryBillPlan, Plan.reading]) rfl rfl fun w₄ h₄ => ?_
  unfold queryBillPlan
  simp only [Nat.lt_one_iff, List.length_eq_zero_iff]
  set rs := Server.select d w₀.server.db (w₀.server.clock + 1) (.selectTrans filter (mulInt page 15))
    with hrs
  show Proc.wp _ (if rs = [] then _ else _) _ _ _ _
  by_cases hnil : rs = []
  · rw [if_pos hnil]
    rw [if_pos hnil]
    exact h₄.returns (fun b hb => by cases hb) (by rw [hnil]; exact congrArg List.length hl.opened) rfl
  · rw [if_neg hnil, Proc.wp_bind]
    rw [if_neg hnil]
    refine wp_pushDetails sys ?_ _ _ (fun i hi => List.mem_range.mp hi) _ fun result hlen => ?_
    · intro row hrow
      obtain ⟨t, -, ht⟩ := List.mem_flatMap.mp (List.mem_of_mem_drop (List.mem_of_mem_take hrow))
      obtain ⟨a, -, rfl⟩ := List.mem_map.mp ht
      exact ⟨t, a, rfl⟩
    · refine h₄.returns (fun b hb => by cases hb) (hlen.trans ?_) rfl
      rw [show ({ l with mysql := true } : Locals).result = [] from hl.result, List.length_range]
      exact Nat.zero_add _

end Bank
