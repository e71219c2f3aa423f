/-
`BankService`: what the bank does for each command.

The statements are sent in the order of the source, and each `if` stands where it
stands there.  An operation answers with the code its command turns into a message:
zero, a refusal, or -1 from the `catch`.  The sources of the two servers agree in
everything that is written here.
-/
import Muduo.Bank.MysqlDB

namespace Bank

open Lib MysqlDB

/-- What the server's configuration and its storage contribute. -/
structure System where
  junk : Junk
  interestRate : ℚ

namespace BankService

variable (sys : System)

def userLogin (user pass : Bytes) : Service Int := withDb <| catchException
  (do
    connect
    let rs ← querySQL (.selectTeller user pass)
    if rs.length < 1 then return 1
    return 0)
  (return -1)

def openAccount : Service Int := withDb <| catchException
  (do
    connect
    startTransaction
    let account := (← Proc.get).account
    execSQL (.insertAccount account.name account.pass account.id (roundCents account.balance))
    let accountId ← getInsertId
    Proc.modify fun l => { l with account := { l.account with accountId := accountId } }
    execSQL (.insertTrans accountId none 1 (roundCents account.balance) (roundCents account.balance))
    commit
    let rs ← querySQL (.selectOpenDate accountId)
    let opDate ← getItem rs 0 .openDate
    Proc.modify fun l => { l with account := { l.account with opDate := opDate.str } }
    return 0)
  (do
    rollback
    return -1)

def deposit : Service Int := withDb <| catchException
  (do
    connect
    startTransaction
    let account := (← Proc.get).account
    let rs ← querySQL (.selectBalance (.number account.accountId) .flagZero true)
    if rs.length < 1 then return 2
    let balance := (← getItem rs 0 .balance).toDouble sys.junk
    execSQL (.updateBalance (.number account.accountId) (roundCents account.balance))
    execSQL (.insertTrans account.accountId none 2 (roundCents account.balance)
      (roundCents (balance + account.balance)))
    let transId ← getInsertId
    commit
    let rs ← querySQL (.selectTransName transId)
    let name ← getItem rs 0 .name
    let opDate ← getItem rs 0 .transDate
    Proc.modify fun l =>
      { l with
        account :=
          { l.account with name := name.str, opDate := opDate.str, balance := account.balance + balance } }
    return 0)
  (do
    rollback
    return -1)

def withDraw : Service Int := withDb <| catchException
  (do
    connect
    startTransaction
    let account := (← Proc.get).account
    let rs ← querySQL (.selectBalance (.number account.accountId) .flagZero false)
    if rs.length < 1 then return 2
    let rs ← querySQL (.selectBalance (.number account.accountId) (.pass account.pass) true)
    if rs.length < 1 then return 3
    let balance := (← getItem rs 0 .balance).toDouble sys.junk
    if account.balance > balance then return 4
    execSQL (.updateBalance (.number account.accountId) (-roundCents account.balance))
    execSQL (.insertTrans account.accountId none 3 (roundCents account.balance)
      (roundCents (balance - account.balance)))
    let transId ← getInsertId
    commit
    let rs ← querySQL (.selectTransName transId)
    let name ← getItem rs 0 .name
    let opDate ← getItem rs 0 .transDate
    Proc.modify fun l =>
      { l with
        account :=
          { l.account with name := name.str, opDate := opDate.str, balance := balance - account.balance } }
    return 0)
  (do
    rollback
    return -1)

def transfer (otherAccountId : Bytes) : Service Int := withDb <| catchException
  (do
    connect
    startTransaction
    let account := (← Proc.get).account
    let rs ← querySQL (.selectBalance (.number account.accountId) .flagZero false)
    if rs.length < 1 then return 2
    let rs ← querySQL (.selectBalance (.number account.accountId) (.pass account.pass) true)
    if rs.length < 1 then return 3
    let balance := (← getItem rs 0 .balance).toDouble sys.junk
    if account.balance > balance then return 4
    let rs ← querySQL (.selectBalance (.text otherAccountId) .flagZero true)
    if rs.length < 1 then return 5
    let balance2 := (← getItem rs 0 .balance).toDouble sys.junk
    execSQL (.updateBalance (.number account.accountId) (-roundCents account.balance))
    execSQL (.updateBalance (.text otherAccountId) (roundCents account.balance))
    let other_account_id := Convert.stringToInt sys.junk otherAccountId
    execSQL (.insertTrans account.accountId (some other_account_id) 5 (roundCents account.balance)
      (roundCents (balance - account.balance)))
    let transId ← getInsertId
    let rs ← querySQL (.selectTransName transId)
    execSQL (.insertTrans other_account_id (some account.accountId) 4 (roundCents account.balance)
      (roundCents (balance2 + account.balance)))
    commit
    Proc.modify fun l => { l with account := { l.account with balance := balance - account.balance } }
    let name ← getItem rs 0 .name
    let opDate ← getItem rs 0 .transDate
    Proc.modify fun l =>
      { l with account := { l.account with name := name.str, opDate := opDate.str } }
    return 0)
  (do
    rollback
    return -1)

def balanceInquiry : Service Int := withDb <| catchException
  (do
    connect
    let account := (← Proc.get).account
    let rs ← querySQL (.selectBalance (.number account.accountId) .flagZero false)
    if rs.length < 1 then return 2
    let rs ← querySQL (.selectBalance (.number account.accountId) (.pass account.pass) false)
    if rs.length < 1 then return 3
    let balance ← getItem rs 0 .balance
    Proc.modify fun l =>
      { l with account := { l.account with balance := balance.toDouble sys.junk } }
    let rs ← querySQL (.selectNameNow account.accountId .queryDate)
    let name ← getItem rs 0 .name
    let opDate ← getItem rs 0 .queryDate
    Proc.modify fun l =>
      { l with account := { l.account with name := name.str, opDate := opDate.str } }
    return 0)
  (return -1)

def changePassword (newPass : Bytes) : Service Int := withDb <| catchException
  (do
    connect
    let account := (← Proc.get).account
    let rs ← querySQL (.selectBalance (.number account.accountId) .flagZero false)
    if rs.length < 1 then return 2
    let rs ← querySQL (.selectBalance (.number account.accountId) (.pass account.pass) false)
    if rs.length < 1 then return 3
    execSQL (.updatePass account.accountId newPass)
    return 0)
  (return -1)

/-- One row of a bill's result, as a `TransDetail`. -/
def toDetail (total : Int) (rs : Recordset) (i : Nat) : Service TransDetail := do
  let accountId ← getItem rs i .accountId
  let otherAccountId ← getItem rs i .otherAccountId
  let abstractName ← getItem rs i .name
  let money ← getItem rs i .money
  let balance ← getItem rs i .balance
  let transDate ← getItem rs i .transDate
  return {
    accountId := accountId.str
    otherAccountId := otherAccountId.str
    abstractName := abstractName.str
    money := money.toDouble sys.junk
    balance := balance.toDouble sys.junk
    transDate := transDate.str
    total := UInt32.ofInt total }

/-- `result.push_back(td)` for the rows from the `i`-th on. -/
def pushDetails (total : Int) (rs : Recordset) : List Nat → Service Unit
  | [] => pure ()
  | i :: rest => do
      let td ← toDetail sys total rs i
      Proc.modify fun l => { l with result := l.result ++ [td] }
      pushDetails total rs rest

/-- `a * b` for two `int`s, which keeps 32 bits. -/
def mulInt (a b : Int) : Int := (a * b).bmod 4294967296

/-- The three bill queries, which differ in the rows they are about. -/
def queryBill (filter : BillFilter) (page : Int) : Service Int := withDb <| catchException
  (do
    connect
    let rs ← querySQL (.countTrans filter)
    let total := (← getItem rs 0 .total).toInt sys.junk
    let rs ← querySQL (.selectTrans filter (mulInt page 15))
    if rs.length < 1 then return 6
    pushDetails sys total rs (List.range rs.length)
    return 0)
  (return -1)

def queryDayBill (page : Int) (date : Bytes) : Service Int :=
  queryBill sys (.day date) page

def queryHistoryBill (page : Int) (first last : Bytes) : Service Int :=
  queryBill sys (.days first last) page

def queryAccountHistoryBill (page : Int) (accountId first last : Bytes) : Service Int :=
  queryBill sys (.accountDays accountId first last) page

def closeAccount : Service Int := withDb <| catchException
  (do
    connect
    startTransaction
    let account := (← Proc.get).account
    let rs ← querySQL (.selectBalance (.number account.accountId) .flagZero false)
    if rs.length < 1 then return 2
    let rs ← querySQL (.selectBalance (.number account.accountId) (.pass account.pass) true)
    if rs.length < 1 then return 3
    let balance ← getItem rs 0 .balance
    Proc.modify fun l =>
      { l with account := { l.account with balance := balance.toDouble sys.junk } }
    let rs ← querySQL (.selectInterest account.accountId sys.interestRate)
    let interest ← getItem rs 0 .interest
    Proc.modify fun l => { l with interest := interest.toDouble sys.junk }
    execSQL (.updateFlag account.accountId)
    commit
    let rs ← querySQL (.selectNameNow account.accountId .closeDate)
    let name ← getItem rs 0 .name
    let opDate ← getItem rs 0 .closeDate
    Proc.modify fun l =>
      { l with account := { l.account with name := name.str, opDate := opDate.str } }
    return 0)
  (return -1)

end BankService

end Bank
