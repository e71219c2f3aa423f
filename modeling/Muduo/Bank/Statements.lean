/-
The texts of the statements.

A statement is printed into a stream, with what a request has brought spliced in: texts as they
are, in quotes or without, and account numbers as numbers.  What the server itself knows — an
amount that has been read as a number, the number of a new row, a page, the interest rate —
belongs to the text around it.
-/
import Mathlib.Data.Int.Log
import Mathlib.Data.List.DropRight
import Muduo.Lib.SqlText
import Muduo.Bank.Mysql

namespace Bank

open Lib SqlText

/-! ### Printing -/

/-- `m` with a point in front of its last `k` digits, without the zeros at its end. -/
def trimmedText (m k : Nat) : Bytes :=
  let digits := natText (m % 10 ^ k)
  let kept := (List.replicate (k - digits.length) 48 ++ digits).rdropWhile (· == 48)
  natText (m / 10 ^ k) ++ if kept = [] then [] else 46 :: kept

/-- Six digits, of which the first counts `10 ^ e`. -/
def roundedText (m : Nat) (e : Int) : Bytes :=
  if -4 ≤ e ∧ e < 6 then trimmedText m (5 - e).toNat
  else
    trimmedText m 5 ++ [101, if e < 0 then 45 else 43]
      ++ (List.replicate (2 - (natText e.natAbs).length) 48 ++ natText e.natAbs)

/-- `ss << x` for a `double` that is positive, when the stream is in its initial state. -/
def positiveText (x : ℚ) : Bytes :=
  let e := Int.log 10 x
  let rounded := (roundHalfEven (x * 10 ^ (5 - e))).natAbs
  if rounded = 1000000 then roundedText 100000 (e + 1) else roundedText rounded e

/-- `ss << x` for a `double`. -/
def defaultText (x : ℚ) : Bytes :=
  if x = 0 then [48] else (if x < 0 then [45] else []) ++ positiveText |x|

/-- A text in quotes. -/
def quote (s : Bytes) : Bytes := 39 :: (s ++ [39])

/-! ### The statements -/

/-- An account number as it stands in a statement. -/
def AccountRef.field : AccountRef → Bytes
  | .number n => intText n
  | .text s => s

/-- The rows a bill is about, between what stands before and behind. -/
def BillFilter.statement (before after : Bytes) : BillFilter → Statement
  | .day date =>
      .splice (before ++ ascii "date_format(trans_date, '%Y-%m-%d')=") (quote date) (.text after)
  | .days first last =>
      .splice (before ++ ascii "date_format(trans_date, '%Y-%m-%d') between ") (quote first)
        (.splice (ascii " and ") (quote last) (.text after))
  | .accountDays account first last =>
      .splice (before ++ ascii "account_id=") account
        (.splice (ascii " and date_format(trans_date, '%Y-%m-%d') between ") (quote first)
          (.splice (ascii " and ") (quote last) (.text after)))

/-- One of the three calls the count's table an alias in another way. -/
def BillFilter.countEnd : BillFilter → Bytes
  | .days .. => ascii ") a, abstract b where a.abstract_id = b.abstract_id;"
  | _ => ascii ") as a, abstract b where a.abstract_id = b.abstract_id;"

/-- `update bank_account set balance=balance..` -/
def updateBalanceText (sign : UInt8) (money : ℚ) (account : AccountRef) : Statement :=
  .splice (ascii "update bank_account set balance=balance" ++ sign ::
      (Convert.doubleToString money ++ ascii " where account_id="))
    account.field (.text (ascii ";"))

/-- The text of a statement.  Amounts are printed from the numbers that round to them. -/
def Sql.Says : Sql → Statement → Prop
  | .startTransaction, st => st = .text (ascii "START TRANSACTION")
  | .commit, st => st = .text (ascii "COMMIT")
  | .rollback, st => st = .text (ascii "ROLLBACK")
  | .selectTeller user pass, st =>
      st = .splice (ascii "select teller_name from teller where teller_name=") (quote user)
        (.splice (ascii " and teller_pass=") (quote pass) (.text (ascii ";")))
  | .insertAccount name pass id balance, st =>
      ∃ x, roundCents x = balance ∧
        st = .splice (ascii "insert into bank_account values(null, ") (quote name)
          (.splice (ascii ", ") (quote pass)
            (.splice (ascii ", ") (quote id)
              (.text (ascii ", " ++ Convert.doubleToString x ++ ascii ", now(), 0);"))))
  | .insertTrans accountId otherAccountId abstractId money balance, st =>
      ∃ x y, roundCents x = money ∧ roundCents y = balance ∧
        let rest (other : Bytes) :=
          ascii ", " ++ other ++ natText abstractId ++ ascii ", " ++ Convert.doubleToString x
            ++ ascii ", " ++ Convert.doubleToString y ++ ascii ",  now());"
        st = .splice (ascii "insert into trans values(null, ") (intText accountId)
          (match otherAccountId with
          | none => .text (rest (ascii "null, "))
          | some other => .splice (ascii ", ") (intText other) (.text (rest [])))
  | .selectOpenDate accountId, st =>
      st = .text (ascii "select open_date from bank_account where account_id='"
        ++ intText accountId ++ ascii "';")
  | .selectBalance account cond forUpdate, st =>
      st = .splice (ascii "select balance from bank_account where account_id=") account.field
        (match cond with
        | .flagZero =>
            .text (ascii (if forUpdate then " and flag=0 for update;" else " and flag=0;"))
        | .pass text =>
            .splice (ascii " and pass=") text
              (.text (ascii (if forUpdate then " for update;" else ";"))))
  | .updateBalance account cents, st =>
      ∃ x, roundCents x = cents ∧ st = updateBalanceText 43 x account ∨
        -roundCents x = cents ∧ st = updateBalanceText 45 x account
  | .selectTransName transId, st =>
      st = .text (ascii "select a.name, b.trans_date from bank_account a, "
        ++ ascii "(select account_id, trans_date from trans where trans_id=" ++ intText transId
        ++ ascii ") b where a.account_id=b.account_id;")
  | .selectNameNow accountId column, st =>
      st = .splice (ascii (if column = .closeDate
          then "select name, now() close_date from bank_account where account_id="
          else "select name, now() query_date from bank_account where account_id="))
        (intText accountId) (.text (ascii ";"))
  | .updatePass accountId pass, st =>
      st = .splice (ascii "update bank_account set pass=") (quote pass)
        (.splice (ascii " where account_id=") (intText accountId) (.text (ascii ";")))
  | .updateFlag accountId, st =>
      st = .splice (ascii "update bank_account set flag=1 where account_id=") (intText accountId)
        (.text (ascii ";"))
  | .selectInterest accountId rate, st =>
      st = .splice (ascii "select sum(yy.days*yy.balance)*" ++ (defaultText rate
          ++ (ascii "/360 interest from("
            ++ ascii "select trans_id, balance, trans_date, next_date, "
            ++ ascii "datediff(if(next_date, next_date, now()), trans_date) days from ("
            ++ ascii "select trans_id, balance, trans_date, (select min(trans_date) from ("
            ++ ascii "select * from trans where trans_id in ("
            ++ ascii "select max(trans_id) from trans where account_id=")))
        (intText accountId)
        (.splice (ascii " group by date_format(trans_date, '%Y-%m-%d')))"
            ++ ascii " b where b.trans_date > a.trans_date) next_date from ("
            ++ ascii "select * from trans where trans_id in "
            ++ ascii "(select max(trans_id) from trans where account_id=")
          (intText accountId)
          (.text (ascii " group by date_format(trans_date, '%Y-%m-%d'))) a) xx) yy")))
  | .countTrans filter, st =>
      st = filter.statement (ascii "select count(*) as total from (select * from trans where ")
        filter.countEnd
  | .selectTrans filter offset, st =>
      st = filter.statement
        (ascii "select a.account_id, a.other_account_id, b.name, a.money, a.balance, a.trans_date "
          ++ ascii "from (select * from trans where ")
        (ascii ") a, abstract b where a.abstract_id = b.abstract_id order by a.trans_date limit "
          ++ intText offset ++ ascii ", 15;")

/-! ### What is spliced in -/

def BillFilter.fields : BillFilter → List Bytes
  | .day date => [quote date]
  | .days first last => [quote first, quote last]
  | .accountDays account first last => [account, quote first, quote last]

/-- What a request has brought into a statement. -/
def Sql.fields : Sql → List Bytes
  | .selectTeller user pass => [quote user, quote pass]
  | .insertAccount name pass id _ => [quote name, quote pass, quote id]
  | .insertTrans accountId otherAccountId .. =>
      intText accountId :: otherAccountId.toList.map intText
  | .selectBalance account .flagZero _ => [account.field]
  | .selectBalance account (.pass text) _ => [account.field, text]
  | .updateBalance account _ => [account.field]
  | .selectNameNow accountId _ => [intText accountId]
  | .updatePass accountId pass => [quote pass, intText accountId]
  | .updateFlag accountId => [intText accountId]
  | .selectInterest accountId _ => [intText accountId, intText accountId]
  | .countTrans filter => filter.fields
  | .selectTrans filter _ => filter.fields
  | _ => []

end Bank
