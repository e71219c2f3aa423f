/-
The MySQL server and the client library, as far as the bank uses them.

A statement is what the bank's text says, with the texts it splices in kept as texts;
what the server makes of such a text — which number it denotes, how it compares with
a stored password, what is stored of it — is the server's business, and `Dialect`
collects it.  Each text is taken to be read as one literal.

A plain `select` is a consistent read: what is committed when it runs, with the
transaction's own changes on top.  Changes outside a transaction are committed at
once.  Numbers of new rows come from counters that no rollback sets back.

Which calls fail, and where the connection drops, is not for the server to say:
`Env` decides it, call by call, so that a theorem about every `Env` speaks about
every pattern of failures.  A statement that fails has no effect.  When the connection
has dropped, the open transaction is gone, and the next statement is sent on a new
connection in autocommit mode if the client library was told to reconnect, and fails
otherwise.
-/
import Muduo.Bank.Database
import Muduo.Lib.Proc

namespace Bank

open Lib

/-! ### Statements -/

/-- An account number in a statement: printed from a number, or spliced in. -/
inductive AccountRef where
  | number (n : Int)
  | text (s : Bytes)
deriving DecidableEq

/-- What a `select balance` asks of the row besides its number. -/
inductive AccountCond where
  | flagZero
  | pass (text : Bytes)
deriving DecidableEq

/-- Which rows of `trans` a bill is about. -/
inductive BillFilter where
  | day (date : Bytes)
  | days (first last : Bytes)
  | accountDays (account first last : Bytes)
deriving DecidableEq

/-- The columns the bank asks for by name. -/
inductive Field where
  | tellerName | openDate | balance | name | transDate | queryDate | closeDate | interest
  | total | accountId | otherAccountId | money
deriving DecidableEq

inductive Sql where
  | startTransaction
  | commit
  | rollback
  /-- `select teller_name from teller where teller_name='..' and teller_pass='..'` -/
  | selectTeller (user pass : Bytes)
  /-- `insert into bank_account values(null, '..', '..', '..', .., now(), 0)` -/
  | insertAccount (name pass id : Bytes) (balance : Int)
  /-- `insert into trans values(null, .., .., .., .., .., now())` -/
  | insertTrans (accountId : Int) (otherAccountId : Option Int) (abstractId : Nat)
      (money balance : Int)
  /-- `select open_date from bank_account where account_id='..'` -/
  | selectOpenDate (accountId : Int)
  /-- `select balance from bank_account where account_id=.. and ..`, perhaps `for update` -/
  | selectBalance (account : AccountRef) (cond : AccountCond) (forUpdate : Bool)
  /-- `update bank_account set balance=balance+..` (or `-`) `where account_id=..` -/
  | updateBalance (account : AccountRef) (cents : Int)
  /-- `select a.name, b.trans_date from bank_account a, (.. where trans_id=..) b ..` -/
  | selectTransName (transId : Int)
  /-- `select name, now() .. from bank_account where account_id=..` -/
  | selectNameNow (accountId : Int) (column : Field)
  /-- `update bank_account set pass='..' where account_id=..` -/
  | updatePass (accountId : Int) (pass : Bytes)
  /-- `update bank_account set flag=1 where account_id=..` -/
  | updateFlag (accountId : Int)
  /-- `select sum(yy.days*yy.balance)*rate/360 interest from (..) yy` -/
  | selectInterest (accountId : Int) (rate : ℚ)
  /-- `select count(*) as total from (..) a, abstract b where ..` -/
  | countTrans (filter : BillFilter)
  /-- `select .. from (..) a, abstract b where .. order by a.trans_date limit .., 15` -/
  | selectTrans (filter : BillFilter) (offset : Int)

/-- A value of a result: a number, whose decimal text is sent, or a text. -/
inductive Cell where
  | number (x : ℚ)
  | text (s : Bytes)
deriving DecidableEq

abbrev Row := List (Field × Cell)

abbrev Recordset := List Row

/-! ### The server's reading of texts -/

structure Dialect where
  /-- The account number a text stands for. -/
  idOf : Bytes → Int
  /-- Whether `pass=` and the text holds of a stored password. -/
  passIs : Bytes → Bytes → Bool
  /-- What is stored of a quoted text in a column of so many characters. -/
  quoted : Nat → Bytes → Bytes
  /-- Whether the date of a day is the text, or is between two texts. -/
  dayIs : Bytes → Nat → Bool
  dayBetween : Bytes → Bytes → Nat → Bool
  /-- The clock, by the number of statements served. -/
  time : Nat → Nat
  /-- A `datetime` as it is sent. -/
  dateTime : Nat → Bytes
  length_dateTime : ∀ t, (dateTime t).length = 19
  /-- How rows come out of `order by trans_date`; equal dates may come either way. -/
  orderByDate : Nat → List Trans → List Trans
  perm_orderByDate : ∀ n l, (orderByDate n l).Perm l
  sorted_orderByDate : ∀ n l, (orderByDate n l).Pairwise fun a b => a.transDate ≤ b.transDate

/-- The day of a moment. -/
def dayOf (t : Nat) : Nat := t / 86400

/-! ### The server -/

/-- What all connections share. -/
structure Server where
  db : Database
  nextAccountId : Int
  nextTransId : Int
  clock : Nat

/-- One connection. -/
structure Link where
  connected : Bool
  /-- `MYSQL_OPT_RECONNECT` -/
  reconnect : Bool
  /-- The writes of the open transaction. -/
  tx : Option (List Write)
  insertId : Int

/-- A handle that is not connected. -/
def Link.closed : Link := ⟨false, false, none, 0⟩

namespace Server

variable (d : Dialect)

/-- What a connection sees. -/
def view (s : Server) (link : Link) : Database :=
  match link.tx with
  | none => s.db
  | some ws => s.db.replay ws

def refersTo : AccountRef → Int
  | .number n => n
  | .text s => d.idOf s

def accountCond : AccountCond → BankAccount → Bool
  | .flagZero, r => r.flag = 0
  | .pass text, r => d.passIs text r.pass

/-- The rows of `trans` a bill is about. -/
def billRows (db : Database) : BillFilter → List Trans
  | .day date => db.trans.rows.filter fun t => d.dayIs date (dayOf t.transDate)
  | .days first last => db.trans.rows.filter fun t => d.dayBetween first last (dayOf t.transDate)
  | .accountDays account first last =>
      db.trans.rows.filter fun t =>
        t.accountId = d.idOf account && d.dayBetween first last (dayOf t.transDate)

/-- The last row of each day of an account. -/
def lastOfDays (db : Database) (accountId : Int) : List Trans :=
  (db.history accountId).filter fun t =>
    (db.history accountId).all fun u =>
      dayOf u.transDate ≠ dayOf t.transDate || decide (u.transId ≤ t.transId)

/-- `datediff(if(next_date, next_date, now()), trans_date)`. -/
def balanceDays (rows : List Trans) (now : Nat) (t : Trans) : Int :=
  let later := (rows.map Trans.transDate).filter fun date => t.transDate < date
  let next := later.min?.getD now
  (dayOf next : Int) - dayOf t.transDate

/-- The sum over an account's days, nothing when the account has no rows. -/
def interest (db : Database) (accountId : Int) (rate : ℚ) (now : Nat) : Option ℚ :=
  let rows := lastOfDays db accountId
  if rows = [] then none
  else some ((rows.map fun t => (balanceDays rows now t : ℚ) * (t.balance / 100)).sum * rate / 360)

def idCell : Option Int → Cell
  | none => .text []
  | some n => .text (intText n)

/-- A bill's row, with the name of what it is about. -/
def billRow (t : Trans) (a : Abstract) : Row :=
  [(.accountId, idCell (some t.accountId)), (.otherAccountId, idCell t.otherAccountId),
    (.name, .text a.name), (.money, .number (t.money / 100)), (.balance, .number (t.balance / 100)),
    (.transDate, .text (d.dateTime t.transDate))]

/-- The answer to a `select`. -/
def select (db : Database) (clock : Nat) : Sql → Recordset
  | .selectTeller user pass =>
      (db.teller.filter fun t => t.tellerName = d.quoted 16 user && t.tellerPass = d.quoted 16 pass).map
        fun t => [(.tellerName, .text t.tellerName)]
  | .selectOpenDate accountId =>
      (db.account? accountId).toList.map fun r => [(.openDate, .text (d.dateTime r.openDate))]
  | .selectBalance account cond _ =>
      ((db.account? (refersTo d account)).toList.filter (accountCond d cond)).map
        fun r => [(.balance, .number (r.balance / 100))]
  | .selectTransName transId =>
      (db.trans.find? transId).toList.flatMap fun t =>
        (db.account? t.accountId).toList.map fun r =>
          [(.name, .text r.name), (.transDate, .text (d.dateTime t.transDate))]
  | .selectNameNow accountId column =>
      (db.account? accountId).toList.map fun r =>
        [(.name, .text r.name), (column, .text (d.dateTime (d.time clock)))]
  | .selectInterest accountId rate =>
      [[(.interest, ((interest db accountId rate (d.time clock)).map Cell.number).getD (.text []))]]
  | .countTrans filter =>
      [[(.total, .number (((billRows d db filter).map fun t =>
        (db.abstract.filter fun a => a.abstractId = t.abstractId).length).sum : Nat))]]
  | .selectTrans filter offset =>
      (((d.orderByDate clock (billRows d db filter)).flatMap fun t =>
        (db.abstract.filter fun a => a.abstractId = t.abstractId).map (billRow d t)).drop
          offset.toNat).take 15
  | _ => []

/-- The changes a statement makes. -/
def writes (s : Server) : Sql → List Write
  | .insertAccount name pass id balance =>
      [.insertAccount ⟨s.nextAccountId, d.quoted 16 name, d.quoted 16 pass, d.quoted 18 id, balance,
        d.time s.clock, 0⟩]
  | .insertTrans accountId otherAccountId abstractId money balance =>
      [.insertTrans ⟨s.nextTransId, accountId, otherAccountId, abstractId, money, balance,
        d.time s.clock⟩]
  | .updateBalance account cents => [.addBalance (refersTo d account) cents]
  | .updatePass accountId pass => [.setPass accountId (d.quoted 16 pass)]
  | .updateFlag accountId => [.setFlag accountId]
  | _ => []

/-- The counters and the clock behind a statement. -/
def count (s : Server) (sql : Sql) : Server :=
  { s with
    nextAccountId := match sql with | .insertAccount .. => s.nextAccountId + 1 | _ => s.nextAccountId
    nextTransId := match sql with | .insertTrans .. => s.nextTransId + 1 | _ => s.nextTransId
    clock := s.clock + 1 }

/-- The number a connection remembers of its last insert. -/
def lastInsert (s : Server) (link : Link) : Sql → Int
  | .insertAccount .. => s.nextAccountId
  | .insertTrans .. => s.nextTransId
  | _ => link.insertId

/-- A statement that succeeds. -/
def query (s : Server) (link : Link) (sql : Sql) : Recordset × Server × Link :=
  let rs := select d (s.view link) s.clock sql
  let after := s.count sql
  let link' := { link with insertId := s.lastInsert link sql }
  match sql with
  | .startTransaction => (rs, { after with db := s.view link }, { link' with tx := some [] })
  | .commit => (rs, { after with db := s.view link }, { link' with tx := none })
  | .rollback => (rs, after, { link' with tx := none })
  | sql =>
      match link.tx with
      | some ws => (rs, after, { link' with tx := some (ws ++ s.writes d sql) })
      | none => (rs, { after with db := s.db.replay (s.writes d sql) }, link')

end Server

/-! ### Calls to the client library -/

inductive Call where
  | init
  | optionReconnect
  | optionCharset
  | connect
  | query (sql : Sql)
  | insertId
  | close

/-- What a call returns; a call that can fail returns the error's text then. -/
def Reply : Call → Type
  | .init => Except Bytes Unit
  | .optionReconnect => Unit
  | .optionCharset => Unit
  | .connect => Except Bytes Unit
  | .query _ => Except Bytes Recordset
  | .insertId => Int
  | .close => Unit

/-- A server and the one connection in use. -/
structure World where
  server : Server
  link : Link
  /-- Calls made that could have failed. -/
  calls : Nat
  /-- Statements sent. -/
  statements : Nat

/-- Which calls fail, and before which statements the connection drops. -/
structure Env where
  fault : Nat → Option Bytes
  drop : Nat → Bool
  lost : Bytes

/-- An environment in which the connection does not drop. -/
def Env.ofFaults (fault : Nat → Option Bytes) : Env := ⟨fault, fun _ => false, []⟩

/-- An environment in which nothing goes wrong. -/
def Env.healthy : Env := Env.ofFaults fun _ => none

/-- The connection is gone, and with it its transaction. -/
def Link.dropped (link : Link) : Link := { link with connected := false, tx := none }

/-- One call to the library. -/
def answer (d : Dialect) (env : Env) : Prog.Handler Call Reply World
  | .init, w =>
      let w' := { w with calls := w.calls + 1, link := Link.closed }
      match env.fault w.calls with
      | some e => (.error e, w')
      | none => (.ok (), w')
  | .optionReconnect, w => ((), { w with link := { w.link with reconnect := true } })
  | .optionCharset, w => ((), w)
  | .connect, w =>
      let w' := { w with calls := w.calls + 1 }
      match env.fault w.calls with
      | some e => (.error e, w')
      | none => (.ok (), { w' with link := { w.link with connected := true } })
  | .query sql, w =>
      let link := if env.drop w.statements then w.link.dropped else w.link
      let w' := { w with calls := w.calls + 1, statements := w.statements + 1, link := link }
      match env.fault w.calls with
      | some e => (.error e, w')
      | none =>
          if link.connected || link.reconnect then
            let (rs, server, link) := w.server.query d { link with connected := true } sql
            (.ok rs, { w' with server := server, link := link })
          else (.error env.lost, w')
  | .insertId, w => (w.link.insertId, w)
  | .close, w => ((), { w with link := Link.closed })

end Bank
