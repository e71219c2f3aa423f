/-
`MysqlDB`: the bank's wrapper around the client library.

Every member tests what the library returns and throws when the call has failed, but
for `Rollback`, whose test is the other way round: it throws when the rollback has
succeeded and returns when it has failed.

The handle is a local variable of the function that declared the `MysqlDB`.  The
library does not test it; a statement on a handle that is `NULL` ends the process, and
so does reading a row that a result does not have.
-/
import Muduo.Bank.Mysql

namespace Bank

open Lib

/-- What the language leaves undefined or an assertion stops. -/
inductive Crash where
  | assertion
  | outOfBounds
  | nullHandle
deriving DecidableEq

/-- The ways out of a function other than returning. -/
inductive Signal where
  /-- `muduo::Exception`, or `Exception` in the Windows sources. -/
  | exception (what : Bytes)
  | crash (c : Crash)
deriving DecidableEq

structure Account where
  accountId : Int
  name : Bytes
  pass : Bytes
  id : Bytes
  opDate : Bytes
  balance : ℚ
deriving DecidableEq

/-- A row of a bill. -/
structure TransDetail where
  accountId : Bytes
  otherAccountId : Bytes
  abstractName : Bytes
  money : ℚ
  balance : ℚ
  transDate : Bytes
  total : UInt32
deriving DecidableEq

/-- The variables of a member of `BankService`: the handle of its `MysqlDB`, and the
arguments it was passed by reference. -/
structure Locals where
  mysql : Bool
  account : Account
  interest : ℚ
  result : List TransDetail

abbrev Service := Proc Call Reply Signal Locals

namespace MysqlDB

/-- `"DB ERROR:"` -/
def errorPrefix : Bytes := [68, 66, 32, 69, 82, 82, 79, 82, 58]

def dbError (errmsg : Bytes) : Signal := .exception (errorPrefix ++ errmsg)

/-! ### The library's functions -/

def mysqlInit : Service (Except Bytes Unit) := Proc.call Call.init

def mysqlOptions (option : Call) : Service (Reply option) := Proc.call option

def mysqlRealConnect : Service (Except Bytes Unit) := Proc.call Call.connect

/-- `mysql_query`, and with it the storing of the result, on the handle. -/
def mysqlQuery (sql : Sql) : Service (Except Bytes Recordset) := do
  if (← Proc.get).mysql then Proc.call (Call.query sql)
  else Proc.raise (.crash .nullHandle)

def mysqlInsertId : Service Int := Proc.call Call.insertId

def mysqlClose : Service Unit := Proc.call Call.close

/-! ### The members of the class -/

def close : Service Unit := do
  if (← Proc.get).mysql then
    mysqlClose
    Proc.modify fun l => { l with mysql := false }

/-- `Open` -/
def connect : Service Unit := do
  match ← mysqlInit with
  | .error errmsg => Proc.raise (dbError errmsg)
  | .ok () =>
      Proc.modify fun l => { l with mysql := true }
      let _ ← mysqlOptions Call.optionReconnect
      let _ ← mysqlOptions Call.optionCharset
      match ← mysqlRealConnect with
      | .error errmsg =>
          close
          Proc.raise (dbError errmsg)
      | .ok () => pure ()

def querySQL (sql : Sql) : Service Recordset := do
  match ← mysqlQuery sql with
  | .error errmsg => Proc.raise (dbError errmsg)
  | .ok rs => pure rs

def execSQL (sql : Sql) : Service Unit := do
  let _ ← querySQL sql

def startTransaction : Service Unit := execSQL .startTransaction

def commit : Service Unit := execSQL .commit

def rollback : Service Unit := do
  match ← mysqlQuery .rollback with
  | .ok _ => Proc.raise (dbError [])
  | .error _ => pure ()

def getInsertId : Service Int := mysqlInsertId

/-- `rs.GetItem(nRow, name)` -/
def getItem (rs : Recordset) (nRow : Nat) (column : Field) : Service Cell :=
  match rs[nRow]? with
  | none => Proc.raise (.crash .outOfBounds)
  | some row =>
      match row.find? fun p => p.1 = column with
      | none => Proc.raise (.crash .outOfBounds)
      | some (_, cell) => pure cell

/-- A block with a `MysqlDB` of its own, which its destructor closes. -/
def withDb {α : Type} (p : Service α) : Service α := Proc.finally_ p close

/-- `catch (muduo::Exception& e)` -/
def catchException {α : Type} (p handler : Service α) : Service α :=
  Proc.tryCatch p fun
    | .exception _ => some handler
    | .crash _ => none

end MysqlDB

namespace Cell

/-- The text of a value.  No text is ever asked for of a number. -/
def str : Cell → Bytes
  | .text s => s
  | .number x => Convert.doubleToString x

/-- `Convert::StringToDouble` of a value's text. -/
def toDouble (junk : Junk) : Cell → ℚ
  | .number x => x
  | .text s => Convert.stringToDouble junk s

/-- `Convert::StringToInt` of a value's text. -/
def toInt (junk : Junk) : Cell → Int
  | .number x => ⌊x⌋
  | .text s => Convert.stringToInt junk s

end Cell

end Bank
