/-
The tables of the bank and the ways a statement can change them.

Amounts are whole cents, as a `decimal(10,2)` column keeps them.  A moment is a number
of seconds of calendar time, so that its day is a quotient.

A change is a value of its own, `Write`, and not a function on databases: a
transaction is the list of the writes it has made, and what it would commit is that
list replayed on what is committed then.
-/
import Muduo.Lib.Table
import Muduo.Bank.JUtil

namespace Bank

open Lib

/-- A row of `bank_account`. -/
structure BankAccount where
  accountId : Int
  name : Bytes
  pass : Bytes
  id : Bytes
  balance : Int
  openDate : Nat
  flag : Nat
deriving DecidableEq

/-- A row of `trans`. -/
structure Trans where
  transId : Int
  accountId : Int
  otherAccountId : Option Int
  abstractId : Nat
  money : Int
  balance : Int
  transDate : Nat
deriving DecidableEq

/-- A row of `abstract`. -/
structure Abstract where
  abstractId : Nat
  name : Bytes
deriving DecidableEq

/-- A row of `teller`. -/
structure Teller where
  tellerName : Bytes
  tellerPass : Bytes
deriving DecidableEq

structure Database where
  bankAccount : Table BankAccount BankAccount.accountId
  trans : Table Trans Trans.transId
  abstract : List Abstract
  teller : List Teller
deriving DecidableEq

/-- What a statement does to the rows. -/
inductive Write where
  | insertAccount (row : BankAccount)
  | insertTrans (row : Trans)
  | addBalance (accountId cents : Int)
  | setPass (accountId : Int) (pass : Bytes)
  | setFlag (accountId : Int)
deriving DecidableEq

namespace Database

/-- The account with a given number, open or closed. -/
def account? (db : Database) (accountId : Int) : Option BankAccount :=
  db.bankAccount.find? accountId

def write (db : Database) : Write → Database
  | .insertAccount row => { db with bankAccount := db.bankAccount.insert row }
  | .insertTrans row => { db with trans := db.trans.insert row }
  | .addBalance accountId cents =>
      { db with
        bankAccount := db.bankAccount.modify accountId
          (fun r => { r with balance := r.balance + cents }) fun _ => rfl }
  | .setPass accountId pass =>
      { db with
        bankAccount := db.bankAccount.modify accountId
          (fun r => { r with pass := pass }) fun _ => rfl }
  | .setFlag accountId =>
      { db with
        bankAccount := db.bankAccount.modify accountId
          (fun r => { r with flag := 1 }) fun _ => rfl }

/-- The writes one after the other. -/
def replay (db : Database) (ws : List Write) : Database := ws.foldl write db

@[simp] theorem replay_nil (db : Database) : db.replay [] = db := rfl

@[simp] theorem replay_cons (db : Database) (w : Write) (ws : List Write) :
    db.replay (w :: ws) = (db.write w).replay ws := rfl

theorem replay_append (db : Database) (ws vs : List Write) :
    db.replay (ws ++ vs) = (db.replay ws).replay vs := List.foldl_append

/-! ### What a change is to a reader -/

theorem account?_addBalance (db : Database) (i cents j : Int) :
    (db.write (.addBalance i cents)).account? j
      = if j = i then (db.account? i).map fun r => { r with balance := r.balance + cents }
        else db.account? j :=
  Table.find?_modify db.bankAccount i j (fun r => { r with balance := r.balance + cents }) fun _ => rfl

theorem account?_setFlag (db : Database) (i j : Int) :
    (db.write (.setFlag i)).account? j
      = if j = i then (db.account? i).map fun r => { r with flag := 1 } else db.account? j :=
  Table.find?_modify db.bankAccount i j (fun r => { r with flag := 1 }) fun _ => rfl

theorem account?_setPass (db : Database) (i : Int) (pass : Bytes) (j : Int) :
    (db.write (.setPass i pass)).account? j
      = if j = i then (db.account? i).map fun r => { r with pass := pass } else db.account? j :=
  Table.find?_modify db.bankAccount i j (fun r => { r with pass := pass }) fun _ => rfl

@[simp] theorem account?_insertTrans (db : Database) (t : Trans) (j : Int) :
    (db.write (.insertTrans t)).account? j = db.account? j := rfl

theorem account?_insertAccount {db : Database} {r : BankAccount}
    (hr : db.account? r.accountId = none) (j : Int) :
    (db.write (.insertAccount r)).account? j
      = if r.accountId = j then some r else db.account? j :=
  Table.find?_insert _ _ _ hr

theorem find?_insertTrans {db : Database} {t : Trans} (ht : db.trans.find? t.transId = none)
    (i : Int) :
    (db.write (.insertTrans t)).trans.find? i
      = if t.transId = i then some t else db.trans.find? i :=
  Table.find?_insert _ _ _ ht

/-! ### Money -/

/-- The balance of an account, nothing for an account there is not. -/
def balance (db : Database) (accountId : Int) : Int :=
  ((db.account? accountId).map BankAccount.balance).getD 0

/-- The money in the bank. -/
def total (db : Database) : Int := db.bankAccount.sum BankAccount.balance

/-- The rows of `trans` about an account. -/
def history (db : Database) (accountId : Int) : List Trans :=
  db.trans.rows.filter fun t => t.accountId = accountId

/-- `t` is the latest row about its account: no other has a higher number. -/
def IsLatest (db : Database) (t : Trans) : Prop :=
  t ∈ db.trans.rows ∧ ∀ u ∈ db.trans.rows, u.accountId = t.accountId → u.transId ≤ t.transId

end Database

end Bank
