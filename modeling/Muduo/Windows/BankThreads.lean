/-
The server with a thread for each connection.

A thread serves the requests of its client one after the other, and every member of
`BankService` has a connection to the database of its own.  The threads share nothing but
the database, so a run of the server is the calls of all threads to the client library, one
call at a time in any order.

A statement that changes a row, and a `select .. for update`, needs the row's lock, which is
kept to the end of the transaction.  While another connection has the lock the statement
waits.  Any call may fail instead; how often a thread tries is not said.
-/
import Muduo.Bank.BankService

namespace Windows

open Lib Bank

/-! ### Operations -/

/-- A request as it reaches `BankService`. -/
inductive Operation where
  | userLogin (user pass : Bytes)
  | openAccount (account : Account)
  | deposit (account : Account)
  | withDraw (account : Account)
  | transfer (account : Account) (otherAccountId : Bytes)
  | balanceInquiry (account : Account)
  | changePassword (account : Account) (newPass : Bytes)
  | queryBill (filter : BillFilter) (page : Int)
  | closeAccount (account : Account)
deriving DecidableEq

/-- How an operation ends, and the variables then. -/
abbrev Ending := Except Signal Int × Locals

namespace Operation

def service (sys : System) : Operation → Service Int
  | userLogin user pass => BankService.userLogin user pass
  | openAccount _ => BankService.openAccount
  | deposit _ => BankService.deposit sys
  | withDraw _ => BankService.withDraw sys
  | transfer _ otherAccountId => BankService.transfer sys otherAccountId
  | balanceInquiry _ => BankService.balanceInquiry sys
  | changePassword _ newPass => BankService.changePassword newPass
  | queryBill filter page => BankService.queryBill sys filter page
  | closeAccount _ => BankService.closeAccount sys

/-- An account nothing has been put into. -/
def noAccount : Account := ⟨0, [], [], [], [], 0⟩

def account : Operation → Account
  | userLogin .. | queryBill .. => noAccount
  | openAccount a | deposit a | withDraw a | transfer a _ | balanceInquiry a | changePassword a _
  | closeAccount a => a

def locals (op : Operation) : Locals := ⟨false, op.account, 0, []⟩

def program (sys : System) (op : Operation) : Prog Call Reply Ending :=
  (op.service sys).start op.locals

end Operation

/-! ### Row locks -/

/-- The row a statement has to lock. -/
def lockOf (d : Dialect) (s : Server) : Sql → Option Int
  | .selectBalance account _ true => some (Server.refersTo d account)
  | .updateBalance account _ => some (Server.refersTo d account)
  | .updatePass accountId _ => some accountId
  | .updateFlag accountId => some accountId
  | .insertAccount .. => some s.nextAccountId
  | _ => none

/-- The row a call has to lock. -/
def lockOfCall (d : Dialect) (s : Server) : Call → Option Int
  | .query sql => lockOf d s sql
  | _ => none

/-- Locked rows, each with the thread whose connection has the lock. -/
abbrev Locks := List (Int × Nat)

/-- Another connection has the lock of the row. -/
def Locks.Waits (locks : Locks) (i : Nat) (row : Option Int) : Prop :=
  ∃ p ∈ locks, row = some p.1 ∧ p.2 ≠ i

instance (locks : Locks) (i : Nat) (row : Option Int) : Decidable (locks.Waits i row) :=
  inferInstanceAs (Decidable (∃ p ∈ locks, row = some p.1 ∧ p.2 ≠ i))

/-- The locks behind a call: a transaction keeps its locks and takes the one of a row that is
there, and without a transaction there are none. -/
def Locks.after (locks : Locks) (i : Nat) (s : Server) (link : Link) (row : Option Int) : Locks :=
  if link.tx.isSome then
    (row.filter fun a => ((s.view link).account? a).isSome).toList.map (·, i) ++ locks
  else locks.filter (·.2 ≠ i)

/-! ### The server -/

/-- One thread: the request it is serving, with what is left to do of it, and its connection
to the database. -/
structure BankThread where
  serving : Option (Operation × Prog Call Reply Ending)
  link : Link

/-- The database with its locks, the threads, and what the requests have come to. -/
structure BankThreads where
  server : Server
  locks : Locks
  thread : Nat → BankThread
  answers : List (Operation × Except Signal Int)

/-- A step of the server. -/
inductive Action where
  /-- A thread takes a request. -/
  | request (i : Nat) (op : Operation)
  /-- A thread makes its next call, which fails with an error if one is given. -/
  | call (i : Nat) (fault : Option Bytes)
  /-- A thread is done with its request. -/
  | answer (i : Nat)

namespace BankThreads

/-- No thread is serving a request. -/
def init (server : Server) : BankThreads := ⟨server, [], fun _ => ⟨none, .closed⟩, []⟩

variable (sys : System) (d : Dialect)

/-- The requests of a thread come one behind the other; each has a new `MysqlDB`. -/
def request (i : Nat) (op : Operation) (s : BankThreads) : BankThreads :=
  match (s.thread i).serving with
  | some _ => s
  | none =>
      { s with
        locks := s.locks.filter (·.2 ≠ i)
        thread := Function.update s.thread i ⟨some (op, op.program sys), .closed⟩ }

/-- A call is answered, unless it is a statement that has to wait. -/
def call (i : Nat) (fault : Option Bytes) (s : BankThreads) : BankThreads :=
  match (s.thread i).serving with
  | some (op, .call c k) =>
      if fault = none ∧ s.locks.Waits i (lockOfCall d s.server c) then s
      else
        let (r, w) := Bank.answer d (.ofFaults fun _ => fault) c ⟨s.server, (s.thread i).link, 0, 0⟩
        { s with
          server := w.server
          locks := s.locks.after i w.server w.link
            (if fault = none then lockOfCall d s.server c else none)
          thread := Function.update s.thread i ⟨some (op, k r), w.link⟩ }
  | _ => s

/-- A request has come to its end; what ends the process ends the run. -/
def answer (i : Nat) (s : BankThreads) : Except Crash BankThreads :=
  match (s.thread i).serving with
  | some (_, .done (.error (.crash c), _)) => .error c
  | some (op, .done (r, _)) =>
      .ok { s with
        thread := Function.update s.thread i ⟨none, (s.thread i).link⟩
        answers := (op, r) :: s.answers }
  | _ => .ok s

def step : Action → BankThreads → Except Crash BankThreads
  | .request i op, s => .ok (request sys i op s)
  | .call i fault, s => .ok (call d i fault s)
  | .answer i, s => answer i s

end BankThreads

end Windows
