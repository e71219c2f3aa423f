/-
The money field of a request.

An amount comes as a text and is read by a stream whose state nobody looks at.  If the text is
a decimal numeral, the amount is the number it denotes.  If it is anything else, the amount is
whatever the stream makes of it: zero, the number that the front of the text denotes, or, for a
text of nothing but white space, what storage happens to hold; and it is booked all the same.
-/
import Muduo.Lib.Decimals
import Muduo.Bank.Cmd
import Muduo.Proofs.Transactions

namespace Bank

open Lib MysqlDB BankService Database

/-- The requests with a money field, with what else is in them. -/
inductive MoneyRequest where
  | openAccount (name pass id : Bytes)
  | deposit (accountId : Bytes)
  | withdrawal (accountId pass : Bytes)
  | transfer (accountId pass otherAccountId : Bytes)

namespace MoneyRequest

variable (setup : Setup) (money : Bytes)

/-- What the command of the request calls. -/
def service : MoneyRequest → Service Int
  | openAccount name pass id => (Cmd.openAccount setup).service (name, pass, id, money)
  | deposit accountId => (Cmd.deposit setup).service (accountId, money)
  | withdrawal accountId pass => (Cmd.withdrawal setup).service (accountId, pass, money)
  | transfer accountId pass other => (Cmd.transfer setup).service (accountId, pass, money, other)

/-- The variables it passes, the amount among them. -/
def locals : MoneyRequest → Locals
  | openAccount name pass id => (Cmd.openAccount setup).locals (name, pass, id, money)
  | deposit accountId => (Cmd.deposit setup).locals (accountId, money)
  | withdrawal accountId pass => (Cmd.withdrawal setup).locals (accountId, pass, money)
  | transfer accountId pass other => (Cmd.transfer setup).locals (accountId, pass, money, other)

def plan (d : Dialect) (s : Server) (a : Account) : MoneyRequest → Plan
  | openAccount .. => openAccountPlan d s a
  | deposit .. => depositPlan d s a
  | withdrawal .. => withDrawPlan d s a
  | transfer _ _ other => transferPlan setup.sys d s a other

/-- What a request that is not refused writes about an amount of so many cents.  The balances
that the rows of `trans` mention are left open. -/
def writes (d : Dialect) (s : Server) (a : Account) (cents : Int) (balances : Int × Int) :
    MoneyRequest → List Write
  | openAccount .. =>
      [.insertAccount ⟨s.nextAccountId, d.quoted 16 a.name, d.quoted 16 a.pass, d.quoted 18 a.id,
          cents, d.time (s.clock + 1), 0⟩,
        .insertTrans ⟨s.nextTransId, s.nextAccountId, none, 1, cents, balances.1,
          d.time (s.clock + 2)⟩]
  | deposit .. =>
      [.addBalance a.accountId cents,
        .insertTrans ⟨s.nextTransId, a.accountId, none, 2, cents, balances.1, d.time (s.clock + 3)⟩]
  | withdrawal .. =>
      [.addBalance a.accountId (-cents),
        .insertTrans ⟨s.nextTransId, a.accountId, none, 3, cents, balances.1, d.time (s.clock + 4)⟩]
  | transfer _ _ other =>
      let otherId := Convert.stringToInt setup.sys.junk other
      [.addBalance a.accountId (-cents), .addBalance (d.idOf other) cents,
        .insertTrans ⟨s.nextTransId, a.accountId, otherId, 5, cents, balances.1,
          d.time (s.clock + 6)⟩,
        .insertTrans ⟨s.nextTransId + 1, otherId, a.accountId, 4, cents, balances.2,
          d.time (s.clock + 8)⟩]

end MoneyRequest

variable {setup : Setup} {d : Dialect} {fault : Nat → Option Bytes} {w₀ : World} {money : Bytes}

/-! ### Texts that are amounts -/

theorem MoneyRequest.ends (r : MoneyRequest) (setup : Setup) (money : Bytes) (d : Dialect)
    (fault : Nat → Option Bytes) (hw : w₀.server.Fresh) :
    Ends d (.ofFaults fault) (r.plan setup d w₀.server (r.locals setup money).account) true
      (r.service setup money) (r.locals setup money) w₀ := by
  cases r with
  | openAccount => exact openAccount_ends hw ⟨rfl, rfl⟩
  | deposit => exact deposit_ends _ hw ⟨rfl, rfl⟩
  | withdrawal => exact withDraw_ends _ hw ⟨rfl, rfl⟩
  | transfer => exact transfer_ends _ hw ⟨rfl, rfl⟩ _

end Bank
