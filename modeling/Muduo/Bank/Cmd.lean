/-
The eleven commands: `Execute` of each class under `cmd/`.

They are cut from one cloth.  A command reads its fields from the body of the request,
hands them to `BankService`, turns the code it gets back into an error code and a
message, and writes the reply.  `Command` has a field for each of these four, and
`Command.execute` is the text they share; the differences are in the values below,
one for each class.

The messages are the GBK bytes of the source's literals.
-/
import Muduo.Bank.BankService
import Muduo.Bank.Packet

namespace Bank

open Lib JInStream

/-- `用户名或密码错误` -/
def Msg.badUserOrPass : Bytes :=
  [0xD3, 0xC3, 0xBB, 0xA7, 0xC3, 0xFB, 0xBB, 0xF2, 0xC3, 0xDC,
    0xC2, 0xEB, 0xB4, 0xED, 0xCE, 0xF3]

/-- `数据库错误` -/
def Msg.databaseError : Bytes := [0xCA, 0xFD, 0xBE, 0xDD, 0xBF, 0xE2, 0xB4, 0xED, 0xCE, 0xF3]

/-- `帐户不存在` -/
def Msg.noAccount : Bytes := [0xD5, 0xCA, 0xBB, 0xA7, 0xB2, 0xBB, 0xB4, 0xE6, 0xD4, 0xDA]

/-- `密码错误` -/
def Msg.badPass : Bytes := [0xC3, 0xDC, 0xC2, 0xEB, 0xB4, 0xED, 0xCE, 0xF3]

/-- `余额不足` -/
def Msg.notEnough : Bytes := [0xD3, 0xE0, 0xB6, 0xEE, 0xB2, 0xBB, 0xD7, 0xE3]

/-- `对方帐号不存在` -/
def Msg.noOtherAccount : Bytes :=
  [0xB6, 0xD4, 0xB7, 0xBD, 0xD5, 0xCA, 0xBA, 0xC5, 0xB2, 0xBB,
    0xB4, 0xE6, 0xD4, 0xDA]

/-- `没有找到数据` -/
def Msg.noData : Bytes :=
  [0xC3, 0xBB, 0xD3, 0xD0, 0xD5, 0xD2, 0xB5, 0xBD, 0xCA, 0xFD,
    0xBE, 0xDD]

/-- `错误的数据包` -/
def Msg.badPacket : Bytes :=
  [0xB4, 0xED, 0xCE, 0xF3, 0xB5, 0xC4, 0xCA, 0xFD, 0xBE, 0xDD,
    0xB0, 0xFC]

/-- What the commands use: the digest and the cipher, the configuration, the storage. -/
structure Setup where
  crypto : Crypto
  sys : System

/-- Code that serves a request: it calls the database and may end by a signal. -/
abbrev Serve := ExceptT Signal (Prog Call Reply)

/-- A failed assertion ends the process. -/
def orAbort {α : Type} : Option α → Serve α
  | some a => pure a
  | none => throw (.crash .assertion)

/-- Call a member of `BankService`. -/
def runService (p : Service Int) (l : Locals) : Serve (Int × Locals) :=
  ExceptT.mk (p.start l >>= fun
    | (.ok ret, l) => .done (.ok (ret, l))
    | (.error e, _) => .done (.error e))

/-- What an `Execute` is made of. -/
structure Command where
  Args : Type
  /-- The fields of the request. -/
  read : Read Args
  service : Args → Service Int
  /-- The arguments passed by reference. -/
  locals : Args → Locals
  /-- The codes that have a message. -/
  errors : List (Int16 × Bytes)
  /-- The reply with an error code and a message. -/
  write : UInt16 → Int16 → Bytes → Locals → JOutStream → JOutStream

/-- The error code and the message for the code of an operation. -/
def errorOf (errors : List (Int16 × Bytes)) (ret : Int) : Int16 × Bytes :=
  (errors.find? fun e => e.1.toInt = ret).getD (0, [])

/-- `Execute` -/
def Command.execute (c : Command) (cmd : UInt16) (body : Bytes) (jos : JOutStream) :
    Serve JOutStream := do
  let (args, _) ← orAbort (c.read body)
  let (ret, l) ← runService (c.service args) (c.locals args)
  let (errorCode, errorMsg) := errorOf c.errors ret
  return c.write cmd errorCode errorMsg l jos

namespace Cmd

variable (setup : Setup)

/-! ### Fields of requests -/

/-- A field of `n` characters, read into an array with room for the NUL. -/
def chars (n : Nat) : Read Bytes := do
  return cString (← readBytes n)

/-- An encrypted password, decrypted into `char pass[16]` and read as a string. -/
def password (cmd : UInt16) : Read Bytes := do
  let encryptedPass ← readBytes 16
  let pass := setup.crypto.ideaDecrypt (ideaKey setup.crypto cmd) encryptedPass
  return cString (pass.toList ++ setup.sys.junk.stack ++ [0])

/-- An `Account` as declared: its strings are empty and its numbers are not set. -/
def newAccount : Account := ⟨setup.sys.junk.int, [], [], [], [], setup.sys.junk.double⟩

def localsOf (account : Account) : Locals := ⟨false, account, setup.sys.interestRate, []⟩

/-! ### Bodies of replies -/

/-- A reply of one packet, whose body is left out when there is an error. -/
def writeReply (body : Locals → JOutStream → JOutStream) (cmd : UInt16) (errorCode : Int16)
    (errorMsg : Bytes) (l : Locals) : JOutStream → JOutStream :=
  writePacket setup.crypto cmd 0 0 errorCode errorMsg (if errorCode = 0 then body l else id)

/-- `s.c_str()`, `n` bytes of it. -/
def writeChars (n : Nat) (s : Bytes) (jos : JOutStream) : JOutStream :=
  jos.writeBytes (cBytes setup.sys.junk.mem s n)

/-- Name, balance and date. -/
def balanceBody (l : Locals) (jos : JOutStream) : JOutStream :=
  writeChars setup 19 l.account.opDate
    ((jos.putString l.account.name).putString (Convert.doubleToString l.account.balance))

/-- Name, balance, interest and date. -/
def closeBody (l : Locals) (jos : JOutStream) : JOutStream :=
  writeChars setup 19 l.account.opDate
    (((jos.putString l.account.name).putString (Convert.doubleToString l.account.balance)).putString
      (Convert.doubleToString l.interest))

/-- Account number and date, with or without an error. -/
def openBody (l : Locals) (jos : JOutStream) : JOutStream :=
  (writeChars setup 6 (paddedText 6 l.account.accountId) jos).putString l.account.opDate

/-- A row of a bill. -/
def billBody (td : TransDetail) (jos : JOutStream) : JOutStream :=
  let jos := writeChars setup 19 td.transDate jos
  let jos := writeChars setup 6 td.accountId jos
  let jos := writeChars setup 6 td.otherAccountId jos
  let jos := jos.putString (Convert.doubleToString td.money)
  let jos := jos.putString td.abstractName
  let jos := jos.putString (Convert.doubleToString td.balance)
  jos.putU32 td.total

/-- A packet for each row, each built in a stream of its own and then added. -/
def writeRowsApart (cmd cnt : UInt16) (errorMsg : Bytes) :
    UInt16 → List TransDetail → JOutStream → JOutStream
  | _, [], jos => jos
  | seq, td :: rest, jos =>
      let josTmp := writePacket setup.crypto cmd cnt seq 0 errorMsg (billBody setup td) .init
      writeRowsApart cmd cnt errorMsg (seq + 1) rest (jos.writeBytes josTmp.data)

/-- A packet for each row, all built in the stream of the session. -/
def writeRowsInto (cmd cnt : UInt16) (errorMsg : Bytes) :
    UInt16 → List TransDetail → JOutStream → JOutStream
  | _, [], jos => jos
  | seq, td :: rest, jos =>
      writeRowsInto cmd cnt errorMsg (seq + 1) rest
        (writePacket setup.crypto cmd cnt seq 0 errorMsg (billBody setup td) jos)

/-- The reply to a bill query, with `rows` to write the packets of its rows. -/
def writeBill (rows : UInt16 → UInt16 → Bytes → UInt16 → List TransDetail → JOutStream → JOutStream)
    (cmd : UInt16) (errorCode : Int16) (errorMsg : Bytes) (l : Locals) (jos : JOutStream) :
    JOutStream :=
  if errorCode = 0 then rows cmd (UInt16.ofNat l.result.length) errorMsg 0 l.result jos
  else writePacket setup.crypto cmd 0 0 errorCode errorMsg id jos

/-! ### The commands -/

def userLogin : Command where
  Args := Bytes × Bytes
  read := do
    let name ← getString
    let pass ← password setup CMD_LOGIN
    return (name, pass)
  service := fun (name, pass) => BankService.userLogin name pass
  locals := fun _ => localsOf setup (newAccount setup)
  errors := [(1, Msg.badUserOrPass), (-1, Msg.databaseError)]
  write := writeReply setup fun _ => id

def openAccount : Command where
  Args := Bytes × Bytes × Bytes × Bytes
  read := do
    let name ← getString
    let pass ← password setup CMD_OPEN_ACCOUNT
    let id ← chars 18
    let money ← getString
    return (name, pass, id, money)
  service := fun _ => BankService.openAccount
  locals := fun (name, pass, id, money) => localsOf setup
    { newAccount setup with
      name := name, pass := pass, id := id,
      balance := Convert.stringToDouble setup.sys.junk money }
  errors := [(1, Msg.badUserOrPass), (-1, Msg.databaseError)]
  write := fun cmd errorCode errorMsg l =>
    writePacket setup.crypto cmd 0 0 errorCode errorMsg (openBody setup l)

def deposit : Command where
  Args := Bytes × Bytes
  read := do
    let accountId ← chars 6
    let money ← getString
    return (accountId, money)
  service := fun _ => BankService.deposit setup.sys
  locals := fun (accountId, money) => localsOf setup
    { newAccount setup with
      accountId := Convert.stringToInt setup.sys.junk accountId,
      balance := Convert.stringToDouble setup.sys.junk money }
  errors := [(2, Msg.noAccount), (-1, Msg.databaseError)]
  write := writeReply setup (balanceBody setup)

def withdrawal : Command where
  Args := Bytes × Bytes × Bytes
  read := do
    let accountId ← chars 6
    let pass ← password setup CMD_WITHDRAW
    let money ← getString
    return (accountId, pass, money)
  service := fun _ => BankService.withDraw setup.sys
  locals := fun (accountId, pass, money) => localsOf setup
    { newAccount setup with
      accountId := Convert.stringToInt setup.sys.junk accountId, pass := pass,
      balance := Convert.stringToDouble setup.sys.junk money }
  errors := [(2, Msg.noAccount), (3, Msg.badPass), (4, Msg.notEnough), (-1, Msg.databaseError)]
  write := writeReply setup (balanceBody setup)

def transfer : Command where
  Args := Bytes × Bytes × Bytes × Bytes
  read := do
    let accountId ← chars 6
    let pass ← password setup CMD_TRANSFER
    let money ← getString
    let otherAccountId ← chars 6
    return (accountId, pass, money, otherAccountId)
  service := fun (_, _, _, otherAccountId) => BankService.transfer setup.sys otherAccountId
  locals := fun (accountId, pass, money, _) => localsOf setup
    { newAccount setup with
      accountId := Convert.stringToInt setup.sys.junk accountId, pass := pass,
      balance := Convert.stringToDouble setup.sys.junk money }
  errors := [(2, Msg.noAccount), (3, Msg.badPass), (4, Msg.notEnough), (5, Msg.noOtherAccount),
    (-1, Msg.databaseError)]
  write := writeReply setup (balanceBody setup)

def balanceInquiry : Command where
  Args := Bytes × Bytes
  read := do
    let accountId ← chars 6
    let pass ← password setup CMD_BALANCE_INQUIRY
    return (accountId, pass)
  service := fun _ => BankService.balanceInquiry setup.sys
  locals := fun (accountId, pass) => localsOf setup
    { newAccount setup with
      accountId := Convert.stringToInt setup.sys.junk accountId, pass := pass }
  errors := [(2, Msg.noAccount), (3, Msg.badPass), (-1, Msg.databaseError)]
  write := writeReply setup (balanceBody setup)

def changePassword : Command where
  Args := Bytes × Bytes × Bytes
  read := do
    let accountId ← chars 6
    let pass ← password setup CMD_CHANGE_PASSWORD
    let newpass ← password setup CMD_CHANGE_PASSWORD
    return (accountId, pass, newpass)
  service := fun (_, _, newpass) => BankService.changePassword newpass
  locals := fun (accountId, pass, _) => localsOf setup
    { newAccount setup with
      accountId := Convert.stringToInt setup.sys.junk accountId, pass := pass }
  errors := [(2, Msg.noAccount), (3, Msg.badPass), (-1, Msg.databaseError)]
  write := writeReply setup fun _ => id

/-- A `uint32` passed as an `int`. -/
def toInt32 (x : UInt32) : Int := x.toInt32.toInt

def queryDayBill : Command where
  Args := UInt32 × Bytes
  read := do
    let page ← getU32
    let date ← chars 10
    return (page, date)
  service := fun (page, date) => BankService.queryDayBill setup.sys (toInt32 page) date
  locals := fun _ => localsOf setup (newAccount setup)
  errors := [(6, Msg.noData), (-1, Msg.databaseError)]
  write := writeBill setup (writeRowsApart setup)

def queryHistoryBill : Command where
  Args := UInt32 × Bytes × Bytes
  read := do
    let page ← getU32
    let beginDate ← chars 10
    let endDate ← chars 10
    return (page, beginDate, endDate)
  service := fun (page, beginDate, endDate) =>
    BankService.queryHistoryBill setup.sys (toInt32 page) beginDate endDate
  locals := fun _ => localsOf setup (newAccount setup)
  errors := [(6, Msg.noData), (-1, Msg.databaseError)]
  write := writeBill setup (writeRowsInto setup)

def queryAccountHistoryBill : Command where
  Args := UInt32 × Bytes × Bytes × Bytes
  read := do
    let page ← getU32
    let accountId ← chars 6
    let beginDate ← chars 10
    let endDate ← chars 10
    return (page, accountId, beginDate, endDate)
  service := fun (page, accountId, beginDate, endDate) =>
    BankService.queryAccountHistoryBill setup.sys (toInt32 page) accountId beginDate endDate
  locals := fun _ => localsOf setup (newAccount setup)
  errors := [(6, Msg.noData), (-1, Msg.databaseError)]
  write := writeBill setup (writeRowsInto setup)

def closeAccount : Command where
  Args := Bytes × Bytes
  read := do
    let accountId ← chars 6
    let pass ← password setup CMD_CLOSE_ACCOUNT
    return (accountId, pass)
  service := fun _ => BankService.closeAccount setup.sys
  locals := fun (accountId, pass) => localsOf setup
    { newAccount setup with
      accountId := Convert.stringToInt setup.sys.junk accountId, pass := pass }
  errors := [(2, Msg.noAccount), (3, Msg.badPass), (-1, Msg.databaseError)]
  write := writeReply setup (closeBody setup)

end Cmd

/-- `TransactionManager::m_actions` -/
def actions (setup : Setup) : List (UInt16 × Command) :=
  [(CMD_LOGIN, Cmd.userLogin setup),
    (CMD_OPEN_ACCOUNT, Cmd.openAccount setup),
    (CMD_DEPOSIT, Cmd.deposit setup),
    (CMD_WITHDRAW, Cmd.withdrawal setup),
    (CMD_TRANSFER, Cmd.transfer setup),
    (CMD_BALANCE_INQUIRY, Cmd.balanceInquiry setup),
    (CMD_CHANGE_PASSWORD, Cmd.changePassword setup),
    (CMD_DAY_BILL, Cmd.queryDayBill setup),
    (CMD_HISTORY_BILL, Cmd.queryHistoryBill setup),
    (CMD_ACCOUNT_HISTORY_BILL, Cmd.queryAccountHistoryBill setup),
    (CMD_CLOSE_ACCOUNT, Cmd.closeAccount setup)]

/-- `m_actions.find(cmd)` -/
def action? (setup : Setup) (cmd : UInt16) : Option Command :=
  ((actions setup).find? fun a => a.1 = cmd).map Prod.snd

end Bank
