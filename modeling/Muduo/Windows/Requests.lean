/-
How the client writes its requests.

The eleven commands write their fields one after the other and frame them the same way: a
gap for the length behind the command, back to it when the fields are there, and eight bytes
of hash.  The streams, the hash and the derivation of the key from the command are the
server's, line by line, and so are the definitions used for them here.

A password is encrypted as sixteen bytes from its first character on, however long it is;
what lies behind its NUL is whatever the client's memory holds.
-/
import Muduo.Bank.Cmd
import Muduo.Bank.Idea

namespace Windows

open Lib Bank

/-! ### Fields -/

/-- What the client's commands use: the digest and the cipher, and what memory holds. -/
structure Client where
  idea : Idea
  /-- The bytes behind the end of the string of a field. -/
  mem : Nat → Nat → UInt8
  /-- What `page` holds before it is read. -/
  page : UInt32

namespace BankClient

variable (client : Client)

/-- `WriteBytes(s.c_str(), n)`, for the `k`-th field. -/
def writeChars (k n : Nat) (s : Bytes) (jos : JOutStream) : JOutStream :=
  jos.writeBytes (cBytes (client.mem k) s n)

/-- `Crypt` of `pass.c_str()` under the key of the command, for the `k`-th field. -/
def writePass (cmd : UInt16) (k : Nat) (pass : Bytes) (jos : JOutStream) : JOutStream :=
  jos.writeBytes (client.idea.encrypt (ideaKey client.idea.crypto cmd) (cBytes (client.mem k) pass 16))

/-- `ss << attribute; ss >> page; jos << page` -/
def writePage (page : Bytes) (jos : JOutStream) : JOutStream :=
  jos.putU32 (readUInt32 page client.page)

/-- What every command does around its fields. -/
def writeRequest (cmd : UInt16) (fields : JOutStream → JOutStream) : JOutStream :=
  let jos := JOutStream.init.putU16 cmd
  let lengthPos := jos.length
  let jos := jos.skip 2
  let jos := fields jos
  let tailPos := jos.length
  let jos := jos.reposition lengthPos
  let jos := jos.putU16 (UInt16.ofNat (tailPos + 8 - requestHeadSize))
  let jos := jos.reposition tailPos
  jos.writeBytes (foldHash client.idea.crypto cmd jos.data)

/-! ### The fields of each command -/

def userLogin (name pass : Bytes) (jos : JOutStream) : JOutStream :=
  writePass client CMD_LOGIN 1 pass (jos.putString name)

/-- All of `id` is written, whatever its length. -/
def openAccount (name pass id money : Bytes) (jos : JOutStream) : JOutStream :=
  ((writePass client CMD_OPEN_ACCOUNT 1 pass (jos.putString name)).writeBytes id).putString money

def deposit (accountId money : Bytes) (jos : JOutStream) : JOutStream :=
  (writeChars client 0 6 accountId jos).putString money

def withdrawal (accountId pass money : Bytes) (jos : JOutStream) : JOutStream :=
  (writePass client CMD_WITHDRAW 1 pass (writeChars client 0 6 accountId jos)).putString money

def transfer (accountId pass money otherAccountId : Bytes) (jos : JOutStream) : JOutStream :=
  writeChars client 3 6 otherAccountId
    ((writePass client CMD_TRANSFER 1 pass (writeChars client 0 6 accountId jos)).putString money)

def balanceInquiry (accountId pass : Bytes) (jos : JOutStream) : JOutStream :=
  writePass client CMD_BALANCE_INQUIRY 1 pass (writeChars client 0 6 accountId jos)

def changePassword (accountId pass newpass : Bytes) (jos : JOutStream) : JOutStream :=
  writePass client CMD_CHANGE_PASSWORD 2 newpass
    (writePass client CMD_CHANGE_PASSWORD 1 pass (writeChars client 0 6 accountId jos))

def queryDayBill (page date : Bytes) (jos : JOutStream) : JOutStream :=
  writeChars client 1 10 date (writePage client page jos)

def queryHistoryBill (page beginDate endDate : Bytes) (jos : JOutStream) : JOutStream :=
  writeChars client 2 10 endDate (writeChars client 1 10 beginDate (writePage client page jos))

def queryAccountHistoryBill (page accountId beginDate endDate : Bytes) (jos : JOutStream) :
    JOutStream :=
  writeChars client 3 10 endDate (writeChars client 2 10 beginDate
    (writeChars client 1 6 accountId (writePage client page jos)))

def closeAccount (accountId pass : Bytes) (jos : JOutStream) : JOutStream :=
  writePass client CMD_CLOSE_ACCOUNT 1 pass (writeChars client 0 6 accountId jos)

end BankClient

/-! ### Requests -/

/-- A command with the attributes its form has set. -/
inductive Request where
  | userLogin (name pass : Bytes)
  | openAccount (name pass id money : Bytes)
  | deposit (accountId money : Bytes)
  | withdrawal (accountId pass money : Bytes)
  | transfer (accountId pass money otherAccountId : Bytes)
  | balanceInquiry (accountId pass : Bytes)
  | changePassword (accountId pass newpass : Bytes)
  | queryDayBill (page date : Bytes)
  | queryHistoryBill (page beginDate endDate : Bytes)
  | queryAccountHistoryBill (page accountId beginDate endDate : Bytes)
  | closeAccount (accountId pass : Bytes)

namespace Request

def cmd : Request → UInt16
  | userLogin .. => CMD_LOGIN
  | openAccount .. => CMD_OPEN_ACCOUNT
  | deposit .. => CMD_DEPOSIT
  | withdrawal .. => CMD_WITHDRAW
  | transfer .. => CMD_TRANSFER
  | balanceInquiry .. => CMD_BALANCE_INQUIRY
  | changePassword .. => CMD_CHANGE_PASSWORD
  | queryDayBill .. => CMD_DAY_BILL
  | queryHistoryBill .. => CMD_HISTORY_BILL
  | queryAccountHistoryBill .. => CMD_ACCOUNT_HISTORY_BILL
  | closeAccount .. => CMD_CLOSE_ACCOUNT

def writeFields (client : Client) : Request → JOutStream → JOutStream
  | userLogin name pass => BankClient.userLogin client name pass
  | openAccount name pass id money => BankClient.openAccount client name pass id money
  | deposit accountId money => BankClient.deposit client accountId money
  | withdrawal accountId pass money => BankClient.withdrawal client accountId pass money
  | transfer accountId pass money otherAccountId =>
      BankClient.transfer client accountId pass money otherAccountId
  | balanceInquiry accountId pass => BankClient.balanceInquiry client accountId pass
  | changePassword accountId pass newpass => BankClient.changePassword client accountId pass newpass
  | queryDayBill page date => BankClient.queryDayBill client page date
  | queryHistoryBill page beginDate endDate =>
      BankClient.queryHistoryBill client page beginDate endDate
  | queryAccountHistoryBill page accountId beginDate endDate =>
      BankClient.queryAccountHistoryBill client page accountId beginDate endDate
  | closeAccount accountId pass => BankClient.closeAccount client accountId pass

/-- What is given to `session.Send`. -/
def packet (client : Client) (q : Request) : Bytes :=
  (BankClient.writeRequest client q.cmd (q.writeFields client)).data

/-- The command of the server that is meant. -/
def command (setup : Setup) : Request → Command
  | userLogin .. => Cmd.userLogin setup
  | openAccount .. => Cmd.openAccount setup
  | deposit .. => Cmd.deposit setup
  | withdrawal .. => Cmd.withdrawal setup
  | transfer .. => Cmd.transfer setup
  | balanceInquiry .. => Cmd.balanceInquiry setup
  | changePassword .. => Cmd.changePassword setup
  | queryDayBill .. => Cmd.queryDayBill setup
  | queryHistoryBill .. => Cmd.queryHistoryBill setup
  | queryAccountHistoryBill .. => Cmd.queryAccountHistoryBill setup
  | closeAccount .. => Cmd.closeAccount setup

/-- The attributes, as the arguments of that command.  A page is the number its text spells. -/
def args (setup : Setup) : (q : Request) → (q.command setup).Args
  | userLogin name pass => (name, pass)
  | openAccount name pass id money => (name, pass, id, money)
  | deposit accountId money => (accountId, money)
  | withdrawal accountId pass money => (accountId, pass, money)
  | transfer accountId pass money otherAccountId => (accountId, pass, money, otherAccountId)
  | balanceInquiry accountId pass => (accountId, pass)
  | changePassword accountId pass newpass => (accountId, pass, newpass)
  | queryDayBill page date => (UInt32.ofNat (digitsValue page), date)
  | queryHistoryBill page beginDate endDate => (UInt32.ofNat (digitsValue page), beginDate, endDate)
  | queryAccountHistoryBill page accountId beginDate endDate =>
      (UInt32.ofNat (digitsValue page), accountId, beginDate, endDate)
  | closeAccount accountId pass => (accountId, pass)

/-! ### What the forms let through -/

/-- Any characters, eight at most. -/
def IsPass (s : Bytes) : Prop := s.length ≤ 8 ∧ (0 : UInt8) ∉ s

/-- A field of exactly `n` characters. -/
def IsChars (n : Nat) (s : Bytes) : Prop := s.length = n ∧ (0 : UInt8) ∉ s

def IsMoney (s : Bytes) : Prop := s.length ≤ 11

/-- A number of 32 bits in decimal. -/
def IsPage (s : Bytes) : Prop := s ≠ [] ∧ (∀ b ∈ s, isDigit b = true) ∧ digitsValue s < 2 ^ 32

def Admitted : Request → Prop
  | userLogin _ pass => IsPass pass
  | openAccount _ pass id money => IsPass pass ∧ IsChars 18 id ∧ IsMoney money
  | deposit accountId money => IsChars 6 accountId ∧ IsMoney money
  | withdrawal accountId pass money => IsChars 6 accountId ∧ IsPass pass ∧ IsMoney money
  | transfer accountId pass money otherAccountId =>
      IsChars 6 accountId ∧ IsPass pass ∧ IsMoney money ∧ IsChars 6 otherAccountId
  | balanceInquiry accountId pass => IsChars 6 accountId ∧ IsPass pass
  | changePassword accountId pass newpass => IsChars 6 accountId ∧ IsPass pass ∧ IsPass newpass
  | queryDayBill page date => IsPage page ∧ IsChars 10 date
  | queryHistoryBill page beginDate endDate =>
      IsPage page ∧ IsChars 10 beginDate ∧ IsChars 10 endDate
  | queryAccountHistoryBill page accountId beginDate endDate =>
      IsPage page ∧ IsChars 6 accountId ∧ IsChars 10 beginDate ∧ IsChars 10 endDate
  | closeAccount accountId pass => IsChars 6 accountId ∧ IsPass pass

/-- The name, which may have any length. -/
def name : Request → Bytes
  | userLogin name _ => name
  | openAccount name .. => name
  | _ => []

/-- The name and the whole request have room in the array of the server's session. -/
def Fits (client : Client) (q : Request) : Prop :=
  q.name.length ≤ bufferSize ∧ (q.packet client).length ≤ bufferSize

end Request

end Windows
