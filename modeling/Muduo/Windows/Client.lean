/-
How the client reads the replies to its requests.

The three bill queries have the same loop: a packet is received, its head and its row are
decoded, and another packet is received unless this one was the last by its own count.
The loop is bounded by the count of the first packet.

The other eight commands receive one packet, and read its fields if there is no error.
-/
import Muduo.Windows.BankSession

namespace Windows

open Lib Bank JInStream

namespace BankClient

/-- The fields of a reply's head behind `cmd` and `len`. -/
structure ReplyHead where
  cnt : UInt16
  seq : UInt16
  errorCode : Int16

/-- `jis.Skip(4); jis>>cnt>>seq>>error_code; jis.ReadBytes(error_msg, 30)` -/
def readHead : Read ReplyHead := do
  skip 4
  let cnt ← getU16
  let seq ← getU16
  let errorCode ← getU16
  let _ ← readBytes 30
  return ⟨cnt, seq, errorCode.toInt16⟩

/-- The fields of a row. -/
def readRow (junk : Junk) : Read TransDetail := do
  let transDate ← readBytes 19
  let accountId ← readBytes 6
  let otherAccountId ← readBytes 6
  let money ← getString
  let abstractName ← getString
  let balance ← getString
  let total ← getU32
  return {
    accountId := cString accountId
    otherAccountId := cString otherAccountId
    abstractName := abstractName
    money := Convert.stringToDouble junk money
    balance := Convert.stringToDouble junk balance
    transDate := cString transDate
    total := total }

/-- A read from a `JInStream` over the packet in the array. -/
def decode {α : Type} (r : Received) (read : Read α) : Except Signal α :=
  match read (r.packet responseHeadSize) with
  | some (a, _) => .ok a
  | none => .error (.crash .assertion)

/-- The loop over the packets of a reply, of which the first has been received. -/
def billLoop (crypto : Crypto) (junk : Junk) :
    Nat → Received → Bytes → List TransDetail → Except Signal (List TransDetail × Bytes)
  | 0, _, socket, details => .ok (details, socket)
  | i + 1, r, socket, details => do
      let (head, td) ← decode r (do
        let head ← readHead
        let td ← readRow junk
        return (head, td))
      let details := details ++ [td]
      if head.seq.toNat + 1 = head.cnt.toNat then return (details, socket)
      let (r, socket) ← recv crypto r.buffer socket
      billLoop crypto junk i r socket details

/-- What the client's `Execute` does with the reply to a bill query: the error code, the
rows, and what is left of the stream. -/
def recvBill (crypto : Crypto) (junk : Junk) (buffer socket : Bytes) :
    Except Signal (Int16 × List TransDetail × Bytes) := do
  let (r, socket) ← recv crypto buffer socket
  let head ← decode r readHead
  if head.errorCode = 0 then
    let (details, socket) ← billLoop crypto junk head.cnt.toNat r socket []
    return (0, details, socket)
  else return (head.errorCode, [], socket)

/-! ### Replies of one packet -/

/-- What `SetResponse` has been given. -/
abbrev Responses := List (String × Bytes)

/-- What a command leaves in the client's session. -/
structure Response where
  errorCode : Int16
  errorMsg : Bytes
  responses : Responses

/-- The head, with its message, and the fields if there is no error.  The last byte of
`char error_msg[31]` is not set. -/
def readReply (junk : Junk) (fields : Read Responses) : Read Response := do
  skip 4
  let _ ← getU16
  let _ ← getU16
  let errorCode := (← getU16).toInt16
  let errorMsg ← readBytes 30
  let responses ← if errorCode = 0 then fields else pure []
  return ⟨errorCode, cString (errorMsg ++ junk.stack ++ [0]), responses⟩

/-- Name, balance and date. -/
def readBalance : Read Responses := do
  let name ← getString
  let balance ← getString
  let transDate ← readBytes 19
  return [("name", name), ("balance", balance), ("trans_date", cString transDate)]

/-- Name, balance, interest and date. -/
def readClosed : Read Responses := do
  let name ← getString
  let balance ← getString
  let interest ← getString
  let closeDate ← readBytes 19
  return [("name", name), ("balance", balance), ("interest", interest),
    ("close_date", cString closeDate)]

/-- Account number and date. -/
def readOpened : Read Responses := do
  let accountId ← readBytes 6
  let openDate ← getString
  return [("account_id", cString accountId), ("open_date", openDate)]

end BankClient

/-- The commands whose reply is one packet. -/
inductive SingleCommand where
  | userLogin
  | openAccount
  | deposit
  | withdrawal
  | transfer
  | balanceInquiry
  | changePassword
  | closeAccount

namespace SingleCommand

def cmd : SingleCommand → UInt16
  | userLogin => CMD_LOGIN
  | openAccount => CMD_OPEN_ACCOUNT
  | deposit => CMD_DEPOSIT
  | withdrawal => CMD_WITHDRAW
  | transfer => CMD_TRANSFER
  | balanceInquiry => CMD_BALANCE_INQUIRY
  | changePassword => CMD_CHANGE_PASSWORD
  | closeAccount => CMD_CLOSE_ACCOUNT

/-- The fields the client's command reads. -/
def readFields : SingleCommand → Read BankClient.Responses
  | userLogin => pure []
  | openAccount => BankClient.readOpened
  | deposit => BankClient.readBalance
  | withdrawal => BankClient.readBalance
  | transfer => BankClient.readBalance
  | balanceInquiry => BankClient.readBalance
  | changePassword => pure []
  | closeAccount => BankClient.readClosed

/-- The command of the server. -/
def command (setup : Setup) : SingleCommand → Command
  | userLogin => Cmd.userLogin setup
  | openAccount => Cmd.openAccount setup
  | deposit => Cmd.deposit setup
  | withdrawal => Cmd.withdrawal setup
  | transfer => Cmd.transfer setup
  | balanceInquiry => Cmd.balanceInquiry setup
  | changePassword => Cmd.changePassword setup
  | closeAccount => Cmd.closeAccount setup

end SingleCommand

/-- What the client's `Execute` does with its reply. -/
def BankClient.recvReply (crypto : Crypto) (junk : Junk) (c : SingleCommand) (buffer socket : Bytes) :
    Except Signal (Response × Bytes) := do
  let (r, socket) ← recv crypto buffer socket
  let response ← decode r (readReply junk c.readFields)
  return (response, socket)

end Windows
