/-
The packets of the bank protocol.

A request is a four byte head, the fields of its command and eight bytes of hash; a
reply is a forty byte head, fields and hash.  Every command builds its reply the same
way, from inside its own `Execute`: the head with a gap for the length, the fields,
then back to the gap, then the hash over what the stream holds by then.  That text is
`writePacket` here, with what differs between the commands as its arguments.

MD5 and the IDEA cipher are taken as functions of the right shape; nothing about
them is assumed.
-/
import Muduo.Bank.Stream
import Muduo.Lib.Numeral

namespace Bank

open Lib

/-! ### Commands -/

def CMD_LOGIN : UInt16 := 0x01
def CMD_OPEN_ACCOUNT : UInt16 := 0x02
def CMD_DEPOSIT : UInt16 := 0x03
def CMD_WITHDRAW : UInt16 := 0x04
def CMD_TRANSFER : UInt16 := 0x05
def CMD_BALANCE_INQUIRY : UInt16 := 0x06
def CMD_CHANGE_PASSWORD : UInt16 := 0x07
def CMD_DAY_BILL : UInt16 := 0x08
def CMD_HISTORY_BILL : UInt16 := 0x09
def CMD_ACCOUNT_HISTORY_BILL : UInt16 := 0x0A
def CMD_CLOSE_ACCOUNT : UInt16 := 0x0B

/-- `sizeof(RequestHead)`. -/
def requestHeadSize : Nat := 4

/-- `sizeof(ResponseHead)`. -/
def responseHeadSize : Nat := 40

/-- `sizeof(BankSession::buffer_)`, on the server and on the client. -/
def bufferSize : Nat := 2048

/-! ### Hash and key -/

/-- The digest and the cipher. -/
structure Crypto where
  md5 : Bytes → Vector UInt8 16
  ideaDecrypt : Vector UInt8 16 → Bytes → Vector UInt8 16

/-- `(cmd >> (i % 2)) & 0xff`. -/
def cmdByte (cmd : UInt16) (i : Nat) : UInt8 :=
  UInt8.ofNat (cmd.toNat / 2 ^ (i % 2) % 256)

/-- The eight bytes that end a packet whose other bytes are `data`. -/
def foldHash (crypto : Crypto) (cmd : UInt16) (data : Bytes) : Bytes :=
  let hash := (crypto.md5 data).toList
  (List.range 8).map fun i => hash.getD i 0 ^^^ hash.getD (i + 8) 0 ^^^ cmdByte cmd i

/-- The key for the passwords of a command. -/
def ideaKey (crypto : Crypto) (cmd : UInt16) : Vector UInt8 16 :=
  let hash := (crypto.md5 (beU16 cmd)).toList
  let low := fun i => hash.getD i 0 ^^^ hash.getD (i + 8) 0 ^^^ cmdByte cmd i
  Vector.ofFn fun i : Fin 16 =>
    if i.val < 8 then low i.val
    else low (i.val - 8) ^^^ hash.getD i.val 0 ^^^ cmdByte cmd (i.val - 8)

@[simp] theorem length_foldHash (crypto : Crypto) (cmd : UInt16) (data : Bytes) :
    (foldHash crypto cmd data).length = 8 := by
  simp [foldHash]

/-! ### Replies -/

/-- `error_msg[31]`, zeroed and then written by `strcpy`, as far as it is sent. -/
def errorMsgField (msg : Bytes) : Bytes :=
  (msg ++ List.replicate 30 0).take 30

@[simp] theorem length_errorMsgField (msg : Bytes) : (errorMsgField msg).length = 30 := by
  simp only [errorMsgField, List.length_take, List.length_append, List.length_replicate]
  omega

/-- The head of a reply. -/
structure ResponseHead where
  cmd : UInt16
  len : UInt16
  cnt : UInt16
  seq : UInt16
  errorCode : Int16
  errorMsg : Bytes

/-- The bytes of a head. -/
def ResponseHead.bytes (h : ResponseHead) : Bytes :=
  beU16 h.cmd ++ beU16 h.len ++ beU16 h.cnt ++ beU16 h.seq ++ beU16 h.errorCode.toUInt16
    ++ errorMsgField h.errorMsg

@[simp] theorem ResponseHead.length_bytes (h : ResponseHead) :
    h.bytes.length = responseHeadSize := by
  simp [ResponseHead.bytes, responseHeadSize]

/-- What every command does with the stream: head, fields, length, hash. -/
def writePacket (crypto : Crypto) (cmd cnt seq : UInt16) (errorCode : Int16) (errorMsg : Bytes)
    (body : JOutStream → JOutStream) (jos : JOutStream) : JOutStream :=
  let jos := jos.putU16 cmd
  let lengthPos := jos.length
  let jos := jos.skip 2
  let jos := ((jos.putU16 cnt).putU16 seq).putU16 errorCode.toUInt16
  let jos := jos.writeBytes (errorMsgField errorMsg)
  let jos := body jos
  let tailPos := jos.length
  let jos := jos.reposition lengthPos
  let jos := jos.putU16 (UInt16.ofNat (tailPos + 8 - responseHeadSize))
  let jos := jos.reposition tailPos
  jos.writeBytes (foldHash crypto cmd jos.data)

/-- The 16-bit length a packet gets whose fields are `d`, written to a stream that
held `before` bytes. -/
def lenField (before : Nat) (d : Bytes) : UInt16 :=
  UInt16.ofNat (before + responseHeadSize + d.length + 8 - responseHeadSize)

/-- Behind whatever the stream held comes a head, the fields and a hash.  The length
and the hash are those of the whole stream up to there, not of the packet. -/
theorem data_writePacket (crypto : Crypto) (cmd cnt seq : UInt16) (errorCode : Int16)
    (errorMsg : Bytes) {body : JOutStream → JOutStream} {d : Bytes}
    (hbody : JOutStream.Appends body d) {jos : JOutStream} (h : jos.Inside) :
    let head : ResponseHead := ⟨cmd, lenField jos.length d, cnt, seq, errorCode, errorMsg⟩
    (writePacket crypto cmd cnt seq errorCode errorMsg body jos).Inside ∧
      (writePacket crypto cmd cnt seq errorCode errorMsg body jos).data
        = jos.data ++ (head.bytes ++ d) ++ foldHash crypto cmd (jos.data ++ (head.bytes ++ d)) := by
  intro head
  obtain ⟨hin, hdata⟩ : (jos.putU16 cmd).Inside ∧ (jos.putU16 cmd).data = jos.data ++ beU16 cmd :=
    JOutStream.appends_putU16 cmd jos h
  -- everything between the gap and the hash
  have hrest := (((JOutStream.appends_putU16 cnt).comp (JOutStream.appends_putU16 seq)).comp
    (JOutStream.appends_putU16 errorCode.toUInt16)).comp
      (JOutStream.appends_writeBytes (errorMsgField errorMsg)) |>.comp hbody
  obtain ⟨htail, hpatch⟩ := JOutStream.data_backpatch hin hrest 2
  have hstart : (jos.putU16 cmd).length = jos.length + 2 := by
    rw [JOutStream.length_eq_currIndex, ← JOutStream.length_data hin, hdata,
      List.length_append, JOutStream.length_data h, length_beU16, JOutStream.length_eq_currIndex]
  unfold writePacket
  simp only
  set out := body (((((jos.putU16 cmd).skip 2).putU16 cnt).putU16 seq).putU16
    errorCode.toUInt16 |>.writeBytes (errorMsgField errorMsg))
  have hlen : out.length = jos.length + responseHeadSize + d.length := by
    rw [htail, hstart]
    simp only [List.length_append, length_beU16, length_errorMsgField, responseHeadSize]
    omega
  have hfield : UInt16.ofNat (out.length + 8 - responseHeadSize) = lenField jos.length d := by
    rw [hlen, lenField]
  rw [hfield]
  set patched := ((out.reposition (jos.putU16 cmd).length).putU16
    (lenField jos.length d)).reposition out.length
  obtain ⟨hpin, hpdata⟩ : patched.Inside ∧ patched.data = jos.data ++ (head.bytes ++ d) := by
    obtain ⟨h₁, h₂⟩ := hpatch (beU16 (lenField jos.length d)) rfl
    refine ⟨h₁, h₂.trans ?_⟩
    rw [hdata]
    simp only [head, ResponseHead.bytes, List.append_assoc]
  rw [hpdata]
  obtain ⟨h₃, h₄⟩ := JOutStream.appends_writeBytes
    (foldHash crypto cmd (jos.data ++ (head.bytes ++ d))) patched hpin
  exact ⟨h₃, by rw [h₄, hpdata]⟩

end Bank
