/-
The replies to the bill queries.

A bill of `n` rows should be `n` packets, each with its own length and its own hash,
and then the client's loop reads the rows back.  `CMD_DAY_BILL` builds every packet in
a stream of its own and its reply is that.  The other two build all packets in the
stream of the session, where the length that is filled in, and the range the hash is
taken over, begin at the front of the stream: the first packet is right, and every
later one carries the length and the hash of everything up to its end.
-/
import Muduo.Proofs.Messages
import Muduo.Windows.Client

namespace Bank

open Lib JOutStream JInStream

variable (setup : Setup)

/-! ### The specification -/

/-- The three commands that are answered by a bill. -/
def billCommands : List UInt16 := [CMD_DAY_BILL, CMD_HISTORY_BILL, CMD_ACCOUNT_HISTORY_BILL]

/-- The value of a `decimal(10,2)`. -/
def IsDecimal (x : ℚ) : Prop := ∃ c : Int, c.natAbs < 10 ^ 10 ∧ x = c / 100

/-- A string that fits a field of `n` characters. -/
def FitsField (n : Nat) (s : Bytes) : Prop := s.length ≤ n ∧ (0 : UInt8) ∉ s

/-- The values of a row fit their fields; sixteen characters are at most 64 bytes. -/
structure Fits (td : TransDetail) : Prop where
  transDate : FitsField 19 td.transDate
  accountId : FitsField 6 td.accountId
  otherAccountId : FitsField 6 td.otherAccountId
  money : IsDecimal td.money
  balance : IsDecimal td.balance
  abstractName : td.abstractName.length ≤ 64

/-- `p` is the packet of row number `seq` in a bill of `cnt` rows: a head with the
packet's own length, the fields of the row, and the hash of just these bytes. -/
structure IsRowPacket (cmd cnt seq : UInt16) (td : TransDetail) (p : Bytes) : Prop where
  length : p.length = responseHeadSize + (headLen p).toNat
  fields : ∃ len, p.take (p.length - 8)
    = (ResponseHead.mk cmd len cnt seq 0 []).bytes ++ billFields setup td
  hash : EndsWithHash setup.crypto p p.length

/-- `reply` is the packets of the rows, one behind the other. -/
def IsBill (cmd cnt : UInt16) : UInt16 → List TransDetail → Bytes → Prop
  | _, [], reply => reply = []
  | seq, td :: rest, reply =>
      ∃ p tail, reply = p ++ tail ∧ IsRowPacket setup cmd cnt seq td p ∧
        IsBill cmd cnt (seq + 1) rest tail

/-- The client reads the rows back, and nothing of what comes behind the reply. -/
def ReadsBack (rows : List TransDetail) (reply : Bytes) : Prop :=
  ∀ (junk : Junk) (buffer more : Bytes), buffer.length = bufferSize →
    Windows.BankClient.recvBill setup.crypto junk buffer (reply ++ more) = .ok (0, rows, more)

/-- The reply is the packets of the rows, and the client reads them back. -/
def GoodBill (cmd : UInt16) (rows : List TransDetail) (reply : Bytes) : Prop :=
  IsBill setup cmd (UInt16.ofNat rows.length) 0 rows reply ∧ ReadsBack setup rows reply

/-! ### Reading one packet -/

variable {setup}

private theorem readDecimal {x : ℚ} (h : IsDecimal x) (junk : Junk) :
    Convert.stringToDouble junk (Convert.doubleToString x) = x := by
  obtain ⟨c, hc, rfl⟩ := h
  apply stringToDouble_doubleToString
  have hc' : (c.natAbs : ℚ) < 10 ^ 10 := by exact_mod_cast hc
  have hmax : (10 : ℚ) ^ 10 / 100 ≤ doubleMax := le_doubleMax (by norm_num)
  linarith

theorem readHead_bytes (h : ResponseHead) (rest : Bytes) :
    Windows.BankClient.readHead (h.bytes ++ rest) = some (⟨h.cnt, h.seq, h.errorCode⟩, rest) := by
  unfold Windows.BankClient.readHead ResponseHead.bytes
  simp only [List.append_assoc]
  rw [← List.append_assoc (beU16 h.cmd), bind_of_some (skip_append (by simp) (by simp [beU16])),
    bind_of_some (getU16_append _ _), bind_of_some (getU16_append _ _),
    bind_of_some (getU16_append _ _), bind_of_some (readBytes_append _ (by simp))]
  rfl

private theorem length_decimal_le {x : ℚ} (h : IsDecimal x) :
    (Convert.doubleToString x).length ≤ 12 := by
  obtain ⟨c, hc, rfl⟩ := h
  exact length_doubleToString_le (k := 8) (by norm_num) hc

/-- The packet of a row fits the client's array. -/
theorem Fits.length_billFields_le {td : TransDetail} (h : Fits td) :
    (billFields setup td).length ≤ 200 := by
  have hmoney := length_decimal_le h.money
  have hbalance := length_decimal_le h.balance
  have hname := h.abstractName
  unfold billFields charsField
  rw [stringField_of_lt (by omega), stringField_of_lt (by omega), stringField_of_lt (by omega)]
  simp only [List.length_append, length_cBytes, length_beU16, length_beU32]
  omega

theorem readRow_billFields {td : TransDetail} (h : Fits td) (junk : Junk) (rest : Bytes) :
    Windows.BankClient.readRow junk (billFields setup td ++ rest) = some (td, rest) := by
  have hmoney := length_decimal_le h.money
  have hbalance := length_decimal_le h.balance
  have hname := h.abstractName
  unfold Windows.BankClient.readRow billFields charsField
  simp only [List.append_assoc]
  rw [bind_of_some (readBytes_append _ (by simp)), bind_of_some (readBytes_append _ (by simp)),
    bind_of_some (readBytes_append _ (by simp)), bind_of_some (getString_append (by omega) _),
    bind_of_some (getString_append (by omega) _), bind_of_some (getString_append (by omega) _),
    bind_of_some (getU32_append _ _)]
  show some (TransDetail.mk _ _ _ _ _ _ _, _) = _
  rw [cString_cBytes h.transDate.2 h.transDate.1, cString_cBytes h.accountId.2 h.accountId.1,
    cString_cBytes h.otherAccountId.2 h.otherAccountId.1, readDecimal h.money,
    readDecimal h.balance]

/-- A packet that is whole is received, and what comes behind it stays in the socket. -/
theorem recv_packet {buffer p : Bytes} (hbuf : buffer.length = bufferSize)
    (hlen : p.length = responseHeadSize + (headLen p).toNat) (h8 : 8 ≤ (headLen p).toNat)
    (hmost : p.length ≤ bufferSize) (hhash : EndsWithHash setup.crypto p p.length)
    (more : Bytes) :
    ∃ r, Windows.BankClient.recv setup.crypto buffer (p ++ more) = .ok (r, more) ∧
      r.packet responseHeadSize = p ∧ r.buffer.length = bufferSize := by
  have hhead : 4 ≤ responseHeadSize := by decide
  have hfront : (p ++ more).take 4 = p.take 4 := List.take_append_of_le_length (by omega)
  have hb : (p ++ more).length = p.length + more.length := List.length_append
  obtain ⟨hcmd, hl⟩ := head_arrived hbuf hhead (show responseHeadSize ≤ bufferSize by decide)
    (show responseHeadSize ≤ (p ++ more).length by omega)
  rw [headCmd_congr hfront] at hcmd
  rw [headLen_congr hfront] at hl
  -- what is in the array when both parts have been copied
  obtain ⟨hlen₁, -⟩ := take_splice_head
    (show responseHeadSize ≤ (p ++ more).length by omega) (show responseHeadSize ≤ buffer.length by omega)
  obtain ⟨hlen₂, hcopy⟩ := take_splice_splice
    (show responseHeadSize + (headLen p).toNat ≤ (p ++ more).length by omega)
    (show responseHeadSize + (headLen p).toNat ≤ buffer.length by omega)
  set first := splice buffer 0 ((p ++ more).take responseHeadSize) with hfirst
  set second := splice first responseHeadSize
    (((p ++ more).drop responseHeadSize).take (headLen p).toNat) with hsecond
  rw [← hlen, List.take_left] at hcopy
  have hsame : second.take p.length = p.take p.length := by rw [hcopy, List.take_length]
  have hcmd₂ : headCmd second = headCmd p :=
    headCmd_congr (take_four_of_take (by omega) hsame)
  have hcheck : checkHash setup.crypto (headCmd p) second p.length = .ok () := by
    rw [← hcmd₂, checkHash_of_le (hlen₂.trans hbuf) (by omega) hmost,
      if_pos ((endsWithHash_congr (by omega) (by omega) hsame).mpr hhash)]
  refine ⟨⟨second, headCmd p, headLen p⟩, ?_, ?_, hlen₂.trans hbuf⟩
  · unfold Windows.BankClient.recv
    rw [recvN_of_le (by omega) (by omega) (by omega)]
    show (if headLen first = 0 then _ else _) = _
    rw [hl, if_neg (fun h => by rw [h] at h8; exact absurd h8 (by decide)),
      recvN_of_le (by omega) (by rw [List.length_drop]; omega)
        (le_trans (show _ ≤ buffer.length by omega) (le_of_eq hlen₁.symm)),
      hcmd, List.drop_drop, ← hlen, List.drop_left]
    show (do checkHash setup.crypto (headCmd p) second p.length; _) = _
    rw [hcheck]
    rfl
  · show second.take (responseHeadSize + (headLen p).toNat) = p
    rw [← hlen, hcopy]

/-! ### Reading a bill -/

theorem headCmd_bytes (h : ResponseHead) (rest : Bytes) : headCmd (h.bytes ++ rest) = h.cmd :=
  toU16_beU16 h.cmd

theorem headLen_bytes (h : ResponseHead) (rest : Bytes) : headLen (h.bytes ++ rest) = h.len :=
  toU16_beU16 h.len

variable {cmd cnt seq : UInt16} {td : TransDetail} {p : Bytes}

/-- The length of a packet is that of its fields and what is around them. -/
theorem IsRowPacket.length_eq (h : IsRowPacket setup cmd cnt seq td p) :
    p.length = responseHeadSize + (billFields setup td).length + 8 := by
  obtain ⟨len, hfields⟩ := h.fields
  have hlen := h.length
  have hfront := congrArg List.length hfields
  rw [List.length_take, List.length_append, ResponseHead.length_bytes] at hfront
  simp only [responseHeadSize] at hfront hlen ⊢
  omega

/-- The packet of a row that fits is neither empty nor longer than the array. -/
theorem IsRowPacket.length_mem (h : IsRowPacket setup cmd cnt seq td p) (hfit : Fits td) :
    responseHeadSize ≤ p.length ∧ p.length ≤ bufferSize := by
  have hall := h.length_eq
  have hsmall : (billFields setup td).length ≤ 200 := hfit.length_billFields_le
  simp only [responseHeadSize, bufferSize] at hall ⊢
  omega

/-- What the client decodes from the packet of a row. -/
theorem IsRowPacket.decode (h : IsRowPacket setup cmd cnt seq td p) (hfit : Fits td)
    (junk : Junk) {r : Windows.Received} (hr : r.packet responseHeadSize = p) :
    Windows.BankClient.decode r Windows.BankClient.readHead = .ok ⟨cnt, seq, 0⟩ ∧
      Windows.BankClient.decode r (do
        let head ← Windows.BankClient.readHead
        let td ← Windows.BankClient.readRow junk
        return (head, td)) = .ok (⟨cnt, seq, 0⟩, td) := by
  obtain ⟨len, hfields⟩ := h.fields
  have hp : p = (ResponseHead.mk cmd len cnt seq 0 []).bytes
      ++ (billFields setup td ++ p.drop (p.length - 8)) := by
    conv => lhs; rw [← List.take_append_drop (p.length - 8) p, hfields]
    rw [List.append_assoc]
  unfold Windows.BankClient.decode
  rw [hr, hp, readHead_bytes, bind_of_some (readHead_bytes _ _),
    bind_of_some (readRow_billFields hfit junk _)]
  exact ⟨rfl, rfl⟩

/-- Receiving the packet of a row. -/
theorem IsRowPacket.recv (h : IsRowPacket setup cmd cnt seq td p) (hfit : Fits td) {buffer : Bytes}
    (hbuf : buffer.length = bufferSize) (more : Bytes) :
    ∃ r, Windows.BankClient.recv setup.crypto buffer (p ++ more) = .ok (r, more) ∧
      r.packet responseHeadSize = p ∧ r.buffer.length = bufferSize := by
  have hlen := h.length
  have hall := h.length_eq
  have hsmall : (billFields setup td).length ≤ 200 := hfit.length_billFields_le
  refine recv_packet hbuf hlen (by omega) ?_ h.hash more
  simp only [responseHeadSize, bufferSize] at hall ⊢
  omega

/-- The loop reads the rows of the packets that are still in the socket. -/
theorem billLoop_of_isBill (junk : Junk) (more : Bytes) (rest : List TransDetail) :
    ∀ {seq : UInt16} {td : TransDetail} {p tail : Bytes} {r : Windows.Received} {i : Nat}
      (details : List TransDetail),
      IsRowPacket setup cmd cnt seq td p → r.packet responseHeadSize = p →
      r.buffer.length = bufferSize → IsBill setup cmd cnt (seq + 1) rest tail →
      Fits td → (∀ td ∈ rest, Fits td) → seq.toNat + rest.length + 1 = cnt.toNat →
      rest.length < i →
      Windows.BankClient.billLoop setup.crypto junk i r (tail ++ more) details
        = .ok (details ++ td :: rest, more) := by
  induction rest with
  | nil =>
      intro seq td p tail r i details hp hr hbuf htail hfit hrest hcnt hi
      obtain ⟨i, rfl⟩ : ∃ j, i = j + 1 := ⟨i - 1, by simp at hi; omega⟩
      rw [show tail = [] from htail, Windows.BankClient.billLoop, (hp.decode hfit junk hr).2]
      show (if seq.toNat + 1 = cnt.toNat then _ else _) = _
      rw [if_pos (by simpa using hcnt)]
      rfl
  | cons td' rest ih =>
      intro seq td p tail r i details hp hr hbuf htail hfit hrest hcnt hi
      obtain ⟨i, rfl⟩ : ∃ j, i = j + 1 := ⟨i - 1, by simp at hi; omega⟩
      simp only [List.length_cons] at hcnt hi
      obtain ⟨p', tail', rfl, hp', htail'⟩ := htail
      obtain ⟨r', hrecv, hr', hbuf'⟩ := hp'.recv (hrest td' (by simp)) hbuf (tail' ++ more)
      have hnext : (seq + 1).toNat = seq.toNat + 1 := by
        have hc : cnt.toNat < 65536 := cnt.toNat_lt
        rw [UInt16.toNat_add]
        show (seq.toNat + 1) % 65536 = seq.toNat + 1
        omega
      rw [Windows.BankClient.billLoop, (hp.decode hfit junk hr).2]
      show (if seq.toNat + 1 = cnt.toNat then _ else _) = _
      rw [if_neg (by omega), List.append_assoc]
      show (Windows.BankClient.recv setup.crypto r.buffer (p' ++ (tail' ++ more)) >>= _) = _
      rw [hrecv]
      refine (ih (details ++ [td]) hp' hr' hbuf' htail' (hrest td' (by simp))
        (fun td hmem => hrest td (by simp [hmem])) (by omega) (by omega)).trans ?_
      rw [List.append_assoc]
      rfl

/-- **The client reads back what the packets say.** -/
theorem IsBill.readsBack {rows : List TransDetail} {reply : Bytes}
    (h : IsBill setup cmd (UInt16.ofNat rows.length) 0 rows reply) (hrows : rows ≠ [])
    (hfit : ∀ td ∈ rows, Fits td) (hn : rows.length < 65536) : ReadsBack setup rows reply := by
  intro junk buffer more hbuf
  obtain ⟨td, rest, rfl⟩ := List.exists_cons_of_ne_nil hrows
  obtain ⟨p, tail, rfl, hp, htail⟩ := h
  obtain ⟨r, hrecv, hr, hbuf'⟩ := hp.recv (hfit td (by simp)) hbuf (tail ++ more)
  have hcnt : (UInt16.ofNat (td :: rest).length).toNat = rest.length + 1 := by
    rw [UInt16.toNat_ofNat', Nat.mod_eq_of_lt (by simpa using hn), List.length_cons]
  have hloop := billLoop_of_isBill junk more rest (i := rest.length + 1) [] hp hr hbuf' htail
    (hfit td (by simp)) (fun td hmem => hfit td (by simp [hmem]))
    (by rw [hcnt]; show 0 + rest.length + 1 = _; omega) (Nat.lt_succ_self _)
  unfold Windows.BankClient.recvBill
  rw [List.append_assoc, hrecv]
  show (Windows.BankClient.decode r Windows.BankClient.readHead >>= _) = _
  rw [(hp.decode (hfit td (by simp)) junk hr).1]
  show (Windows.BankClient.billLoop setup.crypto junk
    (UInt16.ofNat (td :: rest).length).toNat r (tail ++ more) [] >>= _) = _
  rw [hcnt, hloop]
  rfl

/-! ### Writing a bill -/

section

variable (setup cmd cnt)

/-- What is written to an empty stream is one packet: its length and its hash are its own. -/
theorem packet_writePacket (crypto : Crypto) (cmd cnt seq : UInt16) (errorCode : Int16)
    (errorMsg : Bytes) {d : Bytes}
    {body : JOutStream → JOutStream} (hbody : JOutStream.Appends body d) {jos : JOutStream}
    (hin : jos.Inside) (hjos : jos.length = 0) (hd : d.length + 8 < 65536) :
    let p := (writePacket crypto cmd cnt seq errorCode errorMsg body jos).data
    p.length = responseHeadSize + d.length + 8 ∧
      p.length = responseHeadSize + (headLen p).toNat ∧
      (∃ len, p.take (p.length - 8)
        = (ResponseHead.mk cmd len cnt seq errorCode errorMsg).bytes ++ d) ∧
      EndsWithHash crypto p p.length := by
  intro p
  obtain ⟨-, hdata⟩ := data_writePacket crypto cmd cnt seq errorCode errorMsg hbody hin
  have hempty : jos.data = [] := by
    rw [data, show jos.currIndex = 0 from hjos, List.take_zero]
  set head : ResponseHead := ⟨cmd, lenField jos.length d, cnt, seq, errorCode, errorMsg⟩
  rw [hempty, List.nil_append] at hdata
  have hp : p = _ := hdata
  rw [hp]
  set front := head.bytes ++ d with hfront
  have hlen : front.length = responseHeadSize + d.length := by
    rw [hfront, List.length_append, ResponseHead.length_bytes]
  have hhead : headLen (front ++ foldHash crypto cmd front) = head.len := by
    rw [hfront, List.append_assoc, headLen_bytes]
  have hcmd : headCmd (front ++ foldHash crypto cmd front) = cmd := by
    rw [hfront, List.append_assoc, headCmd_bytes]
  have hfield : head.len.toNat = d.length + 8 := by
    show (UInt16.ofNat _).toNat = _
    rw [hjos, UInt16.toNat_ofNat']
    simp only [responseHeadSize]
    omega
  have hall : (front ++ foldHash crypto cmd front).length = front.length + 8 := by
    rw [List.length_append, length_foldHash]
  refine ⟨?_, ?_, ⟨head.len, ?_⟩, ?_⟩
  · rw [hall, hlen]
  · rw [hhead, hfield, hall, hlen]
    omega
  · rw [hall, Nat.add_sub_cancel, List.take_left]
  · unfold EndsWithHash
    rw [hcmd, hall, Nat.add_sub_cancel, List.take_left, List.drop_left]
    exact (List.take_of_length_le (by rw [length_foldHash])).symm

/-- A packet that is written to an empty stream is the packet of its row. -/
theorem isRowPacket_writePacket (seq : UInt16) (hfit : Fits td) {jos : JOutStream} (hin : jos.Inside)
    (hjos : jos.length = 0) :
    IsRowPacket setup cmd cnt seq td
      (writePacket setup.crypto cmd cnt seq 0 [] (Cmd.billBody setup td) jos).data := by
  have hsmall : (billFields setup td).length ≤ 200 := hfit.length_billFields_le
  obtain ⟨-, hlen, hfields, hhash⟩ := packet_writePacket setup.crypto cmd cnt seq 0 []
    (appends_billBody setup td) hin hjos (by omega)
  exact ⟨hlen, hfields, hhash⟩

/-- `CMD_DAY_BILL` writes the packets of its rows. -/
theorem isBill_writeRowsApart (rows : List TransDetail) (hfit : ∀ td ∈ rows, Fits td) :
    ∀ (seq : UInt16) {jos : JOutStream}, jos.Inside →
      ∃ reply, (Cmd.writeRowsApart setup cmd cnt [] seq rows jos).data = jos.data ++ reply ∧
        IsBill setup cmd cnt seq rows reply := by
  induction rows with
  | nil => exact fun seq jos _ => ⟨[], (List.append_nil _).symm, rfl⟩
  | cons td rest ih =>
      intro seq jos hin
      obtain ⟨hin', hdata⟩ := appends_writeBytes
        (writePacket setup.crypto cmd cnt seq 0 [] (Cmd.billBody setup td) .init).data jos hin
      obtain ⟨tail, htail, hbill⟩ := ih (fun td hmem => hfit td (by simp [hmem])) (seq + 1) hin'
      refine ⟨_ ++ tail, ?_, _, tail, rfl,
        isRowPacket_writePacket setup cmd cnt seq (hfit td (by simp)) inside_init rfl, hbill⟩
      rw [Cmd.writeRowsApart, htail, hdata, List.append_assoc]

/-- The other two commands go on behind what the stream holds. -/
theorem writeRowsInto_extends (errorMsg : Bytes) (rows : List TransDetail) :
    ∀ (seq : UInt16) {jos : JOutStream}, jos.Inside →
      ∃ more, (Cmd.writeRowsInto setup cmd cnt errorMsg seq rows jos).data = jos.data ++ more := by
  induction rows with
  | nil => exact fun seq jos _ => ⟨[], (List.append_nil _).symm⟩
  | cons td rest ih =>
      intro seq jos hin
      obtain ⟨hin', hdata⟩ :=
        data_writePacket setup.crypto cmd cnt seq 0 errorMsg (appends_billBody setup td) hin
      obtain ⟨more, hmore⟩ := ih (seq + 1) hin'
      rw [Cmd.writeRowsInto, hmore, hdata]
      simp only [List.append_assoc]
      exact ⟨_, rfl⟩

/-- What they write for the second row: a packet whose length field counts the bytes of the
first packet too. -/
theorem writeRowsInto_second (seq : UInt16) {td₁ : TransDetail} (h₁ : Fits td₁)
    (td₂ : TransDetail) (rest : List TransDetail)
    {jos : JOutStream} (hin : jos.Inside) (hjos : jos.length = 0) :
    ∃ (first hash more : Bytes) (head : ResponseHead),
      (Cmd.writeRowsInto setup cmd cnt [] seq (td₁ :: td₂ :: rest) jos).data
          = first ++ (head.bytes ++ billFields setup td₂ ++ hash ++ more) ∧
        IsRowPacket setup cmd cnt seq td₁ first ∧
        head.len = lenField first.length (billFields setup td₂) ∧
        hash.length = 8 ∧ (rest = [] → more = []) := by
  obtain ⟨hin₁, -⟩ :=
    data_writePacket setup.crypto cmd cnt seq 0 [] (appends_billBody setup td₁) hin
  have hp := isRowPacket_writePacket setup cmd cnt seq h₁ hin hjos
  set jos₁ := writePacket setup.crypto cmd cnt seq 0 [] (Cmd.billBody setup td₁) jos with hjos₁
  obtain ⟨hin₂, hdata₂⟩ :=
    data_writePacket setup.crypto cmd cnt (seq + 1) 0 [] (appends_billBody setup td₂) hin₁
  have hlen₁ : jos₁.length = jos₁.data.length := (length_data hin₁).symm
  obtain ⟨more, hmore, hnil⟩ : ∃ more, (Cmd.writeRowsInto setup cmd cnt [] (seq + 1 + 1) rest
      (writePacket setup.crypto cmd cnt (seq + 1) 0 [] (Cmd.billBody setup td₂) jos₁)).data
        = (writePacket setup.crypto cmd cnt (seq + 1) 0 [] (Cmd.billBody setup td₂) jos₁).data ++ more ∧
      (rest = [] → more = []) := by
    cases rest with
    | nil => exact ⟨[], (List.append_nil _).symm, fun _ => rfl⟩
    | cons td rest =>
        obtain ⟨more, hmore⟩ := writeRowsInto_extends setup cmd cnt [] (td :: rest)
          (seq + 1 + 1) hin₂
        exact ⟨more, hmore, nofun⟩
  set head : ResponseHead :=
    ⟨cmd, lenField jos₁.length (billFields setup td₂), cnt, seq + 1, 0, []⟩
  refine ⟨jos₁.data, foldHash setup.crypto cmd (jos₁.data ++ (head.bytes ++ billFields setup td₂)),
    more, head, ?_, hp, congrArg (lenField · _) hlen₁, length_foldHash _ _ _, hnil⟩
  rw [Cmd.writeRowsInto, Cmd.writeRowsInto, hmore, hdata₂]
  simp only [List.append_assoc]

/-- A packet that counts bytes in front of it has not its own length. -/
theorem length_ne_of_second {first p : Bytes} (hfirst : first.length ≤ bufferSize)
    (hpos : 0 < first.length) (hsmall : (billFields setup td).length ≤ 200)
    (hlen : headLen p = lenField first.length (billFields setup td))
    (hp : p.length = responseHeadSize + (billFields setup td).length + 8) :
    p.length ≠ responseHeadSize + (headLen p).toNat := by
  rw [hlen, lenField, UInt16.toNat_ofNat']
  simp only [responseHeadSize, bufferSize] at hp hfirst ⊢
  omega

/-- With more than one row they do not write the packets of the rows. -/
theorem not_isBill_writeRowsInto {td₁ td₂ : TransDetail} {rest : List TransDetail} (h₁ : Fits td₁)
    (h₂ : Fits td₂) {jos : JOutStream} (hin : jos.Inside) (hjos : jos.length = 0) :
    ¬ IsBill setup cmd cnt seq (td₁ :: td₂ :: rest)
        (Cmd.writeRowsInto setup cmd cnt [] seq (td₁ :: td₂ :: rest) jos).data := by
  rintro ⟨p₁, tail₁, hreply, hp₁, p₂, tail₂, rfl, hp₂, -⟩
  obtain ⟨first, hash, more, head, hdata, hfirst, hlen, -, -⟩ :=
    writeRowsInto_second setup cmd cnt seq h₁ td₂ rest hin hjos
  obtain ⟨hmin, hmax⟩ := hfirst.length_mem h₁
  rw [hdata] at hreply
  obtain ⟨-, hrest⟩ := List.append_inj hreply (by rw [hfirst.length_eq, hp₁.length_eq])
  have hfront : p₂.take 4 = (p₂ ++ tail₂).take 4 :=
    (List.take_append_of_le_length (le_trans (by decide) (hp₂.length_mem h₂).1)).symm
  refine length_ne_of_second setup hmax (lt_of_lt_of_le (by decide : 0 < responseHeadSize) hmin)
    h₂.length_billFields_le ?_ hp₂.length_eq hp₂.length
  rw [headLen_congr hfront, ← hrest, ← hlen]
  simp only [List.append_assoc]
  exact headLen_bytes _ _

/-- With two rows they do not write any two packets with lengths of their own. -/
theorem not_packets_writeRowsInto (seq : UInt16) {td₁ td₂ : TransDetail} (h₁ : Fits td₁)
    (h₂ : Fits td₂) {jos : JOutStream} (hin : jos.Inside) (hjos : jos.length = 0) :
    ¬ ∃ p₁ p₂ : Bytes,
      (Cmd.writeRowsInto setup cmd cnt [] seq [td₁, td₂] jos).data = p₁ ++ p₂ ∧
        p₁.length = responseHeadSize + (headLen p₁).toNat ∧
        p₂.length = responseHeadSize + (headLen p₂).toNat := by
  rintro ⟨p₁, p₂, hreply, hp₁, hp₂⟩
  obtain ⟨first, hash, more, head, hdata, hfirst, hlen, hhash, hnil⟩ :=
    writeRowsInto_second setup cmd cnt seq h₁ td₂ [] hin hjos
  obtain ⟨hmin, hmax⟩ := hfirst.length_mem h₁
  rw [hdata, hnil rfl, List.append_nil] at hreply
  have hfront : p₁.take 4 = first.take 4 := by
    have := congrArg (List.take 4) hreply
    rw [List.take_append_of_le_length (le_trans (by decide) hmin),
      List.take_append_of_le_length (by rw [hp₁]; exact Nat.le_add_right_of_le (by decide))] at this
    exact this.symm
  have hsame : first.length = p₁.length := by rw [hp₁, headLen_congr hfront, hfirst.length]
  obtain ⟨-, rfl⟩ := List.append_inj hreply hsame
  refine length_ne_of_second setup hmax (lt_of_lt_of_le (by decide : 0 < responseHeadSize) hmin)
    h₂.length_billFields_le ?_ ?_ hp₂
  · rw [List.append_assoc, headLen_bytes, hlen]
  · rw [List.length_append, List.length_append, ResponseHead.length_bytes, hhash]

end

/-! ### The replies -/

theorem write_queryHistoryBill (setup : Setup) (cmd : UInt16) (l : Locals) (jos : JOutStream) :
    (Cmd.queryHistoryBill setup).write cmd 0 [] l jos
      = Cmd.writeRowsInto setup cmd (UInt16.ofNat l.result.length) [] 0 l.result jos := rfl

/-- What a bill command writes is good exactly if it is the day's bill or has one row. -/
theorem goodBill_write {c : Command} (hbill : cmd ∈ billCommands) (hc : action? setup cmd = some c)
    {l : Locals} (hrows : l.result ≠ []) (hfit : ∀ td ∈ l.result, Fits td)
    (hn : l.result.length < 65536) :
    GoodBill setup cmd l.result (c.write cmd 0 [] l .init).data
      ↔ cmd = CMD_DAY_BILL ∨ l.result.length = 1 := by
  have hgood : ∀ reply, GoodBill setup cmd l.result reply
      ↔ IsBill setup cmd (UInt16.ofNat l.result.length) 0 l.result reply := fun reply =>
    ⟨And.left, fun h => ⟨h, h.readsBack hrows hfit hn⟩⟩
  -- the two commands that write into the session's stream
  have hinto : IsBill setup cmd (UInt16.ofNat l.result.length) 0 l.result
      (Cmd.writeRowsInto setup cmd (UInt16.ofNat l.result.length) [] 0 l.result .init).data
        ↔ l.result.length = 1 := by
    generalize UInt16.ofNat l.result.length = cnt
    revert hrows hfit
    cases l.result with
    | nil => exact fun h => absurd rfl h
    | cons td rest =>
        intro _ hfit
        have htd := hfit td (by simp)
        cases rest with
        | nil =>
            refine ⟨fun _ => rfl, fun _ => ⟨_, [], (List.append_nil _).symm, ?_, rfl⟩⟩
            exact isRowPacket_writePacket setup cmd cnt 0 htd inside_init rfl
        | cons td' rest =>
            refine ⟨fun h => ?_, fun h => absurd h (by simp)⟩
            exact absurd h (not_isBill_writeRowsInto setup cmd cnt htd (hfit td' (by simp)) inside_init rfl)
  rw [hgood]
  simp only [billCommands, List.mem_cons, List.not_mem_nil, or_false] at hbill
  obtain rfl | rfl | rfl := hbill
  · obtain rfl : Cmd.queryDayBill setup = c := Option.some.inj hc
    obtain ⟨reply, hreply, hbill⟩ := isBill_writeRowsApart setup CMD_DAY_BILL
      (UInt16.ofNat l.result.length) l.result hfit 0 inside_init
    refine ⟨fun _ => Or.inl rfl, fun _ => ?_⟩
    rw [show JOutStream.init.data = [] from rfl, List.nil_append] at hreply
    show IsBill setup CMD_DAY_BILL _ 0 l.result (Cmd.writeRowsApart setup CMD_DAY_BILL
      (UInt16.ofNat l.result.length) [] 0 l.result .init).data
    rw [hreply]
    exact hbill
  · obtain rfl : Cmd.queryHistoryBill setup = c := Option.some.inj hc
    rw [or_iff_right (by decide)]
    exact hinto
  · obtain rfl : Cmd.queryAccountHistoryBill setup = c := Option.some.inj hc
    rw [or_iff_right (by decide)]
    exact hinto

/-- Code zero is no error to any command. -/
theorem errorOf_zero {c : Command} (hc : action? setup cmd = some c) :
    errorOf c.errors 0 = (0, []) := by
  have hall : ∀ a ∈ actions setup, errorOf a.2.errors 0 = (0, []) := by
    simp only [actions, List.forall_mem_cons]
    refine ⟨?_, ?_, ?_, ?_, ?_, ?_, ?_, ?_, ?_, ?_, ?_, by simp⟩ <;> rfl
  exact hall _ (mem_actions setup hc)

/-- What is answered when an operation has returned zero. -/
theorem outcome_executeFrame_zero {f : Bytes} {c : Command}
    (hc : action? setup (headCmd f) = some c) {args : c.Args} {rest : JInStream}
    (hread : c.read (f.drop requestHeadSize) = some (args, rest)) {σ : Type}
    {h : Prog.Handler Call Reply σ} {w w' : σ} {l : Locals}
    (hrun : ((c.service args).start (c.locals args)).run h w = ((.ok 0, l), w')) :
    outcome h w (executeFrame setup f) = (.ok (c.write (headCmd f) 0 [] l .init).data, w') := by
  rw [outcome_executeFrame hc hread, hrun]
  show (Except.ok (c.write (headCmd f) (errorOf c.errors 0).1 (errorOf c.errors 0).2 l .init).data, w')
    = _
  rw [errorOf_zero hc]

/-- **Which bills are good.**  When the rows of a bill have come from the database, the
reply is their packets, and the client reads the rows back, exactly if the request was
for the bill of a day or there is only one row. -/
theorem goodBill_iff {f : Bytes} {c : Command} (hbill : headCmd f ∈ billCommands)
    (hc : action? setup (headCmd f) = some c) {args : c.Args} {rest : JInStream}
    (hread : c.read (f.drop requestHeadSize) = some (args, rest)) {σ : Type}
    {h : Prog.Handler Call Reply σ} {w w' : σ} {l : Locals}
    (hrun : ((c.service args).start (c.locals args)).run h w = ((.ok 0, l), w'))
    (hrows : l.result ≠ []) (hfit : ∀ td ∈ l.result, Fits td) (hn : l.result.length < 65536) :
    ∃ reply, outcome h w (executeFrame setup f) = (.ok reply, w') ∧
      (GoodBill setup (headCmd f) l.result reply
        ↔ headCmd f = CMD_DAY_BILL ∨ l.result.length = 1) := by
  exact ⟨_, outcome_executeFrame_zero hc hread hrun, goodBill_write hbill hc hrows hfit hn⟩

/-- A row of a bill: one yuan, paid in at the counter. -/
def paidIn : Row :=
  [(.accountId, .text [49]), (.otherAccountId, .text []), (.name, .text [68]),
    (.money, .number ((100 : Int) / 100)), (.balance, .number ((100 : Int) / 100)),
    (.transDate, .text [50, 48, 49, 52, 45, 48, 51, 45, 48, 50, 32, 48, 57, 58, 48, 48, 58, 48, 48])]

/-- A database whose bills have that row twice. -/
def twoRows : Prog.Handler Call Reply Unit
  | .init, _ => (.ok (), ())
  | .optionReconnect, _ => ((), ())
  | .optionCharset, _ => ((), ())
  | .connect, _ => (.ok (), ())
  | .query (.countTrans _), _ => (.ok [[(.total, .text [50])]], ())
  | .query _, _ => (.ok [paidIn, paidIn], ())
  | .insertId, _ => ((0 : Int), ())
  | .close, _ => ((), ())

/-- The row as the server holds it. -/
def paidInDetail : TransDetail where
  accountId := [49]
  otherAccountId := []
  abstractName := [68]
  money := (100 : Int) / 100
  balance := (100 : Int) / 100
  transDate := [50, 48, 49, 52, 45, 48, 51, 45, 48, 50, 32, 48, 57, 58, 48, 48, 58, 48, 48]
  total := 2

theorem fits_paidInDetail : Fits paidInDetail where
  transDate := ⟨by decide, by decide⟩
  accountId := ⟨by decide, by decide⟩
  otherAccountId := ⟨by decide, by decide⟩
  money := ⟨100, by decide, rfl⟩
  balance := ⟨100, by decide, rfl⟩
  abstractName := by decide

/-- The locals of a bill query when it has read the two rows. -/
def twoRowsLocals : Locals :=
  { Cmd.localsOf .zero (Cmd.newAccount .zero) with result := [paidInDetail, paidInDetail] }

/-- A day's bill of two rows is good. -/
theorem goodBill_iff_dayBill :
    ∃ reply, outcome twoRows () (executeFrame .zero dayBillFrame) = (.ok reply, ()) ∧
      (GoodBill .zero (headCmd dayBillFrame) twoRowsLocals.result reply
        ↔ headCmd dayBillFrame = CMD_DAY_BILL ∨ twoRowsLocals.result.length = 1) :=
  goodBill_iff (c := Cmd.queryDayBill .zero) (by decide) rfl rfl
    (h := twoRows) (w := ()) (l := twoRowsLocals) rfl (by decide)
    (by simp [twoRowsLocals, fits_paidInDetail]) (by decide)

/-- A request for the first page of the bill of some days. -/
def historyBillFrame : Bytes :=
  [0, 9, 0, 32, 0, 0, 0, 0, 50, 48, 49, 52, 45, 48, 51, 45, 48, 49, 50, 48, 49, 52, 45, 48, 51, 45,
    48, 50, 9, 4, 9, 4, 9, 4, 9, 4]

/-- The reply to it, when the database has two rows, is no two packets with lengths of
their own. -/
theorem historyBill_not_packets :
    ∃ reply, outcome twoRows () (executeFrame .zero historyBillFrame) = (.ok reply, ()) ∧
      ¬ ∃ p₁ p₂ : Bytes, reply = p₁ ++ p₂ ∧
        p₁.length = responseHeadSize + (headLen p₁).toNat ∧
        p₂.length = responseHeadSize + (headLen p₂).toNat := by
  refine ⟨_, outcome_executeFrame_zero (c := Cmd.queryHistoryBill .zero) rfl rfl
    (h := twoRows) (w := ()) (l := twoRowsLocals) rfl, ?_⟩
  rw [write_queryHistoryBill]
  exact not_packets_writeRowsInto .zero _ _ _ fits_paidInDetail fits_paidInDetail inside_init rfl

end Bank
