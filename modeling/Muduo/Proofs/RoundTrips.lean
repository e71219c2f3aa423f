/-
What one program writes is what the other reads.

The bytes of a packet are given outright on the writing side, as the fields one behind the
other, and each field comes with what the reading side makes of it; a round trip is then
the fields of the packet in their order.

A request goes from the client's commands to `Parse` and the commands of the server, a reply
from the stream of the session to `Recv` and the commands of the client.
-/
import Muduo.Windows.Requests
import Muduo.Windows.Client
import Muduo.Proofs.Messages
import Muduo.Proofs.Bills

namespace Windows

open Lib Bank JInStream JOutStream

variable {client : Client} {sys : System}

/-! ### Requests, as bytes -/

/-- The field of a password. -/
def passField (client : Client) (cmd : UInt16) (k : Nat) (pass : Bytes) : Bytes :=
  client.idea.encrypt (ideaKey client.idea.crypto cmd) (cBytes (client.mem k) pass 16)

/-- The bytes of the fields of a request. -/
def Request.fields (client : Client) : Request → Bytes
  | .userLogin name pass => stringField name ++ passField client CMD_LOGIN 1 pass
  | .openAccount name pass id money =>
      stringField name ++ passField client CMD_OPEN_ACCOUNT 1 pass ++ id ++ stringField money
  | .deposit accountId money => cBytes (client.mem 0) accountId 6 ++ stringField money
  | .withdrawal accountId pass money =>
      cBytes (client.mem 0) accountId 6 ++ passField client CMD_WITHDRAW 1 pass ++ stringField money
  | .transfer accountId pass money otherAccountId =>
      cBytes (client.mem 0) accountId 6 ++ passField client CMD_TRANSFER 1 pass ++ stringField money
        ++ cBytes (client.mem 3) otherAccountId 6
  | .balanceInquiry accountId pass =>
      cBytes (client.mem 0) accountId 6 ++ passField client CMD_BALANCE_INQUIRY 1 pass
  | .changePassword accountId pass newpass =>
      cBytes (client.mem 0) accountId 6 ++ passField client CMD_CHANGE_PASSWORD 1 pass
        ++ passField client CMD_CHANGE_PASSWORD 2 newpass
  | .queryDayBill page date =>
      beU32 (readUInt32 page client.page) ++ cBytes (client.mem 1) date 10
  | .queryHistoryBill page beginDate endDate =>
      beU32 (readUInt32 page client.page) ++ cBytes (client.mem 1) beginDate 10
        ++ cBytes (client.mem 2) endDate 10
  | .queryAccountHistoryBill page accountId beginDate endDate =>
      beU32 (readUInt32 page client.page) ++ cBytes (client.mem 1) accountId 6
        ++ cBytes (client.mem 2) beginDate 10 ++ cBytes (client.mem 3) endDate 10
  | .closeAccount accountId pass =>
      cBytes (client.mem 0) accountId 6 ++ passField client CMD_CLOSE_ACCOUNT 1 pass

theorem Request.appends_writeFields (client : Client) (q : Request) :
    Appends (q.writeFields client) (q.fields client) := by
  have hchars : ∀ k n s, Appends (BankClient.writeChars client k n s) (cBytes (client.mem k) s n) :=
    fun _ _ _ => appends_writeBytes _
  have hpass : ∀ cmd k pass,
      Appends (BankClient.writePass client cmd k pass) (passField client cmd k pass) :=
    fun _ _ _ => appends_writeBytes _
  have hpage : ∀ page, Appends (BankClient.writePage client page) (beU32 (readUInt32 page client.page)) :=
    fun _ => appends_putU32 _
  cases q with
  | userLogin name pass => exact (appends_putString _).comp (hpass _ _ _)
  | openAccount name pass id money =>
      exact (((appends_putString _).comp (hpass _ _ _)).comp (appends_writeBytes _)).comp
        (appends_putString _)
  | deposit accountId money => exact (hchars _ _ _).comp (appends_putString _)
  | withdrawal accountId pass money =>
      exact ((hchars _ _ _).comp (hpass _ _ _)).comp (appends_putString _)
  | transfer accountId pass money otherAccountId =>
      exact (((hchars _ _ _).comp (hpass _ _ _)).comp (appends_putString _)).comp (hchars _ _ _)
  | balanceInquiry accountId pass => exact (hchars _ _ _).comp (hpass _ _ _)
  | changePassword accountId pass newpass =>
      exact ((hchars _ _ _).comp (hpass _ _ _)).comp (hpass _ _ _)
  | queryDayBill page date => exact (hpage _).comp (hchars _ _ _)
  | queryHistoryBill page beginDate endDate =>
      exact ((hpage _).comp (hchars _ _ _)).comp (hchars _ _ _)
  | queryAccountHistoryBill page accountId beginDate endDate =>
      exact (((hpage _).comp (hchars _ _ _)).comp (hchars _ _ _)).comp (hchars _ _ _)
  | closeAccount accountId pass => exact (hchars _ _ _).comp (hpass _ _ _)

/-- A request is a head with the length of what follows it, the fields, and a hash. -/
theorem Request.packet_eq (client : Client) (q : Request) :
    let front := beU16 q.cmd ++ beU16 (UInt16.ofNat ((q.fields client).length + 8)) ++ q.fields client
    q.packet client = front ++ foldHash client.idea.crypto q.cmd front := by
  intro front
  obtain ⟨hin, hdata⟩ := appends_putU16 q.cmd .init inside_init
  have hnil : JOutStream.init.data = [] := List.take_zero
  rw [hnil, List.nil_append] at hdata
  obtain ⟨htail, hpatch⟩ := data_backpatch hin (q.appends_writeFields client) 2
  unfold Request.packet BankClient.writeRequest
  simp only
  set out := q.writeFields client ((JOutStream.init.putU16 q.cmd).skip 2)
  have hstart : (JOutStream.init.putU16 q.cmd).length = 2 := by
    rw [length_eq_currIndex, ← length_data hin, hdata, length_beU16]
  have hfield : UInt16.ofNat (out.length + 8 - requestHeadSize)
      = UInt16.ofNat ((q.fields client).length + 8) := by
    rw [htail, hstart, requestHeadSize]
    exact congrArg UInt16.ofNat (by omega)
  rw [hfield]
  set patched := ((out.reposition (JOutStream.init.putU16 q.cmd).length).putU16
    (UInt16.ofNat ((q.fields client).length + 8))).reposition out.length
  obtain ⟨hpin, hpdata⟩ : patched.Inside ∧ patched.data = front := by
    obtain ⟨h₁, h₂⟩ := hpatch (beU16 (UInt16.ofNat ((q.fields client).length + 8))) rfl
    exact ⟨h₁, h₂.trans (by rw [hdata])⟩
  rw [hpdata, (appends_writeBytes _ patched hpin).2, hpdata]

/-! ### Fields, read -/

theorem read_chars {n : Nat} {s : Bytes} (h : Request.IsChars n s) (mem : Nat → UInt8)
    (rest : Bytes) : Cmd.chars n (cBytes mem s n ++ rest) = some (s, rest) := by
  unfold Cmd.chars
  rw [bind_of_some (readBytes_append rest (length_cBytes _ _ _)), cString_cBytes h.2 h.1.le]
  rfl

/-- A password is recovered from its sixteen bytes, whatever lay behind its end. -/
theorem read_password {pass : Bytes} (h : Request.IsPass pass) (cmd : UInt16) (k : Nat)
    (rest : Bytes) :
    Cmd.password ⟨client.idea.crypto, sys⟩ cmd (passField client cmd k pass ++ rest)
      = some (pass, rest) := by
  have hlen : (cBytes (client.mem k) pass 16).length = 16 := length_cBytes _ _ _
  unfold Cmd.password passField
  rw [bind_of_some (readBytes_append rest (client.idea.length_encrypt _ hlen))]
  show some (cString ((client.idea.decrypt _ _).toList ++ sys.junk.stack ++ [0]), rest) = _
  rw [client.idea.decrypt_encrypt _ hlen]
  -- the end of the password is among the sixteen bytes
  obtain ⟨m, hm⟩ : ∃ m, 16 = pass.length + (m + 1) := ⟨15 - pass.length, by have := h.1; omega⟩
  have hbytes : cBytes (client.mem k) pass 16
      = pass ++ 0 :: ((List.range 16).map (client.mem k)).take m := by
    rw [cBytes]
    conv => lhs; rw [hm]
    rw [List.take_length_add_append, List.take_succ_cons, ← hm]
  rw [hbytes, List.append_assoc, List.append_assoc, List.cons_append, cString_append_nul h.2]

theorem read_page {page : Bytes} (h : Request.IsPage page) (old : UInt32) (rest : Bytes) :
    getU32 (beU32 (readUInt32 page old) ++ rest)
      = some (UInt32.ofNat (digitsValue page), rest) := by
  rw [getU32_append, readUInt32_digits h.1 h.2.1 h.2.2]

theorem Request.IsMoney.lt {s : Bytes} (h : Request.IsMoney s) : s.length < 65536 :=
  Nat.lt_of_le_of_lt h (by norm_num)

/-- The server's command reads the attributes. -/
theorem Request.read_fields {q : Request} (hq : q.Admitted) (hname : q.name.length ≤ bufferSize)
    (rest : Bytes) :
    (q.command ⟨client.idea.crypto, sys⟩).read (q.fields client ++ rest)
      = some (q.args ⟨client.idea.crypto, sys⟩, rest) := by
  have hname : q.name.length < 65536 := Nat.lt_of_le_of_lt hname (by decide)
  cases q with
  | userLogin name pass =>
      simp only [Request.fields, List.append_assoc]
      show (getString >>= _) _ = some ((name, pass), rest)
      rw [bind_of_some (getString_append (s := name) hname _), bind_of_some (read_password hq _ _ _)]
      rfl
  | openAccount name pass id money =>
      obtain ⟨hpass, hid, hmoney⟩ := hq
      have hchars := read_chars hid (fun _ => 0) (stringField money ++ rest)
      rw [cBytes_of_length hid.1] at hchars
      simp only [Request.fields, List.append_assoc]
      show (getString >>= _) _ = some ((name, pass, id, money), rest)
      rw [bind_of_some (getString_append (s := name) hname _), bind_of_some (read_password hpass _ _ _),
        bind_of_some hchars, bind_of_some (getString_append hmoney.lt _)]
      rfl
  | deposit accountId money =>
      obtain ⟨hid, hmoney⟩ := hq
      simp only [Request.fields, List.append_assoc]
      show (Cmd.chars 6 >>= _) _ = some ((accountId, money), rest)
      rw [bind_of_some (read_chars hid _ _), bind_of_some (getString_append hmoney.lt _)]
      rfl
  | withdrawal accountId pass money =>
      obtain ⟨hid, hpass, hmoney⟩ := hq
      simp only [Request.fields, List.append_assoc]
      show (Cmd.chars 6 >>= _) _ = some ((accountId, pass, money), rest)
      rw [bind_of_some (read_chars hid _ _), bind_of_some (read_password hpass _ _ _),
        bind_of_some (getString_append hmoney.lt _)]
      rfl
  | transfer accountId pass money otherAccountId =>
      obtain ⟨hid, hpass, hmoney, hother⟩ := hq
      simp only [Request.fields, List.append_assoc]
      show (Cmd.chars 6 >>= _) _ = some ((accountId, pass, money, otherAccountId), rest)
      rw [bind_of_some (read_chars hid _ _), bind_of_some (read_password hpass _ _ _),
        bind_of_some (getString_append hmoney.lt _), bind_of_some (read_chars hother _ _)]
      rfl
  | balanceInquiry accountId pass =>
      obtain ⟨hid, hpass⟩ := hq
      simp only [Request.fields, List.append_assoc]
      show (Cmd.chars 6 >>= _) _ = some ((accountId, pass), rest)
      rw [bind_of_some (read_chars hid _ _), bind_of_some (read_password hpass _ _ _)]
      rfl
  | changePassword accountId pass newpass =>
      obtain ⟨hid, hpass, hnew⟩ := hq
      simp only [Request.fields, List.append_assoc]
      show (Cmd.chars 6 >>= _) _ = some ((accountId, pass, newpass), rest)
      rw [bind_of_some (read_chars hid _ _), bind_of_some (read_password hpass _ _ _),
        bind_of_some (read_password hnew _ _ _)]
      rfl
  | queryDayBill page date =>
      obtain ⟨hpage, hdate⟩ := hq
      simp only [Request.fields, List.append_assoc]
      show (getU32 >>= _) _ = some ((UInt32.ofNat (digitsValue page), date), rest)
      rw [bind_of_some (read_page hpage _ _), bind_of_some (read_chars hdate _ _)]
      rfl
  | queryHistoryBill page beginDate endDate =>
      obtain ⟨hpage, hbegin, hend⟩ := hq
      simp only [Request.fields, List.append_assoc]
      show (getU32 >>= _) _ = some ((UInt32.ofNat (digitsValue page), beginDate, endDate), rest)
      rw [bind_of_some (read_page hpage _ _), bind_of_some (read_chars hbegin _ _),
        bind_of_some (read_chars hend _ _)]
      rfl
  | queryAccountHistoryBill page accountId beginDate endDate =>
      obtain ⟨hpage, hid, hbegin, hend⟩ := hq
      simp only [Request.fields, List.append_assoc]
      show (getU32 >>= _) _ = some ((UInt32.ofNat (digitsValue page), accountId, beginDate, endDate), rest)
      rw [bind_of_some (read_page hpage _ _), bind_of_some (read_chars hid _ _),
        bind_of_some (read_chars hbegin _ _), bind_of_some (read_chars hend _ _)]
      rfl
  | closeAccount accountId pass =>
      obtain ⟨hid, hpass⟩ := hq
      simp only [Request.fields, List.append_assoc]
      show (Cmd.chars 6 >>= _) _ = some ((accountId, pass), rest)
      rw [bind_of_some (read_chars hid _ _), bind_of_some (read_password hpass _ _ _)]
      rfl

theorem Request.length_packet (client : Client) (q : Request) :
    (q.packet client).length = requestHeadSize + (q.fields client).length + 8 := by
  rw [q.packet_eq client]
  simp only [List.length_append, length_beU16, length_foldHash, requestHeadSize]

/-! ### Requests, received -/

/-- A request that fits is a frame the server accepts and decodes. -/
theorem Request.validFrame {q : Request} (hq : q.Admitted) (hfits : q.Fits client) :
    ValidFrame ⟨client.idea.crypto, sys⟩ (q.packet client) ∧ headCmd (q.packet client) = q.cmd ∧
      ∃ hash, (q.packet client).drop requestHeadSize = q.fields client ++ hash := by
  have heq := q.packet_eq client
  set front := beU16 q.cmd ++ beU16 (UInt16.ofNat ((q.fields client).length + 8)) ++ q.fields client
    with hfront
  simp only at heq
  have hflen : front.length = 4 + (q.fields client).length := by
    simp only [hfront, List.length_append, length_beU16]
  have hplen : (q.packet client).length = 4 + (q.fields client).length + 8 := q.length_packet client
  have hmost : (q.packet client).length ≤ 2048 := hfits.2
  have hcmd : headCmd (q.packet client) = q.cmd := by
    rw [heq]
    exact toU16_beU16 q.cmd
  have hhead : headLen (q.packet client) = UInt16.ofNat ((q.fields client).length + 8) := by
    rw [heq]
    exact toU16_beU16 _
  have hlen : (headLen (q.packet client)).toNat = (q.fields client).length + 8 := by
    rw [hhead, UInt16.toNat_ofNat']
    omega
  have hbody : (q.packet client).drop requestHeadSize
      = q.fields client ++ foldHash client.idea.crypto q.cmd front := by
    rw [heq, hfront, List.append_assoc _ (q.fields client)]
    exact List.drop_left' rfl
  refine ⟨⟨isFrame_iff.mpr ?_, ?_, ?_, ?_, ?_⟩, hcmd, _, hbody⟩
  · rw [hlen, requestHeadSize]
    omega
  · omega
  · rw [hlen, requestHeadSize, bufferSize]
    omega
  · unfold EndsWithHash
    rw [hcmd, hplen, show 4 + (q.fields client).length + 8 - 8 = front.length by omega, heq,
      List.take_left, List.drop_left, List.take_of_length_le (length_foldHash _ _ _).le]
  · refine ⟨q.command ⟨client.idea.crypto, sys⟩, ?_, ?_⟩
    · rw [hcmd]
      cases q <;> rfl
    · rw [hbody, Request.read_fields hq hfits.1]
      rfl

/-- **A request arrives as it was meant.**  The length and the hash of what the client's
command sends are accepted by `Parse`, and the server's command, which is found under the
same number, reads the attributes the form has set. -/
theorem request_arrives (client : Client) (sys : System) (session : BankSession) {q : Request}
    (hq : q.Admitted) (hfits : q.Fits client) :
    let setup : Setup := ⟨client.idea.crypto, sys⟩
    ∃ session' len hash, session.setData (q.packet client) = .ok session' ∧
      session'.parse setup.crypto = .ok (q.cmd, len) ∧
      action? setup q.cmd = some (q.command setup) ∧
      (q.command setup).read ((session'.buffer.drop requestHeadSize).take len.toNat)
        = some (q.args setup, hash) := by
  intro setup
  obtain ⟨hvalid, hcmd, hash, hbody⟩ : ValidFrame setup (q.packet client) ∧ _ :=
    Request.validFrame hq hfits
  obtain ⟨session', hset, htake, -⟩ := setData_of_le session hfits.2
  have hlen := (isFrame_iff.mp hvalid.isFrame).2
  rw [hlen] at htake
  have hcopy : session'.buffer.take (requestHeadSize + (headLen (q.packet client)).toNat)
      = (q.packet client).take (requestHeadSize + (headLen (q.packet client)).toNat) := by
    rw [htake, List.take_of_length_le hlen.le]
  have hhead : 4 ≤ requestHeadSize := Nat.le_refl 4
  have h4 := take_four_of_take (show 4 ≤ requestHeadSize + (headLen (q.packet client)).toNat by omega)
    hcopy
  have hhash : EndsWithHash setup.crypto session'.buffer
      (requestHeadSize + (headLen (q.packet client)).toNat) := by
    rw [endsWithHash_congr (by omega) (by have := hvalid.least; omega) hcopy, ← hlen]
    exact hvalid.hash
  refine ⟨session', headLen (q.packet client), hash, hset, ?_, ?_, ?_⟩
  · unfold BankSession.parse
    simp only [headLen_congr h4]
    rw [checkHash_of_le session'.length_buffer (by have := hvalid.least; omega) hvalid.most,
      if_pos hhash, headCmd_congr h4, hcmd]
    rfl
  · cases q <;> rfl
  · have htail : (session'.buffer.drop requestHeadSize).take (headLen (q.packet client)).toNat
        = (q.packet client).drop requestHeadSize := by
      have := congrArg (List.drop requestHeadSize) htake
      rwa [List.drop_take, Nat.add_sub_cancel_left] at this
    rw [htail, hbody, Request.read_fields hq hfits.1]

/-- A client whose memory holds zeros, with a digest of zeros and a cipher that changes nothing. -/
def Client.zero : Client := ⟨⟨fun _ => Vector.replicate 16 0, fun _ block => block⟩, fun _ _ => 0, 0⟩

/-- One yuan is taken from account 1. -/
def withdrawalRequest : Request :=
  .withdrawal [48, 48, 48, 48, 48, 49] [115, 101, 99, 114, 101, 116] [49, 46, 48, 48]

theorem request_arrives_withdrawal :
    let setup : Setup := ⟨Client.zero.idea.crypto, Setup.zero.sys⟩
    ∃ session' len hash, BankSession.init.setData (withdrawalRequest.packet .zero) = .ok session' ∧
      session'.parse setup.crypto = .ok (withdrawalRequest.cmd, len) ∧
      action? setup withdrawalRequest.cmd = some (withdrawalRequest.command setup) ∧
      (withdrawalRequest.command setup).read ((session'.buffer.drop requestHeadSize).take len.toNat)
        = some (withdrawalRequest.args setup, hash) := by
  have hadmitted : withdrawalRequest.Admitted :=
    ⟨⟨rfl, by decide⟩, ⟨by decide, by decide⟩, by unfold Request.IsMoney; decide⟩
  have hlength : (withdrawalRequest.fields .zero).length = 28 := by
    simp [withdrawalRequest, Request.fields, passField, Idea.length_encrypt, stringField]
  have hfits : withdrawalRequest.Fits .zero := by
    refine ⟨by decide, ?_⟩
    rw [Request.length_packet, hlength]
    decide
  exact request_arrives .zero Setup.zero.sys .init hadmitted hfits

/-! ### Replies, as bytes -/

namespace SingleCommand

/-- The bytes of the fields, which an opened account's reply has even with an error. -/
def fields (setup : Setup) (errorCode : Int16) (l : Locals) : SingleCommand → Bytes
  | userLogin | changePassword => []
  | openAccount => charsField setup 6 (paddedText 6 l.account.accountId) ++ stringField l.account.opDate
  | deposit | withdrawal | transfer | balanceInquiry =>
      if errorCode = 0 then
        stringField l.account.name ++ stringField (Convert.doubleToString l.account.balance)
          ++ charsField setup 19 l.account.opDate
      else []
  | closeAccount =>
      if errorCode = 0 then
        stringField l.account.name ++ stringField (Convert.doubleToString l.account.balance)
          ++ stringField (Convert.doubleToString l.interest) ++ charsField setup 19 l.account.opDate
      else []

private theorem writeReply_eq (setup : Setup) {body : Locals → JOutStream → JOutStream}
    {d : Locals → Bytes} (hbody : ∀ l, Appends (body l) (d l)) (cmd : UInt16) (errorCode : Int16)
    (errorMsg : Bytes) (l : Locals) :
    ∃ body', Appends body' (if errorCode = 0 then d l else []) ∧
      Cmd.writeReply setup body cmd errorCode errorMsg l
        = writePacket setup.crypto cmd 0 0 errorCode errorMsg body' := by
  refine ⟨_, ?_, rfl⟩
  split
  · exact hbody l
  · exact Appends.nil

/-- Each of the eight commands writes one packet with these fields. -/
theorem write_eq (setup : Setup) (c : SingleCommand) (errorCode : Int16) (errorMsg : Bytes)
    (l : Locals) :
    ∃ body, Appends body (c.fields setup errorCode l) ∧
      (c.command setup).write c.cmd errorCode errorMsg l
        = writePacket setup.crypto c.cmd 0 0 errorCode errorMsg body := by
  have hbalance := writeReply_eq setup (appends_balanceBody setup) c.cmd errorCode errorMsg l
  have hnil : ∀ l : Locals, Appends ((fun _ => id : Locals → JOutStream → JOutStream) l) [] :=
    fun _ => Appends.nil
  have hnothing := writeReply_eq setup hnil c.cmd errorCode errorMsg l
  rw [ite_self] at hnothing
  cases c with
  | userLogin => exact hnothing
  | openAccount => exact ⟨_, appends_openBody setup l, rfl⟩
  | deposit => exact hbalance
  | withdrawal => exact hbalance
  | transfer => exact hbalance
  | balanceInquiry => exact hbalance
  | changePassword => exact hnothing
  | closeAccount => exact writeReply_eq setup (appends_closeBody setup) _ errorCode errorMsg l

theorem length_write (setup : Setup) (c : SingleCommand) (errorCode : Int16) (errorMsg : Bytes)
    (l : Locals) {jos : JOutStream} (hin : jos.Inside) (hjos : jos.length = 0) :
    ((c.command setup).write c.cmd errorCode errorMsg l jos).data.length
      = responseHeadSize + (c.fields setup errorCode l).length + 8 := by
  obtain ⟨body, hbody, hwrite⟩ := c.write_eq setup errorCode errorMsg l
  have hnil : jos.data = [] := by
    rw [data, show jos.currIndex = 0 from hjos, List.take_zero]
  rw [hwrite, (data_writePacket setup.crypto c.cmd 0 0 errorCode errorMsg hbody hin).2]
  simp only [hnil, List.nil_append, List.length_append, ResponseHead.length_bytes, length_foldHash]

/-! ### Replies, read -/

/-- The texts of the values that are shown for a success. -/
def shown (l : Locals) : SingleCommand → BankClient.Responses
  | userLogin | changePassword => []
  | openAccount => [("account_id", paddedText 6 l.account.accountId), ("open_date", l.account.opDate)]
  | deposit | withdrawal | transfer | balanceInquiry =>
      [("name", l.account.name), ("balance", Convert.doubleToString l.account.balance),
        ("trans_date", l.account.opDate)]
  | closeAccount =>
      [("name", l.account.name), ("balance", Convert.doubleToString l.account.balance),
        ("interest", Convert.doubleToString l.interest), ("close_date", l.account.opDate)]

/-- The values are ones the bank has: a name that has room in the client's array, numbers that
are finite, an account number of six digits, a date of nineteen characters. -/
def Presentable (l : Locals) : SingleCommand → Prop
  | userLogin | changePassword => True
  | openAccount =>
      0 ≤ l.account.accountId ∧ l.account.accountId < 10 ^ 6 ∧ l.account.opDate.length = 19
  | deposit | withdrawal | transfer | balanceInquiry =>
      l.account.name.length ≤ bufferSize ∧ |l.account.balance| ≤ doubleMax ∧
        Request.IsChars 19 l.account.opDate
  | closeAccount =>
      l.account.name.length ≤ bufferSize ∧ |l.account.balance| ≤ doubleMax ∧
        |l.interest| ≤ doubleMax ∧ Request.IsChars 19 l.account.opDate

end SingleCommand

/-- A number of at most six digits fills its field. -/
theorem isChars_paddedText {i : Int} (h0 : 0 ≤ i) (h6 : i < 10 ^ 6) :
    Request.IsChars 6 (paddedText 6 i) := by
  have htext : intText i = natText i.natAbs := by
    rw [intText, if_neg (by omega), List.nil_append]
  have hlen : (natText i.natAbs).length ≤ 6 := length_natText_le (by norm_num) (by omega)
  refine ⟨?_, ?_⟩
  · rw [paddedText, htext, List.length_append, List.length_replicate]
    omega
  · rw [paddedText, htext, List.mem_append]
    rintro (hzero | hzero)
    · exact absurd (List.eq_of_mem_replicate hzero) (by decide)
    · exact absurd (isDigit_of_mem_natText hzero) (by decide)

theorem readBalance_bytes {l : Locals} (setup : Setup)
    (h : SingleCommand.deposit.Presentable l) (rest : Bytes) :
    BankClient.readBalance (SingleCommand.deposit.fields setup 0 l ++ rest)
      = some (SingleCommand.deposit.shown l, rest) := by
  obtain ⟨hname, hbalance, hlen, hdate⟩ := h
  have hname : l.account.name.length < 65536 := Nat.lt_of_le_of_lt hname (by decide)
  unfold BankClient.readBalance
  simp only [SingleCommand.fields, charsField, ↓reduceIte, List.append_assoc]
  rw [bind_of_some (getString_append hname _),
    bind_of_some (getString_append (length_doubleToString_lt hbalance) _),
    bind_of_some (readBytes_append _ (length_cBytes _ _ _))]
  show some ([_, _, ("trans_date", cString (cBytes _ l.account.opDate 19))], rest) = _
  rw [cString_cBytes hdate hlen.le]
  rfl

theorem readClosed_bytes {l : Locals} (setup : Setup)
    (h : SingleCommand.closeAccount.Presentable l) (rest : Bytes) :
    BankClient.readClosed (SingleCommand.closeAccount.fields setup 0 l ++ rest)
      = some (SingleCommand.closeAccount.shown l, rest) := by
  obtain ⟨hname, hbalance, hinterest, hlen, hdate⟩ := h
  have hname : l.account.name.length < 65536 := Nat.lt_of_le_of_lt hname (by decide)
  unfold BankClient.readClosed
  simp only [SingleCommand.fields, charsField, ↓reduceIte, List.append_assoc]
  rw [bind_of_some (getString_append hname _),
    bind_of_some (getString_append (length_doubleToString_lt hbalance) _),
    bind_of_some (getString_append (length_doubleToString_lt hinterest) _),
    bind_of_some (readBytes_append _ (length_cBytes _ _ _))]
  show some ([_, _, _, ("close_date", cString (cBytes _ l.account.opDate 19))], rest) = _
  rw [cString_cBytes hdate hlen.le]
  rfl

theorem readOpened_bytes {l : Locals} (setup : Setup)
    (h : SingleCommand.openAccount.Presentable l) (rest : Bytes) :
    BankClient.readOpened (SingleCommand.openAccount.fields setup 0 l ++ rest)
      = some (SingleCommand.openAccount.shown l, rest) := by
  obtain ⟨h0, h6, hdate⟩ := h
  obtain ⟨hlen, hid⟩ := isChars_paddedText h0 h6
  have hdate : l.account.opDate.length < 65536 := by omega
  unfold SingleCommand.fields BankClient.readOpened charsField
  rw [List.append_assoc, bind_of_some (readBytes_append _ (length_cBytes _ _ _)),
    bind_of_some (getString_append hdate _), cString_cBytes hid hlen.le]
  rfl

/-- The client's command reads the values of its reply. -/
theorem SingleCommand.readFields_fields (setup : Setup) (c : SingleCommand) {l : Locals}
    (h : c.Presentable l) (rest : Bytes) :
    c.readFields (c.fields setup 0 l ++ rest) = some (c.shown l, rest) := by
  cases c with
  | userLogin => rfl
  | openAccount => exact readOpened_bytes setup h rest
  | deposit => exact readBalance_bytes setup h rest
  | withdrawal => exact readBalance_bytes setup h rest
  | transfer => exact readBalance_bytes setup h rest
  | balanceInquiry => exact readBalance_bytes setup h rest
  | changePassword => rfl
  | closeAccount => exact readClosed_bytes setup h rest

/-- A message that is shorter than its field is read as it is. -/
theorem cString_errorMsgField {msg : Bytes} (h0 : (0 : UInt8) ∉ msg) (hlen : msg.length < 30)
    (behind : Bytes) : cString (errorMsgField msg ++ behind) = msg := by
  obtain ⟨m, hm⟩ : ∃ m, 30 = msg.length + (m + 1) := ⟨29 - msg.length, by omega⟩
  have hfield : errorMsgField msg = msg ++ 0 :: (List.replicate 29 0).take m := by
    rw [errorMsgField]
    conv => lhs; rw [hm]
    rw [List.take_length_add_append, ← hm, show 30 = 29 + 1 from rfl, List.replicate_succ,
      List.take_succ_cons]
  rw [hfield, List.append_assoc, List.cons_append, cString_append_nul h0]

/-- Every message of the eight commands is one of these. -/
theorem SingleCommand.errorMsg_lt (setup : Setup) (c : SingleCommand) (ret : Int) :
    (errorOf (c.command setup).errors ret).2.length < 30 ∧
      (0 : UInt8) ∉ (errorOf (c.command setup).errors ret).2 := by
  have hgood : ∀ m ∈ [[], Msg.badUserOrPass, Msg.databaseError, Msg.noAccount, Msg.badPass,
      Msg.notEnough, Msg.noOtherAccount], m.length < 30 ∧ (0 : UInt8) ∉ m := by decide
  have hall : ∀ e ∈ (c.command setup).errors, e.2 ∈ [[], Msg.badUserOrPass, Msg.databaseError,
      Msg.noAccount, Msg.badPass, Msg.notEnough, Msg.noOtherAccount] := by
    cases c <;> simp [SingleCommand.command, Cmd.userLogin, Cmd.openAccount, Cmd.deposit,
      Cmd.withdrawal, Cmd.transfer, Cmd.balanceInquiry, Cmd.changePassword, Cmd.closeAccount]
  refine hgood _ ?_
  unfold errorOf
  cases hfind : (c.command setup).errors.find? fun e => e.1.toInt = ret with
  | none => simp
  | some e => exact hall e (List.mem_of_find?_eq_some hfind)

/-- A reply of one packet is decoded to its head's code and message and its fields. -/
theorem readReply_bytes {h : ResponseHead} (h0 : (0 : UInt8) ∉ h.errorMsg)
    (hlen : h.errorMsg.length < 30) (junk : Junk) {read : Read BankClient.Responses}
    {d rest : Bytes} {responses : BankClient.Responses}
    (hread : h.errorCode = 0 → read d = some (responses, rest)) :
    ∃ rest', BankClient.readReply junk read (h.bytes ++ d)
      = some (⟨h.errorCode, h.errorMsg, if h.errorCode = 0 then responses else []⟩, rest') := by
  have hcode : h.errorCode.toUInt16.toInt16 = h.errorCode := rfl
  unfold BankClient.readReply ResponseHead.bytes
  simp only [List.append_assoc]
  rw [← List.append_assoc (beU16 h.cmd), bind_of_some (skip_append (by simp) (by simp [beU16])),
    bind_of_some (getU16_append _ _), bind_of_some (getU16_append _ _),
    bind_of_some (getU16_append _ _), hcode, bind_of_some (readBytes_append _ (by simp))]
  by_cases hzero : h.errorCode = 0
  · simp only [hzero, if_true]
    rw [bind_of_some (hread hzero)]
    refine ⟨rest, ?_⟩
    show some ((⟨0, cString (errorMsgField h.errorMsg ++ (_ ++ _)), responses⟩ : BankClient.Response), rest)
      = _
    rw [cString_errorMsgField h0 hlen]
  · simp only [hzero, if_false]
    refine ⟨d, ?_⟩
    show some ((⟨h.errorCode, cString (errorMsgField h.errorMsg ++ (_ ++ _)), []⟩ : BankClient.Response), d)
      = _
    rw [cString_errorMsgField h0 hlen]

/-! ### Replies, received -/

/-- **A reply arrives as it was meant.**  What one of the eight commands leaves in a cleared
stream is one packet: the client receives it and nothing more, and decodes the code and the
message of the outcome and, for a success, the texts of the values. -/
theorem reply_arrives (setup : Setup) (c : SingleCommand) (ret : Int) (l : Locals)
    {jos : JOutStream} (hjos : jos.length = 0) {buffer : Bytes} (hbuf : buffer.length = bufferSize)
    (junk : Junk) (more : Bytes) :
    let errorCode := (errorOf (c.command setup).errors ret).1
    let errorMsg := (errorOf (c.command setup).errors ret).2
    let packet := ((c.command setup).write c.cmd errorCode errorMsg l jos).data
    packet.length ≤ bufferSize → (errorCode = 0 → c.Presentable l) →
      BankClient.recvReply setup.crypto junk c buffer (packet ++ more)
        = .ok (⟨errorCode, errorMsg, if errorCode = 0 then c.shown l else []⟩, more) := by
  intro errorCode errorMsg packet hfits hpresentable
  obtain ⟨hlen, h0⟩ := c.errorMsg_lt setup ret
  obtain ⟨body, hbody, hwrite⟩ := c.write_eq setup errorCode errorMsg l
  have hin : jos.Inside := by
    show jos.currIndex ≤ _
    rw [show jos.currIndex = 0 from hjos]
    exact Nat.zero_le _
  have hpacket : packet
      = (writePacket setup.crypto c.cmd 0 0 errorCode errorMsg body jos).data := by rw [← hwrite]
  -- the length holds whatever is in the length field
  have hlength : packet.length = responseHeadSize + (c.fields setup errorCode l).length + 8 :=
    c.length_write setup errorCode errorMsg l hin hjos
  have hsmall : (c.fields setup errorCode l).length + 8 < 65536 := by
    simp only [bufferSize] at hfits
    omega
  obtain ⟨-, hself, ⟨len, hfront⟩, hhash⟩ := packet_writePacket setup.crypto c.cmd 0 0 errorCode
    errorMsg hbody hin hjos hsmall
  rw [← hpacket] at hself hfront hhash
  obtain ⟨r, hrecv, hr, -⟩ := recv_packet hbuf hself
    (by simp only [responseHeadSize] at hself hlength; omega) hfits hhash more
  have hsplit : packet = (ResponseHead.mk c.cmd len 0 0 errorCode errorMsg).bytes
      ++ (c.fields setup errorCode l ++ packet.drop (packet.length - 8)) := by
    conv => lhs; rw [← List.take_append_drop (packet.length - 8) packet, hfront]
    rw [List.append_assoc]
  have hfields : errorCode = 0 → c.readFields (c.fields setup errorCode l
      ++ packet.drop (packet.length - 8)) = some (c.shown l, packet.drop (packet.length - 8)) := by
    intro hzero
    rw [hzero]
    exact c.readFields_fields setup (hpresentable hzero) _
  obtain ⟨rest, hread⟩ := readReply_bytes
    (h := ResponseHead.mk c.cmd len 0 0 errorCode errorMsg) h0 hlen junk hfields
  rw [← hsplit] at hread
  have hdecode : BankClient.decode r (BankClient.readReply junk c.readFields)
      = .ok ⟨errorCode, errorMsg, if errorCode = 0 then c.shown l else []⟩ := by
    unfold BankClient.decode
    rw [hr, hread]
  unfold BankClient.recvReply
  rw [hrecv]
  show (BankClient.decode r (BankClient.readReply junk c.readFields) >>= _) = _
  rw [hdecode]
  rfl

/-- The values shown for a deposit of one yuan. -/
def depositLocals : Locals :=
  ⟨false, ⟨1, [65], [], [], [50, 48, 49, 52, 45, 48, 51, 45, 48, 50, 32, 48, 48, 58, 48, 48, 58, 48, 48],
    1⟩, 0, []⟩

theorem reply_arrives_deposit :
    BankClient.recvReply Setup.zero.crypto Setup.zero.sys.junk .deposit (List.replicate bufferSize 0)
        (((Cmd.deposit .zero).write CMD_DEPOSIT 0 [] depositLocals .init).data ++ [])
      = .ok (⟨0, [], SingleCommand.deposit.shown depositLocals⟩, []) := by
  have hfields : (SingleCommand.deposit.fields .zero 0 depositLocals).length = 28 := by decide +kernel
  have hpacket := SingleCommand.deposit.length_write .zero 0 [] depositLocals inside_init rfl
  have hfits : ((Cmd.deposit .zero).write CMD_DEPOSIT 0 [] depositLocals .init).data.length
      ≤ bufferSize := by
    refine hpacket.le.trans ?_
    rw [hfields]
    decide
  have hone : |(1 : ℚ)| ≤ doubleMax := le_doubleMax (by norm_num)
  have hpresentable : SingleCommand.deposit.Presentable depositLocals :=
    ⟨by decide, hone, rfl, by decide⟩
  exact reply_arrives .zero .deposit 0 depositLocals rfl List.length_replicate _ [] hfits
    fun _ => hpresentable

end Windows
