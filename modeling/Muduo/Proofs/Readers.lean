/-
Where the three receiving functions stay inside their arrays.

Each of them trusts the length field of the packet it receives.  What each does for
every value of the field is worked out from two facts: what is in the array when a
prefix of the stream has been copied to its front, and what the hash test does with a
size below eight, where the range of the hash wraps around, and with one from eight on.
-/
import Muduo.Windows.BankSession

namespace Bank

open Lib

/-! ### The specification -/

/-- The last eight of the first `size` bytes are the hash of those before them. -/
def EndsWithHash (crypto : Crypto) (b : Bytes) (size : Nat) : Prop :=
  foldHash crypto (headCmd b) (b.take (size - 8)) = (b.drop (size - 8)).take 8

instance (crypto : Crypto) (b : Bytes) (size : Nat) : Decidable (EndsWithHash crypto b size) :=
  inferInstanceAs (Decidable (_ = _))

/-- A packet is there, whole, and may be accepted by a program with heads of `head`
bytes. -/
def WellFormed (crypto : Crypto) (head : Nat) (b : Bytes) : Prop :=
  head ≤ b.length ∧ 8 ≤ (headLen b).toNat ∧ head + (headLen b).toNat ≤ bufferSize ∧
    head + (headLen b).toNat ≤ b.length ∧ EndsWithHash crypto b (head + (headLen b).toNat)

/-- The code did not leave an array. -/
def NoCrash {α : Type} (r : Except Signal α) : Prop := ∀ c, r ≠ .error (.crash c)

/-- What `onMessage` does with the bytes of its buffer before it executes a command:
nothing, while a frame is not complete, and otherwise `SetData` and `Parse`. -/
def readFrame (crypto : Crypto) (session : BankSession) (b : Bytes) :
    Except Signal (Option (BankSession × UInt16 × UInt16)) :=
  if requestHeadSize ≤ b.length ∧ requestHeadSize + (headLen b).toNat ≤ b.length then do
    let session ← session.setData (b.take (requestHeadSize + (headLen b).toNat))
    let (cmd, len) ← session.parse crypto
    return some (session, cmd, len)
  else return none

/-- The three functions that receive a packet. -/
inductive Reader where
  | muduoServer
  | windowsServer
  | windowsClient

namespace Reader

/-- The size of the heads it receives. -/
def headSize : Reader → Nat
  | muduoServer => requestHeadSize
  | windowsServer => requestHeadSize
  | windowsClient => responseHeadSize

/-- Whether a packet is accepted; the array's old contents are those of `session`. -/
def accepts (crypto : Crypto) (session : BankSession) (b : Bytes) : Reader → Except Signal Bool
  | muduoServer => (readFrame crypto session b).map Option.isSome
  | windowsServer => (Windows.BankServer.recv crypto session.buffer b).map fun _ => true
  | windowsClient => (Windows.BankClient.recv crypto session.buffer b).map fun _ => true

/-- No array is left, and what is accepted is exactly what is well formed. -/
def InBounds (crypto : Crypto) (session : BankSession) (b : Bytes) (reader : Reader) : Prop :=
  NoCrash (reader.accepts crypto session b) ∧
    (reader.accepts crypto session b = .ok true ↔ WellFormed crypto reader.headSize b)

/-- The packet that has arrived has between eight bytes and as many as the array, and,
where its length field is below eight, the hash does not match by accident. -/
def LengthOk (crypto : Crypto) (head : Nat) (b : Bytes) : Prop :=
  8 ≤ head + (headLen b).toNat ∧ head + (headLen b).toNat ≤ bufferSize ∧
    ((headLen b).toNat < 8 → ¬ EndsWithHash crypto b (head + (headLen b).toNat))

/-- The stream ends within the packet and within the array. -/
def Short (head : Nat) (b : Bytes) : Prop :=
  b.length < head + (headLen b).toNat ∧ b.length ≤ bufferSize

/-- The packet has arrived and its length is one the function can handle. -/
def Whole (crypto : Crypto) (head : Nat) (b : Bytes) : Prop :=
  head + (headLen b).toNat ≤ b.length ∧ LengthOk crypto head b

/-- The streams on which the function stays in bounds. -/
def Safe (crypto : Crypto) (b : Bytes) (reader : Reader) : Prop :=
  b.length < reader.headSize ∨
    match reader with
    | muduoServer =>
        b.length < reader.headSize + (headLen b).toNat ∨ LengthOk crypto reader.headSize b
    | windowsServer =>
        headLen b = 0 ∨ Short reader.headSize b ∨ Whole crypto reader.headSize b
    | windowsClient =>
        headLen b ≠ 0 ∧ (Short reader.headSize b ∨ Whole crypto reader.headSize b)

end Reader

/-! ### What is in the array -/

theorem headCmd_congr {b c : Bytes} (h : b.take 4 = c.take 4) : headCmd b = headCmd c := by
  have hget : ∀ i, i < 4 → b.getD i 0 = c.getD i 0 := by
    intro i hi
    have := congrArg (fun l => l[i]?.getD 0) h
    simpa [List.getD, List.getElem?_take, hi] using this
  rw [headCmd, headCmd, hget 0 (by omega), hget 1 (by omega)]

theorem headLen_congr {b c : Bytes} (h : b.take 4 = c.take 4) : headLen b = headLen c := by
  have hget : ∀ i, i < 4 → b.getD i 0 = c.getD i 0 := by
    intro i hi
    have := congrArg (fun l => l[i]?.getD 0) h
    simpa [List.getD, List.getElem?_take, hi] using this
  rw [headLen, headLen, hget 2 (by omega), hget 3 (by omega)]

theorem take_four_of_take {b c : Bytes} {n : Nat} (hn : 4 ≤ n)
    (h : b.take n = c.take n) : b.take 4 = c.take 4 := by
  have := congrArg (List.take 4) h
  rwa [List.take_take, List.take_take, Nat.min_eq_left hn] at this

/-- The hash test only looks at the bytes of the packet. -/
theorem endsWithHash_congr {crypto : Crypto} {b c : Bytes} {size : Nat} (h4 : 4 ≤ size)
    (h8 : 8 ≤ size) (h : b.take size = c.take size) :
    EndsWithHash crypto b size ↔ EndsWithHash crypto c size := by
  have hpre : b.take (size - 8) = c.take (size - 8) := by
    have := congrArg (List.take (size - 8)) h
    rwa [List.take_take, List.take_take, Nat.min_eq_left (by omega)] at this
  have hsuf : (b.drop (size - 8)).take 8 = (c.drop (size - 8)).take 8 := by
    have := congrArg (List.drop (size - 8)) h
    rwa [List.drop_take, List.drop_take, show size - (size - 8) = 8 by omega] at this
  rw [EndsWithHash, EndsWithHash, headCmd_congr (take_four_of_take h4 h), hpre, hsuf]

/-- A size below eight makes the range of the hash wrap around. -/
theorem checkHash_of_lt {crypto : Crypto} {cmd : UInt16} {buffer : Bytes} {size : Nat}
    (hbuf : buffer.length = bufferSize) (h : size < 8) :
    checkHash crypto cmd buffer size = .error (.crash .outOfBounds) := by
  have hwrap : buffer.length < md5Range (sizeSub size 8) := by
    rw [hbuf, sizeSub, if_neg (by omega), md5Range, bufferSize]
    omega
  simp only [checkHash, if_pos (Or.inl hwrap)]

theorem checkHash_of_le {crypto : Crypto} {buffer : Bytes} {size : Nat}
    (hbuf : buffer.length = bufferSize) (h8 : 8 ≤ size) (hsize : size ≤ bufferSize) :
    checkHash crypto (headCmd buffer) buffer size
      = if EndsWithHash crypto buffer size then .ok () else .error (.exception Msg.badPacket) := by
  have hsub : sizeSub size 8 = size - 8 := by rw [sizeSub, if_pos h8]
  have hin : ¬ (buffer.length < md5Range (sizeSub size 8) ∨
      buffer.length < sizeSub size 8 + 8) := by
    rw [hbuf, hsub, md5Range]
    simp only [bufferSize] at hsize ⊢
    omega
  simp only [checkHash, if_neg hin]
  rw [hsub]
  rfl

/-- What the hash test says once a whole packet of a stream is in the array. -/
def verdict (crypto : Crypto) (head : Nat) (b : Bytes) : Except Signal Bool :=
  if head + (headLen b).toNat < 8 then .error (.crash .outOfBounds)
  else if EndsWithHash crypto b (head + (headLen b).toNat) then .ok true
  else .error (.exception Msg.badPacket)

/-- The head of a packet that is in the array, and the hash test on it. -/
theorem checkHash_eq_verdict {crypto : Crypto} {buffer b : Bytes} {head : Nat}
    (hbuf : buffer.length = bufferSize) (hhead : 4 ≤ head)
    (hsize : head + (headLen b).toNat ≤ bufferSize)
    (hcopy : buffer.take (head + (headLen b).toNat) = b.take (head + (headLen b).toNat)) :
    headCmd buffer = headCmd b ∧ headLen buffer = headLen b ∧
      (checkHash crypto (headCmd b) buffer (head + (headLen b).toNat)).map (fun _ => true)
        = verdict crypto head b := by
  have h4 := take_four_of_take (show 4 ≤ head + (headLen b).toNat by omega) hcopy
  refine ⟨headCmd_congr h4, headLen_congr h4, ?_⟩
  rw [← headCmd_congr h4]
  unfold verdict
  by_cases h8 : head + (headLen b).toNat < 8
  · rw [checkHash_of_lt hbuf h8, if_pos h8]
    rfl
  · rw [checkHash_of_le hbuf (by omega) hsize, if_neg h8,
      if_congr (endsWithHash_congr (by omega) (by omega) hcopy) rfl rfl]
    split <;> rfl

/-- The test is in bounds, and accepts what is well formed, where the length is. -/
theorem verdict_inBounds {crypto : Crypto} {head : Nat} {b : Bytes} (hhead : head ≤ b.length)
    (hall : head + (headLen b).toNat ≤ b.length)
    (hsize : head + (headLen b).toNat ≤ bufferSize) :
    (NoCrash (verdict crypto head b) ∧ (verdict crypto head b = .ok true ↔ WellFormed crypto head b))
      ↔ Reader.LengthOk crypto head b := by
  unfold verdict NoCrash WellFormed Reader.LengthOk
  by_cases h8 : head + (headLen b).toNat < 8
  · rw [if_pos h8]
    constructor
    · intro h
      exact absurd rfl (h.1 _)
    · intro h
      omega
  · rw [if_neg h8]
    by_cases hm : EndsWithHash crypto b (head + (headLen b).toNat)
    · rw [if_pos hm]
      simp [hm, hhead, hall, hsize]
      omega
    · rw [if_neg hm]
      simp [hm, hsize]
      omega

/-! ### The muduo server -/

/-- `onMessage` reads a frame like this, and executes what it has read. -/
theorem serveFrame_readFrame (setup : Setup) (session : BankSession) {b : Bytes}
    (h : requestHeadSize ≤ b.length ∧ requestHeadSize + (headLen b).toNat ≤ b.length) :
    BankServer.serveFrame setup session (b.take (requestHeadSize + (headLen b).toNat))
      = BankSession.lift (readFrame setup.crypto session b) >>= fun
        | some (s, cmd, len) => s.tryAction setup cmd len
        | none => pure session := by
  unfold BankServer.serveFrame readFrame
  rw [if_pos h]
  cases session.setData (b.take (requestHeadSize + (headLen b).toNat)) with
  | error e => rfl
  | ok s =>
      show BankSession.process setup s = _
      unfold BankSession.process
      show BankSession.lift (s.parse setup.crypto) >>= _ = BankSession.lift (do
        let (cmd, len) ← s.parse setup.crypto
        return some (s, cmd, len)) >>= _
      cases s.parse setup.crypto with
      | error e => rfl
      | ok p => rfl

/-- A frame that fits is copied to the front of the array. -/
theorem setData_of_le (session : BankSession) {d : Bytes} (h : d.length ≤ bufferSize) :
    ∃ session', session.setData d = .ok session' ∧ session'.buffer.take d.length = d ∧
      session'.jos = session.jos := by
  unfold BankSession.setData
  rw [dif_pos h]
  refine ⟨_, rfl, ?_, rfl⟩
  have := take_splice (b := session.buffer) (d := d) (Nat.zero_le _)
  simpa using this

theorem accepts_muduoServer (crypto : Crypto) (session : BankSession) (b : Bytes) :
    Reader.muduoServer.accepts crypto session b
      = if requestHeadSize ≤ b.length ∧ requestHeadSize + (headLen b).toNat ≤ b.length then
          if requestHeadSize + (headLen b).toNat ≤ bufferSize then verdict crypto requestHeadSize b
          else .error (.crash .outOfBounds)
        else .ok false := by
  unfold Reader.accepts readFrame
  by_cases h : requestHeadSize ≤ b.length ∧ requestHeadSize + (headLen b).toNat ≤ b.length
  · rw [if_pos h, if_pos h]
    have hlen : (b.take (requestHeadSize + (headLen b).toNat)).length
        = requestHeadSize + (headLen b).toNat := by simp [h.2]
    by_cases hsize : requestHeadSize + (headLen b).toNat ≤ bufferSize
    · rw [if_pos hsize]
      obtain ⟨session', hset, hcopy, -⟩ := setData_of_le session (show _ ≤ bufferSize by
        rw [hlen]
        exact hsize)
      rw [hlen] at hcopy
      have hhead : 4 ≤ requestHeadSize := Nat.le_refl 4
      obtain ⟨hcmd, hl, hv⟩ := checkHash_eq_verdict session'.length_buffer hhead hsize hcopy
      rw [hset, ← hv]
      show Except.map Option.isSome (do
        let (cmd, len) ← session'.parse crypto
        return some (session', cmd, len)) = _
      unfold BankSession.parse
      simp only [hcmd, hl]
      cases checkHash crypto (headCmd b) session'.buffer (requestHeadSize + (headLen b).toNat) with
      | error e => rfl
      | ok u => rfl
    · rw [if_neg hsize]
      unfold BankSession.setData
      rw [dif_neg (by rw [hlen]; exact hsize)]
      rfl
  · rw [if_neg h, if_neg h]
    rfl

/-! ### The Windows programs -/

open Windows in
/-- A whole piece of the stream, copied behind what is in the array already. -/
theorem recvN_of_le {buffer socket : Bytes} {offset len : Nat} (hpos : 0 < len)
    (hlen : len ≤ socket.length) (hfit : offset + len ≤ buffer.length) :
    recvN buffer offset len socket
      = .ok (some (splice buffer offset (socket.take len)), socket.drop len) := by
  have hstored : (socket.take len).length = len := by simp [hlen]
  unfold recvN
  simp only [hstored]
  rw [if_neg (by omega), if_neg (by omega)]

open Windows in
theorem recvN_of_short {buffer socket : Bytes} {offset len : Nat}
    (hlen : len = 0 ∨ socket.length < len)
    (hfit : offset + min len socket.length ≤ buffer.length) :
    recvN buffer offset len socket = .ok (none, socket.drop len) := by
  unfold recvN
  simp only [List.length_take]
  rw [if_neg (by omega), if_pos hlen]

open Windows in
theorem recvN_of_overflow {buffer socket : Bytes} {offset len : Nat}
    (hfit : buffer.length < offset + min len socket.length) :
    recvN buffer offset len socket = .error (.crash .outOfBounds) := by
  unfold recvN
  simp only [List.length_take]
  rw [if_pos hfit]

/-- Two copies, one behind the other. -/
theorem take_splice_splice {buffer b : Bytes} {head len : Nat} (hb : head + len ≤ b.length)
    (hfit : head + len ≤ buffer.length) :
    (splice (splice buffer 0 (b.take head)) head ((b.drop head).take len)).length = buffer.length ∧
      (splice (splice buffer 0 (b.take head)) head ((b.drop head).take len)).take (head + len)
        = b.take (head + len) := by
  have hhead : (b.take head).length = head := by simp; omega
  have hrest : ((b.drop head).take len).length = len := by simp; omega
  have hlen₁ : (splice buffer 0 (b.take head)).length = buffer.length :=
    length_splice (by omega)
  have hfirst : (splice buffer 0 (b.take head)).take head = b.take head := by
    have := take_splice (b := buffer) (d := b.take head) (Nat.zero_le _)
    simpa [hhead] using this
  refine ⟨?_, ?_⟩
  · rw [length_splice (by omega), hlen₁]
  · have := take_splice (b := splice buffer 0 (b.take head)) (d := (b.drop head).take len)
      (i := head) (by omega)
    rw [hrest, hfirst] at this
    rw [this, List.take_add]

/-- The head of the stream, copied to the front of the array. -/
theorem take_splice_head {buffer b : Bytes} {head : Nat} (hb : head ≤ b.length)
    (hfit : head ≤ buffer.length) :
    (splice buffer 0 (b.take head)).length = buffer.length ∧
      (splice buffer 0 (b.take head)).take head = b.take head := by
  have hhead : (b.take head).length = head := by simp [hb]
  refine ⟨length_splice (by omega), ?_⟩
  have := take_splice (b := buffer) (d := b.take head) (Nat.zero_le _)
  simpa [hhead] using this

/-- What both `Recv` functions do from the second `RecvN` on. -/
theorem recvN_checkHash {buffer b : Bytes} {head : Nat}
    (hbuf : buffer.length = bufferSize) (hhead : 4 ≤ head) (hb : head ≤ b.length)
    (hfit : head ≤ bufferSize) {α : Type} (k : Bytes → Bytes → α) (closed : Bytes)
    (crypto : Crypto) :
    let first := splice buffer 0 (b.take head)
    (do
      let (got, socket) ← Windows.recvN first head (headLen b).toNat (b.drop head)
      match got with
      | none => .error (.exception closed)
      | some buffer =>
          checkHash crypto (headCmd b) buffer (head + (headLen b).toNat)
          return k buffer socket : Except Signal α).map (fun _ => true)
      = if headLen b = 0 ∨ b.length < head + (headLen b).toNat then
          if min b.length (head + (headLen b).toNat) ≤ bufferSize then .error (.exception closed)
          else .error (.crash .outOfBounds)
        else if head + (headLen b).toNat ≤ bufferSize then verdict crypto head b
        else .error (.crash .outOfBounds) := by
  intro first
  have hlen₁ : first.length = bufferSize :=
    (take_splice_head hb (show head ≤ buffer.length by omega)).1.trans hbuf
  have hzero : headLen b = 0 ↔ (headLen b).toNat = 0 := by
    rw [← UInt16.toNat_inj]
    rfl
  have hdrop : (b.drop head).length = b.length - head := List.length_drop
  by_cases hshort : headLen b = 0 ∨ b.length < head + (headLen b).toNat
  · have hshort' : (headLen b).toNat = 0 ∨ b.length < head + (headLen b).toNat :=
      hshort.imp_left hzero.mp
    rw [if_pos hshort]
    by_cases hroom : min b.length (head + (headLen b).toNat) ≤ bufferSize
    · rw [if_pos hroom, recvN_of_short]
      · rfl
      · rw [hdrop]
        omega
      · rw [hlen₁, hdrop]
        omega
    · rw [if_neg hroom, recvN_of_overflow]
      · rfl
      · rw [hlen₁, hdrop]
        omega
  · have hshort' : ¬ ((headLen b).toNat = 0 ∨ b.length < head + (headLen b).toNat) :=
      fun h => hshort (h.imp_left hzero.mpr)
    rw [if_neg hshort]
    by_cases hroom : head + (headLen b).toNat ≤ bufferSize
    · rw [if_pos hroom, recvN_of_le (by omega) (by omega) (by omega)]
      obtain ⟨hlen₂, hcopy⟩ := take_splice_splice (show head + (headLen b).toNat ≤ b.length by omega)
        (show head + (headLen b).toNat ≤ buffer.length by omega)
      obtain ⟨-, -, hv⟩ := checkHash_eq_verdict (hlen₂.trans hbuf) hhead hroom hcopy
      rw [← hv]
      show Except.map _ (do checkHash crypto _ _ _; return k _ _) = _
      cases checkHash crypto (headCmd b)
          (splice first head (List.take (headLen b).toNat (List.drop head b)))
          (head + (headLen b).toNat) with
      | error e => rfl
      | ok u => rfl
    · rw [if_neg hroom, recvN_of_overflow]
      · rfl
      · rw [hlen₁, hdrop]
        omega

/-- The first `RecvN` of both functions. -/
theorem recvN_head {buffer b : Bytes} {head : Nat} (hbuf : buffer.length = bufferSize)
    (hhead : 0 < head) (hfit : head ≤ bufferSize) :
    Windows.recvN buffer 0 head b
      = if b.length < head then .ok (none, b.drop head)
        else .ok (some (splice buffer 0 (b.take head)), b.drop head) := by
  by_cases h : b.length < head
  · rw [if_pos h, recvN_of_short (Or.inr h)]
    omega
  · rw [if_neg h, recvN_of_le hhead (by omega) (by omega)]

/-- What both `Recv` functions do with a head that has arrived. -/
theorem head_arrived {buffer b : Bytes} {head : Nat} (hbuf : buffer.length = bufferSize)
    (hhead : 4 ≤ head) (hfit : head ≤ bufferSize) (hb : head ≤ b.length) :
    headCmd (splice buffer 0 (b.take head)) = headCmd b ∧
      headLen (splice buffer 0 (b.take head)) = headLen b := by
  obtain ⟨-, hcopy⟩ := take_splice_head hb (show head ≤ buffer.length by omega)
  have h4 := take_four_of_take hhead hcopy
  exact ⟨headCmd_congr h4, headLen_congr h4⟩

theorem accepts_windowsServer (crypto : Crypto) (session : BankSession) (b : Bytes) :
    Reader.windowsServer.accepts crypto session b
      = if b.length < requestHeadSize then .error (.exception Windows.Msg.clientClosed)
        else if headLen b = 0 ∨ b.length < requestHeadSize + (headLen b).toNat then
          if min b.length (requestHeadSize + (headLen b).toNat) ≤ bufferSize then
            .error (.exception Windows.Msg.clientClosed)
          else .error (.crash .outOfBounds)
        else if requestHeadSize + (headLen b).toNat ≤ bufferSize then verdict crypto requestHeadSize b
        else .error (.crash .outOfBounds) := by
  have hhead : 4 ≤ requestHeadSize := Nat.le_refl 4
  have hfit : requestHeadSize ≤ bufferSize := by decide
  show Except.map _ (Windows.BankServer.recv crypto session.buffer b) = _
  unfold Windows.BankServer.recv
  rw [recvN_head session.length_buffer (by omega) hfit]
  by_cases h : b.length < requestHeadSize
  · rw [if_pos h, if_pos h]
    rfl
  · have hb : requestHeadSize ≤ b.length := by omega
    obtain ⟨hcmd, hlen⟩ := head_arrived session.length_buffer hhead hfit hb
    rw [if_neg h, if_neg h, ← recvN_checkHash session.length_buffer hhead hb hfit
      (fun buffer socket => ((⟨buffer, headCmd b, headLen b⟩ : Windows.Received), socket))
      Windows.Msg.clientClosed crypto, ← hcmd, ← hlen]
    rfl

theorem accepts_windowsClient (crypto : Crypto) (session : BankSession) (b : Bytes) :
    Reader.windowsClient.accepts crypto session b
      = if b.length < responseHeadSize then .error (.exception Windows.Msg.serverClosed)
        else if headLen b = 0 then .ok true
        else if b.length < responseHeadSize + (headLen b).toNat then
          if min b.length (responseHeadSize + (headLen b).toNat) ≤ bufferSize then
            .error (.exception Windows.Msg.serverClosed)
          else .error (.crash .outOfBounds)
        else if responseHeadSize + (headLen b).toNat ≤ bufferSize then
          verdict crypto responseHeadSize b
        else .error (.crash .outOfBounds) := by
  have hhead : 4 ≤ responseHeadSize := by decide
  have hfit : responseHeadSize ≤ bufferSize := by decide
  show Except.map _ (Windows.BankClient.recv crypto session.buffer b) = _
  unfold Windows.BankClient.recv
  rw [recvN_head session.length_buffer (by omega) hfit]
  by_cases h : b.length < responseHeadSize
  · rw [if_pos h, if_pos h]
    rfl
  · have hb : responseHeadSize ≤ b.length := by omega
    obtain ⟨hcmd, hlen⟩ := head_arrived session.length_buffer hhead hfit hb
    have hrest := recvN_checkHash session.length_buffer hhead hb hfit
      (fun buffer socket => ((⟨buffer, headCmd b, headLen b⟩ : Windows.Received), socket))
      Windows.Msg.serverClosed crypto
    rw [if_neg h, if_neg h]
    show Except.map _ (if headLen (splice session.buffer 0 (b.take responseHeadSize)) = 0 then _
      else _) = _
    rw [hlen]
    by_cases h0 : headLen b = 0
    · rw [if_pos h0, if_pos h0]
      rfl
    · rw [if_neg h0, if_neg h0, hcmd]
      simp only [h0, false_or] at hrest
      exact hrest

/-! ### The readers together -/

private theorem noCrash_ok {α : Type} (a : α) : NoCrash (.ok a : Except Signal α) := by
  intro c h
  cases h

private theorem noCrash_exception {α : Type} (what : Bytes) :
    NoCrash (.error (.exception what) : Except Signal α) := by
  intro c h
  cases h

private theorem not_noCrash {α : Type} {c : Crash} :
    ¬ NoCrash (.error (.crash c) : Except Signal α) := fun h => h c rfl

private theorem headLen_eq_zero {b : Bytes} : headLen b = 0 ↔ (headLen b).toNat = 0 := by
  rw [← UInt16.toNat_inj]
  rfl

theorem inBounds_muduoServer (crypto : Crypto) (session : BankSession) (b : Bytes) :
    Reader.muduoServer.InBounds crypto session b ↔ Reader.muduoServer.Safe crypto b := by
  unfold Reader.InBounds Reader.Safe
  simp only [accepts_muduoServer, Reader.headSize]
  by_cases h : requestHeadSize ≤ b.length ∧ requestHeadSize + (headLen b).toNat ≤ b.length
  · rw [if_pos h]
    by_cases hsize : requestHeadSize + (headLen b).toNat ≤ bufferSize
    · rw [if_pos hsize, verdict_inBounds h.1 h.2 hsize]
      have : ¬ b.length < requestHeadSize ∧
          ¬ b.length < requestHeadSize + (headLen b).toNat := by omega
      simp only [this.1, this.2, false_or]
    · rw [if_neg hsize]
      refine ⟨fun hg => absurd hg.1 not_noCrash, fun hs => ?_⟩
      unfold Reader.LengthOk at hs
      omega
  · rw [if_neg h]
    refine ⟨fun _ => by omega, fun _ => ⟨noCrash_ok _, by simp, fun hw => ?_⟩⟩
    exact absurd ⟨hw.1, hw.2.2.2.1⟩ h

theorem inBounds_windowsServer (crypto : Crypto) (session : BankSession) (b : Bytes) :
    Reader.windowsServer.InBounds crypto session b ↔ Reader.windowsServer.Safe crypto b := by
  unfold Reader.InBounds Reader.Safe
  simp only [accepts_windowsServer, Reader.headSize]
  have hfit : requestHeadSize ≤ bufferSize := by decide
  by_cases h : b.length < requestHeadSize
  · rw [if_pos h]
    refine ⟨fun _ => Or.inl h, fun _ => ⟨noCrash_exception _, by simp, fun hw => ?_⟩⟩
    exact absurd hw.1 (by omega)
  · rw [if_neg h]
    simp only [headLen_eq_zero]
    by_cases hshort : (headLen b).toNat = 0 ∨ b.length < requestHeadSize + (headLen b).toNat
    · rw [if_pos hshort]
      have hnot : ¬ WellFormed crypto requestHeadSize b := by
        intro hw
        have h8 := hw.2.1
        have hall := hw.2.2.2.1
        omega
      by_cases hroom : min b.length (requestHeadSize + (headLen b).toNat) ≤ bufferSize
      · rw [if_pos hroom]
        refine ⟨fun _ => Or.inr ?_, fun _ => ⟨noCrash_exception _, by simp, fun hw => ?_⟩⟩
        · rcases hshort with h0 | hlt
          · exact Or.inl h0
          · exact Or.inr (Or.inl ⟨hlt, by omega⟩)
        · exact absurd hw hnot
      · rw [if_neg hroom]
        refine ⟨fun hg => absurd hg.1 not_noCrash, fun hs => ?_⟩
        unfold Reader.Short Reader.Whole Reader.LengthOk at hs
        omega
    · rw [if_neg hshort]
      by_cases hsize : requestHeadSize + (headLen b).toNat ≤ bufferSize
      · rw [if_pos hsize, verdict_inBounds (by omega) (by omega) hsize]
        unfold Reader.Short Reader.Whole
        constructor
        · intro hl
          exact Or.inr (Or.inr (Or.inr ⟨by omega, hl⟩))
        · rintro (hlt | h0 | ⟨hlt, -⟩ | ⟨-, hl⟩)
          · exact absurd hlt h
          · exact absurd (Or.inl h0) hshort
          · exact absurd (Or.inr hlt) hshort
          · exact hl
      · rw [if_neg hsize]
        refine ⟨fun hg => absurd hg.1 not_noCrash, fun hs => ?_⟩
        unfold Reader.Short Reader.Whole Reader.LengthOk at hs
        omega

theorem inBounds_windowsClient (crypto : Crypto) (session : BankSession) (b : Bytes) :
    Reader.windowsClient.InBounds crypto session b ↔ Reader.windowsClient.Safe crypto b := by
  unfold Reader.InBounds Reader.Safe
  simp only [accepts_windowsClient, Reader.headSize]
  by_cases h : b.length < responseHeadSize
  · rw [if_pos h]
    refine ⟨fun _ => Or.inl h, fun _ => ⟨noCrash_exception _, by simp, fun hw => ?_⟩⟩
    exact absurd hw.1 (by omega)
  · rw [if_neg h]
    simp only [ne_eq, headLen_eq_zero]
    by_cases h0 : (headLen b).toNat = 0
    · -- the packet is accepted although nothing in it has been checked
      rw [if_pos h0]
      refine ⟨fun hg => ?_, fun hs => by omega⟩
      have h8 := (hg.2.mp rfl).2.1
      omega
    · rw [if_neg h0]
      by_cases hlt : b.length < responseHeadSize + (headLen b).toNat
      · rw [if_pos hlt]
        by_cases hroom : min b.length (responseHeadSize + (headLen b).toNat) ≤ bufferSize
        · rw [if_pos hroom]
          refine ⟨fun _ => Or.inr ⟨h0, Or.inl ⟨hlt, by omega⟩⟩,
            fun _ => ⟨noCrash_exception _, by simp, fun hw => ?_⟩⟩
          exact absurd hw.2.2.2.1 (by omega)
        · rw [if_neg hroom]
          refine ⟨fun hg => absurd hg.1 not_noCrash, fun hs => ?_⟩
          unfold Reader.Short Reader.Whole at hs
          omega
      · rw [if_neg hlt]
        by_cases hsize : responseHeadSize + (headLen b).toNat ≤ bufferSize
        · rw [if_pos hsize, verdict_inBounds (by omega) (by omega) hsize]
          unfold Reader.Short Reader.Whole
          constructor
          · intro hl
            exact Or.inr ⟨h0, Or.inr ⟨by omega, hl⟩⟩
          · rintro (hlt' | ⟨-, ⟨hlt', -⟩ | ⟨-, hl⟩⟩)
            · exact absurd hlt' h
            · exact absurd hlt' hlt
            · exact hl
        · rw [if_neg hsize]
          refine ⟨fun hg => absurd hg.1 not_noCrash, fun hs => ?_⟩
          unfold Reader.Short Reader.Whole Reader.LengthOk at hs
          omega

/-- **Where the readers stay in bounds.**  A function that receives packets keeps to
its array, hashes what it has copied and accepts exactly the well-formed packets, on
the streams that are `Safe` for it and on no others. -/
theorem Reader.inBounds_iff_safe (crypto : Crypto) (session : BankSession) (b : Bytes)
    (reader : Reader) : reader.InBounds crypto session b ↔ reader.Safe crypto b := by
  cases reader with
  | muduoServer => exact inBounds_muduoServer crypto session b
  | windowsServer => exact inBounds_windowsServer crypto session b
  | windowsClient => exact inBounds_windowsClient crypto session b

/-- A head with length zero makes the muduo server hash four gigabytes. -/
theorem readers_leave_bounds : ¬ ∀ (crypto : Crypto) (session : BankSession) (b : Bytes)
    (reader : Reader), reader.InBounds crypto session b := by
  intro h
  have hcrypto : Crypto := ⟨fun _ => Vector.replicate 16 0, fun k _ => k⟩
  have hin := h hcrypto .init [0, 1, 0, 0] .muduoServer
  rw [inBounds_muduoServer] at hin
  rcases hin with hlt | hlt | ⟨h8, -⟩
  · exact absurd hlt (by decide)
  · exact absurd hlt (by decide)
  · exact absurd h8 (by decide)

end Bank
