/-
The server seen from the network.

A connection's input is a stream that falls into frames, and `onMessage` is the reader
that takes complete frames off its front; the general facts about such readers then
say that deliveries may cut the stream anywhere.  What is left to show about this
server is that answering a frame depends on the frame only: neither the bytes older
frames have left in the session's buffer, nor those older replies have left in its
stream, can be seen in an answer.
-/
import Muduo.Lib.Framing
import Muduo.Proofs.Readers
import Muduo.Proofs.Replies

namespace Bank

open Lib BankServer

/-! ### Frames -/

/-- How a request stream falls into frames: four bytes of head, the last two of them
the length of the rest. -/
def framing : Framing where
  size? b := if requestHeadSize ≤ b.length then some (requestHeadSize + (headLen b).toNat) else none
  pos := by
    intro b n h
    split at h
    · cases h
      exact Nat.lt_of_lt_of_le (by decide) (Nat.le_add_right _ _)
    · cases h
  mono := by
    intro b n c h
    split at h
    · rename_i hb
      cases h
      have hhead : headLen (b ++ c) = headLen b := by
        apply headLen_congr
        exact List.take_append_of_le_length hb
      rw [if_pos (by rw [List.length_append]; omega), hhead]
    · cases h

theorem isFrame_iff {f : Bytes} :
    framing.IsFrame f ↔ requestHeadSize ≤ f.length ∧ f.length = requestHeadSize + (headLen f).toNat := by
  unfold Framing.IsFrame
  show (if _ then some _ else none) = some _ ↔ _
  split
  · rename_i h
    simp only [Option.some.injEq, h, true_and]
    exact eq_comm
  · rename_i h
    simp [h]

/-! ### Answering one frame -/

variable (setup : Setup)

/-- The command of a frame, executed on a stream that has not been used. -/
def executeFrame (f : Bytes) : Serve Bytes :=
  match action? setup (headCmd f) with
  | none => pure []
  | some c =>
      tryCatch (JOutStream.data <$> c.execute (headCmd f) (f.drop requestHeadSize) .init) fun
        | .exception _ => pure []
        | .crash c => throw (.crash c)

/-- What a frame is answered: copied if it fits, tested, executed. -/
def answerFrame (f : Bytes) : Serve Bytes := do
  let _ ← BankSession.lift
    (if f.length ≤ bufferSize then verdict setup.crypto requestHeadSize f
      else .error (.crash .outOfBounds))
  executeFrame setup f

private theorem map_tryCatch {α β : Type} (g : α → β) (x : Serve α) (h : Signal → Serve α) :
    g <$> tryCatch x h = tryCatch (g <$> x) fun e => g <$> h e := by
  apply ExceptT.ext
  simp only [ExceptT.run_map, ExceptT.run_tryCatch, map_bind, bind_map_left]
  refine bind_congr fun r => ?_
  cases r with
  | error e => rfl
  | ok a => rfl

/-- What a command leaves in a cleared stream is what it leaves in a new one. -/
private theorem data_execute {cmd : UInt16} {c : Command} (hc : action? setup cmd = some c)
    (body : Bytes) {jos : JOutStream} (hjos : jos.length = 0) :
    JOutStream.data <$> c.execute cmd body jos = JOutStream.data <$> c.execute cmd body .init := by
  unfold Command.execute
  simp only [map_bind]
  refine bind_congr fun args => bind_congr fun ret => ?_
  simp only [map_pure]
  rw [data_write_of_cleared setup hc _ _ _ hjos]

theorem response_eq_data (s : BankSession) : response s = s.jos.data := by
  rw [response, Net.Buffer.readable_append, Net.Buffer.readable_init, List.nil_append]

/-- The answer to a frame is a function of the frame. -/
theorem response_serveFrame {session : BankSession} (hcleared : session.jos.length = 0) {f : Bytes}
    (hf : framing.IsFrame f) : response <$> serveFrame setup session f = answerFrame setup f := by
  obtain ⟨hhead, hlen⟩ := isFrame_iff.mp hf
  unfold serveFrame answerFrame
  by_cases hsize : f.length ≤ bufferSize
  · rw [if_pos hsize]
    obtain ⟨s, hset, hcopy, hjos⟩ := setData_of_le session hsize
    have hcopy' : s.buffer.take (requestHeadSize + (headLen f).toNat)
        = f.take (requestHeadSize + (headLen f).toNat) := by
      rw [← hlen, hcopy, List.take_length]
    obtain ⟨hcmd, hl, hv⟩ := checkHash_eq_verdict s.length_buffer
      (show 4 ≤ requestHeadSize from Nat.le_refl 4) (by rw [← hlen]; exact hsize) hcopy'
    rw [hset, ← hv]
    show response <$> (s.process setup) = _
    unfold BankSession.process BankSession.parse
    simp only [hcmd, hl]
    cases checkHash setup.crypto (headCmd f) s.buffer (requestHeadSize + (headLen f).toNat) with
    | error e => rfl
    | ok u =>
        show response <$> s.tryAction setup (headCmd f) (headLen f) = executeFrame setup f
        have hbody : (s.buffer.drop requestHeadSize).take (headLen f).toNat
            = f.drop requestHeadSize := by
          conv => rhs; rw [← hcopy]
          rw [hlen, List.drop_take]
          simp
        have hempty : response s = [] := by
          rw [response_eq_data, hjos, JOutStream.data,
            show session.jos.currIndex = 0 from hcleared, List.take_zero]
        unfold BankSession.tryAction executeFrame
        rw [map_tryCatch]
        cases haction : action? setup (headCmd f) with
        | none =>
            rw [BankSession.doAction, haction]
            show (pure (response s) : Serve Bytes) = pure []
            rw [hempty]
        | some c =>
            have hdo : response <$> s.doAction setup (headCmd f) (headLen f)
                = JOutStream.data <$> c.execute (headCmd f) (f.drop requestHeadSize) .init := by
              refine Eq.trans ?_ (data_execute setup haction _ hcleared)
              have hact : s.doAction setup (headCmd f) (headLen f) = (do
                  let jos ← c.execute (headCmd f) (f.drop requestHeadSize) session.jos
                  return { s with jos := jos }) := by
                rw [← hbody, ← hjos]
                unfold BankSession.doAction
                rw [haction]
              rw [hact, map_bind]
              simp only [map_pure, response_eq_data]
              exact bind_pure_comp _ _
            rw [hdo]
            refine congrArg (tryCatch _) (funext fun e => ?_)
            cases e with
            | crash c => rfl
            | exception what =>
                show (pure (response s) : Serve Bytes) = pure []
                rw [hempty]
  · rw [if_neg hsize]
    unfold BankSession.setData
    rw [dif_neg hsize]
    rfl

/-! ### The reader -/

/-- What can be seen of a connection: the answers sent, and the bytes not consumed. -/
def observe (conn : Connection) : List Bytes × Bytes := (conn.sent, conn.input.readable)

/-- Answer a frame behind the answers to the earlier ones. -/
def answerNext (sent : List Bytes) (f : Bytes) : Serve (List Bytes) := do
  let reply ← answerFrame setup f
  return sent ++ [reply]

/-- A frame has arrived in the buffer. -/
def Arrived (buf : Net.Buffer) : Prop :=
  requestHeadSize ≤ buf.readableBytes ∧
    (headLen buf.peek).toNat + requestHeadSize ≤ buf.readableBytes

theorem onMessage_of_arrived {conn : Connection} (h : Arrived conn.input) :
    onMessage setup conn = (do
      let session ← serveFrame setup conn.session
        (conn.input.peek.take (requestHeadSize + (headLen conn.input.peek).toNat))
      onMessage setup
        { input := conn.input.retrieve ((headLen conn.input.peek).toNat + requestHeadSize) h.2
          session := session.clear
          sent := conn.sent ++ [response session]
          cleared := rfl }) := by
  conv => lhs; rw [onMessage]
  rw [if_pos (show kHeaderLen ≤ _ from h.1)]
  exact dif_pos h.2

theorem onMessage_of_not_arrived {conn : Connection} (h : ¬ Arrived conn.input) :
    onMessage setup conn = pure conn := by
  rw [onMessage]
  by_cases hhead : kHeaderLen ≤ conn.input.readableBytes
  · rw [if_pos hhead]
    exact dif_neg fun hall => h ⟨hhead, hall⟩
  · rw [if_neg hhead]

/-- The frame that has arrived is the one the framing cuts off. -/
theorem next?_of_arrived {buf : Net.Buffer} (h : Arrived buf) :
    let f := buf.peek.take (requestHeadSize + (headLen buf.peek).toNat)
    framing.IsFrame f ∧ framing.next? buf.readable
      = some (f, buf.readable.drop ((headLen buf.peek).toNat + requestHeadSize)) := by
  obtain ⟨hhead, hall⟩ := h
  have hlen := Net.Buffer.length_readable buf
  have hpeek : headLen buf.readable = headLen buf.peek := by
    apply headLen_congr
    rw [Net.Buffer.readable, List.take_take, Nat.min_eq_left (show 4 ≤ _ from hhead)]
  have hf : buf.readable.take (requestHeadSize + (headLen buf.peek).toNat)
      = buf.peek.take (requestHeadSize + (headLen buf.peek).toNat) := by
    rw [Net.Buffer.readable, List.take_take, Nat.min_eq_left (by omega)]
  intro f
  have hfl : f.length = requestHeadSize + (headLen buf.peek).toNat := by
    show (buf.peek.take _).length = _
    rw [← hf, List.length_take, hlen]
    omega
  refine ⟨?_, ?_⟩
  · have hl : headLen f = headLen buf.peek := by
      apply headLen_congr
      show (buf.peek.take _).take 4 = _
      rw [List.take_take, Nat.min_eq_left
        (show 4 ≤ requestHeadSize + (headLen buf.peek).toNat from Nat.le_add_right _ _)]
    rw [isFrame_iff, hl, hfl]
    exact ⟨Nat.le_add_right _ _, rfl⟩
  · unfold Framing.next?
    rw [show framing.size? buf.readable = some (requestHeadSize + (headLen buf.peek).toNat) from by
      rw [← hpeek]
      exact if_pos (by rw [hlen]; exact hhead)]
    simp only
    rw [if_pos (by rw [hlen]; omega), hf, Nat.add_comm (headLen buf.peek).toNat]

theorem incomplete_of_not_arrived {buf : Net.Buffer} (h : ¬ Arrived buf) :
    framing.Incomplete buf.readable := by
  have hlen := Net.Buffer.length_readable buf
  unfold Framing.Incomplete Framing.next?
  by_cases hhead : requestHeadSize ≤ buf.readableBytes
  · have hpeek : headLen buf.readable = headLen buf.peek := by
      apply headLen_congr
      rw [Net.Buffer.readable, List.take_take, Nat.min_eq_left (show 4 ≤ _ from hhead)]
    rw [show framing.size? buf.readable = some (requestHeadSize + (headLen buf.peek).toNat) from by
      rw [← hpeek]
      exact if_pos (by rw [hlen]; exact hhead)]
    exact if_neg fun hc => h ⟨hhead, by rw [hlen] at hc; omega⟩
  · rw [show framing.size? buf.readable = none from if_neg (by rw [hlen]; exact hhead)]

/-- `onMessage` takes the frames off its buffer and answers each. -/
theorem observe_onMessage : ∀ conn : Connection,
    observe <$> onMessage setup conn
      = framing.drain (answerNext setup) conn.sent conn.input.readable := by
  intro conn
  induction hn : conn.input.readableBytes using Nat.strong_induction_on generalizing conn with
  | _ n ih =>
      subst hn
      by_cases h : Arrived conn.input
      · obtain ⟨hframe, hnext⟩ := next?_of_arrived h
        rw [onMessage_of_arrived setup h, Framing.drain_some hnext, map_bind, answerNext,
          ← response_serveFrame setup conn.cleared hframe, bind_map_left, bind_assoc]
        refine bind_congr fun session => ?_
        rw [pure_bind]
        refine (ih _ ?_ _ rfl).trans ?_
        · rw [← Net.Buffer.length_readable, Net.Buffer.readable_retrieve, List.length_drop,
            Net.Buffer.length_readable]
          have := h.1
          simp only [requestHeadSize] at this ⊢
          omega
        · rw [Net.Buffer.readable_retrieve]
      · rw [onMessage_of_not_arrived setup h, Framing.drain_none (incomplete_of_not_arrived h),
          map_pure]
        rfl

/-! ### Environments -/

/-- What comes of code that is run in an environment. -/
def outcome {σ α : Type} (h : Prog.Handler Call Reply σ) (w : σ) (x : Serve α) :
    Except Signal α × σ :=
  Prog.run h x.run w

theorem outcome_bind {σ α β : Type} (h : Prog.Handler Call Reply σ) (w : σ) (x : Serve α)
    (k : α → Serve β) :
    outcome h w (x >>= k) = match outcome h w x with
      | (.ok a, w) => outcome h w (k a)
      | (.error e, w) => (.error e, w) := by
  unfold outcome
  rw [ExceptT.run_bind, Prog.run_bind]
  obtain ⟨_ | a, w'⟩ := Prog.run h x.run w <;> rfl

theorem outcome_map {σ α β : Type} (h : Prog.Handler Call Reply σ) (w : σ) (g : α → β)
    (x : Serve α) :
    outcome h w (g <$> x) = ((outcome h w x).1.map g, (outcome h w x).2) := by
  rw [← bind_pure_comp, outcome_bind]
  rcases outcome h w x with ⟨e | a, w'⟩ <;> rfl

/-- An executed command answers with what it writes, unless its operation leaves by a
signal: an exception is caught and nothing is answered, a crash is a crash. -/
theorem outcome_executeFrame {setup : Setup} {f : Bytes} {c : Command}
    (hc : action? setup (headCmd f) = some c) {args : c.Args} {rest : JInStream}
    (hread : c.read (f.drop requestHeadSize) = some (args, rest)) {σ : Type}
    (h : Prog.Handler Call Reply σ) (w : σ) :
    outcome h w (executeFrame setup f)
      = match ((c.service args).start (c.locals args)).run h w with
        | ((.ok ret, l), w) =>
            (.ok (c.write (headCmd f) (errorOf c.errors ret).1 (errorOf c.errors ret).2 l .init).data, w)
        | ((.error (.exception _), _), w) => (.ok [], w)
        | ((.error (.crash x), _), w) => (.error (.crash x), w) := by
  have hservice : outcome h w (runService (c.service args) (c.locals args))
      = match ((c.service args).start (c.locals args)).run h w with
        | ((.ok ret, l), w) => (.ok (ret, l), w)
        | ((.error e, _), w) => (.error e, w) := by
    unfold outcome runService
    rw [ExceptT.run_mk, Prog.run_bind]
    obtain ⟨⟨_ | ret, l⟩, w'⟩ := ((c.service args).start (c.locals args)).run h w <;> rfl
  have hexec : outcome h w (JOutStream.data <$>
      c.execute (headCmd f) (f.drop requestHeadSize) .init)
      = match ((c.service args).start (c.locals args)).run h w with
        | ((.ok ret, l), w) =>
            (.ok (c.write (headCmd f) (errorOf c.errors ret).1 (errorOf c.errors ret).2 l .init).data, w)
        | ((.error e, _), w) => (.error e, w) := by
    unfold Command.execute
    rw [hread]
    show outcome h w (JOutStream.data <$> (runService (c.service args) (c.locals args) >>= _)) = _
    rw [map_bind, outcome_bind, hservice]
    obtain ⟨⟨_ | ret, l⟩, w'⟩ := ((c.service args).start (c.locals args)).run h w <;> rfl
  unfold executeFrame
  rw [hc]
  show outcome h w (tryCatch _ _) = _
  unfold outcome at hexec ⊢
  rw [ExceptT.run_tryCatch, Prog.run_bind, hexec]
  obtain ⟨⟨(_ | _) | ret, l⟩, w'⟩ := ((c.service args).start (c.locals args)).run h w <;> rfl

/-! ### Deliveries -/

/-- A delivery feeds the reader. -/
theorem observe_deliver (conn : Connection) (chunk : Bytes) :
    observe <$> deliver setup conn chunk = framing.feed (answerNext setup) (observe conn) chunk := by
  unfold deliver Framing.feed
  rw [observe_onMessage, Net.Buffer.readable_append]
  rfl

theorem observe_deliverAll (chunks : List Bytes) : ∀ conn : Connection,
    observe <$> chunks.foldlM (deliver setup) conn
      = chunks.foldlM (framing.feed (answerNext setup)) (observe conn) := by
  induction chunks with
  | nil => intro conn; simp
  | cons chunk rest ih =>
      intro conn
      rw [List.foldlM_cons, List.foldlM_cons, map_bind, ← observe_deliver, bind_map_left]
      exact bind_congr fun conn' => ih conn'

/-- A new connection to which a stream is delivered in pieces, up to an unfinished frame. -/
theorem observe_frames {frames chunks : List Bytes} {tail : Bytes}
    (hf : ∀ f ∈ frames, framing.IsFrame f) (ht : framing.Incomplete tail)
    (hc : chunks.flatten = frames.flatten ++ tail) :
    observe <$> chunks.foldlM (deliver setup) onConnection = (do
      let sent ← frames.foldlM (answerNext setup) []
      return (sent, tail)) := by
  rw [observe_deliverAll]
  refine (Framing.feedAll_eq_drain chunks _ _ framing.incomplete_nil).trans ?_
  rw [List.nil_append, hc]
  exact Framing.drain_frames frames tail hf ht _

/-- The answers, one behind the other, are those to the single frames. -/
theorem foldlM_answerNext (frames : List Bytes) : ∀ sent : List Bytes,
    frames.foldlM (answerNext setup) sent
      = (fun replies => sent ++ replies) <$> frames.mapM (answerFrame setup) := by
  induction frames with
  | nil => intro sent; simp
  | cons f rest ih =>
      intro sent
      rw [List.foldlM_cons, List.mapM_cons, answerNext, bind_assoc, map_bind]
      refine bind_congr fun reply => ?_
      rw [pure_bind, ih, map_bind, ← bind_pure_comp]
      refine bind_congr fun replies => ?_
      simp

/-! ### Frames the server accepts -/

/-- A frame with a valid hash, a known command and a body that can be decoded. -/
structure ValidFrame (f : Bytes) : Prop where
  isFrame : framing.IsFrame f
  least : 8 ≤ (headLen f).toNat
  most : requestHeadSize + (headLen f).toNat ≤ bufferSize
  hash : EndsWithHash setup.crypto f f.length
  known : ∃ c, action? setup (headCmd f) = some c ∧ (c.read (f.drop requestHeadSize)).isSome

variable {setup}

/-- A valid frame is executed. -/
theorem ValidFrame.answerFrame_eq {f : Bytes} (h : ValidFrame setup f) :
    answerFrame setup f = executeFrame setup f := by
  have hlen := (isFrame_iff.mp h.isFrame).2
  have hverdict : verdict setup.crypto requestHeadSize f = .ok true := by
    have hhash := h.hash
    rw [hlen] at hhash
    unfold verdict
    rw [if_neg (by have := h.least; omega), if_pos hhash]
  unfold answerFrame
  rw [if_pos (by rw [hlen]; exact h.most), hverdict]
  rfl

private theorem mapM_answerFrame {frames : List Bytes} (h : ∀ f ∈ frames, ValidFrame setup f) :
    frames.mapM (answerFrame setup) = frames.mapM (executeFrame setup) := by
  induction frames with
  | nil => rfl
  | cons f rest ih =>
      rw [List.mapM_cons, List.mapM_cons, (h f (by simp)).answerFrame_eq,
        ih fun g hg => h g (by simp [hg])]

/-- **The cuts of the network do not matter.**  A stream of valid frames and the beginning
of another, delivered in any pieces, makes the server execute each frame once and in
order, send their replies in that order, and keep the unfinished frame. -/
theorem deliver_frames {frames chunks : List Bytes} {tail next : Bytes}
    (hvalid : ∀ f ∈ frames, ValidFrame setup f)
    (hnext : framing.IsFrame next) (htail : tail <+: next) (hstrict : tail ≠ next)
    (hchunks : chunks.flatten = frames.flatten ++ tail) :
    observe <$> chunks.foldlM (deliver setup) onConnection = (do
      let replies ← frames.mapM (executeFrame setup)
      return (replies, tail)) := by
  rw [observe_frames setup (fun f hf => (hvalid f hf).isFrame)
    (framing.incomplete_of_prefix hnext htail hstrict) hchunks, foldlM_answerNext, mapM_answerFrame hvalid]
  simp

/-- A request for the first page of a day's bill. -/
def dayBillFrame : Bytes :=
  [0, 8, 0, 22, 0, 0, 0, 0, 50, 48, 49, 52, 45, 48, 51, 45, 48, 50, 8, 4, 8, 4, 8, 4, 8, 4]

theorem validFrame_dayBillFrame : ValidFrame .zero dayBillFrame where
  isFrame := rfl
  least := by decide
  most := by decide
  hash := by decide
  known := ⟨Cmd.queryDayBill .zero, rfl, rfl⟩

/-- Cut inside the head of the first frame, and again inside the next one. -/
theorem deliver_frames_dayBill :
    observe <$> [[0, 8, 0], dayBillFrame.drop 3 ++ [0], [8]].foldlM (deliver .zero) onConnection
      = (do
        let replies ← [dayBillFrame].mapM (executeFrame .zero)
        return (replies, [0, 8])) :=
  deliver_frames (fun f hf => by rw [List.mem_singleton.mp hf]; exact validFrame_dayBillFrame)
    validFrame_dayBillFrame.isFrame ⟨dayBillFrame.drop 2, rfl⟩ (by decide) rfl

end Bank
