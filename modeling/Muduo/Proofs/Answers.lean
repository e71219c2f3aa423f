/-
Every request should get its reply.

A frame that is valid reaches the command it asks for, whatever the database then does.
An operation that answers a failure with -1 is always followed by a reply.  One that
rolls back is not: `Rollback` throws when the rollback has worked, which leaves the
client without a reply, and on a handle that was never opened it ends the process.
Such a request is answered after a failure only if the rollback fails as well.
-/
import Muduo.Proofs.Transactions
import Muduo.Proofs.Bills

namespace Bank

open Lib BankServer MysqlDB BankService

/-! ### What the commands are for -/

/-- The plan of a command, and whether it answers a failure by a rollback. -/
structure Purpose (c : Command) where
  plan : Dialect → Server → c.Args → Plan
  rollsBack : Bool

variable (setup : Setup)

/-- The plans of the commands, beside the commands. -/
def purposes : List (UInt16 × (c : Command) × Purpose c) :=
  [(CMD_LOGIN, ⟨Cmd.userLogin setup, fun d s (name, pass) => userLoginPlan d s name pass, false⟩),
    (CMD_OPEN_ACCOUNT, ⟨Cmd.openAccount setup,
      fun d s args => openAccountPlan d s ((Cmd.openAccount setup).locals args).account, true⟩),
    (CMD_DEPOSIT, ⟨Cmd.deposit setup,
      fun d s args => depositPlan d s ((Cmd.deposit setup).locals args).account, true⟩),
    (CMD_WITHDRAW, ⟨Cmd.withdrawal setup,
      fun d s args => withDrawPlan d s ((Cmd.withdrawal setup).locals args).account, true⟩),
    (CMD_TRANSFER, ⟨Cmd.transfer setup,
      fun d s args => transferPlan setup.sys d s ((Cmd.transfer setup).locals args).account
        args.2.2.2, true⟩),
    (CMD_BALANCE_INQUIRY, ⟨Cmd.balanceInquiry setup,
      fun d s args => balanceInquiryPlan d s ((Cmd.balanceInquiry setup).locals args).account, false⟩),
    (CMD_CHANGE_PASSWORD, ⟨Cmd.changePassword setup,
      fun d s args => changePasswordPlan d s ((Cmd.changePassword setup).locals args).account
        args.2.2, false⟩),
    (CMD_DAY_BILL, ⟨Cmd.queryDayBill setup,
      fun d s (page, date) => queryBillPlan d s (.day date) (Cmd.toInt32 page), false⟩),
    (CMD_HISTORY_BILL, ⟨Cmd.queryHistoryBill setup,
      fun d s (page, first, last) => queryBillPlan d s (.days first last) (Cmd.toInt32 page), false⟩),
    (CMD_ACCOUNT_HISTORY_BILL, ⟨Cmd.queryAccountHistoryBill setup,
      fun d s (page, account, first, last) =>
        queryBillPlan d s (.accountDays account first last) (Cmd.toInt32 page), false⟩),
    (CMD_CLOSE_ACCOUNT, ⟨Cmd.closeAccount setup,
      fun d s args => closeAccountPlan d s ((Cmd.closeAccount setup).locals args).account, false⟩)]

/-- The command a number stands for, with what it is for. -/
def purpose? (cmd : UInt16) : Option ((c : Command) × Purpose c) :=
  ((purposes setup).find? fun p => p.1 = cmd).map Prod.snd

variable {setup}

/-- What holds of every command of the table, and of what it is for. -/
theorem purpose?_of {P : UInt16 → (c : Command) → Purpose c → Prop}
    (h : ∀ a ∈ purposes setup, P a.1 a.2.1 a.2.2) {cmd : UInt16} {c : Command} {p : Purpose c}
    (hp : purpose? setup cmd = some ⟨c, p⟩) : P cmd c p := by
  obtain ⟨⟨cmd', c', p'⟩, hfind, heq⟩ := Option.map_eq_some_iff.mp hp
  obtain rfl : cmd' = cmd := by simpa using List.find?_some hfind
  cases heq
  exact h _ (List.mem_of_find?_eq_some hfind)

theorem action?_of_purpose? {cmd : UInt16} {c : Command} {p : Purpose c}
    (hp : purpose? setup cmd = some ⟨c, p⟩) : action? setup cmd = some c := by
  have hmap : actions setup = (purposes setup).map fun a => (a.1, a.2.1) := rfl
  obtain ⟨a, hfind, ha⟩ := Option.map_eq_some_iff.mp hp
  unfold action?
  rw [hmap, List.find?_map]
  show Option.map _ (Option.map _ ((purposes setup).find? fun p => p.1 = cmd)) = _
  rw [hfind, Option.map_some, Option.map_some, ha]

/-- Every command ends as its plan has it. -/
theorem purpose?_ends {cmd : UInt16} {c : Command} {p : Purpose c}
    (hp : purpose? setup cmd = some ⟨c, p⟩) (d : Dialect) (fault : Nat → Option Bytes) (args : c.Args)
    {w₀ : World} (hw : w₀.server.Fresh) :
    Ends d (.ofFaults fault) (p.plan d w₀.server args) p.rollsBack (c.service args) (c.locals args)
      w₀ := by
  refine purpose?_of (P := fun _ c p => ∀ args : c.Args, Ends d (.ofFaults fault)
    (p.plan d w₀.server args) p.rollsBack (c.service args) (c.locals args) w₀) ?_ hp args
  have hnew : ∀ account, (Cmd.localsOf setup account).New := fun _ => ⟨rfl, rfl⟩
  simp only [purposes, List.forall_mem_cons]
  refine ⟨?_, ?_, ?_, ?_, ?_, ?_, ?_, ?_, ?_, ?_, ?_, by simp⟩
  · exact fun args => userLogin_ends hw (hnew _) _ _
  · exact fun args => openAccount_ends hw (hnew _)
  · exact fun args => deposit_ends _ hw (hnew _)
  · exact fun args => withDraw_ends _ hw (hnew _)
  · exact fun args => transfer_ends _ hw (hnew _) _
  · exact fun args => balanceInquiry_ends _ hw (hnew _)
  · exact fun args => changePassword_ends hw (hnew _) _
  · exact fun args => queryBill_ends _ hw (hnew _) _ _
  · exact fun args => queryBill_ends _ hw (hnew _) _ _
  · exact fun args => queryBill_ends _ hw (hnew _) _ _
  · exact fun args => closeAccount_ends _ hw (hnew _)

/-! ### Codes -/

private theorem ret_nonneg_checkedPlan {d : Dialect} {db : Database} {a : Account} {calls : Nat}
    {h : 2 ≤ calls} {plan : BankAccount → Plan} (hplan : ∀ r, 0 ≤ (plan r).ret) :
    0 ≤ (checkedPlan d db a calls h plan).ret :=
  checkedPlan_of (P := fun plan => 0 ≤ plan.ret) (fun _ _ => (by decide : (0 : Int) ≤ 2))
    (fun _ _ => (by decide : (0 : Int) ≤ 3)) hplan

private theorem ret_nonneg_booking (sys : System) (d : Dialect) (s : Server) (a : Account)
    (b : Booking) : 0 ≤ (b.plan sys d s a).ret := by
  cases b with
  | deposit =>
      show 0 ≤ (depositPlan d s a).ret
      unfold depositPlan
      split
      · exact (by decide : (0 : Int) ≤ 2)
      · exact le_refl _
  | withDraw =>
      refine ret_nonneg_checkedPlan (h := by decide) fun r => ?_
      split
      · exact (by decide : (0 : Int) ≤ 4)
      · exact le_refl _
  | transfer other =>
      refine ret_nonneg_checkedPlan (h := by decide) fun r => ?_
      split
      · exact (by decide : (0 : Int) ≤ 4)
      · split
        · exact (by decide : (0 : Int) ≤ 5)
        · exact le_refl _

/-- No plan is to answer with -1. -/
theorem purpose?_ret {cmd : UInt16} {c : Command} {p : Purpose c}
    (hp : purpose? setup cmd = some ⟨c, p⟩) (d : Dialect) (s : Server) (args : c.Args) :
    0 ≤ (p.plan d s args).ret := by
  refine purpose?_of (P := fun _ c p => ∀ args : c.Args, 0 ≤ (p.plan d s args).ret) ?_ hp args
  have hbill : ∀ filter page, 0 ≤ (queryBillPlan d s filter page).ret := by
    intro filter page
    show (0 : Int) ≤ if _ then 6 else 0
    split <;> decide
  simp only [purposes, List.forall_mem_cons]
  refine ⟨?_, ?_, ?_, ?_, ?_, ?_, ?_, ?_, ?_, ?_, ?_, by simp⟩
  · intro args
    show (0 : Int) ≤ if _ then 1 else 0
    split <;> decide
  · exact fun args => le_refl (0 : Int)
  · exact fun args => ret_nonneg_booking setup.sys d s _ .deposit
  · exact fun args => ret_nonneg_booking setup.sys d s _ .withDraw
  · exact fun args => ret_nonneg_booking setup.sys d s _ (.transfer _)
  · exact fun args => ret_nonneg_checkedPlan (h := by decide) fun _ => le_refl (0 : Int)
  · exact fun args => ret_nonneg_checkedPlan (h := by decide) fun _ => le_refl (0 : Int)
  · exact fun args => hbill _ _
  · exact fun args => hbill _ _
  · exact fun args => hbill _ _
  · exact fun args => ret_nonneg_checkedPlan (h := by decide) fun _ => le_refl (0 : Int)

/-- A bill query that is to answer with zero has rows. -/
theorem purpose?_rows {cmd : UInt16} {c : Command} {p : Purpose c}
    (hp : purpose? setup cmd = some ⟨c, p⟩) (hbill : cmd ∈ billCommands) (d : Dialect) (s : Server)
    (args : c.Args) (hcode : (errorOf c.errors (p.plan d s args).ret).1 = 0) :
    (p.plan d s args).rows ≠ 0 := by
  have hrows : ∀ filter page, (errorOf [(6, Msg.noData), (-1, Msg.databaseError)]
      (queryBillPlan d s filter page).ret).1 = 0 → (queryBillPlan d s filter page).rows ≠ 0 := by
    intro filter page hcode hnil
    have hret : (queryBillPlan d s filter page).ret = 6 := if_pos (List.length_eq_zero_iff.mp hnil)
    rw [hret] at hcode
    exact absurd hcode (by decide)
  revert args
  refine purpose?_of (P := fun cmd c p => cmd ∈ billCommands → ∀ args : c.Args,
    (errorOf c.errors (p.plan d s args).ret).1 = 0 → (p.plan d s args).rows ≠ 0) ?_ hp hbill
  simp only [purposes, List.forall_mem_cons]
  refine ⟨?_, ?_, ?_, ?_, ?_, ?_, ?_, ?_, ?_, ?_, ?_, by simp⟩
  · exact fun h => absurd h (by decide)
  · exact fun h => absurd h (by decide)
  · exact fun h => absurd h (by decide)
  · exact fun h => absurd h (by decide)
  · exact fun h => absurd h (by decide)
  · exact fun h => absurd h (by decide)
  · exact fun h => absurd h (by decide)
  · exact fun _ args => hrows _ _
  · exact fun _ args => hrows _ _
  · exact fun _ args => hrows _ _
  · exact fun h => absurd h (by decide)

/-- The error code -1 is for the code -1 and for no other. -/
theorem errorOf_eq_neg_one {cmd : UInt16} {c : Command} (hc : action? setup cmd = some c) (ret : Int) :
    (errorOf c.errors ret).1 = -1 ↔ ret = -1 := by
  constructor
  · intro h
    unfold errorOf at h
    cases hfind : c.errors.find? fun e => e.1.toInt = ret with
    | none =>
        rw [hfind] at h
        exact absurd h (by decide)
    | some e =>
        rw [hfind] at h
        have hret : e.1.toInt = ret := by simpa using List.find?_some hfind
        rw [← hret, show e.1 = -1 from h]
        rfl
  · rintro rfl
    have hall : ∀ a ∈ actions setup, (errorOf a.2.errors (-1)).1 = -1 := by
      simp only [actions, List.forall_mem_cons]
      refine ⟨?_, ?_, ?_, ?_, ?_, ?_, ?_, ?_, ?_, ?_, ?_, by simp⟩ <;> rfl
    exact hall _ (mem_actions setup hc)

/-! ### Replies -/

/-- A reply that begins with the head of a packet. -/
def Headed (cmd : UInt16) (code : Int16) (reply : Bytes) : Prop :=
  ∃ len cnt msg rest, reply = (ResponseHead.mk cmd len cnt 0 code msg).bytes ++ rest

/-- A reply of a command: what it writes, beginning with a head that carries the command
and the error code. -/
structure IsReply (c : Command) (cmd : UInt16) (code : Int16) (reply : Bytes) : Prop where
  written : ∃ msg l, reply = (c.write cmd code msg l .init).data
  headed : Headed cmd code reply

private theorem headed_writePacket (setup : Setup) (cmd cnt : UInt16) (code : Int16) (msg : Bytes)
    {body : JOutStream → JOutStream} {d : Bytes} (hbody : JOutStream.Appends body d) :
    Headed cmd code (writePacket setup.crypto cmd cnt 0 code msg body .init).data := by
  obtain ⟨-, hdata⟩ := data_writePacket setup.crypto cmd cnt 0 code msg hbody JOutStream.inside_init
  rw [show JOutStream.init.data = [] from rfl, List.nil_append, List.append_assoc] at hdata
  exact ⟨_, _, _, _, hdata⟩

private theorem headed_writeReply (setup : Setup) {body : Locals → JOutStream → JOutStream}
    {d : Locals → Bytes} (hbody : ∀ l, JOutStream.Appends (body l) (d l)) (cmd : UInt16) (code : Int16)
    (msg : Bytes) (l : Locals) : Headed cmd code (Cmd.writeReply setup body cmd code msg l .init).data := by
  unfold Cmd.writeReply
  split
  · exact headed_writePacket setup cmd 0 code msg (hbody l)
  · exact headed_writePacket setup cmd 0 code msg JOutStream.Appends.nil

private theorem headed_writeBill (setup : Setup)
    {rows : UInt16 → UInt16 → Bytes → UInt16 → List TransDetail → JOutStream → JOutStream}
    {cmd : UInt16}
    (hrows : ∀ cnt msg td rest, Headed cmd 0 (rows cmd cnt msg 0 (td :: rest) .init).data)
    (code : Int16) (msg : Bytes) {l : Locals} (hl : code = 0 → l.result ≠ []) :
    Headed cmd code (Cmd.writeBill setup rows cmd code msg l .init).data := by
  unfold Cmd.writeBill
  by_cases hcode : code = 0
  · obtain ⟨td, rest, htd⟩ := List.exists_cons_of_ne_nil (hl hcode)
    subst hcode
    rw [if_pos rfl, htd]
    exact hrows _ msg td rest
  · rw [if_neg hcode]
    exact headed_writePacket setup cmd 0 code msg JOutStream.Appends.nil

private theorem Headed.append {cmd : UInt16} {code : Int16} {reply : Bytes} (h : Headed cmd code reply)
    (more : Bytes) : Headed cmd code (reply ++ more) := by
  obtain ⟨len, cnt, msg, rest, rfl⟩ := h
  exact ⟨len, cnt, msg, rest ++ more, List.append_assoc _ _ _⟩

/-- The packets of a bill go on behind what the stream holds. -/
private theorem writeRowsApart_extends (setup : Setup) (cmd cnt : UInt16) (msg : Bytes)
    (rows : List TransDetail) : ∀ (seq : UInt16) {jos : JOutStream}, jos.Inside →
      ∃ more, (Cmd.writeRowsApart setup cmd cnt msg seq rows jos).data = jos.data ++ more := by
  induction rows with
  | nil => exact fun seq jos _ => ⟨[], (List.append_nil _).symm⟩
  | cons td rest ih =>
      intro seq jos hin
      obtain ⟨hin', hdata⟩ := JOutStream.appends_writeBytes
        (writePacket setup.crypto cmd cnt seq 0 msg (Cmd.billBody setup td) .init).data jos hin
      obtain ⟨more, hmore⟩ := ih (seq + 1) hin'
      rw [Cmd.writeRowsApart, hmore, hdata, List.append_assoc]
      exact ⟨_, rfl⟩

/-- The packet of the first row comes first. -/
private theorem writeRowsApart_cons (setup : Setup) (cmd cnt seq : UInt16) (msg : Bytes)
    (td : TransDetail) (rest : List TransDetail) {jos : JOutStream} (hin : jos.Inside) :
    ∃ more, (Cmd.writeRowsApart setup cmd cnt msg seq (td :: rest) jos).data
      = jos.data ++ ((writePacket setup.crypto cmd cnt seq 0 msg (Cmd.billBody setup td) .init).data
        ++ more) := by
  obtain ⟨hin', hdata⟩ := JOutStream.appends_writeBytes
    (writePacket setup.crypto cmd cnt seq 0 msg (Cmd.billBody setup td) .init).data jos hin
  obtain ⟨more, hmore⟩ := writeRowsApart_extends setup cmd cnt msg rest (seq + 1) hin'
  rw [Cmd.writeRowsApart, hmore, hdata, List.append_assoc]
  exact ⟨_, rfl⟩

private theorem writeRowsInto_cons (setup : Setup) (cmd cnt seq : UInt16) (msg : Bytes)
    (td : TransDetail) (rest : List TransDetail) {jos : JOutStream} (hin : jos.Inside) :
    ∃ more, (Cmd.writeRowsInto setup cmd cnt msg seq (td :: rest) jos).data
      = (writePacket setup.crypto cmd cnt seq 0 msg (Cmd.billBody setup td) jos).data ++ more := by
  obtain ⟨hin', -⟩ := data_writePacket setup.crypto cmd cnt seq 0 msg (appends_billBody setup td) hin
  obtain ⟨more, hmore⟩ := writeRowsInto_extends setup cmd cnt msg rest (seq + 1) hin'
  rw [Cmd.writeRowsInto, hmore]
  exact ⟨_, rfl⟩

private theorem headed_writeRowsApart (setup : Setup) (cmd cnt : UInt16) (msg : Bytes)
    (td : TransDetail) (rest : List TransDetail) :
    Headed cmd 0 (Cmd.writeRowsApart setup cmd cnt msg 0 (td :: rest) .init).data := by
  obtain ⟨more, hmore⟩ := writeRowsApart_cons setup cmd cnt 0 msg td rest JOutStream.inside_init
  rw [hmore, show JOutStream.init.data = [] from rfl, List.nil_append]
  exact (headed_writePacket setup cmd cnt 0 msg (appends_billBody setup td)).append more

private theorem headed_writeRowsInto (setup : Setup) (cmd cnt : UInt16) (msg : Bytes)
    (td : TransDetail) (rest : List TransDetail) :
    Headed cmd 0 (Cmd.writeRowsInto setup cmd cnt msg 0 (td :: rest) .init).data := by
  obtain ⟨more, hmore⟩ := writeRowsInto_cons setup cmd cnt 0 msg td rest JOutStream.inside_init
  rw [hmore]
  exact (headed_writePacket setup cmd cnt 0 msg (appends_billBody setup td)).append more

/-- What a command writes begins with the head of a packet, if a bill has rows. -/
theorem headed_write {cmd : UInt16} {c : Command} (hc : action? setup cmd = some c) (code : Int16)
    (msg : Bytes) {l : Locals} (hl : cmd ∈ billCommands → code = 0 → l.result ≠ []) :
    Headed cmd code (c.write cmd code msg l .init).data := by
  have hall : ∀ a ∈ actions setup, (a.1 ∈ billCommands → code = 0 → l.result ≠ []) →
      Headed a.1 code (a.2.write a.1 code msg l .init).data := by
    simp only [actions, List.forall_mem_cons]
    refine ⟨?_, ?_, ?_, ?_, ?_, ?_, ?_, ?_, ?_, ?_, ?_, by simp⟩
    · exact fun _ => headed_writeReply setup (fun _ => JOutStream.Appends.nil) _ _ _ l
    · exact fun _ => headed_writePacket setup _ 0 _ _ (appends_openBody setup l)
    · exact fun _ => headed_writeReply setup (appends_balanceBody setup) _ _ _ _
    · exact fun _ => headed_writeReply setup (appends_balanceBody setup) _ _ _ _
    · exact fun _ => headed_writeReply setup (appends_balanceBody setup) _ _ _ _
    · exact fun _ => headed_writeReply setup (appends_balanceBody setup) _ _ _ _
    · exact fun _ => headed_writeReply setup (fun _ => JOutStream.Appends.nil) _ _ _ l
    · exact fun h => headed_writeBill setup (headed_writeRowsApart setup _) code msg (h (by decide))
    · exact fun h => headed_writeBill setup (headed_writeRowsInto setup _) code msg (h (by decide))
    · exact fun h => headed_writeBill setup (headed_writeRowsInto setup _) code msg (h (by decide))
    · exact fun _ => headed_writeReply setup (appends_closeBody setup) _ _ _ _
  exact hall _ (mem_actions setup hc) hl

/-! ### Answers -/

/-- A frame that comes to a connection is answered by one reply of its command, with the
error code -1 if and only if one of the calls has failed. -/
def Answered (setup : Setup) (d : Dialect) (fault : Nat → Option Bytes) (w₀ : World)
    (conn : Connection) (f : Bytes) (c : Command) (calls : Nat) : Prop :=
  ∃ conn' w' reply code,
    outcome (answer d (.ofFaults fault)) w₀ (deliver setup conn f) = (.ok conn', w') ∧
      observe conn' = (conn.sent ++ [reply], []) ∧ IsReply c (headCmd f) code reply ∧
      (code = -1 ↔ ∃ k, k < calls ∧ fault (w₀.calls + k) ≠ none)

/-- The operation does not roll back, or the first call that fails is a statement, and the
rollback fails as well. -/
def Recovers (fault : Nat → Option Bytes) (start calls : Nat) (rollsBack : Bool) : Prop :=
  rollsBack = true → ∀ k, k < calls → (Env.ofFaults fault).FirstFault start k →
    2 ≤ k ∧ fault (start + k + 1) ≠ none

/-- What can be seen of delivering one valid frame. -/
theorem outcome_deliver {f : Bytes} (hf : ValidFrame setup f) {conn : Connection}
    (hconn : conn.input.readable = []) {σ : Type} (h : Prog.Handler Call Reply σ) (w : σ) :
    outcome h w (observe <$> deliver setup conn f)
      = match outcome h w (executeFrame setup f) with
        | (.ok reply, w) => (.ok (conn.sent ++ [reply], []), w)
        | (.error e, w) => (.error e, w) := by
  have hdrain : framing.drain (answerNext setup) conn.sent f
      = answerNext setup conn.sent f >>= fun s => pure (s, []) := by
    have hframes : ∀ g ∈ [f], framing.IsFrame g := by simpa using hf.isFrame
    have hone : framing.drain (answerNext setup) conn.sent ([f].flatten ++ [])
        = ([f].foldlM (answerNext setup) conn.sent >>= fun s => pure (s, [])) :=
      Framing.drain_frames [f] [] hframes framing.incomplete_nil conn.sent
    simpa using hone
  rw [observe_deliver, observe, hconn, Framing.feed, List.nil_append, hdrain, answerNext,
    hf.answerFrame_eq, bind_assoc, outcome_bind]
  rcases outcome h w (executeFrame setup f) with ⟨e | reply, w'⟩ <;> rfl

variable {d : Dialect} {fault : Nat → Option Bytes} {w₀ : World}

/-- Two first failures are one. -/
theorem Env.FirstFault.unique {env : Env} {start j k : Nat} (hj : env.FirstFault start j)
    (hk : env.FirstFault start k) : j = k := by
  rcases Nat.lt_trichotomy j k with hlt | heq | hlt
  · exact absurd (hk.1 j hlt) hj.2
  · exact heq
  · exact absurd (hj.1 k hlt) hk.2

/-- An operation that returns is followed by a reply. -/
theorem isReply_of_returns {cmd : UInt16} {c : Command} {p : Purpose c}
    (hp : purpose? setup cmd = some ⟨c, p⟩) {args : c.Args} {ret : Int} {l : Locals} {w' : World}
    (h : Returns (.ofFaults fault) (p.plan d w₀.server args) p.rollsBack w₀ ret l w') :
    let e := errorOf c.errors ret
    IsReply c cmd e.1 (c.write cmd e.1 e.2 l .init).data ∧
      (e.1 = -1 ↔ ∃ k, k < (p.plan d w₀.server args).calls ∧ fault (w₀.calls + k) ≠ none) := by
  intro e
  have hc := action?_of_purpose? hp
  have hcode := errorOf_eq_neg_one hc ret
  obtain ⟨-, ⟨hret, -, hrows, hclear, -⟩ | ⟨hret, k, hk, hfirst, -⟩⟩ := h
  · refine ⟨⟨⟨e.2, l, rfl⟩, headed_write hc _ _ fun hbill hzero hnil => ?_⟩, ?_⟩
    · refine purpose?_rows hp hbill d w₀.server args (hret ▸ hzero) ?_
      rw [← hrows, hnil]
      rfl
    · have hne : ret ≠ -1 := by
        have := purpose?_ret hp d w₀.server args
        omega
      refine ⟨fun h => absurd (hcode.mp h) hne, ?_⟩
      rintro ⟨k, hk, hfault⟩
      exact absurd (hclear k hk) hfault
  · have hneg : e.1 = -1 := hcode.mpr hret
    refine ⟨⟨⟨e.2, l, rfl⟩, headed_write hc _ _ fun _ hzero => ?_⟩, fun _ => ⟨k, hk, hfirst.2⟩,
      fun _ => hneg⟩
    exact absurd (hneg.symm.trans hzero) (by decide)

/-- A request that is answered has no failure but such as it recovers from: when the
operation leaves by a signal there is no reply. -/
theorem recovers_of_answered {f : Bytes} (hf : ValidFrame setup f) {c : Command} {p : Purpose c}
    (hp : purpose? setup (headCmd f) = some ⟨c, p⟩) {args : c.Args} {rest : JInStream}
    (hread : c.read (f.drop requestHeadSize) = some (args, rest)) (hw : w₀.server.Fresh)
    {conn : Connection} (hconn : conn.input.readable = [])
    (h : Answered setup d fault w₀ conn f c (p.plan d w₀.server args).calls) :
    Recovers fault w₀.calls (p.plan d w₀.server args).calls p.rollsBack := by
  have hends := purpose?_ends hp d fault args hw
  unfold Ends at hends
  rw [Proc.wp, Prog.wp_ofHandler] at hends
  have hexec := outcome_executeFrame (action?_of_purpose? hp) hread (answer d (.ofFaults fault)) w₀
  have hdeliver := outcome_deliver hf hconn (answer d (.ofFaults fault)) w₀
  rw [outcome_map] at hdeliver
  obtain ⟨conn', w'', reply, code, hout, hobs, hreply, -⟩ := h
  rcases hrun : ((c.service args).start (c.locals args)).run (answer d (.ofFaults fault)) w₀
    with ⟨⟨e | ret, l⟩, w'⟩
  · rw [hrun] at hends hexec
    obtain ⟨-, -, k, hk, hfirst, -, hleave⟩ := hends
    rw [hout, hexec] at hdeliver
    have hseen := congrArg Prod.fst hdeliver
    simp only [Except.map, hobs] at hseen
    obtain ⟨-, rfl⟩ | ⟨-, -, rfl⟩ := hleave
    · cases hseen
    · have hnil : reply = [] := by simpa [dbError] using hseen
      obtain ⟨len, cnt, msg, more, hhead⟩ := hreply.headed
      have hlen := congrArg List.length (hnil.symm.trans hhead)
      rw [List.length_append, ResponseHead.length_bytes] at hlen
      simp only [responseHeadSize, List.length_nil] at hlen
      omega
  · rw [hrun] at hends
    intro hback k hk hfirst
    obtain ⟨-, ⟨-, -, -, hclear, -⟩ | ⟨-, j, -, hfirst', -, hrec⟩⟩ := hends
    · exact absurd (hclear k hk) hfirst.2
    · obtain rfl := hfirst.unique hfirst'
      exact hrec hback

theorem answered_of_recovers {f : Bytes} (hf : ValidFrame setup f) {c : Command} {p : Purpose c}
    (hp : purpose? setup (headCmd f) = some ⟨c, p⟩) {args : c.Args} {rest : JInStream}
    (hread : c.read (f.drop requestHeadSize) = some (args, rest)) (hw : w₀.server.Fresh)
    {conn : Connection} (hconn : conn.input.readable = [])
    (h : Recovers fault w₀.calls (p.plan d w₀.server args).calls p.rollsBack) :
    Answered setup d fault w₀ conn f c (p.plan d w₀.server args).calls := by
  have hends := purpose?_ends hp d fault args hw
  unfold Ends at hends
  rw [Proc.wp, Prog.wp_ofHandler] at hends
  have hexec := outcome_executeFrame (action?_of_purpose? hp) hread (answer d (.ofFaults fault)) w₀
  have hdeliver := outcome_deliver hf hconn (answer d (.ofFaults fault)) w₀
  rw [outcome_map] at hdeliver
  rcases hrun : ((c.service args).start (c.locals args)).run (answer d (.ofFaults fault)) w₀
    with ⟨⟨e | ret, l⟩, w'⟩
  · rw [hrun] at hends
    obtain ⟨-, hback, k, hk, hfirst, -, hleave⟩ := hends
    obtain ⟨h2, hnext⟩ := h hback k hk hfirst
    obtain ⟨hlt, -⟩ | ⟨-, hnone, -⟩ := hleave
    · omega
    · exact absurd hnone hnext
  · rw [hrun] at hends hexec
    obtain ⟨hreply, hcode⟩ := isReply_of_returns hp hends
    rw [hexec] at hdeliver
    rcases hout : outcome (answer d (.ofFaults fault)) w₀ (deliver setup conn f) with ⟨e | conn', w''⟩
    · rw [hout] at hdeliver
      cases hdeliver
    · rw [hout] at hdeliver
      simp only [Except.map, Prod.mk.injEq, Except.ok.injEq] at hdeliver
      exact ⟨conn', w'', _, _, hout, hdeliver.1, hreply, hcode⟩

/-- **Which requests are answered.**  A valid frame gets its reply exactly if its command
does not roll back, or no call fails, or the first that fails is a statement and the
rollback behind it fails too. -/
theorem answered_iff {f : Bytes} (hf : ValidFrame setup f) {c : Command} {p : Purpose c}
    (hp : purpose? setup (headCmd f) = some ⟨c, p⟩) {args : c.Args} {rest : JInStream}
    (hread : c.read (f.drop requestHeadSize) = some (args, rest)) (hw : w₀.server.Fresh)
    {conn : Connection} (hconn : conn.input.readable = []) :
    Answered setup d fault w₀ conn f c (p.plan d w₀.server args).calls
      ↔ Recovers fault w₀.calls (p.plan d w₀.server args).calls p.rollsBack :=
  ⟨recovers_of_answered hf hp hread hw hconn, answered_of_recovers hf hp hread hw hconn⟩

/-- A request to pay one yuan into account 1. -/
def depositFrame : Bytes :=
  [0, 3, 0, 17, 48, 48, 48, 48, 48, 49, 0, 1, 49, 3, 1, 3, 1, 3, 1, 3, 1]

theorem validFrame_depositFrame : ValidFrame .zero depositFrame where
  isFrame := rfl
  least := by decide
  most := by decide
  hash := by decide
  known := ⟨Cmd.deposit .zero, rfl, rfl⟩

/-- The database cannot be reached. -/
def unreachable (n : Nat) : Option Bytes := if n = 0 then some [] else none

/-- A day's bill is asked for when the database cannot be reached. -/
theorem answered_iff_dayBill :
    Answered .zero .plain unreachable smallWorld onConnection dayBillFrame (Cmd.queryDayBill .zero) 4
      ↔ Recovers unreachable 0 4 false :=
  answered_iff validFrame_dayBillFrame (c := Cmd.queryDayBill .zero) rfl rfl
    fresh_smallBank rfl

/-- A deposit is asked for when the database cannot be reached: the handle is `NULL`, and
the process ends in the rollback. -/
theorem not_answered_deposit :
    ¬ Answered .zero .plain unreachable smallWorld onConnection depositFrame (Cmd.deposit .zero) 8 := by
  intro h
  have hrec : Recovers unreachable 0 8 true := recovers_of_answered
    validFrame_depositFrame (c := Cmd.deposit .zero) rfl rfl fresh_smallBank rfl h
  have hfirst : (Env.ofFaults unreachable).FirstFault 0 0 := ⟨nofun, by decide⟩
  exact absurd (hrec rfl 0 (by decide) hfirst).1 (by decide)

end Bank
