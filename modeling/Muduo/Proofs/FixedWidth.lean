/-
Fixed widths, copied out of strings of any length.

`WriteBytes(s.c_str(), n)` copies `n` bytes from where the string is kept.  They are the
string's own, its NUL among them, as long as `n` is at most one more than its length; what is
copied beyond that is whatever lies behind the string.  The dates and the number of a new
account are long enough.  The two account numbers of a bill's row are as long as they happen
to be, and the second may be missing.

The other way round, a password is decrypted into sixteen bytes and read up to the first NUL.
If there is none among them, reading goes on behind the array.
-/
import Muduo.Proofs.BillPages
import Muduo.Proofs.Messages
import Muduo.Proofs.MysqlRules

namespace Bank

open Lib MysqlDB BankService JInStream

/-! ### Copies -/

/-- A copy of so many bytes of a string stays within the string and its NUL. -/
def Inside (p : Nat × Bytes) : Prop := p.1 ≤ p.2.length + 1

/-- What is copied for a row of a bill. -/
def rowCopies (td : TransDetail) : List (Nat × Bytes) :=
  [(19, td.transDate), (6, td.accountId), (6, td.otherAccountId)]

/-- What a command copies into its reply: how many bytes, out of which string. -/
def copies (cmd : UInt16) (errorCode : Int16) (l : Locals) : List (Nat × Bytes) :=
  if cmd = CMD_OPEN_ACCOUNT then [(6, paddedText 6 l.account.accountId)]
  else if errorCode ≠ 0 ∨ cmd = CMD_LOGIN ∨ cmd = CMD_CHANGE_PASSWORD then []
  else if cmd ∈ [CMD_DAY_BILL, CMD_HISTORY_BILL, CMD_ACCOUNT_HISTORY_BILL] then
    l.result.flatMap rowCopies
  else [(19, l.account.opDate)]

/-- The same server, with something else in the memory behind its strings. -/
def Setup.withMem (setup : Setup) (mem : Nat → UInt8) : Setup :=
  setup.withJunk { setup.sys.junk with mem := mem }

/-- The same server, with something else behind the array of a password. -/
def Setup.withStack (setup : Setup) (stack : Bytes) : Setup :=
  setup.withJunk { setup.sys.junk with stack := stack }

variable {setup : Setup} {mem : Nat → UInt8}

/-- Within its bounds a copy does not show the memory. -/
theorem cBytes_of_inside {s : Bytes} {n : Nat} (h : Inside (n, s)) (mem mem' : Nat → UInt8) :
    cBytes mem s n = cBytes mem' s n := by
  have hone : ∀ m : Nat → UInt8, cBytes m s n = (s ++ [0]).take n := by
    intro m
    rw [cBytes, ← List.singleton_append, ← List.append_assoc]
    refine List.take_append_of_le_length ?_
    rw [List.length_append, List.length_singleton]
    exact h
  rw [hone, hone]

theorem writeChars_withMem {s : Bytes} {n : Nat} (h : Inside (n, s)) (jos : JOutStream) :
    Cmd.writeChars (setup.withMem mem) n s jos = Cmd.writeChars setup n s jos := by
  unfold Cmd.writeChars
  rw [cBytes_of_inside h _ setup.sys.junk.mem]

theorem billBody_withMem {td : TransDetail} (h : ∀ p ∈ rowCopies td, Inside p) :
    Cmd.billBody (setup.withMem mem) td = Cmd.billBody setup td := by
  funext jos
  simp only [rowCopies, List.forall_mem_cons] at h
  simp only [Cmd.billBody, writeChars_withMem h.1, writeChars_withMem h.2.1,
    writeChars_withMem h.2.2.1]

theorem writeRowsApart_withMem (cmd cnt : UInt16) (msg : Bytes) (rows : List TransDetail) :
    ∀ (seq : UInt16) (jos : JOutStream), (∀ p ∈ rows.flatMap rowCopies, Inside p) →
      Cmd.writeRowsApart (setup.withMem mem) cmd cnt msg seq rows jos
        = Cmd.writeRowsApart setup cmd cnt msg seq rows jos := by
  induction rows with
  | nil => exact fun _ _ _ => rfl
  | cons td rest ih =>
      intro seq jos h
      rw [List.flatMap_cons, List.forall_mem_append] at h
      rw [Cmd.writeRowsApart, Cmd.writeRowsApart, billBody_withMem h.1]
      exact ih _ _ h.2

theorem writeRowsInto_withMem (cmd cnt : UInt16) (msg : Bytes) (rows : List TransDetail) :
    ∀ (seq : UInt16) (jos : JOutStream), (∀ p ∈ rows.flatMap rowCopies, Inside p) →
      Cmd.writeRowsInto (setup.withMem mem) cmd cnt msg seq rows jos
        = Cmd.writeRowsInto setup cmd cnt msg seq rows jos := by
  induction rows with
  | nil => exact fun _ _ _ => rfl
  | cons td rest ih =>
      intro seq jos h
      rw [List.flatMap_cons, List.forall_mem_append] at h
      rw [Cmd.writeRowsInto, Cmd.writeRowsInto, billBody_withMem h.1]
      exact ih _ _ h.2

/-! ### The commands, whatever the memory -/

/-- The commands, before they are given a server. -/
def commands : List (UInt16 × (Setup → Command)) :=
  [(CMD_LOGIN, Cmd.userLogin), (CMD_OPEN_ACCOUNT, Cmd.openAccount), (CMD_DEPOSIT, Cmd.deposit),
    (CMD_WITHDRAW, Cmd.withdrawal), (CMD_TRANSFER, Cmd.transfer),
    (CMD_BALANCE_INQUIRY, Cmd.balanceInquiry), (CMD_CHANGE_PASSWORD, Cmd.changePassword),
    (CMD_DAY_BILL, Cmd.queryDayBill), (CMD_HISTORY_BILL, Cmd.queryHistoryBill),
    (CMD_ACCOUNT_HISTORY_BILL, Cmd.queryAccountHistoryBill), (CMD_CLOSE_ACCOUNT, Cmd.closeAccount)]

theorem action?_eq_commands (setup : Setup) (cmd : UInt16) :
    action? setup cmd = (commands.find? fun a => a.1 = cmd).map fun a => a.2 setup := by
  have hmap : actions setup = commands.map fun a => (a.1, a.2 setup) := rfl
  unfold action?
  rw [hmap, List.find?_map, Option.map_map]
  rfl

/-! The operations use the storage behind numbers, and not the memory behind strings. -/

section

variable (setup mem)

theorem deposit_withMem : deposit (setup.withMem mem).sys = deposit setup.sys := rfl

theorem withDraw_withMem : withDraw (setup.withMem mem).sys = withDraw setup.sys := rfl

theorem transfer_withMem : transfer (setup.withMem mem).sys = transfer setup.sys := rfl

theorem balanceInquiry_withMem :
    balanceInquiry (setup.withMem mem).sys = balanceInquiry setup.sys := rfl

theorem closeAccount_withMem : closeAccount (setup.withMem mem).sys = closeAccount setup.sys := rfl

theorem toDetail_withMem : toDetail (setup.withMem mem).sys = toDetail setup.sys := rfl

theorem pushDetails_withMem (total : Int) (rs : Recordset) (is : List Nat) :
    pushDetails (setup.withMem mem).sys total rs is = pushDetails setup.sys total rs is := by
  induction is with
  | nil => rfl
  | cons i rest ih => rw [pushDetails, pushDetails, ih, toDetail_withMem]

theorem queryBill_withMem : queryBill (setup.withMem mem).sys = queryBill setup.sys := by
  funext filter page
  unfold queryBill
  simp only [pushDetails_withMem]
  rfl

end

/-- Only the writing of a command sees the memory, and that not if all copies are inside. -/
structure SeesCopies (cmd : UInt16) (k : Setup → Command) : Prop where
  same : ∀ setup mem,
    k (setup.withMem mem) = { k setup with write := (k (setup.withMem mem)).write }
  write : ∀ (setup : Setup) mem errorCode msg l jos, (∀ p ∈ copies cmd errorCode l, Inside p) →
    (k (setup.withMem mem)).write cmd errorCode msg l jos = (k setup).write cmd errorCode msg l jos

theorem writeReply_withMem (body body' : Locals → JOutStream → JOutStream) {cmd : UInt16}
    {errorCode : Int16} {msg : Bytes} {l : Locals} {jos : JOutStream}
    (hbody : errorCode = 0 → body' l = body l) :
    Cmd.writeReply (setup.withMem mem) body' cmd errorCode msg l jos
      = Cmd.writeReply setup body cmd errorCode msg l jos := by
  unfold Cmd.writeReply
  by_cases hcode : errorCode = 0
  · rw [if_pos hcode, if_pos hcode, hbody hcode]
    rfl
  · rw [if_neg hcode, if_neg hcode]
    rfl

theorem writeBill_withMem
    {rows rows' : UInt16 → UInt16 → Bytes → UInt16 → List TransDetail → JOutStream → JOutStream}
    {cmd : UInt16} {errorCode : Int16} {msg : Bytes} {l : Locals} {jos : JOutStream}
    (hrows : errorCode = 0 →
      ∀ cnt, rows' cmd cnt msg 0 l.result jos = rows cmd cnt msg 0 l.result jos) :
    Cmd.writeBill (setup.withMem mem) rows' cmd errorCode msg l jos
      = Cmd.writeBill setup rows cmd errorCode msg l jos := by
  unfold Cmd.writeBill
  by_cases hcode : errorCode = 0
  · rw [if_pos hcode, if_pos hcode, hrows hcode]
  · rw [if_neg hcode, if_neg hcode]
    rfl

theorem balanceBody_withMem {l : Locals} (h : Inside (19, l.account.opDate)) :
    Cmd.balanceBody (setup.withMem mem) l = Cmd.balanceBody setup l :=
  funext fun _ => writeChars_withMem h _

theorem closeBody_withMem {l : Locals} (h : Inside (19, l.account.opDate)) :
    Cmd.closeBody (setup.withMem mem) l = Cmd.closeBody setup l :=
  funext fun _ => writeChars_withMem h _

theorem openBody_withMem {l : Locals} (h : Inside (6, paddedText 6 l.account.accountId)) :
    Cmd.openBody (setup.withMem mem) l = Cmd.openBody setup l := by
  funext jos
  simp only [Cmd.openBody, writeChars_withMem h]

/-! The commands one by one. -/

private theorem seesCopies_plain {k : Setup → Command} {cmd : UInt16}
    (hsame : ∀ setup mem,
      k (setup.withMem mem) = { k setup with write := (k (setup.withMem mem)).write })
    (hwrite : ∀ setup, (k setup).write = Cmd.writeReply setup fun _ => id) : SeesCopies cmd k where
  same := hsame
  write := by
    intro setup mem errorCode msg l jos _
    rw [hwrite, hwrite]
    exact writeReply_withMem (fun _ => id) (fun _ => id) (l := l) fun _ => rfl

/-- A command that answers with a date behind other fields. -/
private theorem seesCopies_dated {k : Setup → Command} {cmd : UInt16}
    {body : Setup → Locals → JOutStream → JOutStream}
    (hsame : ∀ setup mem,
      k (setup.withMem mem) = { k setup with write := (k (setup.withMem mem)).write })
    (hwrite : ∀ setup, (k setup).write = Cmd.writeReply setup (body setup))
    (hbody : ∀ setup mem l, Inside (19, l.account.opDate) →
      body (setup.withMem mem) l = body setup l)
    (hcopies : ∀ l, copies cmd 0 l = [(19, l.account.opDate)]) : SeesCopies cmd k where
  same := hsame
  write := by
    intro setup mem errorCode msg l jos h
    rw [hwrite, hwrite]
    refine writeReply_withMem _ _ fun hcode => hbody _ _ _ ?_
    rw [hcode, hcopies] at h
    exact h _ List.mem_cons_self

/-- A command that answers with the rows of a bill. -/
private theorem seesCopies_bill {k : Setup → Command} {cmd : UInt16}
    {rows : Setup → UInt16 → UInt16 → Bytes → UInt16 → List TransDetail → JOutStream → JOutStream}
    (hsame : ∀ setup mem,
      k (setup.withMem mem) = { k setup with write := (k (setup.withMem mem)).write })
    (hwrite : ∀ setup, (k setup).write = Cmd.writeBill setup (rows setup))
    (hrows : ∀ setup mem cmd cnt msg l seq jos, (∀ p ∈ l.flatMap rowCopies, Inside p) →
      rows (setup.withMem mem) cmd cnt msg seq l jos = rows setup cmd cnt msg seq l jos)
    (hcopies : ∀ l, copies cmd 0 l = l.result.flatMap rowCopies) : SeesCopies cmd k where
  same := hsame
  write := by
    intro setup mem errorCode msg l jos h
    rw [hwrite, hwrite]
    refine writeBill_withMem fun hcode cnt => hrows _ _ _ _ _ _ _ _ ?_
    rwa [hcode, hcopies] at h

private theorem seesCopies_openAccount : SeesCopies CMD_OPEN_ACCOUNT Cmd.openAccount where
  same := fun _ _ => rfl
  write := by
    intro setup mem errorCode msg l jos h
    show writePacket setup.crypto _ _ _ _ _ (Cmd.openBody (setup.withMem mem) l) jos = _
    have hcopies : copies CMD_OPEN_ACCOUNT errorCode l = [(6, paddedText 6 l.account.accountId)] :=
      if_pos rfl
    rw [hcopies] at h
    rw [openBody_withMem (h _ List.mem_cons_self)]
    rfl

/-- Every command is like that. -/
theorem seesCopies {a : UInt16 × (Setup → Command)} (ha : a ∈ commands) : SeesCopies a.1 a.2 := by
  have hrows : ∀ (setup : Setup) mem cmd cnt msg l seq jos, (∀ p ∈ l.flatMap rowCopies, Inside p) →
      Cmd.writeRowsInto (setup.withMem mem) cmd cnt msg seq l jos
        = Cmd.writeRowsInto setup cmd cnt msg seq l jos :=
    fun setup mem cmd cnt msg l seq jos => writeRowsInto_withMem cmd cnt msg l seq jos
  revert a
  simp only [commands, List.forall_mem_cons]
  refine ⟨?_, ?_, ?_, ?_, ?_, ?_, ?_, ?_, ?_, ?_, ?_, by simp⟩
  · exact seesCopies_plain (fun _ _ => rfl) fun _ => rfl
  · exact seesCopies_openAccount
  · refine seesCopies_dated (fun setup mem => ?_) (fun _ => rfl) (fun _ _ _ => balanceBody_withMem)
      fun _ => rfl
    simp only [Cmd.deposit, deposit_withMem]
    rfl
  · refine seesCopies_dated (fun setup mem => ?_) (fun _ => rfl) (fun _ _ _ => balanceBody_withMem)
      fun _ => rfl
    simp only [Cmd.withdrawal, withDraw_withMem]
    rfl
  · refine seesCopies_dated (fun setup mem => ?_) (fun _ => rfl) (fun _ _ _ => balanceBody_withMem)
      fun _ => rfl
    simp only [Cmd.transfer, transfer_withMem]
    rfl
  · refine seesCopies_dated (fun setup mem => ?_) (fun _ => rfl) (fun _ _ _ => balanceBody_withMem)
      fun _ => rfl
    simp only [Cmd.balanceInquiry, balanceInquiry_withMem]
    rfl
  · exact seesCopies_plain (fun _ _ => rfl) fun _ => rfl
  · refine seesCopies_bill (fun setup mem => ?_) (fun _ => rfl)
      (fun _ _ cmd cnt msg l seq jos => writeRowsApart_withMem cmd cnt msg l seq jos) fun _ => rfl
    simp only [Cmd.queryDayBill, queryDayBill, queryBill_withMem]
    rfl
  · refine seesCopies_bill (fun setup mem => ?_) (fun _ => rfl) hrows fun _ => rfl
    simp only [Cmd.queryHistoryBill, queryHistoryBill, queryBill_withMem]
    rfl
  · refine seesCopies_bill (fun setup mem => ?_) (fun _ => rfl) hrows fun _ => rfl
    simp only [Cmd.queryAccountHistoryBill, queryAccountHistoryBill, queryBill_withMem]
    rfl
  · refine seesCopies_dated (fun setup mem => ?_) (fun _ => rfl) (fun _ _ _ => closeBody_withMem)
      fun _ => rfl
    simp only [Cmd.closeAccount, closeAccount_withMem]
    rfl

/-! ### Requests -/

/-- The copies made for a request: those of the reply, if there is one. -/
def copiesFor {σ : Type} (setup : Setup) (h : Prog.Handler Call Reply σ) (w : σ) (f : Bytes) :
    List (Nat × Bytes) :=
  match action? setup (headCmd f) with
  | none => []
  | some c =>
      match c.read (f.drop requestHeadSize) with
      | none => []
      | some (args, _) =>
          match (((c.service args).start (c.locals args)).run h w).1 with
          | (.ok ret, l) => copies (headCmd f) (errorOf c.errors ret).1 l
          | (.error _, _) => []

/-- A body that is too short ends the process. -/
theorem outcome_executeFrame_of_none {f : Bytes} {c : Command}
    (hc : action? setup (headCmd f) = some c) (hread : c.read (f.drop requestHeadSize) = none)
    {σ : Type} (h : Prog.Handler Call Reply σ) (w : σ) :
    outcome h w (executeFrame setup f) = (.error (.crash .assertion), w) := by
  unfold executeFrame Command.execute
  rw [hc]
  simp only [hread]
  rfl

/-- If all its copies are inside, the request is answered the same whatever the memory. -/
theorem outcome_executeFrame_withMem {σ : Type} {h : Prog.Handler Call Reply σ} {w : σ} {f : Bytes}
    (hin : ∀ p ∈ copiesFor setup h w f, Inside p) :
    outcome h w (executeFrame (setup.withMem mem) f) = outcome h w (executeFrame setup f) := by
  have haction := action?_eq_commands
  cases hfind : commands.find? fun a => a.1 = headCmd f with
  | none =>
      have hnone : ∀ s : Setup, executeFrame s f = pure [] := by
        intro s
        unfold executeFrame
        rw [haction, hfind]
        rfl
      rw [hnone, hnone]
  | some a =>
      obtain ⟨cmd, k⟩ := a
      have hcmd : cmd = headCmd f := by simpa using List.find?_some hfind
      subst hcmd
      have hsees := seesCopies (List.mem_of_find?_eq_some hfind)
      have hc : action? setup (headCmd f) = some (k setup) := by rw [haction, hfind]; rfl
      have hc' : action? (setup.withMem mem) (headCmd f) = some (k (setup.withMem mem)) := by
        rw [haction, hfind]
        rfl
      have hsame := hsees.same setup mem
      have hwrite := hsees.write setup mem
      simp only at hsame hwrite
      generalize k (setup.withMem mem) = c' at hc' hsame hwrite
      generalize k setup = c at hc hsame hwrite
      unfold copiesFor at hin
      rw [hc] at hin
      cases hread : c.read (f.drop requestHeadSize) with
      | none =>
          have hread' : c'.read (f.drop requestHeadSize) = none := by
            rw [hsame]
            exact hread
          rw [outcome_executeFrame_of_none hc hread, outcome_executeFrame_of_none hc' hread']
      | some p =>
          obtain ⟨args, rest⟩ := p
          simp only [hread] at hin
          generalize c'.write = write' at hsame hwrite
          subst hsame
          have hread' : ({ c with write := write' } : Command).read (f.drop requestHeadSize)
              = some (args, rest) := hread
          rw [outcome_executeFrame hc hread, outcome_executeFrame hc' hread']
          simp only
          rcases hrun : ((c.service args).start (c.locals args)).run h w
            with ⟨⟨(_ | _) | ret, l⟩, w'⟩
          · rfl
          · rfl
          · rw [hrun] at hin
            simp only [hwrite _ _ _ _ hin]

/-! ### Dates

What the operations do with the answers of a database of which no more is known than that a
date has nineteen characters.
-/

/-- The columns that are dates. -/
def Field.isDate : Field → Bool
  | .openDate | .transDate | .queryDate | .closeDate => true
  | _ => false

/-- Dates have nineteen characters. -/
def NineteenLong (rs : Recordset) : Prop :=
  ∀ row ∈ rs, ∀ p ∈ row, p.1.isDate = true → p.2.str.length = 19

/-- A database that delivers dates. -/
def delivery : Prog.Contract Call Reply Unit where
  allow := fun _ _ => True
  next := fun _ c r _ =>
    match c, r with
    | .query _, .ok rs => NineteenLong rs
    | _, _ => True

/-- The rows of the server. -/
theorem nineteenLong_select (d : Dialect) (db : Database) (clock : Nat) (sql : Sql) :
    NineteenLong (Server.select d db clock sql) := by
  intro row hrow p hp hdate
  cases sql with
  | selectTrans filter offset =>
      rw [select_selectTrans] at hrow
      obtain ⟨r, -, rfl⟩ := List.mem_map.mp hrow
      simp only [Server.billRow, List.mem_cons, List.not_mem_nil, or_false] at hp
      rcases hp with rfl | rfl | rfl | rfl | rfl | rfl <;>
        first | exact d.length_dateTime _ | exact absurd hdate Bool.false_ne_true
  | selectTeller user pass =>
      obtain ⟨t, -, rfl⟩ := List.mem_map.mp hrow
      rw [List.mem_singleton.mp hp] at hdate
      exact absurd hdate Bool.false_ne_true
  | selectOpenDate i =>
      obtain ⟨r, -, rfl⟩ := List.mem_map.mp hrow
      rw [List.mem_singleton.mp hp]
      exact d.length_dateTime _
  | selectBalance account cond forUpdate =>
      obtain ⟨r, -, rfl⟩ := List.mem_map.mp hrow
      rw [List.mem_singleton.mp hp] at hdate
      exact absurd hdate Bool.false_ne_true
  | selectTransName i =>
      obtain ⟨t, -, ht⟩ := List.mem_flatMap.mp hrow
      obtain ⟨r, -, rfl⟩ := List.mem_map.mp ht
      simp only [List.mem_cons, List.not_mem_nil, or_false] at hp
      rcases hp with rfl | rfl
      · exact absurd hdate Bool.false_ne_true
      · exact d.length_dateTime _
  | selectNameNow i column =>
      obtain ⟨r, -, rfl⟩ := List.mem_map.mp hrow
      simp only [List.mem_cons, List.not_mem_nil, or_false] at hp
      rcases hp with rfl | rfl
      · exact absurd hdate Bool.false_ne_true
      · exact d.length_dateTime _
  | selectInterest i rate =>
      rw [List.mem_singleton.mp hrow] at hp
      rw [List.mem_singleton.mp hp] at hdate
      exact absurd hdate Bool.false_ne_true
  | countTrans filter =>
      rw [List.mem_singleton.mp hrow] at hp
      rw [List.mem_singleton.mp hp] at hdate
      exact absurd hdate Bool.false_ne_true
  | _ => exact absurd hrow List.not_mem_nil

namespace Delivery

/-- Nothing is said about an operation that does not return. -/
abbrev anyway : Signal → Locals → Unit → Prop := fun _ _ _ => True

variable {l : Locals}

theorem wp_mysqlQuery {sql : Sql} {Q : Except Bytes Recordset → Locals → Unit → Prop}
    (hfail : ∀ e, Q (.error e) l ()) (hok : ∀ rs, NineteenLong rs → Q (.ok rs) l ()) :
    Proc.wp delivery (mysqlQuery sql) Q anyway l () := by
  obtain ⟨_ | _, account, interest, result⟩ := l
  · exact trivial
  · refine (mysqlQuery_spec rfl).mpr ⟨trivial, fun r _ hn => ?_⟩
    cases r with
    | error e => exact hfail e
    | ok rs => exact hok rs hn

theorem wp_querySQL {sql : Sql} {Q : Recordset → Locals → Unit → Prop}
    (hok : ∀ rs, NineteenLong rs → Q rs l ()) : Proc.wp delivery (querySQL sql) Q anyway l () := by
  unfold querySQL
  rw [Proc.wp_bind]
  exact wp_mysqlQuery (fun _ => trivial) hok

theorem wp_execSQL {sql : Sql} {Q : Unit → Locals → Unit → Prop} (hok : Q () l ()) :
    Proc.wp delivery (execSQL sql) Q anyway l () := by
  unfold execSQL
  rw [Proc.wp_bind]
  exact wp_querySQL fun _ _ => hok

theorem wp_getInsertId {Q : Int → Locals → Unit → Prop} (hok : ∀ i, Q i l ()) :
    Proc.wp delivery getInsertId Q anyway l () :=
  (Proc.wp_call delivery anyway l () Call.insertId Q).mpr ⟨trivial, fun r _ _ => hok r⟩

theorem wp_getItem {rs : Recordset} (hrs : NineteenLong rs) {i : Nat} {column : Field}
    {Q : Cell → Locals → Unit → Prop}
    (hok : ∀ cell, (column.isDate = true → cell.str.length = 19) → Q cell l ()) :
    Proc.wp delivery (getItem rs i column) Q anyway l () := by
  refine getItem_spec trivial fun row hrow cell hcell => hok cell fun hdate => ?_
  exact hrs row (List.mem_of_getElem? hrow) (column, cell) hcell hdate

theorem wp_close {Q : Unit → Locals → Unit → Prop} {E : Signal → Locals → Unit → Prop}
    (h : ∀ mysql, Q () { l with mysql := mysql } ()) : Proc.wp delivery close Q E l () :=
  close_spec trivial (fun _ _ _ => h false) fun _ => h l.mysql

theorem opens : Opens delivery () () where
  init := ⟨trivial, fun _ _ _ => rfl⟩
  optionReconnect := ⟨trivial, fun _ _ _ => rfl⟩
  optionCharset := ⟨trivial, fun _ _ _ => rfl⟩
  connect := ⟨trivial, fun _ _ _ => rfl⟩
  close := trivial

theorem wp_connect {Q : Unit → Locals → Unit → Prop} (h : Q () { l with mysql := true } ()) :
    Proc.wp delivery connect Q anyway l () :=
  connect_spec opens h fun _ _ _ => trivial

/-- An operation that does not answer with one of its error codes has a date. -/
def HasDate (codes : List Int) (ret : Int) (l : Locals) (_ : Unit) : Prop :=
  ret ∈ codes ∨ l.account.opDate.length = 19

/-- What holds of the block holds of the operation, which answers -1 for what goes wrong. -/
theorem wp_member {codes : List Int} {p handler : Service Int} (hcodes : -1 ∈ codes)
    (hhandler : ∀ l, Proc.wp delivery handler (fun ret _ _ => ret = -1) anyway l ())
    (hp : Proc.wp delivery p (HasDate codes) anyway l ()) :
    Proc.wp delivery (withDb (catchException p handler)) (HasDate codes) anyway l () := by
  refine block_spec hp (fun ret l _ h => wp_close fun _ => h) (fun what l _ _ => ?_)
    fun _ _ _ _ => wp_close fun _ => trivial
  refine Proc.wp_mono (fun ret l _ h => ?_) (fun _ _ _ _ => wp_close fun _ => trivial) (hhandler l)
  obtain rfl : ret = -1 := h
  exact wp_close fun _ => Or.inl hcodes

theorem wp_rollback (l : Locals) :
    Proc.wp delivery (do rollback; return (-1 : Int)) (fun ret _ _ => ret = -1) anyway l () := by
  unfold rollback
  simp only [Proc.wp_bind]
  exact wp_mysqlQuery (fun _ => rfl) fun _ _ => trivial

/-- How a transaction begins. -/
theorem wp_begin {Q : Int → Locals → Unit → Prop} {rest : Locals → Service Int}
    (h : Proc.wp delivery (rest { l with mysql := true }) Q anyway { l with mysql := true } ()) :
    Proc.wp delivery (do connect; startTransaction; let l ← Proc.get; rest l) Q anyway l () := by
  rw [Proc.wp_bind]
  refine wp_connect ?_
  rw [Proc.wp_bind]
  refine wp_execSQL ?_
  rw [Proc.wp_bind, Proc.wp_get]
  exact h

/-- An account that is not found is answered with an error code. -/
theorem wp_found {codes : List Int} {sql : Sql} {code : Int} (hcode : code ∈ codes)
    {rest : Recordset → Service Int}
    (h : ∀ rs, NineteenLong rs → Proc.wp delivery (rest rs) (HasDate codes) anyway l ()) :
    Proc.wp delivery (querySQL sql >>= fun rs => if rs.length < 1 then pure code else rest rs)
      (HasDate codes) anyway l () := by
  rw [Proc.wp_bind]
  refine wp_querySQL fun rs hrs => ?_
  split
  · exact Or.inl hcode
  · exact h rs hrs

variable (sys : System)

theorem deposit_dated : Proc.wp delivery (deposit sys) (HasDate [2, -1]) anyway l () := by
  refine wp_member (by decide) wp_rollback (wp_begin ?_)
  refine wp_found (by decide) fun rs hrs => ?_
  simp only [Proc.wp_bind, Proc.wp_modify, commit]
  refine wp_getItem hrs fun balance _ => wp_execSQL (wp_execSQL (wp_getInsertId fun i => ?_))
  refine wp_execSQL (wp_querySQL fun rs hrs => wp_getItem hrs fun name _ => ?_)
  exact wp_getItem hrs fun opDate hdate => Or.inr (hdate rfl)

theorem withDraw_dated : Proc.wp delivery (withDraw sys) (HasDate [2, 3, 4, -1]) anyway l () := by
  refine wp_member (by decide) wp_rollback (wp_begin ?_)
  refine wp_found (by decide) fun _ _ => wp_found (by decide) fun rs hrs => ?_
  rw [Proc.wp_bind]
  refine wp_getItem hrs fun balance _ => ?_
  dsimp only
  split
  · exact Or.inl (by decide)
  simp only [Proc.wp_bind, Proc.wp_modify, commit]
  refine wp_execSQL (wp_execSQL (wp_getInsertId fun i => wp_execSQL ?_))
  refine wp_querySQL fun rs hrs => wp_getItem hrs fun name _ => ?_
  exact wp_getItem hrs fun opDate hdate => Or.inr (hdate rfl)

theorem transfer_dated (other : Bytes) :
    Proc.wp delivery (transfer sys other) (HasDate [2, 3, 4, 5, -1]) anyway l () := by
  refine wp_member (by decide) wp_rollback (wp_begin ?_)
  refine wp_found (by decide) fun _ _ => wp_found (by decide) fun rs hrs => ?_
  rw [Proc.wp_bind]
  refine wp_getItem hrs fun balance _ => ?_
  dsimp only
  split
  · exact Or.inl (by decide)
  refine wp_found (by decide) fun rs hrs => ?_
  simp only [Proc.wp_bind, Proc.wp_modify, commit]
  refine wp_getItem hrs fun balance2 _ => wp_execSQL (wp_execSQL (wp_execSQL ?_))
  refine wp_getInsertId fun i => wp_querySQL fun rs hrs => wp_execSQL (wp_execSQL ?_)
  refine wp_getItem hrs fun name _ => ?_
  exact wp_getItem hrs fun opDate hdate => Or.inr (hdate rfl)

theorem balanceInquiry_dated :
    Proc.wp delivery (balanceInquiry sys) (HasDate [2, 3, -1]) anyway l () := by
  refine wp_member (by decide) (fun _ => rfl) ?_
  rw [Proc.wp_bind]
  refine wp_connect ?_
  rw [Proc.wp_bind, Proc.wp_get]
  refine wp_found (by decide) fun _ _ => wp_found (by decide) fun rs hrs => ?_
  simp only [Proc.wp_bind, Proc.wp_modify]
  refine wp_getItem hrs fun balance _ => wp_querySQL fun rs hrs => wp_getItem hrs fun name _ => ?_
  exact wp_getItem hrs fun opDate hdate => Or.inr (hdate rfl)

theorem closeAccount_dated :
    Proc.wp delivery (closeAccount sys) (HasDate [2, 3, -1]) anyway l () := by
  refine wp_member (by decide) (fun _ => rfl) (wp_begin ?_)
  refine wp_found (by decide) fun _ _ => wp_found (by decide) fun rs hrs => ?_
  simp only [Proc.wp_bind, Proc.wp_modify, commit]
  refine wp_getItem hrs fun balance _ => wp_querySQL fun rs hrs => ?_
  refine wp_getItem hrs fun interest _ => ?_
  refine wp_execSQL (wp_execSQL (wp_querySQL fun rs hrs => wp_getItem hrs fun name _ => ?_))
  exact wp_getItem hrs fun opDate hdate => Or.inr (hdate rfl)

end Delivery

/-- A statement that is answered is answered by the server. -/
theorem select_of_answer {d : Dialect} {env : Env} {sql : Sql} {w : World} {rs : Recordset}
    (h : (answer d env (.query sql) w).1 = .ok rs) :
    ∃ db clock, rs = Server.select d db clock sql := by
  have hquery : ∀ (s : Server) (link : Link),
      (s.query d link sql).1 = Server.select d (s.view link) s.clock sql := by
    intro s link
    unfold Server.query
    split <;> first | rfl | (split <;> rfl)
  unfold answer at h
  simp only at h
  generalize (if env.drop w.statements then w.link.dropped else w.link) = link at h
  split at h
  · cases h
  · split at h
    · exact ⟨_, _, (Except.ok.inj h).symm.trans (hquery _ _)⟩
    · cases h

/-- The server delivers dates, whatever fails and wherever the connection drops. -/
theorem hasDate_of_wp {d : Dialect} {env : Env} {codes : List Int} {p : Service Int} {l l' : Locals}
    {w w' : World} {ret : Int}
    (hp : Proc.wp delivery p (Delivery.HasDate codes) Delivery.anyway l ())
    (hrun : (p.start l).run (answer d env) w = ((.ok ret, l'), w')) :
    ret ∈ codes ∨ l'.account.opDate.length = 19 := by
  have hstep : ∀ (s : Unit) (w : World) (c : Call), True → delivery.allow s c →
      ∃ s', delivery.next s c (answer d env c w).1 s' ∧ True := by
    intro s w c _ _
    refine ⟨(), ?_, trivial⟩
    cases c with
    | query sql =>
        cases hrs : (answer d env (.query sql) w).1 with
        | error e => trivial
        | ok rs =>
            obtain ⟨db, clock, rfl⟩ := select_of_answer hrs
            exact nineteenLong_select d db clock sql
    | _ => trivial
  obtain ⟨_, -, hq⟩ := Prog.wp_run (fun _ _ => True) hstep _ trivial hp
  rw [hrun] at hq
  exact hq

/-! ### Every request -/

variable {d : Dialect} {env : Env} {w₀ : World} {f : Bytes}

/-- A request that can be read is answered with the copies of what its operation has left. -/
theorem copiesFor_eq {c : Command} (hc : action? setup (headCmd f) = some c) {args : c.Args}
    {rest : JInStream} (hread : c.read (f.drop requestHeadSize) = some (args, rest)) {σ : Type}
    (h : Prog.Handler Call Reply σ) (w : σ) :
    copiesFor setup h w f = match (((c.service args).start (c.locals args)).run h w).1 with
      | (.ok ret, l) => copies (headCmd f) (errorOf c.errors ret).1 l
      | (.error _, _) => [] := by
  unfold copiesFor
  rw [hc]
  simp only [hread]

/-- The copies made for a command, whatever its operation comes to. -/
def CopiesInside (d : Dialect) (env : Env) (w₀ : World) (cmd : UInt16) (c : Command)
    (args : c.Args) : Prop :=
  ∀ p ∈ (match (((c.service args).start (c.locals args)).run (answer d env) w₀).1 with
    | (.ok ret, l) => copies cmd (errorOf c.errors ret).1 l
    | (.error _, _) => []), Inside p

private theorem copiesInside_of {cmd : UInt16} {c : Command} {args : c.Args}
    (h : ∀ ret l w',
      ((c.service args).start (c.locals args)).run (answer d env) w₀ = ((.ok ret, l), w') →
        ∀ p ∈ copies cmd (errorOf c.errors ret).1 l, Inside p) :
    CopiesInside d env w₀ cmd c args := by
  unfold CopiesInside
  rcases hrun : ((c.service args).start (c.locals args)).run (answer d env) w₀
    with ⟨⟨e | ret, l⟩, w'⟩
  · nofun
  · exact h ret l w' hrun

/-- A command that answers with a date. -/
private theorem copiesInside_of_dated {cmd : UInt16} {c : Command} {codes : List Int}
    (hcopies : ∀ l, copies cmd 0 l = [(19, l.account.opDate)])
    (hcmd : cmd ≠ CMD_OPEN_ACCOUNT) (hcodes : ∀ ret ∈ codes, (errorOf c.errors ret).1 ≠ 0)
    {args : c.Args}
    (hp : ∀ l, Proc.wp delivery (c.service args) (Delivery.HasDate codes) Delivery.anyway l ()) :
    CopiesInside d env w₀ cmd c args := by
  refine copiesInside_of fun ret l w' hrun p hmem => ?_
  by_cases hcode : (errorOf c.errors ret).1 = 0
  · rw [hcode, hcopies, List.mem_singleton] at hmem
    rcases hasDate_of_wp (hp _) hrun with hret | hdate
    · exact absurd hcode (hcodes ret hret)
    · rw [hmem]
      show 19 ≤ l.account.opDate.length + 1
      omega
  · unfold copies at hmem
    rw [if_neg hcmd, if_pos (Or.inl hcode)] at hmem
    exact absurd hmem List.not_mem_nil

/-- A command that answers with nothing. -/
private theorem copiesInside_plain {cmd : UInt16} (hopen : cmd ≠ CMD_OPEN_ACCOUNT)
    (hcmd : cmd = CMD_LOGIN ∨ cmd = CMD_CHANGE_PASSWORD) {c : Command} {args : c.Args} :
    CopiesInside d env w₀ cmd c args := by
  refine copiesInside_of fun ret l w' _ p hmem => ?_
  unfold copies at hmem
  rw [if_neg hopen, if_pos (Or.inr hcmd)] at hmem
  exact absurd hmem List.not_mem_nil

private theorem copiesInside_openAccount {c : Command} {args : c.Args} :
    CopiesInside d env w₀ CMD_OPEN_ACCOUNT c args := by
  refine copiesInside_of fun ret l w' _ p hmem => ?_
  unfold copies at hmem
  rw [if_pos rfl, List.mem_singleton] at hmem
  rw [hmem]
  show 6 ≤ (paddedText 6 _).length + 1
  rw [paddedText, List.length_append, List.length_replicate]
  omega

/-- A request for a bill. -/
inductive AsksFor (setup : Setup) (f : Bytes) : BillFilter → Int → Prop where
  | day {page date rest} (hcmd : headCmd f = CMD_DAY_BILL)
      (hread : (Cmd.queryDayBill setup).read (f.drop requestHeadSize) = some ((page, date), rest)) :
      AsksFor setup f (.day date) (Cmd.toInt32 page)
  | days {page first last rest} (hcmd : headCmd f = CMD_HISTORY_BILL)
      (hread : (Cmd.queryHistoryBill setup).read (f.drop requestHeadSize)
        = some ((page, first, last), rest)) :
      AsksFor setup f (.days first last) (Cmd.toInt32 page)
  | accountDays {page account first last rest} (hcmd : headCmd f = CMD_ACCOUNT_HISTORY_BILL)
      (hread : (Cmd.queryAccountHistoryBill setup).read (f.drop requestHeadSize)
        = some ((page, account, first, last), rest)) :
      AsksFor setup f (.accountDays account first last) (Cmd.toInt32 page)

/-- The copies for a bill are those of the rows of its page, if no call fails. -/
theorem AsksFor.copiesFor {filter : BillFilter} {page : Int} (h : AsksFor setup f filter page)
    (hw : w₀.server.Fresh) :
    (env.Clear w₀.calls 4 → Bank.copiesFor setup (answer d env) w₀ f
        = ((Server.page d w₀.server.db (w₀.server.clock + 1) filter (mulInt page 15)).map
            (toTransDetail d (Server.total d w₀.server.db filter))).flatMap rowCopies) ∧
      (¬ env.Clear w₀.calls 4 → Bank.copiesFor setup (answer d env) w₀ f = []) := by
  have hbill : headCmd f ∈ [CMD_DAY_BILL, CMD_HISTORY_BILL, CMD_ACCOUNT_HISTORY_BILL] := by
    cases h <;> simp [*]
  have hspec := wp_queryBill d env setup.sys hw (l := Cmd.localsOf setup (Cmd.newAccount setup))
    ⟨rfl, rfl⟩ filter page
  have hfor : Bank.copiesFor setup (answer d env) w₀ f
      = match (((queryBill setup.sys filter page).start
          (Cmd.localsOf setup (Cmd.newAccount setup))).run (answer d env) w₀).1 with
        | (.ok ret, l) =>
            copies (headCmd f) (errorOf [(6, Msg.noData), (-1, Msg.databaseError)] ret).1 l
        | (.error _, _) => [] := by
    cases h with
    | day hcmd hread => exact copiesFor_eq (by rw [hcmd]; rfl) hread _ _
    | days hcmd hread => exact copiesFor_eq (by rw [hcmd]; rfl) hread _ _
    | accountDays hcmd hread => exact copiesFor_eq (by rw [hcmd]; rfl) hread _ _
  have hzero : ∀ l : Locals, copies (headCmd f) 0 l = l.result.flatMap rowCopies := by
    intro l
    simp only [List.mem_cons, List.not_mem_nil, or_false] at hbill
    rcases hbill with hcmd | hcmd | hcmd <;> rw [hcmd] <;> rfl
  have hnone : ∀ (code : Int16) (l : Locals), code ≠ 0 → copies (headCmd f) code l = [] := by
    intro code l hcode
    unfold copies
    rw [if_neg, if_pos (Or.inl hcode)]
    rintro hcmd
    rw [hcmd] at hbill
    exact absurd hbill (by decide)
  rw [Proc.wp, Prog.wp_ofHandler] at hspec
  rw [hfor]
  rcases hrun : ((queryBill setup.sys filter page).start
    (Cmd.localsOf setup (Cmd.newAccount setup))).run (answer d env) w₀ with ⟨⟨e | ret, l⟩, w'⟩
  · rw [hrun] at hspec
    exact absurd hspec id
  · rw [hrun] at hspec
    rcases hspec with ⟨hclear, hret, hresult, -⟩ | ⟨hclear, rfl, -⟩
    · refine ⟨fun _ => ?_, fun h => absurd hclear h⟩
      simp only
      by_cases hnil : Server.page d w₀.server.db (w₀.server.clock + 1) filter (mulInt page 15) = []
      · rw [if_pos hnil] at hret
        rw [hret, hnone _ _ (by decide), hnil]
        rfl
      · rw [if_neg hnil] at hret
        rw [hret, show (errorOf [(6, Msg.noData), (-1, Msg.databaseError)] 0).1 = 0 from rfl, hzero,
          hresult]
    · exact ⟨fun h => absurd h hclear, fun _ => hnone _ _ (by decide)⟩

/-- A row whose two account numbers have five characters at least; a number that is missing
has none. -/
def FillsFields (t : Trans) : Prop :=
  5 ≤ (Server.idCell (some t.accountId)).str.length ∧
    5 ≤ (Server.idCell t.otherAccountId).str.length

theorem fillsFields_iff {t : Trans} (h : 0 < t.accountId) (h' : ∀ id ∈ t.otherAccountId, 0 < id) :
    FillsFields t ↔ 10 ^ 4 ≤ t.accountId ∧ ∃ id ∈ t.otherAccountId, 10 ^ 4 ≤ id := by
  have hlen : ∀ id : Int, 0 < id → (5 ≤ (Server.idCell (some id)).str.length ↔ 10 ^ 4 ≤ id) := by
    intro id hid
    have htext : (Server.idCell (some id)).str = natText id.natAbs := by
      show intText id = _
      rw [intText, if_neg (by omega), List.nil_append]
    rw [htext, ← Nat.lt_iff_add_one_le, lt_length_natText_iff (by decide)]
    omega
  unfold FillsFields
  rw [hlen _ h]
  refine and_congr_right fun _ => ?_
  cases hother : t.otherAccountId with
  | none =>
      constructor
      · exact fun h5 => absurd h5 (by decide)
      · rintro ⟨id, hid, -⟩
        cases hid
  | some id =>
      rw [hlen _ (h' id hother)]
      exact ⟨fun hle => ⟨id, rfl, hle⟩, fun ⟨_, hid, hle⟩ => Option.some.inj hid ▸ hle⟩

theorem inside_rowCopies_iff (d : Dialect) (total : Nat) (p : Trans × Abstract) :
    (∀ q ∈ rowCopies (toTransDetail d total p), Inside q) ↔ FillsFields p.1 := by
  have hdate : Inside (19, d.dateTime p.1.transDate) := by
    show 19 ≤ (d.dateTime _).length + 1
    rw [d.length_dateTime]
    decide
  simp only [rowCopies, List.forall_mem_cons]
  constructor
  · rintro ⟨-, h, h', -⟩
    exact ⟨Nat.le_of_succ_le_succ h, Nat.le_of_succ_le_succ h'⟩
  · rintro ⟨h, h'⟩
    exact ⟨hdate, Nat.succ_le_succ h, Nat.succ_le_succ h', by simp⟩

/-- The commands that are not about bills, one by one. -/
private theorem copiesInside_of_mem (h : ∀ filter page, ¬ AsksFor setup f filter page) {c : Command}
    (hc : (headCmd f, c) ∈ actions setup) {args : c.Args} {rest : JInStream}
    (hread : c.read (f.drop requestHeadSize) = some (args, rest)) :
    CopiesInside d env w₀ (headCmd f) c args := by
  have hall : ∀ a ∈ actions setup, ∀ args rest, headCmd f = a.1 →
      a.2.read (f.drop requestHeadSize) = some (args, rest) →
        CopiesInside d env w₀ a.1 a.2 args := by
    simp only [actions, List.forall_mem_cons]
    refine ⟨?_, ?_, ?_, ?_, ?_, ?_, ?_, ?_, ?_, ?_, ?_, by simp⟩
    · exact fun _ _ _ _ => copiesInside_plain (by decide) (Or.inl rfl)
    · exact fun _ _ _ _ => copiesInside_openAccount
    · exact fun args _ _ _ => copiesInside_of_dated (c := Cmd.deposit setup) (fun _ => rfl)
        (by decide) (by simp only [Cmd.deposit]; decide)
        fun _ => Delivery.deposit_dated setup.sys
    · exact fun args _ _ _ => copiesInside_of_dated (c := Cmd.withdrawal setup) (fun _ => rfl)
        (by decide) (by simp only [Cmd.withdrawal]; decide)
        fun _ => Delivery.withDraw_dated setup.sys
    · exact fun args _ _ _ => copiesInside_of_dated (c := Cmd.transfer setup) (fun _ => rfl)
        (by decide) (by simp only [Cmd.transfer]; decide)
        fun _ => Delivery.transfer_dated setup.sys _
    · exact fun args _ _ _ => copiesInside_of_dated (c := Cmd.balanceInquiry setup) (fun _ => rfl)
        (by decide) (by simp only [Cmd.balanceInquiry]; decide)
        fun _ => Delivery.balanceInquiry_dated setup.sys
    · exact fun _ _ _ _ => copiesInside_plain (by decide) (Or.inr rfl)
    · exact fun args _ hcmd hread => absurd (AsksFor.day hcmd hread) (h _ _)
    · exact fun args _ hcmd hread => absurd (AsksFor.days hcmd hread) (h _ _)
    · exact fun args _ hcmd hread => absurd (AsksFor.accountDays hcmd hread) (h _ _)
    · exact fun args _ _ _ => copiesInside_of_dated (c := Cmd.closeAccount setup) (fun _ => rfl)
        (by decide) (by simp only [Cmd.closeAccount]; decide)
        fun _ => Delivery.closeAccount_dated setup.sys
  exact hall _ hc args rest rfl hread

/-- **What is not a bill stays inside.** -/
theorem inside_of_no_bill (h : ∀ filter page, ¬ AsksFor setup f filter page) :
    ∀ p ∈ copiesFor setup (answer d env) w₀ f, Inside p := by
  cases hc : action? setup (headCmd f) with
  | none =>
      unfold copiesFor
      rw [hc]
      nofun
  | some c =>
      cases hread : c.read (f.drop requestHeadSize) with
      | none =>
          unfold copiesFor
          rw [hc]
          simp only [hread]
          nofun
      | some p =>
          obtain ⟨args, rest⟩ := p
          rw [copiesFor_eq hc hread]
          exact copiesInside_of_mem h (mem_actions setup hc) hread

/-- The copies of a request stay inside exactly if it is not for a bill, or a call fails, or
the rows of the page fill their fields. -/
theorem inside_copiesFor_iff (setup : Setup) (d : Dialect) (env : Env) (f : Bytes)
    (hw : w₀.server.Fresh) :
    (∀ p ∈ copiesFor setup (answer d env) w₀ f, Inside p)
      ↔ ∀ filter page, AsksFor setup f filter page → env.Clear w₀.calls 4 →
          ∀ p ∈ Server.page d w₀.server.db (w₀.server.clock + 1) filter (mulInt page 15),
            FillsFields p.1 := by
  constructor
  · intro h filter page hasks hclear p hp
    rw [(hasks.copiesFor hw).1 hclear] at h
    rw [← inside_rowCopies_iff d (Server.total d w₀.server.db filter)]
    exact fun q hq => h q (List.mem_flatMap.mpr ⟨_, List.mem_map_of_mem hp, hq⟩)
  · intro h
    by_cases hasks : ∃ filter page, AsksFor setup f filter page
    · obtain ⟨filter, page, hasks⟩ := hasks
      by_cases hclear : env.Clear w₀.calls 4
      · rw [(hasks.copiesFor hw).1 hclear]
        intro q hq
        obtain ⟨td, htd, hq⟩ := List.mem_flatMap.mp hq
        obtain ⟨p, hp, rfl⟩ := List.mem_map.mp htd
        exact (inside_rowCopies_iff d _ p).mpr (h filter page hasks hclear p hp) q hq
      · rw [(hasks.copiesFor hw).2 hclear]
        nofun
    · exact inside_of_no_bill fun filter page h => hasks ⟨filter, page, h⟩

/-! ### Passwords -/

/-- A decrypted password is a function of the request if there is a NUL among its bytes. -/
theorem password_withStack_iff (setup : Setup) (cmd : UInt16) (jis : JInStream) :
    (∀ stack, Cmd.password (setup.withStack stack) cmd jis = Cmd.password setup cmd jis)
      ↔ ∀ enc rest, readBytes 16 jis = some (enc, rest) →
          (0 : UInt8) ∈ (setup.crypto.ideaDecrypt (ideaKey setup.crypto cmd) enc).toList := by
  have hread : ∀ s : Setup, Cmd.password s cmd jis = (readBytes 16 jis).map fun p =>
      (cString ((s.crypto.ideaDecrypt (ideaKey s.crypto cmd) p.1).toList ++ s.sys.junk.stack
        ++ [0]), p.2) := by
    intro s
    show (readBytes 16 jis).bind _ = _
    cases readBytes 16 jis <;> rfl
  constructor
  · intro h enc rest henc
    by_contra hnul
    have hsame : ∀ stack, Cmd.password (setup.withStack stack) cmd jis
        = Cmd.password (setup.withStack []) cmd jis := fun stack => (h stack).trans (h []).symm
    have hone := hsame [1]
    rw [hread, hread, henc] at hone
    have hstr := congrArg Prod.fst (Option.some.inj hone)
    set pass := (setup.crypto.ideaDecrypt (ideaKey setup.crypto cmd) enc).toList with hpass
    have hlong : cString (pass ++ [1] ++ [0]) = pass ++ [1] := cString_append_nul (t := []) (by
      simp only [List.mem_append, List.mem_singleton, not_or]
      exact ⟨hnul, by decide⟩)
    have hshort : cString (pass ++ [] ++ [0]) = pass := by
      rw [List.append_nil]
      exact cString_append_nul hnul
    have hlen := congrArg List.length (hlong.symm.trans (hstr.trans hshort))
    rw [List.length_append, List.length_singleton] at hlen
    omega
  · intro h stack
    rw [hread, hread]
    cases henc : readBytes 16 jis with
    | none => rfl
    | some p =>
        have hnul := h p.1 p.2 henc
        set pass := (setup.crypto.ideaDecrypt (ideaKey setup.crypto cmd) p.1).toList with hpass
        show some (cString (pass ++ stack ++ [0]), p.2)
          = some (cString (pass ++ setup.sys.junk.stack ++ [0]), p.2)
        rw [List.append_assoc, List.append_assoc, cString_append_of_mem hnul,
          cString_append_of_mem hnul]

/-! ### Both directions -/

/-- **Fixed widths.**  The copies of a reply stay inside their strings, and the reply is the same
whatever lies behind them, exactly if the request is not for a bill, or is for one whose rows
fill their fields; and a password is a function of the request exactly if its sixteen bytes have
a NUL among them. -/
theorem fixedWidth_iff (setup : Setup) (d : Dialect) (env : Env) (f : Bytes)
    (hw : w₀.server.Fresh) :
    ((∀ p ∈ copiesFor setup (answer d env) w₀ f, Inside p) ∧
        (∀ mem, outcome (answer d env) w₀ (executeFrame (setup.withMem mem) f)
          = outcome (answer d env) w₀ (executeFrame setup f))
      ↔ ∀ filter page, AsksFor setup f filter page → env.Clear w₀.calls 4 →
          ∀ p ∈ Server.page d w₀.server.db (w₀.server.clock + 1) filter (mulInt page 15),
            FillsFields p.1) ∧
    ∀ (cmd : UInt16) (jis : JInStream),
      (∀ stack, Cmd.password (setup.withStack stack) cmd jis = Cmd.password setup cmd jis)
        ↔ ∀ enc rest, readBytes 16 jis = some (enc, rest) →
            (0 : UInt8) ∈ (setup.crypto.ideaDecrypt (ideaKey setup.crypto cmd) enc).toList := by
  refine ⟨⟨fun h => (inside_copiesFor_iff setup d env f hw).mp h.1, fun h => ?_⟩,
    password_withStack_iff setup⟩
  have hin := (inside_copiesFor_iff setup d env f hw).mpr h
  exact ⟨hin, fun mem => outcome_executeFrame_withMem hin⟩

/-! ### Examples -/

/-- The small bank, with a name for what its rows are about. -/
def namedWorld : World :=
  { smallWorld with
    server := { smallBank with db := { smallBank.db with abstract := [⟨1, []⟩] } } }

theorem fresh_namedWorld : namedWorld.server.Fresh := ⟨by decide, by decide⟩

/-- Every password decrypts to sixteen characters. -/
def longPasswords : Setup :=
  { Setup.zero with
    crypto := { Setup.zero.crypto with ideaDecrypt := fun _ _ => .replicate 16 65 } }

theorem fixedWidth_iff_dayBill :
    ((∀ p ∈ copiesFor .zero (answer .plain .healthy) namedWorld dayBillFrame, Inside p) ∧
        (∀ mem, outcome (answer .plain .healthy) namedWorld
            (executeFrame (Setup.zero.withMem mem) dayBillFrame)
          = outcome (answer .plain .healthy) namedWorld (executeFrame .zero dayBillFrame))
      ↔ ∀ filter page, AsksFor .zero dayBillFrame filter page → Env.healthy.Clear 0 4 →
          ∀ p ∈ Server.page .plain namedWorld.server.db 1 filter (mulInt page 15),
            FillsFields p.1) ∧
    ∀ (cmd : UInt16) (jis : JInStream),
      (∀ stack, Cmd.password (Setup.zero.withStack stack) cmd jis = Cmd.password .zero cmd jis)
        ↔ ∀ enc rest, readBytes 16 jis = some (enc, rest) →
            (0 : UInt8)
              ∈ (Setup.zero.crypto.ideaDecrypt (ideaKey Setup.zero.crypto cmd) enc).toList :=
  fixedWidth_iff .zero .plain .healthy dayBillFrame fresh_namedWorld

/-- The bill of a day on which account 1 was opened copies six bytes of `1`, and a password of
sixteen characters is read on into the stack. -/
theorem not_fixedWidth :
    ¬ (∀ p ∈ copiesFor .zero (answer .plain .healthy) namedWorld dayBillFrame, Inside p) ∧
      ¬ (∀ stack, Cmd.password (longPasswords.withStack stack) CMD_WITHDRAW (List.replicate 16 0)
        = Cmd.password longPasswords CMD_WITHDRAW (List.replicate 16 0)) := by
  constructor
  · intro h
    have hmem : (6, [49]) ∈ copiesFor .zero (answer .plain .healthy) namedWorld dayBillFrame := by
      decide +kernel
    exact absurd (h _ hmem) (by unfold Inside; decide)
  · rw [password_withStack_iff]
    intro h
    exact absurd (h (List.replicate 16 0) [] rfl) (by decide)

end Bank
