/-
What requests can do to the statements.

A statement keeps its structure if every text that is spliced into it is one literal and is over
where it ends; numbers that are not negative are.  So an operation sends nothing but what is
written in the source exactly if all that a request has brought into it is so.

Whether a wrong password is refused is another matter, because the server compares what stands
behind `pass=` in its own way: as numbers, if it is one.
-/
import Muduo.Bank.Statements
import Muduo.Proofs.MysqlRules
import Muduo.Proofs.Operations
import Muduo.Proofs.Transactions
import Muduo.Windows.BankThreads

namespace Bank

open Lib SqlText MysqlDB BankService

/-! ### Numbers -/

theorem numeral_of_wordChars {t : Bytes} (hne : t ≠ []) (h : ∀ c ∈ t, isWordChar c = true) :
    Numeral t := by
  refine ⟨fun c hc => by simp [isNumeralByte, h c hc], t.dropLast, t.getLast hne,
    (List.dropLast_append_getLast hne).symm, h _ (List.getLast_mem hne)⟩

theorem Numeral.append_left {s t : Bytes} (hs : ∀ c ∈ s, isNumeralByte c = true)
    (ht : Numeral t) : Numeral (s ++ t) := by
  obtain ⟨hall, t', c, rfl, hc⟩ := ht
  refine ⟨fun b hb => ?_, s ++ t', c, (List.append_assoc _ _ _).symm, hc⟩
  exact (List.mem_append.mp hb).elim (hs b) (hall b)

theorem isWordChar_natText {n : Nat} {c : UInt8} (h : c ∈ natText n) : isWordChar c = true :=
  isWordChar_of_isDigit (isDigit_of_mem_natText h)

theorem isWordChar_digitChar {k : Nat} (h : k < 10) : isWordChar (digitChar k) = true :=
  isWordChar_of_isDigit (isDigit_digitChar h)

theorem isNumeralByte_sign {x : ℚ} :
    ∀ c ∈ (if x < 0 then [45] else [] : Bytes), isNumeralByte c = true := by
  split
  · simp only [List.mem_singleton, forall_eq]
    rfl
  · exact nofun

/-- An amount is a number. -/
theorem numeral_doubleToString (x : ℚ) : Numeral (Convert.doubleToString x) := by
  refine Numeral.append_left isNumeralByte_sign (numeral_of_wordChars ?_ fun c hc => ?_)
  · exact List.append_ne_nil_of_left_ne_nil (natText_ne_nil _) _
  · rw [fixedText, List.mem_append] at hc
    obtain hc | hc := hc
    · exact isWordChar_natText hc
    · simp only [List.mem_cons, List.not_mem_nil, or_false] at hc
      obtain rfl | rfl | rfl := hc
      · rfl
      · exact isWordChar_digitChar (Nat.mod_lt _ (by decide))
      · exact isWordChar_digitChar (Nat.mod_lt _ (by decide))

theorem isWordChar_padded {k n : Nat} {c : UInt8}
    (h : c ∈ List.replicate k 48 ++ natText n) : isWordChar c = true := by
  obtain h | h := List.mem_append.mp h
  · rw [List.eq_of_mem_replicate h]
    rfl
  · exact isWordChar_natText h

theorem isWordChar_trimmedText {m k : Nat} {c : UInt8} (h : c ∈ trimmedText m k) :
    isWordChar c = true := by
  rw [trimmedText, List.mem_append] at h
  obtain h | h := h
  · exact isWordChar_natText h
  · split at h
    · cases h
    · obtain rfl | h := List.mem_cons.mp h
      · rfl
      · exact isWordChar_padded ((List.rdropWhile_prefix _ _).subset h)

theorem trimmedText_ne_nil (m k : Nat) : trimmedText m k ≠ [] :=
  List.append_ne_nil_of_left_ne_nil (natText_ne_nil _) _

theorem numeral_roundedText (m : Nat) (e : Int) : Numeral (roundedText m e) := by
  unfold roundedText
  split
  · exact numeral_of_wordChars (trimmedText_ne_nil _ _) fun _ => isWordChar_trimmedText
  · refine Numeral.append_left (fun c hc => ?_) (numeral_of_wordChars
      (List.append_ne_nil_of_right_ne_nil _ (natText_ne_nil _)) fun _ => isWordChar_padded)
    obtain hc | hc := List.mem_append.mp hc
    · simp [isNumeralByte, isWordChar_trimmedText hc]
    · simp only [List.mem_cons, List.not_mem_nil, or_false] at hc
      obtain rfl | rfl := hc
      · rfl
      · split <;> rfl

theorem numeral_positiveText (x : ℚ) : Numeral (positiveText x) := by
  unfold positiveText
  simp only
  split <;> exact numeral_roundedText _ _

/-- The interest rate is a number. -/
theorem numeral_defaultText (x : ℚ) : Numeral (defaultText x) := by
  unfold defaultText
  split
  · exact numeral_of_wordChars (List.cons_ne_nil _ _) fun c hc => by
      rw [List.mem_singleton.mp hc]
      rfl
  · exact Numeral.append_left isNumeralByte_sign (numeral_positiveText _)

/-- A number is one literal if it has no sign. -/
theorem lone_intText {n : Int} : Lone (intText n) ↔ 0 ≤ n := by
  have hdigits : ∀ c ∈ natText n.natAbs, isDigit c = true := fun c hc => isDigit_of_mem_natText hc
  by_cases hn : n < 0
  · refine iff_of_false (fun h => ?_) (by omega)
    refine not_oneLiteral_minus (natText_ne_nil _) hdigits ?_
    rw [intText, if_pos hn] at h
    exact h.1
  · refine iff_of_true ?_ (by omega)
    rw [intText, if_neg hn]
    exact lone_digits (natText_ne_nil _) hdigits

/-! ### The texts -/

theorem fields_statement (before after : Bytes) (filter : BillFilter) :
    (filter.statement before after).fields = filter.fields := by
  cases filter <;> rfl

/-- Every statement has a text. -/
theorem Sql.exists_says (sql : Sql) : ∃ st, sql.Says st := by
  cases sql with
  | insertAccount name pass id balance => exact ⟨_, _, roundCents_cents balance, rfl⟩
  | insertTrans accountId other abstractId money balance =>
      exact ⟨_, _, _, roundCents_cents money, roundCents_cents balance, rfl⟩
  | updateBalance account cents => exact ⟨_, _, Or.inl ⟨roundCents_cents cents, rfl⟩⟩
  | _ => exact ⟨_, rfl⟩

/-- What is spliced into the text is what the request has brought. -/
theorem Sql.fields_of_says {sql : Sql} {st : Statement} (h : sql.Says st) :
    st.fields = sql.fields := by
  cases sql with
  | insertAccount name pass id balance =>
      obtain ⟨x, -, rfl⟩ := h
      rfl
  | insertTrans accountId other abstractId money balance =>
      obtain ⟨x, y, -, -, rfl⟩ := h
      cases other <;> rfl
  | updateBalance account cents =>
      obtain ⟨x, ⟨-, rfl⟩ | ⟨-, rfl⟩⟩ := h <;> rfl
  | selectBalance account cond forUpdate =>
      subst h
      cases cond <;> rfl
  | countTrans filter =>
      subst h
      exact fields_statement _ _ _
  | selectTrans filter offset =>
      subst h
      exact fields_statement _ _ _
  | _ =>
      subst h
      rfl

/-- A text of the source is read character by character. -/
theorem start_read_ascii {cs : List Char}
    (h : (Mode.start.read (cs.map fun c => UInt8.ofNat c.toNat)).2 = .start) :
    (Mode.start.read (ascii (String.ofList cs))).2 = .start := by
  rw [ascii_ofList]
  exact h

theorem start_read_append {a b : Bytes} (ha : (Mode.start.read a).2 = .start)
    (hb : (Mode.start.read b).2 = .start) : (Mode.start.read (a ++ b)).2 = .start := by
  rw [Mode.read_append, ha]
  exact hb

/-- A number in a text of the source, if what stands behind it cannot belong to it. -/
theorem start_read_numeral {a t b : Bytes} (ha : (Mode.start.read a).2.Open) (ht : Numeral t)
    (hb : (Mode.start.read b).2 = .start)
    (hhead : ∃ d b', b = d :: b' ∧ isNumeralByte d = false ∧ d ≠ 0) :
    (Mode.start.read (a ++ (t ++ b))).2 = .start := by
  obtain ⟨d, b', rfl, hd, hzero⟩ := hhead
  exact (read_numeral ha ht hd hzero).trans hb

theorem framed_statement {before after : Bytes} (filter : BillFilter)
    (hbefore : (Mode.start.read before).2 = .start) (hafter : ∃ t, after = 41 :: t) :
    (filter.statement before after).Framed := by
  obtain ⟨t, rfl⟩ := hafter
  have hand : (Mode.start.read (ascii " and ")).2 = .start :=
    start_read_ascii rfl
  cases filter with
  | day date =>
      exact ⟨start_read_append hbefore (start_read_ascii rfl), ⟨_, _, rfl, rfl⟩,
        trivial⟩
  | days first last =>
      exact ⟨start_read_append hbefore (start_read_ascii rfl), ⟨_, _, rfl, rfl⟩,
        hand, ⟨_, _, rfl, rfl⟩, trivial⟩
  | accountDays account first last =>
      exact ⟨start_read_append hbefore (start_read_ascii rfl), ⟨_, _, rfl, rfl⟩,
        start_read_ascii rfl, ⟨_, _, rfl, rfl⟩, hand, ⟨_, _, rfl, rfl⟩, trivial⟩

theorem framed_updateBalanceText {sign : UInt8} (hsign : sign = 43 ∨ sign = 45) (x : ℚ)
    (account : AccountRef) : (updateBalanceText sign x account).Framed := by
  refine ⟨?_, ⟨_, _, rfl, rfl⟩, trivial⟩
  have hopen :
      (Mode.start.read (ascii "update bank_account set balance=balance" ++ [sign])).2.Open := by
    rw [ascii_ofList]
    obtain rfl | rfl := hsign
    · exact Or.inl rfl
    · exact Or.inr (Or.inl rfl)
  have hwhere : (Mode.start.read (ascii " where account_id=")).2 = .start :=
    start_read_ascii rfl
  have h := start_read_numeral hopen (numeral_doubleToString x) hwhere
    ⟨_, _, rfl, by decide, by decide⟩
  rw [List.append_assoc] at h
  exact h

set_option maxRecDepth 4000 in
/-- The texts around what is spliced in do their part. -/
theorem Sql.framed_of_says {sql : Sql} {st : Statement} (h : sql.Says st) : st.Framed := by
  have hcomma : (Mode.start.read (ascii ", ")).2 = .start := start_read_ascii rfl
  cases sql with
  | insertAccount name pass id balance =>
      obtain ⟨x, -, rfl⟩ := h
      exact ⟨start_read_ascii rfl, ⟨_, _, rfl, rfl⟩, hcomma, ⟨_, _, rfl, rfl⟩,
        hcomma, ⟨_, _, rfl, rfl⟩, trivial⟩
  | insertTrans accountId other abstractId money balance =>
      obtain ⟨x, y, -, -, rfl⟩ := h
      have hinsert : (Mode.start.read (ascii "insert into trans values(null, ")).2 = .start :=
        start_read_ascii rfl
      cases other with
      | none => exact ⟨hinsert, ⟨_, _, rfl, rfl⟩, trivial⟩
      | some other => exact ⟨hinsert, ⟨_, _, rfl, rfl⟩, hcomma, ⟨_, _, rfl, rfl⟩, trivial⟩
  | updateBalance account cents =>
      obtain ⟨x, ⟨-, rfl⟩ | ⟨-, rfl⟩⟩ := h
      · exact framed_updateBalanceText (Or.inl rfl) x account
      · exact framed_updateBalanceText (Or.inr rfl) x account
  | selectTeller user pass =>
      subst h
      exact ⟨start_read_ascii rfl, ⟨_, _, rfl, rfl⟩,
        start_read_ascii rfl, ⟨_, _, rfl, rfl⟩, trivial⟩
  | selectBalance account cond forUpdate =>
      subst h
      have hselect :
          (Mode.start.read (ascii "select balance from bank_account where account_id=")).2 = .start :=
        start_read_ascii rfl
      cases cond with
      | flagZero => cases forUpdate <;> exact ⟨hselect, ⟨_, _, rfl, rfl⟩, trivial⟩
      | pass text =>
          have hpass : (Mode.start.read (ascii " and pass=")).2 = .start :=
            start_read_ascii rfl
          cases forUpdate <;>
            exact ⟨hselect, ⟨_, _, rfl, rfl⟩, hpass, ⟨_, _, rfl, rfl⟩, trivial⟩
  | selectNameNow accountId column =>
      subst h
      refine ⟨?_, ⟨_, _, rfl, rfl⟩, trivial⟩
      split <;> exact start_read_ascii rfl
  | updatePass accountId pass =>
      subst h
      exact ⟨start_read_ascii rfl, ⟨_, _, rfl, rfl⟩,
        start_read_ascii rfl, ⟨_, _, rfl, rfl⟩, trivial⟩
  | updateFlag accountId =>
      subst h
      exact ⟨start_read_ascii rfl, ⟨_, _, rfl, rfl⟩, trivial⟩
  | selectInterest accountId rate =>
      subst h
      refine ⟨?_, ⟨_, _, rfl, rfl⟩, ?_, ⟨_, _, rfl, rfl⟩, trivial⟩
      · have hopen : (Mode.start.read (ascii "select sum(yy.days*yy.balance)*")).2.Open :=
          Or.inl (start_read_ascii rfl)
        refine start_read_numeral hopen (numeral_defaultText rate) ?_
          ⟨_, _, rfl, by decide, by decide⟩
        iterate 5 refine start_read_append ?_ (start_read_ascii rfl)
        exact start_read_ascii rfl
      · iterate 3 refine start_read_append ?_ (start_read_ascii rfl)
        exact start_read_ascii rfl
  | countTrans filter =>
      subst h
      exact framed_statement filter (start_read_ascii rfl)
        (by cases filter <;> exact ⟨_, rfl⟩)
  | selectTrans filter offset =>
      subst h
      exact framed_statement filter
        (start_read_append (start_read_ascii rfl)
          (start_read_ascii rfl)) ⟨_, rfl⟩
  | _ =>
      subst h
      trivial

/-- Whatever its text is, the statement has the structure the source gives it. -/
def Sql.Structured (sql : Sql) : Prop := ∀ st, sql.Says st → st.Structured

theorem Sql.structured_iff {sql : Sql} :
    sql.Structured ↔ ∀ field ∈ sql.fields, Lone field := by
  constructor
  · intro h
    obtain ⟨st, hst⟩ := sql.exists_says
    rw [← Sql.fields_of_says hst]
    exact (Statement.structured_iff (Sql.framed_of_says hst)).mp (h st hst)
  · intro h st hst
    rw [Statement.structured_iff (Sql.framed_of_says hst), Sql.fields_of_says hst]
    exact h

/-- **Two requests.**  The statements that the same place of the source sends for them have the
same outline, each of the fields being one literal. -/
theorem outline_eq_of_structured {sql sql' : Sql} (h : sql.Structured) (h' : sql'.Structured)
    {st st' : Statement} (hst : sql.Says st) (hst' : sql'.Says st')
    (htexts : st.texts = st'.texts) :
    outline (tokens st.render) = outline (tokens st'.render) := by
  obtain ⟨htokens, hone⟩ := h st hst
  obtain ⟨htokens', hone'⟩ := h' st' hst'
  rw [htokens, htokens', Statement.outline_parts htexts hone hone']

/-! ### What an operation sends -/

/-- A client library that takes only statements with their structure.  The numbers of new rows
are not negative. -/
def sending : Prog.Contract Call Reply Unit where
  allow := fun _ c => ∀ sql, c = .query sql → sql.Structured
  next := fun _ c r _ =>
    match c, r with
    | .insertId, r => (0 : Int) ≤ r
    | _, _ => True

namespace Sending

/-- Nothing is said about how an operation ends. -/
abbrev anyway : Signal → Locals → Unit → Prop := fun _ _ _ => True

abbrev returns {α : Type} : α → Locals → Unit → Prop := fun _ _ _ => True

variable {l : Locals} {sql : Sql}

theorem wp_mysqlQuery (hm : l.mysql = true) {Q : Except Bytes Recordset → Locals → Unit → Prop} :
    Proc.wp sending (mysqlQuery sql) Q anyway l () ↔ sql.Structured ∧ ∀ r, Q r l () := by
  refine (mysqlQuery_spec hm).trans ?_
  constructor
  · exact fun h => ⟨h.1 sql rfl, fun r => h.2 r () trivial⟩
  · exact fun h => ⟨fun sql' hsql => Call.query.inj hsql ▸ h.1, fun r _ _ => h.2 r⟩

theorem wp_querySQL (hm : l.mysql = true) {Q : Recordset → Locals → Unit → Prop} :
    Proc.wp sending (querySQL sql) Q anyway l () ↔ sql.Structured ∧ ∀ rs, Q rs l () := by
  unfold querySQL
  rw [Proc.wp_bind, wp_mysqlQuery hm]
  refine and_congr_right fun _ => ⟨fun h rs => h (.ok rs), fun h r => ?_⟩
  cases r with
  | error e => exact trivial
  | ok rs => exact h rs

theorem wp_execSQL (hm : l.mysql = true) {Q : Unit → Locals → Unit → Prop} :
    Proc.wp sending (execSQL sql) Q anyway l () ↔ sql.Structured ∧ Q () l () := by
  unfold execSQL
  rw [Proc.wp_bind, wp_querySQL hm]
  exact and_congr_right fun _ => ⟨fun h => h [], fun h _ => h⟩

theorem wp_getInsertId {Q : Int → Locals → Unit → Prop} (h : ∀ i, 0 ≤ i → Q i l ()) :
    Proc.wp sending getInsertId Q anyway l () :=
  (Proc.wp_call sending anyway l () Call.insertId Q).mpr ⟨nofun, fun r _ hr => h r hr⟩

theorem wp_getItem {rs : Recordset} {i : Nat} {column : Field}
    {Q : Cell → Locals → Unit → Prop} (h : ∀ cell, Q cell l ()) :
    Proc.wp sending (getItem rs i column) Q anyway l () :=
  getItem_spec trivial fun _ _ cell _ => h cell

theorem wp_close {Q : Unit → Locals → Unit → Prop} {E : Signal → Locals → Unit → Prop}
    (h : ∀ mysql, Q () { l with mysql := mysql } ()) : Proc.wp sending close Q E l () :=
  close_spec (by simp [sending]) (fun _ _ _ => h false) fun _ => h l.mysql

theorem opens : Opens sending () () where
  init := ⟨by simp [sending], fun _ _ _ => rfl⟩
  optionReconnect := ⟨by simp [sending], fun _ _ _ => rfl⟩
  optionCharset := ⟨by simp [sending], fun _ _ _ => rfl⟩
  connect := ⟨by simp [sending], fun _ _ _ => rfl⟩
  close := by simp [sending]

theorem wp_connect {Q : Unit → Locals → Unit → Prop} :
    Proc.wp sending connect Q anyway l () ↔ Q () { l with mysql := true } () := by
  refine ⟨fun h => ?_, fun h => connect_spec opens h fun _ _ _ => trivial⟩
  -- in the other direction, all four calls succeed
  unfold connect at h
  rw [Proc.wp_bind] at h
  have h : Proc.wp sending _ Q anyway l () := h.2 (.ok ()) () trivial
  simp only [Proc.wp_bind, Proc.wp_modify] at h
  exact ((h.2 () () trivial).2 () () trivial).2 (.ok ()) () trivial

/-- What holds of the block holds of the operation. -/
theorem wp_member {p handler : Service Int}
    (hhandler : ∀ l, Proc.wp sending handler returns anyway l ()) :
    Proc.wp sending (withDb (catchException p handler)) returns anyway l ()
      ↔ Proc.wp sending p returns anyway l () := by
  constructor
  · unfold withDb catchException
    rw [Proc.wp_finally_, Proc.wp_tryCatch]
    exact Proc.wp_mono (fun _ _ _ _ => trivial) fun _ _ _ _ => trivial
  · intro h
    refine block_spec h (fun _ _ _ _ => wp_close fun _ => trivial) (fun what l _ _ => ?_)
      fun _ _ _ _ => wp_close fun _ => trivial
    exact Proc.wp_mono (fun _ _ _ _ => wp_close fun _ => trivial)
      (fun _ _ _ _ => wp_close fun _ => trivial) (hhandler l)

theorem structured_of_fields (h : sql.fields = []) : sql.Structured :=
  Sql.structured_iff.mpr fun _ hfield => absurd (h ▸ hfield) List.not_mem_nil

theorem wp_rollback (l : Locals) :
    Proc.wp sending (do rollback; return (-1 : Int)) returns anyway l () := by
  unfold rollback
  simp only [Proc.wp_bind]
  obtain ⟨_ | _, account, interest, result⟩ := l
  · exact trivial
  · refine (wp_mysqlQuery rfl).mpr ⟨structured_of_fields rfl, fun r => ?_⟩
    cases r <;> exact trivial

theorem wp_return (l : Locals) :
    Proc.wp sending (return (-1 : Int) : Service Int) returns anyway l () := trivial

/-- How a transaction begins. -/
theorem wp_begin {rest : Locals → Service Int} :
    Proc.wp sending (do connect; startTransaction; let l ← Proc.get; rest l) returns anyway l ()
      ↔ Proc.wp sending (rest { l with mysql := true }) returns anyway { l with mysql := true } () := by
  rw [Proc.wp_bind, wp_connect, Proc.wp_bind, startTransaction, wp_execSQL rfl,
    and_iff_right (structured_of_fields rfl), Proc.wp_bind, Proc.wp_get]

theorem structured_number {id : Int} (h : Lone (intText id)) (hsql : sql.fields = [intText id]) :
    sql.Structured := by
  rw [Sql.structured_iff, hsql]
  simpa using h

/-- The check of flag and password, and what comes then. -/
theorem wp_check (hm : l.mysql = true) {a : Account} {forUpdate : Bool}
    {f : Recordset → Service Int} :
    Proc.wp sending (do
        let rs ← querySQL (.selectBalance (.number a.accountId) .flagZero false)
        if rs.length < 1 then return 2
        let rs ← querySQL (.selectBalance (.number a.accountId) (.pass a.pass) forUpdate)
        if rs.length < 1 then return 3
        f rs) returns anyway l ()
      ↔ Lone (intText a.accountId) ∧ Lone a.pass ∧
        ∀ rs : Recordset, ¬ rs.length < 1 → Proc.wp sending (f rs) returns anyway l () := by
  have hflag : (Sql.selectBalance (.number a.accountId) .flagZero false).Structured
      ↔ Lone (intText a.accountId) := by
    rw [Sql.structured_iff]
    simp [Sql.fields, AccountRef.field]
  have hpass : (Sql.selectBalance (.number a.accountId) (.pass a.pass) forUpdate).Structured
      ↔ Lone (intText a.accountId) ∧ Lone a.pass := by
    rw [Sql.structured_iff]
    simp [Sql.fields, AccountRef.field]
  rw [Proc.wp_bind, wp_querySQL hm, hflag]
  refine and_congr_right fun hid => ?_
  constructor
  · intro h
    have h := h [[]]
    rw [if_neg (by decide), Proc.wp_bind, wp_querySQL hm, hpass] at h
    refine ⟨h.1.2, fun rs hrs => ?_⟩
    have h := h.2 rs
    rwa [if_neg hrs] at h
  · rintro ⟨hlone, h⟩ rs
    split
    · exact trivial
    · rw [Proc.wp_bind, wp_querySQL hm, hpass]
      refine ⟨⟨hid, hlone⟩, fun rs => ?_⟩
      split
      · exact trivial
      · exact h rs ‹_›

variable (sys : System)

theorem userLogin_sends (user pass : Bytes) :
    Proc.wp sending (userLogin user pass) returns anyway l ()
      ↔ Lone (quote user) ∧ Lone (quote pass) := by
  refine (wp_member wp_return).trans ?_
  rw [Proc.wp_bind, wp_connect, Proc.wp_bind, wp_querySQL rfl, Sql.structured_iff]
  have hrest : ∀ rs : Recordset, Proc.wp sending
      (if rs.length < 1 then pure 1 else pure 0 : Service Int) returns anyway
        { l with mysql := true } () := by
    intro rs
    split <;> exact trivial
  rw [and_iff_left hrest]
  simp [Sql.fields]

theorem openAccount_sends :
    Proc.wp sending openAccount returns anyway l ()
      ↔ Lone (quote l.account.name) ∧ Lone (quote l.account.pass) ∧ Lone (quote l.account.id) := by
  refine ((wp_member wp_rollback).trans wp_begin).trans ?_
  rw [Proc.wp_bind, wp_execSQL rfl, Sql.structured_iff]
  rw [and_iff_left]
  · simp [Sql.fields]
  · rw [Proc.wp_bind]
    refine wp_getInsertId fun i hi => ?_
    simp only [Proc.wp_bind, Proc.wp_modify, commit]
    refine (wp_execSQL rfl).mpr ⟨structured_number (lone_intText.mpr hi) rfl, ?_⟩
    refine (wp_execSQL rfl).mpr ⟨structured_of_fields rfl, ?_⟩
    exact (wp_querySQL rfl).mpr ⟨structured_of_fields rfl, fun rs => wp_getItem fun _ => trivial⟩

theorem deposit_sends :
    Proc.wp sending (deposit sys) returns anyway l () ↔ Lone (intText l.account.accountId) := by
  refine ((wp_member wp_rollback).trans wp_begin).trans ?_
  rw [Proc.wp_bind, wp_querySQL rfl, Sql.structured_iff]
  constructor
  · exact fun h => h.1 _ (List.mem_singleton.mpr rfl)
  · intro hid
    refine ⟨by simpa [Sql.fields, AccountRef.field] using hid, fun rs => ?_⟩
    split
    · exact trivial
    simp only [Proc.wp_bind, Proc.wp_modify, commit]
    refine wp_getItem fun balance => (wp_execSQL rfl).mpr ⟨structured_number hid rfl, ?_⟩
    refine (wp_execSQL rfl).mpr ⟨structured_number hid rfl, wp_getInsertId fun i _ => ?_⟩
    refine (wp_execSQL rfl).mpr ⟨structured_of_fields rfl, ?_⟩
    exact (wp_querySQL rfl).mpr ⟨structured_of_fields rfl, fun rs =>
      wp_getItem fun _ => wp_getItem fun _ => trivial⟩

theorem withDraw_sends :
    Proc.wp sending (withDraw sys) returns anyway l ()
      ↔ Lone (intText l.account.accountId) ∧ Lone l.account.pass := by
  refine ((wp_member wp_rollback).trans wp_begin).trans ?_
  refine (wp_check rfl).trans (and_congr_right fun hid => and_iff_left fun rs _ => ?_)
  rw [Proc.wp_bind]
  refine wp_getItem fun balance => ?_
  show Proc.wp _ (if l.account.balance > balance.toDouble sys.junk then _ else _) _ _ _ _
  split
  · exact trivial
  simp only [Proc.wp_bind, Proc.wp_modify, commit]
  refine (wp_execSQL rfl).mpr ⟨structured_number hid rfl, ?_⟩
  refine (wp_execSQL rfl).mpr ⟨structured_number hid rfl, wp_getInsertId fun i _ => ?_⟩
  refine (wp_execSQL rfl).mpr ⟨structured_of_fields rfl, ?_⟩
  exact (wp_querySQL rfl).mpr ⟨structured_of_fields rfl, fun rs =>
    wp_getItem fun _ => wp_getItem fun _ => trivial⟩

theorem transfer_sends (other : Bytes) :
    Proc.wp sending (transfer sys other) returns anyway l ()
      ↔ Lone (intText l.account.accountId) ∧ Lone l.account.pass ∧ Lone other ∧
        Lone (intText (Convert.stringToInt sys.junk other)) := by
  refine ((wp_member wp_rollback).trans wp_begin).trans ?_
  refine (wp_check rfl).trans (and_congr_right fun hid => and_congr_right fun _ => ?_)
  have htext : ∀ cond : Sql, cond.fields = [other] → (cond.Structured ↔ Lone other) := by
    intro sql hsql
    rw [Sql.structured_iff, hsql]
    simp
  have htrans : ∀ {id o : Int} {k : Nat} {money balance : Int},
      (Sql.insertTrans id (some o) k money balance).Structured
        ↔ Lone (intText id) ∧ Lone (intText o) := by
    intro id o k money balance
    rw [Sql.structured_iff]
    simp [Sql.fields]
  constructor
  · intro h
    have h := h [[(.balance, .number l.account.balance)]] (Nat.lt_irrefl 1)
    rw [Proc.wp_bind] at h
    change Proc.wp sending (if l.account.balance > l.account.balance then _ else _) _ _ _ _ at h
    rw [if_neg (lt_irrefl _), Proc.wp_bind, wp_querySQL rfl, htext _ rfl] at h
    obtain ⟨hother, h⟩ := h
    have h := h [[(.balance, .number 0)]]
    rw [if_neg (by decide), Proc.wp_bind] at h
    change Proc.wp sending (execSQL _ >>= _) _ _ _ _ at h
    rw [Proc.wp_bind, wp_execSQL rfl, Proc.wp_bind, wp_execSQL rfl, Proc.wp_bind, wp_execSQL rfl,
      htrans] at h
    exact ⟨hother, h.2.2.1.2⟩
  · rintro ⟨hother, hnumber⟩ rs -
    rw [Proc.wp_bind]
    refine wp_getItem fun balance => ?_
    show Proc.wp _ (if l.account.balance > balance.toDouble sys.junk then _ else _) _ _ _ _
    split
    · exact trivial
    rw [Proc.wp_bind]
    refine (wp_querySQL rfl).mpr ⟨(htext _ rfl).mpr hother, fun rs => ?_⟩
    split
    · exact trivial
    simp only [Proc.wp_bind, Proc.wp_modify, commit]
    refine wp_getItem fun balance2 => (wp_execSQL rfl).mpr ⟨structured_number hid rfl, ?_⟩
    refine (wp_execSQL rfl).mpr ⟨(htext _ rfl).mpr hother, ?_⟩
    refine (wp_execSQL rfl).mpr ⟨htrans.mpr ⟨hid, hnumber⟩, wp_getInsertId fun i _ => ?_⟩
    refine (wp_querySQL rfl).mpr ⟨structured_of_fields rfl, fun rs => ?_⟩
    refine (wp_execSQL rfl).mpr ⟨htrans.mpr ⟨hnumber, hid⟩, ?_⟩
    refine (wp_execSQL rfl).mpr ⟨structured_of_fields rfl, ?_⟩
    exact wp_getItem fun _ => wp_getItem fun _ => trivial

theorem balanceInquiry_sends :
    Proc.wp sending (balanceInquiry sys) returns anyway l ()
      ↔ Lone (intText l.account.accountId) ∧ Lone l.account.pass := by
  refine (wp_member wp_return).trans ?_
  rw [Proc.wp_bind, wp_connect, Proc.wp_bind, Proc.wp_get]
  refine (wp_check rfl).trans (and_congr_right fun hid => and_iff_left fun rs _ => ?_)
  simp only [Proc.wp_bind, Proc.wp_modify]
  refine wp_getItem fun balance => (wp_querySQL rfl).mpr ⟨structured_number hid rfl, fun rs => ?_⟩
  exact wp_getItem fun _ => wp_getItem fun _ => trivial

theorem changePassword_sends (newPass : Bytes) :
    Proc.wp sending (changePassword newPass) returns anyway l ()
      ↔ Lone (intText l.account.accountId) ∧ Lone l.account.pass ∧ Lone (quote newPass) := by
  refine (wp_member wp_return).trans ?_
  rw [Proc.wp_bind, wp_connect, Proc.wp_bind, Proc.wp_get]
  refine (wp_check rfl).trans (and_congr_right fun hid => and_congr_right fun _ => ?_)
  have hupdate : (Sql.updatePass l.account.accountId newPass).Structured
      ↔ Lone (quote newPass) := by
    rw [Sql.structured_iff]
    simp [Sql.fields, hid]
  simp only [Proc.wp_bind]
  constructor
  · exact fun h => hupdate.mp ((wp_execSQL rfl).mp (h [[]] (by decide))).1
  · exact fun h rs _ => (wp_execSQL rfl).mpr ⟨hupdate.mpr h, trivial⟩

theorem closeAccount_sends :
    Proc.wp sending (closeAccount sys) returns anyway l ()
      ↔ Lone (intText l.account.accountId) ∧ Lone l.account.pass := by
  refine ((wp_member wp_return).trans wp_begin).trans ?_
  refine (wp_check rfl).trans (and_congr_right fun hid => and_iff_left fun rs _ => ?_)
  simp only [Proc.wp_bind, Proc.wp_modify, commit]
  refine wp_getItem fun balance => (wp_querySQL rfl).mpr ⟨?_, fun rs => wp_getItem fun _ => ?_⟩
  · rw [Sql.structured_iff]
    simpa [Sql.fields] using hid
  refine (wp_execSQL rfl).mpr ⟨structured_number hid rfl, ?_⟩
  refine (wp_execSQL rfl).mpr ⟨structured_of_fields rfl, ?_⟩
  refine (wp_querySQL rfl).mpr ⟨structured_number hid rfl, fun rs => ?_⟩
  exact wp_getItem fun _ => wp_getItem fun _ => trivial

theorem wp_pushDetails (total : Int) (rs : Recordset) : ∀ (is : List Nat) {l : Locals},
    Proc.wp sending (pushDetails sys total rs is) returns anyway l () := by
  intro is
  induction is with
  | nil => exact trivial
  | cons i rest ih =>
      intro l
      unfold pushDetails toDetail
      simp only [Proc.wp_bind, Proc.wp_modify, Proc.wp_pure]
      iterate 6 refine wp_getItem fun _ => ?_
      exact ih

theorem queryBill_sends (filter : BillFilter) (page : Int) :
    Proc.wp sending (queryBill sys filter page) returns anyway l ()
      ↔ ∀ field ∈ filter.fields, Lone field := by
  refine (wp_member wp_return).trans ?_
  rw [Proc.wp_bind, wp_connect, Proc.wp_bind, wp_querySQL rfl, Sql.structured_iff]
  refine and_iff_left_of_imp fun hfields rs => ?_
  simp only [Proc.wp_bind]
  refine wp_getItem fun total => (wp_querySQL rfl).mpr ⟨Sql.structured_iff.mpr hfields, ?_⟩
  intro rs
  split
  · exact trivial
  simp only [Proc.wp_bind]
  exact wp_pushDetails sys _ _ _

end Sending

/-! ### Requests -/

open Windows (Operation)

/-- What a request has brought into the statements. -/
def spliced (sys : System) : Operation → List Bytes
  | .userLogin user pass => [quote user, quote pass]
  | .openAccount a => [quote a.name, quote a.pass, quote a.id]
  | .deposit a => [intText a.accountId]
  | .withDraw a | .balanceInquiry a | .closeAccount a => [intText a.accountId, a.pass]
  | .transfer a other =>
      [intText a.accountId, a.pass, other, intText (Convert.stringToInt sys.junk other)]
  | .changePassword a newPass => [intText a.accountId, a.pass, quote newPass]
  | .queryBill filter _ => filter.fields

/-- Whatever it is answered, an operation sends nothing but statements with the structure the
source gives them. -/
def KeepsStructure (sys : System) (op : Operation) : Prop :=
  (op.program sys).wp sending (fun _ _ => True) ()

/-- **Structure.**  It is kept exactly if everything that is spliced in is one literal and is
over where it ends. -/
theorem keepsStructure_spliced (sys : System) (op : Operation) :
    KeepsStructure sys op ↔ ∀ field ∈ spliced sys op, Lone field := by
  have hwp : KeepsStructure sys op
      ↔ Proc.wp sending (op.service sys) Sending.returns Sending.anyway op.locals () := by
    unfold KeepsStructure Proc.wp
    constructor <;> refine Prog.wp_mono fun r s _ => ?_
    · obtain ⟨_ | _, _⟩ := r <;> exact trivial
    · exact trivial
  have hlocals : ∀ op : Operation, op.locals.account = op.account := fun _ => rfl
  rw [hwp]
  cases op with
  | userLogin user pass => exact (Sending.userLogin_sends user pass).trans (by simp [spliced])
  | openAccount a =>
      exact Sending.openAccount_sends.trans (by simp [spliced, hlocals, Operation.account])
  | deposit a =>
      exact (Sending.deposit_sends sys).trans (by simp [spliced, hlocals, Operation.account])
  | withDraw a =>
      exact (Sending.withDraw_sends sys).trans (by simp [spliced, hlocals, Operation.account])
  | transfer a other =>
      exact (Sending.transfer_sends sys other).trans (by simp [spliced, hlocals, Operation.account])
  | balanceInquiry a =>
      exact (Sending.balanceInquiry_sends sys).trans (by simp [spliced, hlocals, Operation.account])
  | changePassword a newPass =>
      exact (Sending.changePassword_sends newPass).trans
        (by simp [spliced, hlocals, Operation.account])
  | queryBill filter page => exact Sending.queryBill_sends sys filter page
  | closeAccount a =>
      exact (Sending.closeAccount_sends sys).trans (by simp [spliced, hlocals, Operation.account])

/-! ### Passwords -/

/-- The account is open and has another password; no teller has the name and the password. -/
def WrongPassword (db : Database) : Operation → Prop
  | .userLogin user pass => ∀ t ∈ db.teller, ¬ (t.tellerName = user ∧ t.tellerPass = pass)
  | .withDraw a | .transfer a _ | .balanceInquiry a | .changePassword a _ | .closeAccount a =>
      ∃ r ∈ db.account? a.accountId, r.flag = 0 ∧ r.pass ≠ a.pass
  | _ => False

/-- The code for a wrong password. -/
def refusal : Operation → Int
  | .userLogin .. => 1
  | _ => 3

/-- When no call fails, a wrong password is refused. -/
def RefusesWrong (sys : System) (d : Dialect) (w : World) (op : Operation) : Prop :=
  WrongPassword w.server.db op →
    ((op.program sys).run (answer d .healthy) w).1.1 = .ok (refusal op)

/-- The server holds no text for a password but the password itself. -/
def ComparesExactly (d : Dialect) (db : Database) : Operation → Prop
  | .userLogin user pass =>
      (∃ t ∈ db.teller, t.tellerName = d.quoted 16 user ∧ t.tellerPass = d.quoted 16 pass) →
        ∃ t ∈ db.teller, t.tellerName = user ∧ t.tellerPass = pass
  | .withDraw a | .transfer a _ | .balanceInquiry a | .changePassword a _ | .closeAccount a =>
      ∀ r ∈ db.account? a.accountId, r.flag = 0 → d.passIs a.pass r.pass = true → r.pass = a.pass
  | _ => True

variable {d : Dialect} {w₀ : World}

/-- Without failures an operation answers as it is planned. -/
theorem Ends.run_healthy {plan : Plan} {rollsBack : Bool} {p : Service Int} {l : Locals}
    (h : Ends d .healthy plan rollsBack p l w₀) :
    ((p.start l).run (answer d .healthy) w₀).1.1 = .ok plan.ret := by
  unfold Ends at h
  rw [Proc.wp, Prog.wp_ofHandler] at h
  rcases hrun : (p.start l).run (answer d .healthy) w₀ with ⟨⟨e | ret, l'⟩, w'⟩
  · rw [hrun] at h
    obtain ⟨-, -, k, -, hfirst, -⟩ := h
    exact absurd rfl hfirst.2
  · rw [hrun] at h
    obtain ⟨-, ⟨hret, -⟩ | ⟨-, k, -, hfirst, -⟩⟩ := h
    · rw [hret]
    · exact absurd rfl hfirst.2

/-- The check of an open account fails exactly if the server says that the password is wrong. -/
theorem checkedPlan_ret {a : Account} {calls : Nat} {h : 2 ≤ calls} {plan : BankAccount → Plan}
    (hplan : ∀ r, (plan r).ret ≠ 3) {db : Database} {r : BankAccount}
    (hr : db.account? a.accountId = some r) (hflag : r.flag = 0) :
    (checkedPlan d db a calls h plan).ret = 3 ↔ d.passIs a.pass r.pass = false := by
  have hopen : Server.find d db (.number a.accountId) .flagZero = some r := by
    rw [Server.find, Server.refersTo, hr]
    simp [Option.filter, Server.accountCond, hflag]
  have hpass : Server.find d db (.number a.accountId) (.pass a.pass)
      = if d.passIs a.pass r.pass = true then some r else none := by
    rw [Server.find, Server.refersTo, hr]
    rfl
  unfold checkedPlan
  simp only [hopen, hpass]
  cases d.passIs a.pass r.pass with
  | true => simpa using hplan r
  | false => simp [Plan.reading]

theorem refuses_checked {a : Account} {calls : Nat} {h : 2 ≤ calls} {plan : BankAccount → Plan}
    (hplan : ∀ r, (plan r).ret ≠ 3) {db : Database} :
    ((∃ r ∈ db.account? a.accountId, r.flag = 0 ∧ r.pass ≠ a.pass) →
        (.ok (checkedPlan d db a calls h plan).ret : Except Signal Int) = .ok 3)
      ↔ ∀ r ∈ db.account? a.accountId, r.flag = 0 → d.passIs a.pass r.pass = true →
          r.pass = a.pass := by
  constructor
  · intro himp r hr hflag hpass
    by_contra hne
    have hret := (checkedPlan_ret hplan hr hflag).mp (Except.ok.inj (himp ⟨r, hr, hflag, hne⟩))
    rw [hpass] at hret
    cases hret
  · rintro hall ⟨r, hr, hflag, hne⟩
    refine congrArg _ ((checkedPlan_ret hplan hr hflag).mpr ?_)
    by_contra hpass
    exact hne (hall r hr hflag (by simpa using hpass))

variable (sys : System)

/-- What an operation answers to a wrong password is what it is planned to answer. -/
theorem refusesWrong_of_ends {op : Operation} {plan : Plan} {rollsBack : Bool} {p : Service Int}
    (hends : Ends d .healthy plan rollsBack p op.locals w₀)
    (hprogram : op.program sys = p.start op.locals) :
    RefusesWrong sys d w₀ op
      ↔ (WrongPassword w₀.server.db op →
        (.ok plan.ret : Except Signal Int) = .ok (refusal op)) := by
  unfold RefusesWrong
  rw [hprogram, hends.run_healthy]

/-- **Passwords.**  A wrong password is refused exactly if the server compares as it should. -/
theorem refusesWrong_compares (hw : w₀.server.Fresh) (op : Operation) :
    RefusesWrong sys d w₀ op ↔ ComparesExactly d w₀.server.db op := by
  have hnew : op.locals.New := ⟨rfl, rfl⟩
  cases op with
  | userLogin user pass =>
      refine (refusesWrong_of_ends sys (userLogin_ends hw hnew user pass) rfl).trans ?_
      have hret : (.ok (userLoginPlan d w₀.server user pass).ret : Except Signal Int) = .ok 1
          ↔ ∀ t ∈ w₀.server.db.teller,
            ¬ (t.tellerName = d.quoted 16 user ∧ t.tellerPass = d.quoted 16 pass) := by
        have hselect : Server.select d w₀.server.db w₀.server.clock (.selectTeller user pass) = []
            ↔ ∀ t ∈ w₀.server.db.teller,
              ¬ (t.tellerName = d.quoted 16 user ∧ t.tellerPass = d.quoted 16 pass) := by
          simp [Server.select, List.filter_eq_nil_iff]
        rw [← hselect, userLoginPlan, Plan.reading]
        split
        · exact iff_of_true rfl ‹_›
        · exact iff_of_false (by simp) ‹_›
      refine (imp_congr_right fun _ => hret).trans ?_
      constructor
      · rintro h ⟨t, ht, hsame⟩
        by_contra hnone
        exact h (fun u hu hright => hnone ⟨u, hu, hright⟩) t ht hsame
      · intro h hwrong t ht hsame
        obtain ⟨u, hu, hright⟩ := h ⟨t, ht, hsame⟩
        exact hwrong u hu hright
  | withDraw a =>
      refine (refusesWrong_of_ends sys (withDraw_ends sys hw hnew) rfl).trans ?_
      exact refuses_checked fun r => by split <;> simp [Plan.reading, bookedPlan]
  | transfer a other =>
      refine (refusesWrong_of_ends sys (transfer_ends sys hw hnew other) rfl).trans ?_
      refine refuses_checked fun r => ?_
      split
      · simp [Plan.reading]
      · split <;> simp [Plan.reading]
  | balanceInquiry a =>
      refine (refusesWrong_of_ends sys (balanceInquiry_ends sys hw hnew) rfl).trans ?_
      exact refuses_checked fun r => by simp
  | changePassword a newPass =>
      refine (refusesWrong_of_ends sys (changePassword_ends hw hnew newPass) rfl).trans ?_
      exact refuses_checked fun r => by simp
  | closeAccount a =>
      refine (refusesWrong_of_ends sys (closeAccount_ends sys hw hnew) rfl).trans ?_
      exact refuses_checked fun r => by simp
  | openAccount a => exact iff_of_true (by simp [RefusesWrong, WrongPassword]) trivial
  | deposit a => exact iff_of_true (by simp [RefusesWrong, WrongPassword]) trivial
  | queryBill filter page => exact iff_of_true (by simp [RefusesWrong, WrongPassword]) trivial

/-- **Spliced texts.**  A request makes the server execute nothing but the statements of the
source, and with a wrong password it is refused, exactly if every text that is spliced in is one
literal that is over where it ends, and the server holds no other text for the password. -/
theorem spliced_iff (hw : w₀.server.Fresh) (op : Operation) :
    (KeepsStructure sys op ∧ RefusesWrong sys d w₀ op)
      ↔ (∀ field ∈ spliced sys op, Lone field) ∧ ComparesExactly d w₀.server.db op := by
  rw [keepsStructure_spliced, refusesWrong_compares sys hw]

/-! ### Examples -/

theorem spliced_iff_withDraw :
    (KeepsStructure Setup.zero.sys (.withDraw (smallLocals 1).account) ∧
        RefusesWrong Setup.zero.sys .plain smallWorld (.withDraw (smallLocals 1).account))
      ↔ (∀ field ∈ spliced Setup.zero.sys (.withDraw (smallLocals 1).account), Lone field) ∧
        ComparesExactly .plain smallWorld.server.db (.withDraw (smallLocals 1).account) :=
  spliced_iff Setup.zero.sys fresh_smallBank (.withDraw (smallLocals 1).account)

/-- A server that compares numbers. -/
def numeric : Dialect :=
  { Dialect.plain with
    passIs := fun text pass =>
      Convert.stringToInt Setup.zero.sys.junk text = Convert.stringToInt Setup.zero.sys.junk pass }

/-- A withdrawalBy of one yuan from account 1, whose password is `1`. -/
def withdrawalBy (pass : Bytes) : Operation :=
  .withDraw { (smallLocals 1).account with pass := pass }

/-- The password `1 or 1=1` is more than one literal, and `01` is held for the password `1`. -/
theorem not_spliced :
    ¬ (∀ (sys : System) (d : Dialect) (w : World) (op : Operation), w.server.Fresh →
        KeepsStructure sys op ∧ RefusesWrong sys d w op) ∧
      ¬ KeepsStructure Setup.zero.sys (withdrawalBy (ascii "1 or 1=1")) ∧
      ¬ RefusesWrong Setup.zero.sys numeric smallWorld (withdrawalBy (ascii "01")) := by
  have hkeeps : ¬ KeepsStructure Setup.zero.sys (withdrawalBy (ascii "1 or 1=1")) := by
    rw [keepsStructure_spliced]
    intro h
    obtain ⟨⟨s, hs⟩, -⟩ := h (ascii "1 or 1=1") (by simp [withdrawalBy, spliced])
    exact absurd ((congrArg List.length hs).trans List.length_singleton) (by decide +kernel)
  have hrefuses : ¬ RefusesWrong Setup.zero.sys numeric smallWorld (withdrawalBy (ascii "01")) := by
    rw [refusesWrong_compares _ fresh_smallBank]
    intro h
    have hpass := h (smallAccount 1) rfl rfl (by decide +kernel)
    revert hpass
    decide +kernel
  exact ⟨fun h => hkeeps (h _ .plain smallWorld _ fresh_smallBank).1, hkeeps, hrefuses⟩

end Bank
