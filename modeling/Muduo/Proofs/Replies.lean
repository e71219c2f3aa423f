/-
What a command leaves in the stream of its session.

A reply depends on what the stream has been given since it was cleared, and not on what
older replies have left in its array.  For the commands that write one packet the bytes
are given outright: a head whose length is the packet's own, the fields, and the hash of
the two.
-/
import Muduo.Bank.BankServer

namespace Bank

open Lib JOutStream

/-- A setup with a digest of zeros, no cipher, and storage that happens to be zero. -/
def Setup.zero : Setup where
  crypto := ⟨fun _ => Vector.replicate 16 0, fun _ _ => Vector.replicate 16 0⟩
  sys := ⟨⟨0, 0, fun _ => 0, []⟩, 0⟩

/-- Some other contents of storage. -/
def Setup.withJunk (setup : Setup) (junk : Junk) : Setup :=
  { setup with sys := { setup.sys with junk := junk } }

/-! ### Writers that do not see old bytes -/

/-- What `f` leaves in a stream is a function of what the stream held. -/
def Respects (f : JOutStream → JOutStream) : Prop :=
  ∀ j₁ j₂ : JOutStream, j₁.Inside → j₂.Inside → j₁.data = j₂.data →
    (f j₁).Inside ∧ (f j₂).Inside ∧ (f j₁).data = (f j₂).data

theorem Respects.of_appends {f : JOutStream → JOutStream} {d : Bytes} (h : Appends f d) :
    Respects f := by
  intro j₁ j₂ h₁ h₂ hd
  exact ⟨(h _ h₁).1, (h _ h₂).1, by rw [(h _ h₁).2, (h _ h₂).2, hd]⟩

theorem Respects.comp {f g : JOutStream → JOutStream} (hf : Respects f) (hg : Respects g) :
    Respects fun jos => g (f jos) := by
  intro j₁ j₂ h₁ h₂ hd
  obtain ⟨h₃, h₄, hd'⟩ := hf _ _ h₁ h₂ hd
  exact hg _ _ h₃ h₄ hd'

theorem respects_writePacket (crypto : Crypto) (cmd cnt seq : UInt16) (errorCode : Int16)
    (errorMsg : Bytes) {body : JOutStream → JOutStream} {d : Bytes} (hbody : Appends body d) :
    Respects (writePacket crypto cmd cnt seq errorCode errorMsg body) := by
  intro j₁ j₂ h₁ h₂ hd
  obtain ⟨hin₁, hdata₁⟩ := data_writePacket crypto cmd cnt seq errorCode errorMsg hbody h₁
  obtain ⟨hin₂, hdata₂⟩ := data_writePacket crypto cmd cnt seq errorCode errorMsg hbody h₂
  have hlen : j₁.length = j₂.length := by
    rw [length_eq_currIndex, length_eq_currIndex, ← length_data h₁, ← length_data h₂, hd]
  exact ⟨hin₁, hin₂, by rw [hdata₁, hdata₂, hd, hlen]⟩

/-! ### The bodies -/

variable (setup : Setup)

/-- The bytes of the first `n` characters of a string. -/
def charsField (n : Nat) (s : Bytes) : Bytes := cBytes setup.sys.junk.mem s n

theorem appends_writeChars (n : Nat) (s : Bytes) :
    Appends (Cmd.writeChars setup n s) (charsField setup n s) :=
  appends_writeBytes _

/-- The fields of a row of a bill. -/
def billFields (td : TransDetail) : Bytes :=
  charsField setup 19 td.transDate ++ charsField setup 6 td.accountId
    ++ charsField setup 6 td.otherAccountId ++ stringField (Convert.doubleToString td.money)
    ++ stringField td.abstractName ++ stringField (Convert.doubleToString td.balance)
    ++ beU32 td.total

theorem appends_billBody (td : TransDetail) :
    Appends (Cmd.billBody setup td) (billFields setup td) :=
  ((((((appends_writeChars setup 19 td.transDate).comp
    (appends_writeChars setup 6 td.accountId)).comp
    (appends_writeChars setup 6 td.otherAccountId)).comp
    (appends_putString _)).comp
    (appends_putString _)).comp
    (appends_putString _)).comp
    (appends_putU32 _)

theorem appends_balanceBody (l : Locals) :
    Appends (Cmd.balanceBody setup l)
      (stringField l.account.name ++ stringField (Convert.doubleToString l.account.balance)
        ++ charsField setup 19 l.account.opDate) :=
  ((appends_putString _).comp (appends_putString _)).comp (appends_writeChars setup 19 _)

theorem appends_closeBody (l : Locals) :
    Appends (Cmd.closeBody setup l)
      (stringField l.account.name ++ stringField (Convert.doubleToString l.account.balance)
        ++ stringField (Convert.doubleToString l.interest)
        ++ charsField setup 19 l.account.opDate) :=
  (((appends_putString _).comp (appends_putString _)).comp (appends_putString _)).comp
    (appends_writeChars setup 19 _)

theorem appends_openBody (l : Locals) :
    Appends (Cmd.openBody setup l)
      (charsField setup 6 (paddedText 6 l.account.accountId) ++ stringField l.account.opDate) :=
  (appends_writeChars setup 6 _).comp (appends_putString _)

/-! ### Every command respects the stream -/

theorem respects_writeRowsApart (cmd cnt : UInt16) (errorMsg : Bytes) (rows : List TransDetail) :
    ∀ seq, Respects (Cmd.writeRowsApart setup cmd cnt errorMsg seq rows) := by
  induction rows with
  | nil => intro seq; exact Respects.of_appends Appends.nil
  | cons td rest ih =>
      intro seq
      have hstep : Cmd.writeRowsApart setup cmd cnt errorMsg seq (td :: rest) = fun jos =>
          Cmd.writeRowsApart setup cmd cnt errorMsg (seq + 1) rest (jos.writeBytes
            (writePacket setup.crypto cmd cnt seq 0 errorMsg (Cmd.billBody setup td) .init).data) :=
        funext fun jos => by rw [Cmd.writeRowsApart]
      rw [hstep]
      exact (Respects.of_appends (appends_writeBytes _)).comp (ih (seq + 1))

theorem respects_writeRowsInto (cmd cnt : UInt16) (errorMsg : Bytes) (rows : List TransDetail) :
    ∀ seq, Respects (Cmd.writeRowsInto setup cmd cnt errorMsg seq rows) := by
  induction rows with
  | nil => intro seq; exact Respects.of_appends Appends.nil
  | cons td rest ih =>
      intro seq
      have hstep : Cmd.writeRowsInto setup cmd cnt errorMsg seq (td :: rest) = fun jos =>
          Cmd.writeRowsInto setup cmd cnt errorMsg (seq + 1) rest
            (writePacket setup.crypto cmd cnt seq 0 errorMsg (Cmd.billBody setup td) jos) :=
        funext fun jos => by rw [Cmd.writeRowsInto]
      rw [hstep]
      exact (respects_writePacket _ _ _ _ _ _ (appends_billBody setup td)).comp (ih (seq + 1))

theorem respects_writeReply {body : Locals → JOutStream → JOutStream} {d : Locals → Bytes}
    (hbody : ∀ l, Appends (body l) (d l)) (cmd : UInt16) (errorCode : Int16) (errorMsg : Bytes)
    (l : Locals) : Respects (Cmd.writeReply setup body cmd errorCode errorMsg l) := by
  unfold Cmd.writeReply
  split
  · exact respects_writePacket _ _ _ _ _ _ (hbody l)
  · exact respects_writePacket _ _ _ _ _ _ Appends.nil

private theorem respects_writeBill
    {rows : UInt16 → UInt16 → Bytes → UInt16 → List TransDetail → JOutStream → JOutStream}
    (hrows : ∀ cmd cnt errorMsg l seq, Respects (rows cmd cnt errorMsg seq l))
    (cmd : UInt16) (errorCode : Int16) (errorMsg : Bytes) (l : Locals) :
    Respects (Cmd.writeBill setup rows cmd errorCode errorMsg l) := by
  unfold Cmd.writeBill
  split
  · exact hrows _ _ _ _ _
  · exact respects_writePacket _ _ _ _ _ _ Appends.nil

/-- A command is one of the table's. -/
theorem mem_actions {cmd : UInt16} {c : Command} (h : action? setup cmd = some c) :
    (cmd, c) ∈ actions setup := by
  obtain ⟨⟨cmd', c'⟩, hfind, rfl⟩ := Option.map_eq_some_iff.mp h
  obtain rfl : cmd' = cmd := by simpa using List.find?_some hfind
  exact List.mem_of_find?_eq_some hfind

/-- **A reply does not depend on what older replies have left in the array.** -/
theorem respects_write {cmd : UInt16} {c : Command} (hc : action? setup cmd = some c)
    (errorCode : Int16) (errorMsg : Bytes) (l : Locals) :
    Respects (c.write cmd errorCode errorMsg l) := by
  have hall : ∀ a ∈ actions setup, Respects (a.2.write a.1 errorCode errorMsg l) := by
    simp only [actions, List.forall_mem_cons]
    refine ⟨?_, ?_, ?_, ?_, ?_, ?_, ?_, ?_, ?_, ?_, ?_, by simp⟩
    · exact respects_writeReply setup (fun _ => Appends.nil) _ _ _ l
    · exact respects_writePacket _ _ _ _ _ _ (appends_openBody setup l)
    · exact respects_writeReply setup (appends_balanceBody setup) _ _ _ _
    · exact respects_writeReply setup (appends_balanceBody setup) _ _ _ _
    · exact respects_writeReply setup (appends_balanceBody setup) _ _ _ _
    · exact respects_writeReply setup (appends_balanceBody setup) _ _ _ _
    · exact respects_writeReply setup (fun _ => Appends.nil) _ _ _ l
    · show Respects (Cmd.writeBill setup (Cmd.writeRowsApart setup) CMD_DAY_BILL errorCode errorMsg l)
      exact respects_writeBill setup (fun _ _ _ r => respects_writeRowsApart setup _ _ _ r) _ _ _ _
    · show Respects (Cmd.writeBill setup (Cmd.writeRowsInto setup) CMD_HISTORY_BILL errorCode errorMsg l)
      exact respects_writeBill setup (fun _ _ _ r => respects_writeRowsInto setup _ _ _ r) _ _ _ _
    · show Respects (Cmd.writeBill setup (Cmd.writeRowsInto setup) CMD_ACCOUNT_HISTORY_BILL
        errorCode errorMsg l)
      exact respects_writeBill setup (fun _ _ _ r => respects_writeRowsInto setup _ _ _ r) _ _ _ _
    · exact respects_writeReply setup (appends_closeBody setup) _ _ _ _
  exact hall _ (mem_actions setup hc)

/-- A cleared stream serves like a new one. -/
theorem data_write_of_cleared {cmd : UInt16} {c : Command} (hc : action? setup cmd = some c)
    (errorCode : Int16) (errorMsg : Bytes) (l : Locals) {jos : JOutStream}
    (hjos : jos.length = 0) :
    (c.write cmd errorCode errorMsg l jos).data
      = (c.write cmd errorCode errorMsg l .init).data := by
  have hin : jos.Inside := by
    show jos.currIndex ≤ _
    rw [show jos.currIndex = 0 from hjos]
    exact Nat.zero_le _
  have hdata : jos.data = JOutStream.init.data := by
    rw [data, show jos.currIndex = 0 from hjos]
    rfl
  exact (respects_write setup hc errorCode errorMsg l jos .init hin inside_init hdata).2.2

end Bank
