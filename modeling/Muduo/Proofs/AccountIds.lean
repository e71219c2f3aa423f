/-
The number of a new account, on its way to the client and back.

The reply has six bytes for it.  A number of up to six digits is padded to six, and reading
the six bytes gives the number back; of a longer one the six bytes are the first six digits,
which spell another number.

What stands there when `OpenAccount` fails depends on where it fails.  Behind the insertion the
number is the one that had been assigned; before it nothing has been assigned, and the bytes
are those of an `int` nobody has set.  Such a reply is written only if the rollback fails as
well, since a rollback that works throws.
-/
import Muduo.Bank.Cmd
import Muduo.Proofs.Answers

namespace Bank

open Lib MysqlDB JInStream

/-! ### The field -/

/-- The account number in the body of a reply to `OpenAccount`. -/
def replyId (setup : Setup) (l : Locals) : Bytes := (Cmd.openBody setup l .init).data.take 6

/-- What a command makes of the account number at the front of its request. -/
def receivedId (junk : Junk) (jis : JInStream) : Option Int :=
  (Cmd.chars 6 jis).map fun p => Convert.stringToInt junk p.1

/-- A request that begins with these six bytes is about this account, whatever follows them
and whatever storage holds. -/
def ReceivedAs (field : Bytes) (id : Int) : Prop :=
  ∀ (junk : Junk) (rest : Bytes), receivedId junk (field ++ rest) = some id

theorem length_paddedText_le (width : Nat) (x : Int) : width ≤ (paddedText width x).length := by
  rw [paddedText, List.length_append, List.length_replicate]
  omega

theorem cBytes_of_le {mem : Nat → UInt8} {s : Bytes} {n : Nat} (h : n ≤ s.length) :
    cBytes mem s n = s.take n := by
  rw [cBytes, List.take_append_of_le_length h]

theorem length_take_paddedText (x : Int) : ((paddedText 6 x).take 6).length = 6 := by
  have h := length_paddedText_le 6 x
  rw [List.length_take]
  omega

/-- The six bytes do not depend on anything else. -/
theorem replyId_eq (setup : Setup) (l : Locals) :
    replyId setup l = (paddedText 6 l.account.accountId).take 6 := by
  obtain ⟨-, hdata⟩ := (JOutStream.appends_writeBytes
    (cBytes setup.sys.junk.mem (paddedText 6 l.account.accountId) 6)).comp
      (JOutStream.appends_putString l.account.opDate) .init JOutStream.inside_init
  have hlen := length_take_paddedText l.account.accountId
  rw [cBytes_of_le (length_paddedText_le 6 _), show JOutStream.init.data = [] from rfl,
    List.nil_append] at hdata
  rw [replyId, Cmd.openBody, Cmd.writeChars, cBytes_of_le (length_paddedText_le 6 _)]
  exact (congrArg (List.take 6) hdata).trans (List.take_left' hlen)

theorem isDigit_paddedText {x : Int} (hx : 0 < x) (width : Nat) :
    ∀ b ∈ paddedText width x, isDigit b = true := by
  intro b hb
  rw [paddedText, intText, if_neg (by omega)] at hb
  rcases List.mem_append.mp hb with hb | hb
  · rw [List.eq_of_mem_replicate hb]
    rfl
  · exact isDigit_of_mem_natText hb

theorem digitsValue_paddedText {x : Int} (hx : 0 < x) (width : Nat) :
    digitsValue (paddedText width x) = x.natAbs := by
  rw [paddedText, digitsValue_zeros, intText, if_neg (by omega), List.nil_append,
    digitsValue_natText]

/-- The six bytes are received as the number they spell. -/
theorem receivedId_eq (setup : Setup) (l : Locals) (junk : Junk) (rest : Bytes)
    (hl : 0 < l.account.accountId) : receivedId junk (replyId setup l ++ rest)
      = some (digitsValue ((paddedText 6 l.account.accountId).take 6) : Int) := by
  let field := (paddedText 6 l.account.accountId).take 6
  have hlen : field.length = 6 := length_take_paddedText _
  have hall : ∀ b ∈ field, isDigit b = true :=
    fun b hb => isDigit_paddedText hl 6 b (List.mem_of_mem_take hb)
  have hnul : (0 : UInt8) ∉ field := fun h0 => absurd (hall 0 h0) (by decide)
  have hne : field ≠ [] := fun h => by rw [h] at hlen; cases hlen
  have hlt := digitsValue_lt hall
  rw [hlen] at hlt
  have hchars : Cmd.chars 6 (field ++ rest) = some (field, rest) := by
    rw [Cmd.chars, bind_of_some (readBytes_append rest hlen), cString_of_no_nul hnul]
    rfl
  rw [replyId_eq, receivedId, hchars]
  show some (readInt field junk.int) = _
  rw [readInt_digits hne hall (by omega)]

/-- **The round trip**: the numbers of up to six digits. -/
theorem receivedAs_replyId_iff (setup : Setup) {l : Locals} (hl : 0 < l.account.accountId) :
    ReceivedAs (replyId setup l) l.account.accountId ↔ l.account.accountId < 10 ^ 6 := by
  have hdigits := isDigit_paddedText hl 6
  have hvalue := digitsValue_paddedText hl 6
  constructor
  · intro h
    have hback := h setup.sys.junk []
    rw [receivedId_eq _ l _ _ hl] at hback
    have hlt := digitsValue_lt fun b hb => hdigits b (List.mem_of_mem_take (i := 6) hb)
    rw [length_take_paddedText] at hlt
    have hid := Option.some.inj hback
    omega
  · intro hlt junk rest
    have hlen : (paddedText 6 l.account.accountId).length = 6 := by
      have hnat : (natText l.account.accountId.natAbs).length ≤ 6 :=
        length_natText_le (by omega) (by omega)
      rw [paddedText, List.length_append, List.length_replicate, intText, if_neg (by omega)]
      rw [List.nil_append]
      omega
    rw [receivedId_eq _ l junk rest hl, List.take_of_length_le hlen.le, hvalue]
    congr 1
    omega

/-! ### Different numbers -/

/-- Of the numbers below `bound` no two look the same in a reply. -/
def Apart (setup : Setup) (bound : Int) : Prop :=
  ∀ l l' : Locals, 0 < l.account.accountId → l.account.accountId < bound →
    0 < l'.account.accountId → l'.account.accountId < bound →
    replyId setup l = replyId setup l' → l.account.accountId = l'.account.accountId

/-- Variables that hold an account number. -/
def Locals.withId (id : Int) : Locals := ⟨false, ⟨id, [], [], [], [], 0⟩, 0, []⟩

/-- **Different numbers look different** as long as there is none of seven digits. -/
theorem apart_iff (setup : Setup) (bound : Int) : Apart setup bound ↔ bound ≤ 10 ^ 6 := by
  constructor
  · intro h
    by_contra hlt
    have heq := h (.withId 100000) (.withId 1000000) (by decide)
      (by simp only [Locals.withId]; omega) (by decide) (by simp only [Locals.withId]; omega)
      (by rw [replyId_eq, replyId_eq]; decide)
    exact absurd heq (by decide)
  · intro hbound l l' h0 hlt h0' hlt' heq
    have hback := (receivedAs_replyId_iff setup h0).mpr (by omega) setup.sys.junk []
    have hback' := (receivedAs_replyId_iff setup h0').mpr (by omega) setup.sys.junk []
    rw [heq, hback'] at hback
    exact (Option.some.inj hback).symm

/-! ### The assignment -/

variable (d : Dialect) (env : Env) (w₀ : World)

/-- The transaction is not begun, or the account not inserted, and the rollback fails too. -/
def Unassigned : Prop :=
  ∃ k, (k = 2 ∨ k = 3) ∧ env.FirstFault w₀.calls k ∧ env.fault (w₀.calls + k + 1) ≠ none

variable {d env w₀}

theorem Env.server_arrive (env : Env) (n : Nat) (s : Session) :
    (env.arrive n s).server = s.server := by
  unfold Env.arrive
  split <;> rfl

/-- How the `try` block is left: after all calls, or by the `k`-th.  The number is there from
the insertion on. -/
def BreaksOff (env : Env) (w₀ : World) (l : Locals) (e : Signal) (l' : Locals) (w : World) : Prop :=
  e = .crash .outOfBounds ∧ env.Clear w₀.calls 7 ∨
    (∃ errmsg, e = dbError errmsg) ∧ ∃ k server, Failed env w₀ k server w ∧
      l'.mysql = decide (2 ≤ k) ∧
      l'.account.accountId = if k < 4 then l.account.accountId else w₀.server.nextAccountId

theorem not_unassigned_of_clear (h : env.Clear w₀.calls 7) : ¬ Unassigned env w₀ := by
  rintro ⟨k, hk, hfirst, -⟩
  exact hfirst.2 (h k (by omega))

/-- Which failure it is decides. -/
theorem unassigned_iff {k : Nat} (h : env.FirstFault w₀.calls k) :
    Unassigned env w₀ ↔ (k = 2 ∨ k = 3) ∧ env.fault (w₀.calls + k + 1) ≠ none := by
  constructor
  · rintro ⟨j, hj, hfirst, hback⟩
    obtain rfl := h.unique hfirst
    exact ⟨hj, hback⟩
  · rintro ⟨hk, hback⟩
    exact ⟨k, hk, h, hback⟩

/-- The number in the variables when `OpenAccount` returns, and what it means that it does not. -/
theorem wp_openAccount (d : Dialect) (env : Env) {l : Locals} (hw : w₀.server.Fresh)
    (hl : l.mysql = false) :
    Proc.wp (library d env) BankService.openAccount
      (fun ret l' _ =>
        (Unassigned env w₀ → ret = -1 ∧ l'.account.accountId = l.account.accountId) ∧
          (¬ Unassigned env w₀ → l'.account.accountId = w₀.server.nextAccountId))
      (fun _ _ _ => ¬ Unassigned env w₀) l w₀ := by
  unfold BankService.openAccount
  refine block_spec
    (P := fun _ l' _ => env.Clear w₀.calls 7 ∧ l'.account.accountId = w₀.server.nextAccountId)
    (F := BreaksOff env w₀ l) ?_ ?_ ?_ ?_
  · -- the block, call by call
    have hfail : ∀ k server errmsg l' w, Failed env w₀ k server w → l'.mysql = decide (2 ≤ k) →
        l'.account.accountId = (if k < 4 then l.account.accountId else w₀.server.nextAccountId) →
        BreaksOff env w₀ l (dbError errmsg) l' w :=
      fun k server errmsg l' w h hm hid => Or.inr ⟨⟨errmsg, rfl⟩, k, server, h, hm, hid⟩
    rw [Proc.wp_bind]
    refine wp_connect hw (fun e w k hk h => hfail k _ e _ w h (decide_eq_false (by omega)).symm
      (if_pos (by omega)).symm) (fun w₂ h₂ => ?_) hl
    rw [Proc.wp_bind]
    refine h₂.wp_execSQL rfl _ (fun e w h => hfail 2 _ e _ w h rfl rfl) fun w₃ h₃ => ?_
    rw [Proc.wp_bind, Proc.wp_get, Proc.wp_bind]
    refine h₃.wp_execSQL rfl _ (fun e w h => hfail 3 _ e _ w h rfl rfl) fun w₄ h₄ => ?_
    rw [Proc.wp_bind]
    refine h₄.wp_getInsertId ?_
    have hid : (((env.arrive (w₀.statements + 1) ((env.arrive (w₀.statements + 0)
        (.opened w₀.server)).serve d .startTransaction)).serve d (.insertAccount l.account.name
          l.account.pass l.account.id (roundCents l.account.balance))).insertId)
        = w₀.server.nextAccountId := by
      show (env.arrive _ _).server.nextAccountId = _
      rw [Env.server_arrive]
      show (env.arrive _ _).server.nextAccountId = _
      rw [Env.server_arrive]
      rfl
    rw [Proc.wp_bind, Proc.wp_modify, Proc.wp_bind]
    refine h₄.wp_execSQL rfl _ (fun e w h => hfail 4 _ e _ w h rfl hid) fun w₅ h₅ => ?_
    rw [Proc.wp_bind]
    refine h₅.wp_execSQL rfl _ (fun e w h => hfail 5 _ e _ w h rfl hid) fun w₆ h₆ => ?_
    rw [Proc.wp_bind]
    refine h₆.wp_querySQL rfl _ (fun e w h => hfail 6 _ e _ w h rfl hid) fun w₇ h₇ => ?_
    rw [Proc.wp_bind]
    refine getItem_spec (Or.inl ⟨rfl, h₇.clear⟩) fun _ _ cell _ => ?_
    rw [Proc.wp_bind, Proc.wp_modify, Proc.wp_pure]
    exact ⟨h₇.clear, hid⟩
  · rintro ret l' w ⟨hclear, hid⟩
    have hnot := not_unassigned_of_clear hclear
    exact wp_close fun _ _ _ => ⟨fun h => absurd h hnot, fun _ => hid⟩
  · rintro what l' w (⟨hcrash, -⟩ | ⟨-, k, server, hfailed, hm, hid⟩)
    · cases hcrash
    have hiff := unassigned_iff ⟨hfailed.clear, hfailed.fault⟩
    rw [Proc.wp_bind]
    refine hfailed.wp_rollback hm (fun hlt => ?_) (fun h2 hback w' _ => ?_)
      (fun _ hnone w' _ _ => ?_)
    · refine wp_close fun _ _ _ => ?_
      rw [hiff]
      omega
    · rw [Proc.wp_pure]
      refine wp_close fun _ _ _ => ?_
      rw [hiff, hid]
      by_cases hk : k < 4
      · rw [if_pos hk]
        exact ⟨fun _ => ⟨rfl, rfl⟩, fun h => absurd ⟨by omega, hback⟩ h⟩
      · rw [if_neg hk]
        exact ⟨fun h => by omega, fun _ => rfl⟩
    · refine wp_close fun _ _ _ => ?_
      rw [hiff]
      exact fun h => h.2 hnone
  · rintro c l' w (⟨-, hclear⟩ | ⟨⟨errmsg, herror⟩, -⟩)
    · exact wp_close fun _ _ _ => not_unassigned_of_clear hclear
    · cases herror

/-! ### Replies to `OpenAccount` -/

/-- A request is answered, with the code `ret` and these six bytes. -/
def RepliesWith (setup : Setup) (d : Dialect) (env : Env) (w₀ : World) (body : Bytes) (ret : Int)
    (field : Bytes) : Prop :=
  let c := Cmd.openAccount setup
  ∃ args rest l, c.read body = some (args, rest) ∧
    (((c.service args).start (c.locals args)).run (answer d env) w₀).1 = (.ok ret, l) ∧
    field = replyId setup l

/-- The number in a reply is the same whatever storage holds. -/
def Determined (setup : Setup) (d : Dialect) (env : Env) (w₀ : World) (body : Bytes) : Prop :=
  ∃ field, ∀ junk ret f, RepliesWith (setup.withJunk junk) d env w₀ body ret f → f = field

/-- What the number in a reply is. -/
theorem RepliesWith.field {setup : Setup} {body field : Bytes} {ret : Int} (hw : w₀.server.Fresh)
    (h : RepliesWith setup d env w₀ body ret field) :
    (Unassigned env w₀ → ret = -1 ∧ field = (paddedText 6 setup.sys.junk.int).take 6) ∧
      (¬ Unassigned env w₀ → field = (paddedText 6 w₀.server.nextAccountId).take 6) := by
  obtain ⟨args, rest, l, -, hrun, rfl⟩ := h
  have hspec := wp_openAccount d env (l := (Cmd.openAccount setup).locals args) hw rfl
  rw [Proc.wp, Prog.wp_ofHandler] at hspec
  rw [show (Cmd.openAccount setup).service args = BankService.openAccount from rfl] at hrun
  rw [hrun] at hspec
  rw [replyId_eq]
  refine ⟨fun hun => ?_, fun hun => ?_⟩
  · obtain ⟨rfl, hid⟩ := hspec.1 hun
    rw [hid]
    exact ⟨rfl, rfl⟩
  · rw [hspec.2 hun]

/-- A request that can be read, and before whose insertion a call fails for good, is answered. -/
theorem repliesWith_of_unassigned (setup : Setup) {body : Bytes} (hw : w₀.server.Fresh)
    (hread : ((Cmd.openAccount setup).read body).isSome) (hun : Unassigned env w₀) :
    ∃ ret field, RepliesWith setup d env w₀ body ret field := by
  obtain ⟨⟨args, rest⟩, hargs⟩ := Option.isSome_iff_exists.mp hread
  have hspec := wp_openAccount d env (l := (Cmd.openAccount setup).locals args) hw rfl
  rw [Proc.wp, Prog.wp_ofHandler] at hspec
  rcases hrun : (BankService.openAccount.start ((Cmd.openAccount setup).locals args)).run
    (answer d env) w₀ with ⟨⟨e | ret, l⟩, w'⟩
  · rw [hrun] at hspec
    exact absurd hun hspec
  · exact ⟨ret, _, args, rest, l, hargs, congrArg Prod.fst hrun, rfl⟩

/-- The password in a request, decrypted. -/
private def passOf (setup : Setup) (encryptedPass : Bytes) : Bytes :=
  cString ((setup.crypto.ideaDecrypt (ideaKey setup.crypto CMD_OPEN_ACCOUNT) encryptedPass).toList
    ++ setup.sys.junk.stack ++ [0])

/-- Whether a request can be read does not depend on what storage holds. -/
theorem isSome_read_withJunk (setup : Setup) (junk : Junk) (body : Bytes) :
    ((Cmd.openAccount (setup.withJunk junk)).read body).isSome
      = ((Cmd.openAccount setup).read body).isSome := by
  have hread : ∀ s : Setup, (Cmd.openAccount s).read body
      = (getString body).bind fun n => (readBytes 16 n.2).bind fun p =>
          ((do
            let id ← Cmd.chars 18
            let money ← getString
            return (n.1, passOf s p.1, id, money)) : Read (Bytes × Bytes × Bytes × Bytes)) p.2 := by
    intro s
    show (getString body).bind _ = _
    refine congrArg _ (funext fun n => ?_)
    show ((readBytes 16 n.2).bind _).bind _ = _
    rw [Option.bind_assoc]
    rfl
  rw [hread, hread]
  rcases getString body with _ | ⟨name, jis⟩
  · rfl
  · show ((readBytes 16 jis).bind _).isSome = ((readBytes 16 jis).bind _).isSome
    rcases readBytes 16 jis with _ | ⟨pass, jis⟩
    · rfl
    · show ((Cmd.chars 18 jis).bind _).isSome = ((Cmd.chars 18 jis).bind _).isSome
      rcases Cmd.chars 18 jis with _ | ⟨id, jis⟩
      · rfl
      · show ((getString jis).bind _).isSome = ((getString jis).bind _).isSome
        cases getString jis <;> rfl

/-- An account that could be opened has its number determined by the request. -/
theorem determined_iff (setup : Setup) (body : Bytes) (hw : w₀.server.Fresh) :
    Determined setup d env w₀ body
      ↔ (((Cmd.openAccount setup).read body).isSome → ¬ Unassigned env w₀) := by
  constructor
  · rintro ⟨field, h⟩ hread hun
    let junk (id : Int) : Junk := { setup.sys.junk with int := id }
    have hfield : ∀ id, field = (paddedText 6 id).take 6 := by
      intro id
      obtain ⟨ret, f, hf⟩ := repliesWith_of_unassigned (d := d) (setup.withJunk (junk id)) hw
        (by rw [isSome_read_withJunk, hread]) hun
      rw [← h _ _ _ hf]
      exact ((hf.field hw).1 hun).2
    exact absurd ((hfield 0).symm.trans (hfield 1)) (by decide)
  · intro h
    refine ⟨(paddedText 6 w₀.server.nextAccountId).take 6, fun junk ret f hf => ?_⟩
    refine (hf.field hw).2 (h ?_)
    obtain ⟨args, rest, l, hread, -⟩ := hf
    rw [← isSome_read_withJunk setup junk, hread]
    rfl

/-- **The number of a new account.**  It comes back as it went out, and differs from that of
every account opened before, exactly if it has at most six digits; and the reply's bytes are
settled, also when opening fails, unless the transaction could not be begun, or the account not
inserted, and the rollback failed after that. -/
theorem openAccount_number (setup : Setup) (d : Dialect) (env : Env) (body : Bytes) {w₀ : World}
    (hw : w₀.server.Fresh) (hid : 0 < w₀.server.nextAccountId) :
    (∀ field, RepliesWith setup d env w₀ body 0 field →
        (ReceivedAs field w₀.server.nextAccountId ↔ w₀.server.nextAccountId < 10 ^ 6)) ∧
      (Apart setup (w₀.server.nextAccountId + 1) ↔ w₀.server.nextAccountId < 10 ^ 6) ∧
      (Determined setup d env w₀ body
        ↔ (((Cmd.openAccount setup).read body).isSome → ¬ Unassigned env w₀)) := by
  refine ⟨fun field h => ?_, ?_, determined_iff setup body hw⟩
  · have hun : ¬ Unassigned env w₀ := fun hun => absurd ((h.field hw).1 hun).1 (by decide)
    have hback := receivedAs_replyId_iff setup (l := .withId w₀.server.nextAccountId) hid
    rw [(h.field hw).2 hun]
    rwa [replyId_eq] at hback
  · rw [apart_iff]
    omega

/-! ### Examples -/

/-- The next account is the millionth. -/
def millionWorld : World :=
  { smallWorld with server := { smallBank with nextAccountId := 1000000 } }

/-- A request to open an account, with nothing paid in. -/
def openRequest : Bytes := [0, 0] ++ List.replicate 16 0 ++ List.replicate 18 48 ++ [0, 1, 48]

/-- The transaction cannot be begun, and the rollback fails as well. -/
def notBegun (n : Nat) : Option Bytes := if n = 2 ∨ n = 3 then some [] else none

theorem openAccount_number_small :
    (∀ field, RepliesWith .zero .plain .healthy smallWorld openRequest 0 field →
        (ReceivedAs field 3 ↔ (3 : Int) < 10 ^ 6)) ∧
      (Apart .zero 4 ↔ (3 : Int) < 10 ^ 6) ∧
      (Determined .zero .plain .healthy smallWorld openRequest
        ↔ (((Cmd.openAccount .zero).read openRequest).isSome → ¬ Unassigned .healthy smallWorld)) :=
  openAccount_number .zero .plain .healthy openRequest fresh_smallBank (by decide)

/-- The account with the number 1000000 gets the reply of the one with the number 100000, and
an account that is not opened gets the number that happens to be in storage. -/
theorem not_openAccount_number :
    (∃ field, RepliesWith .zero .plain .healthy millionWorld openRequest 0 field ∧
        receivedId Setup.zero.sys.junk field = some 100000 ∧
        field = replyId .zero (.withId 100000)) ∧
      ¬ Determined .zero .plain (.ofFaults notBegun) smallWorld openRequest := by
  refine ⟨⟨_, ⟨_, _, _, rfl, rfl, rfl⟩, ?_, ?_⟩, ?_⟩
  · decide +kernel
  · decide +kernel
  · rw [determined_iff _ _ fresh_smallBank]
    intro h
    refine h rfl ⟨2, Or.inl rfl, ⟨?_, by decide⟩, by decide⟩
    intro i hi
    interval_cases i <;> rfl

end Bank
