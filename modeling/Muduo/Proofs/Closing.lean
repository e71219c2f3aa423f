/-
A closed account stays as it is.

The members of `BankService` ask whether an account is open and lock its row in two
statements, and the one that locks the row does not ask again.  Where it finds a row that is
still open, the account cannot be closed before the transaction is over, and everything
that is then committed is about accounts that are open.
-/
import Muduo.Proofs.RowLocks
import Muduo.Proofs.Transactions
import Muduo.Lib.Runs

namespace Windows

open Lib Bank

/-! ### All threads -/

/-- A request to close the account has been answered with success. -/
def isClosing (accountId : Int) : Operation × Except Signal Int → Bool
  | (.closeAccount account, .ok ret) => account.accountId = accountId && ret = 0
  | _ => false

/-- How often an account has been closed, as the answers say. -/
def BankThreads.closings (s : BankThreads) (accountId : Int) : Nat :=
  s.answers.countP (isClosing accountId)

/-- What every thread knows is so, no account is closed by two threads, and one of which a
client was told that it is closed is not closed again. -/
structure Sound (d : Dialect) (s : BankThreads) (know : Nat → Know) : Prop where
  ahead : s.server.Ahead
  unique : s.locks.Unique
  knows : ∀ i, Knows s.server s.locks i (s.thread i).link (know i)
  keeps : ∀ i op p, (s.thread i).serving = some (op, p) → p.wp (pact d) op.Ends (know i)
  told : ∀ i, ∀ a ∈ (know i).closed, s.server.db.IsClosed a
  once : ∀ i j a, a ∈ (know i).closed → a ∈ (know j).closed → i = j
  closings : ∀ a, s.closings a ≤ 1
  spent : ∀ a, 0 < s.closings a → s.server.db.IsClosed a ∧ ∀ i, a ∉ (know i).closed

namespace Sound

variable {sys : System} {d : Dialect} {s : BankThreads} {know : Nat → Know}

theorem init {server : Server} (h : server.Fresh) : Sound d (.init server) fun _ => .start where
  ahead := by
    intro a ha
    obtain ⟨r, hr⟩ := Option.isSome_iff_exists.mp ha
    exact h.account a (Table.mem_keys_of_find? hr)
  unique := nofun
  knows := fun i => .none _ _ _ rfl rfl rfl rfl rfl rfl
  keeps := nofun
  told := nofun
  once := nofun
  closings := fun a => Nat.zero_le 1
  spent := fun a ha => absurd ha (Nat.lt_irrefl 0)

/-- What is to be shown of every thread is shown of the one that changes and of the others. -/
theorem forall_update {P : Nat → BankThread → Know → Prop} {thread : Nat → BankThread} {i : Nat}
    {t : BankThread} {g : Know} (hi : P i t g) (hother : ∀ j, j ≠ i → P j (thread j) (know j)) (j : Nat) :
    P j (Function.update thread i t j) (Function.update know i g j) := by
  by_cases hj : j = i
  · subst hj
    rw [Function.update_self, Function.update_self]
    exact hi
  · rw [Function.update_of_ne hj, Function.update_of_ne hj]
    exact hother j hj

/-- What is in the knowledge of a thread when that of thread `i` is `g'`. -/
theorem mem_closed_update {i j a : _} {g' : Know} (h : a ∈ (Function.update know i g' j).closed) :
    (j = i ∧ a ∈ g'.closed) ∨ (j ≠ i ∧ a ∈ (know j).closed) := by
  by_cases hj : j = i
  · subst hj
    rw [Function.update_self] at h
    exact Or.inl ⟨rfl, h⟩
  · rw [Function.update_of_ne hj] at h
    exact Or.inr ⟨hj, h⟩

theorem request (h : Sound d s know) (i : Nat) {op : Operation} (hop : op.Plain sys d) :
    ∃ know', Sound d (s.request sys i op) know' := by
  unfold BankThreads.request
  split
  · exact ⟨know, h⟩
  · have hclosed : ∀ j a, a ∈ (Function.update know i .start j).closed → a ∈ (know j).closed := by
      intro j a ha
      rcases mem_closed_update ha with ⟨-, ha⟩ | ⟨-, ha⟩
      · cases ha
      · exact ha
    refine ⟨Function.update know i .start, h.ahead, ?_, ?_, ?_, ?_, ?_, h.closings, ?_⟩
    · exact fun a j k hj hk => h.unique a j k (List.mem_of_mem_filter hj) (List.mem_of_mem_filter hk)
    · refine forall_update (P := fun j t g => Knows s.server (s.locks.filter (·.2 ≠ i)) j t.link g)
        (.none _ _ _ rfl rfl rfl rfl rfl rfl) fun j hj => ?_
      refine (h.knows j).other (fun a _ => .refl _ _) le_rfl fun a ha => ?_
      exact List.mem_filter.mpr ⟨ha, by simpa using hj⟩
    · refine forall_update (P := fun _ t g => ∀ op p, t.serving = some (op, p) →
        p.wp (pact d) op.Ends g) (fun op' p hp => ?_) fun j _ => h.keeps j
      obtain ⟨rfl, rfl⟩ := Prod.mk.inj (Option.some.inj hp)
      exact Operation.program_keeps hop _
    · exact fun j a ha => h.told j a (hclosed j a ha)
    · exact fun j k a hj hk => h.once j k a (hclosed j a hj) (hclosed k a hk)
    · exact fun a ha => ⟨(h.spent a ha).1, fun j hj => (h.spent a ha).2 j (hclosed j a hj)⟩

/-- The thread that makes a call changes nothing that another one knows, and no account that
is closed. -/
theorem call (h : Sound d s know) (i : Nat) (fault : Option Bytes)
    (hfinds : fault = none → ∀ op sql k, (s.thread i).serving = some (op, .call (.query sql) k) →
      FindsOpen d s.server sql) :
    (∃ know', Sound d (s.call d i fault) know') ∧
      ∀ a, s.server.db.IsClosed a → s.server.db.Alike (s.call d i fault).server.db a := by
  unfold BankThreads.call
  split
  · rename_i op c k hserving
    split
    · exact ⟨⟨know, h⟩, fun a _ => .refl _ _⟩
    · rename_i hwaits
      obtain ⟨hallow, hrest⟩ := h.keeps i op _ hserving
      obtain ⟨g', hnext, hans⟩ := (h.knows i).call_answered h.ahead c fault hallow fun hf sql hsql => by
        subst hsql
        exact hfinds hf op sql k hserving
      set r := Bank.answer d (.ofFaults fun _ => fault) c ⟨s.server, (s.thread i).link, 0, 0⟩ with hr
      have hfree : ¬ s.locks.Waits i (if fault = none then lockOfCall d s.server c else none) := by
        split
        · rename_i hf
          exact fun hc => hwaits ⟨hf, hc⟩
        · rintro ⟨p, -, hp, -⟩
          cases hp
      have halike : ∀ a, s.server.db.IsClosed a → s.server.db.Alike r.2.server.db a :=
        fun a ha => hans.others a fun hown => (h.knows i).not_isClosed hown ha
      have hother : ∀ j, j ≠ i → ∀ a, (know j).Owns a → ¬ (know i).Owns a := fun j hj a ha hi =>
        hj (h.unique a j i ((h.knows j).locked a ha) ((h.knows i).locked a hi))
      refine ⟨⟨Function.update know i g', hans.ahead, h.unique.after hfree, ?_, ?_, ?_, ?_, h.closings,
        ?_⟩, halike⟩
      · refine forall_update (P := fun j t g => Knows r.2.server _ j t.link g) hans.knows fun j hj => ?_
        exact (h.knows j).other (fun a ha => hans.others a (hother j hj a ha)) hans.counter
          fun a ha => Locks.mem_after_of_ne ha hj
      · refine forall_update (P := fun _ t g => ∀ op p, t.serving = some (op, p) →
          p.wp (pact d) op.Ends g) (fun op' p hp => ?_) fun j _ => h.keeps j
        obtain ⟨rfl, rfl⟩ := Prod.mk.inj (Option.some.inj hp)
        exact hrest _ _ hnext
      · intro j a ha
        rcases mem_closed_update ha with ⟨rfl, hg'⟩ | ⟨-, ha⟩
        · rcases hans.closed a hg' with ha | ⟨-, ha⟩
          · exact (halike a (h.told j a ha)).isClosed.mpr (h.told j a ha)
          · exact ha
        · exact (halike a (h.told j a ha)).isClosed.mpr (h.told j a ha)
      · have hnew : ∀ j a, a ∈ g'.closed → a ∈ (know j).closed → i = j := by
          intro j a ha hj
          rcases hans.closed a ha with ha | ⟨hopen, -⟩
          · exact h.once i j a ha hj
          · exact absurd (h.told j a hj) hopen.not_isClosed
        intro j k a hj hk
        rcases mem_closed_update hj with ⟨hji, hj'⟩ | ⟨-, hj'⟩
        · rcases mem_closed_update hk with ⟨hki, -⟩ | ⟨-, hk'⟩
          · exact hji.trans hki.symm
          · exact hji.trans (hnew k a hj' hk')
        · rcases mem_closed_update hk with ⟨hki, hk'⟩ | ⟨-, hk'⟩
          · exact ((hki.trans (hnew j a hk' hj'))).symm
          · exact h.once j k a hj' hk'
      · intro a ha
        obtain ⟨hclosed, hnot⟩ := h.spent a ha
        refine ⟨(halike a hclosed).isClosed.mpr hclosed, fun j hj => ?_⟩
        rcases mem_closed_update hj with ⟨-, hg'⟩ | ⟨-, hj⟩
        · rcases hans.closed a hg' with hi | ⟨hopen, -⟩
          · exact hnot i hi
          · exact hopen.not_isClosed hclosed
        · exact hnot j hj
  · exact ⟨⟨know, h⟩, fun a _ => .refl _ _⟩

/-- A thread that answers has closed the account if it says so. -/
theorem answer (h : Sound d s know) (i : Nat) {s' : BankThreads} (hstep : s.answer i = .ok s') :
    (∃ know', Sound d s' know') ∧ s'.server = s.server := by
  unfold BankThreads.answer at hstep
  split at hstep
  · cases hstep
  · rename_i op r l _ hserving
    obtain rfl := Except.ok.inj hstep
    have hends : op.Ends (r, l) (know i) := h.keeps i op _ hserving
    have hclosing : ∀ a, isClosing a (op, r) = true → a ∈ (know i).closed := by
      intro a ha
      unfold isClosing at ha
      split at ha
      · rename_i account ret heq
        obtain ⟨rfl, rfl⟩ := Prod.mk.inj heq
        simp only [Bool.and_eq_true, decide_eq_true_eq] at ha
        obtain ⟨rfl, rfl⟩ := ha
        exact hends account rfl rfl
      · cases ha
    have hcount : ∀ a, BankThreads.closings
        { s with
          thread := Function.update s.thread i ⟨none, (s.thread i).link⟩
          answers := (op, r) :: s.answers } a
        = s.closings a + if isClosing a (op, r) then 1 else 0 := fun a => List.countP_cons
    have hclosed : ∀ j a, a ∈ (Function.update know i { know i with closed := [] } j).closed →
        j ≠ i ∧ a ∈ (know j).closed := by
      intro j a ha
      rcases mem_closed_update ha with ⟨-, ha⟩ | ha
      · cases ha
      · exact ha
    refine ⟨⟨Function.update know i { know i with closed := [] }, h.ahead, h.unique, ?_, ?_, ?_, ?_, ?_,
      ?_⟩, rfl⟩
    · have hk := h.knows i
      exact forall_update (P := fun j t g => Knows s.server s.locks j t.link g)
        ⟨hk.inTx, hk.insertId, hk.locked, hk.found, hk.fresh, hk.writes, hk.flagged, hk.idle⟩
        fun j _ => h.knows j
    · exact forall_update (P := fun _ t g => ∀ op p, t.serving = some (op, p) →
        p.wp (pact d) op.Ends g) nofun fun j _ => h.keeps j
    · exact fun j a ha => h.told j a (hclosed j a ha).2
    · exact fun j k a hj hk => h.once j k a (hclosed j a hj).2 (hclosed k a hk).2
    · intro a
      rw [hcount]
      by_cases ha : isClosing a (op, r) = true
      · have hzero : s.closings a = 0 :=
          Nat.eq_zero_of_not_pos fun hpos => (h.spent a hpos).2 i (hclosing a ha)
        rw [hzero, if_pos ha]
      · rw [if_neg ha]
        exact h.closings a
    · intro a hpos
      rw [hcount] at hpos
      by_cases ha : isClosing a (op, r) = true
      · refine ⟨h.told i a (hclosing a ha), fun j hj => ?_⟩
        obtain ⟨hne, hj⟩ := hclosed j a hj
        exact hne (h.once j i a hj (hclosing a ha))
      · rw [if_neg ha] at hpos
        obtain ⟨hclosed', hnot⟩ := h.spent a hpos
        exact ⟨hclosed', fun j hj => hnot j (hclosed j a hj).2⟩
  · obtain rfl := Except.ok.inj hstep
    exact ⟨⟨know, h⟩, rfl⟩

end Sound

/-! ### Runs -/

/-- The statement a thread is about to send. -/
def BankThread.statement? (t : BankThread) : Option Sql :=
  match t.serving with
  | some (_, .call (.query sql) _) => some sql
  | _ => none

instance (sys : System) (d : Dialect) (op : Operation) : Decidable (op.Plain sys d) := by
  unfold Operation.Plain
  split <;> infer_instance

/-- The row that a `select .. for update` finds by its password is still open, and a
transfer names the other account in a way that is read alike by everybody. -/
def KeepsOpen (sys : System) (d : Dialect) : Action → BankThreads → Prop
  | .request _ op, _ => op.Plain sys d
  | .call i none, s => ∀ sql ∈ (s.thread i).statement?, FindsOpen d s.server sql
  | _, _ => True

instance (sys : System) (d : Dialect) (a : Action) (s : BankThreads) :
    Decidable (KeepsOpen sys d a s) := by
  unfold KeepsOpen
  split <;> infer_instance

variable {sys : System} {d : Dialect}

theorem Sound.step {s s' : BankThreads} {know : Nat → Know} (h : Sound d s know) (a : Action)
    (hopen : KeepsOpen sys d a s) (hstep : BankThreads.step sys d a s = .ok s') :
    (∃ know', Sound d s' know') ∧ ∀ a, s.server.db.IsClosed a → s.server.db.Alike s'.server.db a := by
  cases a with
  | request i op =>
      obtain rfl := Except.ok.inj hstep
      have hserver : (s.request sys i op).server = s.server := by
        unfold BankThreads.request
        split <;> rfl
      refine ⟨h.request i hopen, fun a _ => ?_⟩
      rw [hserver]
      exact .refl _ _
  | call i fault =>
      obtain rfl := Except.ok.inj hstep
      refine h.call i fault ?_
      rintro rfl op sql k hserving
      refine hopen sql ?_
      rw [BankThread.statement?, hserving]
      rfl
  | answer i =>
      obtain ⟨hsound, hserver⟩ := h.answer i hstep
      refine ⟨hsound, fun a _ => ?_⟩
      rw [hserver]
      exact .refl _ _

theorem Sound.run {s s' : BankThreads} {know : Nat → Know} (h : Sound d s know) {acts : List Action}
    (hrun : run (BankThreads.step sys d) acts s = .ok s')
    (hopen : Along (BankThreads.step sys d) (KeepsOpen sys d) acts s) :
    (∃ know', Sound d s' know') ∧ ∀ a, s.server.db.IsClosed a → s.server.db.Alike s'.server.db a := by
  let Inv : BankThreads → Prop := fun t =>
    (∃ know', Sound d t know') ∧ ∀ a, s.server.db.IsClosed a → s.server.db.Alike t.server.db a
  have hstep : ∀ a t t', Inv t → KeepsOpen sys d a t → BankThreads.step sys d a t = .ok t' → Inv t' := by
    rintro a t t' ⟨⟨know', h'⟩, halike⟩ hmay hstep
    obtain ⟨hsound, hnext⟩ := h'.step a hmay hstep
    refine ⟨hsound, fun b hb => ?_⟩
    exact (halike b hb).trans (hnext b ((halike b hb).isClosed.mpr hb))
  have hstart : Inv s := ⟨⟨know, h⟩, fun a _ => .refl _ _⟩
  exact run_inv_along hstep hstart hopen hrun

/-- **A closed account stays closed.**  If no `select .. for update` finds a closed account by
its password, an account is closed at most once, and from then on no balance of it and no row
about it is committed. -/
theorem closed_is_final {server : Server} (hserver : server.Fresh) {acts : List Action}
    {s : BankThreads} (hrun : run (BankThreads.step sys d) acts (.init server) = .ok s)
    (hopen : Along (BankThreads.step sys d) (KeepsOpen sys d) acts (.init server)) :
    (∀ a, s.closings a ≤ 1 ∧ (0 < s.closings a → s.server.db.IsClosed a)) ∧
      ∀ more s', run (BankThreads.step sys d) more s = .ok s' →
        Along (BankThreads.step sys d) (KeepsOpen sys d) more s → ∀ a, s.server.db.IsClosed a →
          s'.server.db.balance a = s.server.db.balance a ∧
            s'.server.db.history a = s.server.db.history a := by
  obtain ⟨⟨know, h⟩, -⟩ := (Sound.init hserver).run hrun hopen
  refine ⟨fun a => ⟨h.closings a, fun ha => (h.spent a ha).1⟩, fun more s' hmore hopen' a ha => ?_⟩
  have halike := (h.run hmore hopen').2 a ha
  exact ⟨halike.balance, halike.history⟩

/-- So many calls of a thread, which all succeed. -/
def calls (i n : Nat) : List Action := List.replicate n (.call i none)

/-- A run of the small bank that comes to its end, with what has become of account 1. -/
theorem exists_run {acts : List Action} {n : Nat} {x : Int}
    (h : (run (BankThreads.step Setup.zero.sys .plain) acts (.init smallBank)).toOption.map
      (fun s => (s.closings 1, s.server.db.balance 1)) = some (n, x)) :
    ∃ s, run (BankThreads.step Setup.zero.sys .plain) acts (.init smallBank) = .ok s ∧
      s.closings 1 = n ∧ s.server.db.balance 1 = x := by
  cases hrun : run (BankThreads.step Setup.zero.sys .plain) acts (.init smallBank) with
  | error c =>
      rw [hrun] at h
      cases h
  | ok s =>
      rw [hrun] at h
      obtain ⟨hn, hx⟩ := Prod.mk.inj (Option.some.inj h)
      exact ⟨s, rfl, hn, hx⟩

/-- Thread 0 closes account 1, and then thread 1 finds that it is closed. -/
def closedInTurn : List Action :=
  [.request 0 (.closeAccount (smallLocals 0).account)] ++ calls 0 14 ++ [.answer 0] ++
    [.request 1 (.closeAccount (smallLocals 0).account)] ++ calls 1 7 ++ [.answer 1]

theorem closed_is_final_inTurn :
    ∃ s, run (BankThreads.step Setup.zero.sys .plain) closedInTurn (.init smallBank) = .ok s ∧
      s.closings 1 = 1 ∧ (∀ a, s.closings a ≤ 1 ∧ (0 < s.closings a → s.server.db.IsClosed a)) ∧
      ∀ more s', run (BankThreads.step Setup.zero.sys .plain) more s = .ok s' →
        Along (BankThreads.step Setup.zero.sys .plain) (KeepsOpen Setup.zero.sys .plain) more s →
        ∀ a, s.server.db.IsClosed a → s'.server.db.balance a = s.server.db.balance a ∧
          s'.server.db.history a = s.server.db.history a := by
  obtain ⟨s, hrun, hone, -⟩ := exists_run (n := 1) (x := 10000)
    (show Option.map _ (run _ closedInTurn _).toOption = _ by decide +kernel)
  exact ⟨s, hrun, hone, closed_is_final fresh_smallBank hrun (by decide +kernel)⟩

/-- Two threads have seen that account 1 is open before the first one closes it. -/
def closedTwice : List Action :=
  [.request 0 (.closeAccount (smallLocals 0).account),
    .request 1 (.closeAccount (smallLocals 0).account)] ++ calls 0 6 ++ calls 1 6 ++
    calls 0 8 ++ [.answer 0] ++ calls 1 8 ++ [.answer 1]

/-- A withdrawal has seen that account 1 is open before another thread closes it. -/
def closedMeanwhile : List Action :=
  [.request 0 (.closeAccount (smallLocals 0).account), .request 1 (.withDraw (smallLocals 1).account)] ++
    calls 1 6 ++ calls 0 14 ++ [.answer 0]

/-- Both threads close the account, and the withdrawal is booked on an account that is closed. -/
theorem closed_not_final :
    (∃ s, run (BankThreads.step Setup.zero.sys .plain) closedTwice (.init smallBank) = .ok s ∧
      s.closings 1 = 2) ∧
    (∃ s, run (BankThreads.step Setup.zero.sys .plain) closedMeanwhile (.init smallBank) = .ok s ∧
      s.closings 1 = 1 ∧ s.server.db.balance 1 = 10000) ∧
    ∃ s, run (BankThreads.step Setup.zero.sys .plain) (closedMeanwhile ++ calls 1 9) (.init smallBank)
      = .ok s ∧ s.closings 1 = 1 ∧ s.server.db.balance 1 = 9900 := by
  refine ⟨?_, exists_run (by decide +kernel), exists_run (by decide +kernel)⟩
  obtain ⟨s, hrun, htwice, -⟩ := exists_run (n := 2) (x := 10000)
    (show Option.map _ (run _ closedTwice _).toOption = _ by decide +kernel)
  exact ⟨s, hrun, htwice⟩

end Windows
