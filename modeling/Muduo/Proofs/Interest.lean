/-
The interest of an account that is closed.

The query takes the last row of each day, weights its balance with the days up to the next
such row, or up to today, and adds up.  What it is for is the sum over all days of the
balance at the end of the day.  The two agree when rows come in the order of their dates:
the last rows of the days are then marks, and the stretches between them are the days on
which a balance stands.
-/
import Mathlib.Data.List.MinMax
import Muduo.Lib.Segments
import Muduo.Proofs.Transactions

namespace Bank

open Lib MysqlDB BankService Database

/-! ### What interest is -/

/-- The day of the first row. -/
noncomputable def firstDay (rows : List Trans) : Nat :=
  ((rows.argmin Trans.transId).map fun t => dayOf t.transDate).getD 0

/-- The balance at the end of a day: that of the last row on it or before it. -/
noncomputable def endOfDay (rows : List Trans) (day : Nat) : ℚ :=
  (((rows.filter fun t => dayOf t.transDate ≤ day).argmax Trans.transId).map
    fun t => (t.balance : ℚ) / 100).getD 0

/-- The sum over the days from the first row on, today excluded. -/
noncomputable def dailyInterest (rows : List Trans) (today : Nat) (rate : ℚ) : ℚ :=
  (∑ day ∈ Finset.Ico (firstDay rows) today, endOfDay rows day) * rate / 360

/-- Rows with different numbers, in the order of their dates, none later than today. -/
structure Dated (rows : List Trans) (today : Nat) : Prop where
  nodup : (rows.map Trans.transId).Nodup
  order : ∀ t ∈ rows, ∀ u ∈ rows, t.transId ≤ u.transId → t.transDate ≤ u.transDate
  past : ∀ t ∈ rows, dayOf t.transDate ≤ today

/-! ### The last rows of the days -/

/-- The day of a row. -/
def Trans.day (t : Trans) : Nat := dayOf t.transDate

theorem dayOf_mono {t u : Nat} (h : t ≤ u) : dayOf t ≤ dayOf u := Nat.div_le_div_right h

namespace Dated

variable {db : Database} {accountId : Int} {now : Nat} {t u : Trans}

theorem mem_lastOfDays :
    t ∈ Server.lastOfDays db accountId ↔ t ∈ db.history accountId ∧
      ∀ u ∈ db.history accountId, u.day = t.day → u.transId ≤ t.transId := by
  rw [Server.lastOfDays, List.mem_filter, List.all_eq_true]
  refine and_congr_right fun _ => forall₂_congr fun u _ => ?_
  simp only [Trans.day, Bool.or_eq_true, decide_eq_true_eq]
  rw [ne_eq, imp_iff_not_or]

theorem eq_of_transId (h : Dated (db.history accountId) (dayOf now)) (ht : t ∈ db.history accountId)
    (hu : u ∈ db.history accountId) (hid : t.transId = u.transId) : t = u :=
  List.inj_on_of_nodup_map h.nodup ht hu hid

/-- Two last rows of one day are one. -/
theorem last_inj (h : Dated (db.history accountId) (dayOf now))
    (ht : t ∈ Server.lastOfDays db accountId) (hu : u ∈ Server.lastOfDays db accountId)
    (hday : t.day = u.day) : t = u := by
  obtain ⟨ht, htlast⟩ := mem_lastOfDays.mp ht
  obtain ⟨hu, hulast⟩ := mem_lastOfDays.mp hu
  exact h.eq_of_transId ht hu (le_antisymm (hulast t ht hday) (htlast u hu hday.symm))

/-- Each day with a row has a last one. -/
theorem exists_last (hu : u ∈ db.history accountId) :
    ∃ t ∈ Server.lastOfDays db accountId, t.day = u.day := by
  cases hmax : ((db.history accountId).filter fun t => t.day = u.day).argmax Trans.transId with
  | none =>
      rw [List.argmax_eq_none] at hmax
      have hmem : u ∈ (db.history accountId).filter fun t => t.day = u.day := by
        rw [List.mem_filter]
        exact ⟨hu, by simp⟩
      rw [hmax] at hmem
      cases hmem
  | some t =>
      obtain ⟨hmem, hall, -⟩ := List.argmax_eq_some_iff.mp hmax
      obtain ⟨ht, hday⟩ := List.mem_filter.mp hmem
      rw [decide_eq_true_eq] at hday
      refine ⟨t, mem_lastOfDays.mpr ⟨ht, fun v hv hvday => ?_⟩, hday⟩
      refine hall v (List.mem_filter.mpr ⟨hv, ?_⟩)
      rw [decide_eq_true_eq, hvday, hday]

/-! ### Stretches between them -/

/-- The day up to which a row's balance stands. -/
def stopOf (rows : List Trans) (now : Nat) (t : Trans) : Nat :=
  dayOf (((rows.map Trans.transDate).filter fun date => t.transDate < date).min?.getD now)

theorem balanceDays_eq (rows : List Trans) (now : Nat) (t : Trans) :
    Server.balanceDays rows now t = (stopOf rows now t : Int) - t.day := rfl

theorem next_stopOf (h : Dated (db.history accountId) (dayOf now))
    (ht : t ∈ Server.lastOfDays db accountId) :
    Next (Server.lastOfDays db accountId).toFinset Trans.day (dayOf now) t
      (stopOf (Server.lastOfDays db accountId) now t) := by
  have hlater : ∀ u ∈ Server.lastOfDays db accountId, t.day < u.day →
      u.transDate ∈ ((Server.lastOfDays db accountId).map Trans.transDate).filter
        fun date => t.transDate < date := by
    intro u hu hlt
    refine List.mem_filter.mpr ⟨List.mem_map_of_mem hu, ?_⟩
    rw [decide_eq_true_eq]
    by_contra hnot
    exact absurd hlt (not_lt_of_ge (dayOf_mono (Nat.le_of_not_lt hnot)))
  cases hmin : (((Server.lastOfDays db accountId).map Trans.transDate).filter
      fun date => t.transDate < date).min? with
  | none =>
      refine .last (by rw [stopOf, hmin]; rfl) fun u hu => ?_
      by_contra hnot
      have hmem := hlater u (List.mem_toFinset.mp hu) (Nat.lt_of_not_le hnot)
      rw [List.min?_eq_none_iff.mp hmin] at hmem
      cases hmem
  | some m =>
      obtain ⟨hmem, hall⟩ := List.min?_eq_some_iff.mp hmin
      obtain ⟨hmem, hm⟩ := List.mem_filter.mp hmem
      obtain ⟨v, hv, rfl⟩ := List.mem_map.mp hmem
      rw [decide_eq_true_eq] at hm
      refine .mark (List.mem_toFinset.mpr hv) (by rw [stopOf, hmin]; rfl) ?_ fun u hu hlt => ?_
      · refine lt_of_le_of_ne (dayOf_mono hm.le) fun hday => ?_
        rw [h.last_inj ht hv hday] at hm
        exact lt_irrefl _ hm
      · exact dayOf_mono (hall _ (hlater u (List.mem_toFinset.mp hu) hlt))

theorem segments (h : Dated (db.history accountId) (dayOf now)) :
    Segments (Server.lastOfDays db accountId).toFinset Trans.day
      (stopOf (Server.lastOfDays db accountId) now) (dayOf now) where
  inj := fun _ ht _ hu hday =>
    h.last_inj (List.mem_toFinset.mp ht) (List.mem_toFinset.mp hu) hday
  next := fun _ ht => h.next_stopOf (List.mem_toFinset.mp ht)
  le := fun t ht => h.past t (mem_lastOfDays.mp (List.mem_toFinset.mp ht)).1

/-- On the days of its stretch, a row is the last one on the day or before it. -/
theorem endOfDay_eq (h : Dated (db.history accountId) (dayOf now))
    (ht : t ∈ Server.lastOfDays db accountId) {day : Nat} (hle : t.day ≤ day)
    (hlt : day < stopOf (Server.lastOfDays db accountId) now t) :
    endOfDay (db.history accountId) day = t.balance / 100 := by
  obtain ⟨hrow, hlast⟩ := mem_lastOfDays.mp ht
  have hmax : ∀ u ∈ (db.history accountId).filter (fun t => dayOf t.transDate ≤ day),
      u ∈ db.history accountId ∧ u.transId ≤ t.transId := by
    intro u hu
    obtain ⟨hu, hday⟩ := List.mem_filter.mp hu
    rw [decide_eq_true_eq] at hday
    refine ⟨hu, ?_⟩
    by_contra hnot
    have hdate := h.order t hrow u hu (le_of_lt (lt_of_not_ge hnot))
    rcases Nat.eq_or_lt_of_le (dayOf_mono hdate) with heq | hbehind
    · exact hnot (hlast u hu heq.symm)
    · -- the stretch ends at the last row of that day, at the latest
      obtain ⟨v, hv, hvday⟩ := exists_last hu
      have hstop := h.segments.stop_le_start (List.mem_toFinset.mpr ht) (List.mem_toFinset.mpr hv)
        (by rw [hvday]; exact hbehind)
      have hday' : u.day ≤ day := hday
      omega
  have harg : ((db.history accountId).filter fun t => dayOf t.transDate ≤ day).argmax Trans.transId
      = some t := by
    refine List.argmax_eq_some_iff.mpr ⟨?_, fun u hu => (hmax u hu).2, ?_⟩
    · rw [List.mem_filter, decide_eq_true_eq]
      exact ⟨hrow, hle⟩
    · intro u hu hid
      rw [h.eq_of_transId hrow (hmax u hu).1 (le_antisymm hid (hmax u hu).2)]
  rw [endOfDay, harg]
  rfl

/-- The first stretch begins on the day of the first row. -/
theorem exists_first (h : Dated (db.history accountId) (dayOf now))
    (hne : db.history accountId ≠ []) :
    ∃ t ∈ Server.lastOfDays db accountId, t.day = firstDay (db.history accountId) ∧
      ∀ u ∈ Server.lastOfDays db accountId, t.day ≤ u.day := by
  cases hmin : (db.history accountId).argmin Trans.transId with
  | none => exact absurd (List.argmin_eq_none.mp hmin) hne
  | some f =>
      obtain ⟨hf, hall, -⟩ := List.argmin_eq_some_iff.mp hmin
      obtain ⟨t, ht, hday⟩ := exists_last hf
      refine ⟨t, ht, ?_, fun u hu => ?_⟩
      · rw [firstDay, hmin, hday]
        rfl
      · have hrow := (mem_lastOfDays.mp hu).1
        rw [hday]
        exact dayOf_mono (h.order f hf u hrow (hall u hrow))

/-- The answer of the query is the sum over the days. -/
theorem interest_eq (h : Dated (db.history accountId) (dayOf now)) (hne : db.history accountId ≠ [])
    (rate : ℚ) : Server.interest db accountId rate now
      = some (dailyInterest (db.history accountId) (dayOf now) rate) := by
  obtain ⟨first, hfirst, hday, hall⟩ := h.exists_first hne
  have hnodup : (Server.lastOfDays db accountId).Nodup :=
    List.Nodup.filter _ (List.Nodup.of_map _ h.nodup)
  have hsum := h.segments.sum_eq (List.mem_toFinset.mpr hfirst)
    (fun u hu => hall u (List.mem_toFinset.mp hu)) (f := endOfDay (db.history accountId))
    (g := fun t => (t.balance : ℚ) / 100)
    fun t ht day hle hlt => h.endOfDay_eq (List.mem_toFinset.mp ht) hle hlt
  have hlist : ((Server.lastOfDays db accountId).map fun t =>
      (Server.balanceDays (Server.lastOfDays db accountId) now t : ℚ) * ((t.balance : ℚ) / 100)).sum
      = ∑ day ∈ Finset.Ico (firstDay (db.history accountId)) (dayOf now),
        endOfDay (db.history accountId) day := by
    rw [← hday, hsum, ← List.sum_toFinset _ hnodup]
    refine Finset.sum_congr rfl fun t ht => ?_
    have hle := h.segments.start_le_stop ht
    rw [nsmul_eq_mul, balanceDays_eq, Nat.cast_sub hle]
    push_cast
    rfl
  have hsome : Server.lastOfDays db accountId ≠ [] := List.ne_nil_of_mem hfirst
  rw [Server.interest, if_neg hsome, hlist]
  rfl

end Dated

/-! ### The closing -/

variable {sys : System} {d : Dialect} {l : Locals} {w₀ : World}

theorem closing_opened : 2 ≤ 7 := by decide

theorem closing_commit_le : 7 ≤ 9 := by decide

theorem closing_two_lt : 2 < 9 := by decide

/-- What an authorised closing does, whoever asks. -/
def closingPlan (accountId : Int) : Plan where
  ret := 0
  calls := 9
  commit := 7
  writes := [.setFlag accountId]
  balance := none
  opened := closing_opened
  commit_le := closing_commit_le
  two_lt := closing_two_lt

/-- A closing that answers zero has noted what the query says. -/
theorem closeAccount_wp (sys : System) (fault : Nat → Option Bytes) (hw : w₀.server.Fresh)
    (hl : l.New) {x : ℚ} (hx : Server.interest w₀.server.db l.account.accountId sys.interestRate
      (d.time (w₀.server.clock + 3)) = some x) :
    Proc.wp (library d (.ofFaults fault)) (closeAccount sys)
      (fun ret l' _ => ret = 0 → l'.interest = x) (fun _ _ _ => True) l w₀ := by
  unfold closeAccount
  refine block_spec (P := fun ret l' _ => ret = 0 → l'.interest = x)
    (F := Breaks (.ofFaults fault) (closingPlan l.account.accountId) w₀) ?_ ?_ ?_ ?_
  · refine wp_begin hw hl fun w₃ h₃ => ?_
    rw [Proc.wp_bind, Proc.wp_get]
    -- the two refusals answer something else
    cases hopen : Server.find d w₀.server.db (.number l.account.accountId) .flagZero with
    | none =>
        refine h₃.query rfl (by simp [closingPlan]) rfl (select_of_find hopen) fun w₄ h₄ => ?_
        exact fun hret : (2 : Int) = 0 => absurd hret (by decide)
    | some r₁ =>
        refine h₃.query rfl (by simp [closingPlan]) rfl (select_of_find hopen) fun w₄ h₄ => ?_
        cases hpass : Server.find d w₀.server.db (.number l.account.accountId)
            (.pass l.account.pass) with
        | none =>
            refine h₄.query rfl (by simp [closingPlan]) rfl (select_of_find hpass) fun w₅ h₅ => ?_
            exact fun hret : (3 : Int) = 0 => absurd hret (by decide)
        | some r₂ =>
            refine h₄.query rfl (by simp [closingPlan]) rfl (select_of_find hpass) fun w₅ h₅ => ?_
            obtain ⟨hr, -⟩ := Server.account?_of_find hpass
            have hrs : Server.select d w₀.server.db (w₀.server.clock + 3)
                (.selectInterest l.account.accountId sys.interestRate)
                = [[(.interest, .number x)]] := by
              rw [Server.select, hx]
              rfl
            refine h₅.query rfl (by simp [closingPlan]) rfl hrs fun w₆ h₆ => ?_
            -- the queries have taken their time and nothing else
            have h₆ : At (.ofFaults fault) w₀ 6 (.within w₀.server.db w₀.server.db
                w₀.server.nextAccountId w₀.server.nextTransId (w₀.server.clock + 4) 0) w₆ := h₆
            refine h₆.exec rfl (by simp [closingPlan]) rfl fun w₇ h₇ => ?_
            refine h₇.exec rfl (by simp [closingPlan]) rfl fun w₈ h₈ => ?_
            have hclosed : (w₀.server.db.write (.setFlag l.account.accountId)).account?
                l.account.accountId = some { r₂ with flag := 1 } := by
              rw [account?_setFlag, if_pos rfl, hr]
              rfl
            refine h₈.query rfl (by simp [closingPlan]) rfl (select_selectNameNow hclosed _ _)
              fun w₉ h₉ => ?_
            exact fun _ => rfl
  · intro ret l' w' hret
    exact wp_close fun w'' _ _ => hret
  · intro what l' w' _
    rw [Proc.wp_pure]
    exact wp_close fun w'' _ _ hret => absurd hret (by decide)
  · exact fun c l' w' hbreaks => absurd hbreaks not_breaks_crash

/-- **Interest is the sum over the days.**  When the rows of the account come in the order of their
dates and none is later than today, a closing that answers zero has computed the sum of the
balances at the ends of the days, times the rate of a day. -/
theorem closeAccount_interest (sys : System) (d : Dialect) (fault : Nat → Option Bytes)
    (hw : w₀.server.Fresh) (hl : l.New)
    (hdated : Dated (w₀.server.db.history l.account.accountId)
      (dayOf (d.time (w₀.server.clock + 3))))
    (hne : w₀.server.db.history l.account.accountId ≠ []) {l' : Locals} {w' : World}
    (hrun : Transaction.closeAccount.run sys d fault l w₀ = ((.ok 0, l'), w')) :
    l'.interest = dailyInterest (w₀.server.db.history l.account.accountId)
      (dayOf (d.time (w₀.server.clock + 3))) sys.interestRate := by
  have hwp := closeAccount_wp (d := d) sys fault hw hl (hdated.interest_eq hne sys.interestRate)
  rw [Proc.wp, Prog.wp_ofHandler] at hwp
  unfold Transaction.run Transaction.service at hrun
  rw [hrun] at hwp
  exact hwp rfl

/-- The small bank, three days after its accounts were opened. -/
def laterWorld : World := { smallWorld with server := { smallBank with clock := 259200 } }

theorem closeAccount_interest_small : ∃ l' w',
    Transaction.closeAccount.run Setup.zero.sys .plain (fun _ => none) (smallLocals 0) laterWorld
      = ((.ok 0, l'), w') ∧
    l'.interest = dailyInterest (laterWorld.server.db.history 1)
      (dayOf (Dialect.plain.time (laterWorld.server.clock + 3))) Setup.zero.sys.interestRate := by
  obtain ⟨l', w', hrun⟩ : ∃ l' w',
      Transaction.closeAccount.run Setup.zero.sys .plain (fun _ => none) (smallLocals 0) laterWorld
        = ((.ok 0, l'), w') := ⟨_, _, rfl⟩
  refine ⟨l', w', hrun, ?_⟩
  refine closeAccount_interest _ _ _ ?_ (new_smallLocals 0) ⟨?_, ?_, ?_⟩ ?_ hrun
  · exact fresh_smallBank
  · decide
  · decide
  · decide
  · decide

end Bank
