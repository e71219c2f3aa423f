/-
What a page of a bill is.

The rows a bill is about are joined with the names of what they are about, ordered by their
date, and cut into pages of fifteen.  A bill query that is not disturbed answers with the page
it was asked for and with the number of all rows beside each of its rows; one that is disturbed
answers that the database has failed.
-/
import Muduo.Proofs.Drops

namespace Bank

open Lib MysqlDB BankService

/-! ### Pages -/

/-- The rows of a bill with their names, in the order they come out of the database. -/
def Server.joined (d : Dialect) (db : Database) (clock : Nat) (filter : BillFilter) :
    List (Trans × Abstract) :=
  (d.orderByDate clock (Server.billRows d db filter)).flatMap fun t =>
    (db.abstract.filter fun a => a.abstractId = t.abstractId).map (t, ·)

/-- The fifteen of them from `offset` on. -/
def Server.page (d : Dialect) (db : Database) (clock : Nat) (filter : BillFilter) (offset : Int) :
    List (Trans × Abstract) :=
  ((Server.joined d db clock filter).drop offset.toNat).take 15

/-- How many rows there are. -/
def Server.total (d : Dialect) (db : Database) (filter : BillFilter) : Nat :=
  ((Server.billRows d db filter).map fun t =>
    (db.abstract.filter fun a => a.abstractId = t.abstractId).length).sum

theorem select_selectTrans (d : Dialect) (db : Database) (clock : Nat) (filter : BillFilter)
    (offset : Int) :
    Server.select d db clock (.selectTrans filter offset)
      = (Server.page d db clock filter offset).map fun p => Server.billRow d p.1 p.2 := by
  simp only [Server.select, Server.page, Server.joined, List.map_take, List.map_drop,
    List.map_flatMap, List.map_map]
  rfl

/-- What a row becomes on its way out. -/
def toTransDetail (d : Dialect) (total : Nat) (p : Trans × Abstract) : TransDetail where
  accountId := (Server.idCell (some p.1.accountId)).str
  otherAccountId := (Server.idCell p.1.otherAccountId).str
  abstractName := p.2.name
  money := p.1.money / 100
  balance := p.1.balance / 100
  transDate := d.dateTime p.1.transDate
  total := UInt32.ofInt total

/-! ### The answer to a bill query -/

variable {d : Dialect} {env : Env} {w₀ : World} {l : Locals}

private theorem wp_toTransDetail (sys : System) (total : Nat) {rs : Recordset} {i : Nat}
    {p : Trans × Abstract} (hget : rs[i]? = some (Server.billRow d p.1 p.2)) {w : World}
    {Q : TransDetail → Locals → World → Prop} {E : Signal → Locals → World → Prop}
    (hok : Q (toTransDetail d total p) l w) :
    Proc.wp (library d env) (toDetail sys total rs i) Q E l w := by
  simp only [toDetail, getItem, hget, Server.billRow]
  exact hok

/-- Reading the rows adds them to the result. -/
private theorem wp_pushPage (sys : System) (total : Nat) {page : List (Trans × Abstract)}
    {w : World} {Q : Unit → Locals → World → Prop} {E : Signal → Locals → World → Prop} (n : Nat) :
    ∀ (i : Nat) (l : Locals), i + n = page.length →
      Q () { l with result := l.result ++ (page.drop i).map (toTransDetail d total) } w →
      Proc.wp (library d env) (pushDetails sys total (page.map fun p => Server.billRow d p.1 p.2)
        (List.range' i n)) Q E l w := by
  induction n with
  | zero =>
      intro i l hi hok
      rw [List.drop_of_length_le (by omega), List.map_nil, List.append_nil] at hok
      exact hok
  | succ n ih =>
      intro i l hi hok
      have hlt : i < page.length := by omega
      rw [List.range'_succ, pushDetails, Proc.wp_bind]
      refine wp_toTransDetail sys total (p := page[i]) ?_ ?_
      · rw [List.getElem?_map, List.getElem?_eq_getElem hlt, Option.map_some]
      · rw [Proc.wp_bind, Proc.wp_modify]
        refine ih (i + 1) _ (by omega) ?_
        rwa [List.drop_eq_getElem_cons hlt, List.map_cons, ← List.singleton_append,
          ← List.append_assoc] at hok

/-- What is done with the rows: a message if there are none. -/
private theorem wp_rows (sys : System) (total : Nat) {rs : Recordset}
    {page : List (Trans × Abstract)} (hrs : rs = page.map fun p => Server.billRow d p.1 p.2)
    (hl : l.result = []) {w : World} {Q : Int → Locals → World → Prop}
    {E : Signal → Locals → World → Prop}
    (hok : ∀ l' : Locals, l'.result = page.map (toTransDetail d total) →
      Q (if page = [] then 6 else 0) l' w) :
    Proc.wp (library d env)
      (if rs.length < 1 then pure 6
        else do
          pushDetails sys total rs (List.range rs.length)
          pure 0) Q E l w := by
  subst hrs
  simp only [List.length_map, Nat.lt_one_iff, List.length_eq_zero_iff]
  by_cases hnil : page = []
  · rw [if_pos hnil] at hok ⊢
    exact hok l (by rw [hl, hnil, List.map_nil])
  · rw [if_neg hnil] at hok ⊢
    rw [Proc.wp_bind, List.range_eq_range']
    refine wp_pushPage sys total page.length 0 l (Nat.zero_add _) (hok _ ?_)
    rw [List.drop_zero, hl, List.nil_append]

/-- **The answer to a bill query**: the page if all four calls succeed, and -1 if not. -/
theorem wp_queryBill (d : Dialect) (env : Env) (sys : System) (hw : w₀.server.Fresh) (hl : l.New)
    (filter : BillFilter) (page : Int) :
    Proc.wp (library d env) (queryBill sys filter page)
      (fun ret l' w =>
        let rows := Server.page d w₀.server.db (w₀.server.clock + 1) filter (mulInt page 15)
        env.Clear w₀.calls 4 ∧ ret = (if rows = [] then 6 else 0) ∧
            l'.result = rows.map (toTransDetail d (Server.total d w₀.server.db filter)) ∧
            w.server = { w₀.server with clock := w₀.server.clock + 2 } ∨
          ¬ env.Clear w₀.calls 4 ∧ ret = -1 ∧ l'.result = [])
      (fun _ _ _ => False) l w₀ := by
  set rows := Server.page d w₀.server.db (w₀.server.clock + 1) filter (mulInt page 15) with hrows
  set details := rows.map (toTransDetail d (Server.total d w₀.server.db filter)) with hdetails
  unfold queryBill
  refine block_spec
    (P := fun ret l' w => env.Clear w₀.calls 4 ∧ ret = (if rows = [] then 6 else 0) ∧
      l'.result = details ∧ w.server = { w₀.server with clock := w₀.server.clock + 2 })
    (F := fun e l' _ => (∃ errmsg, e = dbError errmsg) ∧ ¬ env.Clear w₀.calls 4 ∧ l'.result = [])
    ?_ ?_ ?_ ?_
  · have hbreak : ∀ {k server w}, Failed env w₀ k server w → k < 4 → ¬ env.Clear w₀.calls 4 :=
      fun h hk hclear => h.fault (hclear _ hk)
    rw [Proc.wp_bind]
    refine wp_connect hw (fun e w k hk h => ⟨⟨e, rfl⟩, hbreak h (by omega), hl.result⟩)
      (fun w₂ h₂ => ?_) hl.mysql
    rw [Proc.wp_bind]
    refine h₂.wp_querySQL rfl _ (fun e w h => ⟨⟨e, rfl⟩, hbreak h (by omega), hl.result⟩)
      fun w₃ h₃ => ?_
    rw [Session.arrive_of_autocommit rfl rfl] at h₃ ⊢
    have htotal : (Cell.number (Server.total d w₀.server.db filter)).toInt sys.junk
        = Server.total d w₀.server.db filter := Int.floor_natCast _
    show Proc.wp _ (getItem [[(.total, .number (Server.total d w₀.server.db filter))]] 0 .total
      >>= _) _ _ _ w₃
    rw [Proc.wp_bind]
    show Proc.wp _ (querySQL _ >>= _) _ _ _ w₃
    rw [Proc.wp_bind]
    refine h₃.wp_querySQL rfl _ (fun e w h => ⟨⟨e, rfl⟩, hbreak h (by omega), hl.result⟩)
      fun w₄ h₄ => ?_
    rw [Session.arrive_of_autocommit rfl rfl] at h₄ ⊢
    have hrs : Server.select d w₀.server.db (w₀.server.clock + 1)
        (.selectTrans filter (mulInt page 15)) = rows.map fun p => Server.billRow d p.1 p.2 :=
      select_selectTrans d w₀.server.db (w₀.server.clock + 1) filter (mulInt page 15)
    rw [htotal]
    exact wp_rows sys _ hrs hl.opened fun l' hresult =>
      ⟨h₄.clear, rfl, hresult, h₄.shows.server⟩
  · rintro ret l' w ⟨hclear, hret, hresult, hserver⟩
    exact wp_close fun w' hw' _ => Or.inl ⟨hclear, hret, hresult, hw'.trans hserver⟩
  · rintro what l' w ⟨-, hclear, hresult⟩
    exact wp_close fun _ _ _ => Or.inr ⟨hclear, rfl, hresult⟩
  · rintro c l' w ⟨⟨errmsg, herror⟩, -⟩
    cases herror

end Bank
