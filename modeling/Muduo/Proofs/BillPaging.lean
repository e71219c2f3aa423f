/-
A bill, asked for page by page.

The rows of a bill are ordered by their date only, and each page is cut out of an order of its
own.  Rows of one date may change places between two requests, so where a page ends among them
one may be shown twice and another not at all.  The two rows of a transfer are such rows if it
is done within a second.  Apart from that the pages are complete, as long as the number of the
first row of a page is an `int`.
-/
import Muduo.Lib.Paging
import Muduo.Proofs.FixedWidth

namespace Bank

open Lib MysqlDB BankService

/-! ### Orders -/

/-- The same server with another way to order rows of one date. -/
def Dialect.withOrder (d : Dialect) (order : Nat → List Trans → List Trans)
    (hperm : ∀ n l, (order n l).Perm l)
    (hsorted : ∀ n l, (order n l).Pairwise fun a b => a.transDate ≤ b.transDate) : Dialect :=
  { d with orderByDate := order, perm_orderByDate := hperm, sorted_orderByDate := hsorted }

/-- What the keys of the tables promise: a row is about something that has one name. -/
def Named (db : Database) : Prop :=
  ∀ t ∈ db.trans.rows, ∃ a, (db.abstract.filter fun a => a.abstractId = t.abstractId) = [a]

/-- What a row is about. -/
def nameOf (db : Database) (t : Trans) : Abstract :=
  ((db.abstract.filter fun a => a.abstractId = t.abstractId).head?).getD ⟨0, []⟩

theorem mem_trans_of_billRows {d : Dialect} {db : Database} {filter : BillFilter} {t : Trans}
    (h : t ∈ Server.billRows d db filter) : t ∈ db.trans.rows := by
  cases filter <;> exact (List.mem_filter.mp h).1

theorem joined_eq_map {d : Dialect} {db : Database} (hnamed : Named db) (clock : Nat)
    (filter : BillFilter) : Server.joined d db clock filter
      = (d.orderByDate clock (Server.billRows d db filter)).map fun t => (t, nameOf db t) := by
  unfold Server.joined
  rw [List.map_eq_flatMap]
  refine List.flatMap_congr fun t ht => ?_
  obtain ⟨a, ha⟩ := hnamed t (mem_trans_of_billRows ((d.perm_orderByDate _ _).mem_iff.mp ht))
  rw [nameOf, ha]
  rfl

theorem total_eq_length {d : Dialect} {db : Database} (hnamed : Named db) (filter : BillFilter) :
    Server.total d db filter = (Server.billRows d db filter).length := by
  have hone : ((Server.billRows d db filter).map fun t =>
      (db.abstract.filter fun a => a.abstractId = t.abstractId).length)
        = (Server.billRows d db filter).map fun _ => 1 := by
    refine List.map_congr_left fun t ht => ?_
    obtain ⟨a, ha⟩ := hnamed t (mem_trans_of_billRows ht)
    rw [ha]
    rfl
  rw [Server.total, hone]
  simp

/-! ### Page numbers -/

/-- The number of the first row of a page, as the server computes it. -/
def offsetOf (page : UInt32) : Int := mulInt (Cmd.toInt32 page) 15

theorem offsetOf_eq (page : UInt32) : offsetOf page = (15 * page.toNat : Int).bmod (2 ^ 32) := by
  have hpage : Cmd.toInt32 page = (page.toNat : Int).bmod (2 ^ 32) :=
    BitVec.toInt_eq_toNat_bmod page.toBitVec
  unfold offsetOf mulInt
  rw [hpage, mul_comm (15 : Int)]
  exact Int.bmod_mul_bmod

/-- **Offsets**: that of a page is negative as soon as it does not fit. -/
theorem offsetOf_nonneg_iff (page : UInt32) :
    0 ≤ offsetOf page ↔ 15 * page.toNat % 2 ^ 32 < 2 ^ 31 := by
  have hcast : (15 * page.toNat : Int) % (2 ^ 32 : Nat) = (15 * page.toNat % 2 ^ 32 : Nat) := by
    push_cast
    rfl
  rw [offsetOf_eq, Int.bmod_def, hcast]
  split <;> omega

/-- The pages that can be asked for in order. -/
theorem offsetOf_ofNat {i : Nat} (h : i ≤ 143165576) : offsetOf (UInt32.ofNat i) = 15 * i := by
  have hi : (UInt32.ofNat i).toNat = i := UInt32.toNat_ofNat_of_lt' (by
    show i < 2 ^ 32
    omega)
  rw [offsetOf_eq, hi]
  exact Int.bmod_eq_of_le (by omega) (by omega)

theorem offsetOf_first_negative : offsetOf (UInt32.ofNat 143165577) < 0 := by decide

/-! ### Asking for all pages -/

variable {setup : Setup} {d : Dialect} {filter : BillFilter} {w₀ w : World}

/-- The answer to a request for a page: what is returned, and what is left in the variables. -/
def askPage (setup : Setup) (d : Dialect) (filter : BillFilter) (w : World) (page : UInt32) :
    (Except Signal Int × Locals) × World :=
  ((queryBill setup.sys filter (Cmd.toInt32 page)).start
    (Cmd.localsOf setup (Cmd.newAccount setup))).run (answer d .healthy) w

/-- The world after pages 0 to `i - 1`. -/
def askAfter (setup : Setup) (d : Dialect) (filter : BillFilter) (w : World) : Nat → World
  | 0 => w
  | i + 1 => (askPage setup d filter (askAfter setup d filter w i) (UInt32.ofNat i)).2

/-- The code for page `i`, asked for behind those before it, and its rows. -/
def codeOf (setup : Setup) (d : Dialect) (filter : BillFilter) (w : World) (i : Nat) :
    Except Signal Int :=
  (askPage setup d filter (askAfter setup d filter w i) (UInt32.ofNat i)).1.1

def rowsOf (setup : Setup) (d : Dialect) (filter : BillFilter) (w : World) (i : Nat) :
    List TransDetail :=
  (askPage setup d filter (askAfter setup d filter w i) (UInt32.ofNat i)).1.2.result

/-- What should be seen of a row: what it is about, and the number of all rows. -/
def detailOf (d : Dialect) (db : Database) (filter : BillFilter) (t : Trans) : TransDetail :=
  toTransDetail d (Server.billRows d db filter).length (t, nameOf db t)

/-- Page after page until the code is 6, all the rows are seen and each of them once, each with
the number of all, and no offset is negative. -/
def PagesWell (setup : Setup) (d : Dialect) (filter : BillFilter) (w : World) : Prop :=
  ∃ n, (∀ i < n, codeOf setup d filter w i = .ok 0) ∧ codeOf setup d filter w n = .ok 6 ∧
    ((List.range n).flatMap (rowsOf setup d filter w)).Perm
      ((Server.billRows d w.server.db filter).map (detailOf d w.server.db filter)) ∧
    (∀ td ∈ (List.range n).flatMap (rowsOf setup d filter w),
      td.total.toNat = (Server.billRows d w.server.db filter).length) ∧
    ∀ i ≤ n, 0 ≤ offsetOf (UInt32.ofNat i)

/-- The answer to one request. -/
theorem askPage_spec (setup : Setup) (d : Dialect) (filter : BillFilter) (hw : w.server.Fresh)
    (page : UInt32) :
    let rows := Server.page d w.server.db (w.server.clock + 1) filter (offsetOf page)
    (askPage setup d filter w page).1.1 = .ok (if rows = [] then 6 else 0) ∧
      (askPage setup d filter w page).1.2.result
        = rows.map (toTransDetail d (Server.total d w.server.db filter)) ∧
      (askPage setup d filter w page).2.server
        = { w.server with clock := w.server.clock + 2 } := by
  have hspec := wp_queryBill d .healthy setup.sys hw
    (l := Cmd.localsOf setup (Cmd.newAccount setup)) ⟨rfl, rfl⟩ filter (Cmd.toInt32 page)
  rw [Proc.wp, Prog.wp_ofHandler] at hspec
  unfold askPage
  rcases hrun : ((queryBill setup.sys filter (Cmd.toInt32 page)).start
    (Cmd.localsOf setup (Cmd.newAccount setup))).run (answer d .healthy) w with ⟨⟨e | ret, l⟩, w'⟩
  · rw [hrun] at hspec
    exact absurd hspec id
  · rw [hrun] at hspec
    rcases hspec with ⟨-, hret, hresult, hserver⟩ | ⟨hclear, -⟩
    · exact ⟨congrArg Except.ok hret, hresult, hserver⟩
    · exact absurd (fun _ _ => rfl) hclear

/-- Asking takes time, and nothing else. -/
theorem server_askAfter (setup : Setup) (d : Dialect) (filter : BillFilter) (hw : w.server.Fresh)
    (i : Nat) : (askAfter setup d filter w i).server
      = { w.server with clock := w.server.clock + 2 * i } := by
  induction i with
  | zero => rfl
  | succ i ih =>
      have hfresh : (askAfter setup d filter w i).server.Fresh := by
        rw [ih]
        exact ⟨hw.1, hw.2⟩
      show (askPage setup d filter (askAfter setup d filter w i) (UInt32.ofNat i)).2.server = _
      rw [(askPage_spec setup d filter hfresh _).2.2, ih]
      rfl

/-- The rows of page `i`, as the database orders them for it. -/
def pageOf (d : Dialect) (filter : BillFilter) (w : World) (i : Nat) : List Trans :=
  ((d.orderByDate (w.server.clock + 2 * i + 1) (Server.billRows d w.server.db filter)).drop
    (offsetOf (UInt32.ofNat i)).toNat).take 15

/-- The answer to the `i`-th request. -/
theorem asked_spec (setup : Setup) (d : Dialect) (filter : BillFilter) (hw : w.server.Fresh)
    (hnamed : Named w.server.db) (i : Nat) :
    codeOf setup d filter w i = .ok (if pageOf d filter w i = [] then 6 else 0) ∧
      rowsOf setup d filter w i = (pageOf d filter w i).map (detailOf d w.server.db filter) := by
  have hserver := server_askAfter setup d filter hw i
  have hfresh : (askAfter setup d filter w i).server.Fresh := by
    rw [hserver]
    exact ⟨hw.1, hw.2⟩
  obtain ⟨hcode, hrows, -⟩ := askPage_spec setup d filter hfresh (UInt32.ofNat i)
  have hpage : Server.page d (askAfter setup d filter w i).server.db
      ((askAfter setup d filter w i).server.clock + 1) filter (offsetOf (UInt32.ofNat i))
        = (pageOf d filter w i).map fun t => (t, nameOf w.server.db t) := by
    rw [hserver, Server.page, joined_eq_map hnamed, pageOf, List.map_take, List.map_drop]
  rw [hpage] at hcode hrows
  refine ⟨?_, ?_⟩
  · unfold codeOf
    rw [hcode]
    simp only [List.map_eq_nil_iff]
  · unfold rowsOf
    rw [hrows, hserver, total_eq_length hnamed, List.map_map]
    rfl

/-- Where the offsets fit, the pages are those of orders of their own. -/
theorem flatMap_pageOf (d : Dialect) (filter : BillFilter) (w : World) {n : Nat}
    (hn : n ≤ 143165577) : (List.range n).flatMap (pageOf d filter w)
      = pages 15 (fun i => d.orderByDate (w.server.clock + 2 * i + 1)
          (Server.billRows d w.server.db filter)) n := by
  refine List.flatMap_congr fun i hi => ?_
  have hlt := List.mem_range.mp hi
  rw [pageOf, offsetOf_ofNat (by omega)]
  rfl

/-- A page is empty if it is behind the last row. -/
theorem pageOf_eq_nil_iff {i : Nat} (hi : i ≤ 143165576) :
    pageOf d filter w i = [] ↔ (Server.billRows d w.server.db filter).length ≤ 15 * i := by
  have hlen := (d.perm_orderByDate (w.server.clock + 2 * i + 1)
    (Server.billRows d w.server.db filter)).length_eq
  rw [pageOf, offsetOf_ofNat hi, ← List.length_eq_zero_iff, List.length_take, List.length_drop,
    hlen]
  omega

/-- If all goes well, the rows are few enough, and the pages that cover them look like them. -/
theorem pagesWell_iff (setup : Setup) (d : Dialect) (filter : BillFilter) (hw : w.server.Fresh)
    (hnamed : Named w.server.db) :
    let rows := Server.billRows d w.server.db filter
    PagesWell setup d filter w ↔ rows.length ≤ 2147483640 ∧
      ((pages 15 (fun i => d.orderByDate (w.server.clock + 2 * i + 1) rows)
        ((rows.length + 14) / 15)).map (detailOf d w.server.db filter)).Perm
          (rows.map (detailOf d w.server.db filter)) := by
  intro rows
  have hrowsOf : ∀ {n : Nat}, n ≤ 143165577 → (List.range n).flatMap (rowsOf setup d filter w)
      = (pages 15 (fun i => d.orderByDate (w.server.clock + 2 * i + 1) rows) n).map
          (detailOf d w.server.db filter) := by
    intro n hn
    rw [← flatMap_pageOf d filter w hn, List.map_flatMap]
    exact List.flatMap_congr fun i _ => (asked_spec setup d filter hw hnamed i).2
  have hnil : ∀ {i : Nat}, i ≤ 143165576 → (pageOf d filter w i = [] ↔ rows.length ≤ 15 * i) :=
    pageOf_eq_nil_iff
  constructor
  · rintro ⟨n, hmore, hlast, hperm, -, hoffset⟩
    have hn : n ≤ 143165576 := by
      by_contra hgt
      exact absurd (hoffset 143165577 (by omega)) (not_le.mpr offsetOf_first_negative)
    have hend : rows.length ≤ 15 * n := by
      rw [(asked_spec setup d filter hw hnamed n).1] at hlast
      by_contra hgt
      rw [if_neg (mt (hnil hn).mp hgt)] at hlast
      exact absurd hlast (by simp)
    have hbefore : ∀ i < n, 15 * i < rows.length := by
      intro i hi
      have hcode := hmore i hi
      rw [(asked_spec setup d filter hw hnamed i).1] at hcode
      by_contra hle
      rw [if_pos ((hnil (by omega)).mpr (not_lt.mp hle))] at hcode
      exact absurd hcode (by simp)
    have hcount : n = (rows.length + 14) / 15 := by
      rcases Nat.eq_zero_or_pos n with rfl | hpos
      · omega
      · have := hbefore (n - 1) (by omega)
        omega
    refine ⟨by omega, ?_⟩
    rwa [hrowsOf (by omega), hcount] at hperm
  · rintro ⟨hfew, hperm⟩
    set n := (rows.length + 14) / 15 with hcount
    have hn : n ≤ 143165576 := by omega
    rw [← hrowsOf (by omega)] at hperm
    refine ⟨n, ?_, ?_, hperm, ?_, ?_⟩
    · intro i hi
      rw [(asked_spec setup d filter hw hnamed i).1,
        if_neg (mt (hnil (by omega)).mp (by omega))]
    · rw [(asked_spec setup d filter hw hnamed n).1,
        if_pos ((hnil hn).mpr (by omega))]
    · intro td htd
      obtain ⟨t, -, rfl⟩ := List.mem_map.mp (hperm.mem_iff.mp htd)
      have hsmall : ((rows.length : Int) % 2 ^ 32).toNat = rows.length := by omega
      show (UInt32.ofNat ((rows.length : Int) % 2 ^ 32).toNat).toNat = rows.length
      rw [hsmall]
      exact UInt32.toNat_ofNat_of_lt' (by
        show rows.length < 2 ^ 32
        omega)
    · intro i hi
      rw [offsetOf_ofNat (by omega)]
      omega

/-! ### Both directions -/

/-- However the server orders rows of one date for each of the queries, the pages are the rows,
exactly if no page ends among rows of one date that look different and they are not too many. -/
theorem pagesWell_withOrder_iff (setup : Setup) (d : Dialect) (filter : BillFilter) (w₀ : World)
    (hw : w₀.server.Fresh) (hnamed : Named w₀.server.db) :
    (∀ order hperm hsorted, PagesWell setup (d.withOrder order hperm hsorted) filter w₀)
      ↔ (Server.billRows d w₀.server.db filter).length ≤ 2147483640 ∧
        ∀ i, Steady Trans.transDate (detailOf d w₀.server.db filter)
          (Server.billRows d w₀.server.db filter) (15 * i) := by
  set rows := Server.billRows d w₀.server.db filter with hrows
  have hbill : ∀ order hperm hsorted,
      Server.billRows (d.withOrder order hperm hsorted) w₀.server.db filter = rows := by
    intro order hperm hsorted
    cases filter <;> rfl
  have hdetail : ∀ order hperm hsorted,
      detailOf (d.withOrder order hperm hsorted) w₀.server.db filter
        = detailOf d w₀.server.db filter := by
    intro order hperm hsorted
    funext t
    rw [detailOf, detailOf, hbill, ← hrows]
    rfl
  have hcover : rows.length ≤ 15 * ((rows.length + 14) / 15) := by omega
  have heach : ∀ order hperm hsorted, PagesWell setup (d.withOrder order hperm hsorted) filter w₀
      ↔ rows.length ≤ 2147483640 ∧
        ((pages 15 (fun i => order (w₀.server.clock + 2 * i + 1) rows)
          ((rows.length + 14) / 15)).map (detailOf d w₀.server.db filter)).Perm
            (rows.map (detailOf d w₀.server.db filter)) := by
    intro order hperm hsorted
    have h := pagesWell_iff setup (d.withOrder order hperm hsorted) filter hw hnamed
    rwa [hbill, hdetail] at h
  constructor
  · intro h
    have hany := (heach d.orderByDate d.perm_orderByDate d.sorted_orderByDate).mp (h _ _ _)
    refine ⟨hany.1, (pages_perm_iff hcover).mp fun arrangement harr => ?_⟩
    -- the server that orders these rows as is asked, and all others as it likes
    let order : Nat → List Trans → List Trans := fun k l =>
      if l = rows then arrangement ((k - w₀.server.clock - 1) / 2) else d.orderByDate k l
    have hperm : ∀ k l, (order k l).Perm l := by
      intro k l
      by_cases hl : l = rows
      · simp only [order, if_pos hl]
        rw [hl]
        exact (harr _).perm
      · simp only [order, if_neg hl]
        exact d.perm_orderByDate k l
    have hsorted : ∀ k l, (order k l).Pairwise fun a b => a.transDate ≤ b.transDate := by
      intro k l
      by_cases hl : l = rows
      · simp only [order, if_pos hl]
        exact (harr _).sorted
      · simp only [order, if_neg hl]
        exact d.sorted_orderByDate k l
    have hpages := ((heach order hperm hsorted).mp (h _ _ _)).2
    have harrangement : (fun i => order (w₀.server.clock + 2 * i + 1) rows) = arrangement := by
      funext i
      simp only [order, if_true]
      congr 1
      omega
    rwa [harrangement] at hpages
  · rintro ⟨hfew, hsteady⟩ order hperm hsorted
    exact (heach order hperm hsorted).mpr ⟨hfew, (pages_perm_iff hcover).mpr hsteady _
      fun i => ⟨hperm _ _, hsorted _ _⟩⟩

/-- **Paging.**  However the server orders rows of one date for each of the queries, the pages of
a bill are its rows, exactly if no page ends among rows of one date that look different and there
are at most 143165576 pages; and the offset of a page is negative exactly if it does not fit. -/
theorem paging_iff (setup : Setup) (d : Dialect) (filter : BillFilter) (w₀ : World)
    (hw : w₀.server.Fresh) (hnamed : Named w₀.server.db) :
    ((∀ order hperm hsorted, PagesWell setup (d.withOrder order hperm hsorted) filter w₀)
      ↔ (Server.billRows d w₀.server.db filter).length ≤ 2147483640 ∧
        ∀ i, Steady Trans.transDate (detailOf d w₀.server.db filter)
          (Server.billRows d w₀.server.db filter) (15 * i)) ∧
    ∀ page, 0 ≤ offsetOf page ↔ 15 * page.toNat % 2 ^ 32 < 2 ^ 31 :=
  ⟨pagesWell_withOrder_iff setup d filter w₀ hw hnamed, offsetOf_nonneg_iff⟩

/-! ### Examples -/

theorem named_namedWorld : Named namedWorld.server.db := by
  intro t ht
  refine ⟨⟨1, []⟩, ?_⟩
  have hone : ∀ t ∈ namedWorld.server.db.trans.rows, t.abstractId = 1 := by decide
  rw [hone t ht]
  rfl

theorem paging_iff_namedWorld :
    ((∀ order hperm hsorted,
        PagesWell .zero (Dialect.plain.withOrder order hperm hsorted) (.day []) namedWorld)
      ↔ (Server.billRows .plain namedWorld.server.db (.day [])).length ≤ 2147483640 ∧
        ∀ i, Steady Trans.transDate (detailOf .plain namedWorld.server.db (.day []))
          (Server.billRows .plain namedWorld.server.db (.day [])) (15 * i)) ∧
    ∀ page, 0 ≤ offsetOf page ↔ 15 * page.toNat % 2 ^ 32 < 2 ^ 31 :=
  paging_iff .zero .plain (.day []) namedWorld fresh_namedWorld named_namedWorld

/-- The rows of fourteen deposits and of a transfer from account 1 to account 2. -/
def transferRows : List Trans :=
  (List.range 14).map (fun i => ⟨i + 1, 1, none, 1, 100, 100 * (i + 1), i⟩)
    ++ [⟨15, 1, some 2, 1, 100, 1300, 14⟩, ⟨16, 2, some 1, 1, 100, 100, 14⟩]

def transferWorld : World :=
  { smallWorld with
    server :=
      { smallBank with
        db := { smallBank.db with
          trans := ⟨transferRows, by decide⟩
          abstract := [⟨1, []⟩] }
        nextTransId := 17 } }

/-- The rows of a transfer are on both sides of a page end, and page 4294967295 is at -15. -/
theorem not_paging :
    ¬ (∀ order hperm hsorted,
        PagesWell .zero (Dialect.plain.withOrder order hperm hsorted) (.day []) transferWorld) ∧
      ¬ ∀ page, 0 ≤ offsetOf page := by
  have hfresh : transferWorld.server.Fresh := ⟨by decide, by decide⟩
  have hnamed : Named transferWorld.server.db := by
    intro t ht
    refine ⟨⟨1, []⟩, ?_⟩
    have hone : ∀ t ∈ transferWorld.server.db.trans.rows, t.abstractId = 1 := by decide
    rw [hone t ht]
    rfl
  refine ⟨?_, fun h => absurd (h 4294967295) (by decide)⟩
  rw [pagesWell_withOrder_iff .zero .plain (.day []) transferWorld hfresh hnamed]
  rintro ⟨-, h⟩
  refine h 1 ⟨15, 1, some 2, 1, 100, 1300, 14⟩ (by decide) ⟨16, 2, some 1, 1, 100, 100, 14⟩
    (by decide) rfl ?_ ⟨by decide, by decide⟩
  intro hsame
  exact absurd (congrArg TransDetail.accountId hsame) (by decide)

end Bank
