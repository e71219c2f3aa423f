/-
Pages of a list that is sorted anew for every page.

Rows are sorted by a key and cut into pages of equal length.  If rows with equal keys may come
in any order, and in another one each time, then the pages taken together are not the rows, in
general: a row may move from one page to the other between two requests.  They are, as far as
one can see through a function `f`, exactly if no page ends among rows that have the same key
and look different.
-/
import Mathlib.Tactic

namespace Lib

variable {α β κ : Type} [LinearOrder κ] (key : α → κ) (f : α → β)

/-- Sorted by the key. -/
def SortedBy (l : List α) : Prop := l.Pairwise fun a b => key a ≤ key b

/-- One of the ways the rows can come out sorted. -/
structure Arranges (rows l : List α) : Prop where
  perm : l.Perm rows
  sorted : SortedBy key l

/-- After `n` rows, those behind and those before that have the same key look the same. -/
def Steady (rows : List α) (n : Nat) : Prop :=
  ∀ a ∈ rows, ∀ b ∈ rows, key a = key b → f a ≠ f b →
    ¬ (rows.countP (fun c => key c < key a) < n ∧ n < rows.countP fun c => key c ≤ key a)

/-! ### Rows before, with and behind a key -/

/-- The rows with smaller keys, with this key and with larger keys. -/
def below (k : κ) (l : List α) : List α := l.filter fun a => key a < k

def level (k : κ) (l : List α) : List α := l.filter fun a => key a = k

def above (k : κ) (l : List α) : List α := l.filter fun a => k < key a

variable {key f}

theorem SortedBy.eq_append {l : List α} (h : SortedBy key l) (k : κ) :
    l = below key k l ++ (level key k l ++ above key k l) := by
  induction l with
  | nil => rfl
  | cons a l ih =>
      obtain ⟨ha, hl⟩ := List.pairwise_cons.mp h
      have ih := ih hl
      unfold below level above at ih ⊢
      rcases lt_trichotomy (key a) k with hlt | heq | hgt
      · simp only [List.filter_cons, hlt, hlt.ne, hlt.asymm, decide_true, decide_false, if_true,
          Bool.false_eq_true, if_false, List.cons_append]
        rw [← ih]
      · have hnone : l.filter (fun b => key b < k) = [] := by
          refine List.filter_eq_nil_iff.mpr fun b hb => ?_
          simpa using heq ▸ ha b hb
        rw [hnone, List.nil_append] at ih
        simp only [List.filter_cons, heq, lt_irrefl, decide_true, decide_false, if_true,
          Bool.false_eq_true, if_false, hnone, List.nil_append, List.cons_append]
        rw [← ih]
      · have hnone : l.filter (fun b => key b < k) = [] := by
          refine List.filter_eq_nil_iff.mpr fun b hb => ?_
          simpa using (hgt.trans_le (ha b hb)).le
        have hlevel : l.filter (fun b => key b = k) = [] := by
          refine List.filter_eq_nil_iff.mpr fun b hb => ?_
          simpa using (hgt.trans_le (ha b hb)).ne'
        rw [hnone, hlevel, List.nil_append, List.nil_append] at ih
        simp only [List.filter_cons, hgt, hgt.ne', hgt.asymm, decide_true, decide_false, if_true,
          Bool.false_eq_true, if_false, hnone, hlevel, List.nil_append]
        rw [← ih]

theorem length_below (k : κ) (l : List α) : (below key k l).length = l.countP fun c => key c < k :=
  (List.countP_eq_length_filter).symm

/-- The rows up to a key. -/
theorem length_below_level (k : κ) (l : List α) :
    (below key k l).length + (level key k l).length = l.countP fun c => key c ≤ k := by
  induction l with
  | nil => rfl
  | cons a l ih =>
      unfold below level at ih ⊢
      rcases lt_trichotomy (key a) k with hlt | heq | hgt
      · simp only [List.filter_cons, List.countP_cons, hlt, hlt.ne, hlt.le, decide_true,
          decide_false, if_true, Bool.false_eq_true, if_false, List.length_cons]
        omega
      · simp only [List.filter_cons, List.countP_cons, heq, lt_irrefl, le_refl, decide_true,
          decide_false, if_true, Bool.false_eq_true, if_false, List.length_cons]
        omega
      · simp only [List.filter_cons, List.countP_cons, hgt.asymm, hgt.ne', not_le.mpr hgt,
          decide_false, Bool.false_eq_true, if_false]
        omega

/-! ### Front parts -/

variable {rows l l' : List α} {n : Nat}

theorem Arranges.level_perm (h : Arranges key rows l) (k : κ) :
    (level key k l).Perm (level key k rows) := h.perm.filter _

theorem Arranges.below_perm (h : Arranges key rows l) (k : κ) :
    (below key k l).Perm (below key k rows) := h.perm.filter _

/-- The `n`-th row has a key, and stands among the rows that have it. -/
theorem Arranges.at_level (h : Arranges key rows l) (hn : n < l.length) :
    let k := key l[n]
    (below key k l).length ≤ n ∧ n < (below key k l).length + (level key k l).length := by
  intro k
  have happ := h.sorted.eq_append k
  have hget : ∀ {m : Nat} (hm : m < (below key k l ++ (level key k l ++ above key k l)).length),
      m = n → key (below key k l ++ (level key k l ++ above key k l))[m] = k := by
    rintro m hm rfl
    show _ = key l[m]
    congr 1
    exact (List.getElem_of_eq happ hn).symm
  have hlen : n < (below key k l ++ (level key k l ++ above key k l)).length := by rwa [← happ]
  have hkey := hget hlen rfl
  constructor
  · by_contra hlt
    rw [List.getElem_append_left (by omega)] at hkey
    have hmem := List.getElem_mem (l := below key k l) (n := n) (by omega)
    have hsmall := (List.mem_filter.mp hmem).2
    rw [decide_eq_true_eq, hkey] at hsmall
    exact lt_irrefl _ hsmall
  · by_contra hge
    have habove : n - (below key k l).length - (level key k l).length < (above key k l).length := by
      simp only [List.length_append] at hlen
      omega
    rw [List.getElem_append_right (by omega), List.getElem_append_right (by omega)] at hkey
    have hlarge := (List.mem_filter.mp (List.getElem_mem habove)).2
    rw [decide_eq_true_eq, hkey] at hlarge
    exact lt_irrefl _ hlarge

/-- Where the rows are steady, the front parts of two arrangements look the same. -/
theorem Steady.take_perm (h : Steady key f rows n) (hl : Arranges key rows l)
    (hl' : Arranges key rows l') : ((l.take n).map f).Perm ((l'.take n).map f) := by
  have hlen : l.length = l'.length := (hl.perm.trans hl'.perm.symm).length_eq
  by_cases hn : n < l.length
  · obtain ⟨hlo, hhi⟩ := hl.at_level hn
    set k := key l[n] with hk
    have hbelow : (below key k l').length = (below key k l).length :=
      ((hl'.below_perm k).trans (hl.below_perm k).symm).length_eq
    have hlevel : (level key k l').length = (level key k l).length :=
      ((hl'.level_perm k).trans (hl.level_perm k).symm).length_eq
    have htake : ∀ {m : List α}, Arranges key rows m →
        (below key k m).length = (below key k l).length →
        (level key k m).length = (level key k l).length →
        m.take n = below key k m ++ (level key k m).take (n - (below key k l).length) := by
      intro m hm hb hc
      conv => lhs; rw [hm.sorted.eq_append k]
      rw [List.take_append, List.take_of_length_le (by omega), hb,
        List.take_append_of_le_length (by omega)]
    rw [htake hl rfl rfl, htake hl' hbelow hlevel, List.map_append, List.map_append]
    refine List.Perm.append (((hl.below_perm k).trans (hl'.below_perm k).symm).map f) ?_
    rcases Nat.eq_or_lt_of_le hlo with heq | hlt
    · rw [← heq, Nat.sub_self, List.take_zero, List.take_zero]
    · -- among the rows of the key, which all look like the `n`-th
      have hsame : ∀ {m : List α}, Arranges key rows m → ∀ b ∈ level key k m, f b = f l[n] := by
        intro m hm b hb
        by_contra hne
        obtain ⟨hmem, hkey⟩ := List.mem_filter.mp hb
        rw [decide_eq_true_eq] at hkey
        refine h l[n] (hl.perm.mem_iff.mp (List.getElem_mem hn)) b (hm.perm.mem_iff.mp hmem)
          (hkey.trans hk).symm (Ne.symm hne) ⟨?_, ?_⟩
        · rw [← length_below, ← (hl.below_perm _).length_eq]
          exact hlt
        · rw [← length_below_level, ← (hl.below_perm _).length_eq, ← (hl.level_perm _).length_eq]
          exact hhi
      have hrep : ∀ {m : List α}, Arranges key rows m →
          (level key k m).length = (level key k l).length →
          ((level key k m).take (n - (below key k l).length)).map f
            = List.replicate (n - (below key k l).length) (f l[n]) := by
        intro m hm hc
        refine List.eq_replicate_iff.mpr ⟨?_, ?_⟩
        · rw [List.length_map, List.length_take]
          omega
        · intro b hb
          obtain ⟨c, hc, rfl⟩ := List.mem_map.mp hb
          exact hsame hm c (List.mem_of_mem_take hc)
      rw [hrep hl rfl, hrep hl' hlevel]
  · rw [List.take_of_length_le (by omega), List.take_of_length_le (by omega)]
    exact (hl.perm.trans hl'.perm.symm).map f

/-! ### Two rows that can change places -/

/-- Sorting is one arrangement. -/
theorem arranges_insertionSort (key : α → κ) (rows : List α) :
    Arranges key rows (rows.insertionSort fun a b => key a ≤ key b) where
  perm := List.perm_insertionSort _ _
  sorted := List.pairwise_insertionSort _ _

theorem perm_levels (key : α → κ) (k : κ) (rows : List α) :
    (below key k rows ++ (level key k rows ++ above key k rows)).Perm rows := by
  have hsort := arranges_insertionSort key rows
  refine List.Perm.trans ?_ hsort.perm
  rw [hsort.sorted.eq_append k]
  exact (hsort.below_perm k).symm.append
    ((hsort.level_perm k).symm.append (hsort.perm.filter _).symm)

/-- The rows of a key may come in any order, among the others. -/
theorem arranges_of_level {k : κ} {middle : List α} (h : middle.Perm (level key k rows)) :
    Arranges key rows ((below key k rows).insertionSort (fun a b => key a ≤ key b)
      ++ (middle ++ (above key k rows).insertionSort fun a b => key a ≤ key b)) where
  perm := ((List.perm_insertionSort _ _).append (h.append (List.perm_insertionSort _ _))).trans
    (perm_levels key k rows)
  sorted := by
    have hbelow : ∀ a ∈ (below key k rows).insertionSort (fun a b => key a ≤ key b), key a < k := by
      intro a ha
      have hmem := (List.mem_filter.mp ((List.perm_insertionSort _ _).mem_iff.mp ha)).2
      rwa [decide_eq_true_eq] at hmem
    have hmiddle : ∀ a ∈ middle, key a = k := by
      intro a ha
      have hmem := (List.mem_filter.mp (h.mem_iff.mp ha)).2
      rwa [decide_eq_true_eq] at hmem
    have habove : ∀ a ∈ (above key k rows).insertionSort (fun a b => key a ≤ key b), k < key a := by
      intro a ha
      have hmem := (List.mem_filter.mp ((List.perm_insertionSort _ _).mem_iff.mp ha)).2
      rwa [decide_eq_true_eq] at hmem
    refine List.pairwise_append.mpr ⟨List.pairwise_insertionSort _ _,
      List.pairwise_append.mpr ⟨?_, List.pairwise_insertionSort _ _, ?_⟩, ?_⟩
    · refine List.Pairwise.imp_of_mem (fun ha hb _ => ?_)
        (List.pairwise_of_forall fun _ _ => trivial)
      exact ((hmiddle _ ha).trans (hmiddle _ hb).symm).le
    · exact fun a ha b hb => (hmiddle a ha).le.trans (habove b hb).le
    · intro a ha b hb
      rcases List.mem_append.mp hb with hb | hb
      · exact (hbelow a ha).le.trans (hmiddle b hb).ge
      · exact ((hbelow a ha).trans (habove b hb)).le

/-- Two rows of one key, and the others of the key. -/
theorem exists_level_perm {a b : α} (ha : a ∈ rows) (hb : b ∈ rows) (hkey : key a = key b)
    (hne : a ≠ b) : ∃ rest, (level key (key a) rows).Perm (a :: b :: rest) := by
  classical
  have ha' : a ∈ level key (key a) rows := List.mem_filter.mpr ⟨ha, by simp⟩
  have hb' : b ∈ level key (key a) rows := List.mem_filter.mpr ⟨hb, by simp [hkey]⟩
  have hmem : b ∈ (level key (key a) rows).erase a := (List.mem_erase_of_ne (Ne.symm hne)).mpr hb'
  exact ⟨_, (List.perm_cons_erase ha').trans ((List.perm_cons_erase hmem).cons a)⟩

/-- If all arrangements have front parts that look the same, the rows are steady. -/
theorem steady_of_take_perm (h : ∀ l l', Arranges key rows l → Arranges key rows l' →
    ((l.take n).map f).Perm ((l'.take n).map f)) : Steady key f rows n := by
  rintro a ha b hb hkey hne ⟨hlo, hhi⟩
  rw [← length_below] at hlo
  rw [← length_below_level] at hhi
  obtain ⟨rest, hrest⟩ := exists_level_perm ha hb hkey fun hab => hne (by rw [hab])
  have hlen := hrest.length_eq
  simp only [List.length_cons] at hlen
  set m := n - (below key (key a) rows).length - 1 with hm
  let middle (x y : α) : List α := rest.take m ++ x :: y :: rest.drop m
  have hmiddle : ∀ x y, (middle x y).Perm (x :: y :: rest) := by
    intro x y
    have hsplit := List.take_append_drop m rest
    refine List.perm_middle.trans (List.Perm.cons x (List.perm_middle.trans ?_))
    rw [hsplit]
  have htake : ∀ x y, (((below key (key a) rows).insertionSort (fun a b => key a ≤ key b)
      ++ (middle x y ++ (above key (key a) rows).insertionSort fun a b => key a ≤ key b)).take n)
        = (below key (key a) rows).insertionSort (fun a b => key a ≤ key b)
          ++ (rest.take m ++ [x]) := by
    intro x y
    have hfront : (rest.take m ++ [x]).length = n - (below key (key a) rows).length := by
      rw [List.length_append, List.length_take, List.length_singleton]
      omega
    rw [List.take_append, List.take_of_length_le (by rw [List.length_insertionSort]; omega),
      List.length_insertionSort, ← hfront]
    congr 1
    show List.take _ (rest.take m ++ x :: y :: rest.drop m ++ _) = _
    rw [show rest.take m ++ x :: y :: rest.drop m = rest.take m ++ [x] ++ y :: rest.drop m by simp,
      List.append_assoc, List.take_left]
  have hab := h _ _ (arranges_of_level ((hmiddle a b).trans hrest.symm))
    (arranges_of_level ((hmiddle b a).trans ((List.Perm.swap a b rest).trans hrest.symm)))
  rw [htake, htake] at hab
  simp only [List.map_append, List.map_cons, List.map_nil, List.perm_append_left_iff] at hab
  exact hne (by simpa using hab)

/-! ### Pages -/

/-- The first `m` pages of `size` rows, each out of an arrangement of its own. -/
def pages (size : Nat) (arrangement : Nat → List α) (m : Nat) : List α :=
  (List.range m).flatMap fun i => ((arrangement i).drop (size * i)).take size

theorem pages_succ (size : Nat) (arrangement : Nat → List α) (m : Nat) :
    pages size arrangement (m + 1)
      = pages size arrangement m ++ ((arrangement m).drop (size * m)).take size := by
  simp [pages, List.range_succ]

theorem take_succ_page (size : Nat) (l : List α) (m : Nat) :
    l.take (size * (m + 1)) = l.take (size * m) ++ (l.drop (size * m)).take size := by
  rw [Nat.mul_succ, List.take_add]

/-- With steady page ends the pages look like the front part of any arrangement. -/
theorem pages_perm {size : Nat} (h : ∀ i, Steady key f rows (size * i)) {arrangement : Nat → List α}
    (harr : ∀ i, Arranges key rows (arrangement i)) (m : Nat) :
    ((pages size arrangement m).map f).Perm (((arrangement m).take (size * m)).map f) := by
  induction m with
  | zero => simp [pages]
  | succ m ih =>
      refine List.Perm.trans ?_ ((h (m + 1)).take_perm (harr m) (harr (m + 1)))
      rw [pages_succ, take_succ_page, List.map_append, List.map_append]
      exact ih.append_right _

/-- The pages of two arrangements, one up to the `i`-th page and the other from there on. -/
theorem pages_two (size : Nat) (l l' : List α) {i m : Nat} (h : i ≤ m) :
    pages size (fun j => if j < i then l else l') m
      = l.take (size * i) ++ (l'.drop (size * i)).take (size * (m - i)) := by
  induction m, h using Nat.le_induction with
  | base =>
      rw [Nat.sub_self, Nat.mul_zero, List.take_zero, List.append_nil]
      have hfront : ∀ j ≤ i,
          pages size (fun j => if j < i then l else l') j = l.take (size * j) := by
        intro j hj
        induction j with
        | zero => simp [pages]
        | succ j ih => rw [pages_succ, ih (by omega), if_pos (by omega), take_succ_page]
      exact hfront i (le_refl i)
  | succ m hm ih =>
      rw [pages_succ, ih, if_neg (by omega), Nat.succ_sub hm, Nat.mul_succ, List.take_add,
        List.drop_drop, ← Nat.mul_add, Nat.add_sub_cancel' hm, List.append_assoc]

/-- **Paging.**  However the rows are arranged for each page, the pages that cover them look like
the rows, exactly if the rows are steady wherever a page ends. -/
theorem pages_perm_iff {size m : Nat} (hm : rows.length ≤ size * m) :
    (∀ arrangement : Nat → List α, (∀ i, Arranges key rows (arrangement i)) →
        ((pages size arrangement m).map f).Perm (rows.map f))
      ↔ ∀ i, Steady key f rows (size * i) := by
  constructor
  · intro h i
    by_cases hi : i ≤ m
    · refine steady_of_take_perm fun l l' hl hl' => ?_
      have hlen : l'.length ≤ size * m := hl'.perm.length_eq ▸ hm
      have hrest : (l'.drop (size * i)).take (size * (m - i)) = l'.drop (size * i) := by
        refine List.take_of_length_le ?_
        rw [List.length_drop, Nat.mul_sub]
        omega
      have htwo := h (fun j => if j < i then l else l') fun j => by
        split
        · exact hl
        · exact hl'
      rw [pages_two size l l' hi, hrest, List.map_append] at htwo
      have hone := htwo.trans (hl'.perm.map f).symm
      conv at hone => rhs; rw [← List.take_append_drop (size * i) l', List.map_append]
      exact (List.perm_append_right_iff _).mp hone
    · rintro a - b - - - ⟨-, hhi⟩
      have hall : rows.countP (fun c => key c ≤ key a) ≤ rows.length := List.countP_le_length
      have hmul : size * m ≤ size * i := Nat.mul_le_mul_left _ (by omega)
      omega
  · intro h arrangement harr
    refine (pages_perm h harr m).trans ?_
    rw [List.take_of_length_le ((harr m).perm.length_eq ▸ hm)]
    exact (harr m).perm.map f

end Lib
