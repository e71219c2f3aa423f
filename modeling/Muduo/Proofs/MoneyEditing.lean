/-
An amount in the editor.

`ValidateMoney` is right if characters are added at the end.  Anywhere else a point may get more
than two digits behind it, and a digit may be the ninth in front of one; and when the point is
deleted, the digits behind it are added to those in front.  These keys, and a deletion behind
the last character, are all that can spoil the text.
-/
import Muduo.Lib.Runs
import Muduo.Windows.JEdit

namespace Windows

open Lib

/-! ### The form of an amount -/

/-- The form of `decimal(10,2)`: at most eight digits, and perhaps a point with at most two more. -/
def IsDecimal (s : Bytes) : Prop :=
  ∃ ds, (∀ c ∈ ds, isDigit c = true) ∧ ds.length ≤ 8 ∧
    (s = ds ∨ ∃ fs, (∀ c ∈ fs, isDigit c = true) ∧ fs.length ≤ 2 ∧ s = ds ++ 46 :: fs)

theorem point_notMem {ds : Bytes} (h : ∀ c ∈ ds, isDigit c = true) : (46 : UInt8) ∉ ds :=
  fun hmem => absurd (h 46 hmem) (by decide)

/-- The form, said of the place of the first point. -/
theorem isDecimal_iff {s : Bytes} :
    IsDecimal s ↔ (∀ c ∈ s, isDigit c = true ∨ c = 46) ∧ s.count 46 ≤ 1 ∧ s.idxOf 46 ≤ 8 ∧
      s.length ≤ s.idxOf 46 + 3 := by
  constructor
  · rintro ⟨ds, hds, hlen, rfl | ⟨fs, hfs, hlen', rfl⟩⟩
    · have hnot := point_notMem hds
      rw [List.count_eq_zero.mpr hnot, List.idxOf_of_notMem hnot]
      exact ⟨fun c hc => Or.inl (hds c hc), by omega, hlen, by omega⟩
    · have hnot := point_notMem hds
      have hnot' := point_notMem hfs
      rw [List.count_append, List.count_cons_self, List.count_eq_zero.mpr hnot,
        List.count_eq_zero.mpr hnot', List.idxOf_append_of_notMem hnot, List.idxOf_cons_self,
        List.length_append, List.length_cons]
      refine ⟨fun c hc => ?_, by omega, by omega, by omega⟩
      rw [List.mem_append, List.mem_cons] at hc
      obtain hc | rfl | hc := hc
      · exact Or.inl (hds c hc)
      · exact Or.inr rfl
      · exact Or.inl (hfs c hc)
  · rintro ⟨hall, hcount, hidx, hlen⟩
    have hdigits : ∀ t : Bytes, (∀ c ∈ t, c ∈ s) → 46 ∉ t → ∀ c ∈ t, isDigit c = true := by
      intro t ht hnot c hc
      obtain hdigit | rfl := hall c (ht c hc)
      · exact hdigit
      · exact absurd hc hnot
    by_cases hmem : (46 : UInt8) ∈ s
    · obtain ⟨ds, fs, rfl, hnot⟩ := List.eq_append_cons_of_mem hmem
      rw [List.count_append, List.count_cons_self, List.count_eq_zero.mpr hnot] at hcount
      have hnot' : (46 : UInt8) ∉ fs := List.count_eq_zero.mp (by omega)
      rw [List.idxOf_append_of_notMem hnot, List.idxOf_cons_self] at hidx hlen
      rw [List.length_append, List.length_cons] at hlen
      refine ⟨ds, hdigits ds (fun c hc => List.mem_append_left _ hc) hnot, by omega, Or.inr ?_⟩
      refine ⟨fs, hdigits fs (fun c hc => ?_) hnot', by omega, rfl⟩
      exact List.mem_append_right _ (List.mem_cons_of_mem _ hc)
    · rw [List.idxOf_of_notMem hmem] at hidx
      exact ⟨s, hdigits s (fun _ hc => hc) hmem, hidx, Or.inl rfl⟩

instance (s : Bytes) : Decidable (IsDecimal s) :=
  haveI := List.decidableBAll (fun c => isDigit c = true ∨ c = 46) s
  decidable_of_iff _ isDecimal_iff.symm

/-- An amount is short. -/
theorem IsDecimal.length_le {s : Bytes} (h : IsDecimal s) : s.length ≤ 11 := by
  have := isDecimal_iff.mp h
  omega

/-- What the validator lets in. -/
theorem validateMoney_iff {str : Bytes} {ch : UInt8} :
    validateMoney str ch = true ↔ str.length < 11 ∧ (isDigit ch = true ∨ ch = 46) ∧
      (46 ∈ str → ch ≠ 46 ∧ str.length < str.idxOf 46 + 3) ∧
      (46 ∉ str → ch = 46 ∨ str.length < 8) := by
  unfold validateMoney
  by_cases hfirst : 11 ≤ str.length ∨ (isDigit ch = false ∧ ch ≠ 46)
  · rw [if_pos hfirst]
    refine iff_of_false Bool.false_ne_true fun h => ?_
    obtain hlong | ⟨hdigit, hpoint⟩ := hfirst
    · exact absurd h.1 (by omega)
    · rw [hdigit] at h
      exact h.2.1.elim Bool.false_ne_true hpoint
  · rw [if_neg hfirst]
    rw [not_or, not_and, not_not] at hfirst
    obtain ⟨hshort, himp⟩ := hfirst
    have hchar : isDigit ch = true ∨ ch = 46 := by
      cases hdigit : isDigit ch with
      | true => exact Or.inl rfl
      | false => exact Or.inr (himp hdigit)
    have hlen : str.length < 11 := by omega
    rw [eq_true hlen, eq_true hchar, true_and, true_and]
    by_cases hmem : (46 : UInt8) ∈ str
    · rw [if_pos hmem, and_iff_left (fun hnot => absurd hmem hnot)]
      by_cases hpoint : ch = 46
      · simp [hpoint, hmem]
      · simp only [hpoint, if_false, hmem, forall_const, ne_eq, not_false_eq_true, true_and]
        split <;> simp <;> omega
    · rw [if_neg hmem]
      by_cases hpoint : ch = 46
      · simp [hpoint, hmem]
      · simp [hpoint, hmem]

/-! ### One character less, one character more -/

variable {a b : Bytes} {c : UInt8}

/-- Without a character an amount is one, unless it was the point between too many digits. -/
theorem isDecimal_remove (h : IsDecimal (a ++ c :: b)) :
    IsDecimal (a ++ b) ↔ (c = 46 → (a ++ c :: b).length ≤ 9) := by
  rw [isDecimal_iff] at h ⊢
  obtain ⟨hall, hcount, hidx, hlen⟩ := h
  have hall' : ∀ d ∈ a ++ b, isDigit d = true ∨ d = 46 := by
    intro d hd
    refine hall d ?_
    rw [List.mem_append] at hd ⊢
    exact hd.imp_right (List.mem_cons_of_mem c)
  rw [and_iff_right hall']
  by_cases hc : c = 46
  · subst hc
    rw [List.count_append, List.count_cons_self] at hcount
    have ha : (46 : UInt8) ∉ a := List.count_eq_zero.mp (by omega)
    have hb : (46 : UInt8) ∉ b := List.count_eq_zero.mp (by omega)
    have hab : (46 : UInt8) ∉ a ++ b := by simp [ha, hb]
    rw [List.idxOf_append_of_notMem ha, List.idxOf_cons_self] at hidx hlen
    rw [List.idxOf_of_notMem hab, List.count_eq_zero.mpr hab]
    simp only [List.length_append, List.length_cons] at hlen ⊢
    simp only [forall_const]
    omega
  · simp only [List.count_append, List.count_cons_of_ne hc, List.length_append,
      List.length_cons] at hcount hlen ⊢
    refine iff_of_true ?_ (fun h => absurd h hc)
    by_cases ha : (46 : UInt8) ∈ a
    · rw [List.idxOf_append_of_mem ha] at hidx hlen ⊢
      omega
    · rw [List.idxOf_append_of_notMem ha] at hidx hlen ⊢
      rw [List.idxOf_cons_ne _ hc] at hidx hlen
      omega

/-- What the validator lets in leaves an amount one, unless it is a point that has too many digits
behind it or a digit in front of one that has eight in front of it. -/
theorem isDecimal_insert (h : IsDecimal (a ++ b)) (hvalid : validateMoney (a ++ b) c = true) :
    IsDecimal (a ++ c :: b)
      ↔ if c = 46 then b.length ≤ 2 else 46 ∈ b → (a ++ b).idxOf 46 < 8 := by
  rw [isDecimal_iff] at h ⊢
  obtain ⟨hall, hcount, hidx, hlen⟩ := h
  obtain ⟨-, hchar, hwith, hwithout⟩ := validateMoney_iff.mp hvalid
  have hall' : ∀ d ∈ a ++ c :: b, isDigit d = true ∨ d = 46 := by
    intro d hd
    rw [List.mem_append, List.mem_cons] at hd
    obtain hd | rfl | hd := hd
    · exact hall d (List.mem_append_left _ hd)
    · exact hchar
    · exact hall d (List.mem_append_right _ hd)
  rw [and_iff_right hall']
  by_cases hc : c = 46
  · subst hc
    have hnot : (46 : UInt8) ∉ a ++ b := fun hmem => (hwith hmem).1 rfl
    have ha : (46 : UInt8) ∉ a := fun hmem => hnot (List.mem_append_left _ hmem)
    have hb : (46 : UInt8) ∉ b := fun hmem => hnot (List.mem_append_right _ hmem)
    rw [List.idxOf_of_notMem hnot] at hidx
    rw [if_pos rfl, List.count_append, List.count_cons_self, List.count_eq_zero.mpr ha,
      List.count_eq_zero.mpr hb, List.idxOf_append_of_notMem ha, List.idxOf_cons_self]
    simp only [List.length_append, List.length_cons] at hidx ⊢
    omega
  · rw [if_neg hc, List.count_append, List.count_cons_of_ne hc, ← List.count_append]
    by_cases ha : (46 : UInt8) ∈ a
    · have hb : (46 : UInt8) ∉ b := by
        intro hmem
        rw [List.count_append] at hcount
        have h₁ := List.count_pos_iff.mpr ha
        have h₂ := List.count_pos_iff.mpr hmem
        omega
      have hlen' := (hwith (List.mem_append_left _ ha)).2
      rw [List.idxOf_append_of_mem ha] at hidx hlen' ⊢
      rw [List.idxOf_append_of_mem ha]
      simp only [List.length_append, List.length_cons] at hlen' ⊢
      refine iff_of_true ⟨hcount, hidx, by omega⟩ (fun hmem => absurd hmem hb)
    · rw [List.idxOf_append_of_notMem ha] at hidx hlen
      rw [List.idxOf_append_of_notMem ha, List.idxOf_append_of_notMem ha, List.idxOf_cons_ne _ hc]
      simp only [List.length_append, List.length_cons] at hlen ⊢
      by_cases hb : (46 : UInt8) ∈ b
      · have hlen' := (hwith (List.mem_append_right _ hb)).2
        rw [List.idxOf_append_of_notMem ha, List.length_append] at hlen'
        constructor
        · exact fun h _ => by omega
        · exact fun h => ⟨hcount, by have := h hb; omega, by omega⟩
      · have hshort := (hwithout (by simp [ha, hb])).resolve_left hc
        rw [List.idxOf_of_notMem hb] at hidx ⊢
        rw [List.length_append] at hshort
        exact iff_of_true ⟨hcount, by omega, by omega⟩ (fun hmem => absurd hmem hb)

namespace JEdit

variable {e : JEdit} {key : Int}

/-! ### Keys -/

/-- The text is an amount, and the cursor is in it or behind it. -/
structure Good (e : JEdit) : Prop where
  isDecimal : IsDecimal e.text
  nonneg : 0 ≤ e.currIndex
  le_length : e.currIndex ≤ e.text.length

/-- The character is not a point with more than eight digits around it. -/
def MayLose (e : JEdit) (i : Nat) : Prop := e.text[i]? = some 46 → e.text.length ≤ 9

/-- The character is not a point in front of more than two digits, nor a digit that is put in
front of a point behind the eighth. -/
def MayGet (e : JEdit) (ch : UInt8) : Prop :=
  if ch = 46 then (e.text.drop e.currIndex.toNat).length ≤ 2
  else 46 ∈ e.text.drop e.currIndex.toNat → e.text.idxOf 46 < 8

/-- A key that leaves an amount one: nothing is deleted behind the end, no point is deleted that
is needed, and what is let in is let in at its place. -/
def Keeps (key : Int) (e : JEdit) : Prop :=
  (key = KEY_DEL → e.currIndex < e.text.length ∧ e.MayLose e.currIndex.toNat) ∧
    (key = KEY_BACK → 0 < e.currIndex → e.MayLose (e.currIndex - 1).toNat) ∧
    (e.Accepts key → e.MayGet (UInt8.ofNat key.toNat))

theorem not_accepts (h : key < 32 ∨ 126 < key) : ¬ e.Accepts key := by
  rintro ⟨-, -, hprint, -⟩
  simp only [isprint, decide_eq_true_eq] at hprint
  omega

theorem keeps_of_other (hdel : key ≠ KEY_DEL) (hback : key ≠ KEY_BACK) (hnot : ¬ e.Accepts key) :
    Keeps key e :=
  ⟨fun h => absurd h hdel, fun h => absurd h hback, fun h => absurd h hnot⟩

/-- Deleting a character of the text. -/
theorem isDecimal_erase (h : IsDecimal e.text) {i : Nat} (hi : i < e.text.length) :
    IsDecimal (e.text.take i ++ e.text.drop (i + 1)) ↔ e.MayLose i := by
  have hsplit : e.text = e.text.take i ++ e.text[i] :: e.text.drop (i + 1) := by
    rw [List.getElem_cons_drop, List.take_append_drop]
  have hlen := congrArg List.length hsplit
  rw [hsplit] at h
  rw [isDecimal_remove h, ← hlen, MayLose, List.getElem?_eq_getElem hi, Option.some.injEq]

/-- Inserting a character the validator lets in. -/
theorem isDecimal_insertAt (h : IsDecimal e.text) {ch : UInt8}
    (hvalid : validateMoney e.text ch = true) :
    IsDecimal (e.text.take e.currIndex.toNat ++ ch :: e.text.drop e.currIndex.toNat)
      ↔ e.MayGet ch := by
  have hsplit := List.take_append_drop e.currIndex.toNat e.text
  rw [← hsplit] at h hvalid
  rw [isDecimal_insert h hvalid, hsplit]
  rfl

theorem good_erase (h : e.Good) {i : Nat} (hi : i < e.text.length) {index : Int} (h0 : 0 ≤ index)
    (hle : index ≤ e.text.length - 1) :
    Good { e with text := e.text.take i ++ e.text.drop (i + 1), currIndex := index }
      ↔ e.MayLose i := by
  rw [← isDecimal_erase h.isDecimal hi]
  refine ⟨fun hgood => hgood.isDecimal, fun hmoney => ⟨hmoney, h0, ?_⟩⟩
  simp only [List.length_append, List.length_take, List.length_drop]
  omega

/-- A run of one step that cannot go wrong. -/
theorem exists_ok_iff {x : Except EditFault JEdit} {e' : JEdit} (h : x = .ok e')
    {P : JEdit → Prop} : (∃ e', x = .ok e' ∧ P e') ↔ P e' := by
  subst h
  exact ⟨fun ⟨_, heq, hp⟩ => Except.ok.inj heq ▸ hp, fun hp => ⟨e', rfl, hp⟩⟩

theorem step_del_iff (h : e.Good) :
    (∃ e', step KEY_DEL e = .ok e' ∧ e'.Good)
      ↔ e.currIndex < e.text.length ∧ e.MayLose e.currIndex.toNat := by
  have h0 := h.nonneg
  by_cases hlt : e.currIndex < e.text.length
  · have hstep : step KEY_DEL e = .ok
        { e with
          text := e.text.take e.currIndex.toNat ++ e.text.drop (e.currIndex.toNat + 1) } := by
      show ((e.erase e.currIndex).bind _).map Prod.fst = _
      rw [erase, if_pos ⟨h0, hlt⟩]
      rfl
    rw [exists_ok_iff hstep, and_iff_right hlt]
    exact good_erase h (by omega) h0 (by omega)
  · have hstep : step KEY_DEL e = .error .badIterator := by
      show ((e.erase e.currIndex).bind _).map Prod.fst = _
      rw [erase, if_neg fun hin => hlt hin.2]
      rfl
    rw [hstep]
    exact iff_of_false (fun ⟨_, heq, _⟩ => nomatch heq) fun hin => hlt hin.1

theorem step_back_iff (h : e.Good) :
    (∃ e', step KEY_BACK e = .ok e' ∧ e'.Good)
      ↔ (0 < e.currIndex → e.MayLose (e.currIndex - 1).toNat) := by
  have hle := h.le_length
  by_cases hpos : 0 < e.currIndex
  · have hstep : step KEY_BACK e = .ok
        { e with
          text := e.text.take (e.currIndex - 1).toNat ++ e.text.drop ((e.currIndex - 1).toNat + 1)
          currIndex := e.currIndex - 1 } := by
      show (if 0 < e.currIndex then (e.erase (e.currIndex - 1)).bind _ else _).map Prod.fst = _
      rw [if_pos hpos, erase, if_pos ⟨by omega, by omega⟩]
      rfl
    rw [exists_ok_iff hstep, imp_iff_right hpos]
    exact good_erase h (by omega) (by omega) (by omega)
  · have hstep : step KEY_BACK e = .ok e := by
      show (if 0 < e.currIndex then (e.erase (e.currIndex - 1)).bind _ else _).map Prod.fst = _
      rw [if_neg hpos]
      rfl
    rw [exists_ok_iff hstep]
    exact iff_of_true h fun h => absurd h hpos

/-- The keys that move the cursor, and those that are left to the form. -/
theorem step_other (h : e.Good) (hdel : key ≠ KEY_DEL) (hback : key ≠ KEY_BACK)
    (hnot : ¬ e.Accepts key) : ∃ e', step key e = .ok e' ∧ e'.Good := by
  obtain ⟨hmoney, h0, hle⟩ := h
  unfold step onKeyEvent
  split_ifs with hright hlt hleft hpos
  · exact ⟨_, rfl, hmoney, by show 0 ≤ e.currIndex + 1; omega,
      by show e.currIndex + 1 ≤ e.text.length; omega⟩
  · exact ⟨_, rfl, hmoney, h0, hle⟩
  · exact ⟨_, rfl, hmoney, by show 0 ≤ e.currIndex - 1; omega,
      by show e.currIndex - 1 ≤ e.text.length; omega⟩
  · exact ⟨_, rfl, hmoney, h0, hle⟩
  · exact ⟨_, rfl, hmoney, h0, hle⟩
  · exact ⟨_, rfl, hmoney, h0, hle⟩

/-- A character that is let in. -/
theorem step_accepts_iff (h : e.Good) (hmoney : e.validator = validateMoney)
    (haccepts : e.Accepts key) :
    (∃ e', step key e = .ok e' ∧ e'.Good) ↔ e.MayGet (UInt8.ofNat key.toNat) := by
  have h0 := h.nonneg
  have hle := h.le_length
  have hvalid : validateMoney e.text (UInt8.ofNat key.toNat) = true :=
    hmoney ▸ haccepts.2.2.2.2
  have hprint : 32 ≤ key ∧ key ≤ 126 := by
    by_contra hnot
    exact not_accepts (by omega) haccepts
  have hkeys : key ≠ KEY_RIGHT ∧ key ≠ KEY_LEFT ∧ key ≠ KEY_DEL ∧ key ≠ KEY_BACK ∧
      key ∉ formKeys := by
    unfold KEY_RIGHT KEY_LEFT KEY_DEL KEY_BACK formKeys
    simp only [List.mem_cons, List.not_mem_nil, or_false]
    omega
  obtain ⟨hright, hleft, hdel, hback, hform⟩ := hkeys
  have hstep : step key e = .ok
      { e with
        text := e.text.take e.currIndex.toNat
          ++ UInt8.ofNat key.toNat :: e.text.drop e.currIndex.toNat
        currIndex := e.currIndex + 1 } := by
    unfold step onKeyEvent
    rw [if_neg hright, if_neg hleft, if_neg hdel, if_neg hback, if_neg hform, if_pos haccepts,
      insert, if_pos ⟨h0, hle⟩]
    rfl
  rw [exists_ok_iff hstep, ← isDecimal_insertAt h.isDecimal hvalid]
  refine ⟨fun hgood => hgood.isDecimal, fun hform =>
    ⟨hform, by show 0 ≤ e.currIndex + 1; omega, ?_⟩⟩
  simp only [List.length_append, List.length_take, List.length_cons, List.length_drop]
  omega

/-- **One key** leaves an amount one exactly if it is one that does. -/
theorem step_iff (h : e.Good) (hmoney : e.validator = validateMoney) :
    (∃ e', step key e = .ok e' ∧ e'.Good) ↔ Keeps key e := by
  by_cases hdel : key = KEY_DEL
  · subst hdel
    rw [step_del_iff h]
    exact ⟨fun hmay => ⟨fun _ => hmay, fun hback => absurd hback (by decide),
      fun haccepts => absurd haccepts (not_accepts (by decide))⟩, fun hkeeps => hkeeps.1 rfl⟩
  by_cases hback : key = KEY_BACK
  · subst hback
    rw [step_back_iff h]
    exact ⟨fun hmay => ⟨fun hdel => absurd hdel (by decide), fun _ => hmay,
      fun haccepts => absurd haccepts (not_accepts (by decide))⟩, fun hkeeps => hkeeps.2.1 rfl⟩
  by_cases haccepts : e.Accepts key
  · rw [step_accepts_iff h hmoney haccepts]
    exact ⟨fun hmay => ⟨fun hdel' => absurd hdel' hdel, fun hback' => absurd hback' hback,
      fun _ => hmay⟩, fun hkeeps => hkeeps.2.2 haccepts⟩
  · exact iff_of_true (step_other h hdel hback haccepts) (keeps_of_other hdel hback haccepts)

/-- Keys do not change the validator. -/
theorem step_validator {e' : JEdit} (h : step key e = .ok e') : e'.validator = e.validator := by
  unfold step onKeyEvent erase insert at h
  split_ifs at h <;> cases h <;> rfl

/-! ### Runs -/

/-- A good field with its validator. -/
def Edits (e : JEdit) : Prop := e.Good ∧ e.validator = validateMoney

/-- **An amount in the editor.**  Behind every key of a run the text is an amount and the cursor
is in it, and nothing is deleted behind the end, exactly if no key deletes behind the end, deletes
a point that is needed, or puts a point or a digit where there is no room for it. -/
theorem money_iff (width : Int) (keys : List Int) :
    Always step Good keys (empty width validateMoney)
      ↔ Along step Keeps keys (empty width validateMoney) := by
  have hgood : ∀ key e, Edits e → True → Keeps key e →
      ∃ e', step key e = .ok e' ∧ e'.Good ∧ Edits e' := by
    rintro key e ⟨hgood, hmoney⟩ - hkeeps
    obtain ⟨e', hstep, hgood'⟩ := (step_iff hgood hmoney).mpr hkeeps
    exact ⟨e', hstep, hgood', hgood', (step_validator hstep).trans hmoney⟩
  have hkeeps : ∀ key e e', Edits e → True → step key e = .ok e' → e'.Good → Keeps key e := by
    rintro key e e' ⟨hgood, hmoney⟩ - hstep hgood'
    exact (step_iff hgood hmoney).mp ⟨e', hstep, hgood'⟩
  have hinit : Edits (empty width validateMoney) :=
    ⟨⟨⟨[], nofun, Nat.zero_le _, Or.inl rfl⟩, Int.le_refl 0, Int.le_refl 0⟩, rfl⟩
  exact always_iff hgood hkeeps hinit (along_true keys _)

/-- The text behind a run. -/
def typed (keys : List Int) : Except EditFault Bytes :=
  (run step keys (empty 20 validateMoney)).map text

/-- `12345678` and a point. -/
def eightDigits : List Int := [49, 50, 51, 52, 53, 54, 55, 56, 46]

/-- `KEY_DEL` in an empty editor; `123` with a point in front of it; `12345678.` with a nine in
front of it; `12345678.12` without its point. -/
theorem not_money :
    ¬ (∀ (width : Int) (keys : List Int), 12 < width →
        Always step Good keys (empty width validateMoney)) ∧
      typed [KEY_DEL] = .error .badIterator ∧
      typed [49, 50, 51, KEY_LEFT, KEY_LEFT, KEY_LEFT, 46] = .ok [46, 49, 50, 51] ∧
      ¬ IsDecimal [46, 49, 50, 51] ∧
      typed (eightDigits ++ List.replicate 9 KEY_LEFT ++ [57])
        = .ok [57, 49, 50, 51, 52, 53, 54, 55, 56, 46] ∧
      ¬ IsDecimal [57, 49, 50, 51, 52, 53, 54, 55, 56, 46] ∧
      typed (eightDigits ++ [49, 50, KEY_LEFT, KEY_LEFT, KEY_BACK])
        = .ok [49, 50, 51, 52, 53, 54, 55, 56, 49, 50] ∧
      ¬ IsDecimal [49, 50, 51, 52, 53, 54, 55, 56, 49, 50] := by
  refine ⟨fun h => ?_, rfl, by decide +kernel, by decide +kernel, by decide +kernel,
    by decide +kernel, by decide +kernel, by decide +kernel⟩
  obtain ⟨e, hstep, -⟩ := h 20 [KEY_DEL] (by decide)
  cases hstep

end JEdit

end Windows
