/-
Decimal numerals, as one writes them.

A numeral is an optional sign, digits with perhaps a point among or around them, and perhaps
an exponent.  What a stream reads from one is the number it denotes, kept within the bounds of
a `double`; nothing is said here of other texts.
-/
import Muduo.Lib.Numeral

namespace Lib

/-- Nothing but digits. -/
def AllDigits (ds : Bytes) : Prop := ∀ b ∈ ds, isDigit b = true

/-- An optional sign, and whether it is a minus. -/
inductive SignText : Bytes → Bool → Prop where
  | none : SignText [] false
  | plus : SignText [43] false
  | minus : SignText [45] true

/-- Perhaps a point with digits behind it. -/
inductive FractionText : Bytes → Bytes → Prop where
  | none : FractionText [] []
  | point {fs : Bytes} (hfs : AllDigits fs) : FractionText (46 :: fs) fs

/-- Perhaps an exponent. -/
inductive ExponentText : Bytes → Bool → Nat → Prop where
  | none : ExponentText [] false 0
  | some {e : UInt8} {sign es : Bytes} {neg : Bool} (he : e = 101 ∨ e = 69)
      (hsign : SignText sign neg) (hes : AllDigits es) (hne : es ≠ []) :
      ExponentText (e :: (sign ++ es)) neg (digitsValue es)

/-- A decimal numeral, and the number it denotes. -/
inductive Denotes : Bytes → ℚ → Prop where
  | mk {sign ds fraction fs exponent : Bytes} {neg eneg : Bool} {e : Nat}
      (hsign : SignText sign neg) (hds : AllDigits ds) (hfraction : FractionText fraction fs)
      (hne : ¬ (ds = [] ∧ fs = [])) (hexponent : ExponentText exponent eneg e) :
      Denotes (sign ++ (ds ++ (fraction ++ exponent))) (signed neg (decimalValue ds fs eneg e))

/-! ### What is in a numeral -/

/-- The characters of numerals. -/
def isNumeralChar (b : UInt8) : Bool :=
  isDigit b || b == 43 || b == 45 || b == 46 || b == 101 || b == 69

theorem AllDigits.chars {ds : Bytes} (h : AllDigits ds) : ∀ b ∈ ds, isNumeralChar b = true := by
  intro b hb
  simp [isNumeralChar, h b hb]

theorem SignText.chars {sign : Bytes} {neg : Bool} (h : SignText sign neg) :
    ∀ b ∈ sign, isNumeralChar b = true := by
  cases h <;> simp [isNumeralChar]

/-- A numeral has no other characters. -/
theorem Denotes.chars {s : Bytes} {x : ℚ} (h : Denotes s x) :
    ∀ b ∈ s, isNumeralChar b = true := by
  obtain ⟨hsign, hds, hfraction, hne, hexponent⟩ := h
  simp only [List.forall_mem_append]
  refine ⟨hsign.chars, hds.chars, ?_, ?_⟩
  · cases hfraction with
    | none => simp
    | point hfs => exact List.forall_mem_cons.mpr ⟨by decide, hfs.chars⟩
  · cases hexponent with
    | none => simp
    | some he hesign hes =>
        refine List.forall_mem_cons.mpr ⟨?_, List.forall_mem_append.mpr ⟨hesign.chars, hes.chars⟩⟩
        rcases he with rfl | rfl <;> decide

/-- Nothing is not a numeral. -/
theorem Denotes.ne_nil {s : Bytes} {x : ℚ} (h : Denotes s x) : s ≠ [] := by
  obtain ⟨hsign, hds, hfraction, hne, hexponent⟩ := h
  intro hnil
  obtain ⟨-, hrest⟩ := List.append_eq_nil_iff.mp hnil
  obtain ⟨hds, hrest⟩ := List.append_eq_nil_iff.mp hrest
  obtain ⟨hfraction', -⟩ := List.append_eq_nil_iff.mp hrest
  refine hne ⟨hds, ?_⟩
  cases hfraction with
  | none => rfl
  | point hfs => cases hfraction'

/-! ### Reading a numeral -/

/-- What comes behind a sign does not begin with one. -/
def Unsigned (s : Bytes) : Prop := ∀ b ∈ s.head?, b ≠ 45 ∧ b ≠ 43

theorem takeSign_of_unsigned {s : Bytes} (h : Unsigned s) : takeSign s = (false, s) := by
  unfold takeSign
  split
  · exact absurd rfl (h 45 rfl).1
  · exact absurd rfl (h 43 rfl).2
  · rfl

theorem takeSign_signText {sign s : Bytes} {neg : Bool} (hsign : SignText sign neg)
    (h : Unsigned s) : takeSign (sign ++ s) = (neg, s) := by
  cases hsign with
  | none => exact takeSign_of_unsigned h
  | plus => rfl
  | minus => rfl

theorem ne_sign_of_isDigit {b : UInt8} (hb : isDigit b = true) : b ≠ 45 ∧ b ≠ 43 := by
  constructor <;> rintro rfl <;> exact absurd hb (by decide)

theorem AllDigits.unsigned {ds : Bytes} (h : AllDigits ds) : Unsigned ds := by
  cases ds with
  | nil => nofun
  | cons b ds =>
      intro c hc
      obtain rfl : b = c := Option.some.inj hc
      exact ne_sign_of_isDigit (h b (by simp))

theorem takeDigits_allDigits {ds : Bytes} (h : AllDigits ds) : takeDigits ds = (ds, []) := by
  have happ := takeDigits_append (s := []) h (by simp)
  rwa [List.append_nil] at happ

/-- An exponent does not begin with a digit or a point. -/
theorem ExponentText.head {exponent : Bytes} {eneg : Bool} {e : Nat}
    (h : ExponentText exponent eneg e) : ∀ b ∈ exponent.head?, isDigit b = false ∧ b ≠ 46 := by
  cases h with
  | none => nofun
  | some he =>
      intro b hb
      obtain rfl := Option.some.inj hb
      rcases he with rfl | rfl <;> decide

theorem takeFraction_append {fraction fs exponent : Bytes} {eneg : Bool} {e : Nat}
    (hfraction : FractionText fraction fs) (hexponent : ExponentText exponent eneg e) :
    takeFraction (fraction ++ exponent) = (fs, exponent) := by
  cases hfraction with
  | none =>
      show takeFraction exponent = _
      unfold takeFraction
      split
      · exact absurd rfl (hexponent.head 46 rfl).2
      · rfl
  | point hfs => exact takeDigits_append hfs fun b hb => (hexponent.head b hb).1

/-- Behind the digits before the point there is no digit. -/
theorem head_fraction {fraction fs exponent : Bytes} {eneg : Bool} {e : Nat}
    (hfraction : FractionText fraction fs) (hexponent : ExponentText exponent eneg e) :
    ∀ b ∈ (fraction ++ exponent).head?, isDigit b = false := by
  cases hfraction with
  | none => exact fun b hb => (hexponent.head b hb).1
  | point hfs =>
      intro b hb
      obtain rfl : (46 : UInt8) = b := Option.some.inj hb
      decide

/-- The first character of a numeral: a sign, a digit or a point. -/
theorem head_numeral {sign ds fraction fs : Bytes} (exponent : Bytes) {neg : Bool}
    (hsign : SignText sign neg) (hds : AllDigits ds) (hfraction : FractionText fraction fs)
    (hne : ¬ (ds = [] ∧ fs = [])) :
    ∃ b rest, sign ++ (ds ++ (fraction ++ exponent)) = b :: rest ∧ isSpace b = false ∧
      Unsigned (ds ++ (fraction ++ exponent)) := by
  obtain ⟨b, rest, hbody, hspace, hb⟩ : ∃ b rest, ds ++ (fraction ++ exponent) = b :: rest ∧
      isSpace b = false ∧ (b ≠ 45 ∧ b ≠ 43) := by
    cases ds with
    | cons b ds =>
        have hdigit := hds b (by simp)
        exact ⟨b, _, rfl, not_isSpace_of_isDigit hdigit, ne_sign_of_isDigit hdigit⟩
    | nil =>
        cases hfraction with
        | none => exact absurd ⟨rfl, rfl⟩ hne
        | point hfs => exact ⟨46, _, rfl, by decide, by decide⟩
  have hunsigned : Unsigned (ds ++ (fraction ++ exponent)) := by
    rw [hbody]
    intro c hc
    obtain rfl : b = c := Option.some.inj hc
    exact hb
  cases hsign with
  | none => exact ⟨b, rest, hbody, hspace, hunsigned⟩
  | plus => exact ⟨43, _, rfl, by decide, hunsigned⟩
  | minus => exact ⟨45, _, rfl, by decide, hunsigned⟩

/-- **A numeral is read as the number it denotes**, within the bounds of a `double`. -/
theorem Denotes.readDouble {s : Bytes} {x : ℚ} (h : Denotes s x) (old : ℚ) :
    readDouble s old = clamp (-doubleMax) doubleMax x := by
  obtain ⟨hsign, hds, hfraction, hne, hexponent⟩ := h
  rename_i sign ds fraction fs exponent neg eneg e
  obtain ⟨b, rest, hcons, hspace, hunsigned⟩ := head_numeral exponent hsign hds hfraction
    hne
  have hskip : (sign ++ (ds ++ (fraction ++ exponent))).dropWhile isSpace
      = sign ++ (ds ++ (fraction ++ exponent)) := by
    rw [hcons, List.dropWhile_cons_of_neg (by rw [hspace]; simp)]
  unfold Lib.readDouble
  rw [hskip]
  have hne' : sign ++ (ds ++ (fraction ++ exponent)) ≠ [] := by
    rw [hcons]
    exact List.cons_ne_nil _ _
  split
  · rename_i hnil
    exact absurd hnil hne'
  · rw [takeSign_signText hsign hunsigned]
    simp only [takeDigits_append hds (head_fraction hfraction hexponent),
      takeFraction_append hfraction hexponent, if_neg hne]
    cases hexponent with
    | none => rfl
    | some he hesign hes hene =>
        simp only [if_pos he, takeSign_signText hesign hes.unsigned, takeDigits_allDigits hes,
          if_neg hene]

end Lib
