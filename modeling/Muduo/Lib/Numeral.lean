/-
Decimal numerals, and how C++ streams print and read them.

Printing and reading are inverse to each other on everything a program prints with
a fixed number of decimals; that is what the last two sections prove.  On other
texts the reader does what `operator>>` does: it skips white space, takes the
longest numeral it can, ignores the rest, answers zero when there is none, and
leaves its variable alone when there was nothing but white space.

A `double` is taken as the exact rational it stands for, up to the largest finite
one, where reading stops.
-/
import Mathlib.Tactic
import Mathlib.Data.Nat.Digits.Defs
import Mathlib.Algebra.Order.Floor.Ring
import Mathlib.Data.Rat.Floor
import Muduo.Lib.Bytes

namespace Lib

/-! ### Digits -/

/-- One of the characters `0` to `9`. -/
def isDigit (b : UInt8) : Bool := 48 ≤ b && b ≤ 57

/-- The character of a digit. -/
def digitChar (d : Nat) : UInt8 := UInt8.ofNat (48 + d)

/-- The number a row of digits spells. -/
def digitsValue (ds : Bytes) : Nat :=
  ds.foldl (fun n d => 10 * n + (d.toNat - 48)) 0

/-- A natural number in decimal. -/
def natText (n : Nat) : Bytes :=
  if n = 0 then [48] else (Nat.digits 10 n).reverse.map digitChar

/-- `n` with a decimal point in front of its last two digits. -/
def fixedText (n : Nat) : Bytes :=
  natText (n / 100) ++ [46, digitChar (n / 10 % 10), digitChar (n % 10)]

theorem toNat_digitChar {d : Nat} (hd : d < 10) : (digitChar d).toNat = 48 + d := by
  simp only [digitChar, UInt8.toNat_ofNat']
  omega

theorem isDigit_digitChar {d : Nat} (hd : d < 10) : isDigit (digitChar d) = true := by
  have hn := toNat_digitChar hd
  simp only [isDigit, Bool.and_eq_true, decide_eq_true_eq, UInt8.le_iff_toNat_le, hn]
  exact ⟨Nat.le_add_right _ _, by show 48 + d ≤ 57; omega⟩

theorem digitsValue_append_digitChar (ds : Bytes) {d : Nat} (hd : d < 10) :
    digitsValue (ds ++ [digitChar d]) = 10 * digitsValue ds + d := by
  simp only [digitsValue, List.foldl_append, List.foldl_cons, List.foldl_nil, toNat_digitChar hd]
  omega

private theorem digitsValue_map_digitChar {l : List Nat} (hl : ∀ d ∈ l, d < 10) :
    digitsValue (l.reverse.map digitChar) = Nat.ofDigits 10 l := by
  induction l with
  | nil => rfl
  | cons d rest ih =>
      rw [List.reverse_cons, List.map_append, List.map_singleton,
        digitsValue_append_digitChar _ (hl d (by simp)), ih fun x hx => hl x (by simp [hx]),
        Nat.ofDigits_cons]
      omega

@[simp] theorem digitsValue_natText (n : Nat) : digitsValue (natText n) = n := by
  unfold natText
  split
  · rename_i h0
    rw [h0]
    rfl
  · rw [digitsValue_map_digitChar fun d hd => Nat.digits_lt_base (by omega) hd,
      Nat.ofDigits_digits]

theorem isDigit_of_mem_natText {n : Nat} {b : UInt8} (hb : b ∈ natText n) : isDigit b = true := by
  unfold natText at hb
  split at hb
  · rw [List.mem_singleton.mp hb]
    rfl
  · obtain ⟨d, hd, rfl⟩ := List.mem_map.mp hb
    exact isDigit_digitChar (Nat.digits_lt_base (by omega) (List.mem_reverse.mp hd))

theorem length_natText_le {n k : Nat} (hk : 0 < k) (hn : n < 10 ^ k) : (natText n).length ≤ k := by
  unfold natText
  split
  · exact hk
  · rw [List.length_map, List.length_reverse]
    exact (Nat.digits_length_le_iff (by norm_num) n).mpr hn

theorem natText_ne_nil (n : Nat) : natText n ≠ [] := by
  unfold natText
  split
  · simp
  · rename_i h0
    simpa [Nat.digits_eq_nil_iff_eq_zero] using h0

/-! ### Reading -/

/-- What `isspace` holds of in the C locale. -/
def isSpace (b : UInt8) : Bool := b == 32 || (9 ≤ b && b ≤ 13)

/-- An optional sign; whether it was a minus, and what follows. -/
def takeSign : Bytes → Bool × Bytes
  | 45 :: s => (true, s)
  | 43 :: s => (false, s)
  | s => (false, s)

/-- The digits at the front, and what follows them. -/
def takeDigits (s : Bytes) : Bytes × Bytes := (s.takeWhile isDigit, s.dropWhile isDigit)

/-- The digits behind a decimal point, and what follows them. -/
def takeFraction : Bytes → Bytes × Bytes
  | 46 :: s => takeDigits s
  | s => ([], s)

/-- A value with its sign. -/
def signed {α : Type} [Neg α] (neg : Bool) (x : α) : α := if neg then -x else x

/-- Between the bounds. -/
def clamp {α : Type} [LinearOrder α] (lo hi x : α) : α := max lo (min hi x)

/-- `stream >> x` for an `int x` that holds `old`. -/
def readInt (s : Bytes) (old : Int) : Int :=
  match s.dropWhile isSpace with
  | [] => old
  | t =>
      let (neg, t) := takeSign t
      let (ds, _) := takeDigits t
      clamp (-2147483648) 2147483647 (signed neg (digitsValue ds : Int))

/-- `stream >> x` for a `uint32 x` that holds `old`: what is too large becomes the largest,
and a minus negates in 32 bits. -/
def readUInt32 (s : Bytes) (old : UInt32) : UInt32 :=
  match s.dropWhile isSpace with
  | [] => old
  | t =>
      let (neg, t) := takeSign t
      let (ds, _) := takeDigits t
      if digitsValue ds < 2 ^ 32 then signed neg (UInt32.ofNat (digitsValue ds)) else 4294967295

/-- The largest finite `double`. -/
def doubleMax : ℚ := 2 ^ 1024 - 2 ^ 971

/-- Whole numbers of 53 bits are far below it. -/
theorem le_doubleMax {x : ℚ} (hx : x ≤ 2 ^ 53 - 1) : x ≤ doubleMax := by
  have hsplit : doubleMax = 2 ^ 971 * (2 ^ 53 - 1) := by
    rw [doubleMax, mul_sub, ← pow_add, mul_one]
  have hone : (1 : ℚ) ≤ 2 ^ 971 := one_le_pow₀ (by norm_num)
  rw [hsplit]
  calc x ≤ 1 * (2 ^ 53 - 1) := by rw [one_mul]; exact hx
    _ ≤ 2 ^ 971 * (2 ^ 53 - 1) := mul_le_mul_of_nonneg_right hone (by norm_num)

/-- The number that digits, digits after the point and an exponent stand for. -/
def decimalValue (ds fs : Bytes) (neg : Bool) (e : Nat) : ℚ :=
  let m : ℚ := digitsValue ds + digitsValue fs / 10 ^ fs.length
  if neg then m / 10 ^ e else m * 10 ^ e

/-- `stream >> x` for a `double x` that holds `old`. -/
def readDouble (s : Bytes) (old : ℚ) : ℚ :=
  match s.dropWhile isSpace with
  | [] => old
  | t =>
      let (neg, t) := takeSign t
      let (ds, t) := takeDigits t
      let (fs, t) := takeFraction t
      if ds = [] ∧ fs = [] then 0
      else match t with
        | b :: t =>
            if b = 101 ∨ b = 69 then
              let (eneg, t) := takeSign t
              let (es, _) := takeDigits t
              -- an exponent without digits spoils the whole numeral
              if es = [] then 0
              else clamp (-doubleMax) doubleMax (signed neg (decimalValue ds fs eneg (digitsValue es)))
            else clamp (-doubleMax) doubleMax (signed neg (decimalValue ds fs false 0))
        | [] => clamp (-doubleMax) doubleMax (signed neg (decimalValue ds fs false 0))

/-! ### Reading back what was printed -/

theorem not_isSpace_of_isDigit {b : UInt8} (hb : isDigit b = true) : isSpace b = false := by
  have h : 48 ≤ b.toNat := by
    simp only [isDigit, Bool.and_eq_true, decide_eq_true_eq, UInt8.le_iff_toNat_le] at hb
    exact hb.1
  have hne : b ≠ 32 := fun hc => by rw [hc] at h; exact absurd h (by decide)
  simp only [isSpace, Bool.or_eq_false_iff, beq_eq_false_iff_ne, ne_eq, hne, not_false_eq_true,
    Bool.and_eq_false_iff, decide_eq_false_iff_not, UInt8.le_iff_toNat_le, true_and]
  right
  show ¬ b.toNat ≤ 13
  omega

theorem takeSign_of_isDigit {b : UInt8} {s : Bytes} (hb : isDigit b = true) :
    takeSign (b :: s) = (false, b :: s) := by
  unfold takeSign
  split
  · rename_i heq
    rw [(List.cons.inj heq).1] at hb
    exact absurd hb (by decide)
  · rename_i heq
    rw [(List.cons.inj heq).1] at hb
    exact absurd hb (by decide)
  · rfl

theorem takeDigits_append {ds s : Bytes} (hds : ∀ b ∈ ds, isDigit b = true)
    (hs : ∀ b ∈ s.head?, isDigit b = false) : takeDigits (ds ++ s) = (ds, s) := by
  have htail : s.takeWhile isDigit = [] ∧ s.dropWhile isDigit = s := by
    cases s with
    | nil => exact ⟨rfl, rfl⟩
    | cons b rest =>
        have hb := hs b (by simp)
        simp [hb]
  rw [takeDigits, List.takeWhile_append_of_pos hds, List.dropWhile_append_of_pos hds, htail.1,
    htail.2, List.append_nil]

/-- A text of digits is read as the number it spells. -/
theorem readUInt32_digits {s : Bytes} (hne : s ≠ []) (hall : ∀ b ∈ s, isDigit b = true)
    (hn : digitsValue s < 2 ^ 32) (old : UInt32) :
    readUInt32 s old = UInt32.ofNat (digitsValue s) := by
  obtain ⟨b, t, rfl⟩ := List.exists_cons_of_ne_nil hne
  have hb : isDigit b = true := hall b (by simp)
  have hdigits : takeDigits (b :: t) = (b :: t, []) := by
    simpa using takeDigits_append (s := []) hall (by simp)
  have hskip : (b :: t).dropWhile isSpace = b :: t := by
    rw [List.dropWhile_cons_of_neg (by rw [not_isSpace_of_isDigit hb]; simp)]
  unfold readUInt32
  rw [hskip]
  simp only [takeSign_of_isDigit hb, hdigits, if_pos hn, signed, Bool.false_eq_true, if_false]

private theorem decimalValue_fixed (n : Nat) :
    decimalValue (natText (n / 100)) [digitChar (n / 10 % 10), digitChar (n % 10)] false 0
      = n / 100 := by
  have hfrac : digitsValue [digitChar (n / 10 % 10), digitChar (n % 10)] = n % 100 := by
    rw [show [digitChar (n / 10 % 10), digitChar (n % 10)]
        = ([] ++ [digitChar (n / 10 % 10)]) ++ [digitChar (n % 10)] from rfl,
      digitsValue_append_digitChar _ (by omega), digitsValue_append_digitChar _ (by omega)]
    show 10 * (10 * 0 + n / 10 % 10) + n % 10 = n % 100
    omega
  have hsplit : (n : ℚ) = 100 * (n / 100 : ℕ) + (n % 100 : ℕ) := by
    exact_mod_cast (Nat.div_add_mod n 100).symm
  simp only [decimalValue, hfrac, digitsValue_natText, Bool.false_eq_true, if_false,
    List.length_cons, List.length_nil]
  rw [hsplit]
  push_cast
  ring

/-- A number with two decimals is read back from its text, with or without a
minus in front. -/
theorem readDouble_fixedText {n : Nat} (neg : Bool) (hn : (n : ℚ) / 100 ≤ doubleMax) (old : ℚ) :
    readDouble ((if neg then [45] else []) ++ fixedText n) old = signed neg ((n : ℚ) / 100) := by
  obtain ⟨b, t, ht⟩ := List.exists_cons_of_ne_nil (natText_ne_nil (n / 100))
  have hall : ∀ x ∈ natText (n / 100), isDigit x = true := fun x hx => isDigit_of_mem_natText hx
  have hb : isDigit b = true := hall b (by rw [ht]; simp)
  set fs : Bytes := [digitChar (n / 10 % 10), digitChar (n % 10)] with hfs
  have hfixed : fixedText n = natText (n / 100) ++ 46 :: fs := rfl
  have hcons : fixedText n = b :: (t ++ 46 :: fs) := by rw [hfixed, ht]; rfl
  have hint : takeDigits (fixedText n) = (natText (n / 100), 46 :: fs) :=
    takeDigits_append hall (by simp; decide)
  have hfrac : takeFraction (46 :: fs) = (fs, []) := by
    show takeDigits fs = (fs, [])
    have hd : ∀ x ∈ fs, isDigit x = true := by
      intro x hx
      simp only [hfs, List.mem_cons, List.not_mem_nil, or_false] at hx
      rcases hx with rfl | rfl
      · exact isDigit_digitChar (by omega)
      · exact isDigit_digitChar (by omega)
    simpa using takeDigits_append (s := []) hd (by simp)
  have hvalue := decimalValue_fixed n
  rw [← hfs] at hvalue
  have hpos : (0 : ℚ) ≤ (n : ℚ) / 100 := by positivity
  have hclamp : clamp (-doubleMax) doubleMax (signed neg ((n : ℚ) / 100))
      = signed neg ((n : ℚ) / 100) := by
    have hmax : (0 : ℚ) ≤ doubleMax := le_trans hpos hn
    cases neg with
    | false =>
        simp only [clamp, signed, Bool.false_eq_true, if_false]
        rw [min_eq_right hn, max_eq_right (by linarith)]
    | true =>
        simp only [clamp, signed, if_true]
        rw [min_eq_right (by linarith), max_eq_right (by linarith)]
  have hskip : ((if neg then [45] else []) ++ fixedText n).dropWhile isSpace
      = (if neg then [45] else []) ++ fixedText n := by
    cases neg with
    | false =>
        show (fixedText n).dropWhile isSpace = fixedText n
        rw [hcons, List.dropWhile_cons_of_neg (by rw [not_isSpace_of_isDigit hb]; simp)]
    | true => rfl
  have hsign : takeSign ((if neg then [45] else []) ++ fixedText n) = (neg, fixedText n) := by
    cases neg with
    | false =>
        show takeSign (fixedText n) = (false, fixedText n)
        rw [hcons, takeSign_of_isDigit hb]
    | true => rfl
  obtain ⟨c, u, hcu⟩ : ∃ c u, (if neg then [45] else []) ++ fixedText n = c :: u := by
    cases neg with
    | false => exact ⟨b, _, hcons⟩
    | true => exact ⟨45, _, rfl⟩
  unfold readDouble
  rw [hskip, hcu]
  simp only
  rw [← hcu, hsign]
  simp only [hint, hfrac]
  rw [if_neg (fun hc => natText_ne_nil _ hc.1), hvalue, hclamp]

/-! ### Rounding -/

/-- The nearest integer, the even one of two equally near. -/
def roundHalfEven (x : ℚ) : Int :=
  let f := ⌊x⌋
  let r := x - f
  if r < 1 / 2 then f
  else if 1 / 2 < r then f + 1
  else if f % 2 = 0 then f else f + 1

@[simp] theorem roundHalfEven_intCast (n : Int) : roundHalfEven n = n := by
  simp [roundHalfEven]

/-- Rounding moves a number by at most a half. -/
theorem abs_roundHalfEven_sub_le (x : ℚ) : |(roundHalfEven x : ℚ) - x| ≤ 1 / 2 := by
  have h₁ := Int.floor_le x
  have h₂ := Int.lt_floor_add_one x
  rw [abs_le]
  unfold roundHalfEven
  simp only
  split_ifs <;> push_cast <;> constructor <;> linarith

/-- Leading zeros do not count. -/
theorem digitsValue_zeros (n : Nat) (ds : Bytes) :
    digitsValue (List.replicate n 48 ++ ds) = digitsValue ds := by
  induction n with
  | zero => rfl
  | succ n ih =>
      rw [← ih, List.replicate_succ, List.cons_append]
      rfl

/-- A row of digits is read as the number it spells. -/
theorem readInt_digits {s : Bytes} (hne : s ≠ []) (hall : ∀ b ∈ s, isDigit b = true)
    (hle : digitsValue s ≤ 2147483647) (old : Int) : readInt s old = digitsValue s := by
  obtain ⟨b, t, rfl⟩ := List.exists_cons_of_ne_nil hne
  have hb : isDigit b = true := hall b (by simp)
  have hdigits : takeDigits (b :: t) = (b :: t, []) := by
    have happ := takeDigits_append (s := []) hall (by simp)
    rwa [List.append_nil] at happ
  have hskip : (b :: t).dropWhile isSpace = b :: t := by
    rw [List.dropWhile_cons_of_neg (by rw [not_isSpace_of_isDigit hb]; simp)]
  unfold readInt
  rw [hskip]
  simp only [takeSign_of_isDigit hb, hdigits, signed, Bool.false_eq_true, if_false, clamp]
  omega

theorem digitsValue_lt {ds : Bytes} (hall : ∀ b ∈ ds, isDigit b = true) :
    digitsValue ds < 10 ^ ds.length := by
  induction ds using List.reverseRecOn with
  | nil => decide
  | append_singleton ds d ih =>
      have hlt := ih fun b hb => hall b (by simp [hb])
      have hd := hall d (by simp)
      simp only [isDigit, Bool.and_eq_true, decide_eq_true_eq, UInt8.le_iff_toNat_le] at hd
      have hnine : d.toNat ≤ 57 := hd.2
      have hvalue : digitsValue (ds ++ [d]) = 10 * digitsValue ds + (d.toNat - 48) := by
        simp only [digitsValue, List.foldl_append, List.foldl_cons, List.foldl_nil]
      rw [hvalue, List.length_append, List.length_singleton, pow_succ]
      omega

/-- How long the text of a number is. -/
theorem lt_length_natText_iff {n k : Nat} (hk : 0 < k) : k < (natText n).length ↔ 10 ^ k ≤ n := by
  constructor
  · intro h
    by_contra hlt
    have := length_natText_le hk (Nat.lt_of_not_le hlt)
    omega
  · intro h
    have hlt := digitsValue_lt fun b hb => isDigit_of_mem_natText (n := n) hb
    rw [digitsValue_natText] at hlt
    exact (Nat.pow_lt_pow_iff_right (by decide)).mp (h.trans_lt hlt)

end Lib
