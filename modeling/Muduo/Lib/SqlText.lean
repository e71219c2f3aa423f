/-
SQL text, cut into tokens.

The scanner is a machine that takes one byte at a time, so that reading one text behind another
is reading the two together.  It knows what matters when texts are put together: quotes and what
escapes them, characters of two bytes, the three kinds of comments, numbers, and the NUL behind
which nothing is read.  It loses nothing: blanks and comments are tokens, too.

A text that is spliced into a statement behaves if it is one literal and is over where it ends.
The tokens of a statement are those of its parts, and each text in it is one literal, exactly if
all of them behave.
-/
import Muduo.Lib.Numeral

namespace Lib

namespace SqlText

/-- The bytes of a text without special characters. -/
def ascii (s : String) : Bytes := s.toList.map fun c => UInt8.ofNat c.toNat

theorem ascii_ofList (cs : List Char) :
    ascii (String.ofList cs) = cs.map fun c => UInt8.ofNat c.toNat := by
  rw [ascii, String.toList_ofList]

/-! ### Characters and words -/

def isBlank (c : UInt8) : Bool := decide (c ≤ 32)

def isLetter (c : UInt8) : Bool := decide (65 ≤ c ∧ c ≤ 90) || decide (97 ≤ c ∧ c ≤ 122)

/-- What words are made of; a point is one, too. -/
def isWordChar (c : UInt8) : Bool :=
  isDigit c || isLetter c || c == 95 || c == 36 || c == 46 || decide (128 ≤ c)

inductive Quote where
  | single
  | double
  | back
deriving DecidableEq

namespace Quote

def byte : Quote → UInt8
  | single => 39
  | double => 34
  | back => 96

def ofByte (c : UInt8) : Option Quote :=
  if c = 39 then some single
  else if c = 34 then some double
  else if c = 96 then some back
  else none

end Quote

/-- The first byte of a character of two bytes in GBK, and the second. -/
def isLead (c : UInt8) : Bool := decide (129 ≤ c ∧ c ≤ 254)

def isTrail (c : UInt8) : Bool := decide (64 ≤ c ∧ c ≤ 126) || decide (128 ≤ c ∧ c ≤ 254)

/-- What stands behind a text in a statement. -/
def isDelimiter (c : UInt8) : Bool := c == 32 || c == 59 || c == 44 || c == 41

/-- The end of a number: nothing, or an exponent. -/
def isExponent : Bytes → Bool
  | [] => true
  | e :: rest =>
      (e == 101 || e == 69) &&
        match rest with
        | s :: ds => if s == 43 || s == 45 then !ds.isEmpty && ds.all isDigit else rest.all isDigit
        | [] => false

/-- A decimal number, with a point and an exponent or without. -/
def isNumber (w : Bytes) : Bool :=
  let ds := w.takeWhile isDigit
  match w.dropWhile isDigit with
  | [] => !ds.isEmpty
  | c :: rest =>
      if c = 46 then
        (!ds.isEmpty || !(rest.takeWhile isDigit).isEmpty) && isExponent (rest.dropWhile isDigit)
      else !ds.isEmpty && isExponent (c :: rest)

def isHexDigit (c : UInt8) : Bool :=
  isDigit c || decide (65 ≤ c ∧ c ≤ 70) || decide (97 ≤ c ∧ c ≤ 102)

/-- `0x..` and `0b..` -/
def isBased : Bytes → Bool
  | z :: b :: ds =>
      z == 48 && !ds.isEmpty &&
        (b == 120 && ds.all isHexDigit || b == 98 && ds.all fun c => c == 48 || c == 49)
  | _ => false

/-- `null`, `true` and `false`. -/
def isConstant (w : Bytes) : Bool :=
  let lower := w.map fun c => if 65 ≤ c ∧ c ≤ 90 then c + 32 else c
  lower == [110, 117, 108, 108] || lower == [116, 114, 117, 101]
    || lower == [102, 97, 108, 115, 101]

/-! ### The scanner -/

inductive Token where
  | name (s : Bytes)
  | literal (s : Bytes)
  /-- Any other character. -/
  | mark (c : UInt8)
  | blank (c : UInt8)
  | comment (s : Bytes)
  /-- A string or a comment that does not end, or a comment that is executed. -/
  | broken (s : Bytes)
deriving DecidableEq

/-- What the last bytes may still become part of.  They are kept the last one first. -/
inductive Mode where
  | start
  | word (acc : Bytes)
  /-- In quotes: behind a backslash, behind the first byte of a character, behind a quote. -/
  | quoted (quote : Quote) (acc : Bytes)
  | escaped (quote : Quote) (acc : Bytes)
  | lead (quote : Quote) (acc : Bytes)
  | closing (quote : Quote) (acc : Bytes)
  /-- Behind `-`, `--` and `/`. -/
  | dash
  | dashes
  | slash
  /-- In a comment; `star` is behind a `*` in it. -/
  | line (acc : Bytes)
  | block (acc : Bytes)
  | star (acc : Bytes)
  | ended
deriving DecidableEq

def wordToken (acc : Bytes) : Token :=
  let w := acc.reverse
  if isNumber w || isBased w || isConstant w then .literal w else .name w

/-- What is between backquotes is a name. -/
def quotedToken (quote : Quote) (acc : Bytes) : Token :=
  if quote = .back then .name acc.reverse else .literal acc.reverse

/-- A sign belongs to the word if an exponent has begun. -/
def atExponent (acc : Bytes) : Bool :=
  match acc with
  | e :: ds => (e == 101 || e == 69) && isNumber ds.reverse
  | [] => false

namespace Mode

/-- The tokens that are left if the text ends here. -/
def flush : Mode → List Token
  | start => []
  | word acc => [wordToken acc]
  | quoted _ acc | escaped _ acc | lead _ acc => [.broken acc.reverse]
  | closing quote acc => [quotedToken quote acc]
  | dash => [.mark 45]
  | dashes => [.mark 45, .mark 45]
  | slash => [.mark 47]
  | line acc => [.comment acc.reverse]
  | block acc | star acc => [.broken acc.reverse]
  | ended => []

/-- A byte at the start of a token. -/
def begin (c : UInt8) : List Token × Mode :=
  if isBlank c then ([.blank c], start)
  else if isWordChar c then ([], word [c])
  else
    match Quote.ofByte c with
    | some quote => ([], quoted quote [c])
    | none =>
        if c = 45 then ([], dash)
        else if c = 47 then ([], slash)
        else if c = 35 then ([], line [c])
        else ([.mark c], start)

/-- What is pending is over, and the byte starts a token. -/
def resume (m : Mode) (c : UInt8) : List Token × Mode := (m.flush ++ (begin c).1, (begin c).2)

def inQuotes (quote : Quote) (acc : Bytes) (c : UInt8) : Mode :=
  if c = 92 ∧ quote ≠ .back then escaped quote (c :: acc)
  else if c = quote.byte then closing quote (c :: acc)
  else if isLead c then lead quote (c :: acc)
  else quoted quote (c :: acc)

theorem inQuotes_ne_start (quote : Quote) (acc : Bytes) (c : UInt8) :
    inQuotes quote acc c ≠ start := by
  unfold inQuotes
  split_ifs <;> exact nofun

/-- A byte in a comment that ends with the line. -/
def inLine (acc : Bytes) (c : UInt8) : List Token × Mode :=
  if c = 10 then ([.comment acc.reverse, .blank c], start) else ([], line (c :: acc))

/-- A byte in the other kind of comment, which is code if it begins with `/*!`. -/
def inBlock (acc : Bytes) (c : UInt8) : List Token × Mode :=
  if c = 33 ∧ acc = [42, 47] then ([.broken [47, 42, 33]], start)
  else if c = 42 then ([], star (c :: acc))
  else ([], block (c :: acc))

/-- A byte that is not NUL. -/
def next (c : UInt8) : Mode → List Token × Mode
  | start => begin c
  | word acc =>
      if isWordChar c || ((c == 43 || c == 45) && atExponent acc) then ([], word (c :: acc))
      else (word acc).resume c
  | quoted quote acc => ([], inQuotes quote acc c)
  | escaped quote acc => ([], quoted quote (c :: acc))
  | lead quote acc =>
      if isTrail c then ([], quoted quote (c :: acc)) else ([], inQuotes quote acc c)
  | closing quote acc =>
      if c = quote.byte then ([], quoted quote (c :: acc)) else (closing quote acc).resume c
  | dash => if c = 45 then ([], dashes) else dash.resume c
  | dashes =>
      if isBlank c then inLine [45, 45] c
      else if c = 45 then ([.mark 45], dashes)
      else dashes.resume c
  | slash => if c = 42 then ([], block [42, 47]) else slash.resume c
  | line acc => inLine acc c
  | block acc => inBlock acc c
  | star acc => if c = 47 then ([.comment (c :: acc).reverse], start) else inBlock acc c
  | ended => ([], ended)

def step (m : Mode) (c : UInt8) : List Token × Mode :=
  if c = 0 then (m.flush, ended) else m.next c

/-- Read a text. -/
def read (m : Mode) : Bytes → List Token × Mode
  | [] => ([], m)
  | c :: rest => ((m.step c).1 ++ ((m.step c).2.read rest).1, ((m.step c).2.read rest).2)

/-- The tokens of what is pending and of the text behind it. -/
def all (m : Mode) (text : Bytes) : List Token := (m.read text).1 ++ (m.read text).2.flush

theorem read_append (a b : Bytes) : ∀ m : Mode,
    m.read (a ++ b) = ((m.read a).1 ++ ((m.read a).2.read b).1, ((m.read a).2.read b).2) := by
  induction a with
  | nil => exact fun m => rfl
  | cons c a ih =>
      intro m
      show ((m.step c).1 ++ ((m.step c).2.read (a ++ b)).1, ((m.step c).2.read (a ++ b)).2) = _
      rw [ih, ← List.append_assoc]
      rfl

theorem all_append (m : Mode) (a b : Bytes) :
    m.all (a ++ b) = (m.read a).1 ++ (m.read a).2.all b := by
  rw [all, read_append, List.append_assoc]
  rfl

theorem all_cons (m : Mode) (c : UInt8) (rest : Bytes) :
    m.all (c :: rest) = (m.step c).1 ++ (m.step c).2.all rest :=
  List.append_assoc _ _ _

end Mode

/-- The tokens of a text. -/
def tokens (text : Bytes) : List Token := Mode.start.all text

def Token.isTrivia : Token → Bool
  | .blank _ | .comment _ => true
  | _ => false

/-- The text is a literal, perhaps with blanks and comments. -/
def OneLiteral (text : Bytes) : Prop :=
  ∃ s, (tokens text).filter (fun t => !t.isTrivia) = [.literal s]

/-- What is left if nothing is said of literals but that they are there. -/
def Token.outline : Token → Token
  | .literal _ => .literal []
  | t => t

def outline (ts : List Token) : List Token :=
  (ts.filter fun t => !t.isTrivia).map Token.outline

theorem outline_append (ts us : List Token) : outline (ts ++ us) = outline ts ++ outline us := by
  rw [outline, List.filter_append, List.map_append]
  rfl

theorem OneLiteral.outline_eq {text : Bytes} (h : OneLiteral text) :
    outline (tokens text) = [.literal []] := by
  obtain ⟨s, hs⟩ := h
  rw [outline, hs]
  rfl

/-- A text that is over where it ends: a blank behind it is one. -/
def Closes (text : Bytes) : Prop := ((Mode.start.read text).2.step 32).2 = .start

instance (text : Bytes) : Decidable (Closes text) := inferInstanceAs (Decidable (_ = _))

/-- A text that can be spliced in. -/
def Lone (text : Bytes) : Prop := OneLiteral text ∧ Closes text

/-! ### Behind a text -/

/-- What is behind a text that closes begins anew. -/
theorem step_delimiter {m : Mode} {d : UInt8} (hd : isDelimiter d = true)
    (h : (m.step 32).2 = .start) : m.step d = m.resume d := by
  have hcases : d = 32 ∨ d = 59 ∨ d = 44 ∨ d = 41 := by
    simpa [isDelimiter, or_assoc] using hd
  have hplain : d ≠ 0 ∧ isWordChar d = false ∧ d ≠ 43 ∧ d ≠ 45 ∧ d ≠ 42 ∧
      ∀ quote : Quote, d ≠ quote.byte := by
    rcases hcases with rfl | rfl | rfl | rfl <;>
      exact ⟨by decide, by decide, by decide, by decide, by decide, by rintro ⟨⟩ <;> decide⟩
  obtain ⟨hzero, hword, hplus, hminus, hstar, hquote⟩ := hplain
  rw [Mode.step, if_neg hzero]
  cases m with
  | start => rfl
  | word acc =>
      show (if _ then _ else _) = _
      rw [if_neg]
      simp [hword, hplus, hminus]
  | closing quote acc => exact if_neg (hquote quote)
  | dash => exact if_neg hminus
  | slash => exact if_neg hstar
  | dashes => exact absurd h (by decide)
  | quoted quote acc => exact absurd h (Mode.inQuotes_ne_start quote acc 32)
  | lead quote acc => exact absurd h (Mode.inQuotes_ne_start quote acc 32)
  | escaped quote acc => exact absurd h nofun
  | line acc => exact absurd h nofun
  | block acc => exact absurd h nofun
  | star acc => exact absurd h nofun
  | ended => exact absurd h nofun

/-- The tokens of a text that closes are not changed by what is behind it. -/
theorem tokens_append_of_closes {a : Bytes} (ha : Closes a) {d : UInt8}
    (hd : isDelimiter d = true) (rest : Bytes) :
    tokens (a ++ d :: rest) = tokens a ++ tokens (d :: rest) := by
  have hzero : d ≠ 0 := by
    rintro rfl
    exact absurd hd (by decide)
  have hread : tokens (d :: rest) = (Mode.begin d).1 ++ (Mode.begin d).2.all rest := by
    rw [tokens, Mode.all_cons, Mode.step, if_neg hzero]
    rfl
  rw [hread, tokens, Mode.all_append, Mode.all_cons, step_delimiter hd ha]
  simp only [Mode.resume, tokens, Mode.all, List.append_assoc]

/-- A comment that goes on to the end of the line takes all that is behind it. -/
theorem all_line (text : Bytes) : ∀ acc : Bytes,
    ∃ s ts, (Mode.line acc).all text = .comment s :: ts ∧ acc.length ≤ s.length := by
  induction text with
  | nil => exact fun acc => ⟨acc.reverse, [], rfl, by rw [List.length_reverse]⟩
  | cons c text ih =>
      intro acc
      rw [Mode.all_cons, Mode.step]
      by_cases hzero : c = 0
      · rw [if_pos hzero]
        exact ⟨acc.reverse, _, rfl, by rw [List.length_reverse]⟩
      · rw [if_neg hzero]
        show ∃ s ts, (Mode.inLine acc c).1 ++ (Mode.inLine acc c).2.all text = _ ∧ _
        unfold Mode.inLine
        by_cases hline : c = 10
        · rw [if_pos hline]
          exact ⟨acc.reverse, _, rfl, by rw [List.length_reverse]⟩
        · rw [if_neg hline]
          obtain ⟨s, ts, hall, hlen⟩ := ih (c :: acc)
          refine ⟨s, ts, hall, ?_⟩
          rw [List.length_cons] at hlen
          omega

theorem step_line_delimiter {d : UInt8} (hd : isDelimiter d = true) (acc : Bytes) :
    (Mode.line acc).step d = ([], .line (d :: acc)) := by
  have hcases : d = 32 ∨ d = 59 ∨ d = 44 ∨ d = 41 := by
    simpa [isDelimiter, or_assoc] using hd
  rcases hcases with rfl | rfl | rfl | rfl <;> rfl

theorem all_ended (text : Bytes) : Mode.ended.all text = [] := by
  induction text with
  | nil => rfl
  | cons c text ih =>
      rw [Mode.all_cons, Mode.step]
      split <;> exact ih

/-- Something is left of a text that begins with a delimiter. -/
theorem tokens_delimiter_ne_nil {d : UInt8} (hd : isDelimiter d = true) (rest : Bytes) :
    tokens (d :: rest) ≠ [] := by
  have hcases : d = 32 ∨ d = 59 ∨ d = 44 ∨ d = 41 := by
    simpa [isDelimiter, or_assoc] using hd
  rw [tokens, Mode.all_cons]
  rcases hcases with rfl | rfl | rfl | rfl <;> exact List.cons_ne_nil _ _

/-! ### Numbers -/

/-- The modes in which a word may begin or go on. -/
def Mode.Open (m : Mode) : Prop :=
  m = .start ∨ m = .dash ∨ m = .dashes ∨ ∃ acc, m = .word acc

/-- What numbers are printed with. -/
def isNumeralByte (c : UInt8) : Bool := isWordChar c || c == 43 || c == 45

/-- A printed number: it ends with a digit or the like. -/
def Numeral (t : Bytes) : Prop :=
  (∀ c ∈ t, isNumeralByte c = true) ∧ ∃ t' c, t = t' ++ [c] ∧ isWordChar c = true

theorem isWordChar_of_isDigit {c : UInt8} (h : isDigit c = true) : isWordChar c = true := by
  simp [isWordChar, h]

theorem ne_zero_of_isNumeralByte {c : UInt8} (h : isNumeralByte c = true) : c ≠ 0 := by
  rintro rfl
  exact absurd h (by decide)

theorem not_isBlank_of_isWordChar {c : UInt8} (h : isWordChar c = true) : isBlank c = false := by
  revert h
  simp only [isWordChar, isBlank, isDigit, isLetter, Bool.or_eq_true, Bool.and_eq_true,
    decide_eq_true_eq, beq_iff_eq, decide_eq_false_iff_not, not_le, UInt8.le_iff_toNat_le,
    UInt8.ext_iff]
  simp
  omega

/-- A byte of a word begins one. -/
theorem begin_of_isWordChar {c : UInt8} (h : isWordChar c = true) :
    Mode.begin c = ([], .word [c]) := by
  rw [Mode.begin, not_isBlank_of_isWordChar h, h]
  rfl

theorem step_isWordChar {m : Mode} (hm : m.Open) {c : UInt8} (h : isWordChar c = true) :
    ∃ acc, (m.step c).2 = .word acc := by
  have hzero : c ≠ 0 := ne_zero_of_isNumeralByte (by simp [isNumeralByte, h])
  have hminus : c ≠ 45 := by
    rintro rfl
    exact absurd h (by decide)
  rw [Mode.step, if_neg hzero]
  obtain rfl | rfl | rfl | ⟨acc, rfl⟩ := hm
  · exact ⟨[c], congrArg Prod.snd (begin_of_isWordChar h)⟩
  · refine ⟨[c], ?_⟩
    show (if c = 45 then _ else Mode.dash.resume c).2 = _
    rw [if_neg hminus, Mode.resume, begin_of_isWordChar h]
  · refine ⟨[c], ?_⟩
    show (if isBlank c = true then _ else if c = 45 then _ else Mode.dashes.resume c).2 = _
    rw [not_isBlank_of_isWordChar h, if_neg Bool.false_ne_true, if_neg hminus, Mode.resume,
      begin_of_isWordChar h]
  · refine ⟨c :: acc, ?_⟩
    show (if (isWordChar c || _) = true then _ else _ : List Token × Mode).2 = _
    rw [h, Bool.true_or, if_pos rfl]

theorem Mode.Open.step {m : Mode} (hm : m.Open) {c : UInt8} (h : isNumeralByte c = true) :
    (m.step c).2.Open := by
  by_cases hword : isWordChar c = true
  · exact Or.inr (Or.inr (Or.inr (step_isWordChar hm hword)))
  · have hsign : c = 43 ∨ c = 45 := by
      simpa [isNumeralByte, hword] using h
    obtain rfl | rfl | rfl | ⟨acc, rfl⟩ := hm
    · rcases hsign with rfl | rfl
      · exact Or.inl rfl
      · exact Or.inr (Or.inl rfl)
    · rcases hsign with rfl | rfl
      · exact Or.inl rfl
      · exact Or.inr (Or.inr (Or.inl rfl))
    · rcases hsign with rfl | rfl
      · exact Or.inl rfl
      · exact Or.inr (Or.inr (Or.inl rfl))
    · have hstep : ((Mode.word acc).step c).2
          = if atExponent acc = true then .word (c :: acc) else (Mode.begin c).2 := by
        cases hexp : atExponent acc <;> rcases hsign with rfl | rfl <;>
          simp [Mode.step, Mode.next, isWordChar, isDigit, isLetter, hexp, Mode.resume]
      rw [hstep]
      split
      · exact Or.inr (Or.inr (Or.inr ⟨_, rfl⟩))
      · rcases hsign with rfl | rfl
        · exact Or.inl rfl
        · exact Or.inr (Or.inl rfl)

theorem Mode.Open.read {t : Bytes} (ht : ∀ c ∈ t, isNumeralByte c = true) :
    ∀ {m : Mode}, m.Open → (m.read t).2.Open := by
  induction t with
  | nil => exact fun hm => hm
  | cons c t ih =>
      intro m hm
      exact ih (fun c' hc' => ht c' (List.mem_cons_of_mem _ hc'))
        (hm.step (ht c List.mem_cons_self))

/-- A number in a fixed text leaves no trace in the mode behind it. -/
theorem read_numeral {a t b : Bytes} (ha : (Mode.start.read a).2.Open) (ht : Numeral t) {d : UInt8}
    (hd : isNumeralByte d = false) (hzero : d ≠ 0) :
    (Mode.start.read (a ++ (t ++ d :: b))).2 = (Mode.start.read (d :: b)).2 := by
  obtain ⟨hall, t', c, rfl, hc⟩ := ht
  have hopen : ((Mode.start.read a).2.read t').2.Open :=
    ha.read fun c' hc' => hall c' (List.mem_append_left _ hc')
  obtain ⟨acc, hacc⟩ := step_isWordChar hopen hc
  have hword : ((Mode.start.read a).2.read (t' ++ [c])).2 = .word acc := by
    rw [Mode.read_append]
    exact hacc
  have hstop : ((Mode.word acc).step d).2 = (Mode.start.step d).2 := by
    simp only [isNumeralByte, Bool.or_eq_false_iff, beq_eq_false_iff_ne] at hd
    rw [Mode.step, if_neg hzero, Mode.step, if_neg hzero]
    show (if _ then _ else (Mode.word acc).resume d).2 = (Mode.begin d).2
    rw [if_neg (by simp [hd])]
    rfl
  rw [Mode.read_append, Mode.read_append, hword]
  show (((Mode.word acc).step d).2.read b).2 = ((Mode.start.step d).2.read b).2
  rw [hstop]

/-! ### Whole numbers -/

theorem read_digits {ds : Bytes} (hds : ∀ c ∈ ds, isDigit c = true) :
    ∀ acc, (Mode.word acc).read ds = ([], .word (ds.reverse ++ acc)) := by
  induction ds with
  | nil => exact fun acc => rfl
  | cons c ds ih =>
      intro acc
      have hc := isWordChar_of_isDigit (hds c List.mem_cons_self)
      have hstep : (Mode.word acc).step c = ([], .word (c :: acc)) := by
        rw [Mode.step, if_neg (ne_zero_of_isNumeralByte (by simp [isNumeralByte, hc]))]
        show (if (isWordChar c || _) = true then _ else _) = _
        rw [hc, Bool.true_or, if_pos rfl]
      rw [Mode.read, hstep, ih (fun c' hc' => hds c' (List.mem_cons_of_mem _ hc')),
        List.reverse_cons, List.append_assoc]
      rfl

theorem isNumber_digits {ds : Bytes} (hne : ds ≠ []) (hds : ∀ c ∈ ds, isDigit c = true) :
    isNumber ds = true := by
  have htake : ds.takeWhile isDigit = ds := List.takeWhile_eq_self_iff.mpr hds
  have hdrop : ds.dropWhile isDigit = [] := List.dropWhile_eq_nil_iff.mpr hds
  rw [isNumber, htake, hdrop]
  simpa using hne

theorem read_start_digits {ds : Bytes} (hne : ds ≠ []) (hds : ∀ c ∈ ds, isDigit c = true) :
    Mode.start.read ds = ([], .word ds.reverse) := by
  obtain ⟨c, ds, rfl⟩ := List.exists_cons_of_ne_nil hne
  have hc := isWordChar_of_isDigit (hds c List.mem_cons_self)
  have hstep : Mode.start.step c = ([], .word [c]) := by
    rw [Mode.step, if_neg (ne_zero_of_isNumeralByte (by simp [isNumeralByte, hc]))]
    exact begin_of_isWordChar hc
  rw [Mode.read, hstep, read_digits (fun c' hc' => hds c' (List.mem_cons_of_mem _ hc')),
    List.reverse_cons]
  rfl

/-- Digits are a literal. -/
theorem lone_digits {ds : Bytes} (hne : ds ≠ []) (hds : ∀ c ∈ ds, isDigit c = true) : Lone ds := by
  have hread := read_start_digits hne hds
  refine ⟨⟨ds, ?_⟩, ?_⟩
  · have htokens : tokens ds = [.literal ds] := by
      rw [tokens, Mode.all, hread]
      show [wordToken ds.reverse] = _
      rw [wordToken, List.reverse_reverse, isNumber_digits hne hds]
      rfl
    rw [htokens]
    rfl
  · rw [Closes, hread]
    rfl

/-- Digits behind a minus are not. -/
theorem not_oneLiteral_minus {ds : Bytes} (hne : ds ≠ []) (hds : ∀ c ∈ ds, isDigit c = true) :
    ¬ OneLiteral (45 :: ds) := by
  rintro ⟨s, hs⟩
  obtain ⟨c, ds, rfl⟩ := List.exists_cons_of_ne_nil hne
  have hc := isWordChar_of_isDigit (hds c List.mem_cons_self)
  have hminus : c ≠ 45 := by
    rintro rfl
    exact absurd hc (by decide)
  have hstep : Mode.dash.step c = ([.mark 45], .word [c]) := by
    rw [Mode.step, if_neg (ne_zero_of_isNumeralByte (by simp [isNumeralByte, hc]))]
    show (if c = 45 then _ else Mode.dash.resume c) = _
    rw [if_neg hminus, Mode.resume, begin_of_isWordChar hc]
    rfl
  have hmem : Token.mark 45 ∈ tokens (45 :: c :: ds) := by
    rw [tokens, Mode.all_cons]
    show _ ∈ [] ++ Mode.dash.all (c :: ds)
    rw [Mode.all_cons, hstep]
    exact List.mem_cons_self
  have : Token.mark 45 ∈ [Token.literal s] := hs ▸ List.mem_filter.mpr ⟨hmem, rfl⟩
  cases List.mem_singleton.mp this

/-! ### Statements -/

/-- A statement: fixed texts, and between them texts that are spliced in. -/
inductive Statement where
  | text (s : Bytes)
  | splice (s field : Bytes) (rest : Statement)

namespace Statement

def render : Statement → Bytes
  | text s => s
  | splice s field rest => s ++ (field ++ rest.render)

/-- The first fixed text. -/
def head : Statement → Bytes
  | text s | splice s _ _ => s

def fields : Statement → List Bytes
  | text _ => []
  | splice _ field rest => field :: rest.fields

/-- The fixed texts. -/
def texts : Statement → List Bytes
  | text s => [s]
  | splice s _ rest => s :: rest.texts

/-- The tokens of the parts. -/
def parts : Statement → List Token
  | text s => tokens s
  | splice s field rest => tokens s ++ (tokens field ++ rest.parts)

/-- The fixed texts are over where something is spliced in, and go on with a delimiter. -/
def Framed : Statement → Prop
  | text _ => True
  | splice s _ rest =>
      (Mode.start.read s).2 = .start ∧ (∃ d t, rest.head = d :: t ∧ isDelimiter d = true) ∧
        rest.Framed

/-- The tokens are those of the parts, and what is spliced in is one literal each time. -/
def Structured (st : Statement) : Prop :=
  tokens st.render = st.parts ∧ ∀ field ∈ st.fields, OneLiteral field

theorem render_eq_head_append (st : Statement) : ∃ t, st.render = st.head ++ t := by
  cases st with
  | text s => exact ⟨[], (List.append_nil s).symm⟩
  | splice s field rest => exact ⟨_, rfl⟩

theorem parts_eq_head_append (st : Statement) : ∃ ts, st.parts = tokens st.head ++ ts := by
  cases st with
  | text s => exact ⟨[], (List.append_nil _).symm⟩
  | splice s field rest => exact ⟨_, rfl⟩

theorem texts_ne_nil (st : Statement) : st.texts ≠ [] := by
  cases st <;> exact List.cons_ne_nil _ _

/-- Statements with the same fixed texts have parts with the same outline. -/
theorem outline_parts {st st' : Statement} (htexts : st.texts = st'.texts)
    (hone : ∀ field ∈ st.fields, OneLiteral field)
    (hone' : ∀ field ∈ st'.fields, OneLiteral field) :
    outline st.parts = outline st'.parts := by
  induction st generalizing st' with
  | text s =>
      cases st' with
      | text s' => rw [List.singleton_inj.mp htexts]
      | splice s' field' rest' => exact absurd (List.cons.inj htexts).2.symm rest'.texts_ne_nil
  | splice s field rest ih =>
      cases st' with
      | text s' => exact absurd (List.cons.inj htexts).2 rest.texts_ne_nil
      | splice s' field' rest' =>
          obtain ⟨hs, hrest⟩ := List.cons.inj htexts
          have hfields := List.forall_mem_cons.mp hone
          have hfields' := List.forall_mem_cons.mp hone'
          rw [parts, parts, outline_append, outline_append, outline_append, outline_append, hs,
            hfields.1.outline_eq, hfields'.1.outline_eq, ih hrest hfields.2 hfields'.2]

/-- A text that is one literal where it stands is over where it ends. -/
theorem closes_of_tokens {field rest : Bytes} {d : UInt8} {ts : List Token}
    (hd : isDelimiter d = true) (hone : OneLiteral field)
    (h : tokens (field ++ d :: rest) = tokens field ++ ts) (hts : ts ≠ []) : Closes field := by
  obtain ⟨s, hs⟩ := hone
  have hpending : tokens field = (Mode.start.read field).1 ++ (Mode.start.read field).2.flush := rfl
  rw [tokens, Mode.all_append, hpending, List.append_assoc, List.append_cancel_left_eq] at h
  -- what is pending at the end of the text is the literal, or is not part of the statement
  have hflush : ∀ t ∈ (Mode.start.read field).2.flush, t.isTrivia = false → t = .literal s := by
    intro t ht htrivia
    refine List.mem_singleton.mp (hs ▸ List.mem_filter.mpr ⟨List.mem_append_right _ ht, ?_⟩)
    rw [htrivia]
    rfl
  unfold Closes
  cases hmode : (Mode.start.read field).2 with
  | start => rfl
  | word acc => rfl
  | closing quote acc => cases quote <;> rfl
  | dash => rfl
  | slash => rfl
  | dashes =>
      rw [hmode] at hflush
      exact nomatch hflush (.mark 45) List.mem_cons_self rfl
  | quoted quote acc | escaped quote acc | lead quote acc | block acc | star acc =>
      rw [hmode] at hflush
      exact nomatch hflush (.broken acc.reverse) List.mem_cons_self rfl
  | line acc =>
      rw [hmode, Mode.all_cons, step_line_delimiter hd] at h
      obtain ⟨t, ts', hall, hlen⟩ := all_line rest (d :: acc)
      rw [List.nil_append, hall] at h
      have heq : t = acc.reverse := Token.comment.inj (List.cons.inj h).1
      rw [heq, List.length_reverse, List.length_cons] at hlen
      omega
  | ended =>
      rw [hmode, all_ended] at h
      exact absurd h.symm hts

/-- **Splicing.**  The statement has the structure of its parts exactly if each text that is
spliced in is one literal and closes. -/
theorem structured_iff {st : Statement} (hframed : st.Framed) :
    st.Structured ↔ ∀ field ∈ st.fields, Lone field := by
  induction st with
  | text s => exact ⟨fun _ => nofun, fun _ => ⟨rfl, nofun⟩⟩
  | splice s field rest ih =>
      obtain ⟨hstart, ⟨d, t, hhead, hd⟩, hrest⟩ := hframed
      obtain ⟨u, hu⟩ := rest.render_eq_head_append
      have hrender : rest.render = d :: (t ++ u) := by rw [hu, hhead, List.cons_append]
      have hs : tokens s = (Mode.start.read s).1 := by
        rw [tokens, Mode.all, hstart]
        exact List.append_nil _
      have hcut : tokens (s ++ (field ++ rest.render))
          = tokens s ++ tokens (field ++ rest.render) := by
        rw [tokens, Mode.all_append, hstart, hs, tokens]
      have hne : rest.parts ≠ [] := by
        obtain ⟨ts, hts⟩ := rest.parts_eq_head_append
        rw [hts, hhead]
        exact List.append_ne_nil_of_left_ne_nil (tokens_delimiter_ne_nil hd t) _
      have hsplit : (splice s field rest).Structured
          ↔ tokens (field ++ rest.render) = tokens field ++ rest.parts ∧
            OneLiteral field ∧ ∀ f ∈ rest.fields, OneLiteral f := by
        show tokens (s ++ (field ++ rest.render)) = tokens s ++ (tokens field ++ rest.parts) ∧
          (∀ f ∈ field :: rest.fields, OneLiteral f) ↔ _
        rw [hcut, List.append_cancel_left_eq, List.forall_mem_cons]
      rw [hsplit]
      show _ ↔ ∀ f ∈ field :: rest.fields, Lone f
      rw [List.forall_mem_cons, ← ih hrest]
      constructor
      · rintro ⟨htokens, hone, hall⟩
        rw [hrender] at htokens
        have hcloses := closes_of_tokens hd hone htokens hne
        rw [tokens_append_of_closes hcloses hd, List.append_cancel_left_eq, ← hrender] at htokens
        exact ⟨⟨hone, hcloses⟩, htokens, hall⟩
      · rintro ⟨⟨hone, hcloses⟩, htokens, hall⟩
        refine ⟨?_, hone, hall⟩
        rw [hrender, tokens_append_of_closes hcloses hd, ← hrender, htokens]

end Statement

end SqlText

end Lib
