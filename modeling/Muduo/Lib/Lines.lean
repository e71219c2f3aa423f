/-
Lines that end in CRLF, and cutting a line at a character.

A reader of lines looks for the first CRLF of what has arrived.  What stands in front of it
is a line without a CRLF in it, and that line is found whatever follows; as long as a line
has not arrived to its end, also when only its LF is missing, nothing is found.
-/
import Muduo.Lib.Bytes

namespace Lib

/-- What ends a line. -/
def crlf : Bytes := [13, 10]

/-- How far into a byte string its first CRLF is. -/
def crlf? : Bytes → Option Nat
  | [] => none
  | x :: b => if x = 13 ∧ b.head? = some 10 then some 0 else (crlf? b).map (· + 1)

theorem crlf?_cons_eq_none {x : UInt8} {b : Bytes} :
    crlf? (x :: b) = none ↔ ¬(x = 13 ∧ b.head? = some 10) ∧ crlf? b = none := by
  rw [crlf?]
  by_cases h : x = 13 ∧ b.head? = some 10
  · simp [h]
  · simp [h]

/-- A line and its CRLF, whatever follows. -/
theorem crlf?_line {line : Bytes} (h : crlf? line = none) (rest : Bytes) :
    crlf? (line ++ crlf ++ rest) = some line.length := by
  induction line with
  | nil => simp [crlf, crlf?]
  | cons x line ih =>
      obtain ⟨hx, hline⟩ := crlf?_cons_eq_none.mp h
      have hhead : ¬(x = 13 ∧ (line ++ crlf ++ rest).head? = some 10) := by
        cases line with
        | nil => simp [crlf]
        | cons y line => simpa using hx
      rw [List.cons_append, List.cons_append, crlf?, if_neg hhead, ih hline]
      rfl

/-- What stands in front of the first CRLF is a line. -/
theorem crlf?_eq_some {b : Bytes} {n : Nat} (h : crlf? b = some n) :
    ∃ line rest, b = line ++ crlf ++ rest ∧ crlf? line = none ∧ line.length = n := by
  induction b generalizing n with
  | nil => simp [crlf?] at h
  | cons x b ih =>
      rw [crlf?] at h
      by_cases hx : x = 13 ∧ b.head? = some 10
      · rw [if_pos hx] at h
        obtain ⟨rfl, hb⟩ := hx
        cases b with
        | nil => simp at hb
        | cons y b =>
            simp only [List.head?_cons, Option.some.injEq] at hb
            subst hb
            exact ⟨[], b, rfl, rfl, by simpa using h⟩
      · rw [if_neg hx] at h
        obtain ⟨m, hm, rfl⟩ := Option.map_eq_some_iff.mp h
        obtain ⟨line, rest, rfl, hline, rfl⟩ := ih hm
        refine ⟨x :: line, rest, rfl, crlf?_cons_eq_none.mpr ⟨?_, hline⟩, rfl⟩
        intro hc
        refine hx ⟨hc.1, ?_⟩
        cases line with
        | nil => simp at hc
        | cons y line => simpa using hc.2

/-- No CRLF appears where there is none in more. -/
theorem crlf?_of_append {b c : Bytes} (h : crlf? (b ++ c) = none) : crlf? b = none := by
  induction b with
  | nil => rfl
  | cons x b ih =>
      rw [List.cons_append, crlf?_cons_eq_none] at h
      refine crlf?_cons_eq_none.mpr ⟨?_, ih h.2⟩
      intro hx
      refine h.1 ⟨hx.1, ?_⟩
      cases b with
      | nil => simp at hx
      | cons y b => simpa using hx.2

/-- A line whose LF is missing. -/
theorem crlf?_line_cr {line : Bytes} (h : crlf? line = none) : crlf? (line ++ [13]) = none := by
  induction line with
  | nil => simp [crlf?]
  | cons x line ih =>
      obtain ⟨hx, hline⟩ := crlf?_cons_eq_none.mp h
      refine crlf?_cons_eq_none.mpr ⟨?_, ih hline⟩
      cases line with
      | nil => simp
      | cons y line => simpa using hx

/-- What has arrived of a line and what follows it: the line is not there yet, or it is. -/
theorem arrived {b y line rest : Bytes} (h : b ++ y = line ++ crlf ++ rest)
    (hline : crlf? line = none) :
    crlf? b = none ∨ ∃ b', b = line ++ crlf ++ b' ∧ b' ++ y = rest := by
  rcases List.append_eq_append_iff.mp h with ⟨a, ha, -⟩ | ⟨b', hb, hrest⟩
  · -- `b` ends inside the line and its CRLF, or with the LF
    rcases List.append_eq_append_iff.mp ha with ⟨c, hc, hcrlf⟩ | ⟨c, hc, -⟩
    · match c, hcrlf with
      | [], _ =>
          refine Or.inl ?_
          rw [hc, List.append_nil]
          exact hline
      | [z], hcrlf =>
          have hz : z = 13 := by
            simp only [crlf, List.cons_append, List.cons.injEq] at hcrlf
            exact hcrlf.1.symm
          subst hz
          refine Or.inl ?_
          rw [hc]
          exact crlf?_line_cr hline
      | [z, w], hcrlf =>
          simp only [crlf, List.cons_append, List.cons.injEq, List.nil_append] at hcrlf
          obtain ⟨rfl, rfl, rfl⟩ := hcrlf
          refine Or.inr ⟨[], by simpa [crlf] using hc, ?_⟩
          rw [hc] at h
          simpa [crlf] using h
      | _ :: _ :: _ :: _, hcrlf => simp [crlf] at hcrlf
    · refine Or.inl (crlf?_of_append (c := c) ?_)
      rw [← hc]
      exact hline
  · exact Or.inr ⟨b', hb, hrest.symm⟩

/-- Without an LF there is no CRLF. -/
theorem crlf?_of_no_lf {b : Bytes} (h : 10 ∉ b) : crlf? b = none := by
  induction b with
  | nil => rfl
  | cons x b ih =>
      refine crlf?_cons_eq_none.mpr ⟨?_, ih fun hb => h (List.mem_cons_of_mem _ hb)⟩
      intro hx
      cases b with
      | nil => simp at hx
      | cons y b =>
          simp only [List.head?_cons, Option.some.injEq] at hx
          exact h (by simp [hx.2])

/-! ### Lines after each other -/

/-- The lines, each with its CRLF. -/
def unlines (ls : List Bytes) : Bytes := ls.flatMap (· ++ crlf)

@[simp] theorem unlines_nil : unlines [] = [] := rfl

@[simp] theorem unlines_cons (l : Bytes) (ls : List Bytes) :
    unlines (l :: ls) = l ++ crlf ++ unlines ls := rfl

/-- The lines up to the first empty one, and what follows it. -/
def readLines (b : Bytes) : Option (List Bytes × Bytes) :=
  match _h : crlf? b with
  | none => none
  | some 0 => some ([], b.drop 2)
  | some (n + 1) => (readLines (b.drop (n + 3))).map fun p => (b.take (n + 1) :: p.1, p.2)
termination_by b.length
decreasing_by
  obtain ⟨line, rest, rfl, -, hlen⟩ := crlf?_eq_some _h
  simp only [crlf, List.length_drop, List.length_append, List.length_cons, List.length_nil]
  omega

/-- What stands in front of the first `c`, and what behind it. -/
def cutAt (c : UInt8) : Bytes → Option (Bytes × Bytes)
  | [] => none
  | x :: b => if x = c then some ([], b) else (cutAt c b).map fun p => (x :: p.1, p.2)

theorem cutAt_eq_none_iff {c : UInt8} {b : Bytes} : cutAt c b = none ↔ c ∉ b := by
  induction b with
  | nil => simp [cutAt]
  | cons x b ih =>
      by_cases hx : x = c
      · simp [cutAt, hx]
      · simp [cutAt, hx, ih, Ne.symm hx]

theorem cutAt_append {c : UInt8} {l : Bytes} (h : c ∉ l) (r : Bytes) :
    cutAt c (l ++ c :: r) = some (l, r) := by
  induction l with
  | nil => simp [cutAt]
  | cons x l ih =>
      simp only [List.mem_cons, not_or] at h
      rw [List.cons_append, cutAt, if_neg (Ne.symm h.1), ih h.2]
      rfl

theorem cutAt_eq_some {c : UInt8} {b l r : Bytes} (h : cutAt c b = some (l, r)) :
    b = l ++ c :: r ∧ c ∉ l := by
  induction b generalizing l with
  | nil => simp [cutAt] at h
  | cons x b ih =>
      rw [cutAt] at h
      by_cases hx : x = c
      · rw [if_pos hx] at h
        simp only [Option.some.injEq, Prod.mk.injEq] at h
        obtain ⟨rfl, rfl⟩ := h
        exact ⟨by rw [hx, List.nil_append], by simp⟩
      · rw [if_neg hx] at h
        obtain ⟨⟨l', r'⟩, hp, heq⟩ := Option.map_eq_some_iff.mp h
        simp only [Prod.mk.injEq] at heq
        obtain ⟨rfl, rfl⟩ := heq
        obtain ⟨rfl, hl'⟩ := ih hp
        exact ⟨rfl, by simp [Ne.symm hx, hl']⟩

end Lib
