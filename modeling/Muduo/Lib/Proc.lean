/-
Procedures: programs with local variables and exceptions.

A `Proc C R ε λ α` is code in a block that has local variables `λ`, calls the
environment, and ends with an `α` or leaves by an exception `ε`.  Assignments made
before an exception stay made, as in a language with `try` and mutable variables.

The rules of the second half are those of a Hoare logic with two postconditions, one
for each way out.  They are equivalences, so rewriting with them runs a procedure
symbolically, one statement at a time.
-/
import Muduo.Lib.Prog

namespace Lib

/-- A block of code with local variables. -/
def Proc (C : Type) (R : C → Type) (ε ℓ α : Type) : Type :=
  ℓ → Prog C R (Except ε α × ℓ)

namespace Proc

variable {C : Type} {R : C → Type} {ε ℓ α β γ σ : Type}

/-- The block, started with the given values of its variables. -/
def start (p : Proc C R ε ℓ α) (l : ℓ) : Prog C R (Except ε α × ℓ) := p l

def pure (a : α) : Proc C R ε ℓ α := fun l => .done (.ok a, l)

def bind (p : Proc C R ε ℓ α) (f : α → Proc C R ε ℓ β) : Proc C R ε ℓ β := fun l =>
  p.start l >>= fun
    | (.ok a, l) => (f a).start l
    | (.error e, l) => .done (.error e, l)

instance : Monad (Proc C R ε ℓ) where
  pure := Proc.pure
  bind := Proc.bind

/-- The values of the variables. -/
def get : Proc C R ε ℓ ℓ := fun l => .done (.ok l, l)

/-- Assign to variables. -/
def modify (f : ℓ → ℓ) : Proc C R ε ℓ Unit := fun l => .done (.ok (), f l)

/-- Leave the block by an exception. -/
def raise (e : ε) : Proc C R ε ℓ α := fun l => .done (.error e, l)

/-- Ask the environment. -/
def call (c : C) : Proc C R ε ℓ (R c) := fun l => .call c fun r => .done (.ok r, l)

/-- `try p catch`: exceptions that `handler` answers to are dealt with by it. -/
def tryCatch (p : Proc C R ε ℓ α) (handler : ε → Option (Proc C R ε ℓ α)) : Proc C R ε ℓ α :=
  fun l => p.start l >>= fun
    | (.ok a, l) => .done (.ok a, l)
    | (.error e, l) =>
        match handler e with
        | some k => k.start l
        | none => .done (.error e, l)

/-- `p`, and then `q` however `p` ended, as a destructor runs at the end of a block. -/
def finally_ (p : Proc C R ε ℓ α) (q : Proc C R ε ℓ Unit) : Proc C R ε ℓ α :=
  fun l => p.start l >>= fun
    | (r, l) => q.start l >>= fun
        | (.ok _, l) => .done (r, l)
        | (.error e, l) => .done (.error e, l)

/-! ### Rules -/

/-- Under contract `K` the block ends with `Q`, or leaves by an exception with `E`. -/
def wp (K : Prog.Contract C R σ) (p : Proc C R ε ℓ α) (Q : α → ℓ → σ → Prop)
    (E : ε → ℓ → σ → Prop) (l : ℓ) (s : σ) : Prop :=
  (p.start l).wp K (fun r s =>
    match r with
    | (.ok a, l) => Q a l s
    | (.error e, l) => E e l s) s

variable (K : Prog.Contract C R σ) (Q : α → ℓ → σ → Prop) (E : ε → ℓ → σ → Prop) (l : ℓ) (s : σ)

@[simp] theorem wp_pure (a : α) :
    wp K (Pure.pure a : Proc C R ε ℓ α) Q E l s ↔ Q a l s := Iff.rfl

@[simp] theorem wp_raise (e : ε) :
    wp K (raise e : Proc C R ε ℓ α) Q E l s ↔ E e l s := Iff.rfl

@[simp] theorem wp_get (Q : ℓ → ℓ → σ → Prop) :
    wp K (get : Proc C R ε ℓ ℓ) Q E l s ↔ Q l l s := Iff.rfl

@[simp] theorem wp_modify (f : ℓ → ℓ) (Q : Unit → ℓ → σ → Prop) :
    wp K (modify f : Proc C R ε ℓ Unit) Q E l s ↔ Q () (f l) s := Iff.rfl

theorem wp_call (c : C) (Q : R c → ℓ → σ → Prop) :
    wp K (call c : Proc C R ε ℓ (R c)) Q E l s
      ↔ K.allow s c ∧ ∀ r s', K.next s c r s' → Q r l s' := Iff.rfl

@[simp] theorem wp_bind (p : Proc C R ε ℓ α) (f : α → Proc C R ε ℓ β) (Q : β → ℓ → σ → Prop) :
    wp K (p >>= f) Q E l s ↔ wp K p (fun a l s => wp K (f a) Q E l s) E l s := by
  show ((p.start l >>= _).wp K _ s) ↔ _
  rw [Prog.wp_bind]
  unfold wp
  constructor <;>
  · refine Prog.wp_mono fun r s h => ?_
    obtain ⟨_ | _, _⟩ := r <;> exact h

@[simp] theorem wp_tryCatch (p : Proc C R ε ℓ α) (handler : ε → Option (Proc C R ε ℓ α)) :
    wp K (tryCatch p handler) Q E l s
      ↔ wp K p Q (fun e l s =>
          match handler e with
          | some k => wp K k Q E l s
          | none => E e l s) l s := by
  show ((p.start l >>= _).wp K _ s) ↔ _
  rw [Prog.wp_bind]
  unfold wp
  constructor <;>
  · refine Prog.wp_mono fun r s h => ?_
    obtain ⟨e | _, l⟩ := r
    · revert h
      simp only
      cases handler e <;> exact id
    · exact h

@[simp] theorem wp_finally_ (p : Proc C R ε ℓ α) (q : Proc C R ε ℓ Unit) :
    wp K (finally_ p q) Q E l s
      ↔ wp K p (fun a l s => wp K q (fun _ l s => Q a l s) E l s)
          (fun e l s => wp K q (fun _ l s => E e l s) E l s) l s := by
  show ((p.start l >>= _).wp K _ s) ↔ _
  rw [Prog.wp_bind]
  unfold wp
  constructor <;>
  · refine Prog.wp_mono fun r s h => ?_
    obtain ⟨_ | _, l⟩ := r
    · revert h
      simp only [Prog.wp_bind]
      refine Prog.wp_mono fun r s h => ?_
      obtain ⟨_ | _, _⟩ := r <;> exact h
    · revert h
      simp only [Prog.wp_bind]
      refine Prog.wp_mono fun r s h => ?_
      obtain ⟨_ | _, _⟩ := r <;> exact h

variable {K Q E l s}

theorem wp_mono {p : Proc C R ε ℓ α} {Q' : α → ℓ → σ → Prop} {E' : ε → ℓ → σ → Prop}
    (hQ : ∀ a l s, Q a l s → Q' a l s) (hE : ∀ e l s, E e l s → E' e l s)
    (h : wp K p Q E l s) : wp K p Q' E' l s := by
  refine Prog.wp_mono (fun r s h => ?_) h
  obtain ⟨_ | _, _⟩ := r
  · exact hE _ _ _ h
  · exact hQ _ _ _ h

end Proc

end Lib
