/-
Programs that call out to an environment.

A `Prog C R α` is code that ends with an `α` and on its way makes calls `c : C`,
each answered by a reply `r : R c`.  What the environment does with a call is not
part of the program: `run` interprets one program under any handler, so the same
code can be executed against a healthy server, against one whose calls fail, and
one statement at a time between the steps of other programs.

A run composes over `bind`, and so do the contracts of the last section, which say
what a program does under every environment of a kind.
-/
import Mathlib.Tactic

namespace Lib

/-- A program: finished, or waiting for the reply to a call. -/
inductive Prog (C : Type) (R : C → Type) (α : Type) : Type where
  | done (a : α)
  | call (c : C) (k : R c → Prog C R α)

namespace Prog

variable {C : Type} {R : C → Type} {α β γ : Type}

/-! ### Sequencing -/

/-- Run `f` on what the program ends with. -/
def bind : Prog C R α → (α → Prog C R β) → Prog C R β
  | done a, f => f a
  | call c k, f => call c fun r => (k r).bind f

instance : Monad (Prog C R) where
  pure := done
  bind := bind

@[simp] theorem pure_eq (a : α) : (pure a : Prog C R α) = done a := rfl

@[simp] theorem done_bind (a : α) (f : α → Prog C R β) : (done a >>= f) = f a := rfl

@[simp] theorem call_bind (c : C) (k : R c → Prog C R α) (f : α → Prog C R β) :
    (call c k >>= f) = call c fun r => k r >>= f := rfl

theorem bind_done (p : Prog C R α) : (p >>= done) = p := by
  induction p with
  | done a => rfl
  | call c k ih => exact congrArg (call c) (funext ih)

theorem bind_assoc (p : Prog C R α) (f : α → Prog C R β) (g : β → Prog C R γ) :
    ((p >>= f) >>= g) = p >>= fun a => f a >>= g := by
  induction p with
  | done a => rfl
  | call c k ih => exact congrArg (call c) (funext ih)

instance : LawfulMonad (Prog C R) :=
  LawfulMonad.mk' (Prog C R) bind_done done_bind bind_assoc

/-! ### Running under a handler -/

variable {σ τ : Type}

/-- How an environment answers: the reply and its next state. -/
abbrev Handler (C : Type) (R : C → Type) (σ : Type) := (c : C) → σ → R c × σ

/-- The program's result and the environment's state when it ends. -/
def run (h : Handler C R σ) : Prog C R α → σ → α × σ
  | done a, s => (a, s)
  | call c k, s => (k (h c s).1).run h (h c s).2

@[simp] theorem run_done (h : Handler C R σ) (a : α) (s : σ) : (done a).run h s = (a, s) := rfl

@[simp] theorem run_call (h : Handler C R σ) (c : C) (k : R c → Prog C R α) (s : σ) :
    (call c k).run h s = (k (h c s).1).run h (h c s).2 := rfl

theorem run_bind (h : Handler C R σ) (p : Prog C R α) (f : α → Prog C R β) :
    ∀ s, (p >>= f).run h s = (f (p.run h s).1).run h (p.run h s).2 := by
  induction p with
  | done a => intro s; rfl
  | call c k ih => intro s; exact ih _ _

/-! ### Contracts

A contract speaks about all environments of a kind at once.  It keeps a state of its
own, says which calls a program may make, and which replies an environment may give
together with the state after them.  `wp` asks that a program, whatever it is
answered, makes only calls it may make and ends where it should.
-/

/-- What a program may ask and what it may be answered. -/
structure Contract (C : Type) (R : C → Type) (σ : Type) where
  allow : σ → C → Prop
  next : σ → (c : C) → R c → σ → Prop

/-- Under every admitted behaviour of the environment `p` keeps to the contract and
ends with a result and a state of which `Q` holds. -/
def wp (K : Contract C R σ) : Prog C R α → (α → σ → Prop) → σ → Prop
  | done a, Q, s => Q a s
  | call c k, Q, s => K.allow s c ∧ ∀ r s', K.next s c r s' → (k r).wp K Q s'

@[simp] theorem wp_done (K : Contract C R σ) (a : α) (Q : α → σ → Prop) (s : σ) :
    (done a).wp K Q s ↔ Q a s := Iff.rfl

theorem wp_call (K : Contract C R σ) (c : C) (k : R c → Prog C R α) (Q : α → σ → Prop) (s : σ) :
    (call c k).wp K Q s ↔ K.allow s c ∧ ∀ r s', K.next s c r s' → (k r).wp K Q s' := Iff.rfl

theorem wp_bind (K : Contract C R σ) (p : Prog C R α) (f : α → Prog C R β)
    (Q : β → σ → Prop) : ∀ s, (p >>= f).wp K Q s ↔ p.wp K (fun a s => (f a).wp K Q s) s := by
  induction p with
  | done a => intro s; rfl
  | call c k ih =>
      intro s
      rw [call_bind, wp_call, wp_call]
      simp only [ih]

theorem wp_mono {K : Contract C R σ} {p : Prog C R α} {Q Q' : α → σ → Prop}
    (hQ : ∀ a s, Q a s → Q' a s) : ∀ {s}, p.wp K Q s → p.wp K Q' s := by
  induction p with
  | done a => intro s h; exact hQ a s h
  | call c k ih => intro s h; exact ⟨h.1, fun r s' hn => ih r (h.2 r s' hn)⟩

/-- The contract that admits one handler's answers and forbids no call. -/
def Contract.ofHandler (h : Handler C R σ) : Contract C R σ where
  allow := fun _ _ => True
  next := fun s c r s' => (r, s') = h c s

/-- Under one handler the contract speaks about its one run. -/
theorem wp_ofHandler (h : Handler C R σ) (p : Prog C R α) (Q : α → σ → Prop) :
    ∀ s, p.wp (Contract.ofHandler h) Q s ↔ Q (p.run h s).1 (p.run h s).2 := by
  induction p with
  | done a => intro s; rfl
  | call c k ih =>
      intro s
      rw [wp_call, run_call, ← ih]
      constructor
      · intro hw
        exact hw.2 _ _ rfl
      · intro hw
        refine ⟨trivial, fun r s' hn => ?_⟩
        obtain ⟨rfl, rfl⟩ := Prod.mk.inj hn
        exact hw

/-- What a contract promises holds of the runs of an environment that keeps to it: every
answer is one of those the contract admits. -/
theorem wp_run {K : Contract C R σ} {h : Handler C R τ} (inv : σ → τ → Prop)
    (hstep : ∀ s t c, inv s t → K.allow s c → ∃ s', K.next s c (h c t).1 s' ∧ inv s' (h c t).2)
    (p : Prog C R α) {Q : α → σ → Prop} :
    ∀ {s t}, inv s t → p.wp K Q s → ∃ s', inv s' (p.run h t).2 ∧ Q (p.run h t).1 s' := by
  induction p with
  | done a => exact fun hinv hp => ⟨_, hinv, hp⟩
  | call c k ih =>
      intro s t hinv hp
      obtain ⟨s', hnext, hinv'⟩ := hstep s t c hinv hp.1
      exact ih _ hinv' (hp.2 _ _ hnext)

end Prog

end Lib
