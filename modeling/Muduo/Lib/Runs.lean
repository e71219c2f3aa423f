/-
Runs of a machine whose steps may go wrong.

A step takes an action and a state to the next state or to a fault, and a fault ends the
run.  An action that is not possible in a state leaves it as it is, so that a run is a list
of actions and nothing else.

Three rules carry what one step preserves to whole runs: for the runs that end without a
fault, for those along which a condition on the actions is met, and for such conditions
that keep faults out.
-/
import Mathlib.Tactic.TypeStar

namespace Lib

variable {α σ ε : Type*}

/-- Take the actions of a run, one after the other. -/
def run (step : α → σ → Except ε σ) : List α → σ → Except ε σ
  | [], s => .ok s
  | a :: as, s => (step a s).bind (run step as)

/-- Every action of the run is taken in a state in which it may be. -/
def Along (step : α → σ → Except ε σ) (May : α → σ → Prop) : List α → σ → Prop
  | [], _ => True
  | a :: as, s => May a s ∧ ∀ s', step a s = .ok s' → Along step May as s'

instance decidableAlong (step : α → σ → Except ε σ) (May : α → σ → Prop)
    [∀ a s, Decidable (May a s)] : ∀ (as : List α) (s : σ), Decidable (Along step May as s)
  | [], _ => isTrue trivial
  | a :: as, s =>
      match h : step a s with
      | .error _ => decidable_of_iff (May a s) (by simp [Along, h])
      | .ok t =>
          have := decidableAlong step May as t
          decidable_of_iff (May a s ∧ Along step May as t) (by simp [Along, h])

section

variable {step : α → σ → Except ε σ} {May : α → σ → Prop} {Inv : σ → Prop}

theorem run_cons_ok {a : α} {as : List α} {s s' : σ} (h : run step (a :: as) s = .ok s') :
    ∃ t, step a s = .ok t ∧ run step as t = .ok s' := by
  rw [run] at h
  cases ht : step a s with
  | error e =>
      rw [ht] at h
      cases h
  | ok t =>
      rw [ht] at h
      exact ⟨t, rfl, h⟩

/-- A run goes on where another has ended. -/
theorem run_append (as bs : List α) (s : σ) :
    run step (as ++ bs) s = (run step as s).bind (run step bs) := by
  induction as generalizing s with
  | nil => rfl
  | cons a as ih =>
      rw [List.cons_append, run, run]
      cases step a s with
      | error e => rfl
      | ok t => exact ih t

theorem run_cons_of_ok {a : α} {s t : σ} (h : step a s = .ok t) (as : List α) :
    run step (a :: as) s = run step as t := by
  rw [run, h]
  rfl

theorem run_append_of_ok {as : List α} {s t : σ} (h : run step as s = .ok t) (bs : List α) :
    run step (as ++ bs) s = run step bs t := by
  rw [run_append, h]
  rfl

theorem run_singleton (a : α) (s : σ) : run step [a] s = step a s := by
  rw [run]
  cases step a s <;> rfl

theorem bind_ok {β γ : Type*} {x : Except ε β} {f : β → Except ε γ} {b : γ}
    (h : x.bind f = .ok b) : ∃ a, x = .ok a ∧ f a = .ok b := by
  cases x with
  | error e => cases h
  | ok a => exact ⟨a, rfl, h⟩

theorem map_ok {β γ : Type*} {x : Except ε β} {f : β → γ} {b : γ} (h : x.map f = .ok b) :
    ∃ a, x = .ok a ∧ f a = b := by
  cases x with
  | error e => cases h
  | ok a => exact ⟨a, rfl, Except.ok.inj h⟩

/-- What the steps preserve along a condition holds behind every run that meets it. -/
theorem run_inv_along (hstep : ∀ a s s', Inv s → May a s → step a s = .ok s' → Inv s') :
    ∀ {as : List α} {s s' : σ}, Inv s → Along step May as s → run step as s = .ok s' → Inv s' := by
  intro as
  induction as with
  | nil =>
      intro s s' hs _ h
      cases h
      exact hs
  | cons a as ih =>
      intro s s' hs hmay h
      obtain ⟨t, ht, hrest⟩ := run_cons_ok h
      exact ih (hstep a s t hs hmay.1 ht) (hmay.2 t ht) hrest

theorem Along.mono {May' : α → σ → Prop} (hmay : ∀ a s, May a s → May' a s) :
    ∀ {as : List α} {s : σ}, Along step May as s → Along step May' as s := by
  intro as
  induction as with
  | nil => exact fun _ => trivial
  | cons a as ih => exact fun {s} h => ⟨hmay a s h.1, fun s' hs' => ih (h.2 s' hs')⟩

/-- What is asked of the actions alone can be asked in every state. -/
theorem Along.of_mem {P : α → Prop} : ∀ {as : List α} {s : σ}, Along step May as s →
    (∀ a ∈ as, P a) → Along step (fun a s => May a s ∧ P a) as s := by
  intro as
  induction as with
  | nil => exact fun _ _ => trivial
  | cons a as ih =>
      intro s h hall
      refine ⟨⟨h.1, hall a List.mem_cons_self⟩, fun s' hs' => ih (h.2 s' hs') ?_⟩
      exact fun b hb => hall b (List.mem_cons_of_mem a hb)

/-- The rest of a run meets the condition, too. -/
theorem Along.of_append {as bs : List α} {s s' : σ} (h : Along step May (as ++ bs) s)
    (hrun : run step as s = .ok s') : Along step May bs s' := by
  induction as generalizing s with
  | nil =>
      cases hrun
      exact h
  | cons a as ih =>
      obtain ⟨t, ht, hrest⟩ := run_cons_ok hrun
      exact ih (h.2 t ht) hrest

theorem along_true : ∀ (as : List α) (s : σ), Along step (fun _ _ => True) as s
  | [], _ => trivial
  | _ :: as, _ => ⟨trivial, fun s' _ => along_true as s'⟩

/-- What every step preserves holds behind every run. -/
theorem run_inv (hstep : ∀ a s s', Inv s → step a s = .ok s' → Inv s') {as : List α} {s s' : σ}
    (hs : Inv s) (h : run step as s = .ok s') : Inv s' :=
  run_inv_along (fun a s s' hs _ => hstep a s s' hs) hs (along_true as s) h

/-- A condition that keeps each step from going wrong keeps the run from it. -/
theorem run_ok (hstep : ∀ a s, Inv s → May a s → ∃ s', step a s = .ok s' ∧ Inv s') :
    ∀ {as : List α} {s : σ}, Inv s → Along step May as s →
      ∃ s', run step as s = .ok s' ∧ Inv s' := by
  intro as
  induction as with
  | nil => exact fun {s} hs _ => ⟨s, rfl, hs⟩
  | cons a as ih =>
      intro s hs hmay
      obtain ⟨t, ht, hinv⟩ := hstep a s hs hmay.1
      obtain ⟨s', hrun, hs'⟩ := ih hinv (hmay.2 t ht)
      refine ⟨s', ?_, hs'⟩
      rw [run, ht]
      exact hrun

/-- The runs without a fault are those along which the condition is met. -/
theorem run_ok_iff (hstep : ∀ a s, Inv s → May a s → ∃ s', step a s = .ok s' ∧ Inv s')
    (hmay : ∀ a s s', Inv s → step a s = .ok s' → May a s) :
    ∀ {as : List α} {s : σ}, Inv s →
      ((∃ s', run step as s = .ok s') ↔ Along step May as s) := by
  intro as
  induction as with
  | nil => exact fun {s} _ => ⟨fun _ => trivial, fun _ => ⟨s, rfl⟩⟩
  | cons a as ih =>
      intro s hs
      refine ⟨?_, fun h => (run_ok hstep hs h).imp fun _ h => h.1⟩
      rintro ⟨s', h⟩
      obtain ⟨t, ht, hrest⟩ := run_cons_ok h
      have hfirst : May a s := hmay a s t hs ht
      refine ⟨hfirst, ?_⟩
      intro t' ht'
      obtain ⟨t₂, ht₂, hinv⟩ := hstep a s hs hfirst
      have heq : t₂ = t' := Except.ok.inj (ht₂.symm.trans ht')
      have heq' : t = t' := Except.ok.inj (ht.symm.trans ht')
      subst heq heq'
      exact (ih hinv).mp ⟨s', hrest⟩

/-- If a condition decides how a step can go wrong, it decides how a run can. -/
theorem run_errors_iff {P : ε → Prop}
    (hstep : ∀ a s, (∀ e, step a s = .error e → P e) ↔ May a s) :
    ∀ {as : List α} {s : σ}, (∀ e, run step as s = .error e → P e) ↔ Along step May as s := by
  intro as
  induction as with
  | nil => exact fun {s} => ⟨fun _ => trivial, fun _ => nofun⟩
  | cons a as ih =>
      intro s
      rw [Along, ← hstep a s, run]
      cases step a s with
      | error e => exact ⟨fun h => ⟨h, nofun⟩, fun h => h.1⟩
      | ok t =>
          refine ⟨fun h => ⟨nofun, ?_⟩, fun h => ih.mpr (h.2 t rfl)⟩
          rintro s' hs'
          exact Except.ok.inj hs' ▸ ih.mp h

/-- No step goes wrong, and each leaves a good state. -/
def Always (step : α → σ → Except ε σ) (Good : σ → Prop) : List α → σ → Prop
  | [], _ => True
  | a :: as, s => ∃ s', step a s = .ok s' ∧ Good s' ∧ Always step Good as s'

/-- The runs that are always good are those along which a condition is met, if a step is good
exactly under that condition. -/
theorem always_iff {Pre : α → σ → Prop} {Good : σ → Prop}
    (hgood : ∀ a s, Inv s → Pre a s → May a s → ∃ s', step a s = .ok s' ∧ Good s' ∧ Inv s')
    (hmay : ∀ a s s', Inv s → Pre a s → step a s = .ok s' → Good s' → May a s) :
    ∀ {as : List α} {s : σ}, Inv s → Along step Pre as s →
      (Always step Good as s ↔ Along step May as s) := by
  intro as
  induction as with
  | nil => exact fun _ _ => ⟨fun _ => trivial, fun _ => trivial⟩
  | cons a as ih =>
      intro s hs hpre
      constructor
      · rintro ⟨t, ht, hgood', hrest⟩
        have hfirst : May a s := hmay a s t hs hpre.1 ht hgood'
        refine ⟨hfirst, ?_⟩
        intro t' ht'
        obtain ⟨t₂, ht₂, -, hinv⟩ := hgood a s hs hpre.1 hfirst
        obtain rfl : t₂ = t' := Except.ok.inj (ht₂.symm.trans ht')
        obtain rfl : t = t₂ := Except.ok.inj (ht.symm.trans ht₂)
        exact (ih hinv (hpre.2 t ht)).mp hrest
      · rintro ⟨hfirst, hrest⟩
        obtain ⟨t, ht, hgood', hinv⟩ := hgood a s hs hpre.1 hfirst
        exact ⟨t, ht, hgood', (ih hinv (hpre.2 t ht)).mpr (hrest t ht)⟩

end

end Lib
