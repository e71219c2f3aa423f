/-
Things that pass through hands.

Things come in one after the other, each goes into the hand of some thread, and each leaves
the hand for good.  A thread has at most one.  What has come in is then what has left and what
is in a hand, each thing in one place.
-/
import Mathlib.Data.List.Nodup
import Mathlib.Logic.Function.Basic

namespace Lib

variable {ε τ : Type*}

/-- Where the things are that have come in. -/
structure Passing (all gone : List ε) (hand : τ → Option ε) : Prop where
  nodup : gone.Nodup
  mem_iff : ∀ e, e ∈ all ↔ e ∈ gone ∨ ∃ t, hand t = some e
  once : ∀ t u e, hand t = some e → hand u = some e → t = u
  apart : ∀ t e, hand t = some e → e ∉ gone

namespace Passing

variable {all gone : List ε} {hand hand' : τ → Option ε} {t : τ} {e : ε}

theorem nil : Passing ([] : List ε) [] (fun _ : τ => none) where
  nodup := List.nodup_nil
  mem_iff := fun e => ⟨fun h => absurd h List.not_mem_nil, by rintro (h | ⟨t, h⟩) <;> cases h⟩
  once := nofun
  apart := nofun

theorem congr (h : Passing all gone hand) (hh : ∀ u, hand' u = hand u) :
    Passing all gone hand' := by
  rwa [show hand' = hand from funext hh]

/-- A thing comes into an empty hand. -/
theorem take (h : Passing all gone hand) (hnew : e ∉ all) (hempty : hand t = none)
    (ht : hand' t = some e) (hh : ∀ u, u ≠ t → hand' u = hand u) :
    Passing (all ++ [e]) gone hand' := by
  have hhand : ∀ u d, hand' u = some d ↔ (u = t ∧ d = e) ∨ hand u = some d := by
    intro u d
    by_cases hu : u = t
    · subst hu
      rw [ht, hempty, Option.some.injEq]
      exact ⟨fun heq => Or.inl ⟨rfl, heq.symm⟩, by rintro (⟨-, rfl⟩ | h); exacts [rfl, nomatch h]⟩
    · rw [hh u hu]
      exact ⟨Or.inr, by rintro (⟨rfl, -⟩ | h); exacts [absurd rfl hu, h]⟩
  have hold : ∀ u, hand u ≠ some e := fun u hu => hnew ((h.mem_iff e).mpr (Or.inr ⟨u, hu⟩))
  refine ⟨h.nodup, ?_, ?_, ?_⟩
  · intro d
    rw [List.mem_append, h.mem_iff, List.mem_singleton]
    constructor
    · rintro ((hd | ⟨u, hu⟩) | rfl)
      · exact Or.inl hd
      · exact Or.inr ⟨u, (hhand u d).mpr (Or.inr hu)⟩
      · exact Or.inr ⟨t, ht⟩
    · rintro (hd | ⟨u, hu⟩)
      · exact Or.inl (Or.inl hd)
      · rcases (hhand u d).mp hu with ⟨-, rfl⟩ | hu
        · exact Or.inr rfl
        · exact Or.inl (Or.inr ⟨u, hu⟩)
  · intro u v d hu hv
    rcases (hhand u d).mp hu with ⟨rfl, rfl⟩ | hu
    · rcases (hhand v d).mp hv with ⟨rfl, -⟩ | hv
      · rfl
      · exact absurd hv (hold v)
    · rcases (hhand v d).mp hv with ⟨rfl, rfl⟩ | hv
      · exact absurd hu (hold u)
      · exact h.once u v d hu hv
  · intro u d hu
    rcases (hhand u d).mp hu with ⟨rfl, rfl⟩ | hu
    · exact fun hd => hnew ((h.mem_iff d).mpr (Or.inl hd))
    · exact h.apart u d hu

/-- A thing leaves a hand. -/
theorem leave (h : Passing all gone hand) (ht : hand t = some e) (hempty : hand' t = none)
    (hh : ∀ u, u ≠ t → hand' u = hand u) : Passing all (gone ++ [e]) hand' := by
  have hhand : ∀ u d, hand' u = some d ↔ u ≠ t ∧ hand u = some d := by
    intro u d
    by_cases hu : u = t
    · subst hu
      rw [hempty]
      exact ⟨nofun, fun h => absurd rfl h.1⟩
    · rw [hh u hu]
      exact ⟨fun h => ⟨hu, h⟩, fun h => h.2⟩
  refine ⟨?_, ?_, ?_, ?_⟩
  · rw [List.nodup_append]
    refine ⟨h.nodup, List.nodup_singleton e, ?_⟩
    intro d hd d' hd' heq
    rw [heq, List.mem_singleton.mp hd'] at hd
    exact h.apart t e ht hd
  · intro d
    rw [h.mem_iff, List.mem_append, List.mem_singleton]
    constructor
    · rintro (hd | ⟨u, hu⟩)
      · exact Or.inl (Or.inl hd)
      · by_cases hut : u = t
        · subst hut
          exact Or.inl (Or.inr (Option.some.inj (hu.symm.trans ht)))
        · exact Or.inr ⟨u, (hhand u d).mpr ⟨hut, hu⟩⟩
    · rintro ((hd | rfl) | ⟨u, hu⟩)
      · exact Or.inl hd
      · exact Or.inr ⟨t, ht⟩
      · exact Or.inr ⟨u, ((hhand u d).mp hu).2⟩
  · intro u v d hu hv
    exact h.once u v d ((hhand u d).mp hu).2 ((hhand v d).mp hv).2
  · intro u d hu hd
    obtain ⟨hut, hu⟩ := (hhand u d).mp hu
    rcases List.mem_append.mp hd with hd | hd
    · exact h.apart u d hu hd
    · rw [List.mem_singleton] at hd
      subst hd
      exact hut (h.once u t d hu ht)

/-- When all hands are empty, everything has left, once. -/
theorem perm (h : Passing all gone hand) (hall : all.Nodup) (hempty : ∀ t, hand t = none) :
    gone.Perm all := by
  rw [List.perm_ext_iff_of_nodup h.nodup hall]
  intro e
  rw [h.mem_iff]
  refine ⟨Or.inl, ?_⟩
  rintro (he | ⟨t, ht⟩)
  · exact he
  · rw [hempty t] at ht
    cases ht

end Passing

end Lib
