/-
Stretches of days that follow each other.

Some marks stand at different days, and each stretch goes from one mark to the next, the
last one to a given end.  The stretches cover the days from the first mark to the end once
each, and so what is constant on every stretch is summed up over the days by weighting it
with the lengths of the stretches.
-/
import Mathlib.Algebra.BigOperators.Group.Finset.Basic
import Mathlib.Algebra.BigOperators.Group.Finset.Sigma
import Mathlib.Order.Interval.Finset.Nat
import Mathlib.Tactic

namespace Lib

open Finset

variable {ι M : Type*} [AddCommMonoid M]

/-- Behind the mark `t` comes the day `stop`: the next mark, or the end. -/
inductive Next (s : Finset ι) (start : ι → ℕ) (last : ℕ) (t : ι) (stop : ℕ) : Prop
  | last (heq : stop = last) (hall : ∀ u ∈ s, start u ≤ start t)
  | mark {v : ι} (hv : v ∈ s) (heq : stop = start v) (hlt : start t < start v)
      (hall : ∀ u ∈ s, start t < start u → start v ≤ start u)

/-- Marks, with the ends of their stretches. -/
structure Segments (s : Finset ι) (start stop : ι → ℕ) (last : ℕ) : Prop where
  inj : Set.InjOn start s
  next : ∀ t ∈ s, Next s start last t (stop t)
  le : ∀ t ∈ s, start t ≤ last

namespace Segments

variable {s : Finset ι} {start stop : ι → ℕ} {last : ℕ}

theorem start_le_stop (h : Segments s start stop last) {t : ι} (ht : t ∈ s) : start t ≤ stop t := by
  cases h.next t ht with
  | last heq hall => exact heq ▸ h.le t ht
  | mark hv heq hlt hall => exact heq ▸ hlt.le

theorem stop_le_last (h : Segments s start stop last) {t : ι} (ht : t ∈ s) : stop t ≤ last := by
  cases h.next t ht with
  | last heq hall => exact heq.le
  | mark hv heq hlt hall => exact heq ▸ h.le _ hv

/-- A stretch ends where a later one begins, or before. -/
theorem stop_le_start (h : Segments s start stop last) {t u : ι} (ht : t ∈ s) (hu : u ∈ s)
    (hlt : start t < start u) : stop t ≤ start u := by
  cases h.next t ht with
  | last heq hall => exact absurd (hall u hu) (not_le_of_gt hlt)
  | mark hv heq _ hall => exact heq ▸ hall u hu hlt

theorem pairwiseDisjoint (h : Segments s start stop last) :
    (s : Set ι).PairwiseDisjoint fun t => Ico (start t) (stop t) := by
  intro t ht u hu hne
  rw [Function.onFun, Finset.disjoint_left]
  intro d hdt hdu
  rw [mem_Ico] at hdt hdu
  rcases lt_trichotomy (start t) (start u) with hlt | heq | hlt
  · have := h.stop_le_start ht hu hlt
    omega
  · exact hne (h.inj ht hu heq)
  · have := h.stop_le_start hu ht hlt
    omega

/-- Every day from the first mark on is in a stretch. -/
theorem exists_mem (h : Segments s start stop last) {first : ι} (hfirst : first ∈ s) {d : ℕ}
    (hd : start first ≤ d) (hlast : d < last) : ∃ t ∈ s, start t ≤ d ∧ d < stop t := by
  -- the last mark that is not behind the day
  obtain ⟨t, ht, hmax⟩ := (s.filter fun u => start u ≤ d).exists_max_image start
    ⟨first, mem_filter.mpr ⟨hfirst, hd⟩⟩
  obtain ⟨hts, htd⟩ := mem_filter.mp ht
  refine ⟨t, hts, htd, ?_⟩
  cases h.next t hts with
  | last heq _ => exact heq ▸ hlast
  | mark hv heq hlt _ =>
      by_contra hnot
      have := hmax _ (mem_filter.mpr ⟨hv, by omega⟩)
      omega

theorem biUnion_eq [DecidableEq ι] (h : Segments s start stop last) {first : ι} (hfirst : first ∈ s)
    (hmin : ∀ u ∈ s, start first ≤ start u) :
    s.biUnion (fun t => Ico (start t) (stop t)) = Ico (start first) last := by
  ext d
  rw [mem_biUnion, mem_Ico]
  constructor
  · rintro ⟨t, ht, hd⟩
    rw [mem_Ico] at hd
    have hlow := hmin t ht
    have hhigh := h.stop_le_last ht
    omega
  · rintro ⟨hlow, hhigh⟩
    obtain ⟨t, ht, hd⟩ := h.exists_mem hfirst hlow hhigh
    exact ⟨t, ht, mem_Ico.mpr hd⟩

/-- The sum over the days is the sum over the stretches. -/
theorem sum_eq [DecidableEq ι] (h : Segments s start stop last) {first : ι} (hfirst : first ∈ s)
    (hmin : ∀ u ∈ s, start first ≤ start u) {f : ℕ → M} {g : ι → M}
    (hf : ∀ t ∈ s, ∀ d, start t ≤ d → d < stop t → f d = g t) :
    ∑ d ∈ Ico (start first) last, f d = ∑ t ∈ s, (stop t - start t) • g t := by
  rw [← h.biUnion_eq hfirst hmin, sum_biUnion h.pairwiseDisjoint]
  refine sum_congr rfl fun t ht => ?_
  have hconst : ∑ d ∈ Ico (start t) (stop t), f d = ∑ d ∈ Ico (start t) (stop t), g t := by
    refine sum_congr rfl fun d hd => ?_
    rw [mem_Ico] at hd
    exact hf t ht d hd.1 hd.2
  rw [hconst, sum_const, Nat.card_Ico]

end Segments

end Lib
