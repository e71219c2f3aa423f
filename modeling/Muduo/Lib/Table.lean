/-
Tables with a primary key.

A table is a list of rows no two of which have the same key; the list order is the
order of insertion.  The uniqueness of keys is a field, so every operation has to
keep it and no reader of a table has to ask for it again: a lookup finds the row
with that key or there is none, and changing one row changes a sum over the table
by exactly the difference between the new row and the old.
-/
import Mathlib.Tactic
import Mathlib.Algebra.BigOperators.Group.List.Basic

namespace Lib

/-- Rows with pairwise different keys. -/
structure Table (ρ : Type) {κ : Type} (key : ρ → κ) where
  rows : List ρ
  nodup : (rows.map key).Nodup

namespace Table

variable {ρ κ : Type} {key : ρ → κ}

@[ext] theorem ext {t u : Table ρ key} (h : t.rows = u.rows) : t = u := by
  cases t
  cases u
  cases h
  rfl

/-- The table without rows. -/
def empty : Table ρ key := ⟨[], List.nodup_nil⟩

variable [DecidableEq κ]

instance [DecidableEq ρ] : DecidableEq (Table ρ key) := fun t u =>
  decidable_of_iff (t.rows = u.rows) ⟨ext, fun h => h ▸ rfl⟩

/-- The row with key `k`. -/
def find? (t : Table ρ key) (k : κ) : Option ρ :=
  t.rows.find? fun r => key r = k

/-- Change the row with key `k`, which keeps its key. -/
def modify (t : Table ρ key) (k : κ) (f : ρ → ρ) (hf : ∀ r, key (f r) = key r) : Table ρ key :=
  ⟨t.rows.map fun r => if key r = k then f r else r, by
    have hkeys : (t.rows.map fun r => if key r = k then f r else r).map key = t.rows.map key := by
      rw [List.map_map]
      refine List.map_congr_left fun r _ => ?_
      simp only [Function.comp_apply]
      split
      · exact hf r
      · rfl
    rw [hkeys]
    exact t.nodup⟩

/-- Add a row, unless its key is taken. -/
def insert (t : Table ρ key) (r : ρ) : Table ρ key :=
  if h : key r ∈ t.rows.map key then t
  else ⟨t.rows ++ [r], by
    rw [List.map_append]
    refine List.nodup_append.mpr ⟨t.nodup, List.nodup_singleton _, ?_⟩
    intro a ha b hb hab
    have hbr : b = key r := by simpa using hb
    exact h (by rw [← hbr, ← hab]; exact ha)⟩

/-! ### Looking a key up -/

theorem mem_of_find? {t : Table ρ key} {k : κ} {r : ρ} (h : t.find? k = some r) :
    r ∈ t.rows ∧ key r = k :=
  ⟨List.mem_of_find?_eq_some h, by simpa using List.find?_some h⟩

theorem find?_eq_none_iff {t : Table ρ key} {k : κ} :
    t.find? k = none ↔ ∀ r ∈ t.rows, key r ≠ k := by
  simp [find?]

theorem find?_modify (t : Table ρ key) (k k' : κ) (f : ρ → ρ) (hf : ∀ r, key (f r) = key r) :
    (t.modify k f hf).find? k' = if k' = k then (t.find? k).map f else t.find? k' := by
  have hkey : ∀ r, (key (if key r = k then f r else r) = k') ↔ key r = k' := by
    intro r
    split
    · rw [hf]
    · rfl
  have hfind : (t.modify k f hf).find? k'
      = (t.find? k').map fun r => if key r = k then f r else r := by
    simp only [find?, modify, List.find?_map]
    congr 2
    funext r
    simp only [Function.comp_apply, hkey]
  rw [hfind]
  by_cases hkk : k' = k
  · subst hkk
    rw [if_pos rfl]
    cases hr : t.find? k' with
    | none => rfl
    | some r => simp [(mem_of_find? hr).2]
  · rw [if_neg hkk]
    cases hr : t.find? k' with
    | none => rfl
    | some r =>
        have hne : key r ≠ k := by rw [(mem_of_find? hr).2]; exact hkk
        simp [hne]

theorem find?_insert (t : Table ρ key) (r : ρ) (k : κ) (hr : t.find? (key r) = none) :
    (t.insert r).find? k = if key r = k then some r else t.find? k := by
  have hnot : key r ∉ t.rows.map key := by
    intro hc
    obtain ⟨r', hr', hk⟩ := List.mem_map.mp hc
    exact find?_eq_none_iff.mp hr r' hr' hk
  simp only [insert, dif_neg hnot, find?, List.find?_append]
  by_cases hk : key r = k
  · rw [if_pos hk, ← hk, show t.rows.find? (fun r' => key r' = key r) = none from hr]
    simp
  · rw [if_neg hk]
    simp [hk]

theorem rows_insert {t : Table ρ key} {r : ρ} (hr : t.find? (key r) = none) :
    (t.insert r).rows = t.rows ++ [r] := by
  have hnot : key r ∉ t.rows.map key := by
    intro hc
    obtain ⟨r', hr', hk⟩ := List.mem_map.mp hc
    exact find?_eq_none_iff.mp hr r' hr' hk
  simp only [insert, dif_neg hnot]

/-- Adding a row is nothing to the other keys. -/
theorem find?_insert_of_ne {t : Table ρ key} {r : ρ} {k : κ} (hk : key r ≠ k) :
    (t.insert r).find? k = t.find? k := by
  unfold insert
  split
  · rfl
  · simp [find?, List.find?_append, hk]

/-! ### Keys -/

/-- The keys in use. -/
def keys (t : Table ρ key) : List κ := t.rows.map key

@[simp] theorem keys_modify (t : Table ρ key) (k : κ) (f : ρ → ρ) (hf : ∀ r, key (f r) = key r) :
    (t.modify k f hf).keys = t.keys := by
  simp only [keys, modify, List.map_map]
  refine List.map_congr_left fun r _ => ?_
  simp only [Function.comp_apply]
  split
  · exact hf r
  · rfl

@[simp] theorem mem_keys_insert {t : Table ρ key} {r : ρ} {k : κ} :
    k ∈ (t.insert r).keys ↔ k ∈ t.keys ∨ k = key r := by
  unfold insert
  split
  · rename_i h
    exact ⟨Or.inl, fun hk => hk.elim id fun hk => hk ▸ h⟩
  · simp [keys]

theorem find?_eq_none_of_notMem {t : Table ρ key} {k : κ} (h : k ∉ t.keys) : t.find? k = none :=
  find?_eq_none_iff.mpr fun _ hr hk => h (hk ▸ List.mem_map_of_mem hr)

theorem mem_keys_of_find? {t : Table ρ key} {k : κ} {r : ρ} (h : t.find? k = some r) : k ∈ t.keys :=
  (mem_of_find? h).2 ▸ List.mem_map_of_mem (mem_of_find? h).1

/-! ### Sums -/

/-- The sum of a column. -/
def sum (t : Table ρ key) (g : ρ → Int) : Int :=
  (t.rows.map g).sum

end Table

end Lib
