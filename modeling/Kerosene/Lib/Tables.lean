import Mathlib

/-! Finite maps as stores: writes in order, and sums over the content.

`total w t` adds up a weight of every entry. `total_insert` says what one write
does to a sum; two writes under different keys are two such steps, and a second
write under the same key undoes the first (`Finmap.insert_insert`). -/
namespace Kerosene.Lib.Tables

variable {κ ν : Type} [DecidableEq κ]

/-- A finite map. -/
abbrev Table (κ ν : Type) := Finmap fun _ : κ => ν

/-- Writes in order. -/
def insertAll (t : Table κ ν) (writes : List (κ × ν)) : Table κ ν :=
  writes.foldl (fun t w => t.insert w.1 w.2) t

@[simp] theorem insertAll_nil (t : Table κ ν) : insertAll t [] = t := rfl

@[simp] theorem insertAll_cons (t : Table κ ν) (w : κ × ν) (writes : List (κ × ν)) :
    insertAll t (w :: writes) = insertAll (t.insert w.1 w.2) writes := rfl

/-- After some writes a key has what it had, or something that was written under it. -/
theorem lookup_insertAll (t : Table κ ν) (writes : List (κ × ν)) (k : κ) :
    (k ∉ writes.map Prod.fst ∧ (insertAll t writes).lookup k = t.lookup k) ∨
      ∃ v, (k, v) ∈ writes ∧ (insertAll t writes).lookup k = some v := by
  induction writes generalizing t with
  | nil => exact .inl ⟨List.not_mem_nil, rfl⟩
  | cons w writes ih =>
    rw [insertAll_cons]
    rcases ih (t.insert w.1 w.2) with ⟨hk, hl⟩ | ⟨v, hv, hl⟩
    · by_cases hw : k = w.1
      · subst hw
        rw [Finmap.lookup_insert] at hl
        exact .inr ⟨w.2, List.mem_cons_self, hl⟩
      · rw [Finmap.lookup_insert_of_ne _ hw] at hl
        refine .inl ⟨?_, hl⟩
        rw [List.map_cons, List.mem_cons, not_or]
        exact ⟨hw, hk⟩
    · exact .inr ⟨v, List.mem_cons_of_mem _ hv, hl⟩

/-! ### Dropping entries -/

/-- The entries that satisfy a test. -/
def retain (keep : κ → ν → Bool) (t : Table κ ν) : Table κ ν where
  entries := t.entries.filter fun e => keep e.1 e.2
  nodupKeys := by
    have hsub : (t.entries.filter fun e => keep e.1 e.2).keys ≤ t.entries.keys :=
      Multiset.map_le_map (Multiset.filter_le _ _)
    exact Multiset.nodup_keys.mp (Multiset.nodup_of_le hsub (Multiset.nodup_keys.mpr t.nodupKeys))

theorem lookup_retain (keep : κ → ν → Bool) (t : Table κ ν) {k : κ} {v : ν} :
    (retain keep t).lookup k = some v ↔ t.lookup k = some v ∧ keep k v = true := by
  rw [Finmap.lookup_eq_some_iff, Finmap.lookup_eq_some_iff]
  exact Multiset.mem_filter

theorem lookup_retain_eq_none (keep : κ → ν → Bool) {t : Table κ ν} {k : κ}
    (h : t.lookup k = none) : (retain keep t).lookup k = none := by
  rw [Option.eq_none_iff_forall_ne_some]
  intro v hv
  rw [lookup_retain, h] at hv
  exact absurd hv.1 (by simp)

/-! ### Sums over the content -/

/-- The weights of all entries, added up. -/
def total (w : κ → ν → ℕ) (t : Table κ ν) : ℕ :=
  ∑ k ∈ t.keys, (t.lookup k).elim 0 (w k)

theorem keys_insert (t : Table κ ν) (k : κ) (v : ν) : (t.insert k v).keys = insert k t.keys := by
  ext k'
  rw [Finmap.mem_keys, Finmap.mem_insert, Finset.mem_insert, Finmap.mem_keys]

/-- The sum without one key. -/
theorem total_eq (w : κ → ν → ℕ) (t : Table κ ν) (k : κ) :
    total w t = (t.lookup k).elim 0 (w k) +
      ∑ k' ∈ t.keys.erase k, (t.lookup k').elim 0 (w k') := by
  by_cases hk : k ∈ t.keys
  · exact (Finset.add_sum_erase _ _ hk).symm
  · have hnone : t.lookup k = none := Finmap.lookup_eq_none.mpr fun h => hk (Finmap.mem_keys.mpr h)
    rw [hnone, Finset.erase_eq_of_notMem hk]
    simp [total]

/-- A write adds its weight and takes away that of the entry it replaces. -/
theorem total_insert (w : κ → ν → ℕ) (t : Table κ ν) (k : κ) (v : ν) :
    total w (t.insert k v) + (t.lookup k).elim 0 (w k) = total w t + w k v := by
  have hrest : ∑ k' ∈ (t.insert k v).keys.erase k, ((t.insert k v).lookup k').elim 0 (w k') =
      ∑ k' ∈ t.keys.erase k, (t.lookup k').elim 0 (w k') := by
    rw [keys_insert, Finset.erase_insert_eq_erase]
    refine Finset.sum_congr rfl fun k' hk' => ?_
    rw [Finmap.lookup_insert_of_ne t (Finset.ne_of_mem_erase hk')]
  rw [total_eq w (t.insert k v) k, total_eq w t k, hrest, Finmap.lookup_insert]
  simp only [Option.elim_some]
  omega

/-- Two writes over entries that are there. -/
theorem total_insert_insert (w : κ → ν → ℕ) {t : Table κ ν} {k₁ k₂ : κ} {o₁ o₂ : ν}
    (h₁ : t.lookup k₁ = some o₁) (h₂ : t.lookup k₂ = some o₂) (hne : k₁ ≠ k₂) (v₁ v₂ : ν) :
    total w ((t.insert k₁ v₁).insert k₂ v₂) + w k₁ o₁ + w k₂ o₂ =
      total w t + w k₁ v₁ + w k₂ v₂ := by
  have hfirst := total_insert w t k₁ v₁
  have hsecond := total_insert w (t.insert k₁ v₁) k₂ v₂
  rw [h₁, Option.elim_some] at hfirst
  rw [Finmap.lookup_insert_of_ne t hne.symm, h₂, Option.elim_some] at hsecond
  omega

end Kerosene.Lib.Tables
