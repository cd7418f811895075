import Mathlib.Data.List.Nodup

/-! The first of each key in a list.

A pass that keeps an element when its key was not met before. What it keeps has every key
once, misses none (`mem_map_firsts`), and stands in the order in which the keys first occur
(`pairwise_idxOf_firsts`). -/
namespace Kerosene.Lib.Firsts

variable {α κ : Type} [DecidableEq κ] (key : α → κ)

/-- The elements whose key is not in `seen` and was not met before. -/
def firsts (seen : List κ) : List α → List α
  | [] => []
  | a :: rest =>
    if key a ∈ seen then firsts seen rest else a :: firsts (key a :: seen) rest

variable {key}

theorem mem_map_firsts {seen : List κ} {l : List α} {k : κ} :
    k ∈ (firsts key seen l).map key ↔ k ∈ l.map key ∧ k ∉ seen := by
  induction l generalizing seen with
  | nil => simp [firsts]
  | cons a rest ih =>
    rw [firsts, List.map_cons, List.mem_cons]
    by_cases hseen : key a ∈ seen
    · rw [if_pos hseen, ih]
      refine and_congr_left fun hk => (or_iff_right fun h => hk ?_).symm
      rw [h]
      exact hseen
    · rw [if_neg hseen, List.map_cons, List.mem_cons, ih, List.mem_cons, not_or]
      by_cases hk : k = key a
      · rw [hk]
        exact iff_of_true (.inl rfl) ⟨.inl rfl, hseen⟩
      · simp [hk]

/-- What is kept stands in the order of first occurrence. -/
theorem pairwise_idxOf_firsts (seen : List κ) (l : List α) :
    ((firsts key seen l).map key).Pairwise fun k k' =>
      (l.map key).idxOf k < (l.map key).idxOf k' := by
  induction l generalizing seen with
  | nil => exact List.Pairwise.nil
  | cons a rest ih =>
    -- Behind `a` every key but its own stands one place further.
    have hshift : ∀ {seen' : List κ}, key a ∈ seen' →
        ((firsts key seen' rest).map key).Pairwise fun k k' =>
          ((a :: rest).map key).idxOf k < ((a :: rest).map key).idxOf k' := by
      intro seen' ha
      have hne : ∀ k ∈ (firsts key seen' rest).map key, key a ≠ k := by
        intro k hk heq
        rw [heq] at ha
        exact (mem_map_firsts.mp hk).2 ha
      refine (ih seen').imp_of_mem fun hk hk' hlt => ?_
      rw [List.map_cons, List.idxOf_cons_ne _ (hne _ hk), List.idxOf_cons_ne _ (hne _ hk')]
      exact Nat.succ_lt_succ hlt
    rw [firsts]
    by_cases hseen : key a ∈ seen
    · rw [if_pos hseen]
      exact hshift hseen
    · rw [if_neg hseen, List.map_cons]
      refine List.Pairwise.cons (fun k hk => ?_) (hshift List.mem_cons_self)
      have hne : key a ≠ k := by
        intro heq
        rw [← heq] at hk
        exact (mem_map_firsts.mp hk).2 List.mem_cons_self
      rw [List.idxOf_cons_self, List.idxOf_cons_ne _ hne]
      exact Nat.succ_pos _

theorem nodup_map_firsts (seen : List κ) (l : List α) : ((firsts key seen l).map key).Nodup :=
  (pairwise_idxOf_firsts seen l).imp fun hlt heq => absurd (heq ▸ hlt) (Nat.lt_irrefl _)

example : firsts id [] [3, 1, 3, 2, 1] = [3, 1, 2] := by decide

end Kerosene.Lib.Firsts
