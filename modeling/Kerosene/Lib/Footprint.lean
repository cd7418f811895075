import Mathlib

/-! Steps that touch a part of the state only.

A state is looked at through its cells. A step is `Local` to a set of cells when it
leaves the others alone and what it does to its own depends on nothing else. Local
steps compose (`Local.comp`), and two whose cells are disjoint can be taken in either
order: both lead to states with the same in every cell (`Local.commute`). -/
namespace Kerosene.Lib.Footprint

variable {σ κ : Type} {ν : κ → Type} {view : σ → (k : κ) → ν k}

/-- Two states have the same in every cell of a set. -/
def Agree (view : σ → (k : κ) → ν k) (F : Set κ) (s t : σ) : Prop := ∀ k ∈ F, view s k = view t k

/-- A step that works on a set of cells and reads no others. -/
structure Local (view : σ → (k : κ) → ν k) (F : Set κ) (R : σ → σ → Prop) : Prop where
  frame : ∀ {s s' : σ}, R s s' → Agree view Fᶜ s' s
  reads : ∀ {s s' t : σ}, R s s' → Agree view F s t → ∃ t', R t t' ∧ Agree view F s' t'

namespace Agree

variable {F G : Set κ} {s t u : σ}

theorem symm (h : Agree view F s t) : Agree view F t s := fun k hk => (h k hk).symm

theorem trans (h : Agree view F s t) (h' : Agree view F t u) : Agree view F s u :=
  fun k hk => (h k hk).trans (h' k hk)

theorem mono (hFG : F ⊆ G) (h : Agree view G s t) : Agree view F s t := fun k hk => h k (hFG hk)

end Agree

namespace Local

variable {F G : Set κ} {R Q : σ → σ → Prop}

theorem congr (h : Local view F R) (hRQ : ∀ s s', Q s s' ↔ R s s') : Local view F Q := by
  have : Q = R := funext fun s => funext fun s' => propext (hRQ s s')
  rw [this]
  exact h

/-- Where states agree, they still agree after a step of both. -/
theorem agree_of_agree (h : Local view F R) {s s' t t' : σ} (hR : R s s') (hR' : R t t')
    (hF : Agree view F s' t') (hst : Agree view G s t) : Agree view G s' t' := by
  intro k hk
  by_cases hkF : k ∈ F
  · exact hF k hkF
  · calc view s' k = view s k := h.frame hR k hkF
      _ = view t k := hst k hk
      _ = view t' k := (h.frame hR' k hkF).symm

/-- More cells than needed. -/
theorem mono (h : Local view F R) (hFG : F ⊆ G) : Local view G R where
  frame hR := (h.frame hR).mono (Set.compl_subset_compl.mpr hFG)
  reads hR hst := by
    obtain ⟨t', hR', hF⟩ := h.reads hR (hst.mono hFG)
    exact ⟨t', hR', h.agree_of_agree hR hR' hF hst⟩

/-- One step after another. -/
theorem comp (h : Local view F R) (h' : Local view G Q) :
    Local view (F ∪ G) (Relation.Comp R Q) where
  frame hRQ := by
    obtain ⟨m, hR, hQ⟩ := hRQ
    rw [Set.compl_union]
    exact ((h'.frame hQ).mono Set.inter_subset_right).trans
      ((h.frame hR).mono Set.inter_subset_left)
  reads hRQ hst := by
    obtain ⟨m, hR, hQ⟩ := hRQ
    obtain ⟨n, hR', hmn⟩ := (h.mono Set.subset_union_left).reads hR hst
    obtain ⟨t', hQ', hst'⟩ := (h'.mono Set.subset_union_right).reads hQ hmn
    exact ⟨t', ⟨n, hR', hQ'⟩, hst'⟩

/-- A check of some cells. -/
theorem guard {P : σ → Prop} (hP : ∀ s t, Agree view F s t → P s → P t) :
    Local view F fun s s' => P s ∧ s' = s where
  frame h := by
    obtain ⟨_, rfl⟩ := h
    exact fun _ _ => rfl
  reads h hst := by
    obtain ⟨hs, rfl⟩ := h
    exact ⟨_, ⟨hP _ _ hst hs, rfl⟩, hst⟩

/-- A change that no cell shows. -/
theorem unseen {f : σ → σ} (hf : ∀ s k, view (f s) k = view s k) :
    Local view ∅ fun s s' => s' = f s where
  frame h := by
    subst h
    exact fun k _ => hf _ k
  reads _ _ := ⟨_, rfl, fun k hk => absurd hk (Set.notMem_empty k)⟩

/-- A step on one cell, by what it makes of its content. -/
theorem ofCell {k : κ} {P : ν k → ν k → Prop}
    (hstep : ∀ s s', R s s' → P (view s k) (view s' k) ∧ ∀ j, j ≠ k → view s' j = view s j)
    (henabled : ∀ s v, P (view s k) v → ∃ s', R s s' ∧ view s' k = v) : Local view {k} R where
  frame h j hj := (hstep _ _ h).2 j hj
  reads h hst := by
    have hP := (hstep _ _ h).1
    rw [hst k rfl] at hP
    obtain ⟨t', hR, hv⟩ := henabled _ _ hP
    refine ⟨t', hR, fun j hj => ?_⟩
    rw [Set.mem_singleton_iff.mp hj, hv]

/-- **Steps on disjoint cells can be taken in either order.** -/
theorem commute (h : Local view F R) (h' : Local view G Q) (hFG : Disjoint F G) {s t u : σ}
    (hR : R s t) (hQ : Q t u) : ∃ t' u', Q s t' ∧ R t' u' ∧ ∀ k, view u k = view u' k := by
  -- The second step finds its cells as the first one does, and the other way around.
  obtain ⟨t', hQ', hG⟩ := h'.reads hQ ((h.frame hR).mono hFG.subset_compl_left)
  obtain ⟨u', hR', hF⟩ := h.reads hR ((h'.frame hQ').mono hFG.subset_compl_right).symm
  refine ⟨t', u', hQ', hR', fun k => ?_⟩
  by_cases hkF : k ∈ F
  · have hkG : k ∉ G := Set.disjoint_left.mp hFG hkF
    calc view u k = view t k := h'.frame hQ k hkG
      _ = view u' k := hF k hkF
  · have hunmoved : view u' k = view t' k := h.frame hR' k hkF
    rw [hunmoved]
    by_cases hkG : k ∈ G
    · exact hG k hkG
    · calc view u k = view t k := h'.frame hQ k hkG
        _ = view s k := h.frame hR k hkF
        _ = view t' k := (h'.frame hQ' k hkG).symm

end Local

end Kerosene.Lib.Footprint
