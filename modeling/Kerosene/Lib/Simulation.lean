import Kerosene.Lib.Inplace

/-! Two implementations of one interface, and several implementations on one state.

`Simulates` says that two programs answer alike and leave related states when they
find related ones. Where parties share one state, a call of one must not disturb
what the others have there; then each party answers its own calls as a counterpart
that has a state for itself (`select_sharedAnswers`). -/
namespace Kerosene.Lib.Simulation

open Inplace

variable {ε σ τ α β κ : Type}

/-- On related states the two answer alike and leave related states. -/
def Simulates (R : σ → τ → Prop) (m : EStateM ε σ α) (m' : EStateM ε τ α) : Prop :=
  ∀ s t, R s t → outcome m s = outcome m' t ∧ R (after m s) (after m' t)

section Rules
variable {R : σ → τ → Prop}

theorem outcome_map (f : α → β) (m : EStateM ε σ α) (s : σ) :
    outcome (f <$> m) s = (outcome m s).map f := by
  unfold outcome
  rw [← bind_pure_comp, bind_def]
  cases m s <;> rfl

theorem after_map (f : α → β) (m : EStateM ε σ α) (s : σ) : after (f <$> m) s = after m s := by
  rw [← bind_pure_comp]
  exact after_bind_pure m f s

theorem Simulates.map {m : EStateM ε σ α} {m' : EStateM ε τ α} (h : Simulates R m m') (f : α → β) :
    Simulates R (f <$> m) (f <$> m') := by
  intro s t hst
  obtain ⟨hout, hafter⟩ := h s t hst
  rw [outcome_map, outcome_map, after_map, after_map, hout]
  exact ⟨rfl, hafter⟩

/-- What one of the two keeps up by itself may be added to the relation. -/
theorem Simulates.and_invariant {m : EStateM ε σ α} {m' : EStateM ε τ α} (h : Simulates R m m')
    {Inv : σ → Prop} (hinv : ∀ s, Inv s → Inv (after m s)) :
    Simulates (fun s t => R s t ∧ Inv s) m m' := by
  intro s t hst
  obtain ⟨hout, hafter⟩ := h s t hst.1
  exact ⟨hout, hafter, hinv s hst.2⟩

theorem preserves_map {R : σ → σ → Prop} {m : EStateM ε σ α} (h : Preserves R m) (f : α → β) :
    Preserves R (f <$> m) := by
  intro s
  rw [after_map]
  exact h s

end Rules

/-! ### Calls -/

/-- The answers to calls made one after another. -/
def answers (call : κ → EStateM ε σ α) : List κ → σ → List (Except ε α)
  | [], _ => []
  | c :: rest, s => outcome (call c) s :: answers call rest (after (call c) s)

/-- Where the two answer alike as long as a rule is obeyed, they answer alike over a run
that obeys it, and the states they leave are related. -/
theorem answers_eq {R : σ → τ → Prop} {call : κ → EStateM ε σ α} {call' : κ → EStateM ε τ α}
    {Rule : σ → κ → Prop}
    (hstep : ∀ c s t, Rule s c → R s t → outcome (call c) s = outcome (call' c) t ∧
      R (after (call c) s) (after (call' c) t)) {l : List κ} {s : σ} {t : τ}
    (hl : Admissible call Rule l s) (h : R s t) :
    answers call l s = answers call' l t ∧ R (run call l s) (run call' l t) := by
  induction l generalizing s t with
  | nil => exact ⟨rfl, h⟩
  | cons c rest ih =>
    obtain ⟨hout, hafter⟩ := hstep c s t hl.1 h
    obtain ⟨hrest, hend⟩ := ih hl.2 hafter
    rw [answers, answers, hout, hrest]
    exact ⟨rfl, hend⟩

section Shared
variable {ι : Type} [DecidableEq ι] {C A σ : ι → Type}

/-- What belongs to one party, in order. -/
def select {C : ι → Type} (i : ι) : List (Σ i, C i) → List (C i)
  | [] => []
  | ⟨j, c⟩ :: rest => if h : j = i then (h ▸ c) :: select i rest else select i rest

/-- The answers of parties that work on one state, each with the party that gave it. -/
def sharedAnswers (call : (i : ι) → C i → EStateM ε τ (A i)) :
    List (Σ i, C i) → τ → List (Σ i, Except ε (A i))
  | [], _ => []
  | ⟨i, c⟩ :: rest, t => ⟨i, outcome (call i c) t⟩ :: sharedAnswers call rest (after (call i c) t)

theorem select_self {C : ι → Type} (i : ι) (c : C i) (rest : List (Σ i, C i)) :
    select i (⟨i, c⟩ :: rest) = c :: select i rest := by
  simp [select]

theorem select_of_ne {C : ι → Type} {i j : ι} (h : j ≠ i) (c : C j) (rest : List (Σ i, C i)) :
    select i (⟨j, c⟩ :: rest) = select i rest := by
  simp [select, h]

/-- **Sharing goes unnoticed.** If every party on the shared state simulates one with a
state of its own, and leaves alone what the others have there, then each answers its
own calls alike. -/
theorem select_sharedAnswers {shared : (i : ι) → C i → EStateM ε τ (A i)}
    {own : (i : ι) → C i → EStateM ε (σ i) (A i)} {R : (i : ι) → σ i → τ → Prop}
    (hstep : ∀ i c, Simulates (R i) (own i c) (shared i c))
    (hframe : ∀ i j c s t, i ≠ j → R j s t → R j s (after (shared i c) t)) (l : List (Σ i, C i))
    (t : τ) (s : (i : ι) → σ i) (h : ∀ i, R i (s i) t) (i : ι) :
    select i (sharedAnswers shared l t) = answers (own i) (select i l) (s i) := by
  -- All states of their own move along, each with the calls of its party.
  induction l generalizing s t with
  | nil => rfl
  | cons call rest ih =>
    obtain ⟨j, c⟩ := call
    obtain ⟨hout, hafter⟩ := hstep j c (s j) t (h j)
    let moved := Function.update s j (after (own j c) (s j))
    have hmoved : ∀ k, R k (moved k) (after (shared j c) t) := by
      intro k
      by_cases hk : k = j
      · subst hk
        simp only [moved, Function.update_self]
        exact hafter
      · simp only [moved, Function.update_of_ne hk]
        exact hframe j k c (s k) t (Ne.symm hk) (h k)
    have hrest := ih (after (shared j c) t) moved hmoved
    rw [sharedAnswers]
    by_cases hj : j = i
    · subst hj
      rw [select_self, select_self, answers, hrest, ← hout]
      simp only [moved, Function.update_self]
    · rw [select_of_ne hj, select_of_ne hj, hrest]
      simp only [moved, Function.update_of_ne (Ne.symm hj)]

end Shared

end Kerosene.Lib.Simulation
