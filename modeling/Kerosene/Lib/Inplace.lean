import Mathlib

/-! Fallible updates of a state in place.

A call that takes its state by mutable reference and returns a result is an
`EStateM ε σ α`: it leaves a state behind whether it succeeds or fails, so a
failed call may have changed something. A call can be seen from two sides, its
`outcome` and the state it leaves (`after`). A caller either goes on after a
failure (`run`) or stops at the first one (`replay`). -/
namespace Kerosene.Lib.Inplace

variable {ε σ α β ι : Type}

/-! ### One call -/

def outcome (m : EStateM ε σ α) (s : σ) : Except ε α :=
  match m s with
  | .ok a _ => .ok a
  | .error e _ => .error e

def after (m : EStateM ε σ α) (s : σ) : σ :=
  match m s with
  | .ok _ s' => s'
  | .error _ s' => s'

/-- A check that reads no state. -/
def check (x : Except ε α) : EStateM ε σ α := fun s =>
  match x with
  | .ok a => .ok a s
  | .error e => .error e s

@[simp] theorem check_ok (a : α) (s : σ) : check (.ok a : Except ε α) s = .ok a s := rfl

@[simp] theorem check_error (e : ε) (s : σ) : check (.error e : Except ε α) s = .error e s := rfl

theorem check_eq_ok {x : Except ε α} {a : α} {s s' : σ} :
    check x s = .ok a s' ↔ x = .ok a ∧ s' = s := by
  cases x <;> simp [eq_comm]

theorem after_ok {m : EStateM ε σ α} {s s' : σ} {a : α} (h : m s = .ok a s') : after m s = s' := by
  unfold after
  rw [h]

theorem after_error {m : EStateM ε σ α} {s s' : σ} {e : ε} (h : m s = .error e s') :
    after m s = s' := by
  unfold after
  rw [h]

theorem outcome_ok {m : EStateM ε σ α} {s s' : σ} {a : α} (h : m s = .ok a s') :
    outcome m s = .ok a := by
  unfold outcome
  rw [h]

theorem outcome_error {m : EStateM ε σ α} {s s' : σ} {e : ε} (h : m s = .error e s') :
    outcome m s = .error e := by
  unfold outcome
  rw [h]

theorem eq_ok_of_outcome {m : EStateM ε σ α} {s : σ} {a : α} (h : outcome m s = .ok a) :
    m s = .ok a (after m s) := by
  unfold outcome at h
  unfold after
  cases hm : m s with
  | ok b t =>
    rw [hm] at h
    rw [Except.ok.inj h]
  | error e t =>
    rw [hm] at h
    cases h

@[simp] theorem get_def (s : σ) : (get : EStateM ε σ σ) s = .ok s s := rfl

@[simp] theorem set_def (t s : σ) : (set t : EStateM ε σ PUnit) s = .ok ⟨⟩ t := rfl

@[simp] theorem modify_def (f : σ → σ) (s : σ) :
    (modify f : EStateM ε σ PUnit) s = .ok ⟨⟩ (f s) := rfl

@[simp] theorem throw_def (e : ε) (s : σ) : (throw e : EStateM ε σ α) s = .error e s := rfl

@[simp] theorem pure_def (a : α) (s : σ) : (pure a : EStateM ε σ α) s = .ok a s := rfl

theorem bind_def (m : EStateM ε σ α) (f : α → EStateM ε σ β) (s : σ) :
    (m >>= f) s = match m s with
      | .ok a s' => f a s'
      | .error e s' => .error e s' := rfl

theorem bind_ok {m : EStateM ε σ α} {f : α → EStateM ε σ β} {s s' : σ} {b : β} :
    (m >>= f) s = .ok b s' ↔ ∃ a t, m s = .ok a t ∧ f a t = .ok b s' := by
  rw [bind_def]
  cases m s <;> simp

theorem bind_error {m : EStateM ε σ α} {f : α → EStateM ε σ β} {s s' : σ} {e : ε} :
    (m >>= f) s = .error e s' ↔
      m s = .error e s' ∨ ∃ a t, m s = .ok a t ∧ f a t = .error e s' := by
  rw [bind_def]
  cases m s <;> simp

theorem after_check_bind (x : Except ε α) (f : α → EStateM ε σ β) (s : σ) :
    after (check x >>= f) s = match x with
      | .ok a => after (f a) s
      | .error _ => s := by
  cases x <;> rfl

/-- What is returned at the end changes nothing. -/
theorem after_bind_pure (m : EStateM ε σ α) (f : α → β) (s : σ) :
    after (m >>= fun a => pure (f a)) s = after m s := by
  unfold after
  rw [bind_def]
  cases m s <;> rfl

/-! ### Checks

Code that reads no state returns an `Except ε α`. -/

theorem except_bind_ok {x : Except ε α} {f : α → Except ε β} {b : β} :
    (x >>= f) = .ok b ↔ ∃ a, x = .ok a ∧ f a = .ok b := by
  cases x <;> simp [Bind.bind, Except.bind]

/-- A check that returns nothing before the rest. -/
theorem except_then_ok {x : Except ε Unit} {f : Unit → Except ε β} {b : β} :
    (x >>= f) = .ok b ↔ x = .ok () ∧ f () = .ok b := by
  rw [except_bind_ok]
  exact ⟨fun ⟨_, h⟩ => h, fun h => ⟨(), h⟩⟩

theorem except_pure_ok {a b : α} : (pure a : Except ε α) = .ok b ↔ b = a :=
  ⟨fun h => (Except.ok.inj h).symm, fun h => congrArg Except.ok h.symm⟩

theorem except_bind_error {x : Except ε α} {f : α → Except ε β} {e : ε} :
    (x >>= f) = .error e ↔ x = .error e ∨ ∃ a, x = .ok a ∧ f a = .error e := by
  cases x <;> simp [Bind.bind, Except.bind]

/-- Fails with `e` when `c` holds. -/
def refuse (c : Prop) [Decidable c] (e : ε) : Except ε Unit := if c then .error e else .ok ()

@[simp] theorem refuse_ok {c : Prop} [Decidable c] {e : ε} {u : Unit} :
    refuse c e = .ok u ↔ ¬ c := by
  unfold refuse
  split <;> simp [*]

theorem refuse_error {c : Prop} [Decidable c] {e e' : ε} :
    refuse c e = .error e' ↔ c ∧ e = e' := by
  unfold refuse
  split <;> simp [*]

def okOr (o : Option α) (e : ε) : Except ε α :=
  match o with
  | some a => .ok a
  | none => .error e

@[simp] theorem okOr_ok {o : Option α} {e : ε} {a : α} : okOr o e = .ok a ↔ o = some a := by
  cases o <;> simp [okOr]

theorem okOr_error {o : Option α} {e e' : ε} :
    okOr o e = .error e' ↔ o = none ∧ e = e' := by
  cases o <;> simp [okOr]

@[simp] theorem mapError_eq_ok {ε' : Type} {x : Except ε α} (f : ε → ε') {a : α} :
    x.mapError f = .ok a ↔ x = .ok a := by
  unfold Except.mapError
  cases x <;> simp

theorem mapError_eq_error {ε' : Type} {x : Except ε α} (f : ε → ε') {e : ε'} :
    x.mapError f = .error e ↔ ∃ e', x = .error e' ∧ f e' = e := by
  unfold Except.mapError
  cases x <;> simp

/-- A check of every element passes when each element passes it. -/
theorem forM_ok {f : α → Except ε Unit} {l : List α} :
    forM l f = .ok () ↔ ∀ a ∈ l, f a = .ok () := by
  induction l with
  | nil => simp [pure, Except.pure]
  | cons a rest ih =>
    rw [List.forM_cons, except_then_ok, List.forall_mem_cons, ih]

/-! ### What a call preserves

`Preserves R m`: the states before and after a call are related, whether or not
it succeeded. A composite call preserves what its parts preserve when the
relation composes. -/

def Preserves (R : σ → σ → Prop) (m : EStateM ε σ α) : Prop := ∀ s, R s (after m s)

section Preserves
variable {R : σ → σ → Prop}

theorem Preserves.ok {m : EStateM ε σ α} (h : Preserves R m) {s s' : σ} {a : α}
    (hm : m s = .ok a s') : R s s' := after_ok hm ▸ h s

theorem preserves_bind (htrans : ∀ s t u, R s t → R t u → R s u) {m : EStateM ε σ α}
    {f : α → EStateM ε σ β} (hm : Preserves R m) (hf : ∀ a, Preserves R (f a)) :
    Preserves R (m >>= f) := by
  intro s
  have hs := hm s
  unfold after at hs ⊢
  rw [bind_def]
  cases h : m s with
  | ok a t =>
    rw [h] at hs
    exact htrans _ _ _ hs (hf a t)
  | error e t =>
    rw [h] at hs
    exact hs

variable (hrefl : ∀ s, R s s)
include hrefl

theorem preserves_pure (a : α) : Preserves R (pure a : EStateM ε σ α) := fun s => hrefl s

theorem preserves_throw (e : ε) : Preserves R (throw e : EStateM ε σ α) := fun s => hrefl s

theorem preserves_check (x : Except ε α) : Preserves R (check x : EStateM ε σ α) := by
  intro s
  cases x <;> exact hrefl s

end Preserves

/-! ### Failing without a trace -/

/-- A call that fails in `s` leaves `s`. -/
def AtomicAt (m : EStateM ε σ α) (s : σ) : Prop := ∀ e s', m s = .error e s' → s' = s

theorem atomicAt_of_ok {m : EStateM ε σ α} {s s' : σ} {a : α} (h : m s = .ok a s') :
    AtomicAt m s := by
  intro e t ht
  rw [h] at ht
  cases ht

theorem atomicAt_of_error {m : EStateM ε σ α} {s s' : σ} {e : ε} (h : m s = .error e s') :
    AtomicAt m s ↔ s' = s := by
  constructor
  · intro hm
    exact hm e s' h
  · intro hs e' t ht
    rw [h] at ht
    cases ht
    exact hs

/-- A call that never changes the state. -/
def ReadOnly (m : EStateM ε σ α) : Prop := Preserves (fun s s' => s' = s) m

theorem readOnly_check (x : Except ε α) : ReadOnly (check x : EStateM ε σ α) :=
  preserves_check (R := fun s s' => s' = s) (fun _ => rfl) x

theorem ReadOnly.atomicAt {m : EStateM ε σ α} (h : ReadOnly m) (s : σ) : AtomicAt m s := by
  intro e s' hm
  rw [← after_error hm]
  exact h s

/-- What fails after reading only leaves no trace if the rest leaves none. -/
theorem AtomicAt.bind_readOnly {m : EStateM ε σ α} {f : α → EStateM ε σ β} {s : σ}
    (hm : ReadOnly m) (hf : ∀ a, AtomicAt (f a) s) : AtomicAt (m >>= f) s := by
  intro e s' h
  rcases bind_error.mp h with h | ⟨a, t, ha, h⟩
  · exact hm.atomicAt s e s' h
  · have ht : t = s := by
      rw [← after_ok ha]
      exact hm s
    exact hf a e s' (ht ▸ h)

/-- A last step that cannot fail adds no failure. -/
theorem atomicAt_bind_pure {m : EStateM ε σ α} {f : α → β} {s : σ} :
    AtomicAt (m >>= fun a => pure (f a)) s ↔ AtomicAt m s := by
  unfold AtomicAt
  simp only [bind_error]
  simp

/-! ### Call after call -/

/-- The state after every call was made, whatever each returned. -/
def run (step : ι → EStateM ε σ α) : List ι → σ → σ
  | [], s => s
  | i :: rest, s => run step rest (after (step i) s)

/-- How many of the calls that `counts` singles out succeed in a run. -/
def countOk (step : ι → EStateM ε σ α) (counts : ι → Bool) : List ι → σ → ℕ
  | [], _ => 0
  | i :: rest, s =>
    (match step i s with
      | .ok _ _ => if counts i then 1 else 0
      | .error _ _ => 0) + countOk step counts rest (after (step i) s)

/-- A first call that fails or is not singled out adds nothing to the count. -/
theorem countOk_cons_of_not {step : ι → EStateM ε σ α} {counts : ι → Bool} {i : ι} {rest : List ι}
    {s : σ} (h : ∀ a s', step i s = .ok a s' → counts i = false) :
    countOk step counts (i :: rest) s = countOk step counts rest (after (step i) s) := by
  rw [countOk]
  cases hi : step i s with
  | error e s' => exact Nat.zero_add _
  | ok a s' => simp [h a s' hi]

/-- A rule asked of every call of a run in the state it is made in. -/
def Admissible (step : ι → EStateM ε σ α) (Rule : σ → ι → Prop) : List ι → σ → Prop
  | [], _ => True
  | i :: rest, s => Rule s i ∧ Admissible step Rule rest (after (step i) s)

/-- A rule together with a fact about every call of the list. -/
theorem Admissible.and_forall {step : ι → EStateM ε σ α} {Rule : σ → ι → Prop} {P : ι → Prop}
    {l : List ι} {s : σ} (h : Admissible step Rule l s) (hP : ∀ i ∈ l, P i) :
    Admissible step (fun s i => Rule s i ∧ P i) l s := by
  induction l generalizing s with
  | nil => trivial
  | cons i rest ih =>
    exact ⟨⟨h.1, hP i List.mem_cons_self⟩, ih h.2 fun j hj => hP j (List.mem_cons_of_mem _ hj)⟩

/-- What one call preserves under a rule, a run whose calls obey the rule preserves. -/
theorem run_invariant {step : ι → EStateM ε σ α} {Rule : σ → ι → Prop} {Inv : σ → Prop}
    (hstep : ∀ s i, Inv s → Rule s i → Inv (after (step i) s)) (l : List ι) (s : σ)
    (hs : Inv s) (hl : Admissible step Rule l s) : Inv (run step l s) := by
  induction l generalizing s with
  | nil => exact hs
  | cons i rest ih => exact ih _ (hstep s i hs hl.1) hl.2

/-- What holds after a call exactly when it held before and the call obeyed a rule, holds
after a run exactly when it held before and every call obeyed. -/
theorem run_iff_admissible {step : ι → EStateM ε σ α} {Rule : σ → ι → Prop} {Inv : σ → Prop}
    (hstep : ∀ s i, Inv (after (step i) s) ↔ Inv s ∧ Rule s i) (l : List ι) (s : σ) :
    Inv (run step l s) ↔ Inv s ∧ Admissible step Rule l s := by
  induction l generalizing s with
  | nil => exact (and_iff_left trivial).symm
  | cons i rest ih => rw [run, ih, hstep, and_assoc, Admissible]

/-- What every call preserves except those that are counted and succeed, a run without
such a call preserves. -/
theorem run_invariant_of_countOk {step : ι → EStateM ε σ α} {counts : ι → Bool} {Inv : σ → Prop}
    (hstep : ∀ s i, Inv s → (∀ a s', step i s = .ok a s' → counts i = false) →
      Inv (after (step i) s)) {l : List ι} {s : σ} (hs : Inv s)
    (hl : countOk step counts l s = 0) : Inv (run step l s) := by
  induction l generalizing s with
  | nil => exact hs
  | cons i rest ih =>
    rw [countOk, Nat.add_eq_zero_iff] at hl
    refine ih (hstep s i hs fun a s' h => ?_) hl.2
    have hfirst := hl.1
    rw [h] at hfirst
    simpa using hfirst

/-- What every call preserves, whatever it returns, a run preserves. -/
theorem preserves_run {step : ι → EStateM ε σ α} {R : σ → σ → Prop} (hrefl : ∀ s, R s s)
    (htrans : ∀ s t u, R s t → R t u → R s u) (hstep : ∀ i, Preserves R (step i)) (l : List ι)
    (s : σ) : R s (run step l s) := by
  induction l generalizing s with
  | nil => exact hrefl s
  | cons i rest ih => exact htrans _ _ _ (hstep i s) (ih _)

theorem run_append (step : ι → EStateM ε σ α) (l l' : List ι) (s : σ) :
    run step (l ++ l') s = run step l' (run step l s) := by
  induction l generalizing s with
  | nil => rfl
  | cons i rest ih => exact ih _

/-- Calls that succeed only at one level, and leave a higher one, succeed at most
once while the level never falls; not at all from a higher level. -/
theorem countOk_le_one {step : ι → EStateM ε σ α} {Rule : σ → ι → Prop} {counts : ι → Bool}
    (level : σ → ℕ) (n : ℕ) (hmono : ∀ s i, Rule s i → level s ≤ level (after (step i) s))
    (hok : ∀ s i a s', Rule s i → counts i → step i s = .ok a s' → level s = n ∧ n < level s')
    (l : List ι) (s : σ) (h : Admissible step Rule l s) :
    countOk step counts l s ≤ 1 ∧ (n < level s → countOk step counts l s = 0) := by
  induction l generalizing s with
  | nil => exact ⟨Nat.zero_le 1, fun _ => rfl⟩
  | cons i rest ih =>
    obtain ⟨hrule, hrest⟩ := h
    obtain ⟨hle, hzero⟩ := ih _ hrest
    have hstep := hmono s i hrule
    rw [countOk]
    cases hi : step i s with
    | error e s' =>
      simp only [Nat.zero_add]
      exact ⟨hle, fun hlt => hzero (hlt.trans_le hstep)⟩
    | ok a s' =>
      by_cases hc : counts i
      · obtain ⟨hlevel, hraised⟩ := hok s i a s' hrule hc hi
        rw [after_ok hi] at hle hzero ⊢
        rw [hzero hraised, if_pos hc]
        exact ⟨le_rfl, fun hlt => absurd hlevel hlt.ne'⟩
      · simp only [if_neg hc, Nat.zero_add]
        exact ⟨hle, fun hlt => hzero (hlt.trans_le hstep)⟩

/-- Every call in order, up to the first failure. -/
def replay (step : ι → EStateM ε σ α) : List ι → EStateM ε σ Unit
  | [] => pure ()
  | i :: rest => do
    let _ ← step i
    replay step rest

theorem replay_cons_ok {step : ι → EStateM ε σ α} {i : ι} {rest : List ι} {s s' : σ} :
    replay step (i :: rest) s = .ok () s' ↔
      ∃ a t, step i s = .ok a t ∧ replay step rest t = .ok () s' := bind_ok

/-- A replay that goes through is a run. -/
theorem run_of_replay {step : ι → EStateM ε σ α} {l : List ι} {s s' : σ}
    (h : replay step l s = .ok () s') : run step l s = s' := by
  induction l generalizing s with
  | nil =>
    cases h
    rfl
  | cons i rest ih =>
    obtain ⟨a, t, hi, hrest⟩ := replay_cons_ok.mp h
    rw [run, after_ok hi]
    exact ih hrest

theorem replay_append_ok {step : ι → EStateM ε σ α} {a b : List ι} {s s' : σ} :
    replay step (a ++ b) s = .ok () s' ↔
      ∃ t, replay step a s = .ok () t ∧ replay step b t = .ok () s' := by
  induction a generalizing s with
  | nil =>
    constructor
    · intro h
      exact ⟨s, rfl, h⟩
    · intro h
      obtain ⟨t, ht, h⟩ := h
      cases ht
      exact h
  | cons i rest ih =>
    rw [List.cons_append, replay_cons_ok]
    constructor
    · intro h
      obtain ⟨x, t, hi, h⟩ := h
      obtain ⟨u, hu, h'⟩ := ih.mp h
      exact ⟨u, replay_cons_ok.mpr ⟨x, t, hi, hu⟩, h'⟩
    · intro h
      obtain ⟨u, hu, h'⟩ := h
      obtain ⟨x, t, hi, hrest⟩ := replay_cons_ok.mp hu
      exact ⟨x, t, hi, ih.mpr ⟨u, hrest, h'⟩⟩

/-- A replay goes on from any state on its way. -/
theorem replay_drop {step : ι → EStateM ε σ α} {l : List ι} {k : ℕ} {s t s' : σ}
    (h : replay step l s = .ok () s') (ht : replay step (l.take k) s = .ok () t) :
    replay step (l.drop k) t = .ok () s' := by
  rw [← List.take_append_drop k l] at h
  obtain ⟨u, hu, hrest⟩ := replay_append_ok.mp h
  rw [ht] at hu
  cases hu
  exact hrest

/-- A counter that every successful call moves by one counts the calls. -/
theorem replay_counts {step : ι → EStateM ε σ α} {count : σ → UInt64}
    (hstep : ∀ i s a s', step i s = .ok a s' → count s' = count s + 1) {l : List ι} {s s' : σ}
    (h : replay step l s = .ok () s') : count s' = count s + UInt64.ofNat l.length := by
  induction l generalizing s with
  | nil =>
    cases h
    simp
  | cons i rest ih =>
    obtain ⟨a, t, hi, hrest⟩ := replay_cons_ok.mp h
    rw [ih hrest, hstep i s a t hi, List.length_cons, UInt64.ofNat_add, add_assoc,
      add_comm (1 : UInt64)]
    rfl

end Kerosene.Lib.Inplace
