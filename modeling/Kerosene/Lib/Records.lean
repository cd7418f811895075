import Kerosene.Lib.Simulation

/-! Records that calls write.

A store is seen through `view`: which record it has under each name. `WritesOnly` is
all that a call may do to it, namely nothing, or succeed and write what the call is
known to write. Over a run, what is kept by every write except those of some kind is
kept, or such a write took place and its call is found in the run
(`kept_or_caused`). -/
namespace Kerosene.Lib.Records

open Inplace Simulation

variable {ε σ κ ι ρ α β : Type}

/-! ### One call -/

/-- Every record is left as it was, or the call succeeds and writes it as `W` says. -/
def WritesOnly (view : σ → ι → Option ρ) (W : ι → Option ρ → ρ → Prop) (m : EStateM ε σ α) : Prop :=
  ∀ s i, view (after m s) i = view s i ∨
    (∃ a, outcome m s = .ok a) ∧ ∃ r, view (after m s) i = some r ∧ W i (view s i) r

section Rules
variable {view : σ → ι → Option ρ} {W W' : ι → Option ρ → ρ → Prop}

theorem WritesOnly.mono {m : EStateM ε σ α} (h : WritesOnly view W m)
    (hW : ∀ i o r, W i o r → W' i o r) : WritesOnly view W' m := by
  intro s i
  rcases h s i with hsame | ⟨hok, r, hr, hw⟩
  · exact .inl hsame
  · exact .inr ⟨hok, r, hr, hW i _ r hw⟩

theorem WritesOnly.map {m : EStateM ε σ α} (h : WritesOnly view W m) (f : α → β) :
    WritesOnly view W (f <$> m) := by
  intro s i
  rw [after_map, outcome_map]
  rcases h s i with hsame | ⟨⟨a, ha⟩, hwrite⟩
  · exact .inl hsame
  · rw [ha]
    exact .inr ⟨⟨f a, rfl⟩, hwrite⟩

theorem writesOnly_of_readOnly {m : EStateM ε σ α} (h : ReadOnly m) : WritesOnly view W m := by
  intro s i
  rw [h s]
  exact .inl rfl

end Rules

/-! ### Call after call -/

/-- A call of the run is `c`, and it succeeds where it is made. -/
def SucceedsIn (call : κ → EStateM ε σ α) (c : κ) : List κ → σ → Prop
  | [], _ => False
  | d :: rest, s =>
    (d = c ∧ ∃ a, outcome (call d) s = .ok a) ∨ SucceedsIn call c rest (after (call d) s)

/-- The calls of a run that succeed, in order. -/
def succeeded (call : κ → EStateM ε σ α) : List κ → σ → List κ
  | [], _ => []
  | c :: rest, s =>
    match call c s with
    | .ok _ s' => c :: succeeded call rest s'
    | .error _ s' => succeeded call rest s'

/-- What success adds a call to and failure keeps, a run keeps up with the calls that
succeed. -/
theorem history_invariant {call : κ → EStateM ε σ α} {Inv : List κ → σ → Prop}
    (hok : ∀ history s c a s', Inv history s → call c s = .ok a s' → Inv (history ++ [c]) s')
    (herror : ∀ history s c e s', Inv history s → call c s = .error e s' → Inv history s')
    (l : List κ) {history : List κ} {s : σ} (h : Inv history s) :
    Inv (history ++ succeeded call l s) (run call l s) := by
  induction l generalizing history s with
  | nil =>
    rw [succeeded, List.append_nil]
    exact h
  | cons c rest ih =>
    rw [succeeded, run]
    cases hc : call c s with
    | ok a s' =>
      have hnext := ih (hok history s c a s' h hc)
      rw [List.append_assoc, List.singleton_append] at hnext
      rw [after_ok hc]
      exact hnext
    | error e s' =>
      rw [after_error hc]
      exact ih (herror history s c e s' h hc)

/-- Calls whose success does not depend on the state. -/
theorem succeeded_eq_filter {call : κ → EStateM ε σ α} {p : κ → Bool}
    (h : ∀ c s, (∃ a s', call c s = .ok a s') ↔ p c = true) (l : List κ) (s : σ) :
    succeeded call l s = l.filter p := by
  induction l generalizing s with
  | nil => rfl
  | cons c rest ih =>
    rw [succeeded]
    cases hc : call c s with
    | ok a s' => rw [List.filter_cons_of_pos ((h c s).mp ⟨a, s', hc⟩), ← ih s']
    | error e s' =>
      have hp : ¬ p c = true := by
        intro hp
        obtain ⟨a, t, hok⟩ := (h c s).mpr hp
        rw [hc] at hok
        cases hok
      rw [List.filter_cons_of_neg hp, ← ih s']

theorem admissible_of_forall {call : κ → EStateM ε σ α} {P : κ → Prop} {l : List κ}
    (h : ∀ c ∈ l, P c) (s : σ) : Admissible call (fun _ c => P c) l s := by
  induction l generalizing s with
  | nil => trivial
  | cons c rest ih =>
    exact ⟨h c List.mem_cons_self, ih (fun d hd => h d (List.mem_cons_of_mem c hd)) _⟩

theorem admissible_append {call : κ → EStateM ε σ α} {Rule : σ → κ → Prop} {l l' : List κ} {s : σ} :
    Admissible call Rule (l ++ l') s ↔
      Admissible call Rule l s ∧ Admissible call Rule l' (run call l s) := by
  induction l generalizing s with
  | nil => exact (and_iff_right trivial).symm
  | cons c rest ih =>
    rw [List.cons_append, Admissible, ih, Admissible, run, and_assoc]

/-- **Kept, or caused.** What holds of a record and is kept by every write, except by
those of calls of some kind, holds after a run, or such a call succeeded in it. -/
theorem kept_or_caused {call : κ → EStateM ε σ α} {view : σ → ι → Option ρ}
    {W : κ → ι → Option ρ → ρ → Prop} (hwrites : ∀ c, WritesOnly view (W c) (call c)) {i : ι}
    {K : Option ρ → Prop} {Rule : σ → κ → Prop} {Cause : κ → Prop}
    (hstep : ∀ s c r, Rule s c → K (view s i) → W c i (view s i) r → K (some r) ∨ Cause c)
    {l : List κ} {s : σ} (hl : Admissible call Rule l s) (hs : K (view s i)) :
    K (view (run call l s) i) ∨ ∃ c, Cause c ∧ SucceedsIn call c l s := by
  induction l generalizing s with
  | nil => exact .inl hs
  | cons c rest ih =>
    have hfirst : K (view (after (call c) s) i) ∨ Cause c ∧ ∃ a, outcome (call c) s = .ok a := by
      rcases hwrites c s i with hsame | ⟨hok, r, hr, hw⟩
      · rw [hsame]
        exact .inl hs
      · rw [hr]
        exact (hstep s c r hl.1 hs hw).imp_right fun hcause => ⟨hcause, hok⟩
    rcases hfirst with hkept | ⟨hcause, hok⟩
    · rcases ih hl.2 hkept with hend | ⟨d, hd, hin⟩
      · exact .inl hend
      · exact .inr ⟨d, hd, .inr hin⟩
    · exact .inr ⟨c, hcause, .inl ⟨rfl, hok⟩⟩

/-- What every write keeps, a run keeps. -/
theorem kept {call : κ → EStateM ε σ α} {view : σ → ι → Option ρ}
    {W : κ → ι → Option ρ → ρ → Prop} (hwrites : ∀ c, WritesOnly view (W c) (call c)) {i : ι}
    {K : Option ρ → Prop} {Rule : σ → κ → Prop}
    (hstep : ∀ s c r, Rule s c → K (view s i) → W c i (view s i) r → K (some r))
    {l : List κ} {s : σ} (hl : Admissible call Rule l s) (hs : K (view s i)) :
    K (view (run call l s) i) := by
  have hor : K (view (run call l s) i) ∨ ∃ c, (fun _ => False) c ∧ SucceedsIn call c l s :=
    kept_or_caused hwrites (fun s c r hrule hk hw => .inl (hstep s c r hrule hk hw)) hl hs
  rcases hor with hend | ⟨_, hfalse, _⟩
  · exact hend
  · exact hfalse.elim

end Kerosene.Lib.Records
