import Mathlib

/-! Parties that take events from one history.

Every event is an input of at most one party, and the other parties do not notice it. So a
party is where its own inputs lead it (`run_apply`), and whatever an input did to it is
found in the history of all (`exists_event`). -/
namespace Kerosene.Lib.Parties

variable {ι ε κ σ : Type} [DecidableEq ι]

/-- The input an event is to one party. -/
def inputAt (input : ε → Option (ι × κ)) (i : ι) (e : ε) : Option κ :=
  (input e).bind fun p => if p.1 = i then some p.2 else none

/-- All inputs of one party, in order. -/
def inputs (input : ε → Option (ι × κ)) (i : ι) (events : List ε) : List κ :=
  events.filterMap (inputAt input i)

def step (input : ε → Option (ι × κ)) (next : ι → κ → σ → σ) (e : ε) (c : ι → σ) : ι → σ :=
  match input e with
  | some (i, k) => Function.update c i (next i k (c i))
  | none => c

def run (input : ε → Option (ι × κ)) (next : ι → κ → σ → σ) (events : List ε) (c : ι → σ) :
    ι → σ :=
  events.foldl (fun c e => step input next e c) c

variable {input : ε → Option (ι × κ)} {next : ι → κ → σ → σ}

theorem inputAt_eq_some {i : ι} {e : ε} {k : κ} :
    inputAt input i e = some k ↔ input e = some (i, k) := by
  unfold inputAt
  cases input e with
  | none => simp
  | some p =>
    rw [Option.bind_some, Option.ite_none_right_eq_some, Option.some_inj, Option.some_inj,
      Prod.ext_iff]

theorem step_apply (e : ε) (c : ι → σ) (i : ι) :
    step input next e c i = (inputAt input i e).elim (c i) fun k => next i k (c i) := by
  unfold step inputAt
  cases input e with
  | none => rfl
  | some p =>
    by_cases hi : p.1 = i
    · subst hi
      simp
    · simp [hi, Function.update_of_ne (Ne.symm hi)]

/-- A party is where its own inputs lead it. -/
theorem run_apply (events : List ε) (c : ι → σ) (i : ι) :
    run input next events c i = (inputs input i events).foldl (fun s k => next i k s) (c i) := by
  induction events generalizing c with
  | nil => rfl
  | cons e rest ih =>
    show run input next rest (step input next e c) i = _
    rw [ih, step_apply, inputs, inputs]
    cases h : inputAt input i e with
    | none => rw [List.filterMap_cons_none h, Option.elim_none]
    | some k => rw [List.filterMap_cons_some h, Option.elim_some, List.foldl_cons]

/-- What comes before an input of a party is what came before some event. -/
theorem exists_event {i : ι} {events : List ε} {before later : List κ} {k : κ}
    (h : inputs input i events = before ++ k :: later) :
    ∃ a e b, events = a ++ e :: b ∧ inputs input i a = before ∧ input e = some (i, k) ∧
      inputs input i b = later := by
  obtain ⟨a, rest, rfl, ha, hrest⟩ := List.filterMap_eq_append_iff.mp h
  obtain ⟨quiet, e, b, rfl, hquiet, he, hb⟩ := List.filterMap_eq_cons_iff.mp hrest
  refine ⟨a ++ quiet, e, b, by simp, ?_, inputAt_eq_some.mp he, hb⟩
  rw [inputs, List.filterMap_append, ha, List.filterMap_eq_nil_iff.mpr hquiet, List.append_nil]

/-- Of two events in one history, one comes first unless they are the same. -/
theorem order_of_splits {a b c d : List ε} {e e' : ε} (h : a ++ e :: b = c ++ e' :: d) :
    (a = c ∧ e = e' ∧ b = d) ∨ (∃ m, c = a ++ e :: m ∧ b = m ++ e' :: d) ∨
      ∃ m, a = c ++ e' :: m ∧ d = m ++ e :: b := by
  rcases List.append_eq_append_iff.mp h with ⟨m, rfl, hm⟩ | ⟨m, rfl, hm⟩
  · rcases List.cons_eq_append_iff.mp hm with ⟨rfl, hd⟩ | ⟨m', rfl, hb⟩
    · cases hd
      exact .inl ⟨(List.append_nil a).symm, rfl, rfl⟩
    · exact .inr (.inl ⟨m', rfl, hb⟩)
  · rcases List.cons_eq_append_iff.mp hm with ⟨rfl, hd⟩ | ⟨m', rfl, hb⟩
    · cases hd
      exact .inl ⟨List.append_nil c, rfl, rfl⟩
    · exact .inr (.inr ⟨m', rfl, hb⟩)

end Kerosene.Lib.Parties
