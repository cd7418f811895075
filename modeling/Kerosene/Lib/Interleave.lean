import Mathlib

/-! Parties that take steps in any order.

A configuration moves by `next i` when party `i` takes a step, or a step of some
kind `i`. A rule says which steps may be taken where; what is reached by steps that
obey it keeps whatever such steps preserve (`Reaches.invariant`). A schedule is a run
written down (`reaches_follow`). -/
namespace Kerosene.Lib.Interleave

variable {σ ι : Type} {next : ι → σ → σ} {Rule : σ → ι → Prop}

/-- What is reached from `start` by steps that obey the rule. -/
inductive Reaches (next : ι → σ → σ) (Rule : σ → ι → Prop) (start : σ) : σ → Prop where
  | start : Reaches next Rule start start
  | step {s : σ} (h : Reaches next Rule start s) (i : ι) (hi : Rule s i) :
    Reaches next Rule start (next i s)

/-- What every step that obeys the rule preserves holds of all that is reached. -/
theorem Reaches.invariant {start s : σ} (h : Reaches next Rule start s) (Inv : σ → Prop)
    (hstart : Inv start) (hstep : ∀ s i, Inv s → Rule s i → Inv (next i s)) : Inv s := by
  induction h with
  | start => exact hstart
  | step _ i hi ih => exact hstep _ i ih hi

theorem Reaches.trans {s t u : σ} (h : Reaches next Rule s t) (h' : Reaches next Rule t u) :
    Reaches next Rule s u := by
  induction h' with
  | start => exact h
  | step _ i hi ih => exact .step ih i hi

/-! ### Schedules -/

/-- The steps of a schedule in order. -/
def follow (next : ι → σ → σ) (schedule : List ι) (s : σ) : σ :=
  schedule.foldl (fun s i => next i s) s

/-- Every step of a schedule obeys the rule where it is taken. -/
def Obeys (next : ι → σ → σ) (Rule : σ → ι → Prop) : List ι → σ → Prop
  | [], _ => True
  | i :: rest, s => Rule s i ∧ Obeys next Rule rest (next i s)

instance decidableObeys [∀ s i, Decidable (Rule s i)] (schedule : List ι) (s : σ) :
    Decidable (Obeys next Rule schedule s) :=
  match schedule with
  | [] => inferInstanceAs (Decidable True)
  | i :: rest =>
    have : Decidable (Obeys next Rule rest (next i s)) := decidableObeys rest (next i s)
    inferInstanceAs (Decidable (Rule s i ∧ Obeys next Rule rest (next i s)))

theorem reaches_follow {schedule : List ι} {s : σ} (h : Obeys next Rule schedule s) :
    Reaches next Rule s (follow next schedule s) := by
  induction schedule generalizing s with
  | nil => exact .start
  | cons i rest ih => exact Reaches.trans (.step .start i h.1) (ih h.2)

end Kerosene.Lib.Interleave
