import Kerosene.Lib.Records

/-! What a client knows of a store: the calls it has made and the answers it got.

A transcript is the calls with their answers, and the calls that were acknowledged are those
with an answer that is no error. A state that only successful calls change is explained by
the acknowledged calls (`Records.history_invariant`, `acknowledged_transcript`), and where
several stores share a state, the transcript of each is that of a store of its own
(`sharedTranscript_eq`). So what is known of the answers of the one is known of the other. -/
namespace Kerosene.Lib.Transcripts

open Inplace Records Simulation

variable {ε σ τ κ α β : Type}

/-- The call, if it was acknowledged. -/
def ack : κ × Except ε α → Option κ
  | (c, .ok _) => some c
  | (_, .error _) => none

/-- The calls that were acknowledged, in order. -/
def acknowledged (t : List (κ × Except ε α)) : List κ := t.filterMap ack

/-- Calls made one after another, each with its answer. -/
def transcript (call : κ → EStateM ε σ α) (l : List κ) (s : σ) : List (κ × Except ε α) :=
  l.zip (answers call l s)

section Own
variable {call : κ → EStateM ε σ α}

/-- A call that succeeds under another type of answers. -/
theorem map_eq_ok {f : α → β} {m : EStateM ε σ α} {s s' : σ} {b : β} (h : (f <$> m) s = .ok b s') :
    ∃ a, m s = .ok a s' ∧ f a = b := by
  rw [← bind_pure_comp, bind_def] at h
  cases hm : m s with
  | ok a t =>
    rw [hm] at h
    injection h with hb hs
    exact ⟨a, by rw [hs], hb⟩
  | error e t =>
    rw [hm] at h
    cases h

theorem map_eq_error {f : α → β} {m : EStateM ε σ α} {s s' : σ} {e : ε}
    (h : (f <$> m) s = .error e s') : m s = .error e s' := by
  rw [← bind_pure_comp, bind_def] at h
  cases hm : m s with
  | ok a t =>
    rw [hm] at h
    cases h
  | error e t =>
    rw [hm] at h
    injection h with he hs
    rw [he, hs]

theorem transcript_cons (c : κ) (rest : List κ) (s : σ) :
    transcript call (c :: rest) s =
      (c, outcome (call c) s) :: transcript call rest (after (call c) s) := rfl

theorem acknowledged_transcript (l : List κ) (s : σ) :
    acknowledged (transcript call l s) = succeeded call l s := by
  induction l generalizing s with
  | nil => rfl
  | cons c rest ih =>
    rw [transcript_cons, acknowledged, succeeded]
    cases hc : call c s with
    | ok a s' =>
      rw [outcome_ok hc, after_ok hc]
      exact congrArg (c :: ·) (ih s')
    | error e s' =>
      rw [outcome_error hc, after_error hc]
      exact ih s'

/-- An entry of a transcript is a call that was made after those before it. -/
theorem transcript_split {l : List κ} {s : σ} {t t' : List (κ × Except ε α)} {c : κ}
    {answer : Except ε α} (h : transcript call l s = t ++ (c, answer) :: t') :
    ∃ before later, l = before ++ c :: later ∧ t = transcript call before s ∧
      answer = outcome (call c) (run call before s) ∧
      t' = transcript call later (after (call c) (run call before s)) := by
  induction t generalizing l s with
  | nil =>
    cases l with
    | nil => cases h
    | cons d rest =>
      rw [transcript_cons, List.nil_append, List.cons_eq_cons, Prod.mk.injEq] at h
      obtain ⟨⟨rfl, rfl⟩, rfl⟩ := h
      exact ⟨[], rest, rfl, rfl, rfl, rfl⟩
  | cons entry t ih =>
    cases l with
    | nil => cases h
    | cons d rest =>
      rw [transcript_cons, List.cons_append, List.cons_eq_cons] at h
      obtain ⟨rfl, hrest⟩ := h
      obtain ⟨before, later, rfl, rfl, hanswer, hlater⟩ := ih hrest
      exact ⟨d :: before, later, rfl, rfl, hanswer, hlater⟩

/-- What success adds a call to and failure keeps holds where a call is made, of the calls
acknowledged before. -/
theorem history_of_transcript {Inv : List κ → σ → Prop}
    (hok : ∀ history s c a s', Inv history s → call c s = .ok a s' → Inv (history ++ [c]) s')
    (herror : ∀ history s c e s', Inv history s → call c s = .error e s' → Inv history s')
    {s : σ} (hs : Inv [] s) {l : List κ} {t t' : List (κ × Except ε α)} {c : κ}
    {answer : Except ε α} (h : transcript call l s = t ++ (c, answer) :: t') :
    ∃ s', Inv (acknowledged t) s' ∧ answer = outcome (call c) s' := by
  obtain ⟨before, _, _, rfl, hanswer, _⟩ := transcript_split h
  refine ⟨run call before s, ?_, hanswer⟩
  rw [acknowledged_transcript]
  exact history_invariant hok herror before hs

end Own

/-! ### Stores that share a state -/

section Shared
variable {ι : Type} [DecidableEq ι] {C A σ : ι → Type}

/-- The calls of one party among those of all, each with its answer. -/
def sharedTranscript (call : (i : ι) → C i → EStateM ε τ (A i)) (l : List (Σ i, C i)) (t : τ) (i : ι) :
    List (C i × Except ε (A i)) :=
  (select i l).zip (select i (sharedAnswers call l t))

/-- Under the conditions of `select_sharedAnswers`, nobody can tell that a state is shared. -/
theorem sharedTranscript_eq {shared : (i : ι) → C i → EStateM ε τ (A i)}
    {own : (i : ι) → C i → EStateM ε (σ i) (A i)} {R : (i : ι) → σ i → τ → Prop}
    (hstep : ∀ i c, Simulates (R i) (own i c) (shared i c))
    (hframe : ∀ i j c s t, i ≠ j → R j s t → R j s (after (shared i c) t)) (l : List (Σ i, C i))
    (t : τ) (s : (i : ι) → σ i) (h : ∀ i, R i (s i) t) (i : ι) :
    sharedTranscript shared l t i = transcript (own i) (select i l) (s i) := by
  rw [sharedTranscript, select_sharedAnswers hstep hframe l t s h i, transcript]

end Shared

end Kerosene.Lib.Transcripts
