import Kerosene.Lib.Interleave

/-! Threads that take readers-writer locks.

A thread is a list of lock actions, split into what it has done and what is left. It
holds what it has acquired and not released. A writer first queues for its lock; a
reader waits while a writer holds the lock or is queued for it, and a queued writer
waits until nobody holds it. A mutex is a lock that is only ever written.

A thread never changes its actions (`program_next`), so what the place between two
actions says of a thread holds at every moment of a run. In a deadlock every thread
that is not finished waits for a lock that someone holds or is queued for
(`Deadlocked.busy_of_reader`, `Deadlocked.busy_of_writer`). -/
namespace Kerosene.Lib.Locks

open Interleave

variable {κ ι : Type} [DecidableEq κ] [DecidableEq ι]

inductive Mode where
  | read
  | write
  deriving DecidableEq, Repr

inductive Action (κ : Type) where
  | acquire (mode : Mode) (lock : κ)
  | release (lock : κ)
  deriving DecidableEq, Repr

/-- How a lock is held after one more action. -/
def heldAfter (lock : κ) (before : Option Mode) : Action κ → Option Mode
  | .acquire mode l => if l = lock then some mode else before
  | .release l => if l = lock then none else before

/-- How a thread holds a lock after some actions. -/
def held (lock : κ) (past : List (Action κ)) : Option Mode := past.foldl (heldAfter lock) none

@[simp] theorem held_append_singleton (lock : κ) (past : List (Action κ)) (a : Action κ) :
    held lock (past ++ [a]) = heldAfter lock (held lock past) a := by
  rw [held, List.foldl_append]
  rfl

structure Thread (κ : Type) where
  past : List (Action κ)
  rest : List (Action κ)
  queued : Bool

/-- The threads; the state of every lock follows from theirs. -/
abbrev Config (ι κ : Type) := ι → Thread κ

def start (programs : ι → List (Action κ)) : Config ι κ := fun i => ⟨[], programs i, false⟩

/-! ### Steps -/

section Steps
variable (c : Config ι κ)

/-- A writer waits for the lock. -/
def Queued (lock : κ) : Prop :=
  ∃ j, (c j).queued = true ∧ (c j).rest.head? = some (.acquire .write lock)

/-- What a thread is to do next does not have to wait. -/
def Passes (queued : Bool) : List (Action κ) → Prop
  | [] => False
  | .release _ :: _ => True
  | .acquire .read lock :: _ => (∀ j, held lock (c j).past ≠ some .write) ∧ ¬ Queued c lock
  | .acquire .write lock :: _ => queued = false ∨ ∀ j, held lock (c j).past = none

def CanStep (i : ι) : Prop := Passes c (c i).queued (c i).rest

/-- A writer that is not queued yet queues; otherwise the next action is done. -/
def Thread.next (t : Thread κ) : Thread κ :=
  match t.rest with
  | [] => t
  | .acquire .write lock :: rest =>
    if t.queued then ⟨t.past ++ [.acquire .write lock], rest, false⟩ else { t with queued := true }
  | a :: rest => ⟨t.past ++ [a], rest, false⟩

def next (i : ι) (c : Config ι κ) : Config ι κ := Function.update c i (c i).next

/-- Some thread is not finished, and all that are not have to wait. -/
def Deadlocked : Prop := (∃ i, (c i).rest ≠ []) ∧ ∀ i, (c i).rest ≠ [] → ¬ CanStep c i

end Steps

section Decidable
variable [Fintype ι] (c : Config ι κ)

instance (lock : κ) : Decidable (Queued c lock) :=
  inferInstanceAs (Decidable (∃ j, (c j).queued = true ∧ (c j).rest.head? = some (.acquire .write lock)))

instance (queued : Bool) : (rest : List (Action κ)) → Decidable (Passes c queued rest)
  | [] => inferInstanceAs (Decidable False)
  | .release _ :: _ => inferInstanceAs (Decidable True)
  | .acquire .read lock :: _ =>
    inferInstanceAs (Decidable ((∀ j, held lock (c j).past ≠ some .write) ∧ ¬ Queued c lock))
  | .acquire .write lock :: _ =>
    inferInstanceAs (Decidable (queued = false ∨ ∀ j, held lock (c j).past = none))

instance (i : ι) : Decidable (CanStep c i) :=
  inferInstanceAs (Decidable (Passes c (c i).queued (c i).rest))

instance : Decidable (Deadlocked c) :=
  inferInstanceAs (Decidable ((∃ i, (c i).rest ≠ []) ∧ ∀ i, (c i).rest ≠ [] → ¬ CanStep c i))

end Decidable

section CanStep
variable {c : Config ι κ} {i : ι} {lock : κ}

omit [DecidableEq ι]

theorem canStep_reader (h : (c i).rest.head? = some (.acquire .read lock)) :
    CanStep c i ↔ (∀ j, held lock (c j).past ≠ some .write) ∧ ¬ Queued c lock := by
  obtain ⟨rest, hrest⟩ := List.head?_eq_some_iff.mp h
  rw [CanStep, hrest, Passes]

theorem canStep_writer (h : (c i).rest.head? = some (.acquire .write lock)) :
    CanStep c i ↔ (c i).queued = false ∨ ∀ j, held lock (c j).past = none := by
  obtain ⟨rest, hrest⟩ := List.head?_eq_some_iff.mp h
  rw [CanStep, hrest, Passes]

end CanStep

/-! ### What a step does -/

section Effects
variable {c : Config ι κ} {i : ι}

omit [DecidableEq κ] in
@[simp] theorem next_self : next i c i = (c i).next := Function.update_self ..

omit [DecidableEq κ] in
theorem next_of_ne {j : ι} (h : j ≠ i) : next i c j = c j := Function.update_of_ne h ..

/-- A step of a thread that does not have to wait. -/
inductive Stepped (c : Config ι κ) (i : ι) : Thread κ → Prop where
  | queues (lock : κ) (rest : List (Action κ)) (hrest : (c i).rest = .acquire .write lock :: rest)
    (hqueued : (c i).queued = false) :
    Stepped c i ⟨(c i).past, .acquire .write lock :: rest, true⟩
  | releases (lock : κ) (rest : List (Action κ)) (hrest : (c i).rest = .release lock :: rest) :
    Stepped c i ⟨(c i).past ++ [.release lock], rest, false⟩
  | reads (lock : κ) (rest : List (Action κ)) (hrest : (c i).rest = .acquire .read lock :: rest)
    (hopen : ¬ Queued c lock) : Stepped c i ⟨(c i).past ++ [.acquire .read lock], rest, false⟩
  | writes (lock : κ) (rest : List (Action κ)) (hrest : (c i).rest = .acquire .write lock :: rest)
    (hqueued : (c i).queued = true) (hfree : ∀ j, held lock (c j).past = none) :
    Stepped c i ⟨(c i).past ++ [.acquire .write lock], rest, false⟩

omit [DecidableEq ι] in
theorem stepped_next (h : CanStep c i) : Stepped c i (c i).next := by
  unfold CanStep at h
  unfold Thread.next
  cases hrest : (c i).rest with
  | nil =>
    rw [hrest] at h
    exact h.elim
  | cons a rest =>
    rw [hrest] at h
    match a with
    | .release lock => exact .releases lock rest hrest
    | .acquire .read lock => exact .reads lock rest hrest h.2
    | .acquire .write lock =>
      cases hqueued : (c i).queued with
      | false => exact .queues lock rest hrest hqueued
      | true =>
        rw [hqueued] at h
        exact .writes lock rest hrest hqueued (h.resolve_left Bool.noConfusion)

omit [DecidableEq κ] in
theorem Thread.program_next (t : Thread κ) : t.next.past ++ t.next.rest = t.past ++ t.rest := by
  unfold Thread.next
  split
  · rfl
  · split_ifs <;> simp_all
  · simp_all

omit [DecidableEq κ] in
/-- A thread never changes its actions. -/
theorem program_next {Rule : Config ι κ → ι → Prop} {programs : ι → List (Action κ)}
    (h : Reaches next Rule (start programs) c) (j : ι) : (c j).past ++ (c j).rest = programs j := by
  refine h.invariant (fun c => (c j).past ++ (c j).rest = programs j) rfl ?_
  intro c i hc _
  by_cases hj : j = i
  · subst hj
    rw [next_self, Thread.program_next]
    exact hc
  · rw [next_of_ne hj]
    exact hc

end Effects

/-! ### Deadlocks -/

section Deadlocks
variable {c : Config ι κ} {i : ι} {lock : κ}

omit [DecidableEq ι]

/-- In a deadlock every thread that is not finished is about to acquire something. -/
theorem Deadlocked.acquires (h : Deadlocked c) (hi : (c i).rest ≠ []) :
    ∃ mode lock, (c i).rest.head? = some (.acquire mode lock) := by
  have hstuck := h.2 i hi
  unfold CanStep at hstuck
  cases hrest : (c i).rest with
  | nil => exact absurd hrest hi
  | cons a rest =>
    rw [hrest] at hstuck
    cases a with
    | release lock => exact absurd trivial hstuck
    | acquire mode lock => exact ⟨mode, lock, rfl⟩

/-- A reader waits for a writer that holds the lock or is queued for it. -/
theorem Deadlocked.busy_of_reader (h : Deadlocked c)
    (hi : (c i).rest.head? = some (.acquire .read lock)) :
    (∃ j, held lock (c j).past = some .write) ∨ Queued c lock := by
  have hstuck := h.2 i (List.ne_nil_of_mem (List.mem_of_mem_head? hi))
  rw [canStep_reader hi] at hstuck
  by_contra hfree
  rw [not_or, not_exists] at hfree
  exact hstuck hfree

/-- A writer waits for anyone who holds the lock. -/
theorem Deadlocked.busy_of_writer (h : Deadlocked c)
    (hi : (c i).rest.head? = some (.acquire .write lock)) : ∃ j, held lock (c j).past ≠ none := by
  have hstuck := h.2 i (List.ne_nil_of_mem (List.mem_of_mem_head? hi))
  rw [canStep_writer hi, not_or, not_forall] at hstuck
  exact hstuck.2

end Deadlocks

end Kerosene.Lib.Locks
