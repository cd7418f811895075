import Kerosene.Lib.Inplace
import Kerosene.Lib.Tables

/-! Transactions that read first and write later, run concurrently on one store.

A transaction names the keys it reads, one step each, and computes from what it
saw either an error or a batch of writes, applied in one step. Between its reads
and its writes other transactions may take steps. A write is *undisturbed* when
the values it was computed from are still the stored ones.

`serializable`: when every write of a run is undisturbed, the store ends as if
the committed transactions had run one after the other in the order of their
writes. `stamp_unique`: when every write also raises a stamp that the
transaction had to find, no stamp of a key admits two commits. -/
namespace Kerosene.Lib.Optimistic

open Inplace Tables

variable {κ ν ε ρ ι : Type} [DecidableEq κ] [DecidableEq ι]

structure Txn (κ ν ε ρ : Type) where
  reads : List κ
  body : List (Option ν) → Except ε (List (κ × ν) × ρ)

/-- A transaction nobody interrupts. -/
def Txn.exec (t : Txn κ ν ε ρ) : EStateM ε (Table κ ν) ρ := fun store =>
  match t.body (t.reads.map store.lookup) with
  | .error e => .error e store
  | .ok (writes, result) => .ok result (insertAll store writes)

/-! ### Interleavings -/

/-- How far a transaction has come. -/
inductive Phase (ν ε ρ : Type) where
  | reading (seen : List (Option ν))
  | done (outcome : Except ε ρ)
  deriving DecidableEq

structure Config (κ ν ε ρ ι : Type) where
  store : Table κ ν
  phase : ι → Phase ν ε ρ

/-- Nothing has been read yet. -/
def Config.start (store : Table κ ν) : Config κ ν ε ρ ι := ⟨store, fun _ => .reading []⟩

section Run
variable (txn : ι → Txn κ ν ε ρ)

/-- One step of transaction `i`: its next read, or everything after its last read. -/
def step (i : ι) (c : Config κ ν ε ρ ι) : Config κ ν ε ρ ι :=
  match c.phase i with
  | .done _ => c
  | .reading seen =>
    match (txn i).reads[seen.length]? with
    | some k =>
      { c with phase := Function.update c.phase i (.reading (seen ++ [c.store.lookup k])) }
    | none =>
      match (txn i).body seen with
      | .error e => { c with phase := Function.update c.phase i (.done (.error e)) }
      | .ok (writes, result) =>
        ⟨insertAll c.store writes, Function.update c.phase i (.done (.ok result))⟩

/-- Steps in the order of a schedule. -/
def run : List ι → Config κ ν ε ρ ι → Config κ ν ε ρ ι
  | [], c => c
  | i :: rest, c => run rest (step txn i c)

/-- The next step of `i` writes: it has read everything, and this is its result. -/
def Commits (c : Config κ ν ε ρ ι) (i : ι) (seen : List (Option ν)) (writes : List (κ × ν))
    (result : ρ) : Prop :=
  c.phase i = .reading seen ∧ (txn i).reads.length ≤ seen.length ∧
    (txn i).body seen = .ok (writes, result)

/-- If the next step of `i` writes, what it has read is still stored. -/
def Undisturbed (c : Config κ ν ε ρ ι) (i : ι) : Prop :=
  ∀ seen writes result, Commits txn c i seen writes result →
    seen = (txn i).reads.map c.store.lookup

/-- A rule for every step of a schedule, in the configuration it is taken in. -/
def Always (Rule : Config κ ν ε ρ ι → ι → Prop) : List ι → Config κ ν ε ρ ι → Prop
  | [], _ => True
  | i :: rest, c => Rule c i ∧ Always Rule rest (step txn i c)

end Run

def Succeeded (c : Config κ ν ε ρ ι) (i : ι) : Prop := ∃ result, c.phase i = .done (.ok result)

/-! ### What a step can do -/

section Step
variable {txn : ι → Txn κ ν ε ρ} {c : Config κ ν ε ρ ι} {i : ι}

theorem step_cases (txn : ι → Txn κ ν ε ρ) (c : Config κ ν ε ρ ι) (i : ι) :
    (∃ seen writes result, Commits txn c i seen writes result ∧
      step txn i c = ⟨insertAll c.store writes, Function.update c.phase i (.done (.ok result))⟩) ∨
    ((step txn i c).store = c.store ∧ ∀ j, Succeeded (step txn i c) j ↔ Succeeded c j) := by
  unfold step
  cases hp : c.phase i with
  | done outcome => exact .inr ⟨rfl, fun _ => Iff.rfl⟩
  | reading seen =>
    -- A phase that is not a success before and after the step changes nobody's success.
    have hkeep : ∀ p : Phase ν ε ρ, (∀ result, p ≠ .done (.ok result)) → ∀ j,
        Succeeded ({ c with phase := Function.update c.phase i p } : Config κ ν ε ρ ι) j ↔
          Succeeded c j := by
      intro p hne j
      by_cases hj : j = i
      · subst hj
        simp [Succeeded, hp, hne]
      · simp [Succeeded, Function.update_of_ne hj]
    cases hk : (txn i).reads[seen.length]? with
    | some k =>
      simp only [hk]
      exact .inr ⟨trivial, hkeep _ (by simp)⟩
    | none =>
      cases hb : (txn i).body seen with
      | error e =>
        simp only [hk, hb]
        exact .inr ⟨trivial, hkeep _ (by simp)⟩
      | ok r =>
        simp only [hk, hb]
        exact .inl ⟨seen, r.1, r.2, ⟨hp, List.getElem?_eq_none_iff.mp hk, hb⟩, rfl⟩

omit [DecidableEq κ] in
theorem succeeded_update {store : Table κ ν} {result : ρ} {j : ι} :
    Succeeded (⟨store, Function.update c.phase i (.done (.ok result))⟩ : Config κ ν ε ρ ι) j ↔
      j = i ∨ Succeeded c j := by
  by_cases hj : j = i
  · subst hj
    simp [Succeeded]
  · simp [Succeeded, hj]

omit [DecidableEq κ] [DecidableEq ι] in
theorem Commits.not_succeeded {seen : List (Option ν)} {writes : List (κ × ν)} {result : ρ}
    (h : Commits txn c i seen writes result) : ¬ Succeeded c i := by
  intro hsucceeded
  obtain ⟨r, hr⟩ := hsucceeded
  rw [h.1] at hr
  cases hr

omit [DecidableEq ι] in
/-- An undisturbed write is what the transaction would do at once. -/
theorem Commits.exec {seen : List (Option ν)} {writes : List (κ × ν)} {result : ρ}
    (h : Commits txn c i seen writes result) (hu : Undisturbed txn c i) :
    (txn i).exec c.store = .ok result (insertAll c.store writes) := by
  have hbody := h.2.2
  rw [hu seen writes result h] at hbody
  unfold Txn.exec
  rw [hbody]

end Step

/-- What one step preserves under a rule, a run that obeys the rule preserves. -/
theorem run_invariant {txn : ι → Txn κ ν ε ρ} {Rule : Config κ ν ε ρ ι → ι → Prop}
    {Inv : Config κ ν ε ρ ι → Prop} (hstep : ∀ c i, Inv c → Rule c i → Inv (step txn i c))
    (schedule : List ι) (c : Config κ ν ε ρ ι) (hc : Inv c) (h : Always txn Rule schedule c) :
    Inv (run txn schedule c) := by
  induction schedule generalizing c with
  | nil => exact hc
  | cons i rest ih => exact ih _ (hstep c i hc h.1) h.2

theorem Always.mono {txn : ι → Txn κ ν ε ρ} {Rule Rule' : Config κ ν ε ρ ι → ι → Prop}
    (hrule : ∀ c i, Rule c i → Rule' c i) {schedule : List ι} {c : Config κ ν ε ρ ι}
    (h : Always txn Rule schedule c) : Always txn Rule' schedule c := by
  induction schedule generalizing c with
  | nil => trivial
  | cons i rest ih => exact ⟨hrule c i h.1, ih h.2⟩

/-! ### Serializability -/

/-- From any configuration: the transactions that succeed from here on, in the
order of their writes. -/
theorem serial_order (txn : ι → Txn κ ν ε ρ) (schedule : List ι) (c : Config κ ν ε ρ ι)
    (h : Always txn (Undisturbed txn) schedule c) :
    ∃ order : List ι, order.Nodup ∧ (∀ i ∈ order, ¬ Succeeded c i) ∧
      (∀ i, Succeeded (run txn schedule c) i ↔ i ∈ order ∨ Succeeded c i) ∧
      replay (fun i => (txn i).exec) order c.store = .ok () (run txn schedule c).store := by
  induction schedule generalizing c with
  | nil => exact ⟨[], List.nodup_nil, by simp, by simp [run], rfl⟩
  | cons i rest ih =>
    obtain ⟨order, hnodup, hfresh, hmem, hreplay⟩ := ih _ h.2
    rcases step_cases txn c i with ⟨seen, writes, result, hcommit, hstep⟩ | ⟨hstore, hsucc⟩
    · rw [hstep] at hfresh hmem hreplay
      simp only [succeeded_update] at hfresh hmem
      refine ⟨i :: order, ?_, ?_, ?_, ?_⟩
      · exact List.nodup_cons.mpr ⟨fun hi => hfresh i hi (.inl rfl), hnodup⟩
      · intro j hj
        rcases List.mem_cons.mp hj with rfl | hj
        · exact hcommit.not_succeeded
        · exact fun hs => hfresh j hj (.inr hs)
      · intro j
        rw [run, hstep, hmem, List.mem_cons]
        tauto
      · rw [replay_cons_ok, run, hstep]
        exact ⟨result, _, hcommit.exec h.1, hreplay⟩
    · rw [hstore] at hreplay
      simp only [hsucc] at hfresh hmem
      exact ⟨order, hnodup, hfresh, hmem, hreplay⟩

/-- **Undisturbed writes are serializable**: the store ends as if the transactions
that succeeded had run one after the other. -/
theorem serializable (txn : ι → Txn κ ν ε ρ) (schedule : List ι) (store : Table κ ν)
    (h : Always txn (Undisturbed txn) schedule (.start store)) :
    ∃ order : List ι, order.Nodup ∧
      (∀ i, i ∈ order ↔ Succeeded (run txn schedule (.start store)) i) ∧
      replay (fun i => (txn i).exec) order store = .ok () (run txn schedule (.start store)).store := by
  obtain ⟨order, hnodup, _, hmem, hreplay⟩ := serial_order txn schedule _ h
  refine ⟨order, hnodup, fun i => ?_, hreplay⟩
  rw [hmem]
  simp [Succeeded, Config.start]

/-! ### Stamps -/

/-- If the next step of `i` writes, no stamp falls, and every stamp that `i`
expects is found and raised. -/
def Raises (txn : ι → Txn κ ν ε ρ) (stamp : Option ν → ℕ) (expects : ι → κ → ℕ → Prop)
    (c : Config κ ν ε ρ ι) (i : ι) : Prop :=
  ∀ seen writes result, Commits txn c i seen writes result →
    (∀ k, stamp (c.store.lookup k) ≤ stamp ((insertAll c.store writes).lookup k)) ∧
    ∀ k n, expects i k n → stamp (c.store.lookup k) = n ∧
      n < stamp ((insertAll c.store writes).lookup k)

omit [DecidableEq ι] in
/-- It is enough that every write raises the stamp of what it replaces. -/
theorem raises_of_writes {txn : ι → Txn κ ν ε ρ} {stamp : Option ν → ℕ}
    {expects : ι → κ → ℕ → Prop} {c : Config κ ν ε ρ ι} {i : ι}
    (h : ∀ seen writes result, Commits txn c i seen writes result →
      (∀ k v, (k, v) ∈ writes → stamp (c.store.lookup k) < stamp (some v)) ∧
      ∀ k n, expects i k n → stamp (c.store.lookup k) = n ∧ k ∈ writes.map Prod.fst) :
    Raises txn stamp expects c i := by
  intro seen writes result hcommit
  obtain ⟨hwrites, hexpects⟩ := h seen writes result hcommit
  constructor
  · intro k
    rcases lookup_insertAll c.store writes k with ⟨_, hl⟩ | ⟨v, hv, hl⟩ <;> rw [hl]
    exact (hwrites k v hv).le
  · intro k n hk
    obtain ⟨hn, hmem⟩ := hexpects k n hk
    rcases lookup_insertAll c.store writes k with ⟨hnot, _⟩ | ⟨v, hv, hl⟩
    · exact absurd hmem hnot
    · rw [hl, ← hn]
      exact ⟨rfl, hwrites k v hv⟩

/-- The stamps that commits expected are used up, each by one transaction. -/
structure Spent (stamp : Option ν → ℕ) (expects : ι → κ → ℕ → Prop) (c : Config κ ν ε ρ ι) :
    Prop where
  passed : ∀ i k n, Succeeded c i → expects i k n → n < stamp (c.store.lookup k)
  unique : ∀ i j k n, Succeeded c i → Succeeded c j → expects i k n → expects j k n → i = j

theorem Spent.step {txn : ι → Txn κ ν ε ρ} {stamp : Option ν → ℕ} {expects : ι → κ → ℕ → Prop}
    (c : Config κ ν ε ρ ι) (i : ι) (h : Spent stamp expects c)
    (hrule : Raises txn stamp expects c i) : Spent stamp expects (step txn i c) := by
  rcases step_cases txn c i with ⟨seen, writes, result, hcommit, hstep⟩ | ⟨hstore, hsucc⟩
  · obtain ⟨hmono, hexpect⟩ := hrule seen writes result hcommit
    -- Whoever succeeded before cannot have expected what `i` finds now.
    have hother : ∀ j k n, Succeeded c j → expects j k n → ¬ expects i k n := by
      intro j k n hj hjk hik
      exact absurd (h.passed j k n hj hjk) ((hexpect k n hik).1 ▸ lt_irrefl _)
    rw [hstep]
    constructor
    · intro j k n hj hjk
      rcases succeeded_update.mp hj with rfl | hj
      · exact (hexpect k n hjk).2
      · exact (h.passed j k n hj hjk).trans_le (hmono k)
    · intro j j' k n hj hj' hjk hjk'
      rcases succeeded_update.mp hj with rfl | hold <;>
        rcases succeeded_update.mp hj' with rfl | hold'
      · rfl
      · exact absurd hjk (hother j' k n hold' hjk')
      · exact absurd hjk' (hother j k n hold hjk)
      · exact h.unique j j' k n hold hold' hjk hjk'
  · constructor
    · intro j k n hj hjk
      rw [hstore]
      exact h.passed j k n ((hsucc j).mp hj) hjk
    · intro j j' k n hj hj' hjk hjk'
      exact h.unique j j' k n ((hsucc j).mp hj) ((hsucc j').mp hj') hjk hjk'

/-- **A stamp admits one commit.** -/
theorem stamp_unique {txn : ι → Txn κ ν ε ρ} {stamp : Option ν → ℕ} {expects : ι → κ → ℕ → Prop}
    {schedule : List ι} {store : Table κ ν}
    (h : Always txn (Raises txn stamp expects) schedule (.start store)) {i j : ι} {k : κ} {n : ℕ}
    (hi : Succeeded (run txn schedule (.start store)) i)
    (hj : Succeeded (run txn schedule (.start store)) j)
    (hik : expects i k n) (hjk : expects j k n) : i = j := by
  have hstart : Spent stamp expects (Config.start store : Config κ ν ε ρ ι) := by
    constructor <;> simp [Succeeded, Config.start]
  exact (run_invariant Spent.step schedule _ hstart h).unique i j k n hi hj hik hjk

end Kerosene.Lib.Optimistic
