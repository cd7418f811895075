import Kerosene.Lib.Locks

/-! The locks of a service, and when its calls can deadlock.

`readiness` locks the lifecycle while it reads the membership, and
`advance_after_authentication` reads the membership while it has locked the
lifecycle. Two readers do not stand in each other's way, but a writer queued for the
membership comes between them: the second read waits for the writer, the writer for
the first read, and the first reader for the lifecycle (`three_calls_deadlock`). There
is no other deadlock: a run in which this is never brought about does not end in one
(`deadlock_free_of_untangled`). -/
namespace Kerosene.Node

open Lib.Interleave Lib.Locks

inductive NodeLock where
  | membership
  | lifecycle
  | activePeers
  deriving DecidableEq, Repr

/-! ### The calls as sequences of lock actions -/

/-- A lock read within one statement. -/
def reading (lock : NodeLock) : List (Action NodeLock) := [.acquire .read lock, .release lock]

/-- A lock written, or a mutex locked, and released before any other is taken. -/
def writing (lock : NodeLock) : List (Action NodeLock) := [.acquire .write lock, .release lock]

namespace Locking

def expirePeers : List (Action NodeLock) := writing .activePeers

/-- The membership is read to the end of the function. -/
def readiness : List (Action NodeLock) :=
  expirePeers ++ [.acquire .read .membership] ++ reading .activePeers ++ writing .lifecycle ++
    [.release .membership]

def activateIfQuorum : List (Action NodeLock) := readiness ++ writing .lifecycle

/-- The lifecycle is locked to the end of the function. -/
def advanceAfterAuthentication : List (Action NodeLock) :=
  [.acquire .write .lifecycle] ++ reading .membership ++ [.release .lifecycle]

def authenticate : List (Action NodeLock) := reading .membership

/-- Refused before the membership was looked at; refused by it, or not stored;
admitted. -/
def admitPeer : List (List (Action NodeLock)) := [
  [],
  authenticate,
  authenticate ++ writing .activePeers ++ advanceAfterAuthentication ++ activateIfQuorum]

/-- Known already; refused, or not appended; accepted. -/
def acceptMembership : List (List (Action NodeLock)) := [
  reading .membership,
  reading .membership ++ reading .membership,
  reading .membership ++ reading .membership ++ writing .membership ++ activateIfQuorum]

/-- Not verified; not syncing, or not saved; saved. -/
def verifyStateSnapshot : List (List (Action NodeLock)) := [
  [],
  writing .lifecycle,
  writing .lifecycle ++ activateIfQuorum]

end Locking

inductive Operation where
  | readiness
  | observePeer
  | exchangeHello
  | acceptMembership
  | verifyStateSnapshot
  deriving DecidableEq, Repr

/-- The ways through an operation. -/
def Operation.paths : Operation → List (List (Action NodeLock))
  | .readiness => [Locking.readiness]
  | .observePeer => Locking.admitPeer
  | .exchangeHello => Locking.admitPeer
  | .acceptMembership => Locking.acceptMembership
  | .verifyStateSnapshot => Locking.verifyStateSnapshot

/-! ### Places in a call -/

def isRelease : Action NodeLock → Bool
  | .release _ => true
  | .acquire .. => false

/-- What a call that holds a lock does next. -/
structure Disciplined (past rest : List (Action NodeLock)) : Prop where
  peers : held .activePeers past ≠ none → rest.head?.any isRelease
  writer : held .membership past = some .write → rest.head?.any isRelease
  reader : held .membership past = some .read → rest.head?.any isRelease ∨
    rest.head? = some (.acquire .read .activePeers) ∨ rest.head? = some (.acquire .write .lifecycle)
  locked : held .lifecycle past ≠ none → rest.head?.any isRelease ∨
    rest.head? = some (.acquire .read .membership)
  mutex : rest.head? ≠ some (.acquire .read .lifecycle)
  once : held .membership past ≠ none → rest.head? ≠ some (.acquire .read .membership)
  fresh : held .lifecycle past ≠ none → rest.head? = some (.acquire .read .membership) →
    past.getLast? = some (.acquire .write .lifecycle)

/-- At every place of every way through an operation. -/
theorem disciplined {past rest : List (Action NodeLock)} {op : Operation}
    (h : past ++ rest ∈ op.paths) : Disciplined past rest := by
  have hall : ∀ p ∈ op.paths, ∀ n ≤ p.length,
      (held .activePeers (p.take n) ≠ none → (p.drop n).head?.any isRelease) ∧
      (held .membership (p.take n) = some .write → (p.drop n).head?.any isRelease) ∧
      (held .membership (p.take n) = some .read → (p.drop n).head?.any isRelease ∨
        (p.drop n).head? = some (.acquire .read .activePeers) ∨
        (p.drop n).head? = some (.acquire .write .lifecycle)) ∧
      (held .lifecycle (p.take n) ≠ none → (p.drop n).head?.any isRelease ∨
        (p.drop n).head? = some (.acquire .read .membership)) ∧
      (p.drop n).head? ≠ some (.acquire .read .lifecycle) ∧
      (held .membership (p.take n) ≠ none →
        (p.drop n).head? ≠ some (.acquire .read .membership)) ∧
      (held .lifecycle (p.take n) ≠ none → (p.drop n).head? = some (.acquire .read .membership) →
        (p.take n).getLast? = some (.acquire .write .lifecycle)) := by
    cases op <;> decide
  have hplace := hall _ h past.length (by simp)
  rw [List.take_left, List.drop_left] at hplace
  obtain ⟨hpeers, hwriter, hreader, hlocked, hmutex, honce, hfresh⟩ := hplace
  exact ⟨hpeers, hwriter, hreader, hlocked, hmutex, honce, hfresh⟩

/-! ### The tangle -/

section Tangle
variable {ι : Type} (c : Config ι NodeLock)

/-- A call holds the lifecycle and is about to read the membership. -/
def Advancing : Prop :=
  ∃ j, held .lifecycle (c j).past ≠ none ∧
    (c j).rest.head? = some (.acquire .read .membership)

/-- A call reads the membership and has yet to lock the lifecycle before it is done. -/
def Reporting : Prop :=
  ∃ j, held .membership (c j).past = some .read ∧
    .acquire .write .lifecycle ∈ (c j).rest.takeWhile (· ≠ .release .membership)

/-- A call that queues for the membership does not come between one that is advancing
and one that is reporting, and a call does not lock the lifecycle to read the
membership when a writer is queued and one is reporting. -/
def Untangled (i : ι) : Prop :=
  ((c i).rest.head? = some (.acquire .write .membership) → (c i).queued = false →
    ¬ (Advancing c ∧ Reporting c)) ∧
  ((c i).rest.take 2 = [.acquire .write .lifecycle, .acquire .read .membership] →
    (c i).queued = true → ¬ (Queued c .membership ∧ Reporting c))

/-- The three together. -/
def Tangled : Prop := Queued c .membership ∧ Advancing c ∧ Reporting c

section Decidable
variable [Fintype ι]

instance : Decidable (Advancing c) :=
  inferInstanceAs (Decidable (∃ j, held .lifecycle (c j).past ≠ none ∧
    (c j).rest.head? = some (.acquire .read .membership)))

instance : Decidable (Reporting c) :=
  inferInstanceAs (Decidable (∃ j, held .membership (c j).past = some .read ∧
    .acquire .write .lifecycle ∈ (c j).rest.takeWhile (· ≠ .release .membership)))

instance (i : ι) : Decidable (Untangled c i) :=
  inferInstanceAs (Decidable
    (((c i).rest.head? = some (.acquire .write .membership) → (c i).queued = false →
      ¬ (Advancing c ∧ Reporting c)) ∧
    ((c i).rest.take 2 = [.acquire .write .lifecycle, .acquire .read .membership] →
      (c i).queued = true → ¬ (Queued c .membership ∧ Reporting c))))

end Decidable

end Tangle

/-! ### Deadlocks are tangles -/

section Deadlock
variable {ι : Type} {c : Config ι NodeLock}
  (hplaced : ∀ i, Disciplined (c i).past (c i).rest) (hdead : Deadlocked c)

include hplaced hdead

omit hplaced in
theorem not_releasing (i : ι) : (c i).rest.head?.any isRelease = false := by
  by_cases hi : (c i).rest = []
  · rw [hi]
    rfl
  · obtain ⟨mode, lock, hhead⟩ := hdead.acquires hi
    rw [hhead]
    rfl

/-- Whoever holds the active peers is about to release them. -/
theorem peers_free (i : ι) : held .activePeers (c i).past = none := by
  by_contra h
  have hrelease := (hplaced i).peers h
  rw [not_releasing hdead i] at hrelease
  cases hrelease

theorem peers_not_wanted (i : ι) (mode : Mode) :
    (c i).rest.head? ≠ some (.acquire mode .activePeers) := by
  have hwriter : ∀ j, (c j).rest.head? ≠ some (.acquire .write .activePeers) := by
    intro j hj
    obtain ⟨k, hk⟩ := hdead.busy_of_writer hj
    exact hk (peers_free hplaced hdead k)
  intro hi
  cases mode with
  | write => exact hwriter i hi
  | read =>
    rcases hdead.busy_of_reader hi with ⟨k, hk⟩ | ⟨k, _, hk⟩
    · rw [peers_free hplaced hdead k] at hk
      cases hk
    · exact hwriter k hk

theorem not_writing (i : ι) : held .membership (c i).past ≠ some .write := by
  intro h
  have hrelease := (hplaced i).writer h
  rw [not_releasing hdead i] at hrelease
  cases hrelease

/-- Whoever holds the lifecycle is about to read the membership. -/
theorem locked_reads {i : ι} (h : held .lifecycle (c i).past ≠ none) :
    (c i).rest.head? = some (.acquire .read .membership) := by
  have hnext := (hplaced i).locked h
  rw [not_releasing hdead i] at hnext
  exact hnext.resolve_left Bool.noConfusion

/-- Whoever holds the membership reads it and is about to lock the lifecycle. -/
theorem reader_locks {i : ι} (h : held .membership (c i).past ≠ none) :
    held .membership (c i).past = some .read ∧
      (c i).rest.head? = some (.acquire .write .lifecycle) := by
  have hread : held .membership (c i).past = some .read := by
    cases hmode : held .membership (c i).past with
    | none => exact absurd hmode h
    | some mode =>
      cases mode with
      | read => rfl
      | write => exact absurd hmode (not_writing hplaced hdead i)
  have hnext := (hplaced i).reader hread
  rw [not_releasing hdead i] at hnext
  rcases hnext with hrelease | hpeers | hlifecycle
  · cases hrelease
  · exact absurd hpeers (peers_not_wanted hplaced hdead i .read)
  · exact ⟨hread, hlifecycle⟩

/-- A queued writer waits for a reader, the reader for the lifecycle, and the call that
holds it for the membership. -/
theorem tangled_of_queued (h : Queued c .membership) : Tangled c := by
  have hwriter := h
  obtain ⟨q, _, hq⟩ := hwriter
  obtain ⟨j, hj⟩ := hdead.busy_of_writer hq
  obtain ⟨hread, hlifecycle⟩ := reader_locks hplaced hdead hj
  obtain ⟨k, hk⟩ := hdead.busy_of_writer hlifecycle
  obtain ⟨rest, hrest⟩ := List.head?_eq_some_iff.mp hlifecycle
  refine ⟨h, ⟨k, hk, locked_reads hplaced hdead hk⟩, j, hread, ?_⟩
  rw [hrest, List.takeWhile_cons_of_pos (by decide)]
  exact List.mem_cons_self

theorem queued_of_reader {i : ι} (h : (c i).rest.head? = some (.acquire .read .membership)) :
    Queued c .membership := by
  refine (hdead.busy_of_reader h).resolve_left fun hwriter => ?_
  obtain ⟨j, hj⟩ := hwriter
  exact not_writing hplaced hdead j hj

/-- There is no other deadlock. -/
theorem tangled_of_deadlocked : Tangled c := by
  obtain ⟨i, hi⟩ := hdead.1
  obtain ⟨mode, lock, hhead⟩ := hdead.acquires hi
  refine tangled_of_queued hplaced hdead ?_
  cases lock with
  | activePeers => exact absurd hhead (peers_not_wanted hplaced hdead i mode)
  | membership =>
    cases mode with
    | read => exact queued_of_reader hplaced hdead hhead
    | write =>
      obtain ⟨j, hj⟩ := hdead.busy_of_writer hhead
      obtain ⟨_, hlifecycle⟩ := reader_locks hplaced hdead hj
      obtain ⟨k, hk⟩ := hdead.busy_of_writer hlifecycle
      exact queued_of_reader hplaced hdead (locked_reads hplaced hdead hk)
  | lifecycle =>
    cases mode with
    | read => exact absurd hhead (hplaced i).mutex
    | write =>
      obtain ⟨k, hk⟩ := hdead.busy_of_writer hhead
      exact queued_of_reader hplaced hdead (locked_reads hplaced hdead hk)

end Deadlock

/-! ### Runs without a tangle -/

section Runs
variable {ι : Type} [DecidableEq ι] {c : Config ι NodeLock} {i : ι}

/-- A writer becomes queued for the membership by queueing for it. -/
theorem queued_next (hstep : CanStep c i) (h : Queued (next i c) .membership) :
    Queued c .membership ∨
      ((c i).rest.head? = some (.acquire .write .membership) ∧ (c i).queued = false) := by
  obtain ⟨q, hqueued, hhead⟩ := h
  by_cases hq : q = i
  · rw [hq, next_self] at hqueued hhead
    have hstepped := stepped_next hstep
    generalize (c i).next = t at hstepped hqueued hhead
    cases hstepped with
    | queues lock rest hrest hnot =>
      rw [hrest]
      exact .inr ⟨hhead, hnot⟩
    | releases => cases hqueued
    | reads => cases hqueued
    | writes => cases hqueued
  · rw [next_of_ne hq] at hqueued hhead
    exact .inl ⟨q, hqueued, hhead⟩

/-- A call becomes advancing by locking the lifecycle. -/
theorem advancing_next (hplaced : Disciplined (next i c i).past (next i c i).rest)
    (hstep : CanStep c i) (h : Advancing (next i c)) :
    Advancing c ∨
      ((c i).rest.take 2 = [.acquire .write .lifecycle, .acquire .read .membership] ∧
        (c i).queued = true) := by
  obtain ⟨a, hheld, hhead⟩ := h
  by_cases ha : a = i
  · rw [ha] at hheld hhead
    have hlast := hplaced.fresh hheld hhead
    rw [next_self] at hhead hlast
    have hstepped := stepped_next hstep
    generalize (c i).next = t at hstepped hhead hlast
    cases hstepped with
    | queues lock rest hrest => cases hhead
    | releases lock rest hrest => simp at hlast
    | reads lock rest hrest => simp at hlast
    | writes lock rest hrest hqueued =>
      have hlock : lock = .lifecycle := by simpa using hlast
      obtain ⟨rest', rfl⟩ := List.head?_eq_some_iff.mp hhead
      rw [hrest, hlock]
      exact .inr ⟨rfl, hqueued⟩
  · rw [next_of_ne ha] at hheld hhead
    exact .inl ⟨a, hheld, hhead⟩

/-- A call becomes reporting by reading the membership, and no writer is queued then. -/
theorem reporting_next (hstep : CanStep c i) (h : Reporting (next i c)) :
    Reporting c ∨ ((c i).rest.head? = some (.acquire .read .membership) ∧
      ¬ Queued c .membership) := by
  obtain ⟨r, hheld, hmem⟩ := h
  by_cases hr : r = i
  · rw [hr, next_self] at hheld hmem
    have hstepped := stepped_next hstep
    generalize (c i).next = t at hstepped hheld hmem
    cases hstepped with
    | queues lock rest hrest =>
      refine .inl ⟨i, hheld, ?_⟩
      rw [hrest]
      exact hmem
    | releases lock rest hrest =>
      have hlock : lock ≠ .membership := by
        intro hlock
        rw [held_append_singleton, heldAfter, if_pos hlock] at hheld
        cases hheld
      rw [held_append_singleton, heldAfter, if_neg hlock] at hheld
      refine .inl ⟨i, hheld, ?_⟩
      rw [hrest, List.takeWhile_cons_of_pos (by simpa using hlock)]
      exact List.mem_cons_of_mem _ hmem
    | reads lock rest hrest hopen =>
      by_cases hlock : lock = .membership
      · rw [hrest, hlock]
        exact .inr ⟨rfl, hlock ▸ hopen⟩
      · rw [held_append_singleton, heldAfter, if_neg hlock] at hheld
        refine .inl ⟨i, hheld, ?_⟩
        rw [hrest, List.takeWhile_cons_of_pos (by simp)]
        exact List.mem_cons_of_mem _ hmem
    | writes lock rest hrest =>
      have hlock : lock ≠ .membership := by
        intro hlock
        rw [held_append_singleton, heldAfter, if_pos hlock] at hheld
        cases hheld
      rw [held_append_singleton, heldAfter, if_neg hlock] at hheld
      refine .inl ⟨i, hheld, ?_⟩
      rw [hrest, List.takeWhile_cons_of_pos (by simp)]
      exact List.mem_cons_of_mem _ hmem
  · rw [next_of_ne hr] at hheld hmem
    exact .inl ⟨r, hheld, hmem⟩

/-- An untangled step brings no tangle about. -/
theorem not_tangled_next (hplaced : Disciplined (next i c i).past (next i c i).rest)
    (h : ¬ Tangled c) (hstep : CanStep c i) (hi : Untangled c i) : ¬ Tangled (next i c) := by
  intro htangled
  obtain ⟨hqueued, hadvancing, hreporting⟩ := htangled
  rcases queued_next hstep hqueued with hqueued | ⟨hhead, hnot⟩
  · have hreporting := (reporting_next hstep hreporting).resolve_right fun hread =>
      hread.2 hqueued
    rcases advancing_next hplaced hstep hadvancing with hadvancing | ⟨htake, hwaiting⟩
    · exact h ⟨hqueued, hadvancing, hreporting⟩
    · exact hi.2 htake hwaiting ⟨hqueued, hreporting⟩
  · obtain ⟨rest, hrest⟩ := List.head?_eq_some_iff.mp hhead
    refine hi.1 hhead hnot ⟨?_, ?_⟩
    · refine (advancing_next hplaced hstep hadvancing).resolve_right fun hlock => ?_
      rw [hrest] at hlock
      exact absurd hlock.1 (by simp)
    · refine (reporting_next hstep hreporting).resolve_right fun hread => ?_
      rw [hhead] at hread
      exact absurd hread.1 (by simp)

/-- While a writer is queued and a call is advancing, one that is reporting stays so. -/
theorem reporting_stays {r : ι} (hplaced : Disciplined (c r).past (c r).rest)
    (hadvancing : Advancing c) (hheld : held .membership (c r).past = some .read)
    (hmem : .acquire .write .lifecycle ∈ (c r).rest.takeWhile (· ≠ .release .membership))
    (hstep : CanStep c r) : Reporting (next r c) := by
  obtain ⟨a, hlocked, _⟩ := hadvancing
  have hstepped := stepped_next hstep
  unfold Reporting
  refine ⟨r, ?_⟩
  rw [next_self]
  generalize (c r).next = t at hstepped ⊢
  cases hstepped with
  | queues lock rest hrest =>
    rw [hrest] at hmem
    exact ⟨hheld, hmem⟩
  | releases lock rest hrest =>
    rw [hrest] at hmem
    have hlock : lock ≠ .membership := by
      intro hlock
      rw [hlock, List.takeWhile_cons_of_neg (by simp)] at hmem
      cases hmem
    rw [List.takeWhile_cons_of_pos (by simpa using hlock)] at hmem
    rw [held_append_singleton, heldAfter, if_neg hlock]
    exact ⟨hheld, List.mem_of_ne_of_mem (by simp) hmem⟩
  | reads lock rest hrest =>
    rw [hrest, List.takeWhile_cons_of_pos (by simp)] at hmem
    have hlock : lock ≠ .membership := by
      intro hlock
      refine hplaced.once (by rw [hheld]; simp) ?_
      rw [hrest, hlock]
      rfl
    rw [held_append_singleton, heldAfter, if_neg hlock]
    exact ⟨hheld, List.mem_of_ne_of_mem (by simp) hmem⟩
  | writes lock rest hrest _ hfree =>
    rw [hrest, List.takeWhile_cons_of_pos (by simp)] at hmem
    have hlock : lock ≠ .membership := by
      intro hlock
      have hnone := hfree r
      rw [hlock, hheld] at hnone
      cases hnone
    have hother : lock ≠ .lifecycle := fun hlock => hlocked (hlock ▸ hfree a)
    rw [held_append_singleton, heldAfter, if_neg hlock]
    exact ⟨hheld, List.mem_of_ne_of_mem (by simpa using hother.symm) hmem⟩

/-- A tangle is never undone: none of its three calls gets further than its wait. -/
theorem tangled_next (hplaced : ∀ j, Disciplined (c j).past (c j).rest) (h : Tangled c)
    (hstep : CanStep c i) : Tangled (next i c) := by
  have htangle := h
  obtain ⟨⟨q, hqueued, hwants⟩, ⟨a, hlocked, hreads⟩, r, hheld, hmem⟩ := htangle
  have hq : q ≠ i := by
    intro hq
    rw [← hq, canStep_writer hwants, hqueued] at hstep
    have hnone := hstep.resolve_left Bool.noConfusion r
    rw [hheld] at hnone
    cases hnone
  have ha : a ≠ i := by
    intro ha
    rw [← ha, canStep_reader hreads] at hstep
    exact hstep.2 h.1
  refine ⟨⟨q, ?_⟩, ⟨a, ?_⟩, ?_⟩
  · rw [next_of_ne hq]
    exact ⟨hqueued, hwants⟩
  · rw [next_of_ne ha]
    exact ⟨hlocked, hreads⟩
  · by_cases hr : r = i
    · subst hr
      exact reporting_stays (hplaced r) h.2.1 hheld hmem hstep
    · refine ⟨r, ?_⟩
      rw [next_of_ne hr]
      exact ⟨hheld, hmem⟩

variable {programs : ι → List (Action NodeLock)}

/-- At every moment of a run each call is at some place of a way through its operation. -/
theorem placed_of_reaches (hprograms : ∀ i, ∃ op : Operation, programs i ∈ op.paths)
    {Rule : Config ι NodeLock → ι → Prop} (h : Reaches next Rule (start programs) c) (j : ι) :
    Disciplined (c j).past (c j).rest := by
  obtain ⟨op, hop⟩ := hprograms j
  rw [← program_next h j] at hop
  exact disciplined hop

theorem not_tangled_of_reaches (hprograms : ∀ i, ∃ op : Operation, programs i ∈ op.paths)
    (h : Reaches next (fun c i => CanStep c i ∧ Untangled c i) (start programs) c) :
    ¬ Tangled c := by
  induction h with
  | start =>
    intro htangled
    obtain ⟨⟨q, hqueued, _⟩, _⟩ := htangled
    cases hqueued
  | step hbefore i hi ih =>
    have hplaced := placed_of_reaches hprograms (.step hbefore i hi) i
    exact not_tangled_next hplaced ih hi.1 hi.2

/-- **No deadlock without a tangle.** For any number of concurrent calls, each on any
way through its operation, and any interleaving whose steps are untangled: no
configuration reached is a deadlock. -/
theorem deadlock_free_of_untangled (hprograms : ∀ i, ∃ op : Operation, programs i ∈ op.paths)
    (hrun : Reaches next (fun c i => CanStep c i ∧ Untangled c i) (start programs) c) :
    ¬ Deadlocked c := fun hdead =>
  not_tangled_of_reaches hprograms hrun
    (tangled_of_deadlocked (placed_of_reaches hprograms hrun) hdead)

end Runs

/-! ### Three calls -/

/-- A report, a peer that is admitted and a manifest that is accepted. -/
def threeCalls : Fin 3 → List (Action NodeLock) := ![
  Locking.readiness,
  Locking.authenticate ++ writing .activePeers ++ Locking.advanceAfterAuthentication ++
    Locking.activateIfQuorum,
  reading .membership ++ reading .membership ++ writing .membership ++ Locking.activateIfQuorum]

theorem threeCalls_paths : ∀ i, ∃ op : Operation, threeCalls i ∈ op.paths := by
  intro i
  fin_cases i
  · exact ⟨.readiness, by decide⟩
  · exact ⟨.observePeer, by decide⟩
  · exact ⟨.acceptMembership, by decide⟩

/-- The peer's call up to where it has locked the lifecycle, the manifest's up to
where it is to queue for the membership, and the report up to where it waits for the
lifecycle. -/
def threeCallsSchedule : List (Fin 3) :=
  [1, 1, 1, 1, 1, 1, 1, 2, 2, 2, 2, 0, 0, 0, 0, 0, 0, 0]

theorem deadlock_free_of_untangled_three :
    ¬ Deadlocked (follow next threeCallsSchedule (start threeCalls)) :=
  deadlock_free_of_untangled threeCalls_paths (reaches_follow (by decide +kernel))

/-- One more step, by which the writer queues, and no call can go on. -/
theorem three_calls_deadlock :
    (∀ i, ∃ op : Operation, threeCalls i ∈ op.paths) ∧
      ∃ c, Reaches next CanStep (start threeCalls) c ∧ Deadlocked c := by
  refine ⟨threeCalls_paths, follow next (threeCallsSchedule ++ [2]) (start threeCalls), ?_, ?_⟩
  · exact reaches_follow (by decide +kernel)
  · decide +kernel

end Kerosene.Node
