import Kerosene.Ledger.Crates
import Kerosene.Lib.Inplace

/-! The lifecycle of a node (`kerosene-sync`).

Ten states in a row; a lifecycle moves from one to the next and nowhere else. A
lifecycle carries the states it came through, linked one to the next, so one that
began at `created` has been in all of the states before its own
(`Lifecycle.path_eq`). -/
namespace Kerosene.Node

open Lib.Encode Lib.Inplace Ledger

inductive LifecycleState where
  | created
  | identityReady
  | transportReady
  | discovering
  | authenticated
  | memberVerified
  | syncing
  | stateVerified
  | eligible
  | active
  deriving DecidableEq, Repr

namespace LifecycleState

def next : LifecycleState → Option LifecycleState
  | created => some identityReady
  | identityReady => some transportReady
  | transportReady => some discovering
  | discovering => some authenticated
  | authenticated => some memberVerified
  | memberVerified => some syncing
  | syncing => some stateVerified
  | stateVerified => some eligible
  | eligible => some active
  | active => none

def debug : LifecycleState → String
  | created => "Created"
  | identityReady => "IdentityReady"
  | transportReady => "TransportReady"
  | discovering => "Discovering"
  | authenticated => "Authenticated"
  | memberVerified => "MemberVerified"
  | syncing => "Syncing"
  | stateVerified => "StateVerified"
  | eligible => "Eligible"
  | active => "Active"

/-- The states that come after a snapshot was verified. -/
def isStateVerified : LifecycleState → Bool
  | stateVerified | eligible | active => true
  | _ => false

/-- All states in their order. -/
def all : List LifecycleState :=
  [created, identityReady, transportReady, discovering, authenticated, memberVerified, syncing,
    stateVerified, eligible, active]

/-- The place of a state in the order. -/
def rank (s : LifecycleState) : ℕ := all.idxOf s

/-- The states up to this one. -/
def upTo (s : LifecycleState) : List LifecycleState := all.take (s.rank + 1)

theorem upTo_next {s t : LifecycleState} (h : s.next = some t) : t.upTo = s.upTo ++ [t] := by
  cases s <;> cases h <;> rfl

theorem next_inj {s s' t : LifecycleState} (h : s.next = some t) (h' : s'.next = some t) :
    s = s' := by
  cases s <;> cases h <;> cases s' <;> cases h' <;> rfl

theorem rank_next {s t : LifecycleState} (h : s.next = some t) : t.rank = s.rank + 1 := by
  cases s <;> cases h <;> rfl

end LifecycleState

inductive SyncError where
  | invalidTransition (origin target : LifecycleState)
  | stateRootMismatch
  | io (message : String)
  | json (message : String)
  | synchronization (message : String)
  deriving DecidableEq, Repr

def SyncError.display : SyncError → String
  | .invalidTransition origin target =>
    "invalid lifecycle transition from " ++ origin.debug ++ " to " ++ target.debug
  | .stateRootMismatch => "snapshot state root mismatch"
  | .io message => "lifecycle persistence failed: " ++ message
  | .json message => "lifecycle persistence is invalid: " ++ message
  | .synchronization message => "state synchronization failed: " ++ message

/-! ### The lifecycle -/

/-- A state, and the ones the lifecycle was in before it, oldest first. The source
keeps the state alone; the others are there to be reasoned about. -/
structure Lifecycle where
  state : LifecycleState
  visited : List LifecycleState
  linked : (visited ++ [state]).IsChain fun s t => s.next = some t

namespace Lifecycle

/-- A lifecycle with no past. -/
def ofState (state : LifecycleState) : Lifecycle := ⟨state, [], .singleton state⟩

instance : Inhabited Lifecycle := ⟨ofState .created⟩

/-- Every state so far, oldest first. -/
def path (l : Lifecycle) : List LifecycleState := l.visited ++ [l.state]

def advance (l : Lifecycle) (target : LifecycleState) : Except SyncError Lifecycle :=
  if h : l.state.next = some target then
    .ok { state := target
          visited := l.path
          linked := List.isChain_append.mpr ⟨l.linked, .singleton target, by simpa [path] using h⟩ }
  else .error (.invalidTransition l.state target)

/-- `advance` where the result is dropped: a failed move leaves the lifecycle as it
was. -/
def advanceOrStay (l : Lifecycle) (target : LifecycleState) : Lifecycle :=
  match l.advance target with
  | .ok l' => l'
  | .error _ => l

theorem advance_ok {l l' : Lifecycle} {target : LifecycleState} (h : l.advance target = .ok l') :
    l.state.next = some target ∧ l'.state = target ∧ l'.path = l.path ++ [target] := by
  unfold advance at h
  split at h
  case isTrue hnext =>
    cases h
    exact ⟨hnext, rfl, rfl⟩
  case isFalse => cases h

theorem advance_of_next {l : Lifecycle} {target : LifecycleState}
    (h : l.state.next = some target) : ∃ l', l.advance target = .ok l' ∧ l'.state = target := by
  unfold advance
  rw [dif_pos h]
  exact ⟨_, rfl, rfl⟩

/-- Linked states that begin at `created` are all the states up to the last one. -/
theorem path_eq {l : Lifecycle} (h : l.path.head? = some .created) : l.path = l.state.upTo := by
  obtain ⟨state, visited, linked⟩ := l
  unfold path at h ⊢
  dsimp only at h ⊢
  induction visited using List.reverseRecOn generalizing state with
  | nil =>
    cases h
    rfl
  | append_singleton before s ih =>
    obtain ⟨hbefore, _, hnext⟩ := List.isChain_append.mp linked
    have hlast : s.next = some state := hnext s (by simp) state (by simp)
    rw [List.head?_append_of_ne_nil _ (by simp)] at h
    rw [ih s hbefore h, LifecycleState.upTo_next hlast]

/-! ### Later lifecycles -/

/-- One lifecycle goes on from another: its past holds all of the other's. -/
def Later (l l' : Lifecycle) : Prop := l.path <+: l'.path

theorem Later.refl (l : Lifecycle) : l.Later l := List.prefix_refl _

theorem Later.trans {l l' l'' : Lifecycle} (h : l.Later l') (h' : l'.Later l'') : l.Later l'' :=
  List.IsPrefix.trans h h'

theorem Later.head? {l l' : Lifecycle} (h : l.Later l') : l'.path.head? = l.path.head? := by
  obtain ⟨rest, hrest⟩ := h
  rw [← hrest, List.head?_append_of_ne_nil _ (by simp [path])]

theorem later_of_advance {l l' : Lifecycle} {target : LifecycleState}
    (h : l.advance target = .ok l') : l.Later l' := ⟨[target], (advance_ok h).2.2.symm⟩

theorem later_advanceOrStay (l : Lifecycle) (target : LifecycleState) :
    l.Later (l.advanceOrStay target) := by
  unfold advanceOrStay
  split
  case h_1 l' h => exact later_of_advance h
  case h_2 => exact .refl l

/-- A move that can only be made from one state. -/
theorem state_advanceOrStay (l : Lifecycle) (origin : LifecycleState) {target : LifecycleState}
    (hnext : origin.next = some target) :
    (l.advanceOrStay target).state = if l.state = origin then target else l.state := by
  unfold advanceOrStay
  split
  case h_1 l' h =>
    obtain ⟨hstate, htarget, _⟩ := advance_ok h
    rw [if_pos (LifecycleState.next_inj hstate hnext), htarget]
  case h_2 e h =>
    rw [if_neg]
    intro horigin
    obtain ⟨l', hl', _⟩ := advance_of_next (horigin ▸ hnext)
    rw [hl'] at h
    cases h

end Lifecycle

/-! ### The file it is kept in -/

/-- What is at the path of a lifecycle store. -/
inductive LifecycleFile where
  | absent
  | unreadable (message : String)
  | invalid (message : String)
  | holds (state : LifecycleState)

def LifecycleFile.load : LifecycleFile → Except SyncError Lifecycle
  | .absent => .ok (.ofState .created)
  | .unreadable message => .error (.io message)
  | .invalid message => .error (.json message)
  | .holds state => .ok (.ofState state)

/-- The states a node passes by itself when it starts. -/
def LifecycleState.isBootstrap (s : LifecycleState) : Bool :=
  match s with
  | .created | .identityReady | .transportReady => true
  | _ => false

/-- The bootstrap loop, for at most `n` rounds. -/
def bootstrapRounds : ℕ → Lifecycle → Except SyncError Lifecycle
  | 0, l => .ok l
  | n + 1, l =>
    if l.state.isBootstrap then
      match l.state.next with
      | none => .ok l
      | some next => do
        let l ← l.advance next
        bootstrapRounds n l
    else .ok l

/-- Every round leaves one of three states for good, so three rounds are all there
are (`bootstrap_done`). -/
def bootstrapLocalLifecycle (l : Lifecycle) : Except SyncError Lifecycle := bootstrapRounds 3 l

theorem later_of_bootstrapRounds {n : ℕ} {l l' : Lifecycle}
    (h : bootstrapRounds n l = .ok l') : l.Later l' := by
  induction n generalizing l with
  | zero =>
    cases h
    exact .refl l'
  | succ n ih =>
    rw [bootstrapRounds] at h
    split at h
    · split at h
      · cases h
        exact .refl l'
      · obtain ⟨m, hm, hrest⟩ := except_bind_ok.mp h
        exact (Lifecycle.later_of_advance hm).trans (ih hrest)
    · cases h
      exact .refl l'

/-- The loop has ended when its rounds are used up: the node is at `discovering` or
where it was. -/
theorem bootstrapRounds_ok {n : ℕ} {l : Lifecycle} (h : l.state.isBootstrap → 3 ≤ l.state.rank + n) :
    ∃ l', bootstrapRounds n l = .ok l' ∧
      l'.state = if l.state.isBootstrap then .discovering else l.state := by
  induction n generalizing l with
  | zero =>
    refine ⟨l, rfl, ?_⟩
    revert h
    cases l.state <;> simp [LifecycleState.isBootstrap, LifecycleState.rank, LifecycleState.all]
  | succ n ih =>
    rw [bootstrapRounds]
    cases hb : l.state.isBootstrap with
    | false => exact ⟨l, rfl, rfl⟩
    | true =>
      have hnext : ∃ next, l.state.next = some next ∧
          (if next.isBootstrap then .discovering else next) = LifecycleState.discovering := by
        revert hb
        cases l.state <;> simp [LifecycleState.isBootstrap, LifecycleState.next]
      obtain ⟨next, hnext, hend⟩ := hnext
      obtain ⟨m, hm, hstate⟩ := Lifecycle.advance_of_next hnext
      have hrank := LifecycleState.rank_next hnext
      obtain ⟨l', hl', hfinal⟩ := ih (l := m) fun _ => by
        have hle := h hb
        rw [hstate]
        omega
      refine ⟨l', ?_, ?_⟩
      · rw [if_pos rfl, hnext]
        exact except_bind_ok.mpr ⟨m, hm, hl'⟩
      · rw [hfinal, hstate, if_pos rfl, hend]

theorem bootstrap_done (l : Lifecycle) : ∃ l', bootstrapLocalLifecycle l = .ok l' ∧ l.Later l' ∧
    l'.state = if l.state.isBootstrap then .discovering else l.state := by
  obtain ⟨l', hl', hstate⟩ := bootstrapRounds_ok (fun _ => Nat.le_add_left 3 l.state.rank)
  exact ⟨l', hl', later_of_bootstrapRounds hl', hstate⟩

/-! ### Snapshots -/

structure StateSnapshot where
  epoch : UInt64
  bytes : Bytes
  stateRoot : String
  deriving DecidableEq, Repr

def StateSnapshot.verify (x : Crypto) (snapshot : StateSnapshot) : Except SyncError Unit :=
  refuse (x.sha256Hex snapshot.bytes ≠ snapshot.stateRoot) .stateRootMismatch

end Kerosene.Node
