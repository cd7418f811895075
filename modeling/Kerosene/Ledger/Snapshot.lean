import Kerosene.Ledger.Certificate

/-! Stores of certified snapshots (`snapshot.rs`, and the one of `persistent.rs`).

Replication sees a store through `SnapshotStore`: the latest snapshot it has, and
the state it makes of a snapshot. The store in memory is one of these. -/
namespace Kerosene.Ledger

open Lib.Encode Lib.Inplace Lib.Keyed Lib.Tables QuorumCertificate

/-- What a node that recovers asks of a store. -/
structure SnapshotStore where
  latestSnapshot : Except LedgerError (Option CertifiedSnapshot)
  installSnapshot : CertifiedSnapshot → Except LedgerError LedgerState

structure InMemorySnapshotStore where
  snapshots : Table UInt64 CertifiedSnapshot
  latestSequence : UInt64

namespace InMemorySnapshotStore

def new : InMemorySnapshotStore := ⟨∅, 0⟩

def saveSnapshot (x : Crypto) (snapshot : CertifiedSnapshot) :
    EStateM LedgerError InMemorySnapshotStore Unit := do
  check (snapshot.verifyBasic x)
  modify fun inner => { inner with snapshots := inner.snapshots.insert snapshot.sequence snapshot }
  let inner ← get
  if snapshot.sequence > inner.latestSequence then
    set { inner with latestSequence := snapshot.sequence }

def latestSnapshot (store : InMemorySnapshotStore) : Option CertifiedSnapshot :=
  store.snapshots.lookup store.latestSequence

def getSnapshot (store : InMemorySnapshotStore) (sequence : UInt64) : Option CertifiedSnapshot :=
  store.snapshots.lookup sequence

/-- The state is checked against the root the snapshot carries, not against the
roots of its certificate. -/
def installSnapshot (x : Crypto) (json : Json LedgerState) (snapshot : CertifiedSnapshot) :
    Except LedgerError LedgerState := do
  snapshot.verifyBasic x
  let state ← (json.fromSlice snapshot.stateBytes).mapError fun e =>
    .invalidSignature ("failed to deserialize snapshot state: " ++ e)
  let computedRoot := computeStateRoot x state
  refuse (computedRoot ≠ snapshot.stateRoot) (.stateRootMismatch computedRoot snapshot.stateRoot)
  return state

def toStore (x : Crypto) (json : Json LedgerState) (store : InMemorySnapshotStore) :
    SnapshotStore where
  latestSnapshot := .ok store.latestSnapshot
  installSnapshot := installSnapshot x json

/-- A snapshot saved at the highest sequence so far is the latest. -/
theorem latestSnapshot_saveSnapshot {x : Crypto} {snapshot : CertifiedSnapshot}
    {store : InMemorySnapshotStore} (hbasic : snapshot.verifyBasic x = .ok ())
    (hle : store.latestSequence ≤ snapshot.sequence) :
    (after (saveSnapshot x snapshot) store).latestSnapshot = some snapshot := by
  have hinsert := Finmap.lookup_insert (a := snapshot.sequence) (b := snapshot) store.snapshots
  by_cases hlt : snapshot.sequence > store.latestSequence
  · have hsaved : saveSnapshot x snapshot store = .ok ()
        ⟨store.snapshots.insert snapshot.sequence snapshot, snapshot.sequence⟩ := by
      simp [saveSnapshot, bind_def, hbasic, hlt]
    rw [after_ok hsaved]
    exact hinsert
  · have hsaved : saveSnapshot x snapshot store = .ok ()
        ⟨store.snapshots.insert snapshot.sequence snapshot, store.latestSequence⟩ := by
      simp [saveSnapshot, bind_def, hbasic, hlt]
    have hsame : store.latestSequence = snapshot.sequence :=
      UInt64.le_antisymm hle (UInt64.not_lt.mp hlt)
    rw [after_ok hsaved, hsame]
    exact hinsert

theorem toStore_installSnapshot (x : Crypto) (json : Json LedgerState)
    (store : InMemorySnapshotStore) :
    (store.toStore x json).installSnapshot = installSnapshot x json := rfl

theorem installSnapshot_ok {x : Crypto} {json : Json LedgerState} {snapshot : CertifiedSnapshot}
    {s : LedgerState} :
    installSnapshot x json snapshot = .ok s ↔
      snapshot.verifyBasic x = .ok () ∧ json.fromSlice snapshot.stateBytes = .ok s ∧
        computeStateRoot x s = snapshot.stateRoot := by
  rw [installSnapshot, except_then_ok, except_bind_ok]
  simp only [except_then_ok, mapError_eq_ok, refuse_ok, not_not]
  constructor
  · intro h
    obtain ⟨hbasic, t, hparse, hroot, hs⟩ := h
    cases hs
    exact ⟨hbasic, hparse, hroot⟩
  · intro h
    exact ⟨h.1, s, h.2.1, h.2.2, rfl⟩

end InMemorySnapshotStore

/-- Statement for statement the one of the store in memory: the database is not
read. -/
def SledSnapshotStore.installSnapshot (x : Crypto) (json : Json LedgerState)
    (snapshot : CertifiedSnapshot) : Except LedgerError LedgerState :=
  InMemorySnapshotStore.installSnapshot x json snapshot

/-! ### A store with one snapshot -/

/-- The JSON text of a state that has nothing but accounts and nodes. -/
def LedgerState.jsonText (s : LedgerState) : String :=
  "\x7b\"version\":" ++ toString s.version ++
    ",\"accounts\":[" ++ String.intercalate "," (s.accounts.map AccountState.jsonText) ++
    "],\"journal\":[],\"reservations\":[],\"consumed_intents\":[],\"membership\":" ++
    "\x7b\"cluster_id\":\"" ++ s.membership.clusterId ++ "\",\"nodes\":[" ++
    String.intercalate "," (s.membership.nodes.map fun n => "\"" ++ n ++ "\"") ++
    "],\"active_profile\":\"Single\"\x7d,\"utxos\":[]\x7d"

theorem LedgerState.utf8_jsonText_ne_nil (s : LedgerState) : utf8 s.jsonText ≠ [] := by
  intro h
  have hempty : s.jsonText = "" := utf8_inj.mp (h.trans utf8_empty.symm)
  unfold LedgerState.jsonText at hempty
  have hlast := (String.append_eq_empty_iff.mp hempty).2
  exact absurd hlast (by decide)

/-- JSON of one state. -/
def Json.ofState (s : LedgerState) : Json LedgerState :=
  .recorded [(s, utf8 s.jsonText)] (List.nodup_singleton _)

theorem Json.fromSlice_ofState (s : LedgerState) :
    (Json.ofState s).fromSlice (utf8 s.jsonText) = .ok s := by
  apply (Json.ofState s).fromSlice_toVec
  simp [Json.ofState, Json.recorded, find]

/-- A snapshot of a state, certified by one node. -/
def CertifiedSnapshot.nodeOne (s : LedgerState) (epoch sequence : UInt64) : CertifiedSnapshot where
  clusterId := "cluster-1"
  epoch
  sequence
  stateBytes := utf8 s.jsonText
  stateRoot := computeStateRoot nodeOneCrypto s
  membershipHash := computeMembershipHash nodeOneCrypto s.membership
  constitutionHash := "const-hash"
  policyHash := "policy-hash"
  ledgerTotalsHash := "totals-hash"
  utxoSetRoot := "utxo-root"
  consumedIntentsRoot := "intents-root"
  quorumCertificate := nodeOneCertificate

theorem CertifiedSnapshot.verifyBasic_nodeOne (s : LedgerState) (epoch sequence : UInt64) :
    (CertifiedSnapshot.nodeOne s epoch sequence).verifyBasic nodeOneCrypto = .ok () := by
  have hcluster : "cluster-1" ≠ "" := by decide
  have hroot := computeStateRoot_ne_empty nodeOneCrypto s
  simp only [CertifiedSnapshot.verifyBasic, except_then_ok, refuse_ok, verifyBasic_ok]
  exact ⟨hcluster, hroot, s.utf8_jsonText_ne_nil, verified_nodeOne⟩

namespace SnapshotStore

/-- A store the snapshot was saved in. -/
def nodeOne (s : LedgerState) (epoch sequence : UInt64) : SnapshotStore :=
  InMemorySnapshotStore.toStore nodeOneCrypto (.ofState s)
    (after (InMemorySnapshotStore.saveSnapshot nodeOneCrypto (.nodeOne s epoch sequence)) .new)

variable (s : LedgerState) (epoch sequence : UInt64)

theorem latestSnapshot_nodeOne :
    (nodeOne s epoch sequence).latestSnapshot = .ok (some (.nodeOne s epoch sequence)) := by
  have hlatest := InMemorySnapshotStore.latestSnapshot_saveSnapshot
    (CertifiedSnapshot.verifyBasic_nodeOne s epoch sequence)
    (show InMemorySnapshotStore.new.latestSequence ≤ _ from UInt64.zero_le)
  exact congrArg Except.ok hlatest

theorem installSnapshot_nodeOne :
    (nodeOne s epoch sequence).installSnapshot (.nodeOne s epoch sequence) = .ok s := by
  rw [nodeOne, InMemorySnapshotStore.toStore_installSnapshot,
    InMemorySnapshotStore.installSnapshot_ok]
  refine ⟨CertifiedSnapshot.verifyBasic_nodeOne s epoch sequence, ?_, rfl⟩
  simp only [CertifiedSnapshot.nodeOne, Json.fromSlice_ofState]

end SnapshotStore

end Kerosene.Ledger
