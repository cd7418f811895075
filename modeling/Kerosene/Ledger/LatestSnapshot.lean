import Kerosene.Lib.Records
import Kerosene.Ledger.Persistent
import Kerosene.Ledger.Snapshot

/-! Which snapshot is the latest.

Snapshots may be saved in any order. The store in memory keeps a running maximum of the
sequences; the one in the database writes a marker with every snapshot, whatever the
marker said before. `IsLatest` is what both are for: of the snapshots accepted, the last
with the greatest sequence. -/
namespace Kerosene.Ledger

open Lib.Encode Lib.Inplace Lib.Keyed Lib.Records Lib.Tables QuorumCertificate

/-! ### The store in the database -/

namespace SledSnapshotStore

def prefixSnapshot : Bytes := utf8 "snap:"

def keyLatestSnapshot : Bytes := utf8 "snap:latest_seq"

def snapshotKey (sequence : UInt64) : Bytes := prefixSnapshot ++ le64 sequence

variable (x : Crypto) (json : Json CertifiedSnapshot)

/-- One batch writes the snapshot and the marker. -/
def saveSnapshot (snapshot : CertifiedSnapshot) : Sled.Update Unit := do
  check (snapshot.verifyBasic x)
  let bytes ← check (json.serialize snapshot)
  modify fun db => insertAll db
    [(snapshotKey snapshot.sequence, bytes), (keyLatestSnapshot, le64 snapshot.sequence)]

def getSnapshot (sequence : UInt64) : Sled.Update (Option CertifiedSnapshot) :=
  Sled.read json (snapshotKey sequence)

def latestSnapshot : Sled.Update (Option CertifiedSnapshot) := do
  let db ← get
  match db.lookup keyLatestSnapshot with
  | some bytes => do
    let sequence ← check (okOr (ofLe64 bytes) (.invariantViolation "invalid latest sequence"))
    getSnapshot json sequence
  | none => return none

/-- A snapshot that passes the checks and can be serialized. -/
def accepts (snapshot : CertifiedSnapshot) : Bool :=
  (snapshot.verifyBasic x).isOk && (json.serialize snapshot).isOk

/-- A key of a snapshot is shorter than the marker's. -/
theorem snapshotKey_ne (sequence : UInt64) : snapshotKey sequence ≠ keyLatestSnapshot := by
  intro h
  have hlength := congrArg List.length h
  rw [snapshotKey, List.length_append, le64_length] at hlength
  exact absurd hlength (by decide)

end SledSnapshotStore

/-! ### The latest of those accepted -/

/-- The last one with the greatest sequence, if there is any. -/
def IsLatest (accepted : List CertifiedSnapshot) : Option CertifiedSnapshot → Prop
  | none => accepted = []
  | some s => ∃ before later, accepted = before ++ s :: later ∧
      (∀ b ∈ before, b.sequence ≤ s.sequence) ∧ ∀ a ∈ later, a.sequence < s.sequence

theorem IsLatest.append_of_le {accepted : List CertifiedSnapshot} {s : CertifiedSnapshot}
    (h : ∀ b ∈ accepted, b.sequence ≤ s.sequence) : IsLatest (accepted ++ [s]) (some s) :=
  ⟨accepted, [], rfl, h, fun _ ha => absurd ha List.not_mem_nil⟩

theorem IsLatest.append_of_lt {accepted : List CertifiedSnapshot} {s t : CertifiedSnapshot}
    (h : IsLatest accepted (some s)) (ht : t.sequence < s.sequence) :
    IsLatest (accepted ++ [t]) (some s) := by
  obtain ⟨before, later, rfl, hbefore, hlater⟩ := h
  refine ⟨before, later ++ [t], by simp, hbefore, fun a ha => ?_⟩
  rcases List.mem_append.mp ha with ha | ha
  · exact hlater a ha
  · rw [List.mem_singleton.mp ha]
    exact ht

theorem IsLatest.sequence_le {accepted : List CertifiedSnapshot} {s : CertifiedSnapshot}
    (h : IsLatest accepted (some s)) {a : CertifiedSnapshot} (ha : a ∈ accepted) :
    a.sequence ≤ s.sequence := by
  obtain ⟨before, later, rfl, hbefore, hlater⟩ := h
  rcases List.mem_append.mp ha with hb | hs
  · exact hbefore a hb
  · rcases List.mem_cons.mp hs with rfl | hl
    · exact UInt64.le_refl _
    · exact UInt64.le_of_lt (hlater a hl)

/-! ### In memory -/

namespace InMemorySnapshotStore

/-- The running maximum is the sequence of the latest snapshot. -/
structure Tracks (accepted : List CertifiedSnapshot) (store : InMemorySnapshotStore) : Prop where
  latest : IsLatest accepted store.latestSnapshot
  le : ∀ a ∈ accepted, a.sequence ≤ store.latestSequence
  sequence : ∀ s, store.latestSnapshot = some s → s.sequence = store.latestSequence
  zero : store.latestSnapshot = none → store.latestSequence = 0

/-- The store with a snapshot that passed the checks. -/
def saved (store : InMemorySnapshotStore) (snapshot : CertifiedSnapshot) : InMemorySnapshotStore where
  snapshots := store.snapshots.insert snapshot.sequence snapshot
  latestSequence :=
    if snapshot.sequence > store.latestSequence then snapshot.sequence else store.latestSequence

variable {x : Crypto} {snapshot : CertifiedSnapshot} {store : InMemorySnapshotStore}

theorem saveSnapshot_eq :
    saveSnapshot x snapshot store =
      match snapshot.verifyBasic x with
      | .ok _ => .ok () (store.saved snapshot)
      | .error e => .error e store := by
  cases hbasic : snapshot.verifyBasic x with
  | error e => simp [saveSnapshot, bind_def, hbasic]
  | ok u =>
    by_cases hlt : snapshot.sequence > store.latestSequence
    · simp [saveSnapshot, saved, bind_def, hbasic, hlt]
    · simp [saveSnapshot, saved, bind_def, hbasic, hlt]

theorem Tracks.saved {accepted : List CertifiedSnapshot} (h : Tracks accepted store)
    (snapshot : CertifiedSnapshot) : Tracks (accepted ++ [snapshot]) (store.saved snapshot) := by
  by_cases hle : store.latestSequence ≤ snapshot.sequence
  · -- The snapshot is now the latest: all before it are at most the old maximum.
    have hsequence : (store.saved snapshot).latestSequence = snapshot.sequence := by
      rw [InMemorySnapshotStore.saved]
      split
      · rfl
      · rename_i hgt
        exact UInt64.le_antisymm hle (UInt64.not_lt.mp hgt)
    have hnow : (store.saved snapshot).latestSnapshot = some snapshot := by
      rw [latestSnapshot, hsequence]
      exact Finmap.lookup_insert _
    have hbefore : ∀ b ∈ accepted, b.sequence ≤ snapshot.sequence := fun b hb =>
      UInt64.le_trans (h.le b hb) hle
    refine ⟨?_, fun a ha => ?_, fun s hs => ?_, fun hnone => ?_⟩
    · rw [hnow]
      exact IsLatest.append_of_le hbefore
    · rw [hsequence]
      rcases List.mem_append.mp ha with ha | ha
      · exact hbefore a ha
      · rw [List.mem_singleton.mp ha]
        exact UInt64.le_refl _
    · rw [hnow] at hs
      cases hs
      exact hsequence.symm
    · rw [hnow] at hnone
      cases hnone
  · -- The maximum stands, and there is a snapshot at it because it is not 0.
    have hlt : snapshot.sequence < store.latestSequence := UInt64.not_le.mp hle
    have hsequence : (store.saved snapshot).latestSequence = store.latestSequence := by
      rw [InMemorySnapshotStore.saved, if_neg (UInt64.not_lt.mpr (UInt64.le_of_lt hlt))]
    have hsame : (store.saved snapshot).latestSnapshot = store.latestSnapshot := by
      rw [latestSnapshot, hsequence]
      exact Finmap.lookup_insert_of_ne _ (UInt64.ne_of_lt hlt).symm
    refine ⟨?_, fun a ha => ?_, ?_, ?_⟩
    · rw [hsame]
      cases hlast : store.latestSnapshot with
      | none =>
        rw [h.zero hlast] at hlt
        exact absurd hlt UInt64.not_lt_zero
      | some s =>
        have hs := h.latest
        rw [hlast] at hs
        refine hs.append_of_lt ?_
        rw [h.sequence s hlast]
        exact hlt
    · rw [hsequence]
      rcases List.mem_append.mp ha with ha | ha
      · exact h.le a ha
      · rw [List.mem_singleton.mp ha]
        exact UInt64.le_of_lt hlt
    · rw [hsame, hsequence]
      exact h.sequence
    · rw [hsame, hsequence]
      exact h.zero

theorem tracks_run (x : Crypto) (l : List CertifiedSnapshot) :
    Tracks (succeeded (saveSnapshot x) l new) (run (saveSnapshot x) l new) := by
  have hnew : Tracks [] new :=
    ⟨rfl, fun _ ha => absurd ha List.not_mem_nil, fun _ hs => (nomatch hs), fun _ => rfl⟩
  refine history_invariant (fun accepted store c u store' h hsave => ?_)
    (fun accepted store c e store' h hsave => ?_) l hnew
  · rw [saveSnapshot_eq] at hsave
    cases hbasic : c.verifyBasic x with
    | error e => simp [hbasic] at hsave
    | ok u =>
      simp only [hbasic, EStateM.Result.ok.injEq] at hsave
      rw [← hsave.2]
      exact h.saved c
  · rw [saveSnapshot_eq] at hsave
    cases hbasic : c.verifyBasic x with
    | ok u => simp [hbasic] at hsave
    | error e =>
      simp only [hbasic, EStateM.Result.error.injEq] at hsave
      rw [← hsave.2]
      exact h

end InMemorySnapshotStore

/-! ### In the database -/

namespace SledSnapshotStore

variable {x : Crypto} {json : Json CertifiedSnapshot}

/-- The database with a snapshot's bytes and the marker at its sequence. -/
def saved (db : Db) (snapshot : CertifiedSnapshot) (bytes : Bytes) : Db :=
  insertAll db
    [(snapshotKey snapshot.sequence, bytes), (keyLatestSnapshot, le64 snapshot.sequence)]

theorem saveSnapshot_ok {snapshot : CertifiedSnapshot} {db db' : Db} {u : Unit} :
    saveSnapshot x json snapshot db = .ok u db' ↔ ∃ bytes, snapshot.verifyBasic x = .ok () ∧
      json.serialize snapshot = .ok bytes ∧ db' = saved db snapshot bytes := by
  cases hbasic : snapshot.verifyBasic x with
  | error e => simp [saveSnapshot, bind_def, hbasic]
  | ok u =>
    cases hbytes : json.serialize snapshot with
    | error e => simp [saveSnapshot, bind_def, hbasic, hbytes]
    | ok bytes => simp [saveSnapshot, saved, bind_def, hbasic, hbytes, eq_comm]

theorem saveSnapshot_error {snapshot : CertifiedSnapshot} {db db' : Db} {e : LedgerError}
    (h : saveSnapshot x json snapshot db = .error e db') : db' = db := by
  cases hbasic : snapshot.verifyBasic x with
  | error e => simp_all [saveSnapshot, bind_def]
  | ok u =>
    cases hbytes : json.serialize snapshot with
    | error e => simp_all [saveSnapshot, bind_def]
    | ok bytes => simp [saveSnapshot, bind_def, hbasic, hbytes] at h

theorem accepts_iff (snapshot : CertifiedSnapshot) (db : Db) :
    (∃ u db', saveSnapshot x json snapshot db = .ok u db') ↔ accepts x json snapshot = true := by
  simp only [saveSnapshot_ok]
  rw [accepts, Bool.and_eq_true]
  cases snapshot.verifyBasic x <;> cases json.serialize snapshot <;>
    simp [Except.isOk, Except.toBool]

/-- What the database answers is what was accepted last. -/
def AnswersLast (json : Json CertifiedSnapshot) (accepted : List CertifiedSnapshot) (db : Db) :
    Prop :=
  outcome (latestSnapshot json) db = .ok accepted.getLast?

theorem latestSnapshot_saved {snapshot : CertifiedSnapshot} {bytes : Bytes}
    (h : json.serialize snapshot = .ok bytes) (db : Db) :
    outcome (latestSnapshot json) (saved db snapshot bytes) = .ok (some snapshot) := by
  have hmarker : (saved db snapshot bytes).lookup keyLatestSnapshot =
      some (le64 snapshot.sequence) := Finmap.lookup_insert _
  have hkey : (saved db snapshot bytes).lookup (snapshotKey snapshot.sequence) = some bytes := by
    rw [saved, insertAll_cons, insertAll_cons, insertAll_nil,
      Finmap.lookup_insert_of_ne _ (snapshotKey_ne snapshot.sequence), Finmap.lookup_insert]
  simp [-bind_pure_comp, outcome, latestSnapshot, getSnapshot, Sled.read, bind_def, hmarker, hkey,
    okOr, ofLe64_le64, json.deserialize_serialize h]

theorem answersLast_run (x : Crypto) (json : Json CertifiedSnapshot) (l : List CertifiedSnapshot) :
    AnswersLast json (l.filter (accepts x json)) (run (saveSnapshot x json) l ∅) := by
  have hempty : AnswersLast json [] ∅ := by
    simp [AnswersLast, outcome, latestSnapshot, bind_def]
  rw [← succeeded_eq_filter accepts_iff l ∅]
  refine history_invariant (fun accepted db c u db' h hsave => ?_)
    (fun accepted db c e db' h hsave => ?_) l hempty
  · obtain ⟨bytes, _, hbytes, rfl⟩ := saveSnapshot_ok.mp hsave
    rw [AnswersLast, latestSnapshot_saved hbytes, List.getLast?_concat]
  · rw [saveSnapshot_error hsave]
    exact h

end SledSnapshotStore

/-! ### Which of them answers the latest -/

/-- The last one accepted is the latest exactly when none is ahead of it. -/
theorem isLatest_getLast_iff (accepted : List CertifiedSnapshot) :
    IsLatest accepted accepted.getLast? ↔
      ∀ last ∈ accepted.getLast?, ∀ s ∈ accepted, s.sequence ≤ last.sequence := by
  rcases List.eq_nil_or_concat accepted with rfl | ⟨before, last, rfl⟩
  · exact iff_of_true rfl fun _ hlast => absurd hlast (by simp)
  · rw [List.concat_eq_append, List.getLast?_concat]
    constructor
    · intro h t ht s hs
      cases ht
      exact h.sequence_le hs
    · intro h
      refine IsLatest.append_of_le fun b hb => ?_
      exact h last rfl b (List.mem_append_left _ hb)

/-- **When the latest snapshot is the one of highest sequence.** In memory it always is.
In the database it is exactly when no accepted snapshot is ahead of the one accepted
last. -/
theorem latestSnapshot_highest_iff (x : Crypto) (json : Json CertifiedSnapshot)
    (l : List CertifiedSnapshot) :
    IsLatest (succeeded (InMemorySnapshotStore.saveSnapshot x) l .new)
        (run (InMemorySnapshotStore.saveSnapshot x) l .new).latestSnapshot ∧
      ((∃ o, outcome (SledSnapshotStore.latestSnapshot json)
            (run (SledSnapshotStore.saveSnapshot x json) l ∅) = .ok o ∧
          IsLatest (succeeded (SledSnapshotStore.saveSnapshot x json) l ∅) o) ↔
        ∀ last ∈ (l.filter (SledSnapshotStore.accepts x json)).getLast?,
          ∀ s ∈ l, SledSnapshotStore.accepts x json s = true → s.sequence ≤ last.sequence) := by
  refine ⟨(InMemorySnapshotStore.tracks_run x l).latest, ?_⟩
  have hanswer := SledSnapshotStore.answersLast_run x json l
  rw [SledSnapshotStore.AnswersLast] at hanswer
  rw [hanswer, succeeded_eq_filter SledSnapshotStore.accepts_iff]
  have hiff := isLatest_getLast_iff (l.filter (SledSnapshotStore.accepts x json))
  simp only [List.mem_filter, and_imp] at hiff
  rw [← hiff]
  constructor
  · intro h
    obtain ⟨o, ho, hlatest⟩ := h
    cases ho
    exact hlatest
  · intro h
    exact ⟨_, rfl, h⟩

/-! ### Two snapshots out of order -/

section Sample

/-- A list of numbers in JSON. -/
def jsonBytes (b : Bytes) : String := "[" ++ String.intercalate "," (b.map toString) ++ "]"

def NodeSignature.jsonText (sig : NodeSignature) : String :=
  "\x7b\"node_id\":\"" ++ sig.nodeId ++ "\",\"signature_hex\":\"" ++ sig.signatureHex ++
    "\",\"public_key_hex\":\"" ++ sig.publicKeyHex ++ "\"\x7d"

def QuorumCertificate.jsonText (qc : QuorumCertificate) : String :=
  "\x7b\"cluster_id\":\"" ++ qc.clusterId ++ "\",\"epoch\":" ++ toString qc.epoch ++
    ",\"view\":" ++ toString qc.view ++ ",\"sequence\":" ++ toString qc.sequence ++
    ",\"command_hash\":\"" ++ qc.commandHash ++
    "\",\"previous_state_root\":\"" ++ qc.previousStateRoot ++
    "\",\"resulting_state_root\":\"" ++ qc.resultingStateRoot ++
    "\",\"signer_bitmap\":" ++ jsonBytes qc.signerBitmap ++
    ",\"signatures\":[" ++ String.intercalate "," (qc.signatures.map NodeSignature.jsonText) ++
    "]\x7d"

/-- The JSON text of a snapshot whose texts need no escapes. -/
def CertifiedSnapshot.jsonText (s : CertifiedSnapshot) : String :=
  "\x7b\"cluster_id\":\"" ++ s.clusterId ++ "\",\"epoch\":" ++ toString s.epoch ++
    ",\"sequence\":" ++ toString s.sequence ++ ",\"state_bytes\":" ++ jsonBytes s.stateBytes ++
    ",\"state_root\":\"" ++ s.stateRoot ++ "\",\"membership_hash\":\"" ++ s.membershipHash ++
    "\",\"constitution_hash\":\"" ++ s.constitutionHash ++ "\",\"policy_hash\":\"" ++ s.policyHash ++
    "\",\"ledger_totals_hash\":\"" ++ s.ledgerTotalsHash ++
    "\",\"utxo_set_root\":\"" ++ s.utxoSetRoot ++
    "\",\"consumed_intents_root\":\"" ++ s.consumedIntentsRoot ++
    "\",\"quorum_certificate\":" ++ s.quorumCertificate.jsonText ++ "\x7d"

/-- A snapshot at a sequence. -/
def CertifiedSnapshot.taken (sequence : UInt64) : CertifiedSnapshot where
  clusterId := "cluster-1"
  epoch := 1
  sequence
  stateBytes := utf8 "state"
  stateRoot := "state-root"
  membershipHash := "membership-hash"
  constitutionHash := "const-hash"
  policyHash := "policy-hash"
  ledgerTotalsHash := "totals-hash"
  utxoSetRoot := "utxo-root"
  consumedIntentsRoot := "intents-root"
  quorumCertificate := nodeOneCertificate

theorem CertifiedSnapshot.verifyBasic_taken (sequence : UInt64) :
    (CertifiedSnapshot.taken sequence).verifyBasic nodeOneCrypto = .ok () := by
  simp only [CertifiedSnapshot.verifyBasic, except_then_ok, refuse_ok, verifyBasic_ok]
  have hcluster : "cluster-1" ≠ "" := by decide
  have hroot : "state-root" ≠ "" := by decide
  have hbytes : utf8 "state" ≠ [] := by decide
  exact ⟨hcluster, hroot, hbytes, verified_nodeOne⟩

def twoSnapshots : Json CertifiedSnapshot :=
  .recorded [(.taken 30, utf8 (CertifiedSnapshot.taken 30).jsonText),
    (.taken 20, utf8 (CertifiedSnapshot.taken 20).jsonText)] (by decide +kernel)

/-- An older snapshot saved after a newer one becomes the latest in the database. -/
theorem older_snapshot_becomes_latest :
    let saves := [CertifiedSnapshot.taken 30, CertifiedSnapshot.taken 20]
    succeeded (SledSnapshotStore.saveSnapshot nodeOneCrypto twoSnapshots) saves ∅ = saves ∧
      outcome (SledSnapshotStore.latestSnapshot twoSnapshots)
          (run (SledSnapshotStore.saveSnapshot nodeOneCrypto twoSnapshots) saves ∅) =
        .ok (some (.taken 20)) ∧
      ¬ IsLatest saves (some (.taken 20)) ∧
      (run (InMemorySnapshotStore.saveSnapshot nodeOneCrypto) saves .new).latestSnapshot =
        some (.taken 30) := by
  intro saves
  have hserialize : ∀ s ∈ saves, (twoSnapshots.serialize s).isOk = true := by decide +kernel
  have haccepts : ∀ s ∈ saves, SledSnapshotStore.accepts nodeOneCrypto twoSnapshots s = true := by
    intro s hs
    have hbasic : s.verifyBasic nodeOneCrypto = .ok () := by
      simp only [saves, List.mem_cons, List.not_mem_nil, or_false] at hs
      rcases hs with rfl | rfl <;> exact CertifiedSnapshot.verifyBasic_taken _
    rw [SledSnapshotStore.accepts, hbasic, hserialize s hs]
    rfl
  have hall : saves.filter (SledSnapshotStore.accepts nodeOneCrypto twoSnapshots) = saves :=
    List.filter_eq_self.mpr haccepts
  refine ⟨?_, ?_, ?_, ?_⟩
  · rw [succeeded_eq_filter SledSnapshotStore.accepts_iff, hall]
  · have hlast := SledSnapshotStore.answersLast_run nodeOneCrypto twoSnapshots saves
    rw [hall] at hlast
    exact hlast
  · intro h
    exact absurd (h.sequence_le (a := .taken 30) List.mem_cons_self) (by decide)
  · have hafter (store : InMemorySnapshotStore) (sequence : UInt64) :
        after (InMemorySnapshotStore.saveSnapshot nodeOneCrypto (.taken sequence)) store =
          store.saved (.taken sequence) := by
      apply after_ok (a := ())
      rw [InMemorySnapshotStore.saveSnapshot_eq, CertifiedSnapshot.verifyBasic_taken]
    rw [run, hafter, run, hafter]
    rfl

end Sample

end Kerosene.Ledger
