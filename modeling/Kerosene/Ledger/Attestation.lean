import Kerosene.Ledger.Snapshot
import Kerosene.Ledger.StateRoot

/-! What an installed snapshot can be trusted for.

A store compares the state it decodes with the root the snapshot carries. Nothing
compares that root, or the place the snapshot names, with the certificate inside:
`installSnapshot_attested_iff` says that a certificate that verifies vouches for any
state at any place. And nothing compares a journal entry with the hash it carries, which is
all of it that the root sees: `installSnapshot_journal_iff` says that a root binds
no journal but the empty one. -/
namespace Kerosene.Ledger

open Lib.Encode Lib.Inplace Lib.Keyed Lib.Commit QuorumCertificate InMemorySnapshotStore

/-! ### The certificate -/

/-- The certificate of a snapshot is about the state that was restored from it. -/
structure Attested (x : Crypto) (snapshot : CertifiedSnapshot) (s : LedgerState) : Prop where
  resultingStateRoot : snapshot.quorumCertificate.resultingStateRoot = computeStateRoot x s
  clusterId : snapshot.quorumCertificate.clusterId = snapshot.clusterId
  epoch : snapshot.quorumCertificate.epoch = snapshot.epoch
  sequence : snapshot.quorumCertificate.sequence = snapshot.sequence

/-- Under a certificate that verifies, any state is accepted at any place. -/
theorem installSnapshot_of_verified {x : Crypto} {json : Json LedgerState} {s : LedgerState}
    {text : Bytes} {snapshot : CertifiedSnapshot} (htext : json.toVec s = .ok text) (hne : text ≠ [])
    (hverify : snapshot.quorumCertificate.verifyBasic x = .ok ()) (hcluster : snapshot.clusterId ≠ "")
    (hbytes : snapshot.stateBytes = text) (hroot : snapshot.stateRoot = computeStateRoot x s) :
    InMemorySnapshotStore.installSnapshot x json snapshot = .ok s := by
  refine installSnapshot_ok.mpr ⟨?_, hbytes ▸ json.fromSlice_toVec htext, hroot.symm⟩
  simp only [CertifiedSnapshot.verifyBasic, except_then_ok, refuse_ok]
  exact ⟨hcluster, hroot ▸ computeStateRoot_ne_empty x s, hbytes ▸ hne, hverify⟩

/-- **When a certificate attests to the states installed under it.** In either store the
snapshots accepted with a certificate are all attested by it exactly when the certificate
does not verify, and so none is accepted. -/
theorem installSnapshot_attested_iff {x : Crypto} {json : Json LedgerState}
    (hjson : ∃ s text, json.toVec s = .ok text ∧ text ≠ []) (certificate : QuorumCertificate) :
    (∀ snapshot s, snapshot.quorumCertificate = certificate →
        (InMemorySnapshotStore.installSnapshot x json snapshot = .ok s ∨
          SledSnapshotStore.installSnapshot x json snapshot = .ok s) →
        Attested x snapshot s) ↔
      certificate.verifyBasic x ≠ .ok () := by
  constructor
  · intro hattested hverify
    obtain ⟨s, text, htext, hne⟩ := hjson
    -- The state is offered in the epoch after the one that was certified.
    let snapshot : CertifiedSnapshot :=
      { CertifiedSnapshot.nodeOne s (certificate.epoch + 1) certificate.sequence with
        stateBytes := text
        stateRoot := computeStateRoot x s
        quorumCertificate := certificate }
    have hcluster : snapshot.clusterId ≠ "" := by
      show "cluster-1" ≠ ""
      decide
    have hinstall : InMemorySnapshotStore.installSnapshot x json snapshot = .ok s :=
      installSnapshot_of_verified htext hne hverify hcluster rfl rfl
    have hepoch : certificate.epoch = certificate.epoch + 1 :=
      (hattested snapshot s rfl (.inl hinstall)).epoch
    have hone : (1 : UInt64) = 0 := left_eq_add.mp hepoch
    exact absurd hone (by decide)
  · intro hverify snapshot s hcertificate h
    have hinstall : InMemorySnapshotStore.installSnapshot x json snapshot = .ok s := h.elim id id
    obtain ⟨hbasic, _, _⟩ := installSnapshot_ok.mp hinstall
    simp only [CertifiedSnapshot.verifyBasic, except_then_ok] at hbasic
    exact absurd (hcertificate ▸ hbasic.2.2.2) hverify

/-- The state a cluster of one node starts from. -/
def firstState : LedgerState := .empty (.singleNode "cluster-1" "node-1")

/-- The root of the first state. -/
def firstStateRoot : String := "3999ef9277de04e5c56638fb7ae6368659d767d239b0c7b1b9a0aa37289e7f88"

/-- The node's signature of a certificate for the root of the first state. -/
def firstSignature : NodeSignature :=
  { QuorumCertificate.nodeOne with
    signatureHex := "782906387b2c3f1f029b4b43320e46ae252db0ab63b5e60a7d652698db051e38" ++
      "9c72b8b81f60f7a6c3813a2a0ce1cf5f75ba3dadcf01530e269befc442a04d0a" }

def firstCrypto : Crypto :=
  .recorded [(firstSignature.publicKeyHex,
    "6823e1bc521d7b5879c837457df5a801c11fc613dd25aa495ce4b2bd2f49cfe2",
    firstSignature.signatureHex)]

/-- A certificate signed for the root of the first state. -/
def firstCertificate : QuorumCertificate :=
  { nodeOneCertificate with
    resultingStateRoot := firstStateRoot
    signatures := [firstSignature] }

theorem verified_first : Verified firstCrypto firstCertificate where
  previousStateRoot := by decide
  resultingStateRoot := by decide
  commandHash := by decide
  signatures := by decide
  signerBitmap := by decide
  valid := by
    intro sig hsig
    rw [List.mem_singleton.mp hsig]
    exact ⟨by decide, by decide, verifySignature_ok.mp (by decide +kernel)⟩

def CertifiedSnapshot.first : CertifiedSnapshot :=
  { CertifiedSnapshot.nodeOne firstState 1 1 with
    stateRoot := firstStateRoot
    quorumCertificate := firstCertificate }

theorem installSnapshot_first :
    InMemorySnapshotStore.installSnapshot firstCrypto (.ofState firstState) .first =
      .ok firstState := by
  have hbasic : CertifiedSnapshot.first.verifyBasic firstCrypto = .ok () := by
    have hcluster : "cluster-1" ≠ "" := by decide
    have hroot : firstStateRoot ≠ "" := by decide
    simp only [CertifiedSnapshot.verifyBasic, except_then_ok, refuse_ok, verifyBasic_ok]
    exact ⟨hcluster, hroot, firstState.utf8_jsonText_ne_nil, verified_first⟩
  have hroot : computeStateRoot firstCrypto firstState = firstStateRoot := by decide +kernel
  refine installSnapshot_ok.mpr ⟨hbasic, ?_, hroot⟩
  simp only [CertifiedSnapshot.first, CertifiedSnapshot.nodeOne, Json.fromSlice_ofState]

theorem Json.toVec_ofState (s : LedgerState) :
    (Json.ofState s).toVec s = .ok (utf8 s.jsonText) := by
  simp [Json.ofState, Json.recorded, find]

theorem installSnapshot_attested_first :
    ¬ ∀ snapshot s, snapshot.quorumCertificate = firstCertificate →
      (InMemorySnapshotStore.installSnapshot firstCrypto (.ofState firstState) snapshot = .ok s ∨
        SledSnapshotStore.installSnapshot firstCrypto (.ofState firstState) snapshot = .ok s) →
      Attested firstCrypto snapshot s := by
  intro hattested
  exact (installSnapshot_attested_iff ⟨_, _, Json.toVec_ofState firstState, firstState.utf8_jsonText_ne_nil⟩
    firstCertificate).mp hattested (verifyBasic_ok.mpr verified_first)

/-- A certificate for another root, at another place, vouches for any state. -/
theorem foreign_certificate_accepted :
    let snapshot := CertifiedSnapshot.nodeOne firstState 5 7
    InMemorySnapshotStore.installSnapshot nodeOneCrypto (.ofState firstState) snapshot =
        .ok firstState ∧
      SledSnapshotStore.installSnapshot nodeOneCrypto (.ofState firstState) snapshot =
        .ok firstState ∧
      snapshot.quorumCertificate.resultingStateRoot ≠ computeStateRoot nodeOneCrypto firstState ∧
      snapshot.quorumCertificate.epoch ≠ snapshot.epoch ∧
      snapshot.quorumCertificate.sequence ≠ snapshot.sequence ∧
      ¬ Attested nodeOneCrypto snapshot firstState := by
  intro snapshot
  have hinstall := SnapshotStore.installSnapshot_nodeOne firstState 5 7
  rw [SnapshotStore.nodeOne, toStore_installSnapshot] at hinstall
  have hroot : snapshot.quorumCertificate.resultingStateRoot ≠
      computeStateRoot nodeOneCrypto firstState := by
    intro h
    have hsize := nodeOneCrypto.hexEncode_size
      (nodeOneCrypto.sha256 (rootMessage nodeOneCrypto firstState)).toList
    rw [← Crypto.sha256Hex, ← computeStateRoot_eq, ← h, Vector.length_toList] at hsize
    exact absurd hsize (by decide)
  exact ⟨hinstall, hinstall, hroot, by decide, by decide, fun ha => hroot ha.resultingStateRoot⟩

/-! ### The journal -/

/-- A state with the description of its first journal entry changed. -/
def LedgerState.redescribed (s : LedgerState) : LedgerState :=
  { s with
    journal := match s.journal with
      | [] => []
      | e :: rest => { e with description := e.description ++ "!" } :: rest }

/-- The messages hashed see of a journal what its entries are hashed from. -/
theorem hashedMessages_of_journal (x : Crypto) (s : LedgerState) {journal : List JournalEntry}
    (h : journal.map journalEntryMessage = s.journal.map journalEntryMessage) :
    hashedMessages x { s with journal := journal } = hashedMessages x s := by
  have hdigests : (journal.map fun e => x.sha256 (journalEntryMessage e)) =
      s.journal.map fun e => x.sha256 (journalEntryMessage e) := by
    have hmap := congrArg (List.map x.sha256) h
    rw [List.map_map, List.map_map] at hmap
    exact hmap
  have hjournal : journalMessage x { s with journal := journal } = journalMessage x s := by
    show itemsMessage "KROOTv1:journal" (journal.map fun e => x.sha256 (journalEntryMessage e)) = _
    rw [hdigests]
    rfl
  have hroot : rootMessage x { s with journal := journal } = rootMessage x s := by
    unfold rootMessage
    rw [hjournal]
    rfl
  unfold hashedMessages
  rw [hroot, hjournal]
  show _ ++ (_ ++ journal.map journalEntryMessage ++ _ ++ _ ++ _) = _
  rw [h]
  rfl

/-- A description is in none of the messages hashed. -/
theorem hashedMessages_redescribed (x : Crypto) (s : LedgerState) :
    hashedMessages x s.redescribed = hashedMessages x s := by
  apply hashedMessages_of_journal
  cases s.journal <;> rfl

theorem computeStateRoot_redescribed (x : Crypto) (s : LedgerState) :
    computeStateRoot x s.redescribed = computeStateRoot x s := by
  have hroot : rootMessage x s.redescribed = rootMessage x s :=
    (List.cons.inj (hashedMessages_redescribed x s)).1
  rw [computeStateRoot_eq, computeStateRoot_eq, hroot]

/-- The changed entry stands in for none of the old ones. -/
theorem redescribed_not_perm {s : LedgerState} (h : s.journal ≠ []) :
    ¬ s.journal.Perm s.redescribed.journal := by
  unfold LedgerState.redescribed
  cases hj : s.journal with
  | nil => exact absurd hj h
  | cons e rest =>
    intro hperm
    have hcount := hperm.count_eq e
    have hne : ({ e with description := e.description ++ "!" } : JournalEntry) ≠ e := by
      intro he
      have hdescription : e.description ++ "!" = e.description := congrArg JournalEntry.description he
      have hsize := congrArg String.utf8ByteSize hdescription
      rw [String.utf8ByteSize_append] at hsize
      have hbang : "!".utf8ByteSize = 1 := by decide
      omega
    rw [List.count_cons_self, List.count_cons_of_ne hne] at hcount
    omega

/-- **When a root binds the journal.** A snapshot that is accepted shares its root
with no accepted snapshot of another journal, short of a collision, exactly when its
own journal is empty or the messages of its own state collide. -/
theorem installSnapshot_journal_iff {x : Crypto} {json : Json LedgerState}
    {snapshot : CertifiedSnapshot} {s : LedgerState}
    (h : installSnapshot x json snapshot = .ok s)
    (hjson : ∃ text, json.toVec s.redescribed = .ok text ∧ text ≠ []) :
    (∀ snapshot' s', installSnapshot x json snapshot' = .ok s' →
        snapshot'.stateRoot = snapshot.stateRoot →
        s.journal.Perm s'.journal ∨
          Collision x.sha256 (hashedMessages x s ++ hashedMessages x s')) ↔
      s.journal = [] ∨ Collision x.sha256 (hashedMessages x s) := by
  obtain ⟨hbasic, hparse, hroot⟩ := installSnapshot_ok.mp h
  constructor
  · intro hbinds
    by_contra hneither
    obtain ⟨hjournal, hfree⟩ := not_or.mp hneither
    obtain ⟨text, htext, hne⟩ := hjson
    -- The changed state under the same root and the same certificate.
    have hforged : installSnapshot x json { snapshot with stateBytes := text } =
        .ok s.redescribed := by
      simp only [CertifiedSnapshot.verifyBasic, except_then_ok, refuse_ok] at hbasic
      refine installSnapshot_ok.mpr ⟨?_, json.fromSlice_toVec htext, ?_⟩
      · simp only [CertifiedSnapshot.verifyBasic, except_then_ok, refuse_ok]
        exact ⟨hbasic.1, hbasic.2.1, hne, hbasic.2.2.2⟩
      · rw [computeStateRoot_redescribed]
        exact hroot
    rcases hbinds _ _ hforged rfl with hperm | hcollision
    · exact redescribed_not_perm hjournal hperm
    · rw [hashedMessages_redescribed] at hcollision
      exact hfree hcollision.of_append_self
  · intro hcond snapshot' s' h' hsame
    obtain ⟨_, _, hroot'⟩ := installSnapshot_ok.mp h'
    by_cases hfree : Collision x.sha256 (hashedMessages x s ++ hashedMessages x s')
    · exact .inr hfree
    · have hroots : computeStateRoot x s = computeStateRoot x s' := by rw [hroot, hroot', hsame]
      have hhashes := (partsAgree_of_computeStateRoot hfree hroots).entryHashes_perm hfree
      rcases hcond with hempty | hcollision
      · rw [hempty, List.map_nil] at hhashes
        have hempty' : s'.journal = [] := List.map_eq_nil_iff.mp hhashes.nil_eq.symm
        rw [hempty, hempty']
        exact .inl (List.Perm.refl [])
      · exact absurd (hcollision.mono (List.subset_append_left _ _)) hfree

theorem installSnapshot_journal_first :
    installSnapshot firstCrypto (.ofState firstState) .first = .ok firstState ∧
      ∀ snapshot' s', installSnapshot firstCrypto (.ofState firstState) snapshot' = .ok s' →
        snapshot'.stateRoot = CertifiedSnapshot.first.stateRoot →
        firstState.journal.Perm s'.journal ∨
          Collision firstCrypto.sha256
            (hashedMessages firstCrypto firstState ++ hashedMessages firstCrypto s') := by
  have htext : (Json.ofState firstState).toVec firstState.redescribed =
      .ok (utf8 firstState.jsonText) := Json.toVec_ofState firstState
  refine ⟨installSnapshot_first, ?_⟩
  exact (installSnapshot_journal_iff installSnapshot_first
    ⟨_, htext, firstState.utf8_jsonText_ne_nil⟩).mpr (.inl rfl)

/-- A deposit under the hash of one of 5000 sats, whatever its amount is. -/
def depositEntry (amountSats : UInt64) : JournalEntry where
  entryId := "e1"
  sequence := 1
  description := "deposit"
  debits := [⟨.assetHotBtc, amountSats⟩]
  credits := [⟨.liabilityUserBalances, amountSats⟩]
  timestampBucket := 1
  entryHash := "a135ff62605b00deb5d39ba5ef9efa69b43ee3832f3063be026446187a8f4b50"
  previousEntryHash := none

def withDeposit (amountSats : UInt64) : LedgerState :=
  { firstState with journal := [depositEntry amountSats] }

def withDepositText (amountSats : UInt64) : String :=
  "\x7b\"version\":0,\"accounts\":[],\"journal\":[\x7b\"entry_id\":\"e1\",\"sequence\":1," ++
    "\"description\":\"deposit\",\"debits\":[\x7b\"account\":\"AssetHotBtc\",\"amount_sats\":" ++
    toString amountSats ++ "\x7d],\"credits\":[\x7b\"account\":\"LiabilityUserBalances\"," ++
    "\"amount_sats\":" ++ toString amountSats ++ "\x7d],\"timestamp_bucket\":1,\"entry_hash\":\"" ++
    "a135ff62605b00deb5d39ba5ef9efa69b43ee3832f3063be026446187a8f4b50\"," ++
    "\"previous_entry_hash\":null\x7d],\"reservations\":[],\"consumed_intents\":[]," ++
    "\"membership\":\x7b\"cluster_id\":\"cluster-1\",\"nodes\":[\"node-1\"]," ++
    "\"active_profile\":\"Single\"\x7d,\"utxos\":[]\x7d"

/-- JSON of the two states. -/
def depositJson : Json LedgerState :=
  .recorded [(withDeposit 5000, utf8 (withDepositText 5000)),
    (withDeposit 1, utf8 (withDepositText 1))] (by decide +kernel)

def CertifiedSnapshot.deposit (amountSats : UInt64) : CertifiedSnapshot :=
  { CertifiedSnapshot.nodeOne (withDeposit amountSats) 1 1 with
    stateBytes := utf8 (withDepositText amountSats) }

theorem installSnapshot_deposit {amountSats : UInt64}
    (h : depositJson.toVec (withDeposit amountSats) = .ok (utf8 (withDepositText amountSats))) :
    installSnapshot nodeOneCrypto depositJson (.deposit amountSats) =
      .ok (withDeposit amountSats) := by
  have hcluster : "cluster-1" ≠ "" := by decide
  have hroot := computeStateRoot_ne_empty nodeOneCrypto (withDeposit amountSats)
  have hbytes : utf8 (withDepositText amountSats) ≠ [] := by
    intro hnil
    have hempty : withDepositText amountSats = "" := utf8_inj.mp (hnil.trans utf8_empty.symm)
    exact absurd (String.append_eq_empty_iff.mp hempty).2 (by decide)
  refine installSnapshot_ok.mpr ⟨?_, depositJson.fromSlice_toVec h, rfl⟩
  simp only [CertifiedSnapshot.verifyBasic, except_then_ok, refuse_ok, verifyBasic_ok]
  exact ⟨hcluster, hroot, hbytes, verified_nodeOne⟩

/-- No two messages of the state with the deposit have one digest: they differ in
their first bytes. -/
theorem deposit_free :
    ¬ Collision nodeOneCrypto.sha256 (hashedMessages nodeOneCrypto (withDeposit 5000)) := by
  have hfirst : (hashedMessages nodeOneCrypto (withDeposit 5000)).map
      (fun m => (nodeOneCrypto.sha256 m).head) = [189, 116, 238, 40, 48, 57, 178, 245, 16] := by
    decide +kernel
  refine not_collision_of_nodup Vector.head ?_
  rw [hfirst]
  decide

/-- Two snapshots under one root whose journals disagree on the amount deposited. -/
theorem rewritten_journal_accepted :
    installSnapshot nodeOneCrypto depositJson (.deposit 5000) = .ok (withDeposit 5000) ∧
      installSnapshot nodeOneCrypto depositJson (.deposit 1) = .ok (withDeposit 1) ∧
      (CertifiedSnapshot.deposit 5000).stateRoot = (CertifiedSnapshot.deposit 1).stateRoot ∧
      ¬ ((withDeposit 5000).journal.Perm (withDeposit 1).journal ∨
        Collision nodeOneCrypto.sha256 (hashedMessages nodeOneCrypto (withDeposit 5000) ++
          hashedMessages nodeOneCrypto (withDeposit 1))) := by
  have hmessages : hashedMessages nodeOneCrypto (withDeposit 1) =
      hashedMessages nodeOneCrypto (withDeposit 5000) :=
    hashedMessages_of_journal nodeOneCrypto (withDeposit 5000) rfl
  have hroot : rootMessage nodeOneCrypto (withDeposit 1) =
      rootMessage nodeOneCrypto (withDeposit 5000) := (List.cons.inj hmessages).1
  refine ⟨installSnapshot_deposit (by decide +kernel), installSnapshot_deposit (by decide +kernel),
    ?_, ?_⟩
  · show computeStateRoot nodeOneCrypto (withDeposit 5000) =
      computeStateRoot nodeOneCrypto (withDeposit 1)
    rw [computeStateRoot_eq, computeStateRoot_eq, hroot]
  · intro h
    rcases h with hperm | hcollision
    · exact absurd hperm (by decide)
    · rw [hmessages] at hcollision
      exact deposit_free hcollision.of_append_self

end Kerosene.Ledger
