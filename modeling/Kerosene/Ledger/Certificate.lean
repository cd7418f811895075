import Kerosene.Ledger.State

/-! Quorum certificates and certified snapshots (`certificate.rs`).

What a certificate says is bound by `signingMessage`, a hash of its fields
written one after another. Only the numbers have a width of their own:
`signingMessage_binds_iff` says that two certificates are told apart exactly when
their texts are cut at the same places. `verifyCrypto_ok` says what a verified
certificate guarantees of each of its signatures, and
`verifyCrypto_signerCount_iff` when their number is the number of signers. -/
namespace Kerosene.Ledger

open Lib.Encode Lib.Inplace Lib.Tables

structure NodeSignature where
  nodeId : String
  signatureHex : String
  publicKeyHex : String
  deriving DecidableEq, Repr

structure QuorumCertificate where
  clusterId : String
  epoch : UInt64
  view : UInt64
  sequence : UInt64
  commandHash : String
  previousStateRoot : String
  resultingStateRoot : String
  signerBitmap : Bytes
  signatures : List NodeSignature
  deriving DecidableEq, Repr

/-- A registry of public keys by node id. -/
abbrev PublicKeys := Table String String

namespace QuorumCertificate

/-! ### Messages and signatures -/

def singleNode (clusterId : String) (epoch view sequence : UInt64)
    (commandHash previousStateRoot resultingStateRoot nodeId signatureHex publicKeyHex : String) :
    QuorumCertificate where
  clusterId
  epoch
  view
  sequence
  commandHash
  previousStateRoot
  resultingStateRoot
  signerBitmap := [1]
  signatures := [⟨nodeId, signatureHex, publicKeyHex⟩]

/-- The bytes that are hashed into the message to sign. -/
def signingPreimage (qc : QuorumCertificate) : Bytes :=
  utf8 "KEROSENE_QC_v1" ++ utf8 ":" ++ utf8 qc.clusterId ++ utf8 ":" ++ le64 qc.epoch ++
    le64 qc.view ++ le64 qc.sequence ++ utf8 qc.commandHash ++ utf8 qc.previousStateRoot ++
    utf8 qc.resultingStateRoot

def signingMessage (x : Crypto) (qc : QuorumCertificate) : Bytes :=
  (x.sha256 qc.signingPreimage).toList

def signerCount (qc : QuorumCertificate) : Nat := qc.signatures.length

variable (x : Crypto)

/-- One signature of a message, under a public key given as text. -/
def verifySignature (message : Bytes) (publicKeyHex : String) (sig : NodeSignature) :
    Except LedgerError Unit := do
  let pkBytes ← okOr (x.hexDecode publicKeyHex)
    (.invalidSignature ("invalid hex public key for node '" ++ sig.nodeId ++ "'"))
  let publicKey ← okOr (toVector 32 pkBytes)
    (.invalidSignature ("invalid Ed25519 public key length for node '" ++ sig.nodeId ++ "'"))
  (x.verifyingKey publicKey).mapError fun e =>
    .invalidSignature ("invalid Ed25519 public key for node '" ++ sig.nodeId ++ "': " ++ e)
  let sigBytes ← okOr (x.hexDecode sig.signatureHex)
    (.invalidSignature ("invalid hex signature for node '" ++ sig.nodeId ++ "'"))
  let signature ← okOr (toVector 64 sigBytes)
    (.invalidSignature ("invalid Ed25519 signature length for node '" ++ sig.nodeId ++ "'"))
  refuse (x.verify publicKey message signature = false)
    (.invalidSignature ("invalid Ed25519 signature from node '" ++ sig.nodeId ++ "'"))

/-- A signature as it stands in the certificate, under the key it carries. -/
def verifyEmbedded (message : Bytes) (sig : NodeSignature) : Except LedgerError Unit := do
  refuse (sig.publicKeyHex = "")
    (.invalidSignature ("signature from node '" ++ sig.nodeId ++ "' has empty public_key_hex"))
  refuse (sig.signatureHex = "")
    (.invalidSignature ("signature from node '" ++ sig.nodeId ++ "' has empty signature_hex"))
  verifySignature x message sig.publicKeyHex sig

def verifyBasic (qc : QuorumCertificate) : Except LedgerError Unit := do
  refuse (qc.previousStateRoot = "") (.invalidSignature "previous_state_root is empty")
  refuse (qc.resultingStateRoot = "") (.invalidSignature "resulting_state_root is empty")
  refuse (qc.commandHash = "") (.invalidSignature "command_hash is empty")
  refuse (qc.signatures = []) (.invalidSignature "no signatures in quorum certificate")
  refuse (qc.signerBitmap = []) (.invalidSignature "signer_bitmap is empty")
  forM qc.signatures (verifyEmbedded x (qc.signingMessage x))

/-- A signature against the registry: the node is known, under the key it carries. -/
def verifyRegistered (publicKeys : PublicKeys) (message : Bytes) (sig : NodeSignature) :
    Except LedgerError Unit := do
  let pkHex ← okOr (publicKeys.lookup sig.nodeId)
    (.invalidSignature ("unknown signer node '" ++ sig.nodeId ++ "': no public key provided"))
  refuse (pkHex ≠ sig.publicKeyHex)
    (.invalidSignature ("public key mismatch for node '" ++ sig.nodeId ++ "': expected " ++ pkHex
      ++ ", got " ++ sig.publicKeyHex))
  verifySignature x message pkHex sig

def verifyCrypto (qc : QuorumCertificate) (publicKeys : PublicKeys) : Except LedgerError Unit := do
  qc.verifyBasic x
  forM qc.signatures (verifyRegistered x publicKeys (qc.signingMessage x))

end QuorumCertificate

/-! ### Certified snapshots -/

structure CertifiedSnapshot where
  clusterId : String
  epoch : UInt64
  sequence : UInt64
  stateBytes : Bytes
  stateRoot : String
  membershipHash : String
  constitutionHash : String
  policyHash : String
  ledgerTotalsHash : String
  utxoSetRoot : String
  consumedIntentsRoot : String
  quorumCertificate : QuorumCertificate
  deriving DecidableEq, Repr

/-- Neither the state nor the certificate's roots are compared with the snapshot's. -/
def CertifiedSnapshot.verifyBasic (x : Crypto) (snapshot : CertifiedSnapshot) :
    Except LedgerError Unit := do
  refuse (snapshot.clusterId = "") (.invalidSignature "cluster_id is empty in CertifiedSnapshot")
  refuse (snapshot.stateRoot = "") (.invalidSignature "state_root is empty in CertifiedSnapshot")
  refuse (snapshot.stateBytes = []) (.invalidSignature "state_bytes is empty in CertifiedSnapshot")
  snapshot.quorumCertificate.verifyBasic x

namespace QuorumCertificate

/-! ### What the message binds -/

/-- Two certificates say the same: everything but who signed. -/
structure SaysTheSame (a b : QuorumCertificate) : Prop where
  clusterId : a.clusterId = b.clusterId
  epoch : a.epoch = b.epoch
  view : a.view = b.view
  sequence : a.sequence = b.sequence
  commandHash : a.commandHash = b.commandHash
  previousStateRoot : a.previousStateRoot = b.previousStateRoot
  resultingStateRoot : a.resultingStateRoot = b.resultingStateRoot

/-- The texts of two certificates end at the same places of the preimage. The last
one ends where the preimage does. -/
structure CutAlike (a b : QuorumCertificate) : Prop where
  clusterId : a.clusterId.utf8ByteSize = b.clusterId.utf8ByteSize
  commandHash : a.commandHash.utf8ByteSize = b.commandHash.utf8ByteSize
  previousStateRoot : a.previousStateRoot.utf8ByteSize = b.previousStateRoot.utf8ByteSize

theorem SaysTheSame.cutAlike {a b : QuorumCertificate} (h : SaysTheSame a b) : CutAlike a b :=
  ⟨by rw [h.clusterId], by rw [h.commandHash], by rw [h.previousStateRoot]⟩

/-- Cut at the same places, a preimage determines what it was written from. -/
theorem saysTheSame_of_signingPreimage {a b : QuorumCertificate}
    (h : a.signingPreimage = b.signingPreimage) (hcut : CutAlike a b) : SaysTheSame a b := by
  simp only [signingPreimage, List.append_assoc, List.append_cancel_left_eq] at h
  obtain ⟨hcluster, h⟩ := List.append_inj h (by rw [utf8_length, utf8_length, hcut.clusterId])
  obtain ⟨-, h⟩ := List.append_inj h rfl
  obtain ⟨hepoch, h⟩ := List.append_inj h (by rw [le64_length, le64_length])
  obtain ⟨hview, h⟩ := List.append_inj h (by rw [le64_length, le64_length])
  obtain ⟨hsequence, h⟩ := List.append_inj h (by rw [le64_length, le64_length])
  obtain ⟨hcommand, h⟩ := List.append_inj h (by rw [utf8_length, utf8_length, hcut.commandHash])
  obtain ⟨hprevious, hresulting⟩ :=
    List.append_inj h (by rw [utf8_length, utf8_length, hcut.previousStateRoot])
  exact
    { clusterId := utf8_inj.mp hcluster
      epoch := le64_injective hepoch
      view := le64_injective hview
      sequence := le64_injective hsequence
      commandHash := utf8_inj.mp hcommand
      previousStateRoot := utf8_inj.mp hprevious
      resultingStateRoot := utf8_inj.mp hresulting }

/-- **What the signing message binds.** Equal messages make two certificates say
the same, short of a collision of the hash, exactly when their texts cannot be cut
at different places of one preimage. -/
theorem signingMessage_binds_iff (x : Crypto) (a b : QuorumCertificate) :
    (a.signingMessage x = b.signingMessage x →
        SaysTheSame a b ∨ a.signingPreimage ≠ b.signingPreimage) ↔
      (a.signingPreimage = b.signingPreimage → CutAlike a b) := by
  constructor
  · intro hbinds hpre
    have hmessage : a.signingMessage x = b.signingMessage x := by
      rw [signingMessage, signingMessage, hpre]
    rcases hbinds hmessage with hsame | hne
    · exact hsame.cutAlike
    · exact absurd hpre hne
  · intro hcut _
    by_cases hpre : a.signingPreimage = b.signingPreimage
    · exact .inl (saysTheSame_of_signingPreimage hpre (hcut hpre))
    · exact .inr hpre

/-- The end of a command hash moved to the root after it: one message for two
certificates that name different commands. -/
theorem signingMessage_moved_cut :
    let a := singleNode "cluster-1" 1 1 1 "c0ffee" "aa" "bb" "node-1" "" ""
    let b := singleNode "cluster-1" 1 1 1 "c0ff" "eeaa" "bb" "node-1" "" ""
    (a.commandHash ≠ "" ∧ a.previousStateRoot ≠ "" ∧ a.resultingStateRoot ≠ "") ∧
      (b.commandHash ≠ "" ∧ b.previousStateRoot ≠ "" ∧ b.resultingStateRoot ≠ "") ∧
      a.signingMessage (.recorded []) = b.signingMessage (.recorded []) ∧
      a.signingPreimage = b.signingPreimage ∧ a.commandHash ≠ b.commandHash ∧
      ¬ SaysTheSame a b := by
  intro a b
  have hpre : a.signingPreimage = b.signingPreimage := by decide +kernel
  have hcommand : a.commandHash ≠ b.commandHash := by decide
  refine ⟨by decide, by decide, ?_, hpre, hcommand, fun h => hcommand h.commandHash⟩
  rw [signingMessage, signingMessage, hpre]

/-! ### What verification guarantees -/

section Verification
variable {x : Crypto} {qc : QuorumCertificate} {publicKeys : PublicKeys}

/-- The texts are a public key and a signature of the message under it. -/
def SignatureValid (x : Crypto) (message : Bytes) (publicKeyHex signatureHex : String) : Prop :=
  ∃ key signature, x.hexDecode publicKeyHex = some key.toList ∧ x.verifyingKey key = .ok () ∧
    x.hexDecode signatureHex = some signature.toList ∧ x.verify key message signature = true

theorem verifySignature_ok {message : Bytes} {publicKeyHex : String} {sig : NodeSignature} :
    verifySignature x message publicKeyHex sig = .ok () ↔
      SignatureValid x message publicKeyHex sig.signatureHex := by
  simp only [verifySignature, except_bind_ok, okOr_ok, mapError_eq_ok, refuse_ok, toVector_eq_some,
    Bool.not_eq_false]
  constructor
  · intro h
    obtain ⟨_, hkey, key, rfl, _, hvalid, _, hsig, signature, rfl, hverify⟩ := h
    exact ⟨key, signature, hkey, hvalid, hsig, hverify⟩
  · intro h
    obtain ⟨key, signature, hkey, hvalid, hsig, hverify⟩ := h
    exact ⟨_, hkey, key, rfl, (), hvalid, _, hsig, signature, rfl, hverify⟩

/-- What the certificate's own checks establish: everything is present, and each
signature is valid under the key it carries. -/
structure Verified (x : Crypto) (qc : QuorumCertificate) : Prop where
  previousStateRoot : qc.previousStateRoot ≠ ""
  resultingStateRoot : qc.resultingStateRoot ≠ ""
  commandHash : qc.commandHash ≠ ""
  signatures : qc.signatures ≠ []
  signerBitmap : qc.signerBitmap ≠ []
  valid : ∀ sig ∈ qc.signatures, sig.publicKeyHex ≠ "" ∧ sig.signatureHex ≠ "" ∧
    SignatureValid x (qc.signingMessage x) sig.publicKeyHex sig.signatureHex

theorem verifyBasic_ok : qc.verifyBasic x = .ok () ↔ Verified x qc := by
  simp only [verifyBasic, verifyEmbedded, except_then_ok, refuse_ok, forM_ok, verifySignature_ok]
  constructor
  · intro h
    obtain ⟨hprevious, hresulting, hcommand, hsignatures, hbitmap, hvalid⟩ := h
    exact ⟨hprevious, hresulting, hcommand, hsignatures, hbitmap, hvalid⟩
  · intro h
    exact ⟨h.previousStateRoot, h.resultingStateRoot, h.commandHash, h.signatures, h.signerBitmap,
      h.valid⟩

/-- A signature of a registered node, valid under the key registered for it. -/
def RegisteredSignature (x : Crypto) (publicKeys : PublicKeys) (message : Bytes)
    (sig : NodeSignature) : Prop :=
  publicKeys.lookup sig.nodeId = some sig.publicKeyHex ∧
    SignatureValid x message sig.publicKeyHex sig.signatureHex

theorem verifyRegistered_ok {message : Bytes} {sig : NodeSignature} :
    verifyRegistered x publicKeys message sig = .ok () ↔
      RegisteredSignature x publicKeys message sig := by
  simp only [verifyRegistered, except_bind_ok, okOr_ok, refuse_ok, not_not, exists_const,
    verifySignature_ok]
  constructor
  · intro h
    obtain ⟨_, hlookup, rfl, hvalid⟩ := h
    exact ⟨hlookup, hvalid⟩
  · intro h
    exact ⟨_, h.1, rfl, h.2⟩

/-- A certificate that verifies against a registry has nothing but signatures of
registered nodes. Nothing is said about how often a node signs. -/
theorem verifyCrypto_ok : qc.verifyCrypto x publicKeys = .ok () ↔
    Verified x qc ∧
      ∀ sig ∈ qc.signatures, RegisteredSignature x publicKeys (qc.signingMessage x) sig := by
  rw [verifyCrypto, except_then_ok, verifyBasic_ok, forM_ok]
  simp only [verifyRegistered_ok]

/-- The nodes that signed. -/
def signers (qc : QuorumCertificate) : Finset String :=
  (qc.signatures.map NodeSignature.nodeId).toFinset

theorem signerCount_eq_card_iff :
    qc.signerCount = qc.signers.card ↔ (qc.signatures.map NodeSignature.nodeId).Nodup := by
  rw [signerCount, signers, ← List.length_map NodeSignature.nodeId, eq_comm]
  exact Multiset.toFinset_card_eq_card_iff_nodup (m := Multiset.ofList _)

end Verification

/-! ### A certificate with one signature -/

/-- A node's signature of one certificate. -/
def nodeOne : NodeSignature where
  nodeId := "node-1"
  signatureHex := "bbc3275438a9c5d91b8d60809ed032a6842c9cd1f99bf48e9b762cc4f4835a82" ++
    "4407acc966a49407d78edca6c321d35af7df39435fcab3f6cb018997da51cb05"
  publicKeyHex := "d75a980182b10ab7d54bfed3c964073a0ee172f3daa62325af021a68f707511a"

/-- The signature is on record as one of this digest. -/
def nodeOneCrypto : Crypto :=
  .recorded [(nodeOne.publicKeyHex,
    "3a56c57004c686879600a7c5bab8ba04888216fb9b5c780491b4691124bc6ba0", nodeOne.signatureHex)]

def nodeOneCertificate : QuorumCertificate :=
  singleNode "cluster-1" 1 1 1 "c0ffee" "aa" "bb" nodeOne.nodeId nodeOne.signatureHex
    nodeOne.publicKeyHex

/-- The digest on record is the certificate's message. -/
theorem signatureValid_nodeOne :
    SignatureValid nodeOneCrypto (nodeOneCertificate.signingMessage nodeOneCrypto)
      nodeOne.publicKeyHex nodeOne.signatureHex :=
  verifySignature_ok.mp (by decide +kernel)

theorem verified_nodeOne : Verified nodeOneCrypto nodeOneCertificate where
  previousStateRoot := by decide
  resultingStateRoot := by decide
  commandHash := by decide
  signatures := by decide
  signerBitmap := by decide
  valid := by
    intro sig hsig
    rw [List.mem_singleton.mp hsig]
    exact ⟨by decide, by decide, signatureValid_nodeOne⟩

/-! ### Counting signers -/

/-- **Who signed a verified certificate.** Its signatures are those of as many
distinct registered nodes as it counts exactly when no node signs twice. -/
theorem verifyCrypto_signerCount_iff {x : Crypto} {qc : QuorumCertificate}
    {publicKeys : PublicKeys} (h : qc.verifyCrypto x publicKeys = .ok ()) :
    (qc.signerCount = qc.signers.card ∧
        ∀ sig ∈ qc.signatures, RegisteredSignature x publicKeys (qc.signingMessage x) sig) ↔
      (qc.signatures.map NodeSignature.nodeId).Nodup := by
  rw [← signerCount_eq_card_iff]
  exact and_iff_left (verifyCrypto_ok.mp h).2

theorem verifyCrypto_nodeOne :
    nodeOneCertificate.verifyCrypto nodeOneCrypto
      (Finmap.singleton nodeOne.nodeId nodeOne.publicKeyHex) = .ok () := by
  refine verifyCrypto_ok.mpr ⟨verified_nodeOne, fun sig hsig => ?_⟩
  rw [List.mem_singleton.mp hsig]
  exact ⟨Finmap.lookup_singleton_eq, signatureValid_nodeOne⟩

theorem verifyCrypto_signerCount_nodeOne :
    nodeOneCertificate.signerCount = nodeOneCertificate.signers.card ∧
      ∀ sig ∈ nodeOneCertificate.signatures, RegisteredSignature nodeOneCrypto
        (Finmap.singleton nodeOne.nodeId nodeOne.publicKeyHex)
        (nodeOneCertificate.signingMessage nodeOneCrypto) sig :=
  (verifyCrypto_signerCount_iff verifyCrypto_nodeOne).mpr (by decide)

/-- One node's signature listed twice makes two signers of it. -/
theorem repeated_signature_counts_twice :
    let qc := { nodeOneCertificate with signatures := [nodeOne, nodeOne] }
    let publicKeys : PublicKeys := Finmap.singleton nodeOne.nodeId nodeOne.publicKeyHex
    qc.verifyCrypto nodeOneCrypto publicKeys = .ok () ∧
      qc.signerCount = 2 ∧ qc.signers.card = 1 := by
  intro qc publicKeys
  have hall : ∀ sig ∈ qc.signatures, sig = nodeOne := by simp [qc]
  refine ⟨verifyCrypto_ok.mpr ⟨?_, fun sig hsig => ?_⟩, rfl, by decide⟩
  · exact
      { verified_nodeOne with
        signatures := by simp [qc]
        valid := by
          intro sig hsig
          rw [hall sig hsig]
          exact ⟨by decide, by decide, signatureValid_nodeOne⟩ }
  · rw [hall sig hsig]
    exact ⟨Finmap.lookup_singleton_eq, signatureValid_nodeOne⟩

end QuorumCertificate

end Kerosene.Ledger
