import Kerosene.Ledger.Certificate

/-! Settlements: what the ledger authorizes and what a vault checks before it
signs a transaction (`settlement.rs`).

An authorization carries a quorum certificate as the proof that the cluster
committed it, but no check compares what the authorization says with what the
quorum signed. `accepts_any` says what follows: a certificate that verifies
carries any settlement whatever, so it authorizes a single one
(`authorizesOne_iff`) only when it does not verify. -/
namespace Kerosene.Ledger

open Lib.Encode Lib.Inplace

/-! ### Commitments and policies -/

structure PsbtCommitment where
  psbtHash : String
  inputCount : UInt32
  outputCount : UInt32
  totalOutputSats : UInt64
  deriving DecidableEq, Repr

namespace PsbtCommitment

def compute (x : Crypto) (psbtBytes : Bytes) : String := x.sha256Hex psbtBytes

def new (x : Crypto) (psbtBytes : Bytes) (inputCount outputCount : UInt32)
    (totalOutputSats : UInt64) : PsbtCommitment :=
  { psbtHash := compute x psbtBytes, inputCount, outputCount, totalOutputSats }

end PsbtCommitment

structure SettlementPolicy where
  maxFeeSats : UInt64
  minConfirmations : UInt32
  allowedDestinationTypes : List String
  maxOutputs : UInt32
  rbfAllowed : Bool
  maxEpochDrift : UInt64
  authorizationTtlBuckets : UInt64
  deriving DecidableEq, Repr

def SettlementPolicy.validate (policy : SettlementPolicy) : Except LedgerError Unit := do
  refuse (policy.maxFeeSats = 0) (.policyViolation "max_fee_sats must be > 0")
  refuse (policy.minConfirmations = 0) (.policyViolation "min_confirmations must be > 0")
  refuse (policy.allowedDestinationTypes = [])
    (.policyViolation "at least one allowed_destination_type must be specified")
  refuse (policy.maxOutputs = 0) (.policyViolation "max_outputs must be > 0")
  refuse (policy.maxEpochDrift = 0) (.policyViolation "max_epoch_drift must be > 0")
  refuse (policy.authorizationTtlBuckets = 0)
    (.policyViolation "authorization_ttl_buckets must be > 0")

/-- The distance of two epochs. -/
def epochDrift (a b : UInt64) : UInt64 := if a ≥ b then a - b else b - a

theorem epochDrift_self (a : UInt64) : epochDrift a a = 0 := by
  unfold epochDrift
  rw [if_pos (UInt64.le_refl a), UInt64.sub_self]

/-! ### Authorizations -/

structure SettlementAuthorization where
  intentCommitment : String
  commandHash : String
  psbtCommitment : String
  policyHash : String
  epoch : UInt64
  expiresAtBucket : UInt64
  nonce : String
  quorumCertificate : QuorumCertificate
  deriving DecidableEq, Repr

namespace SettlementAuthorization

def verifyBasic (x : Crypto) (auth : SettlementAuthorization) : Except LedgerError Unit := do
  refuse (auth.intentCommitment = "") (.authorizationInvalid "intent_commitment is empty")
  refuse (auth.commandHash = "") (.authorizationInvalid "command_hash is empty")
  refuse (auth.psbtCommitment = "") (.authorizationInvalid "psbt_commitment is empty")
  refuse (auth.policyHash = "") (.authorizationInvalid "policy_hash is empty")
  refuse (auth.nonce = "") (.authorizationInvalid "nonce is empty")
  auth.quorumCertificate.verifyBasic x

def isExpired (auth : SettlementAuthorization) (currentBucket : UInt64) : Bool :=
  currentBucket ≥ auth.expiresAtBucket

end SettlementAuthorization

/-! ### The ledger's side -/

namespace SettlementValidator

def validateEpoch (authEpoch currentEpoch maxEpochDrift : UInt64) : Except LedgerError Unit :=
  refuse (epochDrift authEpoch currentEpoch > maxEpochDrift)
    (.invalidStateTransition ("epoch drift " ++ toString (epochDrift authEpoch currentEpoch)
      ++ " exceeds max allowed " ++ toString maxEpochDrift))

def validateQuorumCertificate (x : Crypto) (cert : QuorumCertificate) (clusterId : String) :
    Except LedgerError Unit := do
  refuse (cert.clusterId ≠ clusterId)
    (.authorizationInvalid ("quorum certificate cluster_id '" ++ cert.clusterId
      ++ "' does not match expected '" ++ clusterId ++ "'"))
  cert.verifyBasic x

/-- The version counter of the state stands for the current epoch. -/
def validateSettlement (x : Crypto) (auth : SettlementAuthorization) (s : LedgerState)
    (policy : SettlementPolicy) (currentBucket : UInt64) : Except LedgerError Unit := do
  auth.verifyBasic x
  refuse (s.consumedIntents.contains auth.intentCommitment)
    (.authorizationInvalid ("intent " ++ auth.intentCommitment ++ " already consumed"))
  validateEpoch auth.epoch s.version policy.maxEpochDrift
  refuse (auth.isExpired currentBucket) (.authorizationExpired auth.expiresAtBucket currentBucket)
  validateQuorumCertificate x auth.quorumCertificate s.membership.clusterId
  refuse (auth.psbtCommitment = "")
    (.authorizationInvalid "psbt_commitment is empty in settlement validation")
  refuse (auth.quorumCertificate.epoch ≠ auth.epoch)
    (.authorizationInvalid ("quorum certificate epoch " ++ toString auth.quorumCertificate.epoch
      ++ " does not match auth epoch " ++ toString auth.epoch))

end SettlementValidator

/-! ### The vault's side -/

inductive VaultVerificationError where
  | invalidCertificate (text : String)
  | intentAlreadyConsumed (intent : String)
  | epochExpired (authEpoch maxDrift : UInt64)
  | psbtMismatch (expectedHash actualHash : String)
  | feeExceedsPolicy (feeSats maxFeeSats : UInt64)
  | authorizationExpired (expiresAt now : UInt64)
  | nonceReused (nonce : String)
  | destinationNotAllowed (destination : String)
  deriving DecidableEq, Repr

/-- What a vault is handed with an authorization, and what it knows itself. -/
structure VaultRequest where
  psbtBytes : Bytes
  psbtInputCount : UInt32
  psbtOutputCount : UInt32
  totalOutputSats : UInt64
  policy : SettlementPolicy
  /-- Whether a nonce was seen before. -/
  knownNonces : String → Bool
  currentBucket : UInt64

namespace VaultAuthorizationVerifier

variable (x : Crypto)

def verify (auth : SettlementAuthorization) (request : VaultRequest) :
    Except VaultVerificationError Unit := do
  (auth.verifyBasic x).mapError fun e => .invalidCertificate e.display
  refuse (request.knownNonces auth.nonce) (.nonceReused auth.nonce)
  refuse (auth.isExpired request.currentBucket)
    (.authorizationExpired auth.expiresAtBucket request.currentBucket)
  let actualHash := PsbtCommitment.compute x request.psbtBytes
  refuse (actualHash ≠ auth.psbtCommitment) (.psbtMismatch auth.psbtCommitment actualHash)
  refuse (epochDrift auth.quorumCertificate.epoch auth.epoch > request.policy.maxEpochDrift)
    (.epochExpired auth.epoch request.policy.maxEpochDrift)
  refuse (request.psbtOutputCount > request.policy.maxOutputs)
    (.invalidCertificate ("PSBT has " ++ toString request.psbtOutputCount
      ++ " outputs, policy allows max " ++ toString request.policy.maxOutputs))
  refuse (request.psbtInputCount = 0) (.invalidCertificate "PSBT must have at least one input")
  refuse (request.psbtOutputCount = 0) (.invalidCertificate "PSBT must have at least one output")
  refuse (request.totalOutputSats = 0) (.invalidCertificate "total output sats must be > 0")
  let clusterId := auth.quorumCertificate.clusterId
  if clusterId ≠ auth.intentCommitment ∧ clusterId ≠ "" then
    -- Never refuses: the name was found not to be empty one line before.
    refuse (clusterId = "") (.invalidCertificate "cluster_id is empty")

/-! ### What a vault accepts -/

variable {x} {auth : SettlementAuthorization} {request : VaultRequest}

/-- Of the certificate, an accepted authorization repeats nothing but an epoch
near its own. -/
structure Accepted (x : Crypto) (auth : SettlementAuthorization) (request : VaultRequest) :
    Prop where
  intentCommitment : auth.intentCommitment ≠ ""
  commandHash : auth.commandHash ≠ ""
  psbtCommitment : PsbtCommitment.compute x request.psbtBytes = auth.psbtCommitment
  policyHash : auth.policyHash ≠ ""
  nonce : auth.nonce ≠ ""
  certificate : auth.quorumCertificate.Verified x
  fresh : request.knownNonces auth.nonce = false
  inTime : request.currentBucket < auth.expiresAtBucket
  drift : epochDrift auth.quorumCertificate.epoch auth.epoch ≤ request.policy.maxEpochDrift
  outputs : request.psbtOutputCount ≤ request.policy.maxOutputs
  someInput : request.psbtInputCount ≠ 0
  someOutput : request.psbtOutputCount ≠ 0
  someValue : request.totalOutputSats ≠ 0

theorem verify_ok : verify x auth request = .ok () ↔ Accepted x auth request := by
  have hcluster : (if auth.quorumCertificate.clusterId ≠ auth.intentCommitment ∧
        auth.quorumCertificate.clusterId ≠ "" then
      refuse (auth.quorumCertificate.clusterId = "") (.invalidCertificate "cluster_id is empty")
      else pure () : Except VaultVerificationError Unit) = .ok () := by
    split
    case isTrue h => exact refuse_ok.mpr h.2
    case isFalse => rfl
  simp only [verify, SettlementAuthorization.verifyBasic, SettlementAuthorization.isExpired,
    except_then_ok, mapError_eq_ok, refuse_ok, QuorumCertificate.verifyBasic_ok, hcluster,
    decide_eq_true_eq, ge_iff_le, gt_iff_lt, UInt64.not_le, UInt64.not_lt, UInt32.not_lt, not_not,
    Bool.not_eq_true, and_true]
  constructor
  · intro h
    obtain ⟨⟨hintent, hcommand, _, hpolicy, hnonce, hcert⟩, hfresh, htime, hpsbt, hdrift, houtputs,
      hinput, houtput, hvalue⟩ := h
    exact ⟨hintent, hcommand, hpsbt, hpolicy, hnonce, hcert, hfresh, htime, hdrift, houtputs,
      hinput, houtput, hvalue⟩
  · intro h
    have hpsbt : auth.psbtCommitment ≠ "" := by
      rw [← h.psbtCommitment]
      exact x.sha256Hex_ne_empty _
    exact ⟨⟨h.intentCommitment, h.commandHash, hpsbt, h.policyHash, h.nonce, h.certificate⟩,
      h.fresh, h.inTime, h.psbtCommitment, h.drift, h.outputs, h.someInput, h.someOutput,
      h.someValue⟩

/-- A request a vault with nothing on record meets with no objection of its own. -/
def openRequest (psbtBytes : Bytes) : VaultRequest where
  psbtBytes
  psbtInputCount := 1
  psbtOutputCount := 1
  totalOutputSats := 1000
  policy := ⟨1000, 1, ["p2wpkh"], 2, false, 1, 10⟩
  knownNonces _ := false
  currentBucket := 0

/-- An authorization of any settlement, with a certificate that knows nothing of it. -/
def attach (x : Crypto) (qc : QuorumCertificate) (psbtBytes : Bytes)
    (intentCommitment commandHash nonce : String) (expiresAtBucket : UInt64) :
    SettlementAuthorization where
  intentCommitment
  commandHash
  psbtCommitment := PsbtCommitment.compute x psbtBytes
  policyHash := "policy"
  epoch := qc.epoch
  expiresAtBucket
  nonce
  quorumCertificate := qc

/-- A certificate that verifies carries any settlement. -/
theorem accepts_any {qc : QuorumCertificate} (hqc : qc.Verified x) (psbtBytes : Bytes)
    (intentCommitment commandHash nonce : String) (expiresAtBucket : UInt64)
    (hintent : intentCommitment ≠ "") (hcommand : commandHash ≠ "") (hnonce : nonce ≠ "")
    (hexpires : 0 < expiresAtBucket) :
    verify x (attach x qc psbtBytes intentCommitment commandHash nonce expiresAtBucket)
      (openRequest psbtBytes) = .ok () := by
  refine verify_ok.mpr
    { intentCommitment := hintent
      commandHash := hcommand
      psbtCommitment := rfl
      policyHash := by simp [attach]
      nonce := hnonce
      certificate := hqc
      fresh := rfl
      inTime := hexpires
      drift := ?_
      outputs := show (1 : UInt32) ≤ 2 by decide
      someInput := show (1 : UInt32) ≠ 0 by decide
      someOutput := show (1 : UInt32) ≠ 0 by decide
      someValue := show (1000 : UInt64) ≠ 0 by decide }
  show epochDrift qc.epoch qc.epoch ≤ 1
  rw [epochDrift_self]
  decide

/-! ### One certificate, one settlement -/

/-- Any two accepted authorizations with the certificate are for one settlement,
and for the command the certificate names. -/
def AuthorizesOne (x : Crypto) (qc : QuorumCertificate) : Prop :=
  ∀ (a b : SettlementAuthorization) (ra rb : VaultRequest),
    a.quorumCertificate = qc → b.quorumCertificate = qc →
    verify x a ra = .ok () → verify x b rb = .ok () →
    a.commandHash = b.commandHash ∧ a.intentCommitment = b.intentCommitment ∧
      a.psbtCommitment = b.psbtCommitment ∧ a.nonce = b.nonce ∧
      a.expiresAtBucket = b.expiresAtBucket ∧ a.commandHash = qc.commandHash

/-- **What a certificate authorizes.** One settlement at most exactly when it does
not verify, and then none at all. -/
theorem authorizesOne_iff (x : Crypto) (qc : QuorumCertificate) :
    AuthorizesOne x qc ↔ qc.verifyBasic x ≠ .ok () := by
  constructor
  · intro hone hbasic
    have hqc := QuorumCertificate.verifyBasic_ok.mp hbasic
    have haccepted (nonce : String) (hnonce : nonce ≠ "") :=
      accepts_any hqc [] "intent" "command" nonce 1 (by decide) (by decide) hnonce (by decide)
    obtain ⟨-, -, -, hnonce, -⟩ := hone _ _ _ _ rfl rfl (haccepted "first" (by decide))
      (haccepted "second" (by decide))
    exact absurd (show "first" = "second" from hnonce) (by decide)
  · intro hbasic a b ra rb ha _ haccepted _
    rw [← ha] at hbasic
    exact absurd (QuorumCertificate.verifyBasic_ok.mpr (verify_ok.mp haccepted).certificate) hbasic

/-- One certificate under two authorizations that share nothing else. -/
theorem one_certificate_two_settlements :
    let x := QuorumCertificate.nodeOneCrypto
    let qc := QuorumCertificate.nodeOneCertificate
    let a := attach x qc (utf8 "psbt-a") "intent-a" "command-a" "nonce-a" 10
    let b := attach x qc (utf8 "psbt-b") "intent-b" "command-b" "nonce-b" 20
    a.quorumCertificate = qc ∧ b.quorumCertificate = qc ∧
      verify x a (openRequest (utf8 "psbt-a")) = .ok () ∧
      verify x b (openRequest (utf8 "psbt-b")) = .ok () ∧
      a.commandHash ≠ b.commandHash ∧ a.intentCommitment ≠ b.intentCommitment ∧
      a.psbtCommitment ≠ b.psbtCommitment ∧ a.nonce ≠ b.nonce ∧
      a.expiresAtBucket ≠ b.expiresAtBucket ∧ a.commandHash ≠ qc.commandHash := by
  intro x qc a b
  have haccepted := accepts_any QuorumCertificate.verified_nodeOne
  refine ⟨rfl, rfl, ?_, ?_, by decide, by decide, ?_, by decide, by decide, by decide⟩
  · exact haccepted _ _ _ _ _ (by decide) (by decide) (by decide) (by decide)
  · exact haccepted _ _ _ _ _ (by decide) (by decide) (by decide) (by decide)
  · show x.sha256Hex (utf8 "psbt-a") ≠ x.sha256Hex (utf8 "psbt-b")
    decide +kernel

end VaultAuthorizationVerifier

end Kerosene.Ledger
