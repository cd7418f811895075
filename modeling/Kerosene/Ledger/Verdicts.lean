import Kerosene.Ledger.Intents
import Kerosene.Ledger.Replication

/-! Verdicts on a settlement while the ledger moves on.

Commands that do not concern the intent leave what the validator reads of the ledger,
its list of intents and its name, as it was (`replay_keepsReading`), all but one thing:
the version, which every command moves and which stands for the current epoch. So the
verdict on one settlement, with nothing about it changed, depends on how many other
commands were applied in between, and `verdict_unchanged_iff` says on which of them. -/
namespace Kerosene.Ledger

open Lib.Inplace Lib.Word

namespace SettlementValidator

variable {x : Crypto} {auth : SettlementAuthorization} {s : LedgerState}
  {policy : SettlementPolicy} {bucket : UInt64}

/-! ### What the verdict depends on -/

/-- The checks that follow the epoch's. -/
def checkRest (x : Crypto) (auth : SettlementAuthorization) (clusterId : String)
    (currentBucket : UInt64) : Except LedgerError Unit := do
  refuse (auth.isExpired currentBucket) (.authorizationExpired auth.expiresAtBucket currentBucket)
  validateQuorumCertificate x auth.quorumCertificate clusterId
  refuse (auth.psbtCommitment = "")
    (.authorizationInvalid "psbt_commitment is empty in settlement validation")
  refuse (auth.quorumCertificate.epoch ≠ auth.epoch)
    (.authorizationInvalid ("quorum certificate epoch " ++ toString auth.quorumCertificate.epoch
      ++ " does not match auth epoch " ++ toString auth.epoch))

theorem validateSettlement_eq :
    validateSettlement x auth s policy bucket = (do
      auth.verifyBasic x
      refuse (s.consumedIntents.contains auth.intentCommitment)
        (.authorizationInvalid ("intent " ++ auth.intentCommitment ++ " already consumed"))
      validateEpoch auth.epoch s.version policy.maxEpochDrift
      checkRest x auth s.membership.clusterId bucket) := rfl

/-- Two states with one version, one name and the intent listed in both or in neither
give one verdict. -/
theorem validateSettlement_congr {s' : LedgerState} (hversion : s'.version = s.version)
    (hcluster : s'.membership.clusterId = s.membership.clusterId)
    (hintent : s'.consumedIntents.contains auth.intentCommitment =
      s.consumedIntents.contains auth.intentCommitment) :
    validateSettlement x auth s' policy bucket = validateSettlement x auth s policy bucket := by
  rw [validateSettlement_eq, validateSettlement_eq, hversion, hcluster]
  simp only [hintent]

/-- An authorization that does not verify, or whose intent is consumed, is refused
before the epoch is looked at. -/
theorem validateSettlement_early (v : UInt64)
    (h : auth.verifyBasic x ≠ .ok () ∨ auth.intentCommitment ∈ s.consumedIntents) :
    validateSettlement x auth { s with version := v } policy bucket =
      validateSettlement x auth s policy bucket := by
  rw [validateSettlement_eq, validateSettlement_eq]
  cases hbasic : auth.verifyBasic x with
  | error e => rfl
  | ok u =>
    have hintent : auth.intentCommitment ∈ s.consumedIntents :=
      h.resolve_left fun hne => hne hbasic
    have hlisted : s.consumedIntents.contains auth.intentCommitment = true := by
      simpa using hintent
    simp only [hlisted]
    rfl

/-- Else the epoch decides, or the rest does. -/
theorem validateSettlement_open (hbasic : auth.verifyBasic x = .ok ())
    (hintent : auth.intentCommitment ∉ s.consumedIntents) :
    validateSettlement x auth s policy bucket = (do
      validateEpoch auth.epoch s.version policy.maxEpochDrift
      checkRest x auth s.membership.clusterId bucket) := by
  have hopen : s.consumedIntents.contains auth.intentCommitment = false := by
    simpa using hintent
  rw [validateSettlement_eq, hbasic]
  simp only [hopen]
  rfl

/-- What follows the epoch's check fails in other words. -/
theorem checkRest_ne (hbasic : auth.verifyBasic x = .ok ()) (clusterId text : String) :
    checkRest x auth clusterId bucket ≠ .error (.invalidStateTransition text) := by
  have hcert : auth.quorumCertificate.verifyBasic x = .ok () := by
    simp only [SettlementAuthorization.verifyBasic, except_then_ok] at hbasic
    exact hbasic.2.2.2.2.2
  intro h
  simp only [checkRest, validateQuorumCertificate, except_bind_error, refuse_error, hcert] at h
  simp at h

/-! ### The epoch's check -/

theorem validateEpoch_of_le {e v d : UInt64} (h : epochDrift e v ≤ d) :
    validateEpoch e v d = .ok () :=
  refuse_ok.mpr (UInt64.not_lt.mpr h)

theorem validateEpoch_of_gt {e v d : UInt64} (h : ¬epochDrift e v ≤ d) :
    validateEpoch e v d = .error (.invalidStateTransition
      ("epoch drift " ++ toString (epochDrift e v) ++ " exceeds max allowed " ++ toString d)) :=
  refuse_error.mpr ⟨UInt64.not_le.mp h, rfl⟩

/-- The text of a refusal tells the drift. -/
theorem drift_text_inj {a b d : UInt64}
    (h : "epoch drift " ++ toString a ++ " exceeds max allowed " ++ toString d =
      "epoch drift " ++ toString b ++ " exceeds max allowed " ++ toString d) : a = b := by
  refine toString_injective (String.toList_inj.mp ?_)
  have hlist := congrArg String.toList h
  simpa [String.toList_append, List.append_assoc] using hlist

/-- The check at two versions, before a rest that fails in other words. -/
theorem epoch_then_eq_iff {rest : Except LedgerError Unit}
    (hrest : ∀ text, rest ≠ .error (.invalidStateTransition text)) (e v w d : UInt64) :
    (do validateEpoch e w d; rest) = (do validateEpoch e v d; rest) ↔
      (epochDrift e v ≤ d ∧ epochDrift e w ≤ d) ∨ epochDrift e v = epochDrift e w := by
  by_cases hsame : epochDrift e v = epochDrift e w
  · have hcheck : validateEpoch e w d = validateEpoch e v d := by
      unfold validateEpoch
      rw [hsame]
    exact iff_of_true (by rw [hcheck]) (.inr hsame)
  · rw [or_iff_left hsame]
    by_cases hv : epochDrift e v ≤ d <;> by_cases hw : epochDrift e w ≤ d
    · rw [validateEpoch_of_le hv, validateEpoch_of_le hw]
      exact iff_of_true rfl ⟨hv, hw⟩
    · rw [validateEpoch_of_le hv, validateEpoch_of_gt hw]
      exact iff_of_false (fun h => hrest _ h.symm) fun h => hw h.2
    · rw [validateEpoch_of_gt hv, validateEpoch_of_le hw]
      exact iff_of_false (fun h => hrest _ h) fun h => hv h.1
    · -- Refused at both, with drifts that differ.
      rw [validateEpoch_of_gt hv, validateEpoch_of_gt hw]
      refine iff_of_false (fun h => hsame ?_) fun h => hv h.1
      exact (drift_text_inj (LedgerError.invalidStateTransition.inj (Except.error.inj h))).symm

/-- When a version leaves the verdict as it is: the epoch is not looked at, or is near
enough at both versions, or is equally far from both. -/
def Insensitive (x : Crypto) (auth : SettlementAuthorization) (s : LedgerState)
    (policy : SettlementPolicy) (version : UInt64) : Prop :=
  auth.verifyBasic x ≠ .ok () ∨ auth.intentCommitment ∈ s.consumedIntents ∨
    (epochDrift auth.epoch s.version ≤ policy.maxEpochDrift ∧
      epochDrift auth.epoch version ≤ policy.maxEpochDrift) ∨
    epochDrift auth.epoch s.version = epochDrift auth.epoch version

theorem version_moved_iff (version : UInt64) :
    validateSettlement x auth { s with version } policy bucket =
        validateSettlement x auth s policy bucket ↔
      Insensitive x auth s policy version := by
  unfold Insensitive
  by_cases hearly : auth.verifyBasic x ≠ .ok () ∨ auth.intentCommitment ∈ s.consumedIntents
  · rw [← or_assoc]
    exact iff_of_true (validateSettlement_early version hearly) (.inl hearly)
  · obtain ⟨hbasic, hintent⟩ := not_or.mp hearly
    rw [not_not] at hbasic
    have hmoved : auth.intentCommitment ∉ { s with version }.consumedIntents := hintent
    rw [validateSettlement_open hbasic hintent, validateSettlement_open hbasic hmoved,
      epoch_then_eq_iff (checkRest_ne hbasic _)]
    simp only [hbasic, hintent, ne_eq, not_true_eq_false, false_or]

end SettlementValidator

/-! ### Other commands -/

/-- A command that does not consume or expire the intent. -/
def LedgerCommand.Unrelated (intent : String) (c : LedgerCommand) : Prop :=
  c.commandType = .consumeIntent ∨ c.commandType = .expireIntent → c.partitionKey ≠ intent

namespace StateMachine

variable (sm : StateMachine)

/-- What a validator reads of the ledger besides its version is the same. -/
structure KeepsReading (intent : String) (s s' : LedgerState) : Prop where
  clusterId : s'.membership.clusterId = s.membership.clusterId
  intents : intent ∈ s'.consumedIntents ↔ intent ∈ s.consumedIntents

section KeepsReading
variable {intent : String}

theorem KeepsReading.refl (s : LedgerState) : KeepsReading intent s s := ⟨rfl, Iff.rfl⟩

theorem KeepsReading.trans (s t u : LedgerState) (h : KeepsReading intent s t)
    (h' : KeepsReading intent t u) : KeepsReading intent s u :=
  ⟨h'.clusterId.trans h.clusterId, h'.intents.trans h.intents⟩

theorem keepsReading_consume {other : String} (h : other ≠ intent) (s : LedgerState) :
    KeepsReading intent s (consume other s) := by
  unfold consume
  split
  · exact .refl s
  · refine ⟨rfl, ?_⟩
    show intent ∈ s.consumedIntents ++ [other] ↔ _
    rw [List.mem_append, List.mem_singleton, or_iff_left h.symm]

theorem keepsReading_addNode (nodeId : String) (s : LedgerState) :
    KeepsReading intent s (addNode nodeId s) := by
  unfold addNode
  split
  · exact .refl s
  · exact ⟨rfl, Iff.rfl⟩

theorem keepsReading_transition {c : LedgerCommand} (hc : c.Unrelated intent) :
    Preserves (KeepsReading intent) (sm.transition c) := by
  refine preserves_transition sm KeepsReading.refl KeepsReading.trans c
    (fun _ id op _ => preserves_onAccount (fun _ _ => ⟨rfl, Iff.rfl⟩) id op)
    (fun _ _ _ => ⟨rfl, Iff.rfl⟩) (fun hgroup => ?_) fun _ s => ⟨?_, ⟨rfl, Iff.rfl⟩⟩
  · have htype : c.commandType = .consumeIntent ∨ c.commandType = .expireIntent := by
      cases h : c.commandType <;> rw [h] at hgroup <;> simp [LedgerCommandType.group] at hgroup ⊢
    exact keepsReading_consume (hc htype)
  · exact keepsReading_addNode _ s

theorem keepsReading_apply {c : LedgerCommand} (hc : c.Unrelated intent) {s s' : LedgerState}
    {r : StateTransitionReceipt} (h : sm.apply c s = .ok r s') : KeepsReading intent s s' := by
  obtain ⟨_, _, t, ht, rfl, _⟩ := (apply_ok sm).mp h
  have hkept := (keepsReading_transition sm hc).ok ht
  exact ⟨hkept.clusterId, hkept.intents⟩

theorem replay_keepsReading {l : List LedgerCommand} (hl : ∀ c ∈ l, c.Unrelated intent)
    {s s' : LedgerState} (h : replay sm.apply l s = .ok () s') : KeepsReading intent s s' := by
  induction l generalizing s with
  | nil =>
    cases h
    exact .refl _
  | cons c rest ih =>
    obtain ⟨r, t, hc, hrest⟩ := replay_cons_ok.mp h
    exact .trans s t s' (keepsReading_apply sm (hl c List.mem_cons_self) hc)
      (ih (fun d hd => hl d (List.mem_cons_of_mem _ hd)) hrest)

end KeepsReading

/-- **When other commands leave a verdict alone.** After commands that do not concern its
intent the verdict on a settlement is the one of before exactly when their number does
not matter to the epoch's check. -/
theorem verdict_unchanged_iff {l : List LedgerCommand} {s t : LedgerState}
    (h : replay sm.apply l s = .ok () t) (auth : SettlementAuthorization)
    (hl : ∀ c ∈ l, c.Unrelated auth.intentCommitment) (x : Crypto) (policy : SettlementPolicy)
    (bucket : UInt64) :
    SettlementValidator.validateSettlement x auth t policy bucket =
        SettlementValidator.validateSettlement x auth s policy bucket ↔
      SettlementValidator.Insensitive x auth s policy (s.version + UInt64.ofNat l.length) := by
  have hkept := replay_keepsReading sm hl h
  have hmoved : SettlementValidator.validateSettlement x auth t policy bucket =
      SettlementValidator.validateSettlement x auth
        { s with version := s.version + UInt64.ofNat l.length } policy bucket := by
    refine SettlementValidator.validateSettlement_congr (replay_version h) hkept.clusterId ?_
    rw [Bool.eq_iff_iff, List.contains_iff_mem, List.contains_iff_mem]
    exact hkept.intents
  rw [hmoved, SettlementValidator.version_moved_iff]

/-! ### Three observers join

An authorization of epoch 1, and three commands about something else. -/

def settlementOne : SettlementAuthorization :=
  VaultAuthorizationVerifier.attach QuorumCertificate.nodeOneCrypto
    QuorumCertificate.nodeOneCertificate [] "intent-1" "command-1" "nonce-1" 10

theorem verifyBasic_settlementOne :
    settlementOne.verifyBasic QuorumCertificate.nodeOneCrypto = .ok () := by
  have hpsbt : settlementOne.psbtCommitment ≠ "" := QuorumCertificate.nodeOneCrypto.sha256Hex_ne_empty _
  simp only [SettlementAuthorization.verifyBasic, except_then_ok, refuse_ok]
  exact ⟨by decide, by decide, hpsbt, by decide, by decide,
    QuorumCertificate.verifyBasic_ok.mpr QuorumCertificate.verified_nodeOne⟩

def observers : List LedgerCommand :=
  ["node-2", "node-3", "node-4"].map fun node =>
    .new plain.crypto ("add-" ++ node) .addObserverNode node none "" 1 5

theorem unrelated_observers : ∀ c ∈ observers, c.Unrelated settlementOne.intentCommitment := by
  intro c hc htype
  obtain ⟨node, _, rfl⟩ := List.mem_map.mp hc
  rcases htype with h | h <;> cases h

theorem replay_observers :
    ∃ t, replay plain.apply observers (.empty (.singleNode "cluster-1" "node-1")) = .ok () t ∧
      t.version = 3 := by
  exact ⟨_, rfl, rfl⟩

def lenient : SettlementPolicy := ⟨1000, 1, ["p2wpkh"], 2, false, 5, 10⟩

def strict : SettlementPolicy := { lenient with maxEpochDrift := 1 }

theorem verdict_unchanged_lenient :
    let s := LedgerState.empty (.singleNode "cluster-1" "node-1")
    ∃ t, replay plain.apply observers s = .ok () t ∧
      SettlementValidator.validateSettlement QuorumCertificate.nodeOneCrypto settlementOne t lenient 3 =
        SettlementValidator.validateSettlement QuorumCertificate.nodeOneCrypto settlementOne s
          lenient 3 := by
  intro s
  obtain ⟨t, ht, _⟩ := replay_observers
  refine ⟨t, ht, (verdict_unchanged_iff plain ht settlementOne unrelated_observers _ lenient 3).mpr ?_⟩
  exact .inr (.inr (.inl (by decide)))

/-- Accepted before the observers join, refused after. -/
theorem observers_change_verdict :
    let s := LedgerState.empty (.singleNode "cluster-1" "node-1")
    ∃ t, replay plain.apply observers s = .ok () t ∧
      (∀ c ∈ observers, c.Unrelated settlementOne.intentCommitment) ∧
      SettlementValidator.validateSettlement QuorumCertificate.nodeOneCrypto settlementOne s strict 3 =
        .ok () ∧
      SettlementValidator.validateSettlement QuorumCertificate.nodeOneCrypto settlementOne t strict 3 =
        .error (.invalidStateTransition "epoch drift 2 exceeds max allowed 1") := by
  intro s
  obtain ⟨t, ht, hversion⟩ := replay_observers
  have hkept := replay_keepsReading plain unrelated_observers ht
  have hbasic := verifyBasic_settlementOne
  have hopen : settlementOne.intentCommitment ∉ s.consumedIntents := List.not_mem_nil
  refine ⟨t, ht, unrelated_observers, ?_, ?_⟩
  · have hpsbt : settlementOne.psbtCommitment ≠ "" :=
      QuorumCertificate.nodeOneCrypto.sha256Hex_ne_empty _
    have hcert := QuorumCertificate.verifyBasic_ok.mpr QuorumCertificate.verified_nodeOne
    rw [SettlementValidator.validateSettlement_open hbasic hopen]
    refine except_then_ok.mpr ⟨SettlementValidator.validateEpoch_of_le (by decide), ?_⟩
    simp only [SettlementValidator.checkRest, SettlementValidator.validateQuorumCertificate,
      except_then_ok, refuse_ok]
    exact ⟨by decide, ⟨by decide, hcert⟩, hpsbt, by decide⟩
  · have hfar : ¬epochDrift settlementOne.epoch 3 ≤ strict.maxEpochDrift := by decide
    have htext : "epoch drift " ++ toString (epochDrift settlementOne.epoch 3) ++
        " exceeds max allowed " ++ toString strict.maxEpochDrift =
          "epoch drift 2 exceeds max allowed 1" := by decide
    rw [SettlementValidator.validateSettlement_open hbasic fun h => hopen (hkept.intents.mp h),
      hversion, SettlementValidator.validateEpoch_of_gt hfar, htext]
    rfl

end StateMachine

end Kerosene.Ledger
