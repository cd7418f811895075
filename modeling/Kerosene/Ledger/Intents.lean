import Kerosene.Ledger.Settlement
import Kerosene.Ledger.Transitions

/-! Consumed intents.

An intent is consumed or expires once; no command takes it off the list again, and
a settlement is refused for as long as its intent is on it. `consumed_stays_refused`
puts the two together over runs of any length. -/
namespace Kerosene.Ledger

open Lib.Inplace

/-- A settlement passes only while its intent is open. -/
theorem SettlementValidator.open_of_validateSettlement {x : Crypto} {auth : SettlementAuthorization}
    {s : LedgerState} {policy : SettlementPolicy} {bucket : UInt64}
    (h : validateSettlement x auth s policy bucket = .ok ()) :
    auth.intentCommitment ∉ s.consumedIntents := by
  unfold validateSettlement at h
  obtain ⟨_, hopen, _⟩ := (except_then_ok.trans (and_congr_right fun _ => except_then_ok)).mp h
  rw [refuse_ok] at hopen
  simpa using hopen

namespace StateMachine

variable (sm : StateMachine)

/-- Every intent on the list before is on it now. -/
def KeepsIntents (s s' : LedgerState) : Prop := s.consumedIntents ⊆ s'.consumedIntents

theorem KeepsIntents.refl (s : LedgerState) : KeepsIntents s s := List.Subset.refl _

theorem KeepsIntents.trans (s t u : LedgerState) (h : KeepsIntents s t) (h' : KeepsIntents t u) :
    KeepsIntents s u := List.Subset.trans h h'

theorem keepsIntents_consume (intent : String) (s : LedgerState) :
    KeepsIntents s (consume intent s) := by
  unfold KeepsIntents consume
  split
  · exact List.Subset.refl _
  · exact List.subset_append_left _ _

/-- No command takes an intent off the list, whether or not it succeeds. -/
theorem keepsIntents_apply (c : LedgerCommand) : Preserves KeepsIntents (sm.apply c) := by
  refine preserves_apply sm KeepsIntents.refl KeepsIntents.trans KeepsIntents.refl ?_
  by_cases hc : c.commandType.group = .intent
  · refine preserves_transition sm KeepsIntents.refl KeepsIntents.trans c (fun h => ?_)
      (fun _ s _ => KeepsIntents.refl s) (fun _ => keepsIntents_consume _) fun h => ?_
    · rw [hc] at h
      cases h
    · rw [hc] at h
      cases h
  · intro s
    have hsame : (after (sm.transition c) s).consumedIntents = s.consumedIntents :=
      transition_consumedIntents sm hc s
    unfold KeepsIntents
    rw [hsame]
    exact List.Subset.refl _

/-- A command that consumes or expires an intent puts it on the list. -/
theorem mem_of_apply {c : LedgerCommand}
    (hc : c.commandType = .consumeIntent ∨ c.commandType = .expireIntent) {s t : LedgerState}
    {r : StateTransitionReceipt} (h : sm.apply c s = .ok r t) : c.partitionKey ∈ t.consumedIntents := by
  have htransition : sm.transition c s = .ok [c.partitionKey] (consume c.partitionKey s) := by
    unfold transition
    rcases hc with hc | hc <;> rw [hc] <;> rfl
  obtain ⟨_, _, u, hu, rfl, _⟩ := (apply_ok sm).mp h
  rw [htransition] at hu
  cases hu
  show c.partitionKey ∈ (consume c.partitionKey s).consumedIntents
  unfold consume
  split
  case isTrue hmem => simpa using hmem
  case isFalse => exact List.mem_append_right _ List.mem_cons_self

/-- **A consumed intent is never accepted again.** Once a command has consumed or
expired an intent, every settlement of it is refused in every later state. -/
theorem consumed_stays_refused {c : LedgerCommand}
    (hc : c.commandType = .consumeIntent ∨ c.commandType = .expireIntent) {s t : LedgerState}
    {r : StateTransitionReceipt} {l : List LedgerCommand}
    (h : sm.apply c (run sm.apply l s) = .ok r t) (l' : List LedgerCommand)
    {auth : SettlementAuthorization} (hauth : auth.intentCommitment = c.partitionKey) (x : Crypto)
    (policy : SettlementPolicy) (bucket : UInt64) :
    ∃ e, SettlementValidator.validateSettlement x auth (run sm.apply l' t) policy bucket =
      .error e := by
  have hkept : KeepsIntents t (run sm.apply l' t) :=
    preserves_run KeepsIntents.refl KeepsIntents.trans (keepsIntents_apply sm) l' t
  have hmem : auth.intentCommitment ∈ (run sm.apply l' t).consumedIntents := by
    rw [hauth]
    exact hkept (mem_of_apply sm hc h)
  cases hv : SettlementValidator.validateSettlement x auth (run sm.apply l' t) policy bucket with
  | error e => exact ⟨e, rfl⟩
  | ok u => exact absurd hmem (SettlementValidator.open_of_validateSettlement hv)

/-- An expired intent, settled in time and with a certificate that verifies. -/
theorem consumed_stays_refused_expired :
    let c := LedgerCommand.new plain.crypto "e1" .expireIntent "intent-1" none "" 1 5
    let s := LedgerState.empty (.singleNode "cluster-1" "node-1")
    let auth := VaultAuthorizationVerifier.attach QuorumCertificate.nodeOneCrypto
      QuorumCertificate.nodeOneCertificate [] "intent-1" "command-1" "nonce-1" 10
    let remove := LedgerCommand.new plain.crypto "n1" .removeNode "node-1" none "" 1 6
    ∃ e, SettlementValidator.validateSettlement QuorumCertificate.nodeOneCrypto auth
      (run plain.apply [remove] (after (plain.apply c) s)) ⟨1000, 1, ["p2wpkh"], 2, false, 1, 10⟩ 3 =
        .error e := by
  intro c s auth remove
  have h : plain.apply c (run plain.apply [] s) = .ok _ (after (plain.apply c) s) := rfl
  exact consumed_stays_refused plain (.inr rfl) h [remove] rfl _ _ _

end StateMachine

end Kerosene.Ledger
