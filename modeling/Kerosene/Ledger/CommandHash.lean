import Kerosene.Ledger.StateRoot
import Kerosene.Ledger.Transitions

/-! What the hash of a command says about it (`LedgerCommand::compute_payload_hash`).

The bytes hashed can be read back field by field, so a hash computed from a command
determines it short of a collision. A receipt has the hash that came with the command,
which nothing compares with the fields: `commandHash_identifies_iff` says when that is
enough. -/
namespace Kerosene.Ledger

open Lib.Encode Lib.Commit

/-- The discriminant is read back as the position it stands for. -/
theorem LedgerCommandType.code_injective : Function.Injective LedgerCommandType.code := by
  have hback : Function.LeftInverse (fun b : UInt8 => ofNat b.toNat) code := by
    intro t
    cases t <;> rfl
  exact hback.injective

namespace LedgerCommand

/-- The bytes hashed. -/
def payload (c : LedgerCommand) : Bytes :=
  utf8 "KROOTv1:LedgerCommand" ++ [c.commandType.code] ++ encodeOption le64 c.expectedVersion ++
    encodeString c.partitionKey ++ encodeString c.authorizationCommitment ++ le64 c.epoch ++
    le64 c.createdAtBucket

theorem computePayloadHash_eq (x : Crypto) (c : LedgerCommand) :
    c.computePayloadHash x = x.sha256Hex c.payload := rfl

/-- The lengths written in front of the texts fit, as those of texts in memory do. -/
structure Addressable (c : LedgerCommand) : Prop where
  partitionKey : Ledger.Addressable c.partitionKey
  authorizationCommitment : Ledger.Addressable c.authorizationCommitment

/-- Two commands agree in all that is hashed. -/
structure SamePayload (c d : LedgerCommand) : Prop where
  commandType : c.commandType = d.commandType
  partitionKey : c.partitionKey = d.partitionKey
  expectedVersion : c.expectedVersion = d.expectedVersion
  authorizationCommitment : c.authorizationCommitment = d.authorizationCommitment
  epoch : c.epoch = d.epoch
  createdAtBucket : c.createdAtBucket = d.createdAtBucket

section Payload
variable {c d : LedgerCommand}

/-- The bytes are taken apart from the front: tag, discriminant, version, the two texts
behind their lengths. -/
theorem samePayload_of_payload (hc : c.Addressable) (hd : d.Addressable)
    (h : c.payload = d.payload) : SamePayload c d := by
  have hoption := selfDelimiting_encodeOption selfDelimiting_le64
  simp only [payload, List.append_assoc, List.append_cancel_left_eq] at h
  obtain ⟨hcode, h⟩ := List.append_inj h rfl
  obtain ⟨hversion, h⟩ := hoption _ _ _ _ (fun _ _ => trivial) (fun _ _ => trivial) h
  obtain ⟨hkey, h⟩ := selfDelimiting_encodeString _ _ _ _ hc.partitionKey hd.partitionKey h
  obtain ⟨hcommitment, h⟩ := selfDelimiting_encodeString _ _ _ _ hc.authorizationCommitment
    hd.authorizationCommitment h
  obtain ⟨hepoch, h⟩ := selfDelimiting_le64 _ _ _ _ trivial trivial h
  have htype := LedgerCommandType.code_injective (List.cons.inj hcode).1
  exact ⟨htype, hkey, hversion, hcommitment, hepoch, le64_injective h⟩

theorem SamePayload.payload_eq (h : SamePayload c d) : c.payload = d.payload := by
  unfold payload
  rw [h.commandType, h.partitionKey, h.expectedVersion, h.authorizationCommitment, h.epoch,
    h.createdAtBucket]

/-- One computed hash: one payload, or two that collide. -/
theorem computePayloadHash_eq_iff {x : Crypto} (hc : c.Addressable) (hd : d.Addressable) :
    c.computePayloadHash x = d.computePayloadHash x ↔
      SamePayload c d ∨ Collision x.sha256 [c.payload, d.payload] := by
  rw [computePayloadHash_eq, computePayloadHash_eq]
  constructor
  · intro h
    have hdigest := x.sha256_eq_of_sha256Hex_eq h
    by_cases hsame : c.payload = d.payload
    · exact .inl (samePayload_of_payload hc hd hsame)
    · exact .inr ⟨c.payload, by simp, d.payload, by simp, hsame, hdigest⟩
  · intro h
    rcases h with hsame | ⟨m, hm, n, hn, hne, hdigest⟩
    · rw [hsame.payload_eq]
    · simp only [List.mem_cons, List.not_mem_nil, or_false] at hm hn
      unfold Crypto.sha256Hex
      -- Two different messages of the pair are the two of it.
      rcases hm with rfl | rfl <;> rcases hn with rfl | rfl
      · exact absurd rfl hne
      · rw [hdigest]
      · rw [hdigest]
      · exact absurd rfl hne

end Payload

/-- **Hashed commands are told apart.** Commands made by `new` that have one hash agree in
all fields hashed, or else their bytes differ and are a collision. -/
theorem new_payloadHash_inj (x : Crypto) {commandId commandId' : String}
    {commandType commandType' : LedgerCommandType} {partitionKey partitionKey' : String}
    {expectedVersion expectedVersion' : Option UInt64}
    {authorizationCommitment authorizationCommitment' : String}
    {epoch epoch' createdAtBucket createdAtBucket' : UInt64} :
    let c := new x commandId commandType partitionKey expectedVersion authorizationCommitment
      epoch createdAtBucket
    let d := new x commandId' commandType' partitionKey' expectedVersion' authorizationCommitment'
      epoch' createdAtBucket'
    c.Addressable → d.Addressable → c.payloadHash = d.payloadHash →
      SamePayload c d ∨ (c.payload ≠ d.payload ∧ x.sha256 c.payload = x.sha256 d.payload) := by
  intro c d hc hd h
  by_cases hsame : c.payload = d.payload
  · exact .inl (samePayload_of_payload hc hd hsame)
  · exact .inr ⟨hsame, x.sha256_eq_of_sha256Hex_eq h⟩

/-- A withdrawal to prepare. -/
def prepare (x : Crypto) (commandId account amount : String) : LedgerCommand :=
  new x commandId .prepareWithdrawal account none amount 1 1

theorem addressable_prepare (x : Crypto) (commandId : String) {account amount : String}
    (h : Ledger.Addressable account) (h' : Ledger.Addressable amount) :
    (prepare x commandId account amount).Addressable := ⟨h, h'⟩

/-- One withdrawal under two command ids. -/
theorem new_payloadHash_inj_prepare :
    let x := Crypto.recorded []
    let c := prepare x "w1" "alice" "1000"
    let d := prepare x "w2" "alice" "1000"
    c.payloadHash = d.payloadHash ∧
      (SamePayload c d ∨ (c.payload ≠ d.payload ∧ x.sha256 c.payload = x.sha256 d.payload)) := by
  generalize Crypto.recorded [] = crypto
  intro x c d
  have hc : c.Addressable := addressable_prepare x "w1" (by decide) (by decide)
  have hd : d.Addressable := addressable_prepare x "w2" (by decide) (by decide)
  exact ⟨rfl, new_payloadHash_inj x hc hd rfl⟩

end LedgerCommand

namespace StateMachine

open LedgerCommand

/-- **When a receipt identifies its command.** Two receipts with one hash are for
commands that agree, short of a collision, exactly when commands that come with one hash
also have one hash computed from their fields. -/
theorem commandHash_identifies_iff (sm : StateMachine) {s s' t t' : LedgerState}
    {c d : LedgerCommand} {r q : StateTransitionReceipt} (hr : sm.apply c s = .ok r s')
    (hq : sm.apply d t = .ok q t') (hc : c.Addressable) (hd : d.Addressable) :
    (r.commandHash = q.commandHash →
        SamePayload c d ∨ Collision sm.crypto.sha256 [c.payload, d.payload]) ↔
      (c.payloadHash = d.payloadHash →
        c.computePayloadHash sm.crypto = d.computePayloadHash sm.crypto) := by
  obtain ⟨_, _, _, _, _, rfl⟩ := (apply_ok sm).mp hr
  obtain ⟨_, _, _, _, _, rfl⟩ := (apply_ok sm).mp hq
  exact imp_congr_right fun _ => (computePayloadHash_eq_iff hc hd).symm

/-- A withdrawal is prepared whatever the state is. -/
theorem apply_prepare (sm : StateMachine) {c : LedgerCommand} (s : LedgerState)
    (h : c.commandType = .prepareWithdrawal) :
    sm.apply c s = .ok (sm.receipt c s (bumpVersion s) [c.partitionKey]) (bumpVersion s) := by
  have hvalid : sm.validate s c = .ok () := by
    unfold validate
    rw [h]
  have htransition : sm.transition c s = .ok [c.partitionKey] s := by
    unfold transition
    rw [h]
    rfl
  exact (apply_ok sm).mpr ⟨hvalid, _, _, htransition, rfl, rfl⟩

/-- Commands that have their own hashes are told apart by their receipts. -/
theorem commandHash_identifies_prepare :
    let sm := StateMachine.plain
    let s := LedgerState.empty (.singleNode "cluster-1" "node-1")
    let c := prepare sm.crypto "w1" "alice" "1000"
    let d := prepare sm.crypto "w2" "mallory" "5000"
    ∃ r s' q t', sm.apply c s = .ok r s' ∧ sm.apply d s = .ok q t' ∧
      (r.commandHash = q.commandHash →
        SamePayload c d ∨ Collision sm.crypto.sha256 [c.payload, d.payload]) := by
  generalize StateMachine.plain = machine
  intro sm s c d
  have hr := apply_prepare sm (c := c) s rfl
  have hq := apply_prepare sm (c := d) s rfl
  have hc : c.Addressable := addressable_prepare sm.crypto "w1" (by decide) (by decide)
  have hd : d.Addressable := addressable_prepare sm.crypto "w2" (by decide) (by decide)
  exact ⟨_, _, _, _, hr, hq, (commandHash_identifies_iff sm hr hq hc hd).mpr id⟩

/-- A withdrawal that comes with the hash of another. -/
theorem borrowed_hash_accepted :
    let sm := StateMachine.plain
    let s := LedgerState.empty (.singleNode "cluster-1" "node-1")
    let c := prepare sm.crypto "w1" "alice" "1000"
    let d := { prepare sm.crypto "w2" "mallory" "5000" with payloadHash := c.payloadHash }
    ∃ r s' q t', sm.apply c s = .ok r s' ∧ sm.apply d s = .ok q t' ∧
      r.commandHash = q.commandHash ∧
      ¬ (SamePayload c d ∨ Collision sm.crypto.sha256 [c.payload, d.payload]) := by
  intro sm s c d
  have hr := apply_prepare sm (c := c) s rfl
  have hq := apply_prepare sm (c := d) s rfl
  refine ⟨_, _, _, _, hr, hq, rfl, ?_⟩
  intro h
  rcases h with hsame | hcollision
  · exact absurd hsame.partitionKey (by decide)
  · refine not_collision_of_nodup Vector.head ?_ hcollision
    decide +kernel

end StateMachine

end Kerosene.Ledger
