import Kerosene.Ledger.Atomicity

/-! Expected versions in the state machine.

The four balance commands run only when their account is at the version they
carry, and then move it on. A transfer carries a version too, and nothing checks
it. `versioned_at_most_once`: commands on one account that carry the same
version succeed at most once in any run, as long as each transfer happens to be
submitted at the version it carries. -/
namespace Kerosene.Ledger

open Lib.Inplace Lib.Keyed Lib.Word

/-- A balance command on the account, or a transfer with the account as its source. -/
def LedgerCommand.contends (c : LedgerCommand) (accountId : String) : Bool :=
  match c.commandType with
  | .creditInternalBalance | .debitInternalBalance | .reserveBalance | .releaseReservation =>
    c.partitionKey = accountId
  | .commitInternalTransfer => c.transferParts.map Prod.fst = some accountId
  | _ => false

theorem LedgerCommand.contends_iff {c : LedgerCommand} {id : String} :
    c.contends id ↔
      ((∃ op, c.commandType.operation = some op) ∧ c.partitionKey = id) ∨
        (c.commandType = .commitInternalTransfer ∧ ∃ dest, c.transferParts = some (id, dest)) := by
  unfold contends LedgerCommandType.operation
  cases c.commandType <;> simp [eq_comm]

namespace StateMachine

/-- The version of an account; one that does not exist is at version 0. -/
def versionOf (s : LedgerState) (accountId : String) : UInt64 := (accountOrNew s accountId).version

theorem versionOf_writeAccount (s : LedgerState) (a : AccountState) (id : String) :
    versionOf (s.writeAccount a) id = if a.accountId = id then a.version else versionOf s id := by
  unfold versionOf
  rw [accountOrNew_writeAccount]
  split <;> rfl

variable (sm : StateMachine)

/-! ### What the checks ensure -/

theorem validateCredit_version {s : LedgerState} {c : LedgerCommand} {v : UInt64}
    (hv : c.expectedVersion = some v) (h : validateCredit s c = .ok ()) :
    versionOf s c.partitionKey = v := by
  unfold validateCredit at h
  rw [hv] at h
  unfold versionOf accountOrNew
  cases hf : s.findAccount c.partitionKey with
  | some a =>
    rw [hf] at h
    exact AccountState.checkVersion_ok.mp h
  | none =>
    rw [hf] at h
    by_cases h0 : v = 0
    · rw [h0]
      rfl
    · simp [h0] at h

theorem version_of_versionOk {s : LedgerState} {c : LedgerCommand} {v : UInt64}
    (hv : c.expectedVersion = some v)
    (h : ∃ a, s.findAccount c.partitionKey = some a ∧ VersionOk c a) :
    versionOf s c.partitionKey = v := by
  obtain ⟨a, hf, ha⟩ := h
  rw [versionOf, accountOrNew, hf]
  exact ha v hv

/-- A balance command that passes validation finds the version it carries. -/
theorem validate_version {s : LedgerState} {c : LedgerCommand} {op : BalanceOperation} {v : UInt64}
    (hop : c.commandType.operation = some op) (hv : c.expectedVersion = some v)
    (h : sm.validate s c = .ok ()) : versionOf s c.partitionKey = v := by
  unfold validate at h
  cases ht : c.commandType <;> rw [ht] at hop h <;> cases hop
  case creditInternalBalance => exact validateCredit_version hv h
  case debitInternalBalance => exact version_of_versionOk hv (validateExisting_ok.mp h)
  case reserveBalance => exact version_of_versionOk hv (validateExisting_ok.mp h)
  case releaseReservation =>
    rcases validateReleaseReservation_ok.mp h with ⟨_, hnone⟩ | hsome
    · rw [hv] at hnone
      cases hnone
    · exact version_of_versionOk hv hsome

/-! ### What a command does to a version -/

section OnAccount
variable {op : BalanceOperation} {amount : UInt64} {accountId id r : String} {s s' : LedgerState}

theorem onAccount_ok_version
    (h : onAccount accountId (AccountState.operate op amount) s = .ok r s') :
    versionOf s' id = versionOf s id + (if accountId = id then 1 else 0) := by
  rw [onAccount_eq (keepsId_operate _ _)] at h
  have hid := accountOrNew_accountId s accountId
  rcases AccountState.operate_after op amount (accountOrNew s accountId) with
    ⟨a, ha, haid, hv⟩ | ⟨e, a, ha, _⟩
  · rw [ha] at h
    cases h
    rw [versionOf_writeAccount, haid, hid]
    by_cases heq : accountId = id
    · rw [if_pos heq, if_pos heq, hv, heq]
      rfl
    · rw [if_neg heq, if_neg heq, add_zero]
  · rw [ha] at h
    cases h

theorem onAccount_error_version {e : LedgerError}
    (h : onAccount accountId (AccountState.operate op amount) s = .error e s') :
    versionOf s' id = versionOf s id := by
  rw [onAccount_eq (keepsId_operate _ _)] at h
  have hid := accountOrNew_accountId s accountId
  rcases AccountState.operate_after op amount (accountOrNew s accountId) with
    ⟨a, ha, _⟩ | ⟨e', a, ha, haid, hv⟩
  · rw [ha] at h
    cases h
  · rw [ha] at h
    cases h
    rw [versionOf_writeAccount, haid, hid]
    by_cases heq : accountId = id
    · rw [if_pos heq, hv, heq]
      rfl
    · rw [if_neg heq]

end OnAccount

theorem transfer_ok_version {source dest id : String} {amount : UInt64} {s s' : LedgerState}
    {r : List String} (h : transfer source dest amount s = .ok r s') :
    versionOf s' id =
      versionOf s id + (if source = id then 1 else 0) + (if dest = id then 1 else 0) := by
  obtain ⟨a, t, ht, h⟩ := bind_ok.mp h
  obtain ⟨b, t', ht', h⟩ := bind_ok.mp h
  cases h
  rw [onAccount_ok_version ht', onAccount_ok_version ht]

/-- The versions move by one or two where a contending command succeeds. -/
theorem apply_contends_version {c : LedgerCommand} {id : String} {s s' : LedgerState}
    {r : StateTransitionReceipt} (hc : c.contends id) (h : sm.apply c s = .ok r s') :
    versionOf s' id = versionOf s id + 1 ∨ versionOf s' id = versionOf s id + 2 := by
  obtain ⟨_, affected, t, ht, rfl, _⟩ := (apply_ok sm).mp h
  show versionOf t id = _ ∨ versionOf t id = _
  rcases LedgerCommand.contends_iff.mp hc with ⟨⟨op, hop⟩, hkey⟩ | ⟨htype, dest, hparts⟩
  · rw [transition_operation sm hop] at ht
    obtain ⟨a, t', ht', h'⟩ := bind_ok.mp ht
    cases h'
    rw [onAccount_ok_version ht', if_pos hkey]
    exact .inl rfl
  · rw [transition_transfer sm htype hparts] at ht
    rw [transfer_ok_version ht, if_pos rfl]
    by_cases hdest : dest = id
    · rw [if_pos hdest, add_assoc]
      exact .inr rfl
    · rw [if_neg hdest, add_zero]
      exact .inl rfl

/-- No command moves a version by more than two, whether it succeeds or not. -/
theorem transition_version_le_two (c : LedgerCommand) (s : LedgerState) (id : String) :
    ∃ k : UInt64, k ≤ 2 ∧ versionOf (after (sm.transition c) s) id = versionOf s id + k := by
  have hunchanged : ∀ s' : LedgerState, versionOf s' id = versionOf s id →
      ∃ k : UInt64, k ≤ 2 ∧ versionOf s' id = versionOf s id + k :=
    fun s' h => ⟨0, by decide, by rw [h, add_zero]⟩
  have hone : ∀ p : Prop, [Decidable p] → (if p then 1 else 0 : UInt64) ≤ 2 := by
    intro p _
    split <;> decide
  have htwo : ∀ p q : Prop, [Decidable p] → [Decidable q] →
      (if p then 1 else 0 : UInt64) + (if q then 1 else 0) ≤ 2 := by
    intro p q _ _
    split <;> split <;> decide
  by_cases hc : c.commandType.TouchesAccounts
  case neg =>
    apply hunchanged
    unfold versionOf accountOrNew LedgerState.findAccount
    rw [transition_accounts sm hc s]
  rcases hc with hop | htype
  · obtain ⟨op, hop⟩ := Option.isSome_iff_exists.mp hop
    rw [transition_operation sm hop]
    unfold after
    rw [bind_def]
    cases h : onAccount c.partitionKey (AccountState.operate op c.effectiveAmount) s with
    | ok r t => exact ⟨_, hone _, onAccount_ok_version h⟩
    | error e t => exact hunchanged t (onAccount_error_version h)
  · cases hp : c.transferParts with
    | none =>
      apply hunchanged
      unfold transition
      rw [htype, hp]
      rfl
    | some parts =>
      rw [transition_transfer sm htype hp]
      unfold after transfer
      rw [bind_def]
      cases h : onAccount parts.1 (AccountState.operate .debit c.amount) s with
      | error e t => exact hunchanged t (onAccount_error_version h)
      | ok r t =>
        simp only [bind_def]
        cases h' : onAccount parts.2 (AccountState.operate .credit c.amount) t with
        | error e t' =>
          have hv : versionOf t' id = versionOf t id := onAccount_error_version h'
          exact ⟨_, hone _, hv.trans (onAccount_ok_version h)⟩
        | ok r' t' =>
          refine ⟨_, htwo (parts.1 = id) (parts.2 = id), ?_⟩
          rw [← add_assoc, ← onAccount_ok_version h, ← onAccount_ok_version h']
          rfl

/-- A counter with room for two steps does not wrap around. -/
theorem apply_version_le {c : LedgerCommand} {s : LedgerState} {id : String}
    (h : (versionOf s id).toNat + 2 < 2 ^ 64) :
    versionOf s id ≤ versionOf (after (sm.apply c) s) id := by
  obtain ⟨k, hk, hv⟩ := transition_version_le_two sm c s id
  have hstep : versionOf s id ≤ versionOf (after (sm.transition c) s) id := by
    have hk' := UInt64.le_iff_toNat_le.mp hk
    rw [hv, UInt64.le_iff_toNat_le, toNat_add_of_lt (by simp at hk'; omega)]
    omega
  unfold after at hstep ⊢
  rw [apply_eq]
  cases sm.validate s c with
  | error e => exact UInt64.le_refl _
  | ok u =>
    cases ht : sm.transition c s with
    | error e t =>
      rw [ht] at hstep
      exact hstep
    | ok r t =>
      rw [ht] at hstep
      exact hstep

/-- A contending command that succeeds found the version it carries; of a transfer
this has to be given. -/
theorem contends_at_version {c : LedgerCommand} {id : String} {v : UInt64} {s s' : LedgerState}
    {r : StateTransitionReceipt} (hc : c.contends id) (hv : c.expectedVersion = some v)
    (htransfer : c.commandType = .commitInternalTransfer → versionOf s id = v)
    (h : sm.apply c s = .ok r s') : versionOf s id = v := by
  rcases LedgerCommand.contends_iff.mp hc with ⟨⟨op, hop⟩, rfl⟩ | ⟨htype, _⟩
  · exact validate_version sm hop hv ((apply_ok sm).mp h).1
  · exact htransfer htype

/-! ### Runs -/

/-- The account's counter does not wrap around in this step, and a transfer out of
the account is submitted at version `v`. -/
def SubmittedAt (id : String) (v : UInt64) (s : LedgerState) (c : LedgerCommand) : Prop :=
  versionOf s id ≤ versionOf (after (sm.apply c) s) id ∧
    (c.commandType = .commitInternalTransfer → c.contends id → versionOf s id = v)

/-- **Of the commands on an account that carry one version, at most one succeeds**, in
every run whose transfers out of the account are submitted at that version. -/
theorem versioned_at_most_once (s : LedgerState) (id : String) (v : UInt64)
    (commands : List LedgerCommand)
    (hcarry : ∀ c ∈ commands, c.contends id → c.expectedVersion = some v)
    (h : Admissible sm.apply (SubmittedAt sm id v) commands s) :
    countOk sm.apply (fun c => c.contends id) commands s ≤ 1 := by
  refine (countOk_le_one (fun s => (versionOf s id).toNat) v.toNat
    ?_ ?_ commands s (h.and_forall hcarry)).1
  · intro s c h
    obtain ⟨⟨hle, _⟩, _⟩ := h
    exact UInt64.le_iff_toNat_le.mp hle
  · intro s c r s' h hc hok
    obtain ⟨⟨hle, htransfer⟩, hversion⟩ := h
    have hat := contends_at_version sm hc (hversion hc) (fun ht => htransfer ht hc) hok
    rw [after_ok hok, UInt64.le_iff_toNat_le] at hle
    have hne : versionOf s' id ≠ versionOf s id := by
      rcases apply_contends_version sm hc hok with h' | h' <;> rw [h'] <;> simp
    have hne' : (versionOf s' id).toNat ≠ (versionOf s id).toNat :=
      fun h' => hne (UInt64.toNat_inj.mp h')
    rw [← hat]
    omega

theorem versioned_at_most_once_transfer_debit :
    let s := { LedgerState.empty (.singleNode "cluster" "node") with
      version := 1
      accounts := [{ AccountState.new "alice" with version := 1, availableSats := 100 }] }
    let commands : List LedgerCommand := [
      .new plain.crypto "c1" .commitInternalTransfer "alice|bob" (some 1) "60" 1 100,
      .new plain.crypto "c2" .debitInternalBalance "alice" (some 1) "40" 1 100]
    countOk plain.apply (fun c => c.contends "alice") commands s ≤ 1 := by
  intro s commands
  refine versioned_at_most_once plain s "alice" 1 commands (by decide) ?_
  exact ⟨⟨apply_version_le plain (by decide +kernel), fun _ _ => by decide +kernel⟩,
    ⟨apply_version_le plain (by decide +kernel), fun h => absurd h (by decide)⟩, trivial⟩

/-- A debit and a transfer that carry the same version both succeed. -/
theorem debit_and_transfer_succeed :
    let s := { LedgerState.empty (.singleNode "cluster" "node") with
      version := 1
      accounts := [{ AccountState.new "alice" with version := 1, availableSats := 100 }] }
    let commands : List LedgerCommand := [
      .new plain.crypto "c1" .debitInternalBalance "alice" (some 1) "40" 1 100,
      .new plain.crypto "c2" .commitInternalTransfer "alice|bob" (some 1) "60" 1 100]
    (∀ c ∈ commands, c.contends "alice" → c.expectedVersion = some 1) ∧
      ¬ countOk plain.apply (fun c => c.contends "alice") commands s ≤ 1 := by
  decide +kernel

end StateMachine

end Kerosene.Ledger
