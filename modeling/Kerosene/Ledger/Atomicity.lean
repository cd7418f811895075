import Kerosene.Ledger.Transitions

/-! Which failed commands leave a trace.

A command is checked before its transition runs, so most failures change
nothing. Three kinds of commands can still fail after their first write: a
reservation whose reserved balance overflows, a release whose available balance
overflows or whose account is created first, and a transfer that has already
created or debited its source. `LeavesTrace` lists exactly these inputs, and
`apply_atomicAt` says that they are the only ones. -/
namespace Kerosene.Ledger.StateMachine

open Lib.Inplace Lib.Keyed

/-! ### Operations on one account -/

theorem writeAccount_eq_self {s : LedgerState} {a a' : AccountState}
    (h : s.findAccount a'.accountId = some a) : s.writeAccount a' = s ↔ a' = a := by
  rw [← put_eq_self h]
  constructor
  · intro hs
    exact congrArg LedgerState.accounts hs
  · intro hl
    unfold LedgerState.writeAccount
    rw [hl]

theorem writeAccount_ne_self {s : LedgerState} {a' : AccountState}
    (h : s.findAccount a'.accountId = none) : s.writeAccount a' ≠ s :=
  fun hs => put_ne_self h (congrArg LedgerState.accounts hs)

section OnAccount
variable {op : AccountState.Update} (hop : KeepsId op) {accountId : String} {s : LedgerState}
include hop

theorem onAccount_atomicAt_some {a : AccountState} (hf : s.findAccount accountId = some a) :
    AtomicAt (onAccount accountId op) s ↔ AtomicAt op a := by
  have heq := onAccount_eq hop accountId s
  have ha : accountOrNew s accountId = a := by
    rw [accountOrNew, hf]
    rfl
  rw [ha] at heq
  cases h : op a with
  | ok u a' =>
    rw [h] at heq
    exact iff_of_true (atomicAt_of_ok heq) (atomicAt_of_ok h)
  | error e a' =>
    rw [h] at heq
    rw [atomicAt_of_error heq, atomicAt_of_error h]
    apply writeAccount_eq_self
    have hid : a'.accountId = a.accountId := after_error h ▸ hop a
    rw [hid, key_of_find hf]
    exact hf

/-- On a missing account only success leaves no trace: the account was created. -/
theorem onAccount_atomicAt_none (hf : s.findAccount accountId = none) :
    AtomicAt (onAccount accountId op) s ↔ ∃ a, op (.new accountId) = .ok () a := by
  have heq := onAccount_eq hop accountId s
  have ha : accountOrNew s accountId = .new accountId := by
    rw [accountOrNew, hf]
    rfl
  rw [ha] at heq
  cases h : op (.new accountId) with
  | ok u a' =>
    rw [h] at heq
    exact iff_of_true (atomicAt_of_ok heq) ⟨a', rfl⟩
  | error e a' =>
    rw [h] at heq
    rw [atomicAt_of_error heq]
    have hfails : ¬ ∃ a, (EStateM.Result.error e a' : EStateM.Result _ _ Unit) = .ok () a := by
      intro hok
      obtain ⟨_, hok⟩ := hok
      cases hok
    refine iff_of_false (writeAccount_ne_self ?_) hfails
    have hid : a'.accountId = accountId := after_error h ▸ hop (.new accountId)
    rw [hid]
    exact hf

end OnAccount

variable (sm : StateMachine)

theorem apply_atomicAt_iff (c : LedgerCommand) (s : LedgerState) :
    AtomicAt (sm.apply c) s ↔ (sm.validate s c = .ok () → AtomicAt (sm.transition c) s) := by
  constructor
  · intro h hv e s' ht
    exact h e s' ((apply_error sm).mpr (.inr ⟨hv, ht⟩))
  · intro h e s' ha
    rcases (apply_error sm).mp ha with ⟨_, rfl⟩ | ⟨hv, ht⟩
    · rfl
    · exact h hv e s' ht

/-! ### Commands that do not work on accounts -/

theorem onUtxo_atomicAt {outpoint : OutPoint} {op : EStateM LedgerError UtxoEntry Unit}
    (hop : ∀ u, AtomicAt op u) (s : LedgerState) : AtomicAt (onUtxo outpoint op) s := by
  intro e s' h
  unfold onUtxo lookupUtxo at h
  cases hf : s.findUtxo outpoint with
  | none =>
    rw [hf] at h
    cases h
    rfl
  | some u =>
    rw [hf] at h
    cases ho : op u with
    | ok _ u' =>
      simp only [ho] at h
      cases h
    | error e' u' =>
      simp only [ho] at h
      cases h
      rw [hop u _ u' ho]
      unfold LedgerState.writeUtxo
      rw [(put_eq_self (by rw [key_of_find hf]; exact hf)).mpr rfl]

/-- An update that is checked before anything is assigned. -/
theorem checked_atomicAt {σ : Type} (x : σ → Except LedgerError Unit) (f : σ → σ) (u : σ) :
    AtomicAt (do
      let u ← get
      check (x u)
      set (f u) : EStateM LedgerError σ Unit) u := by
  intro e u' h
  simp only [bind_def, get_def] at h
  cases hx : x u with
  | ok _ =>
    rw [hx] at h
    cases h
  | error e' =>
    rw [hx] at h
    cases h
    rfl

theorem transition_atomicAt_of_not_accounts {c : LedgerCommand}
    (hc : ¬ c.commandType.TouchesAccounts) (s : LedgerState) : AtomicAt (sm.transition c) s := by
  have hutxo : ∀ (x : UtxoEntry → Except LedgerError Unit) (f : UtxoEntry → UtxoEntry)
      (outpoint : OutPoint), AtomicAt (do
        onUtxo outpoint do
          let u ← get
          check (x u)
          set (f u)
        return ["utxo"] : Update (List String)) s := fun x f _ =>
    atomicAt_bind_pure.mpr (onUtxo_atomicAt (checked_atomicAt x f) s)
  unfold transition
  cases ht : c.commandType with
  | creditInternalBalance | debitInternalBalance | reserveBalance | releaseReservation
  | commitInternalTransfer =>
    rw [ht] at hc
    exact absurd (by decide) hc
  | detectUtxo =>
    refine .bind_readOnly (readOnly_check _) fun outpoint =>
      .bind_readOnly (readOnly_check _) fun payload => atomicAt_bind_pure.mpr ?_
    obtain ⟨utxos, h⟩ := trackUtxo_ok outpoint payload c.createdAtBucket s
    exact atomicAt_of_ok h
  | confirmUtxo =>
    exact .bind_readOnly (readOnly_check _) fun _ =>
      .bind_readOnly (readOnly_check _) fun _ => hutxo _ _ _
  | markUtxoSpendable => exact .bind_readOnly (readOnly_check _) fun _ => hutxo _ _ _
  | reserveUtxo => exact .bind_readOnly (readOnly_check _) fun _ => hutxo _ _ _
  | releaseUtxo => exact .bind_readOnly (readOnly_check _) fun _ => hutxo _ _ _
  | markUtxoSpent => exact .bind_readOnly (readOnly_check _) fun _ => hutxo _ _ _
  | applyChainReorganization =>
    exact .bind_readOnly (readOnly_check _) fun _ => atomicAt_bind_pure.mpr (atomicAt_of_ok rfl)
  | prepareWithdrawal | authorizeWithdrawal | broadcastWithdrawal | confirmWithdrawal
  | failWithdrawal | promoteVotingNode | installSnapshot | consumeIntent | expireIntent
  | addObserverNode | removeNode => exact atomicAt_of_ok rfl

/-! ### Commands on one account -/

theorem transition_atomicAt_some {c : LedgerCommand} {op : BalanceOperation}
    (hop : c.commandType.operation = some op) {s : LedgerState} {a : AccountState}
    (hf : s.findAccount c.partitionKey = some a) :
    AtomicAt (sm.transition c) s ↔ ¬ a.StopsHalfway op c.effectiveAmount := by
  rw [transition_operation sm hop, atomicAt_bind_pure,
    onAccount_atomicAt_some (keepsId_operate _ _) hf, AccountState.operate_atomicAt]

theorem transition_atomicAt_none {c : LedgerCommand} {op : BalanceOperation}
    (hop : c.commandType.operation = some op) {s : LedgerState}
    (hf : s.findAccount c.partitionKey = none) :
    AtomicAt (sm.transition c) s ↔
      ∃ a, AccountState.operate op c.effectiveAmount (.new c.partitionKey) = .ok () a := by
  rw [transition_operation sm hop, atomicAt_bind_pure,
    onAccount_atomicAt_none (keepsId_operate _ _) hf]

/-! ### Transfers -/

/-- A transfer that fails after it has created its source, or debited it. -/
def TransferTrace (s : LedgerState) (source dest : String) (amount : UInt64) : Prop :=
  (s.findAccount source = none ∧ 0 < amount) ∨
    (source ≠ dest ∧ ∃ a b, s.findAccount source = some a ∧ amount ≤ a.availableSats ∧
      s.findAccount dest = some b ∧ 2 ^ 64 ≤ b.availableSats.toNat + amount.toNat)

/-- Writing a changed account changes the state. -/
theorem writeAccount_ne_of_version {s : LedgerState} {id : String} {a' : AccountState}
    (hid : a'.accountId = id) (hv : a'.version ≠ (accountOrNew s id).version) :
    s.writeAccount a' ≠ s := by
  cases hf : s.findAccount id with
  | none => exact writeAccount_ne_self (by rw [hid]; exact hf)
  | some a =>
    intro h
    rw [writeAccount_eq_self (by rw [hid]; exact hf)] at h
    rw [accountOrNew, hf] at hv
    exact hv (congrArg AccountState.version h)

theorem findAccount_of_overflow {s : LedgerState} {id : String} {amount : UInt64}
    (h : 2 ^ 64 ≤ (accountOrNew s id).availableSats.toNat + amount.toNat) :
    s.findAccount id = some (accountOrNew s id) := by
  unfold accountOrNew at h ⊢
  cases hf : s.findAccount id with
  | some a => rfl
  | none =>
    rw [hf] at h
    have := amount.toNat_lt
    simp [AccountState.new] at h
    omega

section Transfer
variable {s : LedgerState} {source dest : String} {amount : UInt64}

/-- Without the funds nothing is written, but a missing source is created. -/
theorem transfer_atomicAt_of_lt (h : (accountOrNew s source).availableSats < amount) :
    AtomicAt (transfer source dest amount) s ↔ ¬ TransferTrace s source dest amount := by
  have hdebit := AccountState.applyDebit_eq amount (accountOrNew s source)
  rw [if_neg (UInt64.not_le.mpr h)] at hdebit
  rw [atomicAt_of_error (transfer_of_debit_error hdebit)]
  cases hf : s.findAccount source with
  | none =>
    have hnew : accountOrNew s source = .new source := by
      rw [accountOrNew, hf]
      rfl
    rw [hnew] at h ⊢
    exact iff_of_false (writeAccount_ne_self hf) (not_not.mpr (.inl ⟨hf, h⟩))
  | some a =>
    have ha : accountOrNew s source = a := by
      rw [accountOrNew, hf]
      rfl
    rw [ha] at h ⊢
    refine iff_of_true ((writeAccount_eq_self (by rw [key_of_find hf]; exact hf)).mpr rfl) ?_
    intro htrace
    rcases htrace with ⟨hnone, _⟩ | ⟨_, a', _, ha', hle, _⟩
    · rw [hf] at hnone
      cases hnone
    · rw [hf] at ha'
      cases ha'
      exact UInt64.not_lt.mpr hle h

/-- With the funds the source is debited first, and stays so when the
destination has no room. -/
theorem transfer_atomicAt_of_le (h : amount ≤ (accountOrNew s source).availableSats) :
    AtomicAt (transfer source dest amount) s ↔ ¬ TransferTrace s source dest amount := by
  have hdebit := AccountState.applyDebit_eq amount (accountOrNew s source)
  rw [if_pos h] at hdebit
  have htransfer : transfer source dest amount s = _ := transfer_of_debit_ok hdebit
  set a : AccountState := { accountOrNew s source with
    availableSats := (accountOrNew s source).availableSats - amount
    version := (accountOrNew s source).version + 1 } with ha
  have hid : a.accountId = source := accountOrNew_accountId s source
  have hle := UInt64.le_iff_toNat_le.mp h
  have hchanged : s.writeAccount a ≠ s := writeAccount_ne_of_version hid (by simp [ha])
  rw [accountOrNew_writeAccount, hid, AccountState.operate, AccountState.applyCredit_eq] at htransfer
  by_cases hself : source = dest
  · -- What was taken from the only account involved always fits back.
    have hroom : a.availableSats.toNat + amount.toNat < 2 ^ 64 := by
      have := (accountOrNew s source).availableSats.toNat_lt
      rw [ha]
      simp only [UInt64.toNat_sub_of_le _ _ h]
      omega
    rw [if_pos hself, if_pos hroom] at htransfer
    refine iff_of_true (atomicAt_of_ok htransfer) ?_
    intro htrace
    rcases htrace with ⟨hnone, hpos⟩ | ⟨hne, _⟩
    · rw [accountOrNew, hnone] at h
      exact UInt64.not_lt.mpr h hpos
    · exact hne hself
  · rw [if_neg hself] at htransfer
    by_cases hroom : (accountOrNew s dest).availableSats.toNat + amount.toNat < 2 ^ 64
    · rw [if_pos hroom] at htransfer
      refine iff_of_true (atomicAt_of_ok htransfer) ?_
      intro htrace
      rcases htrace with ⟨hnone, hpos⟩ | ⟨_, _, b, _, _, hb, hover⟩
      · rw [accountOrNew, hnone] at h
        exact UInt64.not_lt.mpr h hpos
      · rw [accountOrNew, hb] at hroom
        exact Nat.not_lt.mpr hover hroom
    · rw [if_neg hroom] at htransfer
      have hover := Nat.not_lt.mp hroom
      have hdest := findAccount_of_overflow hover
      have hback : (s.writeAccount a).writeAccount (accountOrNew s dest) = s.writeAccount a := by
        rw [writeAccount_eq_self]
        rw [accountOrNew_accountId, findAccount_writeAccount, hid, if_neg hself]
        exact hdest
      dsimp only at htransfer
      rw [hback] at htransfer
      have hfound : s.findAccount source = some (accountOrNew s source) := by
        cases hf : s.findAccount source with
        | some a' =>
          rw [accountOrNew, hf]
          rfl
        | none =>
          rw [accountOrNew, hf] at hle
          have := (accountOrNew s dest).availableSats.toNat_lt
          simp only [Option.getD_none, AccountState.new, UInt64.toNat_zero] at hle
          omega
      rw [atomicAt_of_error htransfer]
      exact iff_of_false hchanged
        (not_not.mpr (.inr ⟨hself, _, _, hfound, h, hdest, hover⟩))

theorem transfer_atomicAt :
    AtomicAt (transfer source dest amount) s ↔ ¬ TransferTrace s source dest amount := by
  by_cases h : amount ≤ (accountOrNew s source).availableSats
  · exact transfer_atomicAt_of_le h
  · exact transfer_atomicAt_of_lt (UInt64.not_le.mp h)

end Transfer

/-! ### Every command -/

/-- The inputs on which a command fails after its first write. -/
def LeavesTrace (s : LedgerState) (c : LedgerCommand) : Prop :=
  match c.commandType with
  | .reserveBalance =>
    ∃ a, s.findAccount c.partitionKey = some a ∧ VersionOk c a ∧ a.StopsHalfway .reserve c.amount
  | .releaseReservation =>
    (s.findAccount c.partitionKey = none ∧ c.expectedVersion = none ∧ 0 < c.amount) ∨
      ∃ a, s.findAccount c.partitionKey = some a ∧ VersionOk c a ∧
        a.StopsHalfway .releaseReservation c.amount
  | .commitInternalTransfer =>
    ∃ source dest, c.transferParts = some (source, dest) ∧ TransferTrace s source dest c.amount
  | _ => False

theorem not_leavesTrace_of_not_accounts {s : LedgerState} {c : LedgerCommand}
    (hc : ¬ c.commandType.TouchesAccounts) : ¬ LeavesTrace s c := by
  unfold LeavesTrace
  cases ht : c.commandType <;> rw [ht] at hc <;> first
    | exact not_false
    | exact absurd (by decide) hc

/-- A command that only runs on an account that exists at the expected version. -/
theorem existing_atomicAt {c : LedgerCommand} {op : BalanceOperation}
    (hop : c.commandType.operation = some op) (s : LedgerState) :
    (validateExisting s c = .ok () → AtomicAt (sm.transition c) s) ↔
      ¬ ∃ a, s.findAccount c.partitionKey = some a ∧ VersionOk c a ∧
        a.StopsHalfway op c.effectiveAmount := by
  rw [validateExisting_ok]
  constructor
  · intro h htrace
    obtain ⟨a, hf, hv, hhalf⟩ := htrace
    exact (transition_atomicAt_some sm hop hf).mp (h ⟨a, hf, hv⟩) hhalf
  · intro h hvalid
    obtain ⟨a, hf, hv⟩ := hvalid
    exact (transition_atomicAt_some sm hop hf).mpr fun hhalf => h ⟨a, hf, hv, hhalf⟩

theorem credit_atomicAt {c : LedgerCommand} (ht : c.commandType = .creditInternalBalance)
    (s : LedgerState) : AtomicAt (sm.transition c) s := by
  have hop : c.commandType.operation = some .credit := by rw [ht]; rfl
  cases hf : s.findAccount c.partitionKey with
  | some a => exact (transition_atomicAt_some sm hop hf).mpr not_false
  | none =>
    rw [transition_atomicAt_none sm hop hf, AccountState.operate, AccountState.applyCredit_eq]
    have := c.effectiveAmount.toNat_lt
    rw [if_pos (by simp only [AccountState.new, UInt64.toNat_zero]; omega)]
    exact ⟨_, rfl⟩

theorem release_atomicAt {c : LedgerCommand} (ht : c.commandType = .releaseReservation)
    (s : LedgerState) :
    (validateReleaseReservation s c = .ok () → AtomicAt (sm.transition c) s) ↔
      ¬ ((s.findAccount c.partitionKey = none ∧ c.expectedVersion = none ∧ 0 < c.amount) ∨
        ∃ a, s.findAccount c.partitionKey = some a ∧ VersionOk c a ∧
          a.StopsHalfway .releaseReservation c.amount) := by
  have hop : c.commandType.operation = some .releaseReservation := by rw [ht]; rfl
  have hamount : c.effectiveAmount = c.amount := by simp [LedgerCommand.effectiveAmount, ht]
  rw [validateReleaseReservation_ok]
  cases hf : s.findAccount c.partitionKey with
  | some a =>
    rw [transition_atomicAt_some sm hop hf, hamount]
    simp
  | none =>
    -- A new account has nothing reserved, so only an amount of 0 can be released.
    have hnew : (∃ a, AccountState.operate .releaseReservation c.amount (.new c.partitionKey) =
        .ok () a) ↔ ¬ 0 < c.amount := by
      rw [AccountState.operate, AccountState.applyReleaseReservation_eq, UInt64.not_lt]
      by_cases h0 : c.amount ≤ 0
      · have hzero : c.amount = 0 := UInt64.le_zero_iff.mp h0
        simp [hzero, AccountState.new]
      · simp [AccountState.new, h0]
    rw [transition_atomicAt_none sm hop hf, hamount, hnew]
    simp

theorem commitInternalTransfer_atomicAt {c : LedgerCommand}
    (ht : c.commandType = .commitInternalTransfer) (s : LedgerState) :
    AtomicAt (sm.transition c) s ↔
      ¬ ∃ source dest, c.transferParts = some (source, dest) ∧
        TransferTrace s source dest c.amount := by
  cases hp : c.transferParts with
  | none =>
    have h : sm.transition c s = .error (.atomicTransferFailed
        "CommitInternalTransfer: partition_key must be 'source|dest'") s := by
      unfold transition
      rw [ht, hp]
      rfl
    exact iff_of_true ((atomicAt_of_error h).mpr rfl) (by simp)
  | some parts =>
    obtain ⟨source, dest⟩ := parts
    rw [transition_transfer sm ht hp, transfer_atomicAt]
    simp

/-- A destination without room: the transfer fails and the source stays debited. -/
theorem failed_transfer_keeps_debit :
    ¬ AtomicAt
      (plain.apply (.new plain.crypto "t1" .commitInternalTransfer "alice|bob" none "100" 1 1))
      { LedgerState.empty (.singleNode "cluster" "node") with
        version := 2
        accounts := [
          { AccountState.new "alice" with version := 1, availableSats := 100 },
          { AccountState.new "bob" with version := 1, availableSats := 0xffffffffffffffff }] } := by
  intro h
  have hsame := congrArg LedgerState.accounts (h _ _ rfl)
  exact absurd hsame (by decide)

/-- **Exactly the commands of `LeavesTrace` fail with the state changed.** -/
theorem apply_atomicAt (c : LedgerCommand) (s : LedgerState) :
    AtomicAt (sm.apply c) s ↔ ¬ LeavesTrace s c := by
  rw [apply_atomicAt_iff]
  by_cases hc : c.commandType.TouchesAccounts
  case neg =>
    exact iff_of_true (fun _ => transition_atomicAt_of_not_accounts sm hc s)
      (not_leavesTrace_of_not_accounts hc)
  unfold validate LeavesTrace
  have hamount : c.commandType ≠ .creditInternalBalance → c.effectiveAmount = c.amount :=
    fun h => if_neg fun h' => h h'.1
  cases ht : c.commandType with
  | creditInternalBalance => exact iff_of_true (fun _ => credit_atomicAt sm ht s) not_false
  | debitInternalBalance =>
    refine iff_of_true ((existing_atomicAt sm (by rw [ht]; rfl) s).mpr ?_) not_false
    intro h
    obtain ⟨a, _, _, hhalf⟩ := h
    exact hhalf
  | reserveBalance =>
    rw [← hamount (by rw [ht]; decide)]
    exact existing_atomicAt sm (by rw [ht]; rfl) s
  | releaseReservation => exact release_atomicAt sm ht s
  | commitInternalTransfer =>
    rw [← commitInternalTransfer_atomicAt sm ht s]
    exact forall_prop_of_true rfl
  | _ =>
    rw [ht] at hc
    exact absurd hc (by decide)

end Kerosene.Ledger.StateMachine
