import Kerosene.Ledger.StateMachine

/-! What a command can do to the state, said once.

`apply_eq` splits a command into validation, transition and the step of the
version counter; `onAccount_eq` says what an operation on an account leaves. The
frame facts follow: no transition moves the version counter
(`transition_version`), and only the five balance commands touch the accounts
(`transition_accounts`). -/
namespace Kerosene.Ledger

open Lib.Encode Lib.Inplace Lib.Keyed

/-- The operation of the commands that work on one account. -/
def LedgerCommandType.operation : LedgerCommandType → Option BalanceOperation
  | .creditInternalBalance => some .credit
  | .debitInternalBalance => some .debit
  | .reserveBalance => some .reserve
  | .releaseReservation => some .releaseReservation
  | _ => none

/-- The commands that work on accounts. -/
def LedgerCommandType.TouchesAccounts (t : LedgerCommandType) : Prop :=
  t.operation.isSome ∨ t = .commitInternalTransfer

instance : DecidablePred LedgerCommandType.TouchesAccounts := fun t =>
  inferInstanceAs (Decidable (t.operation.isSome ∨ t = .commitInternalTransfer))

/-- The part of the state a command works on. -/
inductive CommandGroup where
  | balance
  | utxo
  | reorganization
  | intent
  | node
  | none
  deriving DecidableEq, Repr

def LedgerCommandType.group : LedgerCommandType → CommandGroup
  | .creditInternalBalance | .debitInternalBalance | .reserveBalance | .releaseReservation
  | .commitInternalTransfer => .balance
  | .detectUtxo | .confirmUtxo | .markUtxoSpendable | .reserveUtxo | .releaseUtxo
  | .markUtxoSpent => .utxo
  | .applyChainReorganization => .reorganization
  | .consumeIntent | .expireIntent => .intent
  | .addObserverNode | .promoteVotingNode | .removeNode => .node
  | .prepareWithdrawal | .authorizeWithdrawal | .broadcastWithdrawal | .confirmWithdrawal
  | .failWithdrawal | .installSnapshot => .none

theorem LedgerCommandType.touchesAccounts_iff {t : LedgerCommandType} :
    t.TouchesAccounts ↔ t.group = .balance := by
  cases t <;> decide

/-- What a balance command moves: a credit without a version moves nothing. -/
def LedgerCommand.effectiveAmount (c : LedgerCommand) : UInt64 :=
  if c.commandType = .creditInternalBalance ∧ c.expectedVersion = none then 0 else c.amount

namespace StateMachine

variable (sm : StateMachine)

/-! ### A command as a whole -/

/-- The receipt of a transition from `s` that left `s'`. -/
def receipt (c : LedgerCommand) (s s' : LedgerState) (affectedAccounts : List String) :
    StateTransitionReceipt :=
  { sequence := s.version
    commandHash := c.payloadHash
    previousStateRoot := computeStateRoot sm.crypto s
    resultingStateRoot := computeStateRoot sm.crypto s'
    affectedAccounts }

def bumpVersion (s : LedgerState) : LedgerState := { s with version := s.version + 1 }

theorem apply_eq (c : LedgerCommand) (s : LedgerState) :
    sm.apply c s =
      match sm.validate s c with
      | .error e => .error e s
      | .ok () =>
        match sm.transition c s with
        | .error e s' => .error e s'
        | .ok affected s' =>
          .ok (sm.receipt c s (bumpVersion s') affected) (bumpVersion s') := by
  simp only [apply, bind_def, get_def]
  cases hv : sm.validate s c with
  | error e => rfl
  | ok u =>
    simp only [check_ok]
    cases sm.transition c s <;> rfl

theorem apply_ok {c : LedgerCommand} {s s' : LedgerState} {r : StateTransitionReceipt} :
    sm.apply c s = .ok r s' ↔
      sm.validate s c = .ok () ∧ ∃ affected t, sm.transition c s = .ok affected t ∧
        s' = bumpVersion t ∧ r = sm.receipt c s s' affected := by
  rw [apply_eq]
  cases sm.validate s c with
  | error e => simp
  | ok u =>
    cases sm.transition c s with
    | error e t => simp
    | ok affected t =>
      simp only [EStateM.Result.ok.injEq, true_and]
      constructor
      · intro h
        obtain ⟨hr, hs⟩ := h
        exact ⟨affected, t, ⟨rfl, rfl⟩, hs.symm, by rw [← hr, ← hs]⟩
      · intro h
        obtain ⟨_, _, ⟨rfl, rfl⟩, rfl, rfl⟩ := h
        exact ⟨rfl, rfl⟩

/-- A command preserves what its transition and the step of the counter preserve. -/
theorem preserves_apply {R : LedgerState → LedgerState → Prop} (hrefl : ∀ s, R s s)
    (htrans : ∀ s t u, R s t → R t u → R s u) (hbump : ∀ s, R s (bumpVersion s)) {c : LedgerCommand}
    (h : Preserves R (sm.transition c)) : Preserves R (sm.apply c) := by
  intro s
  have hs := h s
  unfold after at hs ⊢
  rw [apply_eq]
  cases sm.validate s c with
  | error e => exact hrefl s
  | ok u =>
    cases ht : sm.transition c s with
    | error e t =>
      rw [ht] at hs
      exact hs
    | ok affected t =>
      rw [ht] at hs
      exact htrans _ _ _ hs (hbump t)

theorem apply_error {c : LedgerCommand} {s s' : LedgerState} {e : LedgerError} :
    sm.apply c s = .error e s' ↔
      (sm.validate s c = .error e ∧ s' = s) ∨
        (sm.validate s c = .ok () ∧ sm.transition c s = .error e s') := by
  rw [apply_eq]
  cases sm.validate s c with
  | error e' => simp [eq_comm]
  | ok u => cases sm.transition c s <;> simp

/-! ### Operations on an account -/

/-- The account an operation works on: the stored one or a new one. -/
def accountOrNew (s : LedgerState) (accountId : String) : AccountState :=
  (s.findAccount accountId).getD (.new accountId)

theorem accountOrNew_accountId (s : LedgerState) (accountId : String) :
    (accountOrNew s accountId).accountId = accountId := by
  unfold accountOrNew
  cases h : s.findAccount accountId with
  | none => rfl
  | some a => exact key_of_find h

theorem findAccount_writeAccount (s : LedgerState) (a : AccountState) (id : String) :
    (s.writeAccount a).findAccount id = if a.accountId = id then some a else s.findAccount id :=
  find_put id a s.accounts

theorem accountOrNew_writeAccount (s : LedgerState) (a : AccountState) (id : String) :
    accountOrNew (s.writeAccount a) id = if a.accountId = id then a else accountOrNew s id := by
  unfold accountOrNew
  rw [findAccount_writeAccount]
  split <;> rfl

/-- An operation that does not rename the account it works on. -/
def KeepsId (op : AccountState.Update) : Prop :=
  Preserves (fun a a' : AccountState => a'.accountId = a.accountId) op

theorem onAccount_eq {op : AccountState.Update} (hop : KeepsId op) (accountId : String)
    (s : LedgerState) :
    onAccount accountId op s =
      match op (accountOrNew s accountId) with
      | .ok () a => .ok accountId (s.writeAccount a)
      | .error e a => .error e (s.writeAccount a) := by
  have hid : (after op (accountOrNew s accountId)).accountId = accountId :=
    (hop _).trans (accountOrNew_accountId s accountId)
  unfold onAccount LedgerState.getOrCreateAccount
  cases hf : s.findAccount accountId with
  | some a =>
    have ha : accountOrNew s accountId = a := by rw [accountOrNew, hf]; rfl
    rw [ha] at hid ⊢
    cases h : op a with
    | ok u a' =>
      rw [after_ok h] at hid
      simp only [h, hid]
    | error e a' => simp only [h]
  | none =>
    -- A created account is written over at once, so creating and writing is one write.
    have ha : accountOrNew s accountId = .new accountId := by rw [accountOrNew, hf]; rfl
    rw [ha] at hid ⊢
    have hwrite : ∀ a' : AccountState, a'.accountId = accountId →
        ({ s with accounts := s.accounts ++ [.new accountId] } : LedgerState).writeAccount a' =
          s.writeAccount a' := by
      intro a' ha'
      simp only [LedgerState.writeAccount]
      rw [put_append_fresh (by rw [ha']; exact hf) ha'.symm]
    cases h : op (.new accountId) with
    | ok u a' =>
      rw [after_ok h] at hid
      simp only [h, hid, hwrite a' hid]
    | error e a' =>
      rw [after_error h] at hid
      simp only [h, hwrite a' hid]

theorem keepsId_operate (op : BalanceOperation) (amount : UInt64) :
    KeepsId (AccountState.operate op amount) := by
  intro a
  rcases AccountState.operate_after op amount a with ⟨a', h, hid, _⟩ | ⟨e, a', h, hid, _⟩
  · rw [after_ok h]
    exact hid
  · rw [after_error h]
    exact hid

/-! ### The balance commands -/

theorem transition_operation {c : LedgerCommand} {op : BalanceOperation}
    (h : c.commandType.operation = some op) :
    sm.transition c = do
      let id ← onAccount c.partitionKey (AccountState.operate op c.effectiveAmount)
      return [id] := by
  unfold transition LedgerCommand.effectiveAmount
  cases hc : c.commandType <;> rw [hc] at h <;> cases h <;> try rfl
  cases c.expectedVersion <;> rfl

/-- The two writes of a transfer. -/
def transfer (source dest : String) (amount : UInt64) : Update (List String) := do
  let a ← onAccount source (AccountState.operate .debit amount)
  let b ← onAccount dest (AccountState.operate .credit amount)
  return [a, b]

theorem transition_transfer {c : LedgerCommand} {source dest : String}
    (h : c.commandType = .commitInternalTransfer) (hp : c.transferParts = some (source, dest)) :
    sm.transition c = transfer source dest c.amount := by
  unfold transition
  rw [h, hp]
  rfl

section Transfer
variable {s : LedgerState} {source dest : String} {amount : UInt64}

theorem transfer_of_debit_error {e : LedgerError} {a : AccountState}
    (h : AccountState.operate .debit amount (accountOrNew s source) = .error e a) :
    transfer source dest amount s = .error e (s.writeAccount a) := by
  unfold transfer
  rw [bind_def, onAccount_eq (keepsId_operate _ _), h]

theorem transfer_of_debit_ok {a : AccountState}
    (h : AccountState.operate .debit amount (accountOrNew s source) = .ok () a) :
    transfer source dest amount s =
      match AccountState.operate .credit amount (accountOrNew (s.writeAccount a) dest) with
      | .ok () b => .ok [source, dest] ((s.writeAccount a).writeAccount b)
      | .error e b => .error e ((s.writeAccount a).writeAccount b) := by
  unfold transfer
  rw [bind_def, onAccount_eq (keepsId_operate _ _), h]
  simp only [bind_def, onAccount_eq (keepsId_operate _ _)]
  cases AccountState.operate .credit amount (accountOrNew (s.writeAccount a) dest) <;> rfl

end Transfer

/-! ### Versions at validation -/

/-- The version a command names, if it names one, is the account's. -/
def VersionOk (c : LedgerCommand) (a : AccountState) : Prop :=
  ∀ v, c.expectedVersion = some v → a.version = v

theorem validateExisting_ok {s : LedgerState} {c : LedgerCommand} :
    validateExisting s c = .ok () ↔
      ∃ a, s.findAccount c.partitionKey = some a ∧ VersionOk c a := by
  unfold validateExisting VersionOk
  cases s.findAccount c.partitionKey <;> cases c.expectedVersion <;> simp [AccountState.checkVersion_ok]

theorem validateReleaseReservation_ok {s : LedgerState} {c : LedgerCommand} :
    validateReleaseReservation s c = .ok () ↔
      (s.findAccount c.partitionKey = none ∧ c.expectedVersion = none) ∨
        ∃ a, s.findAccount c.partitionKey = some a ∧ VersionOk c a := by
  unfold validateReleaseReservation VersionOk
  cases s.findAccount c.partitionKey <;> cases c.expectedVersion <;> simp [AccountState.checkVersion_ok]

/-! ### The other commands -/

/-- Tracking a UTXO never fails: a reorganized one may always be seen again. -/
theorem trackUtxo_ok (outpoint : OutPoint) (payload : DetectUtxoPayload) (bucket : UInt64)
    (s : LedgerState) :
    ∃ utxos, trackUtxo outpoint payload bucket s = .ok () { s with utxos := utxos } := by
  unfold trackUtxo
  simp only [bind_def, get_def]
  cases s.findUtxo outpoint with
  | none => exact ⟨_, rfl⟩
  | some u =>
    by_cases h : u.state = .reorged
    · simp only [h]
      exact ⟨_, rfl⟩
    · simp only [if_neg h]
      exact ⟨s.utxos, rfl⟩

/-! ### Frames -/

section Preserved
variable {R : LedgerState → LedgerState → Prop}

theorem preserves_onAccount (h : ∀ (s : LedgerState) l, R s { s with accounts := l })
    (accountId : String) (op : AccountState.Update) : Preserves R (onAccount accountId op) := by
  intro s
  unfold after onAccount LedgerState.getOrCreateAccount
  cases s.findAccount accountId with
  | some a =>
    dsimp only
    cases op a <;> exact h s _
  | none =>
    dsimp only
    cases op (.new accountId) <;> exact h s _

theorem preserves_onUtxo (hrefl : ∀ s, R s s) (h : ∀ (s : LedgerState) l, R s { s with utxos := l })
    (outpoint : OutPoint) (op : EStateM LedgerError UtxoEntry Unit) :
    Preserves R (onUtxo outpoint op) := by
  intro s
  unfold after StateMachine.onUtxo
  cases lookupUtxo s outpoint with
  | error e => exact hrefl s
  | ok u =>
    dsimp only
    cases op u <;> exact h s _

theorem preserves_onUtxos {α : Type} (h : ∀ (s : LedgerState) l, R s { s with utxos := l })
    (op : EStateM LedgerError (List UtxoEntry) α) : Preserves R (onUtxos op) := by
  intro s
  unfold after StateMachine.onUtxos
  cases op s.utxos <;> exact h s _

theorem preserves_trackUtxo (h : ∀ (s : LedgerState) l, R s { s with utxos := l })
    (outpoint : OutPoint) (payload : DetectUtxoPayload) (bucket : UInt64) :
    Preserves R (trackUtxo outpoint payload bucket) := by
  intro s
  obtain ⟨utxos, hok⟩ := trackUtxo_ok outpoint payload bucket s
  rw [after_ok hok]
  exact h s utxos

/-- A transition preserves what the operations of its group preserve. -/
theorem preserves_transition (hrefl : ∀ s, R s s) (htrans : ∀ s t u, R s t → R t u → R s u)
    (c : LedgerCommand)
    (hbalance : c.commandType.group = .balance → ∀ id op, KeepsId op → Preserves R (onAccount id op))
    (hutxos : c.commandType.group = .utxo ∨ c.commandType.group = .reorganization →
      ∀ (s : LedgerState) l, R s { s with utxos := l })
    (hintent : c.commandType.group = .intent → ∀ s, R s (consume c.partitionKey s))
    (hnode : c.commandType.group = .node →
      ∀ s, R s (addNode c.partitionKey s) ∧ R s (removeNode c.partitionKey s)) :
    Preserves R (sm.transition c) := by
  have hpure : ∀ l : List String, Preserves R (pure l : Update (List String)) :=
    preserves_pure hrefl
  have hchecked {α β : Type} (x : Except LedgerError α) (f : α → Update β)
      (hf : ∀ a, Preserves R (f a)) : Preserves R (check x >>= f) :=
    preserves_bind htrans (preserves_check hrefl x) hf
  have hmodify (f : LedgerState → LedgerState) (hf : ∀ s, R s (f s)) (l : List String) :
      Preserves R (do modify f; return l : Update (List String)) :=
    preserves_bind htrans (m := modify f) hf fun _ => hpure l
  by_cases hgroup : c.commandType.group = .balance
  · rcases LedgerCommandType.touchesAccounts_iff.mpr hgroup with hop | htransfer
    · obtain ⟨op, hop⟩ := Option.isSome_iff_exists.mp hop
      rw [transition_operation sm hop]
      exact preserves_bind htrans (hbalance hgroup _ _ (keepsId_operate _ _)) fun _ => hpure _
    · cases hp : c.transferParts with
      | none =>
        unfold StateMachine.transition
        rw [htransfer, hp]
        exact preserves_throw hrefl _
      | some parts =>
        rw [transition_transfer sm htransfer (hp : _ = some (parts.1, parts.2))]
        exact preserves_bind htrans (hbalance hgroup _ _ (keepsId_operate _ _)) fun _ =>
          preserves_bind htrans (hbalance hgroup _ _ (keepsId_operate _ _)) fun _ => hpure _
  · unfold StateMachine.transition
    cases ht : c.commandType <;> rw [ht] at hgroup hutxos hintent hnode
    case creditInternalBalance | debitInternalBalance | reserveBalance | releaseReservation
        | commitInternalTransfer => exact absurd rfl hgroup
    case detectUtxo =>
      exact hchecked _ _ fun _ => hchecked _ _ fun _ =>
        preserves_bind htrans (preserves_trackUtxo (hutxos (.inl rfl)) _ _ _) fun _ => hpure _
    case confirmUtxo =>
      exact hchecked _ _ fun _ => hchecked _ _ fun _ =>
        preserves_bind htrans (preserves_onUtxo hrefl (hutxos (.inl rfl)) _ _) fun _ => hpure _
    case markUtxoSpendable | reserveUtxo | releaseUtxo | markUtxoSpent =>
      exact hchecked _ _ fun _ =>
        preserves_bind htrans (preserves_onUtxo hrefl (hutxos (.inl rfl)) _ _) fun _ => hpure _
    case applyChainReorganization =>
      exact hchecked _ _ fun _ =>
        preserves_bind htrans (preserves_onUtxos (hutxos (.inr rfl)) _) fun _ => hpure _
    case consumeIntent | expireIntent => exact hmodify _ (hintent rfl) _
    case addObserverNode => exact hmodify _ (fun s => (hnode rfl s).1) _
    case removeNode => exact hmodify _ (fun s => (hnode rfl s).2) _
    all_goals exact hpure _

end Preserved

/-- A relation between states that survives every change outside the accounts. -/
structure Frame (R : LedgerState → LedgerState → Prop) : Prop where
  refl : ∀ s, R s s
  trans : ∀ s t u, R s t → R t u → R s u
  utxos : ∀ (s : LedgerState) l, R s { s with utxos := l }
  intents : ∀ (s : LedgerState) l, R s { s with consumedIntents := l }
  nodes : ∀ (s : LedgerState) l, R s { s with membership.nodes := l }

/-- Every transition respects a frame, as long as a command that works on
accounts is only asked to when the relation allows it. -/
theorem Frame.transition {R : LedgerState → LedgerState → Prop} (hR : Frame R) (c : LedgerCommand)
    (haccounts : c.commandType.TouchesAccounts → ∀ (s : LedgerState) l, R s { s with accounts := l }) :
    Preserves R (sm.transition c) := by
  refine preserves_transition sm hR.refl hR.trans c (fun h id op _ => ?_) (fun _ => hR.utxos)
    (fun _ s => ?_) fun _ s => ⟨?_, hR.nodes s _⟩
  · exact preserves_onAccount (haccounts (LedgerCommandType.touchesAccounts_iff.mpr h)) id op
  · unfold consume
    split
    · exact hR.refl s
    · exact hR.intents s _
  · unfold addNode
    split
    · exact hR.refl s
    · exact hR.nodes s _

/-- A part of the state that is neither UTXOs, intents nor nodes. -/
theorem Frame.ofField {τ : Type} (f : LedgerState → τ)
    (hutxos : ∀ (s : LedgerState) l, f { s with utxos := l } = f s)
    (hintents : ∀ (s : LedgerState) l, f { s with consumedIntents := l } = f s)
    (hnodes : ∀ (s : LedgerState) l, f { s with membership.nodes := l } = f s) :
    Frame fun s s' => f s' = f s :=
  ⟨fun _ => rfl, fun _ _ _ h h' => h'.trans h, hutxos, hintents, hnodes⟩

/-- No transition moves the global version. -/
theorem transition_version (c : LedgerCommand) :
    Preserves (fun s s' : LedgerState => s'.version = s.version) (sm.transition c) :=
  Frame.transition sm (.ofField LedgerState.version (fun _ _ => rfl) (fun _ _ => rfl) fun _ _ => rfl)
    c fun _ _ _ => rfl

/-- Only the balance commands touch the accounts. -/
theorem transition_accounts {c : LedgerCommand} (hc : ¬ c.commandType.TouchesAccounts) :
    Preserves (fun s s' : LedgerState => s'.accounts = s.accounts) (sm.transition c) :=
  Frame.transition sm (.ofField LedgerState.accounts (fun _ _ => rfl) (fun _ _ => rfl) fun _ _ => rfl)
    c fun h => absurd h hc

section Fields
variable {c : LedgerCommand}

/-- A part of the state that the command's group does not work on. -/
theorem transition_field {τ : Type} (f : LedgerState → τ)
    (hbalance : c.commandType.group = .balance → ∀ (s : LedgerState) l, f { s with accounts := l } = f s)
    (hutxos : c.commandType.group = .utxo ∨ c.commandType.group = .reorganization →
      ∀ (s : LedgerState) l, f { s with utxos := l } = f s)
    (hintent : c.commandType.group = .intent →
      ∀ (s : LedgerState) l, f { s with consumedIntents := l } = f s)
    (hnode : c.commandType.group = .node →
      ∀ (s : LedgerState) l, f { s with membership.nodes := l } = f s) :
    Preserves (fun s s' => f s' = f s) (sm.transition c) := by
  refine preserves_transition (R := fun s s' => f s' = f s) sm (fun _ => rfl)
    (fun _ _ _ h h' => h'.trans h) c
    (fun h id op _ => preserves_onAccount (hbalance h) id op) hutxos (fun h s => ?_)
    fun h s => ⟨?_, hnode h s _⟩
  · unfold consume
    split
    · rfl
    · exact hintent h s _
  · unfold addNode
    split
    · rfl
    · exact hnode h s _

/-- Only the UTXO commands and reorganizations touch the UTXOs. -/
theorem transition_utxos (hutxo : c.commandType.group ≠ .utxo)
    (hreorg : c.commandType.group ≠ .reorganization) :
    Preserves (fun s s' : LedgerState => s'.utxos = s.utxos) (sm.transition c) :=
  transition_field sm LedgerState.utxos (fun _ _ _ => rfl)
    (fun h => h.elim (absurd · hutxo) (absurd · hreorg)) (fun _ _ _ => rfl) fun _ _ _ => rfl

/-- Only the intent commands touch the intents. -/
theorem transition_consumedIntents (hc : c.commandType.group ≠ .intent) :
    Preserves (fun s s' : LedgerState => s'.consumedIntents = s.consumedIntents)
      (sm.transition c) :=
  transition_field sm LedgerState.consumedIntents (fun _ _ _ => rfl) (fun _ _ _ => rfl)
    (fun h => absurd h hc) fun _ _ _ => rfl

/-- Only the node commands touch the membership. -/
theorem transition_membership (hc : c.commandType.group ≠ .node) :
    Preserves (fun s s' : LedgerState => s'.membership = s.membership) (sm.transition c) :=
  transition_field sm LedgerState.membership (fun _ _ _ => rfl) (fun _ _ _ => rfl)
    (fun _ _ _ => rfl) fun h => absurd h hc

end Fields

/-- A successful command moves the global version by one. -/
theorem apply_version {c : LedgerCommand} {s s' : LedgerState} {r : StateTransitionReceipt}
    (h : sm.apply c s = .ok r s') : s'.version = s.version + 1 := by
  obtain ⟨_, affected, t, ht, rfl, _⟩ := (apply_ok sm).mp h
  show t.version + 1 = s.version + 1
  rw [(transition_version sm c).ok ht]

end StateMachine

end Kerosene.Ledger
