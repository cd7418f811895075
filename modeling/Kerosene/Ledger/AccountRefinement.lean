import Kerosene.Ledger.AccountStore
import Kerosene.Ledger.SharedDatabase

/-! The two account stores side by side (`traits.rs`, `in_memory.rs`, `persistent.rs`).

The store in memory works on the account itself: a command that fails has already
created a missing account, or has already moved one of two balances. The store in the
database works on a copy that it drops. As long as no command fails that way
(`LeavesNoTrace`) the two answer alike, and one that does is seen by the next
`get_account` (`accounts_interchangeable`). -/
namespace Kerosene.Ledger

open Lib.Encode Lib.Inplace Lib.Regions Lib.Simulation Lib.Tables

/-! ### The port -/

structure VersionedAccountStore (σ : Type) where
  getAccount : String → EStateM LedgerError σ (Option AccountState)
  applyCommand : BalanceCommand → EStateM LedgerError σ AccountState
  applyTransfer : InternalTransferCommand → EStateM LedgerError σ (AccountState × AccountState)

inductive AccountCall where
  | getAccount (accountId : String)
  | applyCommand (cmd : BalanceCommand)
  | applyTransfer (cmd : InternalTransferCommand)
  deriving DecidableEq, Repr

inductive AccountReply where
  | account (found : Option AccountState)
  | state (a : AccountState)
  | states (src dst : AccountState)
  deriving DecidableEq, Repr

def VersionedAccountStore.call {σ : Type} (store : VersionedAccountStore σ) :
    AccountCall → EStateM LedgerError σ AccountReply
  | .getAccount accountId => .account <$> store.getAccount accountId
  | .applyCommand cmd => .state <$> store.applyCommand cmd
  | .applyTransfer cmd => (fun r => .states r.1 r.2) <$> store.applyTransfer cmd

def InMemoryVersionedAccountStore.store : VersionedAccountStore InMemoryVersionedAccountStore where
  getAccount accountId := do return (← get).getAccount accountId
  applyCommand := InMemoryVersionedAccountStore.applyCommand
  applyTransfer := InMemoryVersionedAccountStore.applyTransfer

def SledVersionedAccountStore.store (json : Json AccountState) : VersionedAccountStore Db where
  getAccount accountId := do check (SledVersionedAccountStore.getAccount json (← get) accountId)
  applyCommand := SledVersionedAccountStore.applyCommand json
  applyTransfer := SledVersionedAccountStore.applyTransfer json

/-! ### Commands that fail with a trace -/

/-- A command that is applied does not fail half way, and if it creates its account it
does not fail at all. -/
def LeavesNoTrace (store : InMemoryVersionedAccountStore) : AccountCall → Prop
  | .applyCommand cmd =>
    match store.getAccount cmd.accountId with
    | some a => a.version = cmd.expectedVersion → ¬ a.StopsHalfway cmd.operation cmd.amountSats
    | none => cmd.expectedVersion = 0 → cmd.operation = .credit ∨ cmd.amountSats = 0
  | .getAccount _ | .applyTransfer _ => True

namespace AccountState

theorem guarded_ok {c : Prop} [Decidable c] {x y : AccountState} {e : LedgerError} :
    (∃ a', (if c then .ok () x else .error e y : EStateM.Result LedgerError AccountState Unit) =
      .ok () a') ↔ c := by
  split <;> simp [*]

/-- Of a new account nothing can be taken away. -/
theorem operate_new (op : BalanceOperation) (amount : UInt64) (id : String) :
    (∃ a', operate op amount (new id) = .ok () a') ↔ op = .credit ∨ amount = 0 := by
  have hroom : (new id).availableSats.toNat + amount.toNat < 2 ^ 64 := by
    have := amount.toNat_lt
    simp only [new, UInt64.toNat_zero]
    omega
  have hroom' : (new id).reservedSats.toNat + amount.toNat < 2 ^ 64 := hroom
  have hnone : amount ≤ 0 ↔ amount = 0 := UInt64.le_zero_iff
  cases op with
  | credit =>
    simp only [operate, applyCredit_eq, guarded_ok, true_or, iff_true]
    exact hroom
  | debit =>
    simp only [operate, applyDebit_eq, guarded_ok, reduceCtorEq, false_or]
    exact hnone
  | reserve =>
    simp only [operate, applyReserve_eq, if_pos hroom', guarded_ok, reduceCtorEq, false_or]
    exact hnone
  | releaseReservation =>
    simp only [operate, applyReleaseReservation_eq, if_pos hroom, guarded_ok, reduceCtorEq, false_or]
    exact hnone

end AccountState

/-! ### The two stores -/

section Refinement
variable {json : Json AccountState}

/-- The database has the accounts of the store in memory. -/
def KeepsAccounts (json : Json AccountState) (store : InMemoryVersionedAccountStore) (db : Db) : Prop :=
  Keeps SledVersionedAccountStore.prefixAccount json store.inner db

theorem KeepsAccounts.insert {store : InMemoryVersionedAccountStore} {db : Db}
    (h : KeepsAccounts json store db) (a : AccountState) :
    KeepsAccounts json (store.insert a)
      (db.insert (SledVersionedAccountStore.accountKey a.accountId) (json.written a)) :=
  Keeps.insert h a.accountId a

/-- Writing an account that is there changes nothing. -/
theorem KeepsAccounts.rewrite {store : InMemoryVersionedAccountStore} {db : Db} {a : AccountState}
    (h : KeepsAccounts json store db) (ha : store.getAccount a.accountId = some a) :
    KeepsAccounts json (store.insert a) db := by
  have hsame : (fun id => (store.insert a).inner.lookup id) = fun id => store.inner.lookup id := by
    have hupdate : (fun id => (store.insert a).inner.lookup id) = _ :=
      lookup_insert_eq_update store.inner a.accountId a
    rw [hupdate, ← (show store.inner.lookup a.accountId = some a from ha), Function.update_eq_self]
  unfold KeepsAccounts Keeps
  rw [hsame]
  exact h

end Refinement

/-! ### Commands -/

/-- The account a command works on: the stored one at the version it expects, or a new one. -/
def InMemoryVersionedAccountStore.target (store : InMemoryVersionedAccountStore)
    (cmd : BalanceCommand) : Except LedgerError AccountState :=
  match store.getAccount cmd.accountId with
  | some a =>
    if a.version = cmd.expectedVersion then .ok a
    else .error (.versionConflict cmd.accountId cmd.expectedVersion a.version)
  | none =>
    if cmd.expectedVersion = 0 then .ok (.new cmd.accountId)
    else .error (.versionConflict cmd.accountId cmd.expectedVersion 0)

section Commands
variable {json : Json AccountState} {cmd : BalanceCommand} {store : InMemoryVersionedAccountStore}
  {db : Db} {a a' : AccountState} {e : LedgerError}

theorem target_accountId (h : store.target cmd = .ok a) : a.accountId = cmd.accountId := by
  unfold InMemoryVersionedAccountStore.target at h
  cases ha : store.getAccount cmd.accountId with
  | some b =>
    simp only [ha] at h
    split at h
    · cases h
      exact store.keyed _ a ha
    · cases h
  | none =>
    simp only [ha] at h
    split at h
    · cases h
      rfl
    · cases h

theorem operate_accountId (op : BalanceOperation) (amount : UInt64) (a : AccountState) :
    (after (AccountState.operate op amount) a).accountId = a.accountId := by
  rcases AccountState.operate_after op amount a with ⟨a', ha', hid, _⟩ | ⟨e, a', ha', hid, _⟩
  · rw [after_ok ha', hid]
  · rw [after_error ha', hid]

/-- The account an operation of a command leaves is the one the command names. -/
theorem operated_accountId (h : store.target cmd = .ok a) :
    (after (AccountState.operate cmd.operation cmd.amountSats) a).accountId = cmd.accountId :=
  (operate_accountId cmd.operation cmd.amountSats a).trans (target_accountId h)

/-- The store once the account of a command is there. -/
def InMemoryVersionedAccountStore.withTarget (store : InMemoryVersionedAccountStore)
    (cmd : BalanceCommand) : InMemoryVersionedAccountStore :=
  match store.getAccount cmd.accountId with
  | some _ => store
  | none => store.insert (.new cmd.accountId)

theorem accountFor_eq :
    InMemoryVersionedAccountStore.accountFor cmd store =
      match store.target cmd with
      | .ok a => .ok a (store.withTarget cmd)
      | .error e => .error e store := by
  unfold InMemoryVersionedAccountStore.accountFor InMemoryVersionedAccountStore.target
    InMemoryVersionedAccountStore.withTarget
  rw [bind_def, get_def]
  cases ha : store.getAccount cmd.accountId with
  | some a =>
    have hid : a.accountId = cmd.accountId := store.keyed _ a ha
    simp only [ha, bind_def, AccountState.checkVersion, hid]
    by_cases hv : a.version = cmd.expectedVersion
    · simp only [hv, ne_eq, not_true_eq_false, if_false, if_true, check_ok, pure_def]
    · simp only [ne_eq, hv, not_false_eq_true, if_true, if_false, check_error]
  | none =>
    by_cases hv : cmd.expectedVersion = 0
    · simp only [ha, hv, ne_eq, not_true_eq_false, if_false, if_true, bind_def, set_def, pure_def]
    · simp only [ha, hv, ne_eq, not_false_eq_true, if_true, if_false, bind_def, throw_def]

theorem insert_withTarget (ha : a.accountId = cmd.accountId) :
    (store.withTarget cmd).insert a = store.insert a := by
  unfold InMemoryVersionedAccountStore.withTarget
  cases store.getAccount cmd.accountId with
  | some b => rfl
  | none =>
    unfold InMemoryVersionedAccountStore.insert
    simp only [AccountState.new, ha, Finmap.insert_insert]

/-- In memory a command leaves the account as the operation leaves it. -/
theorem applyCommand_memory :
    InMemoryVersionedAccountStore.applyCommand cmd store =
      match store.target cmd with
      | .error e => .error e store
      | .ok a =>
        match AccountState.operate cmd.operation cmd.amountSats a with
        | .ok () a' => .ok a' (store.insert a')
        | .error e a' => .error e (store.insert a') := by
  refine (bind_def (InMemoryVersionedAccountStore.accountFor cmd) _ store).trans ?_
  rw [accountFor_eq]
  cases htarget : store.target cmd with
  | error e => rfl
  | ok a =>
    have hid := operated_accountId htarget
    dsimp only
    cases hop : AccountState.operate cmd.operation cmd.amountSats a with
    | ok u a' =>
      rw [after_ok hop] at hid
      exact congrArg _ (insert_withTarget hid)
    | error e a' =>
      rw [after_error hop] at hid
      exact congrArg _ (insert_withTarget hid)

/-- From the accounts in memory to what a command writes in the database. -/
theorem commandBody_eq (hjson : json.Total) :
    SledVersionedAccountStore.commandBody json cmd
        ((store.getAccount cmd.accountId).map json.written) =
      store.target cmd >>= fun a =>
        (a.updated (AccountState.operate cmd.operation cmd.amountSats)).map fun a' =>
          ([(SledVersionedAccountStore.accountKey cmd.accountId, json.written a')], a') := by
  have happlied (a : AccountState) (hv : a.version = cmd.expectedVersion) :
      (do
        SledVersionedAccountStore.checkExpected cmd a
        let state ← a.updated (AccountState.operate cmd.operation cmd.amountSats)
        let serialized ← json.serialize state
        return ([(SledVersionedAccountStore.accountKey cmd.accountId, serialized)], state)) =
      (a.updated (AccountState.operate cmd.operation cmd.amountSats)).map fun a' =>
        ([(SledVersionedAccountStore.accountKey cmd.accountId, json.written a')], a') := by
    have hcheck : SledVersionedAccountStore.checkExpected cmd a = .ok () := if_neg (not_not.mpr hv)
    simp only [hcheck, hjson.serialize]
    cases a.updated (AccountState.operate cmd.operation cmd.amountSats) <;> rfl
  unfold SledVersionedAccountStore.commandBody SledVersionedAccountStore.storedOrNew
    InMemoryVersionedAccountStore.target
  cases store.getAccount cmd.accountId with
  | some a =>
    simp only [Option.map_some, hjson.deserialize]
    by_cases hv : a.version = cmd.expectedVersion
    · rw [if_pos hv]
      exact happlied a hv
    · have hcheck : SledVersionedAccountStore.checkExpected cmd a = .error _ := if_pos hv
      rw [if_neg hv]
      show (SledVersionedAccountStore.checkExpected cmd a >>= _) = _
      rw [hcheck]
      rfl
  | none =>
    simp only [Option.map_none]
    by_cases hv : cmd.expectedVersion = 0
    · rw [if_pos hv, if_neg (not_not.mpr hv)]
      exact happlied (.new cmd.accountId) hv.symm
    · rw [if_neg hv, if_pos hv]
      rfl

/-- In the database a command that fails leaves nothing. -/
theorem applyCommand_sled (hjson : json.Total) (h : KeepsAccounts json store db) :
    SledVersionedAccountStore.applyCommand json cmd db =
      match store.target cmd with
      | .error e => .error e db
      | .ok a =>
        match AccountState.operate cmd.operation cmd.amountSats a with
        | .ok () a' =>
          .ok a' (db.insert (SledVersionedAccountStore.accountKey cmd.accountId) (json.written a'))
        | .error e _ => .error e db := by
  have hlookup : db.lookup (SledVersionedAccountStore.accountKey cmd.accountId) =
      (store.getAccount cmd.accountId).map json.written := Holds.lookup h cmd.accountId
  unfold SledVersionedAccountStore.applyCommand
  simp only [bind_def, get_def, hlookup, commandBody_eq hjson]
  cases store.target cmd with
  | error e => rfl
  | ok a =>
    simp only [Bind.bind, Except.bind, AccountState.updated]
    cases AccountState.operate cmd.operation cmd.amountSats a <;> rfl

/-- What a failed operation leaves is what was stored, exactly when no trace is left. -/
theorem leavesNoTrace_iff :
    LeavesNoTrace store (.applyCommand cmd) ↔
      ∀ a e a', store.target cmd = .ok a →
        AccountState.operate cmd.operation cmd.amountSats a = .error e a' →
          store.getAccount cmd.accountId = some a' := by
  simp only [LeavesNoTrace, InMemoryVersionedAccountStore.target]
  cases store.getAccount cmd.accountId with
  | some a =>
    simp only [← AccountState.operate_atomicAt]
    constructor
    · intro hatomic b e a' hb hop
      split at hb
      case isFalse => cases hb
      case isTrue hv =>
        cases hb
        rw [hatomic hv e a' hop]
    · intro hsame hv e a' hop
      have hfound := hsame a e a' (if_pos hv) hop
      exact (Option.some.inj hfound).symm
  | none =>
    simp only [← AccountState.operate_new cmd.operation cmd.amountSats cmd.accountId]
    constructor
    · intro hok b e a' hb hop
      split at hb
      case isFalse => cases hb
      case isTrue hv =>
        cases hb
        obtain ⟨c, hc⟩ := hok hv
        rw [hc] at hop
        cases hop
    · intro hnever hv
      cases hop : AccountState.operate cmd.operation cmd.amountSats (.new cmd.accountId) with
      | ok u c => exact ⟨c, rfl⟩
      | error e c => cases hnever _ e c (if_pos hv) hop

/-- Both stores give a command the same answer, and agree again unless it left a trace. -/
theorem command_alike (hjson : json.Total) (h : KeepsAccounts json store db) (cmd : BalanceCommand) :
    outcome (InMemoryVersionedAccountStore.applyCommand cmd) store =
        outcome (SledVersionedAccountStore.applyCommand json cmd) db ∧
      (LeavesNoTrace store (.applyCommand cmd) →
        KeepsAccounts json (after (InMemoryVersionedAccountStore.applyCommand cmd) store)
          (after (SledVersionedAccountStore.applyCommand json cmd) db)) := by
  rw [leavesNoTrace_iff]
  unfold outcome after
  rw [applyCommand_memory, applyCommand_sled hjson h]
  cases htarget : store.target cmd with
  | error e => exact ⟨rfl, fun _ => h⟩
  | ok a =>
    have hid := operated_accountId htarget
    dsimp only
    cases hop : AccountState.operate cmd.operation cmd.amountSats a with
    | ok u a' =>
      rw [after_ok hop] at hid
      refine ⟨rfl, fun _ => ?_⟩
      rw [← hid]
      exact h.insert a'
    | error e a' =>
      rw [after_error hop] at hid
      refine ⟨rfl, fun hsame => h.rewrite ?_⟩
      rw [hid]
      exact hsame a e a' rfl hop

/-- A command that leaves a trace leaves another account than the database has. -/
theorem trace_of_not_leavesNoTrace (hjson : json.Total) (h : KeepsAccounts json store db)
    (htrace : ¬ LeavesNoTrace store (.applyCommand cmd)) :
    (after (InMemoryVersionedAccountStore.applyCommand cmd) store).getAccount cmd.accountId ≠
        store.getAccount cmd.accountId ∧
      after (SledVersionedAccountStore.applyCommand json cmd) db = db := by
  rw [leavesNoTrace_iff] at htrace
  simp only [not_forall] at htrace
  obtain ⟨a, e, a', htarget, hop, hdiffers⟩ := htrace
  have hid := operate_accountId cmd.operation cmd.amountSats a
  rw [target_accountId htarget, after_error hop] at hid
  have hmemory : InMemoryVersionedAccountStore.applyCommand cmd store = .error e (store.insert a') := by
    rw [applyCommand_memory]
    simp only [htarget, hop]
  have hsled : SledVersionedAccountStore.applyCommand json cmd db = .error e db := by
    rw [applyCommand_sled hjson h]
    simp only [htarget, hop]
  rw [after_error hmemory, after_error hsled]
  refine ⟨fun hsame => hdiffers (hsame.symm.trans ?_), rfl⟩
  rw [← hid]
  exact Finmap.lookup_insert store.inner

end Commands

/-! ### Reads and transfers -/

section Transfers
variable {json : Json AccountState} {store : InMemoryVersionedAccountStore} {db : Db}

theorem getAccount_sled (hjson : json.Total) (h : KeepsAccounts json store db) (accountId : String) :
    SledVersionedAccountStore.getAccount json db accountId = .ok (store.getAccount accountId) := by
  have hlookup : db.lookup (SledVersionedAccountStore.accountKey accountId) =
      (store.getAccount accountId).map json.written := Holds.lookup h accountId
  unfold SledVersionedAccountStore.getAccount
  rw [hlookup]
  cases store.getAccount accountId with
  | none => rfl
  | some a =>
    simp only [Option.map_some, hjson.deserialize]
    rfl

theorem transfer_alike (hjson : json.Total) (h : KeepsAccounts json store db)
    (cmd : InternalTransferCommand) :
    outcome (InMemoryVersionedAccountStore.applyTransfer cmd) store =
        outcome (SledVersionedAccountStore.applyTransfer json cmd) db ∧
      KeepsAccounts json (after (InMemoryVersionedAccountStore.applyTransfer cmd) store)
        (after (SledVersionedAccountStore.applyTransfer json cmd) db) := by
  have hsource : db.lookup (SledVersionedAccountStore.accountKey cmd.sourceAccountId) =
      (store.getAccount cmd.sourceAccountId).map json.written := Holds.lookup h _
  have hdestination : db.lookup (SledVersionedAccountStore.accountKey cmd.destinationAccountId) =
      (store.getAccount cmd.destinationAccountId).map json.written := Holds.lookup h _
  unfold outcome after InMemoryVersionedAccountStore.applyTransfer
    SledVersionedAccountStore.applyTransfer SledVersionedAccountStore.transferBody
  simp only [bind_def, get_def, hsource, hdestination]
  cases hsrc : store.getAccount cmd.sourceAccountId with
  | none => exact ⟨rfl, h⟩
  | some src =>
    simp only [Option.map_some, SledVersionedAccountStore.storedAccount, hjson.deserialize]
    cases hdst : store.getAccount cmd.destinationAccountId with
    | none => exact ⟨rfl, h⟩
    | some dst =>
      simp only [Option.map_some, hjson.deserialize, hjson.serialize]
      cases ht : transferAccounts cmd src dst with
      | error e =>
        simp only [ht, Bind.bind, Except.bind, check_error]
        exact ⟨rfl, h⟩
      | ok result =>
        obtain ⟨src', dst'⟩ := result
        obtain ⟨_, hsrc', hdst'⟩ := transferAccounts_ok.mp ht
        have hsourceId : src'.accountId = cmd.sourceAccountId := by
          rw [hsrc']
          exact store.keyed _ src hsrc
        have hdestinationId : dst'.accountId = cmd.destinationAccountId := by
          rw [hdst']
          exact store.keyed _ dst hdst
        simp only [ht, Bind.bind, Except.bind, Pure.pure, Except.pure, check_ok]
        refine ⟨rfl, ?_⟩
        rw [← hsourceId, ← hdestinationId]
        exact (h.insert src').insert dst'

end Transfers

/-! ### Whole runs -/

section Runs
variable (json : Json AccountState)

/-- Both stores say the same of every account. -/
def SameAccounts (store : InMemoryVersionedAccountStore) (db : Db) : Prop :=
  ∀ accountId, outcome (InMemoryVersionedAccountStore.store.call (.getAccount accountId)) store =
    outcome ((SledVersionedAccountStore.store json).call (.getAccount accountId)) db

variable {json}

theorem call_getAccount_sled (accountId : String) (db : Db) :
    (SledVersionedAccountStore.store json).call (.getAccount accountId) db =
      match SledVersionedAccountStore.getAccount json db accountId with
      | .ok found => .ok (.account found) db
      | .error e => .error e db := by
  simp only [VersionedAccountStore.call, SledVersionedAccountStore.store, ← bind_pure_comp, bind_def,
    get_def]
  cases SledVersionedAccountStore.getAccount json db accountId <;> rfl

theorem sameAccounts_iff (hjson : json.Total) {store store' : InMemoryVersionedAccountStore} {db : Db}
    (h : KeepsAccounts json store db) :
    SameAccounts json store' db ↔ ∀ accountId, store'.getAccount accountId = store.getAccount accountId := by
  refine forall_congr' fun accountId => ?_
  have hsled : outcome ((SledVersionedAccountStore.store json).call (.getAccount accountId)) db =
      .ok (.account (store.getAccount accountId)) := by
    rw [outcome, call_getAccount_sled, getAccount_sled hjson h]
  have hmemory : outcome (InMemoryVersionedAccountStore.store.call (.getAccount accountId)) store' =
      .ok (.account (store'.getAccount accountId)) := rfl
  rw [hsled, hmemory, Except.ok.injEq, AccountReply.account.injEq]

theorem call_alike (hjson : json.Total) (c : AccountCall) (store : InMemoryVersionedAccountStore)
    (db : Db) (hrule : LeavesNoTrace store c) (h : KeepsAccounts json store db) :
    outcome (InMemoryVersionedAccountStore.store.call c) store =
        outcome ((SledVersionedAccountStore.store json).call c) db ∧
      KeepsAccounts json (after (InMemoryVersionedAccountStore.store.call c) store)
        (after ((SledVersionedAccountStore.store json).call c) db) := by
  cases c with
  | getAccount accountId =>
    refine ⟨(sameAccounts_iff hjson h).mpr (fun _ => rfl) accountId, ?_⟩
    have hafter : after ((SledVersionedAccountStore.store json).call (.getAccount accountId)) db = db := by
      rw [after, call_getAccount_sled, getAccount_sled hjson h]
    rw [hafter]
    exact h
  | applyCommand cmd =>
    obtain ⟨hout, hafter⟩ := command_alike hjson h cmd
    simp only [VersionedAccountStore.call, outcome_map, after_map]
    exact ⟨congrArg _ hout, hafter hrule⟩
  | applyTransfer cmd =>
    obtain ⟨hout, hafter⟩ := transfer_alike hjson h cmd
    simp only [VersionedAccountStore.call, outcome_map, after_map]
    exact ⟨congrArg _ hout, hafter⟩

/-- **When the account stores are interchangeable.** Over every run in which no command
fails with a trace they give the same answers, and the next call keeps them alike
exactly when it leaves no trace either. -/
theorem accounts_interchangeable (hjson : json.Total) (l : List AccountCall)
    (hl : Admissible InMemoryVersionedAccountStore.store.call LeavesNoTrace l .new) :
    let store := run InMemoryVersionedAccountStore.store.call l .new
    let db := run (SledVersionedAccountStore.store json).call l ∅
    answers InMemoryVersionedAccountStore.store.call l .new =
        answers (SledVersionedAccountStore.store json).call l ∅ ∧
      ∀ c, SameAccounts json (after (InMemoryVersionedAccountStore.store.call c) store)
          (after ((SledVersionedAccountStore.store json).call c) db) ↔ LeavesNoTrace store c := by
  intro store db
  obtain ⟨hanswers, hkeeps⟩ := answers_eq (call_alike hjson) hl (Holds.empty _ _)
  refine ⟨hanswers, fun c => ⟨?_, fun hrule => ?_⟩⟩
  · intro hsame
    by_contra htrace
    cases c with
    | getAccount _ | applyTransfer _ => exact htrace trivial
    | applyCommand cmd =>
      obtain ⟨hdiffers, hafter⟩ := trace_of_not_leavesNoTrace hjson hkeeps htrace
      simp only [VersionedAccountStore.call, after_map] at hsame
      have hdb : after ((SledVersionedAccountStore.store json).applyCommand cmd) db = db := hafter
      rw [hdb] at hsame
      exact hdiffers ((sameAccounts_iff hjson hkeeps).mp hsame cmd.accountId)
  · exact (sameAccounts_iff hjson (call_alike hjson c store db hrule hkeeps).2).mpr fun _ => rfl

end Runs

deriving instance Countable for AccountState

def creditAlice : BalanceCommand := .new "c1" "alice" 0 .credit 1000 1

noncomputable def recordedAccounts : Json AccountState :=
  .completed [(.holding "alice" 1 1000, utf8 (AccountState.holding "alice" 1 1000).jsonText)]
    (List.nodup_singleton _)

/-- More than is there. -/
def debitAlice : BalanceCommand := .new "c2" "alice" 1 .debit 5000 1

/-- A credit, and a debit that both stores refuse. -/
theorem accounts_interchangeable_credit :
    answers (SledVersionedAccountStore.store recordedAccounts).call
        [.applyCommand creditAlice, .applyCommand debitAlice, .getAccount "alice"] ∅ =
      [.ok (.state (.holding "alice" 1 1000)), .error (.insufficientFunds "alice" 1000 5000),
        .ok (.account (some (.holding "alice" 1 1000)))] := by
  have htotal : recordedAccounts.Total := fun _ => ⟨_, rfl⟩
  have halike := accounts_interchangeable htotal
    [.applyCommand creditAlice, .applyCommand debitAlice, .getAccount "alice"]
    ⟨fun _ => .inl rfl, fun _ => id, trivial, trivial⟩
  rw [← halike.1]
  rfl

/-- A debit that both stores refuse, and an account that one of them has afterwards. -/
theorem refused_debit_creates_account :
    let debit : BalanceCommand := .new "c1" "alice" 0 .debit 5 1
    let calls : List AccountCall := [.applyCommand debit, .getAccount "alice"]
    answers InMemoryVersionedAccountStore.store.call calls .new =
        [.error (.insufficientFunds "alice" 0 5), .ok (.account (some (.new "alice")))] ∧
      answers (SledVersionedAccountStore.store (.recorded [] List.nodup_nil)).call calls ∅ =
        [.error (.insufficientFunds "alice" 0 5), .ok (.account none)] := by
  intro debit calls
  exact ⟨rfl, rfl⟩

end Kerosene.Ledger
