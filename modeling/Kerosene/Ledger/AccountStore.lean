import Kerosene.Ledger.AccountState
import Kerosene.Ledger.Crates
import Kerosene.Lib.Optimistic

/-! The two versioned account stores (`command.rs`, `in_memory.rs`,
`persistent.rs`).

The in-memory store works on its map in place under a lock. The persistent store
reads from a database, computes, and writes back; what it computes between the
reads and the writes is `commandBody` or `transferBody`, and a call that nobody
interrupts is that computation done at once. -/
namespace Kerosene.Ledger

open Lib.Encode Lib.Inplace Lib.Tables Lib.Optimistic

/-! ### Commands -/

structure BalanceCommand where
  commandId : String
  accountId : String
  expectedVersion : UInt64
  operation : BalanceOperation
  amountSats : UInt64
  epoch : UInt64
  payloadHash : String
  deriving DecidableEq, Repr

structure InternalTransferCommand where
  commandId : String
  sourceAccountId : String
  sourceExpectedVersion : UInt64
  destinationAccountId : String
  destinationExpectedVersion : UInt64
  amountSats : UInt64
  authorizationCommitment : String
  deriving DecidableEq, Repr

/-- The payload hash stays empty. -/
def BalanceCommand.new (commandId accountId : String) (expectedVersion : UInt64)
    (operation : BalanceOperation) (amountSats epoch : UInt64) : BalanceCommand :=
  { commandId, accountId, expectedVersion, operation, amountSats, epoch, payloadHash := "" }

/-- An operation on a copy of an account: what it leaves, unless it fails. -/
def AccountState.updated (op : AccountState.Update) (a : AccountState) :
    Except LedgerError AccountState :=
  match op a with
  | .ok () a => .ok a
  | .error e _ => .error e

/-- What both stores do with copies of the two accounts of a transfer. -/
def transferAccounts (cmd : InternalTransferCommand) (src dst : AccountState) :
    Except LedgerError (AccountState × AccountState) := do
  src.checkVersion cmd.sourceExpectedVersion
  dst.checkVersion cmd.destinationExpectedVersion
  if src.spendable < cmd.amountSats then
    throw (.insufficientFunds src.accountId src.spendable cmd.amountSats)
  let src ← src.updated (AccountState.applyDebit cmd.amountSats)
  let dst ← dst.updated (AccountState.applyCredit cmd.amountSats)
  return (src, dst)

section Transfer
variable {cmd : InternalTransferCommand} {src dst src' dst' : AccountState}

theorem updated_ok {op : AccountState.Update} {a a' : AccountState} :
    a.updated op = .ok a' ↔ op a = .ok () a' := by
  unfold AccountState.updated
  cases op a <;> simp

/-- A transfer of copies needs the expected versions, the funds and the room. -/
theorem transferAccounts_ok :
    transferAccounts cmd src dst = .ok (src', dst') ↔
      (src.version = cmd.sourceExpectedVersion ∧ dst.version = cmd.destinationExpectedVersion ∧
        cmd.amountSats ≤ src.availableSats ∧
        dst.availableSats.toNat + cmd.amountSats.toNat < 2 ^ 64) ∧
      src' = { src with
        availableSats := src.availableSats - cmd.amountSats
        version := src.version + 1 } ∧
      dst' = { dst with
        availableSats := dst.availableSats + cmd.amountSats
        version := dst.version + 1 } := by
  have hdebit := AccountState.applyDebit_eq cmd.amountSats src
  have hcredit := AccountState.applyCredit_eq cmd.amountSats dst
  have hfunds : src.spendable < cmd.amountSats ↔ ¬ cmd.amountSats ≤ src.availableSats :=
    UInt64.not_le.symm
  unfold transferAccounts AccountState.checkVersion AccountState.updated
  simp only [hdebit, hcredit, hfunds]
  by_cases hs : src.version = cmd.sourceExpectedVersion
  case neg => simp [hs, Bind.bind, Except.bind]
  by_cases hd : dst.version = cmd.destinationExpectedVersion
  case neg => simp [hs, hd, Bind.bind, Except.bind]
  by_cases hf : cmd.amountSats ≤ src.availableSats
  case neg => simp [hs, hd, hf, Bind.bind, Except.bind]
  by_cases hr : dst.availableSats.toNat + cmd.amountSats.toNat < 2 ^ 64
  case neg =>
    simp only [hr, if_false]
    simp [hs, hd, hf, Bind.bind, Except.bind]
  simp only [hr, if_true]
  simp [hs, hd, hf, Bind.bind, Except.bind, Pure.pure, Except.pure, eq_comm]

end Transfer

/-- The error for an account that is not there; `side` is source or destination. -/
def accountNotFound (side accountId : String) : LedgerError :=
  .atomicTransferFailed (side ++ " account '" ++ accountId ++ "' not found")

/-! ### In memory -/

/-- Accounts by id. -/
structure InMemoryVersionedAccountStore where
  inner : Table String AccountState
  keyed : ∀ id a, inner.lookup id = some a → a.accountId = id

namespace InMemoryVersionedAccountStore

def new : InMemoryVersionedAccountStore := ⟨∅, by simp⟩

def insert (store : InMemoryVersionedAccountStore) (a : AccountState) :
    InMemoryVersionedAccountStore where
  inner := store.inner.insert a.accountId a
  keyed id b h := by
    by_cases hid : id = a.accountId
    · subst hid
      rw [Finmap.lookup_insert] at h
      exact Option.some.inj h ▸ rfl
    · rw [Finmap.lookup_insert_of_ne _ hid] at h
      exact store.keyed id b h

def withAccounts (accounts : List AccountState) : InMemoryVersionedAccountStore :=
  accounts.foldl insert new

def getAccount (store : InMemoryVersionedAccountStore) (accountId : String) :
    Option AccountState := store.inner.lookup accountId

abbrev Update := EStateM LedgerError InMemoryVersionedAccountStore

/-- The account a command works on, created when it is missing. -/
def accountFor (cmd : BalanceCommand) : Update AccountState := do
  let store ← get
  match store.getAccount cmd.accountId with
  | some a => do
    check (a.checkVersion cmd.expectedVersion)
    return a
  | none => do
    if cmd.expectedVersion ≠ 0 then
      throw (.versionConflict cmd.accountId cmd.expectedVersion 0)
    set (store.insert (.new cmd.accountId))
    return .new cmd.accountId

/-- The operation works on the stored account, which keeps its id, so what it
leaves is written back under that id whether it fails or not. -/
def applyCommand (cmd : BalanceCommand) : Update AccountState := do
  let state ← accountFor cmd
  fun store =>
    match AccountState.operate cmd.operation cmd.amountSats state with
    | .ok () a => .ok a (store.insert a)
    | .error e a => .error e (store.insert a)

/-- Works on copies; both are written back at the end, the source first. -/
def applyTransfer (cmd : InternalTransferCommand) : Update (AccountState × AccountState) := do
  let store ← get
  let some src := store.getAccount cmd.sourceAccountId
    | throw (accountNotFound "source" cmd.sourceAccountId)
  let some dst := store.getAccount cmd.destinationAccountId
    | throw (accountNotFound "destination" cmd.destinationAccountId)
  let (src, dst) ← check (transferAccounts cmd src dst)
  set ((store.insert src).insert dst)
  return (src, dst)

theorem applyTransfer_ok {cmd : InternalTransferCommand} {store store' : InMemoryVersionedAccountStore}
    {r : AccountState × AccountState} :
    applyTransfer cmd store = .ok r store' ↔
      ∃ src dst, store.getAccount cmd.sourceAccountId = some src ∧
        store.getAccount cmd.destinationAccountId = some dst ∧
        transferAccounts cmd src dst = .ok r ∧ store' = (store.insert r.1).insert r.2 := by
  unfold applyTransfer
  simp only [bind_def, get_def]
  cases store.getAccount cmd.sourceAccountId with
  | none => simp
  | some src =>
    cases store.getAccount cmd.destinationAccountId with
    | none => simp
    | some dst =>
      simp only [bind_def]
      cases ht : transferAccounts cmd src dst with
      | error e => simp [ht]
      | ok r' =>
        simp only [check_ok, set_def, pure_def, EStateM.Result.ok.injEq, Option.some.injEq]
        constructor
        · intro h
          obtain ⟨rfl, rfl⟩ := h
          exact ⟨src, dst, rfl, rfl, ht, rfl⟩
        · intro h
          obtain ⟨_, _, rfl, rfl, hr, rfl⟩ := h
          rw [ht] at hr
          cases hr
          exact ⟨rfl, rfl⟩

end InMemoryVersionedAccountStore

/-! ### In a database -/

namespace SledVersionedAccountStore

def prefixAccount : Bytes := utf8 "account:"

def accountKey (accountId : String) : Bytes := prefixAccount ++ utf8 accountId

variable (json : Json AccountState)

def getAccount (db : Db) (accountId : String) : Except LedgerError (Option AccountState) :=
  match db.lookup (accountKey accountId) with
  | some bytes => do
    let a ← json.deserialize bytes
    return some a
  | none => .ok none

/-- The account a command works on; a missing one is new if version 0 is expected. -/
def storedOrNew (cmd : BalanceCommand) : Option Bytes → Except LedgerError AccountState
  | some bytes => json.deserialize bytes
  | none =>
    if cmd.expectedVersion ≠ 0 then
      .error (.versionConflict cmd.accountId cmd.expectedVersion 0)
    else .ok (.new cmd.accountId)

/-- The conflict names the account of the command, not the id that is stored. -/
def checkExpected (cmd : BalanceCommand) (state : AccountState) : Except LedgerError Unit :=
  if state.version ≠ cmd.expectedVersion then
    .error (.versionConflict cmd.accountId cmd.expectedVersion state.version)
  else .ok ()

/-- From the stored bytes of the account to the write and the result. -/
def commandBody (cmd : BalanceCommand) (stored : Option Bytes) :
    Except LedgerError (List (Bytes × Bytes) × AccountState) := do
  let state ← storedOrNew json cmd stored
  checkExpected cmd state
  let state ← state.updated (AccountState.operate cmd.operation cmd.amountSats)
  let serialized ← json.serialize state
  return ([(accountKey cmd.accountId, serialized)], state)

def storedAccount (side accountId : String) : Option Bytes → Except LedgerError AccountState
  | some bytes => json.deserialize bytes
  | none => .error (accountNotFound side accountId)

/-- From the stored bytes of both accounts to the batch and the result. -/
def transferBody (cmd : InternalTransferCommand) (srcBytes dstBytes : Option Bytes) :
    Except LedgerError (List (Bytes × Bytes) × AccountState × AccountState) := do
  let src ← storedAccount json "source" cmd.sourceAccountId srcBytes
  let dst ← storedAccount json "destination" cmd.destinationAccountId dstBytes
  let (src, dst) ← transferAccounts cmd src dst
  let srcSerialized ← json.serialize src
  let dstSerialized ← json.serialize dst
  return ([(accountKey cmd.sourceAccountId, srcSerialized),
    (accountKey cmd.destinationAccountId, dstSerialized)], src, dst)

def applyCommand (cmd : BalanceCommand) : EStateM LedgerError Db AccountState := do
  let db ← get
  let stored := db.lookup (accountKey cmd.accountId)
  let (writes, state) ← check (commandBody json cmd stored)
  modify fun db => insertAll db writes
  return state

def applyTransfer (cmd : InternalTransferCommand) :
    EStateM LedgerError Db (AccountState × AccountState) := do
  let db ← get
  let srcBytes := db.lookup (accountKey cmd.sourceAccountId)
  let dstBytes := db.lookup (accountKey cmd.destinationAccountId)
  let (batch, result) ← check (transferBody json cmd srcBytes dstBytes)
  modify fun db => insertAll db batch
  return result

/-! ### What a successful call read and wrote -/

/-- The stored account, or a new one. -/
def accountOrNew (accountId : String) : Option Bytes → Except LedgerError AccountState
  | some bytes => json.deserialize bytes
  | none => .ok (.new accountId)

theorem commandBody_ok {cmd : BalanceCommand} {stored : Option Bytes}
    {writes : List (Bytes × Bytes)} {a' : AccountState} :
    commandBody json cmd stored = .ok (writes, a') ↔
      ∃ a bytes, accountOrNew json cmd.accountId stored = .ok a ∧
        a.version = cmd.expectedVersion ∧
        AccountState.operate cmd.operation cmd.amountSats a = .ok () a' ∧
        json.serialize a' = .ok bytes ∧ writes = [(accountKey cmd.accountId, bytes)] := by
  have hread : ∀ a, storedOrNew json cmd stored = .ok a ∧ checkExpected cmd a = .ok () ↔
      accountOrNew json cmd.accountId stored = .ok a ∧ a.version = cmd.expectedVersion := by
    intro a
    unfold storedOrNew checkExpected accountOrNew
    cases stored with
    | some bytes => by_cases h : a.version = cmd.expectedVersion <;> simp [h]
    | none =>
      by_cases h0 : cmd.expectedVersion = 0
      · by_cases h : a.version = cmd.expectedVersion <;> simp [h0] at h ⊢
      · have hnew : (AccountState.new cmd.accountId).version ≠ cmd.expectedVersion :=
          fun h => h0 h.symm
        simp only [ne_eq, h0, not_false_eq_true, if_true, reduceCtorEq, false_and, false_iff]
        intro h
        obtain ⟨h, hv⟩ := h
        exact hnew (Except.ok.inj h ▸ hv)
  unfold commandBody
  simp only [except_bind_ok, updated_ok]
  constructor
  · intro h
    obtain ⟨a, ha, _, hv, a', hop, bytes, hs, h⟩ := h
    cases h
    obtain ⟨ha, hv⟩ := (hread a).mp ⟨ha, hv⟩
    exact ⟨a, bytes, ha, hv, hop, hs, rfl⟩
  · intro h
    obtain ⟨a, bytes, ha, hv, hop, hs, rfl⟩ := h
    obtain ⟨ha, hv⟩ := (hread a).mpr ⟨ha, hv⟩
    exact ⟨a, ha, (), hv, a', hop, bytes, hs, rfl⟩

theorem storedAccount_ok {side accountId : String} {stored : Option Bytes} {a : AccountState} :
    storedAccount json side accountId stored = .ok a ↔
      ∃ bytes, stored = some bytes ∧ json.deserialize bytes = .ok a := by
  cases stored <;> simp [storedAccount]

theorem transferBody_ok {cmd : InternalTransferCommand} {srcBytes dstBytes : Option Bytes}
    {writes : List (Bytes × Bytes)} {src' dst' : AccountState} :
    transferBody json cmd srcBytes dstBytes = .ok (writes, src', dst') ↔
      ∃ src dst b₁ b₂, storedAccount json "source" cmd.sourceAccountId srcBytes = .ok src ∧
        storedAccount json "destination" cmd.destinationAccountId dstBytes = .ok dst ∧
        transferAccounts cmd src dst = .ok (src', dst') ∧
        json.serialize src' = .ok b₁ ∧ json.serialize dst' = .ok b₂ ∧
        writes = [(accountKey cmd.sourceAccountId, b₁),
          (accountKey cmd.destinationAccountId, b₂)] := by
  unfold transferBody
  simp only [except_bind_ok]
  constructor
  · intro h
    obtain ⟨src, hsrc, dst, hdst, ⟨s, d⟩, ht, b₁, h₁, b₂, h₂, h⟩ := h
    cases h
    exact ⟨src, dst, b₁, b₂, hsrc, hdst, ht, h₁, h₂, rfl⟩
  · intro h
    obtain ⟨src, dst, b₁, b₂, hsrc, hdst, ht, h₁, h₂, rfl⟩ := h
    exact ⟨src, hsrc, dst, hdst, (src', dst'), ht, b₁, h₁, b₂, h₂, rfl⟩

theorem applyTransfer_ok {cmd : InternalTransferCommand} {db db' : Db}
    {r : AccountState × AccountState} :
    applyTransfer json cmd db = .ok r db' ↔
      ∃ batch, transferBody json cmd (db.lookup (accountKey cmd.sourceAccountId))
          (db.lookup (accountKey cmd.destinationAccountId)) = .ok (batch, r) ∧
        db' = insertAll db batch := by
  unfold applyTransfer
  simp only [bind_def, get_def]
  cases transferBody json cmd (db.lookup (accountKey cmd.sourceAccountId))
      (db.lookup (accountKey cmd.destinationAccountId)) with
  | error e => simp
  | ok result =>
    simp only [check_ok, modify_def, pure_def, EStateM.Result.ok.injEq, Except.ok.injEq]
    constructor
    · intro h
      obtain ⟨rfl, rfl⟩ := h
      exact ⟨result.1, rfl, rfl⟩
    · intro h
      obtain ⟨_, rfl, rfl⟩ := h
      exact ⟨rfl, rfl⟩

end SledVersionedAccountStore

end Kerosene.Ledger
