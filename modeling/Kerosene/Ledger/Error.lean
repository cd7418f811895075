import Mathlib

/-! The closed enumerations of the ledger and the errors its operations return
(`account.rs`, `error.rs`, and the enumerations of `chain.rs` and `membership.rs`
that an error can name). -/
namespace Kerosene.Ledger

/-! ### Accounts of the chart of accounts -/

inductive AccountClass where
  | asset
  | liability
  | equity
  | expense
  | revenue
  deriving DecidableEq, Repr

inductive StandardAccount where
  | assetCustodiedBtc
  | assetColdBtc
  | assetHotBtc
  | liabilityUserBalances
  | liabilityPendingWithdrawals
  | liabilityInternalReserved
  | equityPlatform
  | expenseMinerFees
  | revenuePlatformFees
  deriving DecidableEq, Repr

namespace StandardAccount

def accountClass : StandardAccount → AccountClass
  | assetCustodiedBtc | assetColdBtc | assetHotBtc => .asset
  | liabilityUserBalances | liabilityPendingWithdrawals | liabilityInternalReserved => .liability
  | equityPlatform => .equity
  | expenseMinerFees => .expense
  | revenuePlatformFees => .revenue

/-- Every account, in declaration order. -/
def all : List StandardAccount :=
  [assetCustodiedBtc, assetColdBtc, assetHotBtc, liabilityUserBalances,
    liabilityPendingWithdrawals, liabilityInternalReserved, equityPlatform, expenseMinerFees,
    revenuePlatformFees]

theorem mem_all (account : StandardAccount) : account ∈ all := by
  cases account <;> decide

theorem nodup_all : all.Nodup := by decide

/-- The derived order: position in the declaration. -/
def ordinal (account : StandardAccount) : Nat := account.ctorIdx

def debug : StandardAccount → String
  | assetCustodiedBtc => "AssetCustodiedBtc"
  | assetColdBtc => "AssetColdBtc"
  | assetHotBtc => "AssetHotBtc"
  | liabilityUserBalances => "LiabilityUserBalances"
  | liabilityPendingWithdrawals => "LiabilityPendingWithdrawals"
  | liabilityInternalReserved => "LiabilityInternalReserved"
  | equityPlatform => "EquityPlatform"
  | expenseMinerFees => "ExpenseMinerFees"
  | revenuePlatformFees => "RevenuePlatformFees"

end StandardAccount

/-! ### Enumerations errors name -/

/-- Where a UTXO is in its on-chain life. -/
inductive OnchainState where
  | seen
  | inMempool
  | confirming
  | spendable
  | finalizedByPolicy
  | replaced
  | reorged
  | spent
  deriving DecidableEq, Repr

def OnchainState.debug : OnchainState → String
  | .seen => "Seen"
  | .inMempool => "InMempool"
  | .confirming => "Confirming"
  | .spendable => "Spendable"
  | .finalizedByPolicy => "FinalizedByPolicy"
  | .replaced => "Replaced"
  | .reorged => "Reorged"
  | .spent => "Spent"

inductive NodeRole where
  | untrusted
  | observer
  | learner
  | voter
  deriving DecidableEq, Repr

def NodeRole.debug : NodeRole → String
  | .untrusted => "Untrusted"
  | .observer => "Observer"
  | .learner => "Learner"
  | .voter => "Voter"

/-! ### Errors -/

/-- `u128` amounts are naturals and `i128` balances integers. -/
inductive LedgerError where
  | unbalancedEntry (debitsSum creditsSum : Nat)
  | emptyEntry
  | negativeBalance (account : StandardAccount) (balance : Int)
  | duplicateSequence (sequence : UInt64)
  | sequenceGap (expected got : UInt64)
  | accountNotFound (account : StandardAccount)
  | invalidHash (text : String)
  | invariantViolation (text : String)
  | reservedExceedsAvailable (reserved available : UInt64)
  | pendingOutgoingExceedsAvailable (outgoing available : UInt64)
  | stateVersionRegression (prev current : UInt64)
  | balanceOverflow (account : StandardAccount)
  | duplicateEntryId (entryId : String)
  | versionConflict (account : String) (expected current : UInt64)
  | insufficientFunds (account : String) (available needed : UInt64)
  | idempotencyConflict (commandId : String)
  | reservationNotFound (id : String)
  | reservationAlreadyConsumed (id : String)
  | reservationExpired (id : String)
  | atomicTransferFailed (text : String)
  | unknownCommand (text : String)
  | invalidStateTransition (text : String)
  | snapshotNotFound (sequence : UInt64)
  | invalidSignature (text : String)
  | stateRootMismatch (expected got : String)
  | syncNotHealthy (text : String)
  | notAVoter (nodeId : String) (role : NodeRole)
  | cannotVote (reasons : List String)
  | nodeNotFound (nodeId : String)
  | invalidRoleTransition (source target : NodeRole)
  | utxoNotFound (txid : String) (vout : UInt32)
  | invalidUtxoTransition (source target : OnchainState)
  | utxoAlreadyReserved (reservedBy : String)
  | utxoNotReserved
  | invalidUtxoData (text : String)
  | authorizationExpired (expiresAt now : UInt64)
  | authorizationInvalid (text : String)
  | psbtMismatch (expected got : String)
  | policyViolation (text : String)
  | withdrawalNotFound (id : String)
  | gateBlocked (reason : String)
  deriving DecidableEq, Repr

/-- The text an error prints. -/
def LedgerError.display : LedgerError → String
  | unbalancedEntry d c => "unbalanced entry: debits " ++ toString d ++ " != credits " ++ toString c
  | emptyEntry => "entry must have at least one debit and one credit"
  | negativeBalance a b => "negative balance for " ++ a.debug ++ ": " ++ toString b
  | duplicateSequence n => "duplicate sequence: " ++ toString n
  | sequenceGap e g => "sequence gap: expected " ++ toString e ++ ", got " ++ toString g
  | accountNotFound a => "account not found: " ++ a.debug
  | invalidHash t => "invalid hash: " ++ t
  | invariantViolation t => "invariant violation: " ++ t
  | reservedExceedsAvailable r a =>
    "reserved " ++ toString r ++ " exceeds available " ++ toString a
  | pendingOutgoingExceedsAvailable o a =>
    "pending outgoing " ++ toString o ++ " exceeds internal available " ++ toString a
  | stateVersionRegression p c =>
    "state version regression: previous " ++ toString p ++ ", current " ++ toString c
  | balanceOverflow a => "balance overflow for account " ++ a.debug
  | duplicateEntryId i => "duplicate entry id: " ++ i
  | versionConflict a e c =>
    "version conflict: account " ++ a ++ " expected version " ++ toString e ++ ", current "
      ++ toString c
  | insufficientFunds a v n =>
    "insufficient funds: account " ++ a ++ " has " ++ toString v ++ ", needs " ++ toString n
  | idempotencyConflict i => "idempotency conflict: command " ++ i ++ " with different hash"
  | reservationNotFound i => "reservation not found: " ++ i
  | reservationAlreadyConsumed i => "reservation already consumed: " ++ i
  | reservationExpired i => "reservation expired: " ++ i
  | atomicTransferFailed t => "atomic transfer failed: " ++ t
  | unknownCommand t => "unknown command type: " ++ t
  | invalidStateTransition t => "invalid state transition: " ++ t
  | snapshotNotFound n => "snapshot not found at sequence " ++ toString n
  | invalidSignature t => "invalid signature: " ++ t
  | stateRootMismatch e g => "state root mismatch: expected " ++ e ++ ", got " ++ g
  | syncNotHealthy t => "sync not healthy: " ++ t
  | notAVoter i r => "node " ++ i ++ " is not a voter (role: " ++ r.debug ++ ")"
  | cannotVote rs => "cannot vote: " ++ String.intercalate ", " rs
  | nodeNotFound i => "node not found: " ++ i
  | invalidRoleTransition s t =>
    "invalid role transition: from " ++ s.debug ++ " to " ++ t.debug
  | utxoNotFound t v => "utxo not found: " ++ t ++ ":" ++ toString v
  | invalidUtxoTransition s t => "invalid utxo transition: from " ++ s.debug ++ " to " ++ t.debug
  | utxoAlreadyReserved r => "utxo already reserved by " ++ r
  | utxoNotReserved => "utxo not reserved"
  | invalidUtxoData t => "invalid utxo data: " ++ t
  | authorizationExpired e n =>
    "authorization expired at " ++ toString e ++ ", current time " ++ toString n
  | authorizationInvalid t => "authorization invalid: " ++ t
  | psbtMismatch e g => "PSBT hash mismatch: expected " ++ e ++ ", got " ++ g
  | policyViolation t => "policy violation: " ++ t
  | withdrawalNotFound i => "withdrawal not found: " ++ i
  | gateBlocked r => "gate blocked: " ++ r

end Kerosene.Ledger
