import Kerosene.Ledger.State

/-! The deterministic state machine (`state_machine.rs`).

`apply` works on the state in place: a command is validated first, then its
transition runs, and only at the end is the version counter moved. A transition
that fails leaves the state as far as it got. -/
namespace Kerosene.Ledger

open Lib.Encode Lib.Inplace Lib.Word

/-- The state machine with the crates it calls: hashing, and `serde_json` for the
two payloads that commands carry as text. -/
structure StateMachine where
  crypto : Crypto
  parseDetectUtxo : String → Except String DetectUtxoPayload
  parseReorg : String → Except String ReorgPayload

/-- A state machine to run balance commands on, which carry no JSON. -/
def StateMachine.plain : StateMachine where
  crypto := .recorded []
  parseDetectUtxo _ := .error "expected value at line 1 column 1"
  parseReorg _ := .error "expected value at line 1 column 1"

namespace LedgerCommand

/-- The amount of a balance command: its commitment read as a number, else 0. -/
def amount (c : LedgerCommand) : UInt64 :=
  match parseU64 c.authorizationCommitment with
  | .ok n => n
  | .error _ => 0

/-- Source and destination of a transfer. -/
def transferParts (c : LedgerCommand) : Option (String × String) := splitOnce '|' c.partitionKey

def blockHeight (c : LedgerCommand) : Except LedgerError UInt64 :=
  match parseU64 c.authorizationCommitment with
  | .ok n => .ok n
  | .error _ => .error (.invalidUtxoData
      "ConfirmUtxo authorization_commitment must be a valid block height")

end LedgerCommand

namespace StateMachine

abbrev Update := EStateM LedgerError LedgerState

/-! ### Validation -/

def validateCredit (s : LedgerState) (c : LedgerCommand) : Except LedgerError Unit :=
  match c.expectedVersion with
  | none => .ok ()
  | some expected =>
    match s.findAccount c.partitionKey with
    | some account => account.checkVersion expected
    | none =>
      if expected ≠ 0 then .error (.versionConflict c.partitionKey expected 0) else .ok ()

/-- The account has to exist, at the expected version when one is given. -/
def validateExisting (s : LedgerState) (c : LedgerCommand) : Except LedgerError Unit :=
  match s.findAccount c.partitionKey with
  | none => .error (.versionConflict c.partitionKey (c.expectedVersion.getD 0) 0)
  | some account =>
    match c.expectedVersion with
    | some expected => account.checkVersion expected
    | none => .ok ()

def validateDebit := validateExisting

def validateReserve := validateExisting

/-- Without an expected version even a missing account passes. -/
def validateReleaseReservation (s : LedgerState) (c : LedgerCommand) : Except LedgerError Unit :=
  match c.expectedVersion with
  | none => .ok ()
  | some expected =>
    match s.findAccount c.partitionKey with
    | some account => account.checkVersion expected
    | none => .error (.versionConflict c.partitionKey expected 0)

/-- Nothing is checked, the expected version included. -/
def validateTransfer (_ : LedgerState) (_ : LedgerCommand) : Except LedgerError Unit := .ok ()

def lookupUtxo (s : LedgerState) (outpoint : OutPoint) : Except LedgerError UtxoEntry :=
  match s.findUtxo outpoint with
  | some utxo => .ok utxo
  | none => .error (.utxoNotFound outpoint.txid outpoint.vout)

/-- Only a spendable or final UTXO that nobody holds can be reserved. -/
def checkReservable (u : UtxoEntry) : Except LedgerError Unit :=
  if ¬ (u.state = .spendable ∨ u.state = .finalizedByPolicy) then
    .error (.invalidUtxoTransition u.state u.state)
  else
    match u.reservedBy with
    | some existing => .error (.utxoAlreadyReserved existing)
    | none => .ok ()

def checkReserved (u : UtxoEntry) : Except LedgerError Unit :=
  if u.reservedBy.isNone then .error .utxoNotReserved else .ok ()

variable (sm : StateMachine)

def detectUtxoPayload (c : LedgerCommand) : Except LedgerError DetectUtxoPayload :=
  match sm.parseDetectUtxo c.authorizationCommitment with
  | .ok payload => .ok payload
  | .error e => .error (.invalidUtxoData ("invalid DetectUtxo payload: " ++ e))

def reorgPayload (c : LedgerCommand) : Except LedgerError ReorgPayload :=
  match sm.parseReorg c.authorizationCommitment with
  | .ok payload => .ok payload
  | .error e => .error (.invalidUtxoData ("invalid ReorgPayload: " ++ e))

def validate (s : LedgerState) (c : LedgerCommand) : Except LedgerError Unit :=
  match c.commandType with
  | .creditInternalBalance => validateCredit s c
  | .debitInternalBalance => validateDebit s c
  | .reserveBalance => validateReserve s c
  | .releaseReservation => validateReleaseReservation s c
  | .commitInternalTransfer => validateTransfer s c
  | .detectUtxo => do
    let _ ← OutPoint.fromCanonicalString c.partitionKey
    let payload ← sm.detectUtxoPayload c
    if payload.valueSats = 0 then throw (.invalidUtxoData "DetectUtxo value_sats must be > 0")
    if payload.address = "" then throw (.invalidUtxoData "DetectUtxo address must not be empty")
  | .confirmUtxo => do
    let outpoint ← OutPoint.fromCanonicalString c.partitionKey
    let _ ← c.blockHeight
    let utxo ← lookupUtxo s outpoint
    UtxoTransitionGate.validateTransition utxo.state .confirming
  | .markUtxoSpendable => do
    let outpoint ← OutPoint.fromCanonicalString c.partitionKey
    let utxo ← lookupUtxo s outpoint
    UtxoTransitionGate.validateTransition utxo.state .spendable
  | .reserveUtxo => do
    let outpoint ← OutPoint.fromCanonicalString c.partitionKey
    if c.authorizationCommitment = "" then
      throw (.invalidUtxoData "ReserveUtxo authorization_commitment must specify reserved_by")
    let utxo ← lookupUtxo s outpoint
    checkReservable utxo
  | .releaseUtxo => do
    let outpoint ← OutPoint.fromCanonicalString c.partitionKey
    let utxo ← lookupUtxo s outpoint
    checkReserved utxo
  | .markUtxoSpent => do
    let outpoint ← OutPoint.fromCanonicalString c.partitionKey
    let utxo ← lookupUtxo s outpoint
    UtxoTransitionGate.validateTransition utxo.state .spent
  | .applyChainReorganization => do
    let _ ← sm.reorgPayload c
  | .prepareWithdrawal | .authorizeWithdrawal | .broadcastWithdrawal | .confirmWithdrawal
  | .failWithdrawal | .consumeIntent | .expireIntent | .addObserverNode | .promoteVotingNode
  | .removeNode | .installSnapshot => .ok ()

/-! ### Transitions -/

/-- An operation on an account in place, through a reference that creates the
account when it is missing. Returns the account's id. -/
def onAccount (accountId : String) (op : AccountState.Update) : Update String := fun s =>
  let (a, s) := s.getOrCreateAccount accountId
  match op a with
  | .ok () a => .ok a.accountId (s.writeAccount a)
  | .error e a => .error e (s.writeAccount a)

/-- An operation on a tracked UTXO in place. -/
def onUtxo (outpoint : OutPoint) (op : EStateM LedgerError UtxoEntry Unit) : Update Unit := fun s =>
  match lookupUtxo s outpoint with
  | .error e => .error e s
  | .ok u =>
    match op u with
    | .ok () u => .ok () (s.writeUtxo u)
    | .error e u => .error e (s.writeUtxo u)

/-- An operation on the whole UTXO list in place. -/
def onUtxos {α : Type} (op : EStateM LedgerError (List UtxoEntry) α) : Update α := fun s =>
  match op s.utxos with
  | .ok a utxos => .ok a { s with utxos := utxos }
  | .error e utxos => .error e { s with utxos := utxos }

/-- Starts tracking a UTXO; one that is tracked already only comes back from a
reorganization. -/
def trackUtxo (outpoint : OutPoint) (payload : DetectUtxoPayload) (bucket : UInt64) :
    Update Unit := do
  let s ← get
  match s.findUtxo outpoint with
  | some utxo =>
    if utxo.state = .reorged then
      check (UtxoTransitionGate.validateTransition utxo.state .seen)
      set (s.writeUtxo { utxo with state := .seen, detectedAtBucket := bucket })
  | none =>
    let utxo := UtxoEntry.newSeen outpoint payload.valueSats payload.address bucket
    set { s with utxos := s.utxos ++ [utxo] }

def consume (intent : String) (s : LedgerState) : LedgerState :=
  if s.consumedIntents.contains intent then s
  else { s with consumedIntents := s.consumedIntents ++ [intent] }

def addNode (nodeId : String) (s : LedgerState) : LedgerState :=
  if s.membership.nodes.contains nodeId then s
  else { s with membership.nodes := s.membership.nodes ++ [nodeId] }

def removeNode (nodeId : String) (s : LedgerState) : LedgerState :=
  { s with membership.nodes := s.membership.nodes.filter (· ≠ nodeId) }

/-- The arms of `apply`. Returns the accounts affected. -/
def transition (c : LedgerCommand) : Update (List String) :=
  match c.commandType with
  | .creditInternalBalance => do
    let amount := match c.expectedVersion with
      | some _ => c.amount
      | none => 0
    let id ← onAccount c.partitionKey (AccountState.applyCredit amount)
    return [id]
  | .debitInternalBalance => do
    let id ← onAccount c.partitionKey (AccountState.applyDebit c.amount)
    return [id]
  | .reserveBalance => do
    let id ← onAccount c.partitionKey (AccountState.applyReserve c.amount)
    return [id]
  | .releaseReservation => do
    let id ← onAccount c.partitionKey (AccountState.applyReleaseReservation c.amount)
    return [id]
  | .commitInternalTransfer =>
    match c.transferParts with
    | none => throw (.atomicTransferFailed
        "CommitInternalTransfer: partition_key must be 'source|dest'")
    | some (sourceId, destId) => do
      let source ← onAccount sourceId (AccountState.applyDebit c.amount)
      -- The source is already debited when the destination overflows.
      let dest ← onAccount destId (AccountState.applyCredit c.amount)
      return [source, dest]
  | .detectUtxo => do
    let outpoint ← check (OutPoint.fromCanonicalString c.partitionKey)
    let payload ← check (sm.detectUtxoPayload c)
    trackUtxo outpoint payload c.createdAtBucket
    return ["utxo"]
  | .confirmUtxo => do
    let outpoint ← check (OutPoint.fromCanonicalString c.partitionKey)
    let blockHeight ← check c.blockHeight
    onUtxo outpoint do
      let utxo ← get
      check (UtxoTransitionGate.validateTransition utxo.state .confirming)
      set { utxo with
        state := .confirming
        blockHeight := some blockHeight
        confirmedAtBucket := some c.createdAtBucket }
    return ["utxo"]
  | .markUtxoSpendable => do
    let outpoint ← check (OutPoint.fromCanonicalString c.partitionKey)
    onUtxo outpoint do
      let utxo ← get
      check (UtxoTransitionGate.validateTransition utxo.state .spendable)
      set { utxo with state := .spendable }
    return ["utxo"]
  | .reserveUtxo => do
    let outpoint ← check (OutPoint.fromCanonicalString c.partitionKey)
    onUtxo outpoint do
      let utxo ← get
      check (checkReservable utxo)
      set { utxo with
        reservedBy := some c.authorizationCommitment
        reservedAtBucket := some c.createdAtBucket }
    return ["utxo"]
  | .releaseUtxo => do
    let outpoint ← check (OutPoint.fromCanonicalString c.partitionKey)
    onUtxo outpoint do
      let utxo ← get
      check (checkReserved utxo)
      set { utxo with reservedBy := none, reservedAtBucket := none }
    return ["utxo"]
  | .markUtxoSpent => do
    let outpoint ← check (OutPoint.fromCanonicalString c.partitionKey)
    let spentByTxid :=
      if c.authorizationCommitment = "" then none else some c.authorizationCommitment
    onUtxo outpoint do
      let utxo ← get
      check (UtxoTransitionGate.validateTransition utxo.state .spent)
      set { utxo with
        reservedBy := none
        reservedAtBucket := none
        state := .spent
        spentAtBucket := some c.createdAtBucket
        spentByTxid := spentByTxid }
    return ["utxo"]
  | .applyChainReorganization => do
    let payload ← check (sm.reorgPayload c)
    let _ ← onUtxos
      (ReorgHandler.applyReorg payload.disconnectedTxids payload.newUtxos c.createdAtBucket)
    return ["utxo"]
  | .prepareWithdrawal | .authorizeWithdrawal | .broadcastWithdrawal | .confirmWithdrawal
  | .failWithdrawal => return [c.partitionKey]
  | .consumeIntent | .expireIntent => do
    modify (consume c.partitionKey)
    return [c.partitionKey]
  | .addObserverNode => do
    modify (addNode c.partitionKey)
    return ["membership"]
  | .promoteVotingNode => return ["membership"]
  | .removeNode => do
    modify (removeNode c.partitionKey)
    return ["membership"]
  | .installSnapshot => return ["snapshot"]

def apply (c : LedgerCommand) : Update StateTransitionReceipt := do
  let s ← get
  check (sm.validate s c)
  let previousStateRoot := computeStateRoot sm.crypto s
  let sequence := s.version
  let affectedAccounts ← sm.transition c
  modify fun s => { s with version := s.version + 1 }
  let s ← get
  let resultingStateRoot := computeStateRoot sm.crypto s
  return { sequence
           commandHash := c.payloadHash
           previousStateRoot
           resultingStateRoot
           affectedAccounts }

end StateMachine

end Kerosene.Ledger
