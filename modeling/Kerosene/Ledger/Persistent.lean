import Kerosene.Ledger.Stores

/-! The stores that share one database (`persistent.rs`).

Every store keeps its records as JSON under keys with a prefix of its own and leaves
it to the prefixes that no store sees the keys of another. What a hash map does in
memory is here a read, a change and a write; what a map iterates is a scan. -/
namespace Kerosene.Ledger

open Lib.Encode Lib.Inplace Lib.Regions

/-! ### Records in the database -/

namespace Sled

abbrev Update := EStateM LedgerError Db

variable {ρ : Type} (json : Json ρ)

def create (key : Bytes) (r : ρ) (duplicate : LedgerError) : Update Unit := do
  let db ← get
  if (db.lookup key).isSome then throw duplicate
  let bytes ← check (json.serialize r)
  set (db.insert key bytes)

def read (key : Bytes) : Update (Option ρ) := do
  let db ← get
  match db.lookup key with
  | some bytes => do
    let r ← check (json.deserialize bytes)
    return some r
  | none => return none

/-- A record read, checked, changed and written back. -/
def update (key : Bytes) (missing : LedgerError) (f : ρ → Except LedgerError ρ) : Update Unit := do
  let db ← get
  match db.lookup key with
  | none => throw missing
  | some bytes => do
    let r ← check (json.deserialize bytes)
    let r ← check (f r)
    let bytes ← check (json.serialize r)
    set (db.insert key bytes)

/-- The records under a prefix with their keys; what cannot be read is passed over. -/
def scan (p : Bytes) (db : Db) : List (Bytes × ρ) :=
  (scanPrefix p db).filterMap fun e =>
    match json.deserialize e.2 with
    | .ok r => some (e.1, r)
    | .error _ => none

end Sled

/-! ### Reservations -/

namespace SledReservationStore

def prefixReservation : Bytes := utf8 "resv:"

def reservationKey (id : String) : Bytes := prefixReservation ++ utf8 id

variable (json : Json Reservation)

def createReservation (reservation : Reservation) : Sled.Update Unit :=
  Sled.create json (reservationKey reservation.reservationId) reservation
    (.invariantViolation ("reservation '" ++ reservation.reservationId ++ "' already exists"))

def getReservation (id : String) : Sled.Update (Option Reservation) :=
  Sled.read json (reservationKey id)

def transition (id : String) (source target : ReservationState) : Sled.Update Unit :=
  Sled.update json (reservationKey id) (.reservationNotFound id) fun reservation => do
    if reservation.state ≠ source then
      throw (.invariantViolation ("reservation '" ++ id ++ "' expected state " ++ source.debug ++
        ", found " ++ reservation.state.debug))
    return { reservation with state := target }

/-- The loop over the records to expire; one that cannot be written is counted all the same. -/
def expireAll : List (Bytes × Reservation) → UInt64 → Sled.Update UInt64
  | [], expiredCount => return expiredCount
  | (key, r) :: rest, expiredCount => do
    match json.serialize { r with state := .expired } with
    | .ok bytes => modify fun db => db.insert key bytes
    | .error _ => pure ()
    expireAll rest (expiredCount + 1)

def expireStale (currentBucket : UInt64) : Sled.Update UInt64 := do
  let db ← get
  let toExpire := (Sled.scan json prefixReservation db).filter fun e => e.2.isStale currentBucket
  expireAll json toExpire 0

def store : ReservationStore Db where
  createReservation := createReservation json
  getReservation := getReservation json
  transition := transition json
  expireStale := expireStale json

end SledReservationStore

/-! ### Idempotency -/

namespace SledIdempotencyStore

def prefixIdempotency : Bytes := utf8 "idemp:"

def idempotencyKey (id : String) : Bytes := prefixIdempotency ++ utf8 id

variable (json : Json IdempotencyRecord)

def check (commandId commandHash : String) : Sled.Update (Option IdempotencyRecord) := do
  let db ← get
  match db.lookup (idempotencyKey commandId) with
  | some bytes => do
    let record ← Lib.Inplace.check (json.deserialize bytes)
    if record.commandHash = commandHash then return some record
    else throw (.idempotencyConflict commandId)
  | none => return none

def record (record : IdempotencyRecord) : Sled.Update Unit := do
  let bytes ← Lib.Inplace.check (json.serialize record)
  modify fun db => db.insert (idempotencyKey record.commandId) bytes

def store : IdempotencyStore Db where
  check := check json
  record := record json

end SledIdempotencyStore

/-! ### Nonces -/

namespace SledNonceChecker

def prefixNonce : Bytes := utf8 "nonce:"

def isConsumed (nonce : String) : Sled.Update Bool := do
  return ((← get).lookup (prefixNonce ++ utf8 nonce)).isSome

/-- The nonce is written in any case, and refused when it was there. -/
def markConsumed (nonce : String) : Sled.Update Unit := do
  let db ← get
  let prev := db.lookup (prefixNonce ++ utf8 nonce)
  set (db.insert (prefixNonce ++ utf8 nonce) [])
  if prev.isSome then throw (.authorizationInvalid ("nonce already consumed: " ++ nonce))

def isConsumedSync (nonce : String) : Sled.Update Bool := do
  return ((← get).lookup (prefixNonce ++ utf8 nonce)).isSome

def markConsumedSync (nonce : String) : Sled.Update Unit :=
  modify fun db => db.insert (prefixNonce ++ utf8 nonce) []

def checker : NonceChecker Db := { isConsumed, markConsumed, isConsumedSync, markConsumedSync }

end SledNonceChecker

/-! ### UTXOs -/

namespace SledUtxoStore

def prefixUtxo : Bytes := utf8 "utxo:"

def utxoKey (key : String) : Bytes := prefixUtxo ++ utf8 key

variable (json : Json UtxoEntry)

def listAllEntries (db : Db) : List UtxoEntry :=
  sortByCanonicalKey ((Sled.scan json prefixUtxo db).map Prod.snd)

/-- An entry that is there is left as it is. -/
def addUtxo (utxo : UtxoEntry) : Sled.Update Unit := do
  let db ← get
  if (db.lookup (utxoKey utxo.canonicalKey)).isSome then return ()
  let bytes ← check (json.serialize utxo)
  set (db.insert (utxoKey utxo.canonicalKey) bytes)

def getUtxo (outpoint : OutPoint) : Sled.Update (Option UtxoEntry) :=
  Sled.read json (utxoKey outpoint.toCanonicalString)

def listByState (state : OnchainState) : Sled.Update (List UtxoEntry) := do
  return sortByCanonicalKey ((listAllEntries json (← get)).filter fun e => e.state = state)

def listAll : Sled.Update (List UtxoEntry) := do
  return listAllEntries json (← get)

def updateState (outpoint : OutPoint) (newState : OnchainState) : Sled.Update Unit :=
  Sled.update json (utxoKey outpoint.toCanonicalString)
    (.utxoNotFound outpoint.txid outpoint.vout) fun entry => do
      UtxoTransitionGate.validateTransition entry.state newState
      return { entry with state := newState }

def reserve (outpoint : OutPoint) (reservedBy : String) (bucket : UInt64) : Sled.Update Unit :=
  Sled.update json (utxoKey outpoint.toCanonicalString)
    (.utxoNotFound outpoint.txid outpoint.vout) fun entry => do
      if ¬ (entry.state = .spendable ∨ entry.state = .finalizedByPolicy) then
        throw (.invalidUtxoTransition entry.state entry.state)
      if let some existing := entry.reservedBy then throw (.utxoAlreadyReserved existing)
      return { entry with reservedBy := some reservedBy, reservedAtBucket := some bucket }

def release (outpoint : OutPoint) : Sled.Update Unit :=
  Sled.update json (utxoKey outpoint.toCanonicalString)
    (.utxoNotFound outpoint.txid outpoint.vout) fun entry => do
      if entry.reservedBy.isNone then throw .utxoNotReserved
      return { entry with reservedBy := none, reservedAtBucket := none }

def computeUtxoRootHash (x : Crypto) : Sled.Update String := do
  return computeUtxoRoot x (listAllEntries json (← get))

def store (x : Crypto) : UtxoStore Db where
  addUtxo := addUtxo json
  getUtxo := getUtxo json
  listByState := listByState json
  listAll := listAll json
  updateState := updateState json
  reserve := reserve json
  release := release json
  computeUtxoRootHash := computeUtxoRootHash json x

end SledUtxoStore

/-! ### Withdrawals -/

namespace SledWithdrawalStore

def prefixWithdrawal : Bytes := utf8 "wd:"

def withdrawalKey (id : String) : Bytes := prefixWithdrawal ++ utf8 id

variable (json : Json WithdrawalRecord)

def create (withdrawal : WithdrawalRecord) : Sled.Update Unit :=
  Sled.create json (withdrawalKey withdrawal.withdrawalId) withdrawal
    (.duplicateEntryId withdrawal.withdrawalId)

def get (withdrawalId : String) : Sled.Update (Option WithdrawalRecord) :=
  Sled.read json (withdrawalKey withdrawalId)

def updateStatus (id : String) (status : WithdrawalStatus) (bucket : UInt64) : Sled.Update Unit :=
  Sled.update json (withdrawalKey id) (.withdrawalNotFound id) fun record => do
    if !record.status.canTransitionTo status then
      throw (.invalidStateTransition ("cannot transition withdrawal " ++ id ++ " from " ++
        record.status.debug ++ " to " ++ status.debug))
    return { record with status := status, updatedAtBucket := bucket }

def setAuthorization (id : String) (auth : SettlementAuthorization) : Sled.Update Unit :=
  Sled.update json (withdrawalKey id) (.withdrawalNotFound id) fun record => do
    if record.status ≠ .reserved then
      throw (.invalidStateTransition ("cannot set authorization on withdrawal " ++ id ++
        " in state " ++ record.status.debug ++ " (must be Reserved)"))
    return { record with authorization := some auth, status := .authorized }

def setPsbt (id : String) (commitment : PsbtCommitment) : Sled.Update Unit :=
  Sled.update json (withdrawalKey id) (.withdrawalNotFound id) fun record =>
    return { record with psbtCommitment := some commitment }

def setBroadcastTxid (debugText : String → String) (id txid : String) : Sled.Update Unit :=
  Sled.update json (withdrawalKey id) (.withdrawalNotFound id) fun record => do
    if let some existing := record.broadcastTxid then
      throw (.invalidStateTransition ("withdrawal " ++ id ++ " already has broadcast txid Some(" ++
        debugText existing ++ ")"))
    return { record with broadcastTxid := some txid }

def store (debugText : String → String) : WithdrawalStore Db where
  create := create json
  get := get json
  updateStatus := updateStatus json
  setAuthorization := setAuthorization json
  setPsbt := setPsbt json
  setBroadcastTxid := setBroadcastTxid json debugText

end SledWithdrawalStore

/-! ### Members of the cluster -/

namespace SledMembershipStore

def prefixMembership : Bytes := utf8 "member:"

def memberKey (nodeId : String) : Bytes := prefixMembership ++ utf8 nodeId

variable (json : Json NodeMembership)

def listAllNodes (db : Db) : List NodeMembership :=
  sortByNodeId ((Sled.scan json prefixMembership db).map Prod.snd)

def addNode (node : NodeMembership) : Sled.Update Unit :=
  Sled.create json (memberKey node.nodeId) node
    (.invariantViolation ("node '" ++ node.nodeId ++ "' already exists in membership"))

def getNode (nodeId : String) : Sled.Update (Option NodeMembership) :=
  Sled.read json (memberKey nodeId)

def listByRole (role : NodeRole) : Sled.Update (List NodeMembership) := do
  return sortByNodeId ((listAllNodes json (← get)).filter fun n => n.role = role)

def promote (nodeId : String) (targetRole : NodeRole) : Sled.Update Unit :=
  Sled.update json (memberKey nodeId) (.nodeNotFound nodeId) fun node => do
    validateRoleTransition node.role targetRole
    return { node with role := targetRole }

def removeNode (nodeId : String) : Sled.Update Unit := modify fun db => db.erase (memberKey nodeId)

def updateHeartbeat (nodeId : String) (bucket : UInt64) : Sled.Update Unit :=
  Sled.update json (memberKey nodeId) (.nodeNotFound nodeId) fun node =>
    return { node with lastHeartbeatBucket := bucket }

def store : MembershipStore Db where
  addNode := addNode json
  getNode := getNode json
  listByRole := listByRole json
  promote := promote json
  removeNode := removeNode
  updateHeartbeat := updateHeartbeat json

end SledMembershipStore

end Kerosene.Ledger
