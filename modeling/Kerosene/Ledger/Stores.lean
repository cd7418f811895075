import Kerosene.Ledger.Settlement
import Kerosene.Lib.Regions

/-! The ports of the ledger and their stores in memory (`traits.rs`, `in_memory.rs`,
`nonce.rs`, `utxo_store.rs`, `withdrawal.rs`, `membership.rs`, `idempotency.rs`).

A port is a record of operations on a state; `call` puts the operations of a port
behind one type of calls, so that what clients do is a list of calls. The stores in
memory hold hash maps, a hash set, and for the UTXOs a vector. A hash map hands out
its entries in any order (`MapOrder`). -/
namespace Kerosene.Ledger

open Lib.Encode Lib.Inplace Lib.Keyed Lib.Regions Lib.Tables

/-! ### Hash maps -/

/-- The order in which a hash map is iterated: every entry comes once. -/
structure MapOrder (ρ : Type) where
  entries : Table String ρ → List (String × ρ)
  enumerates : ∀ map, Enumerates (entries map) fun id => map.lookup id

namespace HashMap

variable {ρ : Type}

def create (id : String) (r : ρ) (duplicate : LedgerError) :
    EStateM LedgerError (Table String ρ) Unit := do
  let map ← get
  if (map.lookup id).isSome then throw duplicate
  set (map.insert id r)

def read (id : String) : EStateM LedgerError (Table String ρ) (Option ρ) := do
  return (← get).lookup id

/-- A record changed in place; it is checked before it is changed. -/
def update (id : String) (missing : LedgerError) (f : ρ → Except LedgerError ρ) :
    EStateM LedgerError (Table String ρ) Unit := do
  let map ← get
  match map.lookup id with
  | none => throw missing
  | some r => do
    let r ← check (f r)
    set (map.insert id r)

end HashMap

/-! ### Reservations -/

structure ReservationStore (σ : Type) where
  createReservation : Reservation → EStateM LedgerError σ Unit
  getReservation : String → EStateM LedgerError σ (Option Reservation)
  transition : String → ReservationState → ReservationState → EStateM LedgerError σ Unit
  expireStale : UInt64 → EStateM LedgerError σ UInt64

inductive ReservationCall where
  | createReservation (reservation : Reservation)
  | getReservation (id : String)
  | transition (id : String) (source target : ReservationState)
  | expireStale (currentBucket : UInt64)
  deriving DecidableEq, Repr

inductive ReservationReply where
  | done
  | reservation (found : Option Reservation)
  | expired (count : UInt64)
  deriving DecidableEq, Repr

def ReservationStore.call {σ : Type} (store : ReservationStore σ) :
    ReservationCall → EStateM LedgerError σ ReservationReply
  | .createReservation r => (fun _ => .done) <$> store.createReservation r
  | .getReservation id => .reservation <$> store.getReservation id
  | .transition id source target => (fun _ => .done) <$> store.transition id source target
  | .expireStale bucket => .expired <$> store.expireStale bucket

/-- What expires: what is due and not settled in some way. -/
def Reservation.isStale (currentBucket : UInt64) (r : Reservation) : Bool :=
  r.expiresAtBucket ≤ currentBucket && !r.isTerminal

namespace InMemoryReservationStore

abbrev Update := EStateM LedgerError (Table String Reservation)

def createReservation (reservation : Reservation) : Update Unit :=
  HashMap.create reservation.reservationId reservation
    (.invariantViolation ("reservation '" ++ reservation.reservationId ++ "' already exists"))

def getReservation (id : String) : Update (Option Reservation) := HashMap.read id

def transition (id : String) (source target : ReservationState) : Update Unit :=
  HashMap.update id (.reservationNotFound id) fun reservation => do
    if reservation.state ≠ source then
      throw (.invariantViolation ("reservation '" ++ id ++ "' expected state " ++ source.debug ++
        ", found " ++ reservation.state.debug))
    return { reservation with state := target }

/-- The loop over the ids to expire. -/
def expireAll : List String → UInt64 → Update UInt64
  | [], expiredCount => return expiredCount
  | id :: rest, expiredCount => do
    let map ← get
    match map.lookup id with
    | some r => do
      set (map.insert id { r with state := .expired })
      expireAll rest (expiredCount + 1)
    | none => expireAll rest expiredCount

def expireStale (order : MapOrder Reservation) (currentBucket : UInt64) : Update UInt64 := do
  let map ← get
  let toExpire :=
    ((order.entries map).filter fun e => e.2.isStale currentBucket).map Prod.fst
  expireAll toExpire 0

def store (order : MapOrder Reservation) : ReservationStore (Table String Reservation) where
  createReservation
  getReservation
  transition
  expireStale := expireStale order

end InMemoryReservationStore

/-! ### Idempotency -/

structure IdempotencyRecord where
  commandId : String
  commandHash : String
  resultHash : String
  committedSequence : UInt64
  resultingStateRoot : String
  deriving DecidableEq, Repr

structure IdempotencyStore (σ : Type) where
  check : String → String → EStateM LedgerError σ (Option IdempotencyRecord)
  record : IdempotencyRecord → EStateM LedgerError σ Unit

inductive IdempotencyCall where
  | check (commandId commandHash : String)
  | record (record : IdempotencyRecord)
  deriving DecidableEq, Repr

inductive IdempotencyReply where
  | done
  | record (found : Option IdempotencyRecord)
  deriving DecidableEq, Repr

def IdempotencyStore.call {σ : Type} (store : IdempotencyStore σ) :
    IdempotencyCall → EStateM LedgerError σ IdempotencyReply
  | .check commandId commandHash => .record <$> store.check commandId commandHash
  | .record record => (fun _ => .done) <$> store.record record

namespace InMemoryIdempotencyStore

abbrev Update := EStateM LedgerError (Table String IdempotencyRecord)

def check (commandId commandHash : String) : Update (Option IdempotencyRecord) := do
  let map ← get
  match map.lookup commandId with
  | some existing =>
    if existing.commandHash = commandHash then return some existing
    else throw (.idempotencyConflict commandId)
  | none => return none

/-- A record that is there is replaced. -/
def record (record : IdempotencyRecord) : Update Unit :=
  modify fun map => map.insert record.commandId record

def store : IdempotencyStore (Table String IdempotencyRecord) := { check, record }

end InMemoryIdempotencyStore

/-! ### Nonces -/

/-- The two traits for nonces, for asynchronous and for synchronous callers. -/
structure NonceChecker (σ : Type) where
  isConsumed : String → EStateM LedgerError σ Bool
  markConsumed : String → EStateM LedgerError σ Unit
  isConsumedSync : String → EStateM LedgerError σ Bool
  markConsumedSync : String → EStateM LedgerError σ Unit

inductive NonceCall where
  | isConsumed (nonce : String)
  | markConsumed (nonce : String)
  | isConsumedSync (nonce : String)
  | markConsumedSync (nonce : String)
  deriving DecidableEq, Repr

inductive NonceReply where
  | done
  | consumed (answer : Bool)
  deriving DecidableEq, Repr

def NonceChecker.call {σ : Type} (checker : NonceChecker σ) :
    NonceCall → EStateM LedgerError σ NonceReply
  | .isConsumed nonce => .consumed <$> checker.isConsumed nonce
  | .markConsumed nonce => (fun _ => .done) <$> checker.markConsumed nonce
  | .isConsumedSync nonce => .consumed <$> checker.isConsumedSync nonce
  | .markConsumedSync nonce => (fun _ => .done) <$> checker.markConsumedSync nonce

namespace InMemoryNonceChecker

abbrev Update := EStateM LedgerError (Finset String)

def isConsumed (nonce : String) : Update Bool := do
  return nonce ∈ (← get)

def markConsumed (nonce : String) : Update Unit := do
  let consumed ← get
  if nonce ∈ consumed then throw (.authorizationInvalid ("nonce already consumed: " ++ nonce))
  set (insert nonce consumed)

def isConsumedSync (nonce : String) : Update Bool := do
  return nonce ∈ (← get)

/-- Nobody is told when the nonce was there already. -/
def markConsumedSync (nonce : String) : Update Unit := modify fun consumed => insert nonce consumed

def checker : NonceChecker (Finset String) :=
  { isConsumed, markConsumed, isConsumedSync, markConsumedSync }

end InMemoryNonceChecker

/-! ### UTXOs -/

structure UtxoStore (σ : Type) where
  addUtxo : UtxoEntry → EStateM LedgerError σ Unit
  getUtxo : OutPoint → EStateM LedgerError σ (Option UtxoEntry)
  listByState : OnchainState → EStateM LedgerError σ (List UtxoEntry)
  listAll : EStateM LedgerError σ (List UtxoEntry)
  updateState : OutPoint → OnchainState → EStateM LedgerError σ Unit
  reserve : OutPoint → String → UInt64 → EStateM LedgerError σ Unit
  release : OutPoint → EStateM LedgerError σ Unit
  computeUtxoRootHash : EStateM LedgerError σ String

inductive UtxoCall where
  | addUtxo (utxo : UtxoEntry)
  | getUtxo (outpoint : OutPoint)
  | listByState (state : OnchainState)
  | listAll
  | updateState (outpoint : OutPoint) (newState : OnchainState)
  | reserve (outpoint : OutPoint) (reservedBy : String) (bucket : UInt64)
  | release (outpoint : OutPoint)
  | computeUtxoRootHash
  deriving DecidableEq, Repr

inductive UtxoReply where
  | done
  | entry (found : Option UtxoEntry)
  | entries (listed : List UtxoEntry)
  | root (hash : String)
  deriving DecidableEq, Repr

def UtxoStore.call {σ : Type} (store : UtxoStore σ) : UtxoCall → EStateM LedgerError σ UtxoReply
  | .addUtxo utxo => (fun _ => .done) <$> store.addUtxo utxo
  | .getUtxo outpoint => .entry <$> store.getUtxo outpoint
  | .listByState state => .entries <$> store.listByState state
  | .listAll => .entries <$> store.listAll
  | .updateState outpoint newState => (fun _ => .done) <$> store.updateState outpoint newState
  | .reserve outpoint reservedBy bucket =>
    (fun _ => .done) <$> store.reserve outpoint reservedBy bucket
  | .release outpoint => (fun _ => .done) <$> store.release outpoint
  | .computeUtxoRootHash => .root <$> store.computeUtxoRootHash

/-- In the order of the keys, for determinism. -/
def sortByCanonicalKey (entries : List UtxoEntry) : List UtxoEntry :=
  entries.insertionSort fun a b => bytesLe (utf8 a.canonicalKey) (utf8 b.canonicalKey)

namespace InMemoryUtxoStore

abbrev Update := EStateM LedgerError (List UtxoEntry)

/-- An entry that is there is left as it is. -/
def addUtxo (utxo : UtxoEntry) : Update Unit := do
  let entries ← get
  let key := utxo.canonicalKey
  if entries.any (fun e => e.canonicalKey == key) then return ()
  set (entries ++ [utxo])

def getUtxo (outpoint : OutPoint) : Update (Option UtxoEntry) := do
  return find UtxoEntry.canonicalKey outpoint.toCanonicalString (← get)

def listByState (state : OnchainState) : Update (List UtxoEntry) := do
  return sortByCanonicalKey ((← get).filter fun e => e.state = state)

def listAll : Update (List UtxoEntry) := do
  return sortByCanonicalKey (← get)

/-- An entry found by its key and changed in place; it is checked before it is changed. -/
def updateEntry (outpoint : OutPoint) (f : UtxoEntry → Except LedgerError UtxoEntry) :
    Update Unit := do
  let entries ← get
  match find UtxoEntry.canonicalKey outpoint.toCanonicalString entries with
  | none => throw (.utxoNotFound outpoint.txid outpoint.vout)
  | some entry => do
    let entry ← check (f entry)
    set (put UtxoEntry.canonicalKey entry entries)

def updateState (outpoint : OutPoint) (newState : OnchainState) : Update Unit :=
  updateEntry outpoint fun entry => do
    UtxoTransitionGate.validateTransition entry.state newState
    return { entry with state := newState }

def reserve (outpoint : OutPoint) (reservedBy : String) (bucket : UInt64) : Update Unit :=
  updateEntry outpoint fun entry => do
    if ¬ (entry.state = .spendable ∨ entry.state = .finalizedByPolicy) then
      throw (.invalidUtxoTransition entry.state entry.state)
    if let some existing := entry.reservedBy then throw (.utxoAlreadyReserved existing)
    return { entry with reservedBy := some reservedBy, reservedAtBucket := some bucket }

def release (outpoint : OutPoint) : Update Unit :=
  updateEntry outpoint fun entry => do
    if entry.reservedBy.isNone then throw .utxoNotReserved
    return { entry with reservedBy := none, reservedAtBucket := none }

def computeUtxoRootHash (x : Crypto) : Update String := do
  return computeUtxoRoot x (← get)

def store (x : Crypto) : UtxoStore (List UtxoEntry) where
  addUtxo
  getUtxo
  listByState
  listAll
  updateState
  reserve
  release
  computeUtxoRootHash := computeUtxoRootHash x

end InMemoryUtxoStore

/-! ### Withdrawals -/

inductive WithdrawalStatus where
  | reserved
  | authorized
  | signing
  | broadcast
  | confirming
  | confirmed
  | failed
  | replaced
  deriving DecidableEq, Repr

namespace WithdrawalStatus

def debug : WithdrawalStatus → String
  | reserved => "Reserved"
  | authorized => "Authorized"
  | signing => "Signing"
  | broadcast => "Broadcast"
  | confirming => "Confirming"
  | confirmed => "Confirmed"
  | failed => "Failed"
  | replaced => "Replaced"

def isTerminal : WithdrawalStatus → Bool
  | confirmed | failed | replaced => true
  | reserved | authorized | signing | broadcast | confirming => false

def canTransitionTo (status target : WithdrawalStatus) : Bool :=
  match status, target with
  | reserved, authorized | authorized, signing | signing, broadcast | broadcast, confirming
  | confirming, confirmed => true
  | s, failed => !s.isTerminal && s ≠ confirmed
  | broadcast, replaced | confirming, replaced => true
  | _, _ => false

end WithdrawalStatus

structure WithdrawalRecord where
  withdrawalId : String
  intentCommitment : String
  accountId : String
  amountSats : UInt64
  destinationAddress : String
  status : WithdrawalStatus
  reservationId : Option String
  authorization : Option SettlementAuthorization
  psbtCommitment : Option PsbtCommitment
  broadcastTxid : Option String
  createdAtBucket : UInt64
  updatedAtBucket : UInt64
  deriving DecidableEq, Repr

def WithdrawalRecord.new (withdrawalId intentCommitment accountId : String) (amountSats : UInt64)
    (destinationAddress : String) (createdAtBucket : UInt64) : WithdrawalRecord :=
  { withdrawalId, intentCommitment, accountId, amountSats, destinationAddress
    status := .reserved
    reservationId := none
    authorization := none
    psbtCommitment := none
    broadcastTxid := none
    createdAtBucket
    updatedAtBucket := createdAtBucket }

structure WithdrawalStore (σ : Type) where
  create : WithdrawalRecord → EStateM LedgerError σ Unit
  get : String → EStateM LedgerError σ (Option WithdrawalRecord)
  updateStatus : String → WithdrawalStatus → UInt64 → EStateM LedgerError σ Unit
  setAuthorization : String → SettlementAuthorization → EStateM LedgerError σ Unit
  setPsbt : String → PsbtCommitment → EStateM LedgerError σ Unit
  setBroadcastTxid : String → String → EStateM LedgerError σ Unit

inductive WithdrawalCall where
  | create (withdrawal : WithdrawalRecord)
  | get (withdrawalId : String)
  | updateStatus (id : String) (status : WithdrawalStatus) (bucket : UInt64)
  | setAuthorization (id : String) (auth : SettlementAuthorization)
  | setPsbt (id : String) (commitment : PsbtCommitment)
  | setBroadcastTxid (id txid : String)
  deriving DecidableEq, Repr

inductive WithdrawalReply where
  | done
  | record (found : Option WithdrawalRecord)
  deriving DecidableEq, Repr

def WithdrawalStore.call {σ : Type} (store : WithdrawalStore σ) :
    WithdrawalCall → EStateM LedgerError σ WithdrawalReply
  | .create withdrawal => (fun _ => .done) <$> store.create withdrawal
  | .get withdrawalId => .record <$> store.get withdrawalId
  | .updateStatus id status bucket => (fun _ => .done) <$> store.updateStatus id status bucket
  | .setAuthorization id auth => (fun _ => .done) <$> store.setAuthorization id auth
  | .setPsbt id commitment => (fun _ => .done) <$> store.setPsbt id commitment
  | .setBroadcastTxid id txid => (fun _ => .done) <$> store.setBroadcastTxid id txid

namespace InMemoryWithdrawalStore

abbrev Update := EStateM LedgerError (Table String WithdrawalRecord)

def create (withdrawal : WithdrawalRecord) : Update Unit :=
  HashMap.create withdrawal.withdrawalId withdrawal (.duplicateEntryId withdrawal.withdrawalId)

def get (withdrawalId : String) : Update (Option WithdrawalRecord) := HashMap.read withdrawalId

/-- A broadcast may come before its transaction id. -/
def updateStatus (id : String) (status : WithdrawalStatus) (bucket : UInt64) : Update Unit :=
  HashMap.update id (.withdrawalNotFound id) fun record => do
    if !record.status.canTransitionTo status then
      throw (.invalidStateTransition ("cannot transition withdrawal " ++ id ++ " from " ++
        record.status.debug ++ " to " ++ status.debug))
    return { record with status := status, updatedAtBucket := bucket }

def setAuthorization (id : String) (auth : SettlementAuthorization) : Update Unit :=
  HashMap.update id (.withdrawalNotFound id) fun record => do
    if record.status ≠ .reserved then
      throw (.invalidStateTransition ("cannot set authorization on withdrawal " ++ id ++
        " in state " ++ record.status.debug ++ " (must be Reserved)"))
    return { record with authorization := some auth, status := .authorized }

def setPsbt (id : String) (commitment : PsbtCommitment) : Update Unit :=
  HashMap.update id (.withdrawalNotFound id) fun record =>
    return { record with psbtCommitment := some commitment }

/-- `debugText` is how `{:?}` prints a text: in quotes and with escapes. -/
def setBroadcastTxid (debugText : String → String) (id txid : String) : Update Unit :=
  HashMap.update id (.withdrawalNotFound id) fun record => do
    if let some existing := record.broadcastTxid then
      throw (.invalidStateTransition ("withdrawal " ++ id ++ " already has broadcast txid Some(" ++
        debugText existing ++ ")"))
    return { record with broadcastTxid := some txid }

def store (debugText : String → String) : WithdrawalStore (Table String WithdrawalRecord) where
  create
  get
  updateStatus
  setAuthorization
  setPsbt
  setBroadcastTxid := setBroadcastTxid debugText

end InMemoryWithdrawalStore

/-! ### Members of the cluster -/

structure NodeMembership where
  nodeId : String
  role : NodeRole
  onionEndpoint : Option String
  identityPubkey : String
  attestedAtBucket : UInt64
  joinedEpoch : UInt64
  lastHeartbeatBucket : UInt64
  admissionSignature : Option String
  deriving DecidableEq, Repr

def validateRoleTransition (current target : NodeRole) : Except LedgerError Unit :=
  let valid := match current, target with
    | .untrusted, .observer | .observer, .learner | .learner, .voter | .voter, .observer => true
    | _, .untrusted => true
    | _, _ => false
  if valid then .ok () else .error (.invalidRoleTransition current target)

structure MembershipStore (σ : Type) where
  addNode : NodeMembership → EStateM LedgerError σ Unit
  getNode : String → EStateM LedgerError σ (Option NodeMembership)
  listByRole : NodeRole → EStateM LedgerError σ (List NodeMembership)
  promote : String → NodeRole → EStateM LedgerError σ Unit
  removeNode : String → EStateM LedgerError σ Unit
  updateHeartbeat : String → UInt64 → EStateM LedgerError σ Unit

inductive MembershipCall where
  | addNode (node : NodeMembership)
  | getNode (nodeId : String)
  | listByRole (role : NodeRole)
  | promote (nodeId : String) (targetRole : NodeRole)
  | removeNode (nodeId : String)
  | updateHeartbeat (nodeId : String) (bucket : UInt64)
  deriving DecidableEq, Repr

inductive MembershipReply where
  | done
  | node (found : Option NodeMembership)
  | nodes (listed : List NodeMembership)
  deriving DecidableEq, Repr

def MembershipStore.call {σ : Type} (store : MembershipStore σ) :
    MembershipCall → EStateM LedgerError σ MembershipReply
  | .addNode node => (fun _ => .done) <$> store.addNode node
  | .getNode nodeId => .node <$> store.getNode nodeId
  | .listByRole role => .nodes <$> store.listByRole role
  | .promote nodeId targetRole => (fun _ => .done) <$> store.promote nodeId targetRole
  | .removeNode nodeId => (fun _ => .done) <$> store.removeNode nodeId
  | .updateHeartbeat nodeId bucket => (fun _ => .done) <$> store.updateHeartbeat nodeId bucket

/-- In the order of the ids, for determinism. -/
def sortByNodeId (nodes : List NodeMembership) : List NodeMembership :=
  nodes.insertionSort fun a b => bytesLe (utf8 a.nodeId) (utf8 b.nodeId)

namespace InMemoryMembershipStore

abbrev Update := EStateM LedgerError (Table String NodeMembership)

def addNode (node : NodeMembership) : Update Unit :=
  HashMap.create node.nodeId node
    (.invariantViolation ("node '" ++ node.nodeId ++ "' already exists in membership"))

def getNode (nodeId : String) : Update (Option NodeMembership) := HashMap.read nodeId

def listByRole (order : MapOrder NodeMembership) (role : NodeRole) :
    Update (List NodeMembership) := do
  let nodes := (order.entries (← get)).map Prod.snd
  return sortByNodeId (nodes.filter fun n => n.role = role)

def promote (nodeId : String) (targetRole : NodeRole) : Update Unit :=
  HashMap.update nodeId (.nodeNotFound nodeId) fun node => do
    validateRoleTransition node.role targetRole
    return { node with role := targetRole }

/-- A node that is not there is removed as well. -/
def removeNode (nodeId : String) : Update Unit := modify fun map => map.erase nodeId

def updateHeartbeat (nodeId : String) (bucket : UInt64) : Update Unit :=
  HashMap.update nodeId (.nodeNotFound nodeId) fun node =>
    return { node with lastHeartbeatBucket := bucket }

def store (order : MapOrder NodeMembership) : MembershipStore (Table String NodeMembership) where
  addNode
  getNode
  listByRole := listByRole order
  promote
  removeNode
  updateHeartbeat

end InMemoryMembershipStore

end Kerosene.Ledger
