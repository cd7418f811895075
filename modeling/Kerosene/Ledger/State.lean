import Kerosene.Ledger.AccountState
import Kerosene.Ledger.Chain
import Kerosene.Ledger.DoubleEntry

/-! The state of the ledger, the commands that change it, and the root that
commits to it (`state_machine.rs`, `state_root.rs`, the record of
`reservation.rs`). -/
namespace Kerosene.Ledger

open Lib.Encode Lib.Keyed

/-! ### Commands -/

inductive LedgerCommandType where
  | creditInternalBalance
  | debitInternalBalance
  | reserveBalance
  | releaseReservation
  | commitInternalTransfer
  | detectUtxo
  | confirmUtxo
  | markUtxoSpendable
  | reserveUtxo
  | releaseUtxo
  | markUtxoSpent
  | prepareWithdrawal
  | authorizeWithdrawal
  | broadcastWithdrawal
  | confirmWithdrawal
  | failWithdrawal
  | applyChainReorganization
  | consumeIntent
  | expireIntent
  | addObserverNode
  | promoteVotingNode
  | removeNode
  | installSnapshot
  deriving DecidableEq, Repr

/-- The discriminant: position in the declaration. -/
def LedgerCommandType.code (t : LedgerCommandType) : UInt8 := UInt8.ofNat t.ctorIdx

structure LedgerCommand where
  commandId : String
  commandType : LedgerCommandType
  partitionKey : String
  expectedVersion : Option UInt64
  payloadHash : String
  authorizationCommitment : String
  epoch : UInt64
  createdAtBucket : UInt64
  deriving DecidableEq, Repr

namespace LedgerCommand

def computePayloadHash (x : Crypto) (c : LedgerCommand) : String :=
  x.sha256Hex (utf8 "KROOTv1:LedgerCommand" ++ [c.commandType.code] ++
    encodeOption le64 c.expectedVersion ++ encodeString c.partitionKey ++
    encodeString c.authorizationCommitment ++ le64 c.epoch ++ le64 c.createdAtBucket)

def new (x : Crypto) (commandId : String) (commandType : LedgerCommandType)
    (partitionKey : String) (expectedVersion : Option UInt64) (authorizationCommitment : String)
    (epoch createdAtBucket : UInt64) : LedgerCommand :=
  let cmd : LedgerCommand :=
    { commandId, commandType, partitionKey, expectedVersion
      payloadHash := ""
      authorizationCommitment, epoch, createdAtBucket }
  { cmd with payloadHash := cmd.computePayloadHash x }

end LedgerCommand

/-! ### The state -/

inductive ConsensusProfile where
  | single
  | haCrash
  | bftF1
  | bftF2
  deriving DecidableEq, Repr

structure MembershipView where
  clusterId : String
  nodes : List String
  activeProfile : ConsensusProfile
  deriving DecidableEq, Repr

def MembershipView.singleNode (clusterId nodeId : String) : MembershipView :=
  ⟨clusterId, [nodeId], .single⟩

inductive ReservationState where
  | prepared
  | committed
  | consumed
  | released
  | expired
  deriving DecidableEq, Repr

def ReservationState.debug : ReservationState → String
  | .prepared => "Prepared"
  | .committed => "Committed"
  | .consumed => "Consumed"
  | .released => "Released"
  | .expired => "Expired"

structure Reservation where
  reservationId : String
  accountId : String
  amountSats : UInt64
  state : ReservationState
  createdAtBucket : UInt64
  expiresAtBucket : UInt64
  committedSequence : UInt64
  authorizationCommitment : String
  deriving DecidableEq, Repr

def Reservation.isTerminal (r : Reservation) : Bool :=
  match r.state with
  | .consumed | .released | .expired => true
  | .prepared | .committed => false

structure LedgerState where
  version : UInt64
  accounts : List AccountState
  journal : List JournalEntry
  reservations : List Reservation
  consumedIntents : List String
  membership : MembershipView
  utxos : List UtxoEntry
  deriving DecidableEq, Repr

namespace LedgerState

def empty (membership : MembershipView) : LedgerState :=
  ⟨0, [], [], [], [], membership, []⟩

def findAccount (s : LedgerState) (accountId : String) : Option AccountState :=
  find AccountState.accountId accountId s.accounts

/-- The account with an id, created at version 0 when there is none, and the
state that has it. -/
def getOrCreateAccount (s : LedgerState) (accountId : String) : AccountState × LedgerState :=
  match s.findAccount accountId with
  | some a => (a, s)
  | none => (.new accountId, { s with accounts := s.accounts ++ [.new accountId] })

/-- Writing through the reference that `getOrCreateAccount` hands out. -/
def writeAccount (s : LedgerState) (a : AccountState) : LedgerState :=
  { s with accounts := put AccountState.accountId a s.accounts }

def findUtxo (s : LedgerState) (outpoint : OutPoint) : Option UtxoEntry :=
  find UtxoEntry.outpoint outpoint s.utxos

/-- Writing through a reference to a tracked UTXO. -/
def writeUtxo (s : LedgerState) (u : UtxoEntry) : LedgerState :=
  { s with utxos := put UtxoEntry.outpoint u s.utxos }

end LedgerState

/-- What a transition leaves on record. -/
structure StateTransitionReceipt where
  sequence : UInt64
  commandHash : String
  previousStateRoot : String
  resultingStateRoot : String
  affectedAccounts : List String
  deriving DecidableEq, Repr

/-! ### The state root -/

section StateRoot
variable (x : Crypto)

def hashWithDomain (tag : String) (payload : Bytes) : Vector UInt8 32 :=
  x.sha256 (utf8 tag ++ utf8 ":" ++ payload)

def ConsensusProfile.code : ConsensusProfile → UInt8
  | .single => 0
  | .haCrash => 1
  | .bftF1 => 2
  | .bftF2 => 3

def ReservationState.code : ReservationState → UInt8
  | .prepared => 0
  | .committed => 1
  | .consumed => 2
  | .released => 3
  | .expired => 4

def hashAccount (a : AccountState) : Vector UInt8 32 :=
  hashWithDomain x "KROOTv1:acct" (le64 a.version ++ le64 a.availableSats ++
    le64 a.reservedSats ++ le64 a.pendingIncomingSats ++ le64 a.pendingOutgoingSats ++
    le64 a.lastCommittedSequence ++ utf8 a.accountId)

/-- Only the hash an entry carries enters the root. -/
def hashJournalEntry (entry : JournalEntry) : Vector UInt8 32 :=
  hashWithDomain x "KROOTv1:jent" (utf8 entry.entryHash)

def hashReservation (r : Reservation) : Vector UInt8 32 :=
  hashWithDomain x "KROOTv1:resv" (le64 r.amountSats ++ le64 r.createdAtBucket ++
    le64 r.expiresAtBucket ++ le64 r.committedSequence ++ [r.state.code] ++ utf8 r.accountId ++
    utf8 r.reservationId ++ utf8 r.authorizationCommitment)

def hashIntent (intent : String) : Vector UInt8 32 :=
  hashWithDomain x "KROOTv1:intent" (utf8 intent)

def encodeMembership (m : MembershipView) : Bytes :=
  let sortedNodes := m.nodes.insertionSort fun a b => bytesLe (utf8 a) (utf8 b)
  [m.activeProfile.code] ++ encodeString m.clusterId ++ leBytes 8 sortedNodes.length ++
    sortedNodes.flatMap encodeString

def computeMembershipHash (m : MembershipView) : String :=
  x.hexEncode (hashWithDomain x "KROOTv1:mem" (encodeMembership m)).toList

def hashSortedItems {α : Type} (items : List α) (tag : String) (hashFn : α → Vector UInt8 32) :
    Vector UInt8 32 :=
  x.sha256 (utf8 tag ++ utf8 ":" ++ (sortDigests (items.map hashFn)).flatMap Vector.toList)

def computeStateRoot (s : LedgerState) : String :=
  x.sha256Hex (utf8 "KROOTv1:version" ++ utf8 ":" ++ le64 s.version ++
    utf8 "KROOTv1:accounts" ++ utf8 ":" ++
      (hashSortedItems x s.accounts "KROOTv1:accounts" (hashAccount x)).toList ++
    utf8 "KROOTv1:journal" ++ utf8 ":" ++
      (hashSortedItems x s.journal "KROOTv1:journal" (hashJournalEntry x)).toList ++
    utf8 "KROOTv1:reservations" ++ utf8 ":" ++
      (hashSortedItems x s.reservations "KROOTv1:reservations" (hashReservation x)).toList ++
    utf8 "KROOTv1:intents" ++ utf8 ":" ++
      (hashSortedItems x s.consumedIntents "KROOTv1:intents" (hashIntent x)).toList ++
    utf8 "KROOTv1:membership" ++ utf8 ":" ++
      (hashWithDomain x "KROOTv1:mem" (encodeMembership s.membership)).toList ++
    utf8 "KROOTv1:utxos" ++ utf8 ":" ++
      (hashWithDomain x "KROOTv1:utxos" (utf8 (computeUtxoRoot x s.utxos))).toList)

theorem computeStateRoot_ne_empty (s : LedgerState) : computeStateRoot x s ≠ "" :=
  x.sha256Hex_ne_empty _

end StateRoot

end Kerosene.Ledger
