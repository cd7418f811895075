import Kerosene.Lib.Word
import Kerosene.Lib.Encode
import Kerosene.Lib.Digest
import Kerosene.Lib.Keyed
import Kerosene.Lib.Inplace
import Kerosene.Lib.Tables
import Kerosene.Lib.Optimistic
import Kerosene.Lib.Commit
import Kerosene.Lib.Interleave
import Kerosene.Lib.Locks
import Kerosene.Lib.Footprint
import Kerosene.Lib.Regions
import Kerosene.Lib.Simulation
import Kerosene.Lib.Records
import Kerosene.Lib.Contest
import Kerosene.Lib.Firsts
import Kerosene.Lib.Parties
import Kerosene.Lib.AtomicFile
import Kerosene.Lib.Text
import Kerosene.Ledger.AccountState
import Kerosene.Ledger.Chain
import Kerosene.Ledger.Bookkeeping
import Kerosene.Ledger.Receipts
import Kerosene.Ledger.TrialBalance
import Kerosene.Ledger.JournalChain
import Kerosene.Ledger.Atomicity
import Kerosene.Ledger.Versions
import Kerosene.Ledger.AccountStore
import Kerosene.Ledger.Conservation
import Kerosene.Ledger.ConcurrentStore
import Kerosene.Ledger.Settlement
import Kerosene.Ledger.Replication
import Kerosene.Ledger.Supply
import Kerosene.Ledger.Attestation
import Kerosene.Ledger.Utxos
import Kerosene.Ledger.Uniqueness
import Kerosene.Ledger.Intents
import Kerosene.Ledger.Verdicts
import Kerosene.Ledger.Reconciliation
import Kerosene.Ledger.Gates
import Kerosene.Ledger.UtxoReservations
import Kerosene.Ledger.UtxoLifecycle
import Kerosene.Ledger.UtxoSources
import Kerosene.Ledger.Replacement
import Kerosene.Ledger.Commute
import Kerosene.Ledger.Validation
import Kerosene.Ledger.Amounts
import Kerosene.Ledger.CommandHash
import Kerosene.Ledger.PartRoots
import Kerosene.Ledger.Stores
import Kerosene.Ledger.Persistent
import Kerosene.Ledger.StoreSimulation
import Kerosene.Ledger.SharedDatabase
import Kerosene.Ledger.Admission
import Kerosene.Ledger.RecordWrites
import Kerosene.Ledger.WithdrawalLifecycle
import Kerosene.Ledger.ReservationFinality
import Kerosene.Ledger.AccountRefinement
import Kerosene.Ledger.LatestSnapshot
import Kerosene.Ledger.NonceSessions
import Kerosene.Node.JointConsensus
import Kerosene.Node.Epochs
import Kerosene.Node.CommandLine
import Kerosene.Node.Commands
import Kerosene.Node.Ceremony
import Kerosene.Node.Readiness
import Kerosene.Node.FailedSnapshots
import Kerosene.Node.PeerStore
import Kerosene.Node.Recognition
import Kerosene.Node.Challenges
import Kerosene.Node.Network
import Kerosene.Node.Handshake
import Kerosene.Node.Durable
import Kerosene.Node.Restarts
import Kerosene.Node.Lives
import Kerosene.Node.Router
import Kerosene.Node.Program
import Kerosene.Node.Operator
import Kerosene.Node.CatchUp
import Kerosene.Node.ManifestRace
import Kerosene.Node.Locking
import Kerosene.Node.IdentityFile
