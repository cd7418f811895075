import Kerosene.Ledger.StoreSimulation

/-! Six stores in one database.

No prefix of a store continues that of another, so what one store does is not seen by
the others. The stores can be used in any order, and each answers as if it were alone
and in memory (`sled_refines`). -/
namespace Kerosene.Ledger

open Lib.Encode Lib.Inplace Lib.Keyed Lib.Regions Lib.Simulation Lib.Tables

/-! ### The stores -/

/-- The stores that share a database. -/
inductive StoreKind where
  | utxo
  | withdrawal
  | membership
  | idempotency
  | nonce
  | reservation
  deriving DecidableEq, Repr

namespace StoreKind

abbrev Call : StoreKind → Type
  | utxo => UtxoCall
  | withdrawal => WithdrawalCall
  | membership => MembershipCall
  | idempotency => IdempotencyCall
  | nonce => NonceCall
  | reservation => ReservationCall

abbrev Reply : StoreKind → Type
  | utxo => UtxoReply
  | withdrawal => WithdrawalReply
  | membership => MembershipReply
  | idempotency => IdempotencyReply
  | nonce => NonceReply
  | reservation => ReservationReply

/-- What the store in memory has. -/
abbrev Memory : StoreKind → Type
  | utxo => List UtxoEntry
  | withdrawal => Table String WithdrawalRecord
  | membership => Table String NodeMembership
  | idempotency => Table String IdempotencyRecord
  | nonce => Finset String
  | reservation => Table String Reservation

def empty : (kind : StoreKind) → kind.Memory
  | utxo => []
  | withdrawal => ∅
  | membership => ∅
  | idempotency => ∅
  | nonce => ∅
  | reservation => ∅

/-- What the keys of the store begin with in the database. -/
def region : StoreKind → Bytes
  | utxo => SledUtxoStore.prefixUtxo
  | withdrawal => SledWithdrawalStore.prefixWithdrawal
  | membership => SledMembershipStore.prefixMembership
  | idempotency => SledIdempotencyStore.prefixIdempotency
  | nonce => SledNonceChecker.prefixNonce
  | reservation => SledReservationStore.prefixReservation

/-- No prefix begins with another. -/
theorem region_apart {i j : StoreKind} (h : i ≠ j) : ¬ i.region <+: j.region := by
  cases i <;> cases j <;> first | exact absurd rfl h | decide

end StoreKind

/-- What the stores need of the crates: hashing, the debug form of a text, JSON for
every type of record, and the order in which hash maps are iterated. -/
structure StoreCrates where
  crypto : Crypto
  debugText : String → String
  utxos : Json UtxoEntry
  withdrawals : Json WithdrawalRecord
  members : Json NodeMembership
  idempotency : Json IdempotencyRecord
  reservations : Json Reservation
  memberOrder : MapOrder NodeMembership
  reservationOrder : MapOrder Reservation

/-- Records of every type can be serialized. -/
structure StoreCrates.Total (x : StoreCrates) : Prop where
  utxos : x.utxos.Total
  withdrawals : x.withdrawals.Total
  members : x.members.Total
  idempotency : x.idempotency.Total
  reservations : x.reservations.Total

section Shared
variable (x : StoreCrates)

/-- A call of a store of the database. -/
def sledCall : (kind : StoreKind) → kind.Call → EStateM LedgerError Db kind.Reply
  | .utxo => (SledUtxoStore.store x.utxos x.crypto).call
  | .withdrawal => (SledWithdrawalStore.store x.withdrawals x.debugText).call
  | .membership => (SledMembershipStore.store x.members).call
  | .idempotency => (SledIdempotencyStore.store x.idempotency).call
  | .nonce => SledNonceChecker.checker.call
  | .reservation => (SledReservationStore.store x.reservations).call

/-- A call of a store in memory. -/
def memoryCall : (kind : StoreKind) → kind.Call → EStateM LedgerError kind.Memory kind.Reply
  | .utxo => (InMemoryUtxoStore.store x.crypto).call
  | .withdrawal => (InMemoryWithdrawalStore.store x.debugText).call
  | .membership => (InMemoryMembershipStore.store x.memberOrder).call
  | .idempotency => InMemoryIdempotencyStore.store.call
  | .nonce => InMemoryNonceChecker.checker.call
  | .reservation => (InMemoryReservationStore.store x.reservationOrder).call

/-- The database has what a store in memory has. -/
def Represents : (kind : StoreKind) → kind.Memory → Db → Prop
  | .utxo => KeepsUtxos x.utxos
  | .withdrawal => Keeps SledWithdrawalStore.prefixWithdrawal x.withdrawals
  | .membership => fun map db =>
    Keeps SledMembershipStore.prefixMembership x.members map db ∧ KeyedNodes map
  | .idempotency => Keeps SledIdempotencyStore.prefixIdempotency x.idempotency
  | .nonce => KeepsNonces
  | .reservation => Keeps SledReservationStore.prefixReservation x.reservations

variable {x}

theorem represents_empty (kind : StoreKind) : Represents x kind kind.empty ∅ := by
  cases kind with
  | utxo => exact ⟨Holds.empty _ _, List.nodup_nil⟩
  | membership => exact ⟨Holds.empty _ _, fun id node h => by cases h⟩
  | withdrawal | idempotency | nonce | reservation => exact Holds.empty _ _

theorem simulates_call (hx : x.Total) (kind : StoreKind) (c : kind.Call) :
    Simulates (Represents x kind) (memoryCall x kind c) (sledCall x kind c) := by
  cases kind with
  | utxo => exact simulates_utxos hx.utxos x.crypto c
  | withdrawal => exact simulates_withdrawals hx.withdrawals x.debugText c
  | membership => exact simulates_members hx.members x.memberOrder c
  | idempotency => exact simulates_idempotency hx.idempotency c
  | nonce => exact simulates_nonces c
  | reservation => exact simulates_reservations hx.reservations x.reservationOrder c

theorem confined_call (kind : StoreKind) (c : kind.Call) :
    Preserves (Confined kind.region) (sledCall x kind c) := by
  cases kind with
  | utxo => exact confined_utxos x.crypto c
  | withdrawal => exact confined_withdrawals x.debugText c
  | membership => exact confined_members c
  | idempotency => exact confined_idempotency c
  | nonce => exact confined_nonces c
  | reservation => exact confined_reservations c

/-- A store does not notice what happens in the region of another. -/
theorem represents_of_confined {i j : StoreKind} (hij : i ≠ j) {memory : j.Memory} {db db' : Db}
    (hconfined : Confined i.region db db') (h : Represents x j memory db) :
    Represents x j memory db' := by
  have hji := StoreKind.region_apart hij.symm
  have hij := StoreKind.region_apart hij
  cases j with
  | utxo => exact ⟨h.1.of_confined hji hij hconfined, h.2⟩
  | membership => exact ⟨Holds.of_confined hji hij hconfined h.1, h.2⟩
  | withdrawal | idempotency | nonce | reservation => exact Holds.of_confined hji hij hconfined h

/-- **Six stores in one database answer as six stores in memory.** Whatever calls are
made to the stores, in whatever order, each store answers its own calls as the store
in memory does that gets these and no others. -/
theorem sled_refines (x : StoreCrates) (hx : x.Total) (l : List (Σ kind : StoreKind, kind.Call))
    (kind : StoreKind) :
    select kind (sharedAnswers (sledCall x) l ∅) =
      answers (memoryCall x kind) (select kind l) kind.empty :=
  select_sharedAnswers (simulates_call hx)
    (fun i _ c _ db hij h => represents_of_confined hij (confined_call i c db) h) l ∅
    (fun kind => kind.empty) represents_empty kind

end Shared

/-! ### A sample -/

section Sample

/-- Any order will do for a hash map, such as that of the keys. -/
def MapOrder.sorted {ρ : Type} : MapOrder ρ where
  entries := sortedEntries (· ≤ ·)
  enumerates := enumerates_sortedEntries (· ≤ ·)

variable {ρ : Type} [DecidableEq ρ] [Countable ρ] (texts : List (ρ × Bytes))

/-- The texts on record, and for any other value zeros that no text on record is as long as. -/
noncomputable def Json.completedText (r : ρ) : Bytes :=
  match find Prod.fst r texts with
  | some entry => entry.2
  | none =>
    List.replicate ((texts.map fun e => e.2.length).sum + 1 + (exists_injective_nat ρ).choose r) 0

theorem Json.completedText_injective (h : (texts.map Prod.snd).Nodup) :
    Function.Injective (completedText texts) := by
  have hlength {e : ρ × Bytes} (he : e ∈ texts) : e.2.length ≤ (texts.map fun e => e.2.length).sum :=
    List.single_le_sum (by simp) _ (List.mem_map_of_mem he)
  intro r s hrs
  unfold completedText at hrs
  cases hr : find Prod.fst r texts with
  | some e =>
    have he := hlength (mem_of_find hr)
    cases hs : find Prod.fst s texts with
    | some e' =>
      simp only [hr, hs] at hrs
      have hsame := List.inj_on_of_nodup_map h (mem_of_find hr) (mem_of_find hs) hrs
      rw [← key_of_find hr, ← key_of_find hs, hsame]
    | none =>
      simp only [hr, hs] at hrs
      rw [hrs, List.length_replicate] at he
      omega
  | none =>
    cases hs : find Prod.fst s texts with
    | some e' =>
      have he := hlength (mem_of_find hs)
      simp only [hr, hs] at hrs
      rw [← hrs, List.length_replicate] at he
      omega
    | none =>
      simp only [hr, hs] at hrs
      have hcode := congrArg List.length hrs
      rw [List.length_replicate, List.length_replicate, Nat.add_left_cancel_iff] at hcode
      exact (exists_injective_nat ρ).choose_spec hcode

/-- `serde_json` where its texts are on record, and a stand-in elsewhere. -/
noncomputable def Json.completed (h : (texts.map Prod.snd).Nodup) : Json ρ where
  toVec r := .ok (completedText texts r)
  fromSlice bytes :=
    match Function.partialInv (completedText texts) bytes with
    | some r => .ok r
    | none => .error "expected value at line 1 column 1"
  fromSlice_toVec := by
    intro r bytes hr
    cases hr
    rw [Function.partialInv_left (completedText_injective texts h)]

theorem Json.completed_total (h : (texts.map Prod.snd).Nodup) : (completed texts h).Total :=
  fun _ => ⟨_, rfl⟩

end Sample

instance countable_string : Countable String := utf8_injective.countable

deriving instance Countable for OnchainState
deriving instance Countable for OutPoint
deriving instance Countable for UtxoEntry
deriving instance Countable for ReservationState
deriving instance Countable for Reservation
deriving instance Countable for IdempotencyRecord
deriving instance Countable for NodeRole
deriving instance Countable for NodeMembership
deriving instance Countable for NodeSignature
deriving instance Countable for QuorumCertificate
deriving instance Countable for SettlementAuthorization
deriving instance Countable for PsbtCommitment
deriving instance Countable for WithdrawalStatus
deriving instance Countable for WithdrawalRecord

def preparedReservation : Reservation :=
  ⟨"res-1", "alice", 1000, .prepared, 10, 20, 0, "auth-1"⟩

def preparedText : String :=
  "\x7b\"reservation_id\":\"res-1\",\"account_id\":\"alice\",\"amount_sats\":1000,\"state\":\"Prepared\"," ++
    "\"created_at_bucket\":10,\"expires_at_bucket\":20,\"committed_sequence\":0," ++
    "\"authorization_commitment\":\"auth-1\"\x7d"

noncomputable def recordedCrates : StoreCrates where
  crypto := .recorded []
  debugText text := "\"" ++ text ++ "\""
  utxos := .completed [] List.nodup_nil
  withdrawals := .completed [] List.nodup_nil
  members := .completed [] List.nodup_nil
  idempotency := .completed [] List.nodup_nil
  reservations := .completed [(preparedReservation, utf8 preparedText)] (List.nodup_singleton _)
  memberOrder := .sorted
  reservationOrder := .sorted

theorem recordedCrates_total : recordedCrates.Total :=
  ⟨Json.completed_total [] List.nodup_nil, Json.completed_total [] List.nodup_nil,
    Json.completed_total [] List.nodup_nil, Json.completed_total [] List.nodup_nil,
    Json.completed_total [(preparedReservation, utf8 preparedText)] (List.nodup_singleton _)⟩

/-- A reservation and a nonce of one name. -/
theorem sled_refines_one_name :
    select .reservation (sharedAnswers (sledCall recordedCrates)
      [⟨.reservation, .createReservation preparedReservation⟩, ⟨.nonce, .markConsumed "res-1"⟩,
        ⟨.reservation, .getReservation "res-1"⟩] ∅) =
      [.ok .done, .ok (.reservation (some preparedReservation))] := by
  rw [sled_refines recordedCrates recordedCrates_total, select_self, select_of_ne (by decide), select_self]
  rfl

end Kerosene.Ledger
