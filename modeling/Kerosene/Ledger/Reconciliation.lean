import Kerosene.Ledger.StateMachine

/-! Reconciliation of the chain's assets with the ledger's liabilities
(`reconciliation.rs`).

Both totals are 64-bit sums that clamp. A clamped sum is the exact one as long as that
fits (`computeTotalAssets_eq`, `computeTotalLiabilities_eq`), but two totals that do not
fit are reported as equal. `reconcile_sound_iff` is what follows for the report: it shows
every deficit except the ones of a ledger whose assets reach the limit already. -/
namespace Kerosene.Ledger

open Lib.Word

inductive ReconciliationStatus where
  | balanced
  | warning
  | deficit
  | surplus
  | incompleteChainData
  deriving DecidableEq, Repr

structure ReconciliationReport where
  stateRoot : String
  chainTipHash : String
  totalAssetsSats : UInt64
  totalLiabilitiesSats : UInt64
  totalReservedSats : UInt64
  totalPendingSats : UInt64
  /-- Assets less liabilities; an `i128`, which holds every difference of two totals. -/
  differenceSats : ℤ
  status : ReconciliationStatus
  deriving DecidableEq, Repr

namespace ReconciliationEngine

/-- An output that is not gone. -/
def isAsset (u : UtxoEntry) : Bool := !(u.state == .spent || u.state == .replaced)

def computeTotalAssets (s : LedgerState) : UInt64 :=
  saturatingSum ((s.utxos.filter isAsset).map UtxoEntry.valueSats)

/-- What one account is owed. -/
def owed (a : AccountState) : UInt64 :=
  saturatingAdd (saturatingAdd a.availableSats a.reservedSats) a.pendingOutgoingSats

def computeTotalLiabilities (s : LedgerState) : UInt64 := saturatingSum (s.accounts.map owed)

def computeTotalReserved (s : LedgerState) : UInt64 :=
  saturatingSum (s.accounts.map AccountState.reservedSats)

def computeTotalPending (s : LedgerState) : UInt64 :=
  saturatingSum (s.accounts.map AccountState.pendingOutgoingSats)

def warningTolerance (totalAssets : UInt64) : UInt64 :=
  let pct := totalAssets / 1000
  if pct < 1000 then 1000 else pct

def statusOf (totalAssets totalLiabilities : UInt64) (chainDataComplete : Bool) :
    ReconciliationStatus :=
  let diff : ℤ := (totalAssets.toNat : ℤ) - totalLiabilities.toNat
  let absDiff := diff.natAbs
  let tolerance := warningTolerance totalAssets
  if !chainDataComplete then .incompleteChainData
  else if diff = 0 then .balanced
  else if diff > 0 ∧ absDiff ≤ tolerance.toNat then .balanced
  else if diff < 0 ∧ absDiff ≤ tolerance.toNat then .warning
  else if diff > 0 then .surplus
  else .deficit

def reconcile (x : Crypto) (s : LedgerState) (chainTipHash : String) (chainDataComplete : Bool) :
    ReconciliationReport :=
  let totalAssets := computeTotalAssets s
  let totalLiabilities := computeTotalLiabilities s
  { stateRoot := computeStateRoot x s
    chainTipHash
    totalAssetsSats := totalAssets
    totalLiabilitiesSats := totalLiabilities
    totalReservedSats := computeTotalReserved s
    totalPendingSats := computeTotalPending s
    differenceSats := (totalAssets.toNat : ℤ) - totalLiabilities.toNat
    status := statusOf totalAssets totalLiabilities chainDataComplete }

/-! ### Exact totals -/

/-- What the chain holds, as an integer. -/
def assets (s : LedgerState) : ℕ := ((s.utxos.filter isAsset).map fun u => u.valueSats.toNat).sum

/-- What the ledger owes, as an integer. -/
def liabilities (s : LedgerState) : ℕ :=
  (s.accounts.map fun a =>
    a.availableSats.toNat + a.reservedSats.toNat + a.pendingOutgoingSats.toNat).sum

theorem computeTotalAssets_eq (s : LedgerState) :
    (computeTotalAssets s).toNat = min (assets s) (2 ^ 64 - 1) := by
  refine toNat_saturatingSum (fun u => ?_) _
  have := u.valueSats.toNat_lt
  omega

theorem toNat_owed (a : AccountState) :
    (owed a).toNat = min (a.availableSats.toNat + a.reservedSats.toNat + a.pendingOutgoingSats.toNat)
      (2 ^ 64 - 1) := by
  rw [owed, toNat_saturatingAdd, toNat_saturatingAdd]
  omega

/-- Clamping each account's total first changes nothing. -/
theorem computeTotalLiabilities_eq (s : LedgerState) :
    (computeTotalLiabilities s).toNat = min (liabilities s) (2 ^ 64 - 1) :=
  toNat_saturatingSum toNat_owed _

/-! ### The verdict -/

/-- The report raises no alarm. -/
def ReportsCovered (status : ReconciliationStatus) : Prop := status = .balanced ∨ status = .surplus

/-- With complete data the verdict compares the totals: the tolerance tells a deficit
from a warning, and a surplus from a balance, but not one side from the other. -/
theorem reportsCovered_statusOf {totalAssets totalLiabilities : UInt64} :
    ReportsCovered (statusOf totalAssets totalLiabilities true) ↔
      totalLiabilities.toNat ≤ totalAssets.toNat := by
  unfold ReportsCovered statusOf
  simp only [Bool.not_true, Bool.false_eq_true, if_false]
  split_ifs <;> simp only [or_true, true_or, or_self, true_iff, false_iff] <;> omega

theorem reportsCovered_reconcile (x : Crypto) (s : LedgerState) (tip : String) :
    ReportsCovered (reconcile x s tip true).status ↔
      min (liabilities s) (2 ^ 64 - 1) ≤ min (assets s) (2 ^ 64 - 1) := by
  rw [← computeTotalAssets_eq, ← computeTotalLiabilities_eq]
  exact reportsCovered_statusOf

/-- **When a report of no deficit can be relied on.** The assets cover the liabilities
whenever the report says so, except on a ledger whose assets fill the total and whose
liabilities exceed them. -/
theorem reconcile_sound_iff (x : Crypto) (s : LedgerState) (tip : String) :
    ((reconcile x s tip true).status = .balanced ∨ (reconcile x s tip true).status = .surplus →
        liabilities s ≤ assets s) ↔
      ¬(2 ^ 64 - 1 ≤ assets s ∧ assets s < liabilities s) := by
  show (ReportsCovered (reconcile x s tip true).status → _) ↔ _
  rw [reportsCovered_reconcile]
  omega

/-- Two accounts that together are owed more than a total can say. -/
def overfull : LedgerState :=
  { LedgerState.empty (.singleNode "cluster-1" "node-1") with
    accounts := [.holding "alice" 1 0xffffffffffffffff, .holding "bob" 1 1]
    utxos := [.newSeen ⟨"tx1", 0⟩ 0xffffffffffffffff "bc1q-vault" 12] }

/-- One satoshi short, and reported as balanced. -/
theorem overfull_reported_balanced :
    (reconcile StateMachine.plain.crypto overfull "tip" true).status = .balanced ∧
      assets overfull < liabilities overfull := by
  refine ⟨?_, by decide⟩
  show statusOf (computeTotalAssets overfull) (computeTotalLiabilities overfull) true = .balanced
  decide

end ReconciliationEngine

end Kerosene.Ledger
