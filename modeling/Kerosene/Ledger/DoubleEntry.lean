import Kerosene.Ledger.Crates
import Kerosene.Ledger.Error
import Kerosene.Lib.Inplace
import Kerosene.Lib.Keyed

/-! The double-entry ledger (`double_entry.rs`): journal entries chained by hash,
and the in-memory ledger that validates an entry, adds its postings to the
balances and only then checks that every account is still on its side.

`u128` totals are naturals and `i128` balances integers; the checked operations
and the casts are written out. The map of balances is the list of its values in
the order it is iterated in, which the standard library leaves open: a new
ledger takes any order of the accounts (`HashOrder`). -/
namespace Kerosene.Ledger

open Lib.Encode Lib.Inplace

/-! ### Journal entries -/

structure Posting where
  account : StandardAccount
  amountSats : UInt64
  deriving DecidableEq, Repr

structure JournalEntry where
  entryId : String
  sequence : UInt64
  description : String
  debits : List Posting
  credits : List Posting
  timestampBucket : UInt64
  entryHash : String
  previousEntryHash : Option String
  deriving DecidableEq, Repr

namespace JournalEntry

def hashPostings (x : Crypto) (postings : List Posting) : String :=
  x.sha256Hex (postings.flatMap fun p =>
    utf8 p.account.debug ++ utf8 ":" ++ le64 p.amountSats ++ utf8 ",")

def computeEntryHash (x : Crypto) (entryId : String) (sequence : UInt64) (description : String)
    (debits credits : List Posting) (timestampBucket : UInt64)
    (previousEntryHash : Option String) : String :=
  let material := entryId ++ "|" ++ toString sequence ++ "|" ++ description ++ "|" ++
    hashPostings x debits ++ "|" ++ hashPostings x credits ++ "|" ++
    previousEntryHash.getD "" ++ "|" ++ toString timestampBucket
  x.sha256Hex (utf8 material)

end JournalEntry

/-! ### Balances -/

structure AccountBalance where
  account : StandardAccount
  accountClass : AccountClass
  totalDebitsSats : Nat
  totalCreditsSats : Nat
  netBalanceSats : Int
  deriving DecidableEq, Repr

structure JournalReceipt where
  sequence : UInt64
  entryHash : String
  previousEntryHash : Option String
  accountBalances : List AccountBalance
  trialBalanceHash : String
  deriving DecidableEq, Repr

/-- A `u128` reinterpreted as an `i128`. -/
def asI128 (n : Nat) : Int := if n < 2 ^ 127 then n else n - 2 ^ 128

def checkedAddU128 (a b : Nat) : Option Nat := if a + b < 2 ^ 128 then some (a + b) else none

def checkedSubI128 (a b : Int) : Option Int :=
  if -2 ^ 127 ≤ a - b ∧ a - b < 2 ^ 127 then some (a - b) else none

/-- Which of an account's two totals a posting is added to. -/
inductive Side where
  | debit
  | credit
  deriving DecidableEq, Repr

namespace AccountBalance

def total (side : Side) (bal : AccountBalance) : Nat :=
  match side with
  | .debit => bal.totalDebitsSats
  | .credit => bal.totalCreditsSats

def setTotal (side : Side) (n : Nat) (bal : AccountBalance) : AccountBalance :=
  match side with
  | .debit => { bal with totalDebitsSats := n }
  | .credit => { bal with totalCreditsSats := n }

/-- The result of a checked operation, or the account's overflow. -/
def orOverflow {α : Type} (account : StandardAccount) : Option α → Except LedgerError α
  | some a => .ok a
  | none => .error (.balanceOverflow account)

/-- One posting: the total is assigned before the net balance is computed. -/
def post (side : Side) (posting : Posting) : EStateM LedgerError AccountBalance Unit := do
  let bal ← get
  let total ← check (orOverflow posting.account
    (checkedAddU128 (bal.total side) posting.amountSats.toNat))
  set (bal.setTotal side total)
  let bal ← get
  let net ← check (orOverflow posting.account
    (checkedSubI128 (asI128 bal.totalDebitsSats) (asI128 bal.totalCreditsSats)))
  set { bal with netBalanceSats := net }

/-- Assets and expenses carry a debit balance, the other classes a credit balance. -/
def checkSide (bal : AccountBalance) : Except LedgerError Unit :=
  match bal.accountClass with
  | .asset | .expense =>
    if bal.netBalanceSats < 0 then .error (.negativeBalance bal.account bal.netBalanceSats)
    else .ok ()
  | .liability | .equity | .revenue =>
    if bal.netBalanceSats > 0 then .error (.negativeBalance bal.account bal.netBalanceSats)
    else .ok ()

end AccountBalance

/-! ### The in-memory ledger -/

structure InMemoryLedgerInner where
  entries : List JournalEntry
  balances : List AccountBalance
  receipts : Finmap fun _ : String => JournalReceipt

/-- An order in which a map with every standard account as a key is iterated. -/
abbrev HashOrder := { order : List StandardAccount // order.Perm StandardAccount.all }

namespace InMemoryLedger

abbrev Update := EStateM LedgerError InMemoryLedgerInner

def initialBalances (order : HashOrder) : List AccountBalance :=
  order.val.map fun acc => ⟨acc, acc.accountClass, 0, 0, 0⟩

def new (order : HashOrder) : InMemoryLedgerInner := ⟨[], initialBalances order, ∅⟩

def sortBalances (balances : List AccountBalance) : List AccountBalance :=
  balances.insertionSort fun a b => a.account.ordinal ≤ b.account.ordinal

def computeTrialBalanceHash (x : Crypto) (balances : List AccountBalance) : String :=
  x.sha256Hex ((sortBalances balances).flatMap fun bal =>
    utf8 (bal.account.debug ++ "|" ++ toString bal.totalDebitsSats ++ "|" ++
      toString bal.totalCreditsSats ++ "|" ++ toString bal.netBalanceSats) ++ utf8 "\n")

def amountSum (postings : List Posting) : Nat :=
  (postings.map fun p => p.amountSats.toNat).sum

/-- The given previous hash against the head of the chain. -/
def checkPrevious (prevHash given : Option String) : Except LedgerError Unit :=
  match prevHash, given with
  | some expectedPrev, some givenPrev =>
    if givenPrev ≠ expectedPrev then
      .error (.invalidHash ("previous_entry_hash mismatch: expected " ++ expectedPrev ++ ", got "
        ++ givenPrev))
    else .ok ()
  | none, some _ => .error (.invalidHash "genesis entry should have previous_entry_hash = None")
  | some _, none => .error (.invalidHash "non-genesis entry must have a previous_entry_hash")
  | none, none => .ok ()

/-- The checks made before any posting is applied. -/
def validateEntry (x : Crypto) (inner : InMemoryLedgerInner) (entry : JournalEntry) :
    Except LedgerError Unit := do
  if entry.debits.isEmpty || entry.credits.isEmpty then throw .emptyEntry
  let debitsSum := amountSum entry.debits
  let creditsSum := amountSum entry.credits
  if debitsSum ≠ creditsSum then throw (.unbalancedEntry debitsSum creditsSum)
  let expectedSeq := UInt64.ofNat inner.entries.length
  if entry.sequence ≠ expectedSeq then throw (.sequenceGap expectedSeq entry.sequence)
  if entry.sequence < expectedSeq then throw (.duplicateSequence entry.sequence)
  let prevHash := inner.entries.getLast?.map JournalEntry.entryHash
  let computedHash := JournalEntry.computeEntryHash x entry.entryId entry.sequence
    entry.description entry.debits entry.credits entry.timestampBucket prevHash
  if entry.entryHash ≠ computedHash then throw (.invalidHash computedHash)
  checkPrevious prevHash entry.previousEntryHash

/-- One posting against the map of balances, in place. -/
def applyPosting (side : Side) (posting : Posting) : Update Unit := fun inner =>
  match Lib.Keyed.find AccountBalance.account posting.account inner.balances with
  | none => .error (.accountNotFound posting.account) inner
  | some bal =>
    match AccountBalance.post side posting bal with
    | .ok () bal =>
      .ok () { inner with balances := Lib.Keyed.put AccountBalance.account bal inner.balances }
    | .error e bal =>
      .error e { inner with balances := Lib.Keyed.put AccountBalance.account bal inner.balances }

/-- The first account, in iteration order, that is on the wrong side. -/
def checkSides (balances : List AccountBalance) : Except LedgerError Unit :=
  forM balances AccountBalance.checkSide

def commit (x : Crypto) (entry : JournalEntry) : Update JournalReceipt := do
  modify fun inner => { inner with entries := inner.entries ++ [entry] }
  let inner ← get
  let receipt : JournalReceipt :=
    { sequence := entry.sequence
      entryHash := entry.entryHash
      previousEntryHash := entry.previousEntryHash
      accountBalances := sortBalances inner.balances
      trialBalanceHash := computeTrialBalanceHash x inner.balances }
  modify fun inner => { inner with receipts := inner.receipts.insert entry.entryId receipt }
  return receipt

def postEntry (x : Crypto) (entry : JournalEntry) : Update JournalReceipt := do
  let inner ← get
  match inner.receipts.lookup entry.entryId with
  | some existing => return existing
  | none =>
    check (validateEntry x inner entry)
    replay (applyPosting .debit) entry.debits
    replay (applyPosting .credit) entry.credits
    let inner ← get
    -- The postings are already in the balances when this check fails.
    check (checkSides inner.balances)
    commit x entry

end InMemoryLedger

end Kerosene.Ledger
