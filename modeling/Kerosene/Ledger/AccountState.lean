import Kerosene.Ledger.Error
import Kerosene.Lib.Inplace
import Kerosene.Lib.Word

/-! Per-account balances and versions (`account_state.rs`).

The four balance operations work on an account in place and may stop half way:
`applyReserve` has already taken the amount from the available balance when the
reserved balance overflows, and `applyReleaseReservation` the other way round.
Each operation has one lemma for what it does when it succeeds and one for what
it leaves behind when it fails. -/
namespace Kerosene.Ledger

open Lib.Word Lib.Inplace

@[ext] structure AccountState where
  accountId : String
  version : UInt64
  availableSats : UInt64
  reservedSats : UInt64
  pendingIncomingSats : UInt64
  pendingOutgoingSats : UInt64
  lastCommittedSequence : UInt64
  deriving DecidableEq, Repr

namespace AccountState

def new (accountId : String) : AccountState :=
  ⟨accountId, 0, 0, 0, 0, 0, 0⟩

/-- An account at a version with an available balance. -/
def holding (accountId : String) (version availableSats : UInt64) : AccountState :=
  { new accountId with version, availableSats }

/-- The JSON text of an account whose id needs no escapes. -/
def jsonText (a : AccountState) : String :=
  "\x7b\"account_id\":\"" ++ a.accountId ++ "\",\"version\":" ++ toString a.version ++
    ",\"available_sats\":" ++ toString a.availableSats ++
    ",\"reserved_sats\":" ++ toString a.reservedSats ++
    ",\"pending_incoming_sats\":" ++ toString a.pendingIncomingSats ++
    ",\"pending_outgoing_sats\":" ++ toString a.pendingOutgoingSats ++
    ",\"last_committed_sequence\":" ++ toString a.lastCommittedSequence ++ "\x7d"

def spendable (a : AccountState) : UInt64 := a.availableSats

def checkVersion (a : AccountState) (expected : UInt64) : Except LedgerError Unit :=
  if a.version ≠ expected then .error (.versionConflict a.accountId expected a.version)
  else .ok ()

theorem checkVersion_ok {a : AccountState} {v : UInt64} :
    a.checkVersion v = .ok () ↔ a.version = v := by
  unfold checkVersion
  by_cases h : a.version = v <;> simp [h]

/-! ### The operations

An update through a mutable reference: fields are assigned one after the other
and an assignment made before a failing step stays. -/

abbrev Update := EStateM LedgerError AccountState Unit

def applyCredit (amount : UInt64) : Update := do
  let a ← get
  let some available := checkedAdd a.availableSats amount
    | throw (.invariantViolation ("balance overflow on credit for account " ++ a.accountId))
  modify fun a => { a with availableSats := available }
  modify fun a => { a with version := a.version + 1 }

def applyDebit (amount : UInt64) : Update := do
  let a ← get
  if a.spendable < amount then
    throw (.insufficientFunds a.accountId a.spendable amount)
  let some available := checkedSub a.availableSats amount
    | throw (.invariantViolation ("balance underflow on debit for account " ++ a.accountId))
  modify fun a => { a with availableSats := available }
  modify fun a => { a with version := a.version + 1 }

def applyReserve (amount : UInt64) : Update := do
  let a ← get
  if a.spendable < amount then
    throw (.insufficientFunds a.accountId a.spendable amount)
  let some available := checkedSub a.availableSats amount
    | throw (.invariantViolation ("balance underflow on reserve for account " ++ a.accountId))
  modify fun a => { a with availableSats := available }
  -- The available balance is already reduced when this step fails.
  let some reserved := checkedAdd a.reservedSats amount
    | throw (.invariantViolation ("reserved overflow for account " ++ a.accountId))
  modify fun a => { a with reservedSats := reserved }
  modify fun a => { a with version := a.version + 1 }

def applyReleaseReservation (amount : UInt64) : Update := do
  let a ← get
  if a.reservedSats < amount then
    throw (.invariantViolation ("cannot release " ++ toString amount ++ " from reserved (only "
      ++ toString a.reservedSats ++ " reserved) for account " ++ a.accountId))
  let some reserved := checkedSub a.reservedSats amount
    | throw (.invariantViolation ("reserved underflow on release for account " ++ a.accountId))
  modify fun a => { a with reservedSats := reserved }
  -- The reserved balance is already reduced when this step fails.
  let some available := checkedAdd a.availableSats amount
    | throw (.invariantViolation ("available overflow on release for account " ++ a.accountId))
  modify fun a => { a with availableSats := available }
  modify fun a => { a with version := a.version + 1 }

/-! ### What each operation does, in one equation -/

theorem applyCredit_eq (amount : UInt64) (a : AccountState) :
    applyCredit amount a =
      if a.availableSats.toNat + amount.toNat < 2 ^ 64 then
        .ok () { a with availableSats := a.availableSats + amount, version := a.version + 1 }
      else
        .error (.invariantViolation ("balance overflow on credit for account " ++ a.accountId))
          a := by
  simp only [applyCredit, checkedAdd, bind_def, get_def]
  split <;> rfl

theorem applyDebit_eq (amount : UInt64) (a : AccountState) :
    applyDebit amount a =
      if amount ≤ a.availableSats then
        .ok () { a with availableSats := a.availableSats - amount, version := a.version + 1 }
      else .error (.insufficientFunds a.accountId a.availableSats amount) a := by
  simp only [applyDebit, checkedSub, bind_def, get_def]
  by_cases h : amount ≤ a.availableSats
  · have hfunds : ¬ a.spendable < amount := UInt64.not_lt.mpr h
    rw [if_pos h, if_pos h, if_neg hfunds]
    rfl
  · have hfunds : a.spendable < amount := UInt64.not_le.mp h
    rw [if_neg h, if_neg h, if_pos hfunds]
    rfl

theorem applyReserve_eq (amount : UInt64) (a : AccountState) :
    applyReserve amount a =
      if amount ≤ a.availableSats then
        if a.reservedSats.toNat + amount.toNat < 2 ^ 64 then
          .ok () { a with
            availableSats := a.availableSats - amount
            reservedSats := a.reservedSats + amount
            version := a.version + 1 }
        else
          .error (.invariantViolation ("reserved overflow for account " ++ a.accountId))
            { a with availableSats := a.availableSats - amount }
      else .error (.insufficientFunds a.accountId a.availableSats amount) a := by
  simp only [applyReserve, checkedSub, checkedAdd, bind_def, get_def]
  by_cases h : amount ≤ a.availableSats
  · have hfunds : ¬ a.spendable < amount := UInt64.not_lt.mpr h
    rw [if_pos h, if_pos h, if_neg hfunds]
    simp only [bind_def, modify_def]
    split <;> rfl
  · have hfunds : a.spendable < amount := UInt64.not_le.mp h
    rw [if_neg h, if_neg h, if_pos hfunds]
    rfl

theorem applyReleaseReservation_eq (amount : UInt64) (a : AccountState) :
    applyReleaseReservation amount a =
      if amount ≤ a.reservedSats then
        if a.availableSats.toNat + amount.toNat < 2 ^ 64 then
          .ok () { a with
            reservedSats := a.reservedSats - amount
            availableSats := a.availableSats + amount
            version := a.version + 1 }
        else
          .error (.invariantViolation ("available overflow on release for account " ++ a.accountId))
            { a with reservedSats := a.reservedSats - amount }
      else
        .error (.invariantViolation ("cannot release " ++ toString amount ++ " from reserved (only "
          ++ toString a.reservedSats ++ " reserved) for account " ++ a.accountId)) a := by
  simp only [applyReleaseReservation, checkedSub, checkedAdd, bind_def, get_def]
  by_cases h : amount ≤ a.reservedSats
  · rw [if_pos h, if_pos h, if_neg (UInt64.not_lt.mpr h)]
    simp only [bind_def, modify_def]
    split <;> rfl
  · rw [if_neg h, if_neg h, if_pos (UInt64.not_le.mp h)]
    rfl

end AccountState

/-! ### The operations as a family -/

/-- The four balance operations (`command.rs`). -/
inductive BalanceOperation where
  | credit
  | debit
  | reserve
  | releaseReservation
  deriving DecidableEq, Repr

namespace AccountState

def operate : BalanceOperation → UInt64 → Update
  | .credit => applyCredit
  | .debit => applyDebit
  | .reserve => applyReserve
  | .releaseReservation => applyReleaseReservation

/-- The operation fails after its first assignment. -/
def StopsHalfway (a : AccountState) : BalanceOperation → UInt64 → Prop
  | .reserve, amount =>
    amount ≤ a.availableSats ∧ 2 ^ 64 ≤ a.reservedSats.toNat + amount.toNat
  | .releaseReservation, amount =>
    amount ≤ a.reservedSats ∧ 2 ^ 64 ≤ a.availableSats.toNat + amount.toNat
  | _, _ => False

/-- What an operation leaves: it never renames the account, and it moves the
version by one exactly when it succeeds. -/
theorem operate_after (op : BalanceOperation) (amount : UInt64) (a : AccountState) :
    (∃ a', operate op amount a = .ok () a' ∧ a'.accountId = a.accountId ∧
      a'.version = a.version + 1) ∨
    (∃ e a', operate op amount a = .error e a' ∧ a'.accountId = a.accountId ∧
      a'.version = a.version) := by
  cases op <;>
    simp only [operate, applyCredit_eq, applyDebit_eq, applyReserve_eq,
      applyReleaseReservation_eq] <;>
    split_ifs <;> simp

theorem operate_version {op : BalanceOperation} {amount : UInt64} {a a' : AccountState}
    (h : operate op amount a = .ok () a') : a'.version = a.version + 1 := by
  rcases operate_after op amount a with ⟨b, hb, _, hv⟩ | ⟨e, b, hb, _⟩
  · rw [h] at hb
    cases hb
    exact hv
  · rw [h] at hb
    cases hb

theorem sub_ne_self {a b : UInt64} (hb : b ≠ 0) : a - b ≠ a := by
  intro h
  exact hb (by simpa using h)

/-- A failed operation leaves the account as it was, unless it stops half way. -/
theorem operate_atomicAt (op : BalanceOperation) (amount : UInt64) (a : AccountState) :
    AtomicAt (operate op amount) a ↔ ¬ StopsHalfway a op amount := by
  have hpos : ∀ n : UInt64, 2 ^ 64 ≤ n.toNat + amount.toNat → amount ≠ 0 := by
    intro n hn h0
    have := n.toNat_lt
    rw [h0] at hn
    simp at hn
    omega
  cases op with
  | credit =>
    refine iff_of_true ?_ not_false
    simp only [AtomicAt, operate, applyCredit_eq]
    split_ifs <;> simp
  | debit =>
    refine iff_of_true ?_ not_false
    simp only [AtomicAt, operate, applyDebit_eq]
    split_ifs <;> simp
  | reserve =>
    have heq := applyReserve_eq amount a
    split_ifs at heq with h₁ h₂
    · exact iff_of_true (atomicAt_of_ok heq) fun h => absurd h.2 (Nat.not_le.mpr h₂)
    · have hne := sub_ne_self (a := a.availableSats) (hpos _ (Nat.not_lt.mp h₂))
      exact iff_of_false
        (fun h => hne (congrArg availableSats ((atomicAt_of_error heq).mp h)))
        (not_not.mpr ⟨h₁, Nat.not_lt.mp h₂⟩)
    · exact iff_of_true ((atomicAt_of_error heq).mpr rfl) fun h => h₁ h.1
  | releaseReservation =>
    have heq := applyReleaseReservation_eq amount a
    split_ifs at heq with h₁ h₂
    · exact iff_of_true (atomicAt_of_ok heq) fun h => absurd h.2 (Nat.not_le.mpr h₂)
    · have hne := sub_ne_self (a := a.reservedSats) (hpos _ (Nat.not_lt.mp h₂))
      exact iff_of_false
        (fun h => hne (congrArg reservedSats ((atomicAt_of_error heq).mp h)))
        (not_not.mpr ⟨h₁, Nat.not_lt.mp h₂⟩)
    · exact iff_of_true ((atomicAt_of_error heq).mpr rfl) fun h => h₁ h.1

end AccountState

end Kerosene.Ledger
