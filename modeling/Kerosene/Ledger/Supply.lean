import Kerosene.Ledger.Transitions

/-! Where the sats of a ledger come from.

Every arm of the state machine moves matching amounts: reserves, releases and
transfers shift sats between two balances, a credit brings in its effective
amount and a debit takes its own out. `apply_sats` says so for one command,
`replay_sats` for every run that succeeds from the empty ledger, whose accounts
also never have anything pending. -/
namespace Kerosene.Ledger

open Lib.Inplace Lib.Keyed Lib.Word

/-! ### What an account holds -/

namespace AccountState

/-- The sats of an account: what it can spend and what it holds back. -/
def sats (a : AccountState) : ℕ := a.availableSats.toNat + a.reservedSats.toNat

/-- Nothing is on its way in or out. -/
def Settled (a : AccountState) : Prop := a.pendingIncomingSats = 0 ∧ a.pendingOutgoingSats = 0

theorem settled_new (accountId : String) : (new accountId).Settled := ⟨rfl, rfl⟩

end AccountState

/-- What an operation brings into an account. -/
def BalanceOperation.inflow (op : BalanceOperation) (amount : UInt64) : ℕ :=
  if op = .credit then amount.toNat else 0

/-- What an operation takes out of an account. -/
def BalanceOperation.outflow (op : BalanceOperation) (amount : UInt64) : ℕ :=
  if op = .debit then amount.toNat else 0

/-- An amount added to the available balance, taken from it, or moved between it and the
reserved one. -/
def BalanceOperation.Moves (op : BalanceOperation) (n : ℕ) (a a' : AccountState) : Prop :=
  match op with
  | .credit =>
    a'.availableSats.toNat = a.availableSats.toNat + n ∧ a'.reservedSats = a.reservedSats
  | .debit =>
    a'.availableSats.toNat + n = a.availableSats.toNat ∧ a'.reservedSats = a.reservedSats
  | .reserve =>
    a'.availableSats.toNat + n = a.availableSats.toNat ∧
      a'.reservedSats.toNat = a.reservedSats.toNat + n
  | .releaseReservation =>
    a'.availableSats.toNat = a.availableSats.toNat + n ∧
      a'.reservedSats.toNat + n = a.reservedSats.toNat

namespace AccountState

theorem toNat_sub_add {amount balance : UInt64} (h : amount ≤ balance) :
    (balance - amount).toNat + amount.toNat = balance.toNat := by
  rw [UInt64.toNat_sub_of_le _ _ h]
  exact Nat.sub_add_cancel (UInt64.le_iff_toNat_le.mp h)

/-- An operation that succeeds moves its amount. -/
theorem operate_moves {op : BalanceOperation} {amount : UInt64} {a a' : AccountState}
    (h : operate op amount a = .ok () a') : op.Moves amount.toNat a a' := by
  cases op with
  | credit =>
    rw [operate, applyCredit_eq] at h
    split_ifs at h with hfits
    cases h
    exact ⟨toNat_add_of_lt hfits, rfl⟩
  | debit =>
    rw [operate, applyDebit_eq] at h
    split_ifs at h with hfunds
    cases h
    exact ⟨toNat_sub_add hfunds, rfl⟩
  | reserve =>
    rw [operate, applyReserve_eq] at h
    split_ifs at h with hfunds hfits
    cases h
    exact ⟨toNat_sub_add hfunds, toNat_add_of_lt hfits⟩
  | releaseReservation =>
    rw [operate, applyReleaseReservation_eq] at h
    split_ifs at h with hheld hfits
    cases h
    exact ⟨toNat_add_of_lt hfits, toNat_sub_add hheld⟩

/-- An operation moves the sats of its account by what it brings in and takes out. -/
theorem operate_sats {op : BalanceOperation} {amount : UInt64} {a a' : AccountState}
    (h : operate op amount a = .ok () a') :
    a'.sats + op.outflow amount = a.sats + op.inflow amount := by
  have hmoves := operate_moves h
  unfold sats
  cases op with
  | credit =>
    obtain ⟨havailable, hreserved⟩ := hmoves
    show _ + 0 = _ + amount.toNat
    rw [havailable, hreserved]
    omega
  | debit =>
    obtain ⟨havailable, hreserved⟩ := hmoves
    show _ + amount.toNat = _ + 0
    rw [← havailable, hreserved]
    omega
  | reserve =>
    obtain ⟨havailable, hreserved⟩ := hmoves
    show _ + 0 = _ + 0
    rw [← havailable, hreserved]
    omega
  | releaseReservation =>
    obtain ⟨havailable, hreserved⟩ := hmoves
    show _ + 0 = _ + 0
    rw [havailable, ← hreserved]
    omega

/-- No operation touches what is pending. -/
theorem operate_settled {op : BalanceOperation} {amount : UInt64} {a a' : AccountState}
    (h : operate op amount a = .ok () a') (ha : a.Settled) : a'.Settled := by
  cases op <;>
    simp only [operate, applyCredit_eq, applyDebit_eq, applyReserve_eq,
      applyReleaseReservation_eq] at h <;>
    split_ifs at h <;> cases h <;> exact ha

end AccountState

/-! ### What a ledger holds -/

namespace LedgerState

/-- The sats of all accounts, as a number without a bound. -/
def totalSats (s : LedgerState) : ℕ := (s.accounts.map AccountState.sats).sum

/-- Nothing is pending in any account. -/
def Settled (s : LedgerState) : Prop := ∀ a ∈ s.accounts, a.Settled

theorem Settled.writeAccount {s : LedgerState} (h : s.Settled) {a : AccountState}
    (ha : a.Settled) : (s.writeAccount a).Settled := by
  intro b hb
  rcases mem_put hb with rfl | hb
  · exact ha
  · exact h b hb

end LedgerState

namespace LedgerCommand

/-- What a command brings into the ledger: the effective amount of a credit. -/
def credited (c : LedgerCommand) : ℕ :=
  if c.commandType = .creditInternalBalance then c.effectiveAmount.toNat else 0

/-- What a command takes out of the ledger: the effective amount of a debit. -/
def debited (c : LedgerCommand) : ℕ :=
  if c.commandType = .debitInternalBalance then c.effectiveAmount.toNat else 0

end LedgerCommand

namespace StateMachine

theorem accountOrNew_settled {s : LedgerState} (h : s.Settled) (accountId : String) :
    (accountOrNew s accountId).Settled := by
  unfold accountOrNew
  cases hf : s.findAccount accountId with
  | none => exact AccountState.settled_new accountId
  | some a => exact h a (mem_of_find hf)

/-- A write moves the total by the written account against the one it was made
from; a missing account counts nothing. -/
theorem totalSats_writeAccount {s : LedgerState} {a : AccountState} {id : String}
    (ha : a.accountId = id) :
    (s.writeAccount a).totalSats + (accountOrNew s id).sats = s.totalSats + a.sats := by
  have hput : (s.writeAccount a).totalSats +
      ((find AccountState.accountId a.accountId s.accounts).map AccountState.sats).getD 0 =
        s.totalSats + a.sats := sum_put AccountState.sats a s.accounts
  have hold : ((find AccountState.accountId a.accountId s.accounts).map AccountState.sats).getD 0 =
      (accountOrNew s id).sats := by
    rw [ha]
    unfold accountOrNew LedgerState.findAccount
    cases find AccountState.accountId id s.accounts <;> rfl
  rw [hold] at hput
  exact hput

section Operation
variable {op : BalanceOperation} {amount : UInt64} {s : LedgerState} {id : String}
  {a : AccountState} (h : AccountState.operate op amount (accountOrNew s id) = .ok () a)
include h

/-- An operation on one account moves the total as it moves the account. -/
theorem totalSats_operate :
    (s.writeAccount a).totalSats + op.outflow amount = s.totalSats + op.inflow amount := by
  have hid : a.accountId = id := by
    rw [← after_ok h]
    exact (keepsId_operate op amount _).trans (accountOrNew_accountId s id)
  have hwrite := totalSats_writeAccount (s := s) hid
  have hop := AccountState.operate_sats h
  omega

theorem settled_operate (hs : s.Settled) : (s.writeAccount a).Settled :=
  hs.writeAccount (AccountState.operate_settled h (accountOrNew_settled hs id))

end Operation

/-- A transfer that succeeds is a debit and then a credit of the same amount, also
when both are of one account. -/
theorem transfer_sats {source dest : String} {amount : UInt64} {s s' : LedgerState}
    {affected : List String} (h : transfer source dest amount s = .ok affected s') :
    s'.totalSats = s.totalSats ∧ (s.Settled → s'.Settled) := by
  cases hd : AccountState.operate .debit amount (accountOrNew s source) with
  | error e a =>
    rw [transfer_of_debit_error hd] at h
    cases h
  | ok u a =>
    rw [transfer_of_debit_ok hd] at h
    cases hc : AccountState.operate .credit amount (accountOrNew (s.writeAccount a) dest) with
    | error e b =>
      rw [hc] at h
      cases h
    | ok u b =>
      rw [hc] at h
      cases h
      have hout : (s.writeAccount a).totalSats + amount.toNat = s.totalSats + 0 :=
        totalSats_operate hd
      have hin : ((s.writeAccount a).writeAccount b).totalSats + 0 =
          (s.writeAccount a).totalSats + amount.toNat := totalSats_operate hc
      exact ⟨by omega, fun hs => settled_operate hc (settled_operate hd hs)⟩

/-! ### Commands and runs -/

variable (sm : StateMachine)

/-- The arms of `apply` move exactly what a command brings in and takes out. -/
theorem transition_sats {c : LedgerCommand} {s s' : LedgerState} {affected : List String}
    (h : sm.transition c s = .ok affected s') :
    s'.totalSats + c.debited = s.totalSats + c.credited ∧ (s.Settled → s'.Settled) := by
  by_cases hc : c.commandType.TouchesAccounts
  · rcases hc with hop | htransfer
    · obtain ⟨op, hop⟩ := Option.isSome_iff_exists.mp hop
      have hflow : op.outflow c.effectiveAmount = c.debited ∧
          op.inflow c.effectiveAmount = c.credited := by
        unfold BalanceOperation.outflow BalanceOperation.inflow LedgerCommand.debited
          LedgerCommand.credited
        cases ht : c.commandType <;> rw [ht] at hop <;> cases hop <;> exact ⟨rfl, rfl⟩
      rw [transition_operation sm hop, bind_ok] at h
      obtain ⟨id, t, hon, hret⟩ := h
      cases hret
      rw [onAccount_eq (keepsId_operate _ _)] at hon
      cases ha : AccountState.operate op c.effectiveAmount (accountOrNew s c.partitionKey) with
      | error e a =>
        rw [ha] at hon
        cases hon
      | ok u a =>
        rw [ha] at hon
        cases hon
        rw [← hflow.1, ← hflow.2]
        exact ⟨totalSats_operate ha, settled_operate ha⟩
    · have hzero : c.debited = 0 ∧ c.credited = 0 := by
        simp [LedgerCommand.debited, LedgerCommand.credited, htransfer]
      cases hp : c.transferParts with
      | none =>
        unfold transition at h
        rw [htransfer, hp] at h
        cases h
      | some parts =>
        rw [transition_transfer sm htransfer hp] at h
        obtain ⟨htotal, hsettled⟩ := transfer_sats h
        exact ⟨by omega, hsettled⟩
  · have haccounts : s'.accounts = s.accounts := (transition_accounts sm hc).ok h
    have hzero : c.debited = 0 ∧ c.credited = 0 := by
      unfold LedgerCommand.debited LedgerCommand.credited
      cases ht : c.commandType <;> first | exact ⟨rfl, rfl⟩ | exact absurd (by rw [ht]; decide) hc
    refine ⟨?_, fun hs => ?_⟩
    · rw [hzero.1, hzero.2, LedgerState.totalSats, haccounts]
      rfl
    · unfold LedgerState.Settled
      rw [haccounts]
      exact hs

theorem apply_sats {c : LedgerCommand} {s s' : LedgerState} {r : StateTransitionReceipt}
    (h : sm.apply c s = .ok r s') :
    s'.totalSats + c.debited = s.totalSats + c.credited ∧ (s.Settled → s'.Settled) := by
  obtain ⟨_, affected, t, ht, rfl, _⟩ := (apply_ok sm).mp h
  show t.totalSats + c.debited = s.totalSats + c.credited ∧ (s.Settled → t.Settled)
  exact transition_sats sm ht

theorem replay_apply_sats {l : List LedgerCommand} {s s' : LedgerState}
    (h : replay sm.apply l s = .ok () s') :
    s'.totalSats + (l.map LedgerCommand.debited).sum =
        s.totalSats + (l.map LedgerCommand.credited).sum ∧
      (s.Settled → s'.Settled) := by
  induction l generalizing s with
  | nil =>
    cases h
    exact ⟨rfl, id⟩
  | cons c rest ih =>
    obtain ⟨r, t, hc, hrest⟩ := replay_cons_ok.mp h
    obtain ⟨htotal, hsettled⟩ := ih hrest
    obtain ⟨hstep, hkeeps⟩ := apply_sats sm hc
    simp only [List.map_cons, List.sum_cons]
    exact ⟨by omega, fun hs => hsettled (hkeeps hs)⟩

/-- **Sats are conserved over runs.** After any commands that all succeed from the
empty ledger, the accounts hold what the credits brought in less what the debits
took out, and nothing is pending. -/
theorem replay_sats (membership : MembershipView) (l : List LedgerCommand) (s : LedgerState)
    (h : replay sm.apply l (.empty membership) = .ok () s) :
    (s.totalSats : ℤ) =
        (l.map LedgerCommand.credited).sum - (l.map LedgerCommand.debited).sum ∧
      s.Settled := by
  obtain ⟨htotal, hsettled⟩ := replay_apply_sats sm h
  have hempty : (LedgerState.empty membership).totalSats = 0 := rfl
  refine ⟨by omega, hsettled fun a ha => ?_⟩
  cases ha

theorem replay_sats_self_transfer :
    let l : List LedgerCommand := [
      .new plain.crypto "c1" .creditInternalBalance "alice" (some 0) "100" 1 100,
      .new plain.crypto "c2" .creditInternalBalance "bob" none "50" 1 100,
      .new plain.crypto "c3" .commitInternalTransfer "alice|alice" none "30" 1 100,
      .new plain.crypto "c4" .reserveBalance "alice" none "20" 1 100,
      .new plain.crypto "c5" .commitInternalTransfer "alice|carol" none "70" 1 100,
      .new plain.crypto "c6" .debitInternalBalance "carol" none "15" 1 100]
    ∃ s, replay plain.apply l (.empty (.singleNode "cluster" "node")) = .ok () s ∧
      (s.totalSats : ℤ) = 100 - 15 ∧ s.Settled := by
  intro l
  have h : replay plain.apply l (.empty (.singleNode "cluster" "node")) =
      .ok () (after (replay plain.apply l) (.empty (.singleNode "cluster" "node"))) :=
    eq_ok_of_outcome (by decide +kernel)
  refine ⟨_, h, ?_⟩
  obtain ⟨htotal, hsettled⟩ := replay_sats plain _ l _ h
  refine ⟨?_, hsettled⟩
  rw [htotal]
  decide +kernel

end StateMachine

end Kerosene.Ledger
