import Kerosene.Ledger.Supply

/-! What the balance commands move, in sats.

A transfer is specified in full by `apply_transfer_exact`: when it succeeds, and all that
it leaves. Of the balance commands together, `apply_moves_encoded` says that the amount a
commitment encodes is what they move, but for a credit without a version. -/
namespace Kerosene.Ledger

open Lib.Inplace Lib.Keyed Lib.Word

/-! ### One account -/

theorem LedgerCommand.amount_of_parse {c : LedgerCommand} {n : UInt64}
    (h : parseU64 c.authorizationCommitment = .ok n) : c.amount = n := by
  rw [amount, h]

theorem LedgerCommand.amount_of_unread {c : LedgerCommand} {e : IntErrorKind}
    (h : parseU64 c.authorizationCommitment = .error e) : c.amount = 0 := by
  rw [amount, h]

namespace AccountState

/-- An account after a credit. -/
def credited (amount : UInt64) (a : AccountState) : AccountState :=
  { a with availableSats := a.availableSats + amount, version := a.version + 1 }

/-- An account after a debit. -/
def debited (amount : UInt64) (a : AccountState) : AccountState :=
  { a with availableSats := a.availableSats - amount, version := a.version + 1 }

section Operations
variable {amount : UInt64} {a a' : AccountState}

theorem guarded_eq_ok {c : Prop} [Decidable c] {x y : AccountState} {e : LedgerError} :
    (if c then .ok () x else .error e y : EStateM.Result LedgerError AccountState Unit) = .ok () a' ↔
      c ∧ a' = x := by
  split <;> simp [*, eq_comm]

theorem operate_credit_ok :
    operate .credit amount a = .ok () a' ↔
      a.availableSats.toNat + amount.toNat < 2 ^ 64 ∧ a' = a.credited amount := by
  rw [operate, applyCredit_eq, guarded_eq_ok, credited]

theorem operate_debit_ok :
    operate .debit amount a = .ok () a' ↔ amount ≤ a.availableSats ∧ a' = a.debited amount := by
  rw [operate, applyDebit_eq, guarded_eq_ok, debited]

/-- Taking an amount out and putting it back takes two versions. -/
theorem credited_debited (amount : UInt64) (a : AccountState) :
    (a.debited amount).credited amount = { a with version := a.version + 1 + 1 } := by
  simp only [credited, debited, UInt64.sub_add_cancel]

end Operations

end AccountState

namespace StateMachine

open AccountState

/-! ### Transfers -/

section Transfer
variable {s s' : LedgerState} {source dest : String} {amount : UInt64}

/-- The accounts of a transfer, one written after the other. -/
def transferred (source dest : String) (amount : UInt64) (s : LedgerState) : LedgerState :=
  let paid := s.writeAccount ((accountOrNew s source).debited amount)
  paid.writeAccount ((accountOrNew paid dest).credited amount)

/-- The account credited: the debited one when both are the same. -/
theorem accountOrNew_paid :
    accountOrNew (s.writeAccount ((accountOrNew s source).debited amount)) dest =
      if source = dest then (accountOrNew s source).debited amount else accountOrNew s dest := by
  have hid : ((accountOrNew s source).debited amount).accountId = source :=
    accountOrNew_accountId s source
  rw [accountOrNew_writeAccount, hid]

/-- Within one account the credit puts back what the debit took. -/
theorem fits_paid (hfunds : amount ≤ (accountOrNew s source).availableSats) :
    (accountOrNew (s.writeAccount ((accountOrNew s source).debited amount))
        dest).availableSats.toNat + amount.toNat < 2 ^ 64 ↔
      source = dest ∨ (accountOrNew s dest).availableSats.toNat + amount.toNat < 2 ^ 64 := by
  rw [accountOrNew_paid]
  by_cases hsame : source = dest
  · have hback := toNat_sub_add hfunds
    rw [if_pos hsame]
    refine iff_of_true ?_ (.inl hsame)
    show ((accountOrNew s source).availableSats - amount).toNat + amount.toNat < 2 ^ 64
    rw [hback]
    exact (accountOrNew s source).availableSats.toNat_lt
  · rw [if_neg hsame, or_iff_right hsame]

theorem transfer_ok {affected : List String} :
    transfer source dest amount s = .ok affected s' ↔
      (amount ≤ (accountOrNew s source).availableSats ∧
        (source = dest ∨ (accountOrNew s dest).availableSats.toNat + amount.toNat < 2 ^ 64)) ∧
        affected = [source, dest] ∧ s' = transferred source dest amount s := by
  by_cases hfunds : amount ≤ (accountOrNew s source).availableSats
  case neg =>
    have hfails := applyDebit_eq amount (accountOrNew s source)
    rw [if_neg hfunds] at hfails
    rw [transfer_of_debit_error hfails]
    refine iff_of_false ?_ fun h => hfunds h.1.1
    intro h
    cases h
  case pos =>
    rw [transfer_of_debit_ok (operate_debit_ok.mpr ⟨hfunds, rfl⟩), ← fits_paid hfunds]
    cases hcredit : operate .credit amount
        (accountOrNew (s.writeAccount ((accountOrNew s source).debited amount)) dest) with
    | ok u b =>
      obtain ⟨hroom, rfl⟩ := operate_credit_ok.mp hcredit
      constructor
      · intro h
        cases h
        exact ⟨⟨hfunds, hroom⟩, rfl, rfl⟩
      · intro h
        obtain ⟨_, rfl, rfl⟩ := h
        rfl
    | error e b =>
      refine iff_of_false (fun h => by cases h) fun h => ?_
      rw [operate_credit_ok.mpr ⟨h.1.2, rfl⟩] at hcredit
      cases hcredit

/-- An account is as it was but for its available balance and its version. -/
def Rebalanced (a a' : AccountState) : Prop :=
  a' = { a with availableSats := a'.availableSats, version := a'.version }

/-- All that a transfer leaves. -/
structure Transferred (s s' : LedgerState) (source dest : String) (amount : ℕ) : Prop where
  ids : (s'.accounts.map AccountState.accountId).Nodup
  taken : source ≠ dest → ∃ a, s'.findAccount source = some a ∧
    Rebalanced (accountOrNew s source) a ∧
    a.availableSats.toNat + amount = (accountOrNew s source).availableSats.toNat ∧
    a.version.toNat = (accountOrNew s source).version.toNat + 1
  given : source ≠ dest → ∃ a, s'.findAccount dest = some a ∧ Rebalanced (accountOrNew s dest) a ∧
    a.availableSats.toNat = (accountOrNew s dest).availableSats.toNat + amount ∧
    a.version.toNat = (accountOrNew s dest).version.toNat + 1
  back : source = dest → ∃ a, s'.findAccount source = some a ∧
    Rebalanced (accountOrNew s source) a ∧
    a.availableSats = (accountOrNew s source).availableSats ∧
    a.version.toNat = (accountOrNew s source).version.toNat + 2
  others : ∀ id, id ≠ source → id ≠ dest → s'.findAccount id = s.findAccount id
  rest : s' = { s with accounts := s'.accounts, version := s'.version }
  version : s'.version.toNat = s.version.toNat + 1

theorem accountOrNew_version_lt (h : ∀ a ∈ s.accounts, a.version.toNat < 2 ^ 64 - 2) (id : String) :
    (accountOrNew s id).version.toNat < 2 ^ 64 - 2 := by
  unfold accountOrNew
  cases hfind : s.findAccount id with
  | none =>
    show (0 : UInt64).toNat < 2 ^ 64 - 2
    decide
  | some a => exact h a (mem_of_find hfind)

/-- The accounts after a transfer between two. -/
theorem findAccount_transferred (hne : source ≠ dest) (id : String) :
    (transferred source dest amount s).findAccount id =
      if dest = id then some ((accountOrNew s dest).credited amount)
      else if source = id then some ((accountOrNew s source).debited amount)
      else s.findAccount id := by
  have hsource : ((accountOrNew s source).debited amount).accountId = source :=
    accountOrNew_accountId s source
  have hdest : ((accountOrNew s dest).credited amount).accountId = dest :=
    accountOrNew_accountId s dest
  dsimp only [transferred]
  rw [accountOrNew_paid, if_neg hne, findAccount_writeAccount, hdest, findAccount_writeAccount,
    hsource]

/-- The accounts after a transfer within one. -/
theorem findAccount_transferred_self (id : String) :
    (transferred source source amount s).findAccount id =
      if source = id then some (((accountOrNew s source).debited amount).credited amount)
      else s.findAccount id := by
  have hdebited : ((accountOrNew s source).debited amount).accountId = source :=
    accountOrNew_accountId s source
  have hcredited : (((accountOrNew s source).debited amount).credited amount).accountId = source :=
    hdebited
  dsimp only [transferred]
  rw [accountOrNew_paid, if_pos rfl, findAccount_writeAccount, hcredited, findAccount_writeAccount,
    hdebited]
  split <;> rfl

theorem findAccount_transferred_other {id : String} (hs : id ≠ source) (hd : id ≠ dest) :
    (transferred source dest amount s).findAccount id = s.findAccount id := by
  by_cases hsame : source = dest
  · subst hsame
    exact (findAccount_transferred_self id).trans (if_neg (Ne.symm hs))
  · exact (findAccount_transferred hsame id).trans
      (by rw [if_neg (Ne.symm hd), if_neg (Ne.symm hs)])

/-- What is written is what a transfer leaves, as long as no counter is at its end. -/
theorem transferred_spec (hids : (s.accounts.map AccountState.accountId).Nodup)
    (hversions : ∀ a ∈ s.accounts, a.version.toNat < 2 ^ 64 - 2)
    (hversion : s.version.toNat < 2 ^ 64 - 2)
    (hfunds : amount ≤ (accountOrNew s source).availableSats)
    (hfits : source = dest ∨ (accountOrNew s dest).availableSats.toNat + amount.toNat < 2 ^ 64) :
    Transferred s (bumpVersion (transferred source dest amount s)) source dest amount.toNat := by
  have hsource := accountOrNew_version_lt hversions source
  have hdest := accountOrNew_version_lt hversions dest
  constructor
  case ids => exact nodup_put (nodup_put hids _) _
  case taken =>
    intro hne
    refine ⟨(accountOrNew s source).debited amount, ?_, rfl, toNat_sub_add hfunds,
      toNat_succ (by omega)⟩
    exact (findAccount_transferred hne source).trans (by rw [if_neg (Ne.symm hne), if_pos rfl])
  case given =>
    intro hne
    refine ⟨(accountOrNew s dest).credited amount, ?_, rfl,
      toNat_add_of_lt (hfits.resolve_left hne), toNat_succ (by omega)⟩
    exact (findAccount_transferred hne dest).trans (if_pos rfl)
  case back =>
    intro hsame
    subst hsame
    refine ⟨_, (findAccount_transferred_self source).trans (if_pos rfl), ?_⟩
    rw [credited_debited]
    have hnext : ((accountOrNew s source).version + 1).toNat =
        (accountOrNew s source).version.toNat + 1 := toNat_succ (by omega)
    refine ⟨rfl, rfl, (toNat_succ ?_).trans ?_⟩
    · rw [hnext]
      omega
    · rw [hnext]
  case others =>
    intro id hs hd
    exact findAccount_transferred_other hs hd
  case rest => rfl
  case version => exact toNat_succ (a := s.version) (by omega)

end Transfer

/-- **A transfer, exactly.** It succeeds when its key names two accounts, the first has
the amount available and the second, unless it is the first, has room for it; and then it
moves the amount and touches nothing else. -/
theorem apply_transfer_exact (sm : StateMachine) {s : LedgerState} {c : LedgerCommand}
    (hc : c.commandType = .commitInternalTransfer)
    (hids : (s.accounts.map AccountState.accountId).Nodup)
    (hversions : ∀ a ∈ s.accounts, a.version.toNat < 2 ^ 64 - 2)
    (hversion : s.version.toNat < 2 ^ 64 - 2) :
    ((∃ r s', sm.apply c s = .ok r s') ↔
      ∃ source dest : String,
        (c.partitionKey.toList = source.toList ++ '|' :: dest.toList ∧ '|' ∉ source.toList) ∧
        c.amount.toNat ≤ (accountOrNew s source).availableSats.toNat ∧
        (source = dest ∨ (accountOrNew s dest).availableSats.toNat + c.amount.toNat < 2 ^ 64)) ∧
    ∀ r s' source dest, sm.apply c s = .ok r s' →
      c.partitionKey.toList = source.toList ++ '|' :: dest.toList → '|' ∉ source.toList →
      Transferred s s' source dest c.amount.toNat := by
  have hparts {source dest : String} :
      (c.partitionKey.toList = source.toList ++ '|' :: dest.toList ∧ '|' ∉ source.toList) ↔
        c.transferParts = some (source, dest) := splitOnce_eq_some.symm
  have hvalid : sm.validate s c = .ok () := by
    unfold validate
    rw [hc]
    rfl
  refine ⟨⟨fun h => ?_, fun h => ?_⟩, fun r s' source dest h hkey hsource => ?_⟩
  · obtain ⟨r, s', h⟩ := h
    obtain ⟨_, affected, t, ht, _⟩ := (apply_ok sm).mp h
    cases hsplit : c.transferParts with
    | none =>
      unfold transition at ht
      rw [hc, hsplit] at ht
      cases ht
    | some parts =>
      rw [transition_transfer sm hc hsplit] at ht
      obtain ⟨⟨hfunds, hfits⟩, _⟩ := transfer_ok.mp ht
      exact ⟨parts.1, parts.2, hparts.mpr hsplit, UInt64.le_iff_toNat_le.mp hfunds, hfits⟩
  · obtain ⟨source, dest, hsplit, hfunds, hfits⟩ := h
    have ht : sm.transition c s = .ok [source, dest] (transferred source dest c.amount s) := by
      rw [transition_transfer sm hc (hparts.mp hsplit)]
      exact transfer_ok.mpr ⟨⟨UInt64.le_iff_toNat_le.mpr hfunds, hfits⟩, rfl, rfl⟩
    exact ⟨_, _, (apply_ok sm).mpr ⟨hvalid, _, _, ht, rfl, rfl⟩⟩
  · obtain ⟨_, affected, t, ht, rfl, _⟩ := (apply_ok sm).mp h
    rw [transition_transfer sm hc (hparts.mp ⟨hkey, hsource⟩)] at ht
    obtain ⟨⟨hfunds, hfits⟩, _, rfl⟩ := transfer_ok.mp ht
    exact transferred_spec hids hversions hversion hfunds hfits

/-- A ledger in which one account has sats. -/
def holdingOf (accountId : String) (availableSats : UInt64) : LedgerState :=
  { LedgerState.empty (.singleNode "cluster-1" "node-1") with
    accounts := [.holding accountId 1 availableSats] }

/-- A transfer to an account that is not there yet. -/
theorem apply_transfer_exact_alice_bob :
    let s := holdingOf "alice" 100
    let c := LedgerCommand.new plain.crypto "c1" .commitInternalTransfer "alice|bob" none "60" 1 100
    ∃ r s', plain.apply c s = .ok r s' ∧ Transferred s s' "alice" "bob" 60 := by
  generalize plain = sm
  intro s c
  have hversions : ∀ a ∈ s.accounts, a.version.toNat < 2 ^ 64 - 2 := by decide
  have hkey : "alice|bob".toList = "alice".toList ++ '|' :: "bob".toList := by decide
  have hread : parseU64 "60" = .ok 60 := by decide
  have hamount : LedgerCommand.amount c = 60 := LedgerCommand.amount_of_parse hread
  have hfunds : (60 : UInt64).toNat ≤ (accountOrNew s "alice").availableSats.toNat := by decide
  have hfits : (accountOrNew s "bob").availableSats.toNat + (60 : UInt64).toNat < 2 ^ 64 := by decide
  obtain ⟨hiff, hleaves⟩ := apply_transfer_exact sm (s := s) (c := c) rfl (by decide) hversions
    (by decide)
  rw [hamount] at hiff hleaves
  obtain ⟨r, s', happly⟩ := hiff.mpr ⟨"alice", "bob", ⟨hkey, by decide⟩, hfunds, .inr hfits⟩
  exact ⟨r, s', happly, hleaves r s' "alice" "bob" happly hkey (by decide)⟩

/-! ### What a balance command moves -/

/-- A command moved an amount: on the account it names, or between the two of a transfer,
where nothing is left to see of an amount moved within one account. -/
def Moved (c : LedgerCommand) (n : ℕ) (s s' : LedgerState) : Prop :=
  match c.commandType.operation with
  | some op =>
    op.Moves n (accountOrNew s c.partitionKey) (accountOrNew s' c.partitionKey) ∧
      ∀ id, id ≠ c.partitionKey → s'.findAccount id = s.findAccount id
  | none => ∃ source dest, c.transferParts = some (source, dest) ∧
    (if source = dest then
      BalanceOperation.credit.Moves 0 (accountOrNew s source) (accountOrNew s' source)
    else
      BalanceOperation.debit.Moves n (accountOrNew s source) (accountOrNew s' source) ∧
        BalanceOperation.credit.Moves n (accountOrNew s dest) (accountOrNew s' dest)) ∧
    ∀ id, id ≠ source → id ≠ dest → s'.findAccount id = s.findAccount id

section Moved
variable (sm : StateMachine) {c : LedgerCommand} {s s' : LedgerState} {r : StateTransitionReceipt}

theorem accountOrNew_of_find {id : String} {a : AccountState} (h : s.findAccount id = some a) :
    accountOrNew s id = a := by
  rw [accountOrNew, h]
  rfl

theorem transition_operation_moves {op : BalanceOperation} {affected : List String}
    (hop : c.commandType.operation = some op) (h : sm.transition c s = .ok affected s') :
    Moved c c.effectiveAmount.toNat s s' := by
  rw [transition_operation sm hop, bind_ok] at h
  obtain ⟨id, u, hon, hret⟩ := h
  cases hret
  rw [onAccount_eq (keepsId_operate _ _)] at hon
  cases ha : operate op c.effectiveAmount (accountOrNew s c.partitionKey) with
  | error e a =>
    rw [ha] at hon
    cases hon
  | ok _ a =>
    rw [ha] at hon
    cases hon
    have hid : a.accountId = c.partitionKey := by
      rw [← after_ok ha]
      exact (keepsId_operate op c.effectiveAmount _).trans (accountOrNew_accountId s _)
    unfold Moved
    rw [hop]
    refine ⟨?_, fun id hne => ?_⟩
    · rw [accountOrNew_writeAccount, if_pos hid]
      exact operate_moves ha
    · rw [findAccount_writeAccount, hid, if_neg (Ne.symm hne)]

/-- Within one account a transfer leaves both balances as they were. -/
theorem moves_transferred_self {source : String} {amount : UInt64} :
    BalanceOperation.credit.Moves 0 (accountOrNew s source)
      (accountOrNew (transferred source source amount s) source) := by
  rw [accountOrNew_of_find ((findAccount_transferred_self source).trans (if_pos rfl)),
    credited_debited]
  exact ⟨rfl, rfl⟩

theorem transfer_moves {source dest : String} {affected : List String}
    (htransfer : c.commandType = .commitInternalTransfer)
    (hsplit : c.transferParts = some (source, dest))
    (h : transfer source dest c.amount s = .ok affected s') : Moved c c.amount.toNat s s' := by
  obtain ⟨⟨hfunds, hfits⟩, _, rfl⟩ := transfer_ok.mp h
  unfold Moved
  rw [htransfer]
  refine ⟨source, dest, hsplit, ?_, fun id hs hd => ?_⟩
  · split_ifs with hsame
    · subst hsame
      exact moves_transferred_self
    · rw [accountOrNew_of_find ((findAccount_transferred hsame source).trans
          (by rw [if_neg (Ne.symm hsame), if_pos rfl])),
        accountOrNew_of_find ((findAccount_transferred hsame dest).trans (if_pos rfl))]
      exact ⟨⟨toNat_sub_add hfunds, rfl⟩, toNat_add_of_lt (hfits.resolve_left hsame), rfl⟩
  · exact findAccount_transferred_other hs hd

theorem transition_moves {affected : List String} (hc : c.commandType.TouchesAccounts)
    (h : sm.transition c s = .ok affected s') : Moved c c.effectiveAmount.toNat s s' := by
  cases hop : c.commandType.operation with
  | some op => exact transition_operation_moves sm hop h
  | none =>
    have htransfer : c.commandType = .commitInternalTransfer := by
      rcases hc with hsome | htransfer
      · rw [hop] at hsome
        cases hsome
      · exact htransfer
    have hamount : c.effectiveAmount = c.amount := by
      unfold LedgerCommand.effectiveAmount
      rw [if_neg (by rw [htransfer]; exact fun hcredit => nomatch hcredit.1)]
    cases hsplit : c.transferParts with
    | none =>
      unfold transition at h
      rw [htransfer, hsplit] at h
      cases h
    | some parts =>
      rw [transition_transfer sm htransfer hsplit] at h
      rw [hamount]
      exact transfer_moves htransfer hsplit h

/-- The version of the state is no part of what is moved. -/
theorem moved_bumpVersion {n : ℕ} : Moved c n s (bumpVersion s') ↔ Moved c n s s' := .rfl

/-- **What a balance command moves.** One that succeeds moves the amount it encodes, or
nothing when it is a credit without a version. -/
theorem apply_moves_encoded {a : UInt64} (hc : c.commandType.TouchesAccounts)
    (ha : parseU64 c.authorizationCommitment = .ok a) (h : sm.apply c s = .ok r s') :
    Moved c (if c.commandType = .creditInternalBalance ∧ c.expectedVersion = none then 0
      else a.toNat) s s' := by
  obtain ⟨_, affected, t, ht, rfl, _⟩ := (apply_ok sm).mp h
  have hmoves := moved_bumpVersion.mpr (transition_moves sm hc ht)
  rw [LedgerCommand.effectiveAmount, LedgerCommand.amount_of_parse ha] at hmoves
  split_ifs at hmoves ⊢ with hcredit
  · exact hmoves
  · exact hmoves

end Moved

/-- A balance command is accepted when its operation succeeds on the account it names. -/
theorem apply_of_operate (sm : StateMachine) {c : LedgerCommand} {s : LedgerState}
    {op : BalanceOperation} {a : AccountState} (hop : c.commandType.operation = some op)
    (hvalid : sm.validate s c = .ok ())
    (ha : operate op c.effectiveAmount (accountOrNew s c.partitionKey) = .ok () a) :
    ∃ r, sm.apply c s = .ok r (bumpVersion (s.writeAccount a)) := by
  have ht : sm.transition c s = .ok [c.partitionKey] (s.writeAccount a) := by
    rw [transition_operation sm hop, bind_ok]
    refine ⟨c.partitionKey, s.writeAccount a, ?_, rfl⟩
    rw [onAccount_eq (keepsId_operate _ _), ha]
  exact ⟨_, (apply_ok sm).mpr ⟨hvalid, _, _, ht, rfl, rfl⟩⟩

/-- A debit of 60 sats. -/
theorem apply_moves_encoded_debit :
    let s := holdingOf "alice" 100
    let c := LedgerCommand.new plain.crypto "c1" .debitInternalBalance "alice" (some 1) "60" 1 100
    ∃ r s', plain.apply c s = .ok r s' ∧ Moved c 60 s s' := by
  generalize plain = sm
  intro s c
  have hread : parseU64 "60" = .ok 60 := by decide
  have hamount : LedgerCommand.effectiveAmount c = 60 := LedgerCommand.amount_of_parse hread
  have hfunds : (60 : UInt64) ≤ (accountOrNew s "alice").availableSats := by decide
  obtain ⟨r, happly⟩ := apply_of_operate sm (c := c) (s := s) rfl (by rfl)
    (by rw [hamount]; exact operate_debit_ok.mpr ⟨hfunds, rfl⟩)
  exact ⟨r, _, happly, apply_moves_encoded sm (a := 60) (.inl rfl) hread happly⟩

/-- A credit that waits for no version. -/
def unversionedCredit (crypto : Crypto) : LedgerCommand :=
  .new crypto "c1" .creditInternalBalance "alice" none "60" 1 100

/-- A debit whose amount is written with a separator. -/
def separatedDebit (crypto : Crypto) : LedgerCommand :=
  .new crypto "c2" .debitInternalBalance "alice" (some 1) "1,000" 1 100

/-- The credit is accepted and adds nothing; the debit is accepted and encodes no amount. -/
theorem unversioned_credit_adds_nothing :
    let s := holdingOf "alice" 5000
    (∃ r s', plain.apply (unversionedCredit plain.crypto) s = .ok r s' ∧
      parseU64 (unversionedCredit plain.crypto).authorizationCommitment = .ok 60 ∧
      ¬ Moved (unversionedCredit plain.crypto) 60 s s') ∧
    ∃ r s', plain.apply (separatedDebit plain.crypto) s = .ok r s' ∧
      ∀ a, parseU64 (separatedDebit plain.crypto).authorizationCommitment ≠ .ok a := by
  generalize plain = sm
  intro s
  have hread : parseU64 "60" = .ok 60 := by decide
  have hunread : parseU64 "1,000" = .error .invalidDigit := by decide
  have hamount : (separatedDebit sm.crypto).effectiveAmount = 0 :=
    LedgerCommand.amount_of_unread hunread
  have hfits : (accountOrNew (holdingOf "alice" 5000) "alice").availableSats.toNat +
      (0 : UInt64).toNat < 2 ^ 64 := by decide
  have hfunds : 0 ≤ (accountOrNew (holdingOf "alice" 5000) "alice").availableSats := by decide
  obtain ⟨r, hcredit⟩ := apply_of_operate sm (c := unversionedCredit sm.crypto) (s := s) rfl
    (by rfl) (operate_credit_ok.mpr ⟨hfits, rfl⟩)
  obtain ⟨r', hdebit⟩ := apply_of_operate sm (c := separatedDebit sm.crypto) (s := s) rfl
    (by rfl) (operate_debit_ok.mpr ⟨by rw [hamount]; exact hfunds, rfl⟩)
  refine ⟨⟨r, _, hcredit, hread, ?_⟩, r', _, hdebit, ?_⟩
  · intro hmoved
    have hadded : (5000 : ℕ) = 5000 + 60 := hmoved.1.1
    exact absurd hadded (by decide)
  · intro a hencoded
    exact nomatch hunread.symm.trans hencoded

end StateMachine

end Kerosene.Ledger
