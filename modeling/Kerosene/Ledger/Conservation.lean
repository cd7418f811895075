import Kerosene.Ledger.AccountStore

/-! What transfers do to the money in a store.

Both stores copy the two accounts out, update the copies and write both back.
Between two accounts this moves the amount (`transfer_total`). When source and
destination are one account the second write covers the first, and the amount
is created. -/
namespace Kerosene.Ledger

open Lib.Encode Lib.Inplace Lib.Tables Lib.Word

/-- Available and reserved, as an exact sum. -/
def AccountState.funds (a : AccountState) : ℕ := a.availableSats.toNat + a.reservedSats.toNat

/-- All the money in the store. -/
def InMemoryVersionedAccountStore.totalFunds (store : InMemoryVersionedAccountStore) : ℕ :=
  total (fun _ a => a.funds) store.inner

namespace SledVersionedAccountStore

/-- What an entry of the database adds to the money in the store: nothing unless
its key is an account's and its bytes are read as one. -/
def entryFunds (json : Json AccountState) (key bytes : Bytes) : ℕ :=
  if prefixAccount <+: key then
    match json.deserialize bytes with
    | .ok a => a.funds
    | .error _ => 0
  else 0

def totalFunds (json : Json AccountState) (db : Db) : ℕ := total (entryFunds json) db

theorem entryFunds_accountKey {json : Json AccountState} {bytes : Bytes} {a : AccountState}
    (h : json.deserialize bytes = .ok a) (accountId : String) :
    entryFunds json (accountKey accountId) bytes = a.funds := by
  unfold entryFunds accountKey
  rw [if_pos (List.prefix_append _ _), h]

theorem accountKey_inj {id id' : String} : accountKey id = accountKey id' ↔ id = id' := by
  unfold accountKey
  rw [List.append_cancel_left_eq, utf8_inj]

end SledVersionedAccountStore

/-- The copies of a transfer, together, hold what the accounts held. -/
theorem transferAccounts_funds {cmd : InternalTransferCommand} {src dst src' dst' : AccountState}
    (h : transferAccounts cmd src dst = .ok (src', dst')) :
    src'.funds + cmd.amountSats.toNat = src.funds ∧
      dst'.funds = dst.funds + cmd.amountSats.toNat := by
  obtain ⟨⟨_, _, hfunds, hroom⟩, rfl, rfl⟩ := transferAccounts_ok.mp h
  have hle := UInt64.le_iff_toNat_le.mp hfunds
  unfold AccountState.funds
  simp only [UInt64.toNat_sub_of_le _ _ hfunds, toNat_add_of_lt hroom]
  omega

section Transfer
variable {κ ν : Type} [DecidableEq κ] (w : κ → ν → ℕ) {t : Table κ ν} {k₁ k₂ : κ}
  {o₁ o₂ v₁ v₂ : ν} {cmd : InternalTransferCommand} {src dst src' dst' : AccountState}

/-- Writing the copies back, in a store whose entries weigh what their accounts
hold, keeps the sum exactly when the keys differ or nothing is moved. -/
theorem transfer_total (h₁ : t.lookup k₁ = some o₁) (h₂ : t.lookup k₂ = some o₂)
    (hsrc : w k₁ o₁ = src.funds) (hdst : w k₂ o₂ = dst.funds) (hsrc' : w k₁ v₁ = src'.funds)
    (hdst' : w k₂ v₂ = dst'.funds) (h : transferAccounts cmd src dst = .ok (src', dst')) :
    total w ((t.insert k₁ v₁).insert k₂ v₂) = total w t ↔ k₁ ≠ k₂ ∨ cmd.amountSats = 0 := by
  obtain ⟨hdebit, hcredit⟩ := transferAccounts_funds h
  have hzero : cmd.amountSats = 0 ↔ cmd.amountSats.toNat = 0 := by
    rw [← UInt64.toNat_inj, UInt64.toNat_zero]
  rw [hzero]
  by_cases hk : k₁ = k₂
  · -- The debited copy is overwritten, so only the credit remains.
    subst hk
    have htotal := total_insert w t k₁ v₂
    rw [h₁, Option.elim_some] at htotal
    rw [Finmap.insert_insert]
    simp only [ne_eq, not_true_eq_false, false_or]
    have hsame : w k₁ o₁ = w k₁ o₂ := by rw [Option.some.inj (h₁.symm.trans h₂)]
    omega
  · have htotal := total_insert_insert w h₁ h₂ hk v₁ v₂
    refine iff_of_true ?_ (.inl hk)
    omega

end Transfer

theorem InMemoryVersionedAccountStore.applyTransfer_total {cmd : InternalTransferCommand}
    {store store' : InMemoryVersionedAccountStore} {r : AccountState × AccountState}
    (h : applyTransfer cmd store = .ok r store') :
    store'.totalFunds = store.totalFunds ↔
      cmd.sourceAccountId ≠ cmd.destinationAccountId ∨ cmd.amountSats = 0 := by
  obtain ⟨src, dst, hsrc, hdst, ht, rfl⟩ := applyTransfer_ok.mp h
  have hsrcId : r.1.accountId = cmd.sourceAccountId := by
    rw [(transferAccounts_ok.mp ht).2.1]
    exact store.keyed _ src hsrc
  have hdstId : r.2.accountId = cmd.destinationAccountId := by
    rw [(transferAccounts_ok.mp ht).2.2]
    exact store.keyed _ dst hdst
  show total _ ((store.inner.insert r.1.accountId r.1).insert r.2.accountId r.2) = _ ↔ _
  rw [hsrcId, hdstId]
  exact transfer_total (fun _ a => a.funds) hsrc hdst rfl rfl rfl rfl ht

theorem SledVersionedAccountStore.applyTransfer_total {json : Json AccountState}
    {cmd : InternalTransferCommand} {db db' : Db} {r : AccountState × AccountState}
    (h : applyTransfer json cmd db = .ok r db') :
    totalFunds json db' = totalFunds json db ↔
      cmd.sourceAccountId ≠ cmd.destinationAccountId ∨ cmd.amountSats = 0 := by
  obtain ⟨batch, hbody, rfl⟩ := (applyTransfer_ok json).mp h
  obtain ⟨src, dst, b₁, b₂, hsrc, hdst, ht, h₁, h₂, rfl⟩ := (transferBody_ok json).mp hbody
  obtain ⟨srcBytes, hsrcBytes, hsrc⟩ := (storedAccount_ok json).mp hsrc
  obtain ⟨dstBytes, hdstBytes, hdst⟩ := (storedAccount_ok json).mp hdst
  have htotal := transfer_total (entryFunds json) hsrcBytes hdstBytes
    (entryFunds_accountKey hsrc _) (entryFunds_accountKey hdst _)
    (entryFunds_accountKey (json.deserialize_serialize h₁) _)
    (entryFunds_accountKey (json.deserialize_serialize h₂) _) ht
  rw [ne_eq, accountKey_inj] at htotal
  exact htotal

/-! ### Stores to run on -/

/-- JSON of some accounts. -/
def Json.ofAccounts (accounts : List AccountState)
    (h : (accounts.map fun a => utf8 a.jsonText).Nodup) : Json AccountState :=
  .recorded (accounts.map fun a => (a, utf8 a.jsonText)) (by simpa [Function.comp_def] using h)

/-- A database that holds some accounts. -/
def Db.ofAccounts (accounts : List AccountState) : Db :=
  insertAll ∅ (accounts.map fun a =>
    (SledVersionedAccountStore.accountKey a.accountId, utf8 a.jsonText))

/-! ### Transfers in either store -/

/-- **A transfer keeps the money in either store unless it goes from an account to
itself and moves something.** -/
theorem applyTransfer_conserves (cmd : InternalTransferCommand) (r : AccountState × AccountState) :
    (∀ store store' : InMemoryVersionedAccountStore,
      InMemoryVersionedAccountStore.applyTransfer cmd store = .ok r store' →
      (store'.totalFunds = store.totalFunds ↔
        cmd.sourceAccountId ≠ cmd.destinationAccountId ∨ cmd.amountSats = 0)) ∧
    ∀ (json : Json AccountState) (db db' : Db),
      SledVersionedAccountStore.applyTransfer json cmd db = .ok r db' →
      (SledVersionedAccountStore.totalFunds json db' = SledVersionedAccountStore.totalFunds json db ↔
        cmd.sourceAccountId ≠ cmd.destinationAccountId ∨ cmd.amountSats = 0) :=
  ⟨fun _ _ h => InMemoryVersionedAccountStore.applyTransfer_total h,
    fun _ _ _ h => SledVersionedAccountStore.applyTransfer_total h⟩

theorem applyTransfer_conserves_alice_bob :
    let cmd : InternalTransferCommand := ⟨"t1", "alice", 1, "bob", 1, 30, "auth"⟩
    let before : List AccountState := [.holding "alice" 1 100, .holding "bob" 1 7]
    let alice := AccountState.holding "alice" 2 70
    let bob := AccountState.holding "bob" 2 37
    let store := InMemoryVersionedAccountStore.withAccounts before
    let store' := (store.insert alice).insert bob
    let json := Json.ofAccounts (before ++ [alice, bob]) (by decide +kernel)
    let db := Db.ofAccounts before
    let batch := [(SledVersionedAccountStore.accountKey "alice", utf8 alice.jsonText),
      (SledVersionedAccountStore.accountKey "bob", utf8 bob.jsonText)]
    let db' := insertAll db batch
    (InMemoryVersionedAccountStore.applyTransfer cmd store = .ok (alice, bob) store' ∧
      store'.totalFunds = store.totalFunds) ∧
    (SledVersionedAccountStore.applyTransfer json cmd db = .ok (alice, bob) db' ∧
      SledVersionedAccountStore.totalFunds json db' =
        SledVersionedAccountStore.totalFunds json db) := by
  intro cmd before alice bob store store' json db batch db'
  have h := applyTransfer_conserves cmd (alice, bob)
  have hne : cmd.sourceAccountId ≠ cmd.destinationAccountId ∨ cmd.amountSats = 0 :=
    .inl (by decide)
  have hmemory : InMemoryVersionedAccountStore.applyTransfer cmd store = .ok (alice, bob) store' :=
    InMemoryVersionedAccountStore.applyTransfer_ok.mpr
      ⟨.holding "alice" 1 100, .holding "bob" 1 7, by decide +kernel, by decide +kernel,
        by decide +kernel, rfl⟩
  have hsled : SledVersionedAccountStore.applyTransfer json cmd db = .ok (alice, bob) db' :=
    (SledVersionedAccountStore.applyTransfer_ok json).mpr ⟨batch, by decide +kernel, rfl⟩
  exact ⟨⟨hmemory, (h.1 store store' hmemory).mpr hne⟩, hsled, (h.2 json db db' hsled).mpr hne⟩

/-- From 100 to 130: the write of the credited copy covers the debited one. -/
theorem selfTransfer_creates_funds :
    let cmd : InternalTransferCommand := ⟨"t1", "alice", 1, "alice", 1, 30, "auth"⟩
    let before := AccountState.holding "alice" 1 100
    let json := Json.ofAccounts [before, .holding "alice" 2 70, .holding "alice" 2 130]
      (by decide +kernel)
    ¬ (∀ r store', InMemoryVersionedAccountStore.applyTransfer cmd
          (InMemoryVersionedAccountStore.withAccounts [before]) = .ok r store' →
        store'.totalFunds = (InMemoryVersionedAccountStore.withAccounts [before]).totalFunds) ∧
    ¬ (∀ r db', SledVersionedAccountStore.applyTransfer json cmd (.ofAccounts [before]) = .ok r db' →
        SledVersionedAccountStore.totalFunds json db' =
          SledVersionedAccountStore.totalFunds json (.ofAccounts [before])) := by
  intro cmd before json
  have hself : ¬ (cmd.sourceAccountId ≠ cmd.destinationAccountId ∨ cmd.amountSats = 0) := by decide
  let debited := AccountState.holding "alice" 2 70
  let credited := AccountState.holding "alice" 2 130
  constructor
  · intro h
    let store := InMemoryVersionedAccountStore.withAccounts [before]
    have hok : InMemoryVersionedAccountStore.applyTransfer cmd store =
        .ok (debited, credited) ((store.insert debited).insert credited) :=
      InMemoryVersionedAccountStore.applyTransfer_ok.mpr
        ⟨before, before, by decide +kernel, by decide +kernel, by decide +kernel, rfl⟩
    exact hself ((InMemoryVersionedAccountStore.applyTransfer_total hok).mp (h _ _ hok))
  · intro h
    let batch := [(SledVersionedAccountStore.accountKey "alice", utf8 debited.jsonText),
      (SledVersionedAccountStore.accountKey "alice", utf8 credited.jsonText)]
    have hok : SledVersionedAccountStore.applyTransfer json cmd (.ofAccounts [before]) =
        .ok (debited, credited) (insertAll (Db.ofAccounts [before]) batch) :=
      (SledVersionedAccountStore.applyTransfer_ok json).mpr ⟨batch, by decide +kernel, rfl⟩
    exact hself ((SledVersionedAccountStore.applyTransfer_total hok).mp (h _ _ hok))

end Kerosene.Ledger
