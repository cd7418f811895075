import Kerosene.Ledger.Conservation

/-! Concurrent calls of the persistent account store.

A call reads its accounts one by one and writes later, unconditionally. Between
the two another call may write the same account, and that write is then lost.
`noLostUpdate`: it is not as long as no call writes over an account that changed
after the call had read it. -/
namespace Kerosene.Ledger.SledVersionedAccountStore

open Lib.Encode Lib.Inplace Lib.Tables Lib.Optimistic Lib.Word

/-! ### Calls as transactions -/

inductive Call where
  | command (cmd : BalanceCommand)
  | transfer (cmd : InternalTransferCommand)

/-- What a call returns: the account, or both accounts of a transfer. -/
abbrev Reply := AccountState ⊕ AccountState × AccountState

namespace Call

variable (json : Json AccountState)

/-- A call that runs alone. -/
def apply : Call → EStateM LedgerError Db Reply
  | .command cmd => do
    let state ← applyCommand json cmd
    return .inl state
  | .transfer cmd => do
    let states ← applyTransfer json cmd
    return .inr states

/-- The same call with its reads apart from its writes. -/
def txn : Call → Txn Bytes Bytes LedgerError Reply
  | .command cmd =>
    { reads := [accountKey cmd.accountId]
      body := fun seen => do
        let (writes, state) ← commandBody json cmd seen[0]?.join
        return (writes, .inl state) }
  | .transfer cmd =>
    { reads := [accountKey cmd.sourceAccountId, accountKey cmd.destinationAccountId]
      body := fun seen => do
        let (batch, states) ← transferBody json cmd seen[0]?.join seen[1]?.join
        return (batch, .inr states) }

/-- Nobody interrupting, the transaction is the call. -/
theorem exec_txn (call : Call) : (call.txn json).exec = call.apply json := by
  funext db
  cases call with
  | command cmd =>
    simp only [Txn.exec, txn, apply, applyCommand, bind_def, get_def, List.map_cons, List.map_nil]
    simp only [List.getElem?_cons_zero, Option.join_some]
    cases commandBody json cmd (db.lookup (accountKey cmd.accountId)) <;> rfl
  | transfer cmd =>
    simp only [Txn.exec, txn, apply, applyTransfer, bind_def, get_def, List.map_cons, List.map_nil]
    simp only [List.getElem?_cons_zero, List.getElem?_cons_succ, Option.join_some]
    cases transferBody json cmd (db.lookup (accountKey cmd.sourceAccountId))
      (db.lookup (accountKey cmd.destinationAccountId)) <;> rfl

/-- The call works on an account and carries an expected version for it. -/
def Names : Call → String → UInt64 → Prop
  | .command cmd, id, v => cmd.accountId = id ∧ cmd.expectedVersion = v
  | .transfer cmd, id, v =>
    (cmd.sourceAccountId = id ∧ cmd.sourceExpectedVersion = v) ∨
      (cmd.destinationAccountId = id ∧ cmd.destinationExpectedVersion = v)

end Call

/-! ### Versions as stamps -/

variable (json : Json AccountState)

/-- The version an account is stored at; 0 when it is not stored. -/
def storedVersion : Option Bytes → ℕ
  | some bytes =>
    match json.deserialize bytes with
    | .ok a => a.version.toNat
    | .error _ => 0
  | none => 0

theorem storedVersion_of_deserialize {bytes : Bytes} {a : AccountState}
    (h : json.deserialize bytes = .ok a) : storedVersion json (some bytes) = a.version.toNat := by
  simp only [storedVersion, h]

theorem storedVersion_of_accountOrNew {id : String} {stored : Option Bytes} {a : AccountState}
    (h : accountOrNew json id stored = .ok a) : storedVersion json stored = a.version.toNat := by
  cases stored with
  | some bytes => exact storedVersion_of_deserialize json h
  | none =>
    cases h
    rfl

/-- A call that would write `writes` to `db` raises the version of every account it
writes, and writes every account it names at the version it expects. -/
def RaisesVersions (call : Call) (db : Db) (writes : List (Bytes × Bytes)) : Prop :=
  (∀ key bytes, (key, bytes) ∈ writes →
    storedVersion json (db.lookup key) < storedVersion json (some bytes)) ∧
  ∀ id v, call.Names id v →
    storedVersion json (db.lookup (accountKey id)) = v.toNat ∧ accountKey id ∈ writes.map Prod.fst

theorem command_raisesVersions {cmd : BalanceCommand} {db : Db} {writes : List (Bytes × Bytes)}
    {a' : AccountState} (hroom : cmd.expectedVersion ≠ 0xffffffffffffffff)
    (h : commandBody json cmd (db.lookup (accountKey cmd.accountId)) = .ok (writes, a')) :
    RaisesVersions json (.command cmd) db writes := by
  obtain ⟨a, bytes, ha, hv, hop, hs, rfl⟩ := (commandBody_ok json).mp h
  have hbefore := storedVersion_of_accountOrNew json ha
  have hafter := storedVersion_of_deserialize json (json.deserialize_serialize hs)
  rw [AccountState.operate_version hop, hv, toNat_succ (succ_lt_of_ne_max hroom)] at hafter
  rw [hv] at hbefore
  constructor
  · intro key b hmem
    cases List.mem_singleton.mp hmem
    omega
  · intro id v hnames
    obtain ⟨rfl, rfl⟩ := hnames
    exact ⟨hbefore, List.mem_singleton.mpr rfl⟩

theorem transfer_raisesVersions {cmd : InternalTransferCommand} {db : Db}
    {writes : List (Bytes × Bytes)} {r : AccountState × AccountState}
    (hsrcRoom : cmd.sourceExpectedVersion ≠ 0xffffffffffffffff)
    (hdstRoom : cmd.destinationExpectedVersion ≠ 0xffffffffffffffff)
    (h : transferBody json cmd (db.lookup (accountKey cmd.sourceAccountId))
      (db.lookup (accountKey cmd.destinationAccountId)) = .ok (writes, r)) :
    RaisesVersions json (.transfer cmd) db writes := by
  obtain ⟨src, dst, b₁, b₂, hsrc, hdst, ht, h₁, h₂, rfl⟩ := (transferBody_ok json).mp h
  obtain ⟨srcBytes, hsrcBytes, hsrc⟩ := (storedAccount_ok json).mp hsrc
  obtain ⟨dstBytes, hdstBytes, hdst⟩ := (storedAccount_ok json).mp hdst
  obtain ⟨⟨hsrcVersion, hdstVersion, _⟩, hsrc', hdst'⟩ := transferAccounts_ok.mp ht
  have hsrcBefore := storedVersion_of_deserialize json hsrc
  have hdstBefore := storedVersion_of_deserialize json hdst
  have hsrcAfter := storedVersion_of_deserialize json (json.deserialize_serialize h₁)
  have hdstAfter := storedVersion_of_deserialize json (json.deserialize_serialize h₂)
  rw [hsrc', hsrcVersion, toNat_succ (succ_lt_of_ne_max hsrcRoom)] at hsrcAfter
  rw [hdst', hdstVersion, toNat_succ (succ_lt_of_ne_max hdstRoom)] at hdstAfter
  rw [hsrcVersion, ← hsrcBytes] at hsrcBefore
  rw [hdstVersion, ← hdstBytes] at hdstBefore
  constructor
  · intro key b hmem
    rcases List.mem_pair.mp hmem with h | h <;> cases h <;> omega
  · intro id v hnames
    rcases hnames with ⟨rfl, rfl⟩ | ⟨rfl, rfl⟩
    · exact ⟨hsrcBefore, List.mem_cons_self⟩
    · exact ⟨hdstBefore, List.mem_cons_of_mem _ List.mem_cons_self⟩

theorem Call.raisesVersions {call : Call} {db : Db} {writes : List (Bytes × Bytes)} {reply : Reply}
    (hroom : ∀ id v, call.Names id v → v ≠ 0xffffffffffffffff)
    (h : (call.txn json).body ((call.txn json).reads.map db.lookup) = .ok (writes, reply)) :
    RaisesVersions json call db writes := by
  cases call with
  | command cmd =>
    obtain ⟨⟨writes', state⟩, hbody, hresult⟩ := except_bind_ok.mp h
    cases hresult
    exact command_raisesVersions json (hroom _ _ ⟨rfl, rfl⟩) hbody
  | transfer cmd =>
    obtain ⟨⟨batch, states⟩, hbody, hresult⟩ := except_bind_ok.mp h
    cases hresult
    exact transfer_raisesVersions json (hroom _ _ (.inl ⟨rfl, rfl⟩)) (hroom _ _ (.inr ⟨rfl, rfl⟩))
      hbody

/-! ### Every interleaving -/

variable {ι : Type} [DecidableEq ι] (calls : ι → Call)

/-- All calls on one database, in the steps of a schedule. -/
def runCalls (schedule : List ι) (db : Db) : Config Bytes Bytes LedgerError Reply ι :=
  run (fun i => (calls i).txn json) schedule (.start db)

/-- At most one call for an account and an expected version returned successfully,
and the content is what the successful calls leave when they run one by one. -/
structure NoLostUpdate (schedule : List ι) (db : Db) : Prop where
  unique : ∀ i j id v, Succeeded (runCalls json calls schedule db) i →
    Succeeded (runCalls json calls schedule db) j →
    (calls i).Names id v → (calls j).Names id v → i = j
  serial : ∃ order : List ι, order.Nodup ∧
    (∀ i, i ∈ order ↔ Succeeded (runCalls json calls schedule db) i) ∧
    replay (fun i => (calls i).apply json) order db =
      .ok () (runCalls json calls schedule db).store

/-- If the next step of call `i` writes, the accounts it read are unchanged, and
none is expected at the largest version. -/
def WritesFresh (c : Config Bytes Bytes LedgerError Reply ι) (i : ι) : Prop :=
  ∀ seen writes reply, Commits (fun i => (calls i).txn json) c i seen writes reply →
    seen = ((calls i).txn json).reads.map c.store.lookup ∧
      ∀ id v, (calls i).Names id v → v ≠ 0xffffffffffffffff

omit [DecidableEq ι] in
/-- A call that is still reading writes nothing; one that has read everything writes
freshly when that is still stored. -/
theorem writesFresh_of_reading {c : Config Bytes Bytes LedgerError Reply ι} {i : ι}
    (seen : List (Option Bytes)) (hp : c.phase i = .reading seen)
    (hroom : ∀ id v, (calls i).Names id v → v ≠ 0xffffffffffffffff)
    (h : seen.length < ((calls i).txn json).reads.length ∨
      seen = ((calls i).txn json).reads.map c.store.lookup) :
    WritesFresh json calls c i := by
  intro seen' writes reply hexec
  obtain ⟨hp', hlength, _⟩ := hexec
  rw [hp] at hp'
  cases hp'
  rcases h with h | h
  · exact absurd hlength (Nat.not_le.mpr h)
  · exact ⟨h, hroom⟩

/-- **No update is lost in a run in which no call writes over an account that
changed after the call had read it.** -/
theorem noLostUpdate (schedule : List ι) (db : Db)
    (h : Always (fun i => (calls i).txn json) (WritesFresh json calls) schedule (.start db)) :
    NoLostUpdate json calls schedule db := by
  constructor
  · intro i j id v hi hj hi' hj'
    have hraises : Always (fun i => (calls i).txn json)
        (Raises (fun i => (calls i).txn json) (storedVersion json)
          fun i key n => ∃ id v, (calls i).Names id v ∧ key = accountKey id ∧ n = v.toNat)
        schedule (.start db) := by
      refine h.mono fun c i hfresh => raises_of_writes fun seen writes reply hcommit => ?_
      obtain ⟨rfl, hroom⟩ := hfresh seen writes reply hcommit
      obtain ⟨hwrites, hnames⟩ := Call.raisesVersions json hroom hcommit.2.2
      refine ⟨hwrites, ?_⟩
      intro key n hnames
      obtain ⟨id, v, hname, rfl, rfl⟩ := hnames
      exact hnames id v hname
    exact stamp_unique hraises hi hj ⟨id, v, hi', rfl, rfl⟩ ⟨id, v, hj', rfl, rfl⟩
  · have hundisturbed := h.mono fun c i hfresh seen writes reply hcommit =>
      (hfresh seen writes reply hcommit).1
    obtain ⟨order, hnodup, hmem, hreplay⟩ := serializable _ schedule db hundisturbed
    simp only [Call.exec_txn] at hreplay
    exact ⟨order, hnodup, hmem, hreplay⟩

/-- Two credits to one account, and a credit to another that reads before the first of them is
written and writes while the second is under way. -/
theorem noLostUpdate_credits :
    let calls : Fin 3 → Call
      | 0 => .command (.new "c1" "alice" 0 .credit 10 1)
      | 1 => .command (.new "c2" "alice" 1 .credit 5 1)
      | 2 => .command (.new "c3" "bob" 0 .credit 7 1)
    let json := Json.ofAccounts
      [.holding "alice" 1 10, .holding "alice" 2 15, .holding "bob" 1 7] (by decide +kernel)
    (∀ i, Succeeded (runCalls json calls [0, 2, 0, 1, 2, 1] ∅) i) ∧
      NoLostUpdate json calls [0, 2, 0, 1, 2, 1] ∅ := by
  intro calls json
  have hroom : ∀ i id v, (calls i).Names id v → v ≠ 0xffffffffffffffff := by
    intro i id v h
    fin_cases i <;> obtain ⟨rfl, rfl⟩ := h <;> decide
  refine ⟨fun i => ?_, noLostUpdate json calls _ _ ?_⟩
  · fin_cases i
    · exact ⟨.inl (.holding "alice" 1 10), by decide +kernel⟩
    · exact ⟨.inl (.holding "alice" 2 15), by decide +kernel⟩
    · exact ⟨.inl (.holding "bob" 1 7), by decide +kernel⟩
  refine ⟨?_, ?_, ?_, ?_, ?_, ?_, trivial⟩
  · exact writesFresh_of_reading json calls [] (by decide +kernel) (hroom 0) (.inl (by decide))
  · exact writesFresh_of_reading json calls [] (by decide +kernel) (hroom 2) (.inl (by decide))
  · exact writesFresh_of_reading json calls [none] (by decide +kernel) (hroom 0)
      (.inr (by decide +kernel))
  · exact writesFresh_of_reading json calls [] (by decide +kernel) (hroom 1) (.inl (by decide))
  · exact writesFresh_of_reading json calls [none] (by decide +kernel) (hroom 2)
      (.inr (by decide +kernel))
  · exact writesFresh_of_reading json calls [some (utf8 (AccountState.holding "alice" 1 10).jsonText)]
      (by decide +kernel) (hroom 1) (.inr (by decide +kernel))

/-- Both credits read before either writes: both succeed, and one is lost. -/
theorem concurrent_credits_lost :
    let calls : Bool → Call
      | false => .command (.new "c1" "alice" 0 .credit 10 1)
      | true => .command (.new "c2" "alice" 0 .credit 5 1)
    let json := Json.ofAccounts [.holding "alice" 1 10, .holding "alice" 1 5] (by decide +kernel)
    ¬ NoLostUpdate json calls [false, true, false, true] ∅ := by
  intro calls json h
  have hboth := h.unique false true "alice" 0
    ⟨.inl (.holding "alice" 1 10), by decide +kernel⟩
    ⟨.inl (.holding "alice" 1 5), by decide +kernel⟩ ⟨rfl, rfl⟩ ⟨rfl, rfl⟩
  exact absurd hboth (by decide)

end Kerosene.Ledger.SledVersionedAccountStore
