import Kerosene.Ledger.Uniqueness

/-! The life of a UTXO under commands.

`UtxoTransitionGate` says which state may follow which. The commands on one UTXO
ask it; a reorganization does not, and takes UTXOs back that the gate would not let
go (`gate_respected`). No command leads from a UTXO that was seen into the mempool,
and from there on alone a UTXO is confirmed: in a ledger that starts empty every
UTXO stays as it was first seen (`never_spendable`). -/
namespace Kerosene.Ledger

open Lib.Inplace Lib.Keyed

namespace StateMachine

variable {sm : StateMachine} {c : LedgerCommand}

/-! ### The gate -/

/-- A step of a UTXO goes through the gate, or is the reorganization of a UTXO that
could already be spent. -/
theorem UtxoStep.gate {u u' : UtxoEntry} (h : UtxoStep sm c u u') :
    u'.state = u.state ∨ UtxoTransitionGate.validateTransition u.state u'.state = .ok () ∨
      (u'.state = .reorged ∧ (u.state = .spendable ∨ u.state = .finalizedByPolicy) ∧
        ∃ p, c.commandType = .applyChainReorganization ∧ sm.reorgPayload c = .ok p ∧
          u.outpoint.txid ∈ p.disconnectedTxids) := by
  cases h with
  | unchanged => exact .inl rfl
  | moved ho hmove =>
    cases hmove with
    | tracked | reserved | released => exact .inl rfl
    | detectedAgain _ _ _ _ hstate =>
      rw [hstate]
      exact .inr (.inl rfl)
    | confirmed _ _ hgate | spendable _ hgate | spent _ hgate =>
      exact .inr (.inl (validateTransition_ok.mpr hgate))
  | disconnected p hc hp =>
    unfold ReorgHandler.disconnect
    split
    case isFalse => exact .inl rfl
    case isTrue hdisconnected =>
      unfold ReorgHandler.isDisconnected at hdisconnected
      simp only [Bool.and_eq_true, List.contains_eq_mem, decide_eq_true_eq, Bool.or_eq_true,
        beq_iff_eq] at hdisconnected
      obtain ⟨htxid, (hstate | hstate) | hstate⟩ := hdisconnected
      · rw [hstate]
        exact .inr (.inl rfl)
      · exact .inr (.inr ⟨rfl, .inl hstate, p, hc, hp, htxid⟩)
      · exact .inr (.inr ⟨rfl, .inr hstate, p, hc, hp, htxid⟩)

/-- **Transitions and the gate.** After a successful command every UTXO of before is in
the same state or in one that the gate allows, or it could be spent and a
reorganization disconnected its transaction. -/
theorem gate_respected {s s' : LedgerState} {r : StateTransitionReceipt}
    (hs : (s.utxos.map UtxoEntry.outpoint).Nodup) (h : sm.apply c s = .ok r s') {u : UtxoEntry}
    (hu : u ∈ s.utxos) :
    UtxoAt s'.utxos u.outpoint fun u' =>
      u'.state = u.state ∨ UtxoTransitionGate.validateTransition u.state u'.state = .ok () ∨
        (u'.state = .reorged ∧ (u.state = .spendable ∨ u.state = .finalizedByPolicy) ∧
          ∃ p, c.commandType = .applyChainReorganization ∧ sm.reorgPayload c = .ok p ∧
            u.outpoint.txid ∈ p.disconnectedTxids) := by
  have hstep := apply_utxos sm c s h
  obtain ⟨u', hu', hu''⟩ := hstep.find_some (find_of_mem hs hu)
  exact utxoAt_of_find (hstep.nodup sm hs) hu' hu''.gate

/-- A reorganization of another transaction leaves a UTXO as it is. -/
theorem gate_respected_other :
    let text := "\x7b\"disconnected_txids\":[\"tx2\"],\"new_utxos\":[]\x7d"
    let sm := recorded [] [(text, ⟨["tx2"], []⟩)]
    ∃ r s', sm.apply (reorgCommand text) (tracking [spendableUtxo]) = .ok r s' ∧
      UtxoAt s'.utxos ⟨"tx1", 0⟩ fun u' => u'.state = .spendable ∨
        UtxoTransitionGate.validateTransition .spendable u'.state = .ok () := by
  intro text sm
  obtain ⟨r, h⟩ := apply_recorded text ⟨["tx2"], []⟩ (tracking [spendableUtxo])
  have hgate := gate_respected (by decide) h (u := spendableUtxo) List.mem_cons_self
  refine ⟨r, _, h, hgate.1, fun u' hu' hkey => ?_⟩
  rcases hgate.2 u' hu' hkey with hstate | hstate | ⟨_, _, p, _, hp, htxid⟩
  · exact .inl hstate
  · exact .inr hstate
  · rw [reorgPayload_recorded] at hp
    cases hp
    exact absurd htxid (by decide)

/-- A UTXO that can be spent is reorganized past the gate. -/
theorem reorganized_past_gate :
    let text := "\x7b\"disconnected_txids\":[\"tx1\"],\"new_utxos\":[]\x7d"
    let sm := recorded [] [(text, ⟨["tx1"], []⟩)]
    ((tracking [spendableUtxo]).utxos.map UtxoEntry.outpoint).Nodup ∧
      ∃ r s', sm.apply (reorgCommand text) (tracking [spendableUtxo]) = .ok r s' ∧
        ∃ u' ∈ s'.utxos, u'.outpoint = spendableUtxo.outpoint ∧ u'.state ≠ spendableUtxo.state ∧
          UtxoTransitionGate.validateTransition spendableUtxo.state u'.state ≠ .ok () := by
  intro text sm
  obtain ⟨r, h⟩ := apply_recorded text ⟨["tx1"], []⟩ (tracking [spendableUtxo])
  refine ⟨by decide, r, _, h, ReorgHandler.disconnect ["tx1"] spendableUtxo, ?_, ?_, ?_, ?_⟩
  · exact ReorgPayload.mem_reorganize.mpr (.inl ⟨spendableUtxo, List.mem_cons_self, rfl⟩)
  · decide
  · decide
  · decide

/-! ### From seen to spendable -/

/-- Nothing that is only seen is confirmed: a step of UTXOs that are seen leaves them
seen. -/
theorem UtxosStep.seen {l l' : List UtxoEntry} (h : UtxosStep sm c l l')
    (hl : ∀ u ∈ l, u.state = .seen) : ∀ u ∈ l', u.state = .seen := by
  intro u hu
  cases h with
  | unchanged => exact hl u hu
  | moved o u' ho hmove =>
    rcases mem_put hu with rfl | hu
    · generalize hf : find UtxoEntry.outpoint o l = entry at hmove
      have hseen : ∀ v, entry = some v → v.state = .seen := by
        intro v hv
        rw [hv] at hf
        exact hl v (mem_of_find hf)
      cases hmove with
      | detected | detectedAgain => rfl
      | tracked => exact hseen _ rfl
      | released =>
        have hstate := hseen _ rfl
        exact hstate
      | confirmed _ _ hgate | spendable _ hgate | spent _ hgate =>
        rw [hseen _ rfl] at hgate
        cases hgate
      | reserved _ _ hstate _ =>
        rw [hseen _ rfl] at hstate
        exact absurd hstate (by decide)
    · exact hl u hu
  | reorganized p hc hp =>
    rcases ReorgPayload.mem_reorganize.mp hu with ⟨v, hv, rfl⟩ | ⟨e, _, rfl⟩
    · simp [ReorgHandler.disconnect, ReorgHandler.isDisconnected, hl v hv]
    · rfl

variable (sm) in
/-- In a ledger that starts empty every UTXO is as it was first seen. -/
theorem seen_run (membership : MembershipView) (l : List LedgerCommand) :
    ∀ u ∈ (run sm.apply l (.empty membership)).utxos, u.state = .seen := by
  refine preserves_run (R := fun s s' : LedgerState => (∀ u ∈ s.utxos, u.state = .seen) →
      ∀ u ∈ s'.utxos, u.state = .seen) (fun _ h => h) (fun _ _ _ h h' hs => h' (h hs))
    (fun c s => (after_apply_utxos sm c s).seen) l (.empty membership) fun u hu => ?_
  cases hu

/-- **No UTXO becomes spendable.** Whatever commands are accepted, starting from any
state that a new ledger comes to. -/
theorem never_spendable {membership : MembershipView} {l : List LedgerCommand} {s : LedgerState}
    (hs : replay sm.apply l (.empty membership) = .ok () s) {u : UtxoEntry} (_ : u ∈ s.utxos) :
    ¬ ∃ l' s', replay sm.apply l' s = .ok () s' ∧
      ∃ u' ∈ s'.utxos, u'.outpoint = u.outpoint ∧ u'.state = .spendable := by
  intro h
  obtain ⟨l', s', hs', u', hu', _, hspendable⟩ := h
  rw [← run_of_replay hs', ← run_of_replay hs, ← run_append] at hu'
  rw [seen_run sm membership _ u' hu'] at hspendable
  cases hspendable

/-- A deposit as it is detected. -/
def depositText : String := "\x7b\"value_sats\":50000,\"address\":\"addr1\"\x7d"

def detectDeposit : LedgerCommand :=
  .new plain.crypto "detect-tx1-0" .detectUtxo "tx1:0" none depositText 1 100

def depositMachine : StateMachine := recorded [(depositText, ⟨50000, "addr1"⟩)] []

theorem apply_deposit :
    ∃ r, depositMachine.apply detectDeposit (tracking []) =
      .ok r (bumpVersion (tracking [.newSeen ⟨"tx1", 0⟩ 50000 "addr1" 100])) := by
  have hpayload : depositMachine.detectUtxoPayload detectDeposit = .ok ⟨50000, "addr1"⟩ := by
    simp [detectUtxoPayload, depositMachine, recorded, detectDeposit, LedgerCommand.new, find]
  refine ⟨_, (apply_utxo _ rfl).mpr ⟨_, ⟨⟨"tx1", 0⟩, _, by decide, ?_, rfl⟩, rfl, rfl⟩⟩
  exact .detected rfl hpayload (by decide) (by decide)

theorem replay_deposit :
    replay depositMachine.apply [detectDeposit] (.empty (.singleNode "cluster-1" "node-1")) =
      .ok () (bumpVersion (tracking [.newSeen ⟨"tx1", 0⟩ 50000 "addr1" 100])) := by
  obtain ⟨r, h⟩ := apply_deposit
  exact replay_cons_ok.mpr ⟨r, _, h, rfl⟩

theorem never_spendable_deposit :
    ¬ ∃ l s, replay depositMachine.apply l
        (bumpVersion (tracking [.newSeen ⟨"tx1", 0⟩ 50000 "addr1" 100])) = .ok () s ∧
      ∃ u ∈ s.utxos, u.outpoint = ⟨"tx1", 0⟩ ∧ u.state = .spendable :=
  never_spendable replay_deposit (u := .newSeen ⟨"tx1", 0⟩ 50000 "addr1" 100) List.mem_cons_self

/-- A deposit that was just detected, under a key that is read back: no commands make
it spendable. -/
theorem deposit_never_spendable :
    ∃ s, replay depositMachine.apply [detectDeposit] (.empty (.singleNode "cluster-1" "node-1")) =
        .ok () s ∧
      ∃ u ∈ s.utxos, u.state = .seen ∧
        OutPoint.fromCanonicalString u.canonicalKey = .ok u.outpoint ∧
        ¬ ∃ l s', replay depositMachine.apply l s = .ok () s' ∧
          ∃ u' ∈ s'.utxos, u'.outpoint = u.outpoint ∧ u'.state = .spendable := by
  refine ⟨_, replay_deposit, _, List.mem_cons_self, rfl, by decide, fun h => ?_⟩
  obtain ⟨l, s', hs', u', hu', _, hspendable⟩ := h
  rw [← run_of_replay hs', ← run_of_replay replay_deposit, ← run_append] at hu'
  rw [seen_run depositMachine _ _ u' hu'] at hspendable
  cases hspendable

end StateMachine

end Kerosene.Ledger
