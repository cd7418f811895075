import Kerosene.Ledger.Utxos

/-! Validation foretells what a command does.

`apply` validates a command and then parses, looks up and checks everything again. For
the commands that do not work on balances the second time finds nothing new: what passes
validation succeeds (`transition_of_valid`), so `validate` says exactly which commands
`apply` takes (`validate_exact`). -/
namespace Kerosene.Ledger.StateMachine

open Lib.Inplace

variable (sm : StateMachine) {c : LedgerCommand} {s : LedgerState}

/-- A command on one UTXO that passes validation has a move to make. -/
theorem movesUtxo_of_valid (hc : c.commandType.group = .utxo) (hvalid : sm.validate s c = .ok ()) :
    ∃ t, MovesUtxo sm c s t := by
  have hmove {o : OutPoint} {entry : Option UtxoEntry} {u : UtxoEntry}
      (ho : OutPoint.fromCanonicalString c.partitionKey = .ok o) (hf : s.findUtxo o = entry)
      (h : UtxoMove sm c o entry u) : ∃ t, MovesUtxo sm c s t := by
    subst hf
    exact ⟨_, o, u, ho, h, rfl⟩
  cases ht : c.commandType <;> rw [ht] at hc
  case detectUtxo =>
    obtain ⟨⟨o, ho⟩, payload, hpayload, hvalue, haddress⟩ := (validate_detectUtxo sm ht).mp hvalid
    cases hf : s.findUtxo o with
    | none => exact hmove ho hf (.detected ht hpayload hvalue haddress)
    | some u =>
      by_cases hstate : u.state = .reorged
      · exact hmove ho hf (.detectedAgain ht hpayload hvalue haddress hstate)
      · exact hmove ho hf (.tracked ht hpayload hvalue haddress hstate)
  case confirmUtxo =>
    unfold validate at hvalid
    simp only [ht, except_bind_ok, lookupUtxo_ok] at hvalid
    obtain ⟨o, ho, height, hheight, u, hf, hgate⟩ := hvalid
    exact hmove ho hf (.confirmed ht hheight (validateTransition_ok.mp hgate))
  case markUtxoSpendable =>
    unfold validate at hvalid
    rw [ht] at hvalid
    obtain ⟨o, u, ho, hf, hgate⟩ := validate_rewrite.mp hvalid
    exact hmove ho hf (.spendable ht (validateTransition_ok.mp hgate))
  case reserveUtxo =>
    obtain ⟨hholder, o, u, ho, hf, hreservable⟩ := (validate_reserveUtxo sm ht).mp hvalid
    obtain ⟨hstate, hfree⟩ := checkReservable_ok.mp hreservable
    exact hmove ho hf (.reserved ht hholder hstate hfree)
  case releaseUtxo =>
    unfold validate at hvalid
    rw [ht] at hvalid
    obtain ⟨o, u, ho, hf, hheld⟩ := validate_rewrite.mp hvalid
    exact hmove ho hf (.released ht (checkReserved_ok.mp hheld))
  case markUtxoSpent =>
    unfold validate at hvalid
    rw [ht] at hvalid
    obtain ⟨o, u, ho, hf, hgate⟩ := validate_rewrite.mp hvalid
    exact hmove ho hf (.spent ht (validateTransition_ok.mp hgate))
  all_goals cases hc

/-- No arm of `apply` fails on a command that passed validation, the balance commands
apart. -/
theorem transition_of_valid (hc : ¬ c.commandType.TouchesAccounts)
    (hvalid : sm.validate s c = .ok ()) : ∃ affected t, sm.transition c s = .ok affected t := by
  rw [LedgerCommandType.touchesAccounts_iff] at hc
  by_cases hutxo : c.commandType.group = .utxo
  · obtain ⟨t, hmoves⟩ := movesUtxo_of_valid sm hutxo hvalid
    exact ⟨_, t, (ok_of_movesUtxo sm hmoves).2.2⟩
  by_cases hreorg : c.commandType.group = .reorganization
  · have ht := reorganization_iff.mp hreorg
    unfold validate at hvalid
    simp only [ht, except_bind_ok, pure, Except.pure, and_true] at hvalid
    obtain ⟨p, hp⟩ := hvalid
    obtain ⟨_, affected, t, htransition, _⟩ :=
      (apply_ok sm).mp ((apply_reorganization sm ht).mpr ⟨p, hp, rfl, rfl⟩)
    exact ⟨affected, t, htransition⟩
  · unfold transition
    cases ht : c.commandType <;> rw [ht] at hc hutxo hreorg <;>
      first
        | exact absurd rfl hc
        | exact absurd rfl hutxo
        | exact absurd rfl hreorg
        | exact ⟨_, _, rfl⟩

/-- **Validation is exact away from the balances.** It passes the commands that succeed
and no others; no arm of `apply` fails after it, so that every error is one of validation
and leaves the state. -/
theorem validate_exact (hc : ¬ c.commandType.TouchesAccounts) :
    (sm.validate s c = .ok () ↔ ∃ r s', sm.apply c s = .ok r s') ∧
      (sm.validate s c = .ok () → ∃ affected t, sm.transition c s = .ok affected t) ∧
      ∀ e s', sm.apply c s = .error e s' → sm.validate s c = .error e ∧ s' = s := by
  refine ⟨⟨fun hvalid => ?_, fun h => ?_⟩, transition_of_valid sm hc, fun e s' h => ?_⟩
  · obtain ⟨affected, t, htransition⟩ := transition_of_valid sm hc hvalid
    exact ⟨_, _, (apply_ok sm).mpr ⟨hvalid, affected, t, htransition, rfl, rfl⟩⟩
  · obtain ⟨r, s', happly⟩ := h
    exact ((apply_ok sm).mp happly).1
  · rcases (apply_error sm).mp h with hinvalid | ⟨hvalid, hfails⟩
    · exact hinvalid
    · obtain ⟨affected, t, htransition⟩ := transition_of_valid sm hc hvalid
      rw [htransition] at hfails
      cases hfails

/-- A spendable UTXO can be reserved. -/
theorem validate_exact_reserve :
    let c := LedgerCommand.new plain.crypto "c1" .reserveUtxo "tx1:0" none "withdrawal-1" 1 300
    ¬ c.commandType.TouchesAccounts ∧
      ∃ r s', plain.apply c (tracking [spendableUtxo]) = .ok r s' := by
  generalize plain = sm
  intro c
  have hc : ¬ LedgerCommandType.reserveUtxo.TouchesAccounts := by decide
  have ho : OutPoint.fromCanonicalString "tx1:0" = .ok ⟨"tx1", 0⟩ := by decide
  refine ⟨hc, (validate_exact sm (c := c) (s := tracking [spendableUtxo]) hc).1.mp ?_⟩
  have hholder : "withdrawal-1" ≠ "" := by decide
  exact (validate_reserveUtxo sm rfl).mpr ⟨hholder, _, spendableUtxo, ho, rfl, rfl⟩

end Kerosene.Ledger.StateMachine
