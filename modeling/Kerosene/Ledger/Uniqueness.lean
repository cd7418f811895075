import Kerosene.Ledger.Utxos

/-! Every key once, and no UTXO lost.

Accounts, intents, nodes and UTXOs sit in lists that are searched by key; each
insertion looks for its key first, in its own way. `Distinct` says that no list
holds a key twice, `Tracks` that the UTXOs of a state are all there later with
the same value and address. Every call keeps both, so every run does
(`run_distinct`). -/
namespace Kerosene.Ledger

open Lib.Inplace Lib.Keyed

/-- No list of a state holds a key twice. -/
structure LedgerState.Distinct (s : LedgerState) : Prop where
  accounts : (s.accounts.map AccountState.accountId).Nodup
  consumedIntents : s.consumedIntents.Nodup
  nodes : s.membership.nodes.Nodup
  utxos : (s.utxos.map UtxoEntry.outpoint).Nodup

theorem LedgerState.distinct_empty (clusterId nodeId : String) :
    (LedgerState.empty (.singleNode clusterId nodeId)).Distinct :=
  ⟨List.nodup_nil, List.nodup_nil, List.nodup_singleton nodeId, List.nodup_nil⟩

/-- Whatever was tracked before is tracked now, with its value and address. -/
def Tracks (before now : List UtxoEntry) : Prop :=
  ∀ u ∈ before, ∃ u' ∈ now,
    u'.outpoint = u.outpoint ∧ u'.valueSats = u.valueSats ∧ u'.address = u.address

/-- The UTXO at an outpoint is there and has a property. -/
def UtxoAt (l : List UtxoEntry) (o : OutPoint) (P : UtxoEntry → Prop) : Prop :=
  (∃ u ∈ l, u.outpoint = o) ∧ ∀ u ∈ l, u.outpoint = o → P u

/-- With distinct outpoints it is the one that is found. -/
theorem utxoAt_of_find {l : List UtxoEntry} (hl : (l.map UtxoEntry.outpoint).Nodup) {o : OutPoint}
    {u : UtxoEntry} (hu : find UtxoEntry.outpoint o l = some u) {P : UtxoEntry → Prop} (hP : P u) :
    UtxoAt l o P := by
  refine ⟨⟨u, mem_of_find hu, key_of_find hu⟩, fun v hv hkey => ?_⟩
  have hsame := find_of_mem hl hv
  rw [hkey, hu] at hsame
  rw [← Option.some.inj hsame]
  exact hP

theorem Tracks.trans {l m n : List UtxoEntry} (h : Tracks l m) (h' : Tracks m n) : Tracks l n := by
  intro u hu
  obtain ⟨v, hv, ho, hvalue, haddress⟩ := h u hu
  obtain ⟨w, hw, ho', hvalue', haddress'⟩ := h' v hv
  exact ⟨w, hw, ho'.trans ho, hvalue'.trans hvalue, haddress'.trans haddress⟩

namespace StateMachine

variable (sm : StateMachine) {c : LedgerCommand}

/-! ### UTXOs -/

theorem UtxosStep.nodup {l l' : List UtxoEntry} (h : UtxosStep sm c l l')
    (hl : (l.map UtxoEntry.outpoint).Nodup) : (l'.map UtxoEntry.outpoint).Nodup := by
  cases h with
  | unchanged => exact hl
  | moved o u ho hmove => exact nodup_put hl u
  | reorganized p hc hp => exact ReorgPayload.nodup_reorganize hl

theorem UtxosStep.tracks {l l' : List UtxoEntry} (h : UtxosStep sm c l l')
    (hl : (l.map UtxoEntry.outpoint).Nodup) : Tracks l l' := by
  intro u hu
  obtain ⟨u', hu', hstep⟩ := h.find_some (find_of_mem hl hu)
  exact ⟨u', mem_of_find hu', hstep.keeps⟩

/-! ### Accounts, intents and nodes -/

/-- The keys of the lists other than the UTXOs. -/
def RestDistinct (s : LedgerState) : Prop :=
  (s.accounts.map AccountState.accountId).Nodup ∧ s.consumedIntents.Nodup ∧
    s.membership.nodes.Nodup

theorem restDistinct_consume {s : LedgerState} (h : RestDistinct s) (intent : String) :
    RestDistinct (consume intent s) := by
  unfold consume
  split
  case isTrue => exact h
  case isFalse hnew =>
    refine ⟨h.1, h.2.1.append (List.nodup_singleton intent) ?_, h.2.2⟩
    rw [List.disjoint_singleton]
    simpa using hnew

theorem restDistinct_addNode {s : LedgerState} (h : RestDistinct s) (nodeId : String) :
    RestDistinct (addNode nodeId s) := by
  unfold addNode
  split
  case isTrue => exact h
  case isFalse hnew =>
    refine ⟨h.1, h.2.1, h.2.2.append (List.nodup_singleton nodeId) ?_⟩
    rw [List.disjoint_singleton]
    simpa using hnew

theorem restDistinct_removeNode {s : LedgerState} (h : RestDistinct s) (nodeId : String) :
    RestDistinct (removeNode nodeId s) :=
  ⟨h.1, h.2.1, h.2.2.filter _⟩

/-- Accounts are written under the id they are looked up by. -/
theorem restDistinct_onAccount (accountId : String) {op : AccountState.Update} (hop : KeepsId op) :
    Preserves (fun s s' => RestDistinct s → RestDistinct s') (onAccount accountId op) := by
  intro s hs
  unfold after
  rw [onAccount_eq hop]
  cases op (accountOrNew s accountId) <;> exact ⟨nodup_put hs.1 _, hs.2⟩

theorem restDistinct_apply (c : LedgerCommand) :
    Preserves (fun s s' => RestDistinct s → RestDistinct s') (sm.apply c) := by
  refine preserves_apply sm (fun _ h => h) (fun _ _ _ h h' hs => h' (h hs)) (fun _ h => h) ?_
  refine preserves_transition sm (fun _ h => h) (fun _ _ _ h h' hs => h' (h hs)) c
    (fun _ id op hop => restDistinct_onAccount id hop) (fun _ _ _ h => h)
    (fun _ s hs => restDistinct_consume hs _) fun _ s => ?_
  exact ⟨fun hs => restDistinct_addNode hs _, fun hs => restDistinct_removeNode hs _⟩

/-! ### Every run -/

theorem distinct_apply (c : LedgerCommand) {s : LedgerState} (h : s.Distinct) :
    (after (sm.apply c) s).Distinct := by
  obtain ⟨haccounts, hintents, hnodes⟩ :=
    restDistinct_apply sm c s ⟨h.accounts, h.consumedIntents, h.nodes⟩
  exact ⟨haccounts, hintents, hnodes, (after_apply_utxos sm c s).nodup sm h.utxos⟩

/-- Along a run the keys stay distinct and the UTXOs tracked. -/
theorem distinct_tracks_run (l : List LedgerCommand) (s : LedgerState) (h : s.Distinct) :
    (run sm.apply l s).Distinct ∧ Tracks s.utxos (run sm.apply l s).utxos := by
  refine preserves_run (R := fun s s' => s.Distinct → s'.Distinct ∧ Tracks s.utxos s'.utxos)
    (fun s hs => ⟨hs, fun u hu => ⟨u, hu, rfl, rfl, rfl⟩⟩) (fun s t u hst htu hs => ?_)
    (fun c s hs => ⟨distinct_apply sm c hs, (after_apply_utxos sm c s).tracks sm hs.utxos⟩) l s h
  obtain ⟨ht, htracks⟩ := hst hs
  obtain ⟨hu, htracks'⟩ := htu ht
  exact ⟨hu, htracks.trans htracks'⟩

/-- **Every key once, and no UTXO lost or rewritten.** In every state that a new
ledger comes to, by calls that succeed or fail, and in every later one. -/
theorem run_distinct (clusterId nodeId : String) (l l' : List LedgerCommand) :
    (run sm.apply l (.empty (.singleNode clusterId nodeId))).Distinct ∧
      Tracks (run sm.apply l (.empty (.singleNode clusterId nodeId))).utxos
        (run sm.apply (l ++ l') (.empty (.singleNode clusterId nodeId))).utxos := by
  obtain ⟨hdistinct, _⟩ :=
    distinct_tracks_run sm l _ (LedgerState.distinct_empty clusterId nodeId)
  rw [run_append]
  exact ⟨hdistinct, (distinct_tracks_run sm l' _ hdistinct).2⟩

end StateMachine

end Kerosene.Ledger
