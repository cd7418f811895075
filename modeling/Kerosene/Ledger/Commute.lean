import Kerosene.Lib.Footprint
import Kerosene.Ledger.Uniqueness
import Kerosene.Ledger.StateRoot

/-! Commands that have nothing to do with each other commute.

A state is cut into cells: one for each account, UTXO, intent and node. Every
command is local to the cells it touches (`local_applied`), so commands that touch
different cells can be applied in either order. The lists come out in the order of
arrival, and the root does not depend on that (`apply_commute`). -/
namespace Kerosene.Ledger

open Lib.Encode Lib.Footprint Lib.Inplace Lib.Keyed

/-! ### Cells -/

/-- A place of the state that a command can work on. -/
inductive Cell where
  | account (accountId : String)
  | utxo (outpoint : OutPoint)
  | intent (text : String)
  | node (nodeId : String)
  deriving DecidableEq, Repr

/-- What a cell holds: an account or entry if there is one, else whether it is listed. -/
abbrev Cell.Content : Cell → Type
  | .account _ => Option AccountState
  | .utxo _ => Option UtxoEntry
  | .intent _ => Bool
  | .node _ => Bool

def LedgerState.content (s : LedgerState) : (k : Cell) → k.Content
  | .account accountId => s.findAccount accountId
  | .utxo outpoint => s.findUtxo outpoint
  | .intent text => s.consumedIntents.contains text
  | .node nodeId => s.membership.nodes.contains nodeId

/-- The accounts of a balance command. -/
def LedgerCommand.accountIds (c : LedgerCommand) : List String :=
  if c.commandType = .commitInternalTransfer then
    match c.transferParts with
    | some (source, dest) => [source, dest]
    | none => []
  else [c.partitionKey]

/-- The cells a command reads or writes. -/
def LedgerCommand.Touches (c : LedgerCommand) : Cell → Prop
  | .account accountId => c.commandType.group = .balance ∧ accountId ∈ c.accountIds
  | .utxo outpoint =>
    (c.commandType.group = .utxo ∧ OutPoint.fromCanonicalString c.partitionKey = .ok outpoint) ∨
      c.commandType.group = .reorganization
  | .intent text => c.commandType.group = .intent ∧ text = c.partitionKey
  | .node nodeId => c.commandType.group = .node ∧ nodeId = c.partitionKey

def LedgerCommand.footprint (c : LedgerCommand) : Set Cell := { k | c.Touches k }

namespace LedgerState

variable (s : LedgerState)

theorem content_writeAccount (a : AccountState) :
    (s.writeAccount a).content (.account a.accountId) = some a ∧
      ∀ k, k ≠ .account a.accountId → (s.writeAccount a).content k = s.content k := by
  refine ⟨find_put_self a s.accounts, fun k hk => ?_⟩
  cases k with
  | account accountId =>
    have hne : a.accountId ≠ accountId := fun h => hk (by rw [h])
    exact (find_put accountId a s.accounts).trans (if_neg hne)
  | utxo | intent | node => rfl

theorem content_writeUtxo (u : UtxoEntry) :
    (s.writeUtxo u).content (.utxo u.outpoint) = some u ∧
      ∀ k, k ≠ .utxo u.outpoint → (s.writeUtxo u).content k = s.content k := by
  refine ⟨find_put_self u s.utxos, fun k hk => ?_⟩
  cases k with
  | utxo outpoint =>
    have hne : u.outpoint ≠ outpoint := fun h => hk (by rw [h])
    exact (find_put outpoint u s.utxos).trans (if_neg hne)
  | account | intent | node => rfl

theorem content_consume (text : String) :
    (StateMachine.consume text s).content (.intent text) = true ∧
      ∀ k, k ≠ .intent text → (StateMachine.consume text s).content k = s.content k := by
  unfold StateMachine.consume
  split
  case isTrue h => exact ⟨h, fun _ _ => rfl⟩
  case isFalse h =>
    refine ⟨by simp [content], fun k hk => ?_⟩
    cases k with
    | intent other =>
      have hne : other ≠ text := fun h => hk (by rw [h])
      simp [content, hne]
    | account | utxo | node => rfl

theorem content_addNode (nodeId : String) :
    (StateMachine.addNode nodeId s).content (.node nodeId) = true ∧
      ∀ k, k ≠ .node nodeId → (StateMachine.addNode nodeId s).content k = s.content k := by
  unfold StateMachine.addNode
  split
  case isTrue h => exact ⟨h, fun _ _ => rfl⟩
  case isFalse h =>
    refine ⟨by simp [content], fun k hk => ?_⟩
    cases k with
    | node other =>
      have hne : other ≠ nodeId := fun h => hk (by rw [h])
      simp [content, hne]
    | account | utxo | intent => rfl

theorem content_removeNode (nodeId : String) :
    (StateMachine.removeNode nodeId s).content (.node nodeId) = false ∧
      ∀ k, k ≠ .node nodeId → (StateMachine.removeNode nodeId s).content k = s.content k := by
  unfold StateMachine.removeNode
  refine ⟨by simp [content], fun k hk => ?_⟩
  cases k with
  | node other =>
    have hne : other ≠ nodeId := fun h => hk (by rw [h])
    simp [content, hne]
  | account | utxo | intent => rfl

end LedgerState

namespace StateMachine

variable (sm : StateMachine)

/-! ### Local steps -/

/-- A change of one cell to what a function makes of its content. -/
theorem local_modify (k : Cell) {f : LedgerState → LedgerState} (g : k.Content → k.Content)
    (hf : ∀ s : LedgerState, (f s).content k = g (s.content k) ∧
      ∀ j, j ≠ k → (f s).content j = s.content j) :
    Local LedgerState.content {k} fun s s' => s' = f s := by
  refine Local.ofCell (P := fun old new => new = g old) (fun s s' h => ?_) fun s v hv => ?_
  · subst h
    exact hf s
  · exact ⟨f s, rfl, (hf s).1.trans hv.symm⟩

/-- An operation on an account that succeeds. -/
def Operates (accountId : String) (op : AccountState.Update) (s s' : LedgerState) : Prop :=
  ∃ a, op (accountOrNew s accountId) = .ok () a ∧ s' = s.writeAccount a

theorem onAccount_ok {op : AccountState.Update} (hop : KeepsId op) {accountId id : String}
    {s s' : LedgerState} :
    onAccount accountId op s = .ok id s' ↔ id = accountId ∧ Operates accountId op s s' := by
  rw [onAccount_eq hop]
  unfold Operates
  cases op (accountOrNew s accountId) with
  | error e a => simp
  | ok u a => simp [eq_comm]

theorem local_operates {op : AccountState.Update} (hop : KeepsId op) (accountId : String) :
    Local LedgerState.content {.account accountId} (Operates accountId op) := by
  have hid {s : LedgerState} {a : AccountState} (h : op (accountOrNew s accountId) = .ok () a) :
      a.accountId = accountId :=
    (hop.ok h).trans (accountOrNew_accountId s accountId)
  refine Local.ofCell (P := fun old new => ∃ a, op (old.getD (.new accountId)) = .ok () a ∧
    new = some a) (fun s s' h => ?_) fun s v h => ?_
  · obtain ⟨a, ha, rfl⟩ := h
    obtain ⟨hself, hother⟩ := s.content_writeAccount a
    rw [hid ha] at hself hother
    exact ⟨⟨a, ha, hself⟩, hother⟩
  · obtain ⟨a, ha, rfl⟩ := h
    refine ⟨s.writeAccount a, ⟨a, ha, rfl⟩, ?_⟩
    have hself := (s.content_writeAccount a).1
    rw [hid (s := s) ha] at hself
    exact hself

theorem local_movesUtxo {c : LedgerCommand} {o : OutPoint}
    (ho : OutPoint.fromCanonicalString c.partitionKey = .ok o) :
    Local LedgerState.content {.utxo o} (MovesUtxo sm c) := by
  have hkey {s : LedgerState} {u : UtxoEntry} (h : UtxoMove sm c o (s.findUtxo o) u) :
      u.outpoint = o := h.outpoint_eq
  refine Local.ofCell (P := fun old new => ∃ u, UtxoMove sm c o old u ∧ new = some u)
    (fun s s' h => ?_) fun s v h => ?_
  · obtain ⟨o', u, ho', hmove, rfl⟩ := h
    cases Except.ok.inj (ho'.symm.trans ho)
    obtain ⟨hself, hother⟩ := s.content_writeUtxo u
    rw [hkey hmove] at hself hother
    exact ⟨⟨u, hmove, hself⟩, hother⟩
  · obtain ⟨u, hmove, rfl⟩ := h
    refine ⟨s.writeUtxo u, ⟨o, u, ho, hmove, rfl⟩, ?_⟩
    have hself := (s.content_writeUtxo u).1
    rw [hkey (s := s) hmove] at hself
    exact hself

/-- A reorganization looks at every UTXO, one at a time. -/
theorem local_reorganize (p : ReorgPayload) (bucket : UInt64) :
    Local LedgerState.content { k | ∃ o, k = .utxo o } fun s s' =>
      s' = { s with utxos := p.reorganize bucket s.utxos } where
  frame h k hk := by
    subst h
    cases k with
    | utxo o => exact absurd ⟨o, rfl⟩ hk
    | account | intent | node => rfl
  reads h hst := by
    subst h
    refine ⟨_, rfl, fun k hk => ?_⟩
    obtain ⟨o, rfl⟩ := hk
    have hsame := hst (.utxo o) ⟨o, rfl⟩
    simp only [LedgerState.content, LedgerState.findUtxo] at hsame ⊢
    rw [ReorgPayload.find_reorganize, ReorgPayload.find_reorganize, hsame]

/-! ### Every command -/

/-- A command that is applied with success. -/
def Applied (c : LedgerCommand) (s s' : LedgerState) : Prop := ∃ r, sm.apply c s = .ok r s'

variable {sm} {c : LedgerCommand} {F : Set Cell}

/-- The version counter is in no cell. -/
theorem local_bumped {R : LedgerState → LedgerState → Prop} (h : Local LedgerState.content F R) :
    Local LedgerState.content F fun s s' => ∃ t, R s t ∧ s' = bumpVersion t := by
  have hbump : Local LedgerState.content ∅ fun s s' => s' = bumpVersion s :=
    .unseen fun s k => by cases k <;> rfl
  have hcomp := h.comp hbump
  rw [Set.union_empty] at hcomp
  exact hcomp

/-- A command is local to the cells that its validation and its transition are local to. -/
theorem local_of_transition
    (hvalid : ∀ s t, Agree LedgerState.content F s t → sm.validate s c = .ok () →
      sm.validate t c = .ok ())
    (htransition : Local LedgerState.content F fun s t => ∃ affected, sm.transition c s = .ok affected t) :
    Local LedgerState.content F (Applied sm c) := by
  have hcomp := (Local.guard hvalid).comp htransition
  rw [Set.union_self] at hcomp
  refine (local_bumped hcomp).congr fun s s' => ?_
  unfold Applied Relation.Comp
  simp only [apply_ok]
  constructor
  · intro h
    obtain ⟨_, hvalid, affected, t, ht, hs, _⟩ := h
    exact ⟨t, ⟨s, ⟨hvalid, rfl⟩, affected, ht⟩, hs⟩
  · intro h
    obtain ⟨t, ⟨_, ⟨hvalid, rfl⟩, affected, ht⟩, hs⟩ := h
    exact ⟨_, hvalid, affected, t, ht, hs, rfl⟩

theorem validate_operation_congr (hc : c.commandType.operation.isSome) {s t : LedgerState}
    (h : s.findAccount c.partitionKey = t.findAccount c.partitionKey) :
    sm.validate s c = sm.validate t c := by
  unfold validate
  cases ht : c.commandType <;> rw [ht] at hc <;> try cases hc
  · show validateCredit s c = validateCredit t c
    rw [validateCredit, validateCredit, h]
  · show validateExisting s c = validateExisting t c
    rw [validateExisting, validateExisting, h]
  · show validateExisting s c = validateExisting t c
    rw [validateExisting, validateExisting, h]
  · show validateReleaseReservation s c = validateReleaseReservation t c
    rw [validateReleaseReservation, validateReleaseReservation, h]

theorem local_operation {op : BalanceOperation} (hc : c.commandType.operation = some op) :
    Local LedgerState.content {.account c.partitionKey} (Applied sm c) := by
  refine local_of_transition (fun s t hst h => ?_) ?_
  · rw [← validate_operation_congr (by rw [hc]; rfl) (hst (.account c.partitionKey) rfl)]
    exact h
  · refine (local_operates (keepsId_operate op c.effectiveAmount) c.partitionKey).congr fun s t => ?_
    rw [transition_operation sm hc]
    simp only [bind_ok, onAccount_ok (keepsId_operate op c.effectiveAmount), pure_def,
      EStateM.Result.ok.injEq]
    constructor
    · intro h
      obtain ⟨_, _, _, ⟨rfl, ht⟩, _, rfl⟩ := h
      exact ht
    · intro h
      exact ⟨_, _, t, ⟨rfl, h⟩, rfl, rfl⟩

theorem local_transfer {source dest : String} (hc : c.commandType = .commitInternalTransfer)
    (hp : c.transferParts = some (source, dest)) :
    Local LedgerState.content ({.account source} ∪ {.account dest}) (Applied sm c) := by
  refine local_of_transition (fun s t _ _ => ?_) ?_
  · unfold validate
    rw [hc]
    rfl
  · have hcomp := (local_operates (keepsId_operate .debit c.amount) source).comp
      (local_operates (keepsId_operate .credit c.amount) dest)
    refine hcomp.congr fun s t => ?_
    rw [transition_transfer sm hc hp]
    simp only [transfer, bind_ok, onAccount_ok (keepsId_operate _ c.amount), pure_def,
      EStateM.Result.ok.injEq]
    constructor
    · intro h
      obtain ⟨_, _, m, ⟨rfl, hm⟩, _, _, ⟨rfl, ht⟩, _, rfl⟩ := h
      exact ⟨m, hm, ht⟩
    · intro h
      obtain ⟨m, hm, ht⟩ := h
      exact ⟨_, _, m, ⟨rfl, hm⟩, _, t, ⟨rfl, ht⟩, rfl, rfl⟩

theorem local_of_refused (h : ∀ s s', ¬ Applied sm c s s') : Local LedgerState.content F (Applied sm c) :=
  ⟨fun happlied => absurd happlied (h _ _), fun happlied => absurd happlied (h _ _)⟩

theorem local_balance (hc : c.commandType.group = .balance) :
    Local LedgerState.content c.footprint (Applied sm c) := by
  rcases LedgerCommandType.touchesAccounts_iff.mpr hc with hop | htransfer
  · obtain ⟨op, hop⟩ := Option.isSome_iff_exists.mp hop
    have hne : c.commandType ≠ .commitInternalTransfer := by
      intro h
      rw [h] at hop
      cases hop
    refine (local_operation hop).mono (Set.singleton_subset_iff.mpr ⟨hc, ?_⟩)
    rw [LedgerCommand.accountIds, if_neg hne]
    exact List.mem_singleton_self _
  · cases hp : c.transferParts with
    | none =>
      refine local_of_refused fun s s' h => ?_
      obtain ⟨r, h⟩ := h
      obtain ⟨_, affected, t, ht, _⟩ := (apply_ok sm).mp h
      unfold transition at ht
      rw [htransfer, hp] at ht
      cases ht
    | some parts =>
      have hids : c.accountIds = [parts.1, parts.2] := by
        rw [LedgerCommand.accountIds, if_pos htransfer, hp]
      have htouches {id : String} (h : id ∈ [parts.1, parts.2]) : c.Touches (.account id) := by
        refine ⟨hc, ?_⟩
        rw [hids]
        exact h
      refine (local_transfer htransfer hp).mono (Set.union_subset ?_ ?_)
      · exact Set.singleton_subset_iff.mpr (htouches List.mem_cons_self)
      · exact Set.singleton_subset_iff.mpr
          (htouches (List.mem_cons_of_mem _ (List.mem_singleton_self _)))

theorem local_utxo (hc : c.commandType.group = .utxo) :
    Local LedgerState.content c.footprint (Applied sm c) := by
  have hiff (s s' : LedgerState) :
      Applied sm c s s' ↔ ∃ t, MovesUtxo sm c s t ∧ s' = bumpVersion t := by
    unfold Applied
    simp [apply_utxo sm hc]
  cases ho : OutPoint.fromCanonicalString c.partitionKey with
  | error e =>
    refine local_of_refused fun s s' h => ?_
    obtain ⟨_, ⟨o, _, ho', _⟩, _⟩ := (hiff s s').mp h
    cases ho.symm.trans ho'
  | ok o =>
    refine ((local_bumped (local_movesUtxo sm ho)).congr hiff).mono ?_
    exact Set.singleton_subset_iff.mpr (.inl ⟨hc, ho⟩)

theorem local_reorganization (hc : c.commandType.group = .reorganization) :
    Local LedgerState.content c.footprint (Applied sm c) := by
  have hiff (s s' : LedgerState) :
      Applied sm c s s' ↔ ∃ p, sm.reorgPayload c = .ok p ∧
        s' = bumpVersion { s with utxos := p.reorganize c.createdAtBucket s.utxos } := by
    unfold Applied
    simp [apply_reorganization sm (reorganization_iff.mp hc)]
  cases hp : sm.reorgPayload c with
  | error e =>
    refine local_of_refused fun s s' h => ?_
    obtain ⟨p, hp', _⟩ := (hiff s s').mp h
    cases hp.symm.trans hp'
  | ok p =>
    refine ((local_bumped (local_reorganize p c.createdAtBucket)).congr fun s s' => ?_).mono ?_
    · rw [hiff]
      simp [hp]
    · intro k hk
      obtain ⟨o, rfl⟩ := hk
      exact .inr hc

/-- A command that cannot fail. -/
theorem local_of_modify {f : LedgerState → LedgerState} {affected : List String}
    (hgroup : c.commandType.group = .intent ∨ c.commandType.group = .node ∨
      c.commandType.group = .none)
    (htransition : ∀ s, sm.transition c s = .ok affected (f s))
    (hf : Local LedgerState.content F fun s s' => s' = f s) (hF : F ⊆ c.footprint) :
    Local LedgerState.content c.footprint (Applied sm c) := by
  have hvalid (s : LedgerState) : sm.validate s c = .ok () := by
    unfold validate
    cases ht : c.commandType <;> rw [ht] at hgroup <;> first | rfl | exact absurd hgroup (by decide)
  refine (local_of_transition (fun _ t _ _ => hvalid t) (hf.congr fun s t => ?_)).mono hF
  simp [htransition, eq_comm]

theorem local_intent (hc : c.commandType.group = .intent) :
    Local LedgerState.content c.footprint (Applied sm c) := by
  have htransition (s : LedgerState) :
      sm.transition c s = .ok [c.partitionKey] (consume c.partitionKey s) := by
    unfold transition
    cases ht : c.commandType <;> rw [ht] at hc <;> first | rfl | cases hc
  have hconsume := local_modify (.intent c.partitionKey) (fun _ => true) fun s =>
    s.content_consume c.partitionKey
  exact local_of_modify (.inl hc) htransition hconsume (Set.singleton_subset_iff.mpr ⟨hc, rfl⟩)

theorem local_node (hc : c.commandType.group = .node) :
    Local LedgerState.content c.footprint (Applied sm c) := by
  have hnode {f : LedgerState → LedgerState} {g : Bool → Bool}
      (htransition : ∀ s, sm.transition c s = .ok ["membership"] (f s))
      (hf : ∀ s : LedgerState,
        (f s).content (.node c.partitionKey) = g (s.content (.node c.partitionKey)) ∧
          ∀ j, j ≠ .node c.partitionKey → (f s).content j = s.content j) :
      Local LedgerState.content c.footprint (Applied sm c) :=
    local_of_modify (.inr (.inl hc)) htransition (local_modify (.node c.partitionKey) g hf)
      (Set.singleton_subset_iff.mpr ⟨hc, rfl⟩)
  cases ht : c.commandType <;> rw [ht] at hc <;> try cases hc
  · refine hnode (f := addNode c.partitionKey) (g := fun _ => true) (fun s => ?_)
      fun s => s.content_addNode c.partitionKey
    unfold transition
    rw [ht]
    rfl
  · refine hnode (f := id) (g := id) (fun s => ?_) fun s => ⟨rfl, fun _ _ => rfl⟩
    unfold transition
    rw [ht]
    rfl
  · refine hnode (f := removeNode c.partitionKey) (g := fun _ => false) (fun s => ?_)
      fun s => s.content_removeNode c.partitionKey
    unfold transition
    rw [ht]
    rfl

/-- Withdrawals and snapshots only move the version counter. -/
theorem local_none (hc : c.commandType.group = .none) :
    Local LedgerState.content c.footprint (Applied sm c) := by
  have htransition : ∃ affected, ∀ s : LedgerState, sm.transition c s = .ok affected s := by
    unfold transition
    cases ht : c.commandType <;> rw [ht] at hc <;> first | exact ⟨_, fun _ => rfl⟩ | cases hc
  obtain ⟨affected, htransition⟩ := htransition
  exact local_of_modify (.inr (.inr hc)) htransition (.unseen fun _ _ => rfl) (Set.empty_subset _)

/-- **What a command touches is all it depends on.** -/
theorem local_applied (sm : StateMachine) (c : LedgerCommand) :
    Local LedgerState.content c.footprint (Applied sm c) := by
  cases hgroup : c.commandType.group with
  | balance => exact local_balance hgroup
  | utxo => exact local_utxo hgroup
  | reorganization => exact local_reorganization hgroup
  | intent => exact local_intent hgroup
  | node => exact local_node hgroup
  | none => exact local_none hgroup

/-! ### Either order -/

/-- What no command touches. -/
def frozen (s : LedgerState) : List JournalEntry × List Reservation × String × ConsensusProfile :=
  (s.journal, s.reservations, s.membership.clusterId, s.membership.activeProfile)

theorem frozen_apply {s s' : LedgerState} {r : StateTransitionReceipt}
    (h : sm.apply c s = .ok r s') : frozen s' = frozen s := by
  obtain ⟨_, affected, t, ht, rfl, _⟩ := (apply_ok sm).mp h
  have hframe : Preserves (fun s s' => frozen s' = frozen s) (sm.transition c) :=
    transition_field sm frozen (fun _ _ _ => rfl) (fun _ _ _ => rfl) (fun _ _ _ => rfl)
      fun _ _ _ => rfl
  have hkept : frozen t = frozen s := hframe.ok ht
  exact hkept

/-- States with distinct keys are told apart, up to order, by their cells and the rest. -/
theorem sameUpToOrder_of_content {s t : LedgerState} (hs : s.Distinct) (ht : t.Distinct)
    (hversion : s.version = t.version) (hfrozen : frozen s = frozen t)
    (h : ∀ k, s.content k = t.content k) : SameUpToOrder s t := by
  simp only [frozen, Prod.mk.injEq] at hfrozen
  obtain ⟨_, _, hcluster, hprofile⟩ := hfrozen
  have hintents (i : String) : i ∈ s.consumedIntents ↔ i ∈ t.consumedIntents := by
    have hi := h (.intent i)
    simp only [LedgerState.content] at hi
    rw [← List.contains_iff_mem, hi, List.contains_iff_mem]
  have hnodes (n : String) : n ∈ s.membership.nodes ↔ n ∈ t.membership.nodes := by
    have hn := h (.node n)
    simp only [LedgerState.content] at hn
    rw [← List.contains_iff_mem, hn, List.contains_iff_mem]
  exact
    { version := hversion
      clusterId := hcluster
      activeProfile := hprofile
      accounts := perm_of_find hs.accounts ht.accounts fun id => h (.account id)
      consumedIntents := (List.perm_ext_iff_of_nodup hs.consumedIntents ht.consumedIntents).mpr hintents
      nodes := (List.perm_ext_iff_of_nodup hs.nodes ht.nodes).mpr hnodes
      utxos := perm_of_find hs.utxos ht.utxos fun o => h (.utxo o) }

/-- **Independent commands commute.** If two commands that touch no cell in common are
accepted one after the other, then they are in the other order too, the states they
lead to differ in the order of their lists only, and have one root. -/
theorem apply_commute (sm : StateMachine) {c₁ c₂ : LedgerCommand} {s t u : LedgerState}
    {r₁ r₂ : StateTransitionReceipt} (hs : s.Distinct) (hc : Disjoint c₁.footprint c₂.footprint)
    (h₁ : sm.apply c₁ s = .ok r₁ t) (h₂ : sm.apply c₂ t = .ok r₂ u) :
    ∃ r₂' t' r₁' u', sm.apply c₂ s = .ok r₂' t' ∧ sm.apply c₁ t' = .ok r₁' u' ∧
      SameUpToOrder u u' ∧ u.journal = u'.journal ∧ u.reservations = u'.reservations ∧
      computeStateRoot sm.crypto u = computeStateRoot sm.crypto u' := by
  obtain ⟨t', u', ⟨r₂', h₂'⟩, ⟨r₁', h₁'⟩, hcontent⟩ :=
    (local_applied sm c₁).commute (local_applied sm c₂) hc ⟨r₁, h₁⟩ ⟨r₂, h₂⟩
  have hdistinct {c : LedgerCommand} {v w : LedgerState} {r : StateTransitionReceipt}
      (hv : v.Distinct) (h : sm.apply c v = .ok r w) : w.Distinct := by
    have hafter := distinct_apply sm c hv
    rw [after_ok h] at hafter
    exact hafter
  have hversion : u.version = u'.version := by
    rw [apply_version sm h₂, apply_version sm h₁, apply_version sm h₁', apply_version sm h₂']
  have hfrozen : frozen u = frozen u' := by
    rw [frozen_apply h₂, frozen_apply h₁, frozen_apply h₁', frozen_apply h₂']
  have hsame : SameUpToOrder u u' := sameUpToOrder_of_content (hdistinct (hdistinct hs h₁) h₂)
    (hdistinct (hdistinct hs h₂') h₁') hversion hfrozen hcontent
  simp only [frozen, Prod.mk.injEq] at hfrozen
  obtain ⟨hjournal, hreservations, _⟩ := hfrozen
  refine ⟨r₂', t', r₁', u', h₂', h₁', hsame, hjournal, hreservations, ?_⟩
  exact computeStateRoot_of_sameUpToOrder hsame (.of_eq hjournal) (.of_eq hreservations)

/-- Two new accounts, opened in either order. -/
theorem apply_commute_new_accounts :
    let alice := LedgerCommand.new plain.crypto "c1" .creditInternalBalance "alice" none "" 1 100
    let bob := LedgerCommand.new plain.crypto "c2" .creditInternalBalance "bob" none "" 1 100
    let s := LedgerState.empty (.singleNode "cluster-1" "node-1")
    ∃ r₂ t r₁ u, plain.apply bob s = .ok r₂ t ∧ plain.apply alice t = .ok r₁ u ∧
      SameUpToOrder (after (plain.apply bob) (after (plain.apply alice) s)) u := by
  intro alice bob s
  have hdisjoint : Disjoint alice.footprint bob.footprint := by
    refine Set.disjoint_left.mpr fun k halice hbob => ?_
    cases k with
    | account id =>
      have heq : "alice" = "bob" :=
        (List.mem_singleton.mp halice.2).symm.trans (List.mem_singleton.mp hbob.2)
      exact absurd heq (by decide)
    | utxo o => rcases halice with ⟨h, _⟩ | h <;> cases h
    | intent text => cases halice.1
    | node id => cases halice.1
  have h₁ : plain.apply alice s = .ok _ (after (plain.apply alice) s) := rfl
  have h₂ : plain.apply bob (after (plain.apply alice) s) =
      .ok _ (after (plain.apply bob) (after (plain.apply alice) s)) := rfl
  obtain ⟨r₂, t, r₁, u, hbob, halice, hsame, _⟩ :=
    apply_commute plain (LedgerState.distinct_empty "cluster-1" "node-1") hdisjoint h₁ h₂
  exact ⟨r₂, t, r₁, u, hbob, halice, hsame⟩

end StateMachine

end Kerosene.Ledger
