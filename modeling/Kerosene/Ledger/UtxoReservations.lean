import Kerosene.Ledger.Uniqueness

/-! Reservations of UTXOs.

A reservation is exclusive: once a holder has a UTXO, nothing but a release or a
spend takes it away (`reserved_until_freed`), and since what is spent stays spent,
two reservations have a release between them. What a reservation is not is safe
from the chain: a reorganization moves reserved UTXOs without releasing them and
takes reservations over from its payload. `coherent_iff` says exactly when the
reservations still make sense afterwards. -/
namespace Kerosene.Ledger

open Lib.Inplace Lib.Keyed

/-! ### Commands on an outpoint -/

namespace LedgerCommand

/-- The command has one of the types and names the outpoint. -/
def targets (types : List LedgerCommandType) (o : OutPoint) (c : LedgerCommand) : Bool :=
  c.commandType ∈ types ∧ OutPoint.fromCanonicalString c.partitionKey = .ok o

def reserves (o : OutPoint) : LedgerCommand → Bool := targets [.reserveUtxo] o

def releases (o : OutPoint) : LedgerCommand → Bool := targets [.releaseUtxo] o

def frees (o : OutPoint) : LedgerCommand → Bool := targets [.releaseUtxo, .markUtxoSpent] o

theorem targets_iff {types : List LedgerCommandType} {o : OutPoint} {c : LedgerCommand} :
    c.targets types o = true ↔
      c.commandType ∈ types ∧ OutPoint.fromCanonicalString c.partitionKey = .ok o := by
  unfold targets
  simp

/-- A command that names the outpoint without targeting it has another type. -/
theorem not_mem_of_targets {types : List LedgerCommandType} {o : OutPoint} {c : LedgerCommand}
    (h : c.targets types o = false) (ho : OutPoint.fromCanonicalString c.partitionKey = .ok o) :
    c.commandType ∉ types := by
  intro hmem
  rw [targets_iff.mpr ⟨hmem, ho⟩] at h
  cases h

end LedgerCommand

/-- The UTXO at an outpoint is there and has a holder. -/
def HeldBy (l : List UtxoEntry) (o : OutPoint) (holder : String) : Prop :=
  UtxoAt l o fun u => u.reservedBy = some holder

namespace StateMachine

variable {sm : StateMachine} {c : LedgerCommand}

/-! ### What a step does to a holder -/

/-- A holder keeps a UTXO over every step but a release and a spend. -/
theorem UtxoStep.reservedBy {u u' : UtxoEntry} (h : UtxoStep sm c u u') {holder : String}
    (hc : c.frees u.outpoint = false) (hheld : u.reservedBy = some holder) :
    u'.reservedBy = some holder := by
  cases h with
  | unchanged => exact hheld
  | moved ho hmove =>
    have htype := LedgerCommand.not_mem_of_targets hc ho
    cases hmove with
    | detectedAgain | tracked | confirmed | spendable => exact hheld
    | reserved _ _ _ hfree =>
      rw [hfree] at hheld
      cases hheld
    | released ht => exact absurd (by rw [ht]; decide) htype
    | spent ht => exact absurd (by rw [ht]; decide) htype
  | disconnected p _ _ =>
    rw [(ReorgPayload.disconnect_keeps p.disconnectedTxids u).2.2.2.1]
    exact hheld

/-- Spent is final. -/
theorem UtxoStep.spent {u u' : UtxoEntry} (h : UtxoStep sm c u u') (hspent : u.state = .spent) :
    u'.state = .spent := by
  cases h with
  | unchanged => exact hspent
  | moved ho hmove =>
    cases hmove with
    | tracked | reserved | released => exact hspent
    | spent => rfl
    | detectedAgain _ _ _ _ hstate =>
      rw [hspent] at hstate
      cases hstate
    | confirmed _ _ hstate | spendable _ hstate =>
      rw [hspent] at hstate
      cases hstate
  | disconnected p _ _ =>
    simp [ReorgHandler.disconnect, ReorgHandler.isDisconnected, hspent]

/-- Without a release a UTXO stays with its holder or is spent. -/
theorem UtxoStep.reservedBy_or_spent {u u' : UtxoEntry} (h : UtxoStep sm c u u') {holder : String}
    (hc : c.releases u.outpoint = false) (hheld : u.reservedBy = some holder ∨ u.state = .spent) :
    u'.reservedBy = some holder ∨ u'.state = .spent := by
  rcases hheld with hheld | hspent
  · by_cases hfrees : c.frees u.outpoint = false
    · exact .inl (h.reservedBy hfrees hheld)
    · obtain ⟨hmem, ho⟩ := LedgerCommand.targets_iff.mp (Bool.not_eq_false _ ▸ hfrees)
      have htype := LedgerCommand.not_mem_of_targets hc ho
      cases h with
      | unchanged => exact .inl hheld
      | moved _ hmove =>
        cases hmove with
        | spent => exact .inr rfl
        | released ht => exact absurd (by rw [ht]; decide) htype
        | detectedAgain ht | tracked ht | confirmed ht | spendable ht | reserved ht =>
          rw [ht] at hmem
          exact absurd hmem (by decide)
      | disconnected p ht _ =>
        rw [ht] at hmem
        exact absurd hmem (by decide)
  · exact .inr (h.spent hspent)

/-! ### Runs -/

/-- The UTXO at an outpoint satisfies a property. -/
def At (o : OutPoint) (P : UtxoEntry → Prop) (s : LedgerState) : Prop :=
  ∃ u, s.findUtxo o = some u ∧ P u

/-- What the steps of one UTXO preserve while no command of a kind succeeds on it, a run
without such a success preserves. -/
theorem at_run {o : OutPoint} {P : UtxoEntry → Prop} {counts : LedgerCommand → Bool}
    (hP : ∀ c u u', UtxoStep sm c u u' → u.outpoint = o → counts c = false → P u → P u')
    {l : List LedgerCommand} {s : LedgerState} (hs : At o P s)
    (hl : countOk sm.apply counts l s = 0) : At o P (run sm.apply l s) := by
  refine run_invariant_of_countOk (fun s c hs hc => ?_) hs hl
  obtain ⟨u, hu, hPu⟩ := hs
  cases happly : sm.apply c s with
  | error e s' =>
    rw [after_error happly]
    refine ⟨u, ?_, hPu⟩
    unfold LedgerState.findUtxo
    rw [utxos_of_apply_error sm c s happly]
    exact hu
  | ok r s' =>
    rw [after_ok happly]
    obtain ⟨u', hu', hstep⟩ := (apply_utxos sm c s happly).find_some hu
    exact ⟨u', hu', hP c u u' hstep (key_of_find hu) (hc r s' happly) hPu⟩

/-- A reservation that succeeds finds its UTXO free and leaves it with the holder. -/
theorem apply_reserves {o : OutPoint} (hc : c.reserves o) {s t : LedgerState}
    {r : StateTransitionReceipt} (h : sm.apply c s = .ok r t) :
    At o (fun u => u.reservedBy = none ∧ u.state ≠ .spent) s ∧
      At o (fun u => u.reservedBy = some c.authorizationCommitment) t := by
  obtain ⟨hmem, ho⟩ := LedgerCommand.targets_iff.mp hc
  have ht : c.commandType = .reserveUtxo := List.mem_singleton.mp hmem
  obtain ⟨_, ⟨o', u', ho', hmove, rfl⟩, rfl, _⟩ := (apply_utxo sm (by rw [ht]; rfl)).mp h
  cases Except.ok.inj (ho.symm.trans ho')
  have hfound : (bumpVersion (s.writeUtxo u')).findUtxo o = some u' := by
    show find UtxoEntry.outpoint o (put UtxoEntry.outpoint u' s.utxos) = some u'
    rw [find_put, if_pos hmove.outpoint_eq]
  generalize hu : s.findUtxo o = entry at hmove
  cases hmove with
  | reserved _ _ hstate hfree =>
    refine ⟨⟨_, hu, hfree, ?_⟩, _, hfound, rfl⟩
    rcases hstate with hstate | hstate <;> rw [hstate] <;> decide
  | detected ht' | detectedAgain ht' | tracked ht' | confirmed ht' | spendable ht' | released ht'
  | spent ht' =>
    rw [ht] at ht'
    cases ht'

/-- **Reservations are exclusive.** After a reservation that succeeds, the UTXO stays
with its holder for as long as no release and no spend of it succeeds; and another
reservation of it succeeds only after a release did. -/
theorem reserved_until_freed {s : LedgerState} (hs : (s.utxos.map UtxoEntry.outpoint).Nodup)
    {l : List LedgerCommand} {o : OutPoint} (hc : c.reserves o) {r : StateTransitionReceipt}
    {t : LedgerState} (h : sm.apply c (run sm.apply l s) = .ok r t) (l' : List LedgerCommand) :
    (countOk sm.apply (LedgerCommand.frees o) l' t = 0 →
      HeldBy (run sm.apply l' t).utxos o c.authorizationCommitment) ∧
    ∀ c' r' t', LedgerCommand.reserves o c' → sm.apply c' (run sm.apply l' t) = .ok r' t' →
      0 < countOk sm.apply (LedgerCommand.releases o) l' t := by
  have hheld := (apply_reserves hc h).2
  constructor
  · intro hnone
    have hnodup : ((run sm.apply (l ++ c :: l') s).utxos.map UtxoEntry.outpoint).Nodup :=
      preserves_run (R := fun s s' : LedgerState => (s.utxos.map UtxoEntry.outpoint).Nodup →
          (s'.utxos.map UtxoEntry.outpoint).Nodup) (fun _ h => h) (fun _ _ _ h h' hs => h' (h hs))
        (fun c s => (after_apply_utxos sm c s).nodup sm) _ s hs
    rw [run_append, run, after_ok h] at hnodup
    obtain ⟨u, hu, hu'⟩ := at_run (fun c u u' hstep ho hfrees => by
      subst ho
      exact hstep.reservedBy hfrees) hheld hnone
    exact utxoAt_of_find hnodup hu hu'
  · intro c' r' t' hc' h'
    by_contra hzero
    obtain ⟨u, hu, hheld'⟩ := at_run (P := fun u =>
        u.reservedBy = some c.authorizationCommitment ∨ u.state = .spent)
      (fun c u u' hstep ho hreleases => by
        subst ho
        exact hstep.reservedBy_or_spent hreleases)
      (hheld.imp fun u hu => ⟨hu.1, .inl hu.2⟩) (Nat.eq_zero_of_not_pos hzero)
    obtain ⟨v, hv, hfree, hstate⟩ := (apply_reserves hc' h').1
    cases Option.some.inj (hu.symm.trans hv)
    rcases hheld' with hheld' | hspent
    · rw [hfree] at hheld'
      cases hheld'
    · exact hstate hspent

def reserveFor (holder : String) : LedgerCommand :=
  .new plain.crypto "reserve-tx1-0" .reserveUtxo "tx1:0" none holder 1 160

/-- A second holder asks for a UTXO that is taken. -/
theorem reserved_until_freed_alice :
    HeldBy (run plain.apply [reserveFor "bob"]
      (after (plain.apply (reserveFor "alice")) (tracking [spendableUtxo]))).utxos
      ⟨"tx1", 0⟩ "alice" := by
  have h : plain.apply (reserveFor "alice") (run plain.apply [] (tracking [spendableUtxo])) =
      .ok _ (after (plain.apply (reserveFor "alice")) (tracking [spendableUtxo])) := rfl
  exact (reserved_until_freed (by decide) (by decide) h [reserveFor "bob"]).1 rfl

end StateMachine

/-! ### Reservations and the chain -/

/-- A reservation has a time and is of a UTXO that can be spent. -/
def UtxoEntry.Coherent (u : UtxoEntry) : Prop :=
  (u.reservedBy.isSome ↔ u.reservedAtBucket.isSome) ∧
    (u.reservedBy.isSome → u.state = .spendable ∨ u.state = .finalizedByPolicy)

theorem UtxoEntry.Coherent.of_free {u : UtxoEntry} (hby : u.reservedBy = none)
    (hat : u.reservedAtBucket = none) : u.Coherent := by
  unfold Coherent
  simp [hby, hat]

namespace StateMachine

variable {sm : StateMachine} {c : LedgerCommand}

theorem UtxoMove.coherent {o : OutPoint} {u' : UtxoEntry} {entry : Option UtxoEntry}
    (h : UtxoMove sm c o entry u') (hentry : ∀ u, entry = some u → u.Coherent) : u'.Coherent := by
  cases h with
  | detected => exact .of_free rfl rfl
  | tracked => exact hentry _ rfl
  | released => exact .of_free rfl rfl
  | spent => exact .of_free rfl rfl
  | reserved _ _ hstate => exact ⟨by simp, fun _ => hstate⟩
  | spendable => exact ⟨(hentry _ rfl).1, fun _ => .inl rfl⟩
  | detectedAgain _ _ _ _ hstate =>
    -- A reorganized UTXO that is coherent has no holder.
    obtain ⟨hsame, hheld⟩ := hentry _ rfl
    rw [hstate] at hheld
    refine ⟨hsame, fun hby => ?_⟩
    exact absurd (hheld hby) (by decide)
  | confirmed _ _ hgate =>
    obtain ⟨hsame, hheld⟩ := hentry _ rfl
    refine ⟨hsame, fun hby => ?_⟩
    rcases hheld hby with hstate | hstate <;> rw [hstate] at hgate <;> cases hgate

/-- Of the UTXOs that a reorganization disconnects or brings, none is reserved. -/
def SparesReservations (sm : StateMachine) (c : LedgerCommand) (l : List UtxoEntry) : Prop :=
  ∀ p, c.commandType = .applyChainReorganization → sm.reorgPayload c = .ok p →
    (∀ u ∈ l, u.reservedBy.isSome → u.outpoint.txid ∉ p.disconnectedTxids) ∧
    ∀ e, p.Brings l e → e.reservedBy = none ∧ e.reservedAtBucket = none

theorem coherent_reorganize {p : ReorgPayload} {bucket : UInt64} {l : List UtxoEntry}
    (hl : ∀ u ∈ l, u.Coherent) :
    (∀ u ∈ p.reorganize bucket l, u.Coherent) ↔
      (∀ u ∈ l, u.reservedBy.isSome → u.outpoint.txid ∉ p.disconnectedTxids) ∧
        ∀ e, p.Brings l e → e.reservedBy = none ∧ e.reservedAtBucket = none := by
  simp only [ReorgPayload.mem_reorganize]
  constructor
  · intro h
    constructor
    · intro u hu hheld htxid
      have hdisconnected : ReorgHandler.isDisconnected p.disconnectedTxids u = true := by
        unfold ReorgHandler.isDisconnected
        rcases (hl u hu).2 hheld with hstate | hstate <;> simp [hstate, htxid]
      have hcoherent := h _ (.inl ⟨u, hu, rfl⟩)
      unfold ReorgHandler.disconnect at hcoherent
      rw [if_pos hdisconnected] at hcoherent
      exact absurd (hcoherent.2 hheld) (by simp)
    · intro e he
      obtain ⟨hsame, hheld⟩ := h _ (.inr ⟨e, he, rfl⟩)
      cases hby : e.reservedBy with
      | none =>
        simp only [hby, Option.isSome_none, Bool.false_eq_true, false_iff, Bool.not_eq_true,
          Option.isSome_eq_false_iff, Option.isNone_iff_eq_none] at hsame
        exact ⟨rfl, hsame⟩
      | some holder =>
        simp only [hby, Option.isSome_some] at hheld
        exact absurd (hheld trivial) (by decide)
  · intro h u hu
    obtain ⟨hkept, hnew⟩ := h
    rcases hu with ⟨v, hv, rfl⟩ | ⟨e, he, rfl⟩
    · unfold ReorgHandler.disconnect
      split
      case isFalse => exact hl v hv
      case isTrue hdisconnected =>
        refine ⟨(hl v hv).1, fun hheld => ?_⟩
        unfold ReorgHandler.isDisconnected at hdisconnected
        simp only [Bool.and_eq_true, List.contains_eq_mem, decide_eq_true_eq] at hdisconnected
        exact absurd hdisconnected.1 (hkept v hv hheld)
    · exact .of_free (hnew e he).1 (hnew e he).2

/-- **When reservations survive a command.** From coherent reservations a successful
command leads to coherent reservations exactly when it is no reorganization that
disconnects a reserved UTXO or brings one along. -/
theorem coherent_iff {s s' : LedgerState} {r : StateTransitionReceipt}
    (hs : ∀ u ∈ s.utxos, u.Coherent) (h : sm.apply c s = .ok r s') :
    (∀ u ∈ s'.utxos, u.Coherent) ↔ SparesReservations sm c s.utxos := by
  by_cases hc : c.commandType = .applyChainReorganization
  · obtain ⟨p, hp, rfl, _⟩ := (apply_reorganization sm hc).mp h
    have hspares : SparesReservations sm c s.utxos ↔
        (∀ u ∈ s.utxos, u.reservedBy.isSome → u.outpoint.txid ∉ p.disconnectedTxids) ∧
          ∀ e, p.Brings s.utxos e → e.reservedBy = none ∧ e.reservedAtBucket = none := by
      unfold SparesReservations
      simp [hc, hp]
    rw [hspares]
    exact coherent_reorganize hs
  · refine iff_of_true (fun u hu => ?_) fun p hc' => absurd hc' hc
    have hstep := apply_utxos sm c s h
    generalize s'.utxos = l' at hstep hu
    cases hstep with
    | unchanged => exact hs u hu
    | moved o u' ho hmove =>
      rcases mem_put hu with rfl | hu
      · exact UtxoMove.coherent hmove fun v hv => hs v (mem_of_find hv)
      · exact hs u hu
    | reorganized p hc' _ => exact absurd hc' hc

/-- A UTXO with a holder. -/
def reservedUtxo : UtxoEntry :=
  { spendableUtxo with reservedBy := some "alice", reservedAtBucket := some 160 }

theorem coherent_reserved : ∀ u ∈ (tracking [reservedUtxo]).utxos, u.Coherent := by
  intro u hu
  rw [List.mem_singleton.mp hu]
  exact ⟨by decide, fun _ => .inl rfl⟩

/-- A reorganization of another transaction. -/
theorem coherent_iff_other :
    let text := "\x7b\"disconnected_txids\":[\"tx2\"],\"new_utxos\":[]\x7d"
    let sm := recorded [] [(text, ⟨["tx2"], []⟩)]
    ∃ r s', sm.apply (reorgCommand text) (tracking [reservedUtxo]) = .ok r s' ∧ ∀ u ∈ s'.utxos, u.Coherent := by
  intro text sm
  obtain ⟨r, h⟩ := apply_recorded text ⟨["tx2"], []⟩ (tracking [reservedUtxo])
  refine ⟨r, _, h, (coherent_iff coherent_reserved h).mpr fun p _ hp => ?_⟩
  rw [reorgPayload_recorded] at hp
  cases hp
  refine ⟨fun u hu _ => ?_, fun e he => ?_⟩
  · rw [List.mem_singleton.mp hu]
    decide
  · cases he.1

/-- The block of a reserved UTXO is disconnected and the reservation stays. -/
theorem reservation_outlives_block :
    let text := "\x7b\"disconnected_txids\":[\"tx1\"],\"new_utxos\":[]\x7d"
    let sm := recorded [] [(text, ⟨["tx1"], []⟩)]
    ((tracking [reservedUtxo]).utxos.map UtxoEntry.outpoint).Nodup ∧ (∀ u ∈ (tracking [reservedUtxo]).utxos, u.Coherent) ∧
      ∃ r s', sm.apply (reorgCommand text) (tracking [reservedUtxo]) = .ok r s' ∧ ¬ ∀ u ∈ s'.utxos, u.Coherent := by
  intro text sm
  obtain ⟨r, h⟩ := apply_recorded text ⟨["tx1"], []⟩ (tracking [reservedUtxo])
  refine ⟨by decide, coherent_reserved, r, _, h, fun hcoherent => ?_⟩
  have hspares := (coherent_reorganize coherent_reserved).mp hcoherent
  exact hspares.1 reservedUtxo List.mem_cons_self rfl List.mem_cons_self

end StateMachine

end Kerosene.Ledger
