import Kerosene.Ledger.Utxos

/-! Where UTXOs come from.

A detection makes an entry of its own from a payload that was checked. A
reorganization takes entries over from its payload as they are, apart from their
state and time: whether they are like detected ones (`new_entries_iff`), and
whether a later command can name them (`addressable_iff`), is up to the payload. -/
namespace Kerosene.Ledger

open Lib.Inplace Lib.Keyed

/-! ### New entries -/

/-- The fields of an entry that a detection leaves empty are, and those it checks are not. -/
structure UtxoEntry.AsDetected (e : UtxoEntry) : Prop where
  valueSats : 0 < e.valueSats
  address : e.address ≠ ""
  blockHeight : e.blockHeight = none
  confirmedAtBucket : e.confirmedAtBucket = none
  reservedBy : e.reservedBy = none
  reservedAtBucket : e.reservedAtBucket = none
  spentAtBucket : e.spentAtBucket = none
  spentByTxid : e.spentByTxid = none

/-- An entry taken over from a payload is the one a detection would have made exactly
when its other fields are. -/
theorem UtxoEntry.asDetected_iff {e : UtxoEntry} {bucket : UInt64} :
    (({ e with state := .seen, detectedAtBucket := bucket } : UtxoEntry) =
        .newSeen e.outpoint e.valueSats e.address bucket ∧ 0 < e.valueSats ∧ e.address ≠ "") ↔
      e.AsDetected := by
  constructor
  · intro h
    obtain ⟨hnew, hvalue, haddress⟩ := h
    simp only [newSeen, UtxoEntry.mk.injEq, true_and] at hnew
    obtain ⟨hheight, hconfirmed, hby, hat, hspent, hspentBy⟩ := hnew
    exact ⟨hvalue, haddress, hheight, hconfirmed, hby, hat, hspent, hspentBy⟩
  · intro h
    refine ⟨?_, h.valueSats, h.address⟩
    simp only [newSeen, UtxoEntry.mk.injEq, true_and]
    exact ⟨h.blockHeight, h.confirmedAtBucket, h.reservedBy, h.reservedAtBucket, h.spentAtBucket,
      h.spentByTxid⟩

namespace StateMachine

variable {sm : StateMachine} {c : LedgerCommand}

/-- Every UTXO that was not there before is as a detection makes it. -/
def NewAsDetected (c : LedgerCommand) (l l' : List UtxoEntry) : Prop :=
  ∀ u ∈ l', find UtxoEntry.outpoint u.outpoint l = none →
    u = .newSeen u.outpoint u.valueSats u.address c.createdAtBucket ∧ 0 < u.valueSats ∧
      u.address ≠ ""

/-- A property of every entry that a reorganization brings. -/
def BringsOnly (sm : StateMachine) (P : UtxoEntry → Prop) (c : LedgerCommand)
    (l : List UtxoEntry) : Prop :=
  ∀ p, c.commandType = .applyChainReorganization → sm.reorgPayload c = .ok p →
    ∀ e, p.Brings l e → P e

theorem bringsOnly_iff {P : UtxoEntry → Prop} {l : List UtxoEntry} {p : ReorgPayload}
    (hc : c.commandType = .applyChainReorganization) (hp : sm.reorgPayload c = .ok p) :
    BringsOnly sm P c l ↔ ∀ e, p.Brings l e → P e := by
  unfold BringsOnly
  simp [hc, hp]

/-- **When both ways in agree.** The UTXOs that a successful command adds are as a
detection makes them exactly when those that a reorganization brings are already. -/
theorem new_entries_iff {s s' : LedgerState} {r : StateTransitionReceipt}
    (h : sm.apply c s = .ok r s') :
    NewAsDetected c s.utxos s'.utxos ↔ BringsOnly sm UtxoEntry.AsDetected c s.utxos := by
  have hold {u : UtxoEntry} (hu : u ∈ s.utxos) {o : OutPoint} (ho : u.outpoint = o)
      (hnone : find UtxoEntry.outpoint o s.utxos = none) : False :=
    find_eq_none.mp hnone u hu ho
  by_cases hc : c.commandType = .applyChainReorganization
  · obtain ⟨p, hp, rfl, _⟩ := (apply_reorganization sm hc).mp h
    rw [bringsOnly_iff hc hp]
    constructor
    · intro hnew e he
      exact UtxoEntry.asDetected_iff.mp
        (hnew _ (ReorgPayload.mem_reorganize.mpr (.inr ⟨e, he, rfl⟩)) he.2)
    · intro hbrings u hu hnone
      rcases ReorgPayload.mem_reorganize.mp hu with ⟨v, hv, rfl⟩ | ⟨e, he, rfl⟩
      · exact (hold hv (ReorgPayload.disconnect_keeps _ v).1.symm hnone).elim
      · exact UtxoEntry.asDetected_iff.mpr (hbrings e he)
  · refine iff_of_true (fun u hu hnone => ?_) fun p hc' => absurd hc' hc
    have hstep := apply_utxos sm c s h
    generalize s'.utxos = l' at hstep hu
    cases hstep with
    | unchanged => exact (hold hu rfl hnone).elim
    | moved o u' ho hmove =>
      rcases mem_put hu with rfl | hu
      · rw [hmove.outpoint_eq] at hnone
        rw [hnone] at hmove
        cases hmove with
        | detected _ _ hvalue haddress => exact ⟨rfl, UInt64.pos_iff_ne_zero.mpr hvalue, haddress⟩
      · exact (hold hu rfl hnone).elim
    | reorganized p hc' _ => exact absurd hc' hc

/-- A reorganization that brings one output. -/
def bringing (txid : String) (valueSats : UInt64) (address : String) : ReorgPayload :=
  ⟨[], [.newSeen ⟨txid, 0⟩ valueSats address 100]⟩

/-- Its text in a command. -/
def bringingText (txid : String) (valueSats : UInt64) (address : String) : String :=
  "\x7b\"disconnected_txids\":[],\"new_utxos\":[\x7b\"outpoint\":\x7b\"txid\":\"" ++ txid ++
    "\",\"vout\":0\x7d,\"value_sats\":" ++ toString valueSats ++ ",\"address\":\"" ++ address ++
    "\",\"state\":\"Seen\",\"detected_at_bucket\":100\x7d]\x7d"

theorem mem_reorganize_bringing (txid : String) (valueSats : UInt64) (address : String) :
    .newSeen ⟨txid, 0⟩ valueSats address 200 ∈ (bringing txid valueSats address).reorganize 200 [] := by
  refine ReorgPayload.mem_reorganize.mpr (.inr
    ⟨.newSeen ⟨txid, 0⟩ valueSats address 100, ⟨?_, rfl⟩, rfl⟩)
  rw [bringing, find_cons, if_pos rfl]

/-- A new output like those that are detected. -/
theorem new_entries_iff_tx1 :
    let text := bringingText "tx1" 50000 "addr1"
    let sm := recorded [] [(text, bringing "tx1" 50000 "addr1")]
    ∃ r s', sm.apply (reorgCommand text) (tracking []) = .ok r s' ∧
      NewAsDetected (reorgCommand text) (tracking []).utxos s'.utxos := by
  intro text sm
  obtain ⟨r, h⟩ := apply_recorded text (bringing "tx1" 50000 "addr1") (tracking [])
  refine ⟨r, _, h, (new_entries_iff h).mpr fun p _ hp e he => ?_⟩
  rw [reorgPayload_recorded] at hp
  cases hp
  rw [List.mem_singleton.mp (mem_of_find he.1)]
  exact ⟨by decide, by decide, rfl, rfl, rfl, rfl, rfl, rfl⟩

/-- An output of no value and at no address is taken over as well. -/
theorem worthless_output_tracked :
    let text := bringingText "tx1" 0 ""
    let sm := recorded [] [(text, bringing "tx1" 0 "")]
    ∃ r s', sm.apply (reorgCommand text) (tracking []) = .ok r s' ∧
      ¬ NewAsDetected (reorgCommand text) (tracking []).utxos s'.utxos := by
  intro text sm
  obtain ⟨r, h⟩ := apply_recorded text (bringing "tx1" 0 "") (tracking [])
  refine ⟨r, _, h, fun hnew => ?_⟩
  exact (hnew _ (mem_reorganize_bringing "tx1" 0 "") rfl).2.2 rfl

/-! ### Keys of entries -/

/-- Every outpoint is the one that its key names. -/
def Addressable (l : List UtxoEntry) : Prop :=
  ∀ u ∈ l, OutPoint.fromCanonicalString u.canonicalKey = .ok u.outpoint

theorem addressable_iff_colon {l : List UtxoEntry} :
    Addressable l ↔ ∀ u ∈ l, ':' ∉ u.outpoint.txid.toList :=
  forall₂_congr fun _ _ => OutPoint.fromCanonicalString_toCanonicalString

theorem addressable_put {l : List UtxoEntry} {u : UtxoEntry} (hu : ':' ∉ u.outpoint.txid.toList) :
    Addressable (put UtxoEntry.outpoint u l) ↔ Addressable l := by
  simp only [addressable_iff_colon]
  constructor
  · intro h v hv
    by_cases heq : v.outpoint = u.outpoint
    · rw [heq]
      exact hu
    · exact h v (mem_put_of_ne hv heq)
  · intro h v hv
    rcases mem_put hv with rfl | hv
    · exact hu
    · exact h v hv

theorem addressable_reorganize {p : ReorgPayload} {bucket : UInt64} {l : List UtxoEntry} :
    Addressable (p.reorganize bucket l) ↔
      Addressable l ∧ ∀ e, p.Brings l e → ':' ∉ e.outpoint.txid.toList := by
  simp only [addressable_iff_colon, ReorgPayload.mem_reorganize]
  constructor
  · intro h
    constructor
    · intro u hu
      have hkept := h _ (.inl ⟨u, hu, rfl⟩)
      rw [(ReorgPayload.disconnect_keeps p.disconnectedTxids u).1] at hkept
      exact hkept
    · intro e he
      have hnew := h _ (.inr ⟨e, he, rfl⟩)
      exact hnew
  · intro h u hu
    rcases hu with ⟨v, hv, rfl⟩ | ⟨e, he, rfl⟩
    · rw [(ReorgPayload.disconnect_keeps p.disconnectedTxids v).1]
      exact h.1 v hv
    · exact h.2 e he

/-- A call leaves addressable entries exactly when it finds such, and brings no others. -/
theorem addressable_after_apply (sm : StateMachine) (s : LedgerState) (c : LedgerCommand) :
    Addressable (after (sm.apply c) s).utxos ↔
      Addressable s.utxos ∧ BringsOnly sm (fun e => ':' ∉ e.outpoint.txid.toList) c s.utxos := by
  by_cases hreorg : ∃ p, c.commandType = .applyChainReorganization ∧ sm.reorgPayload c = .ok p
  · obtain ⟨p, hc, hp⟩ := hreorg
    rw [after_ok ((apply_reorganization sm hc).mpr ⟨p, hp, rfl, rfl⟩), bringsOnly_iff hc hp]
    exact addressable_reorganize
  · have hbrings : BringsOnly sm (fun e => ':' ∉ e.outpoint.txid.toList) c s.utxos :=
      fun p hc hp => absurd ⟨p, hc, hp⟩ hreorg
    rw [and_iff_left hbrings]
    have hstep := after_apply_utxos sm c s
    generalize (after (sm.apply c) s).utxos = l' at hstep
    cases hstep with
    | unchanged => rfl
    | moved o u ho hmove =>
      refine addressable_put ?_
      rw [hmove.outpoint_eq]
      exact OutPoint.colon_not_mem_of_fromCanonicalString ho
    | reorganized p hc hp => exact absurd ⟨p, hc, hp⟩ hreorg

/-- **When every UTXO can be named.** After a run from an empty ledger each UTXO is the
one that its key names exactly when no reorganization on the way brought one whose
transaction id has a colon. -/
theorem addressable_iff (sm : StateMachine) (membership : MembershipView) (l : List LedgerCommand) :
    (∀ u ∈ (run sm.apply l (.empty membership)).utxos,
        OutPoint.fromCanonicalString u.canonicalKey = .ok u.outpoint) ↔
      Admissible sm.apply
        (fun s c => BringsOnly sm (fun e => ':' ∉ e.outpoint.txid.toList) c s.utxos) l
        (.empty membership) := by
  have hempty : Addressable (LedgerState.empty membership).utxos :=
    fun u hu => absurd hu List.not_mem_nil
  have hrun := @run_iff_admissible _ _ _ _ sm.apply _ (fun s => Addressable s.utxos)
    sm.addressable_after_apply l (.empty membership)
  rw [and_iff_right hempty] at hrun
  exact hrun

/-- The key of an output of a transaction `a:b` is cut after `a`. -/
theorem colon_not_addressable :
    let text := bringingText "a:b" 50000 "addr1"
    let sm := recorded [] [(text, bringing "a:b" 50000 "addr1")]
    ¬ ∀ u ∈ (run sm.apply [reorgCommand text] (.empty (.singleNode "cluster-1" "node-1"))).utxos,
      OutPoint.fromCanonicalString u.canonicalKey = .ok u.outpoint := by
  intro text sm haddressable
  obtain ⟨r, h⟩ := apply_recorded text (bringing "a:b" 50000 "addr1")
    (.empty (.singleNode "cluster-1" "node-1"))
  rw [run, run, after_ok h] at haddressable
  have hkey := haddressable _ (mem_reorganize_bringing "a:b" 50000 "addr1")
  exact OutPoint.fromCanonicalString_toCanonicalString.mp hkey (by decide)

end StateMachine

end Kerosene.Ledger
