import Kerosene.Ledger.Utxos

/-! Replacement by fee (`chain.rs`), against the terminal states.

`applyRbfReplacement` marks the outputs of the replaced transaction and then adds
those of the replacement that are not tracked. It passes over entries that are
already replaced, but not over spent ones, which are just as terminal
(`applyRbfReplacement_respects`): a spent output of the transaction becomes a
replaced one, and the record of its spending stays behind in its other fields. -/
namespace Kerosene.Ledger

open Lib.Inplace Lib.Keyed

/-- In a state that nothing follows. -/
def UtxoEntry.isTerminal (u : UtxoEntry) : Bool := u.state == .replaced || u.state == .spent

namespace Rbf

/-- An output of the replaced transaction that is not marked yet. -/
def isOriginal (replacedTxid : String) (u : UtxoEntry) : Bool :=
  u.outpoint.txid == replacedTxid && u.state != .replaced

/-- Marks an original output and releases its reservation, if any. -/
def replace (replacedTxid : String) (u : UtxoEntry) : UtxoEntry :=
  if isOriginal replacedTxid u then
    match u.reservedBy with
    | some _ => { u with reservedBy := none, reservedAtBucket := none, state := .replaced }
    | none => { u with state := .replaced }
  else u

/-- Adds the replacement's UTXOs that are not tracked yet, in order. -/
def addReplacements : List UtxoEntry → List UtxoEntry → List UtxoEntry
  | [], utxos => utxos
  | newUtxo :: rest, utxos =>
    let key := newUtxo.canonicalKey
    if utxos.any fun u => u.canonicalKey == key then addReplacements rest utxos
    else addReplacements rest (utxos ++ [{ newUtxo with state := .seen }])

end Rbf

/-- Never fails; returns the holders of the released reservations. -/
def applyRbfReplacement (replacedTxid : String) (replacementUtxos : List UtxoEntry) :
    EStateM LedgerError (List UtxoEntry) (List String) := do
  let utxos ← get
  let releasedReservations :=
    (utxos.filter (Rbf.isOriginal replacedTxid)).filterMap UtxoEntry.reservedBy
  set (Rbf.addReplacements replacementUtxos (utxos.map (Rbf.replace replacedTxid)))
  return releasedReservations

namespace Rbf

variable {replacedTxid : String}

/-! ### One entry -/

theorem isOriginal_iff {u : UtxoEntry} :
    isOriginal replacedTxid u = true ↔ u.outpoint.txid = replacedTxid ∧ u.state ≠ .replaced := by
  simp [isOriginal]

theorem replace_outpoint (replacedTxid : String) (u : UtxoEntry) :
    (replace replacedTxid u).outpoint = u.outpoint := by
  unfold replace
  split
  · split <;> rfl
  · rfl

/-- The reservation of an original output is gone, any other one stays. -/
theorem replace_reservedBy (u : UtxoEntry) :
    (replace replacedTxid u).reservedBy =
      if isOriginal replacedTxid u then none else u.reservedBy := by
  unfold replace
  split
  · split
    · rfl
    · assumption
  · rfl

theorem replace_of_not_original {u : UtxoEntry} (h : ¬isOriginal replacedTxid u = true) :
    replace replacedTxid u = u := if_neg h

theorem replace_of_original {u : UtxoEntry} (h : isOriginal replacedTxid u = true) :
    replace replacedTxid u = { u with
      state := .replaced
      reservedBy := none
      reservedAtBucket := if u.reservedBy = none then u.reservedAtBucket else none } := by
  unfold replace
  rw [if_pos h]
  cases hheld : u.reservedBy with
  | none => rfl
  | some holder => rfl

/-! ### The replacement's outputs -/

theorem addReplacements_tracked {l rest : List UtxoEntry} {e : UtxoEntry}
    (h : find UtxoEntry.outpoint e.outpoint l ≠ none) :
    addReplacements (e :: rest) l = addReplacements rest l := by
  rw [addReplacements, if_pos (tracked_iff.mpr h)]

theorem addReplacements_new {l rest : List UtxoEntry} {e : UtxoEntry}
    (h : find UtxoEntry.outpoint e.outpoint l = none) :
    addReplacements (e :: rest) l = addReplacements rest (l ++ [{ e with state := .seen }]) := by
  rw [addReplacements, if_neg (fun htracked => tracked_iff.mp htracked h)]

/-- What is tracked stays where it stands, whatever is added. -/
theorem isPrefix_addReplacements (new l : List UtxoEntry) : l <+: addReplacements new l := by
  induction new generalizing l with
  | nil => exact List.prefix_rfl
  | cons e rest ih =>
    by_cases h : find UtxoEntry.outpoint e.outpoint l = none
    · rw [addReplacements_new h]
      exact (List.prefix_append l _).trans (ih _)
    · rw [addReplacements_tracked h]
      exact ih l

theorem nodup_addReplacements {new l : List UtxoEntry} (hl : (l.map UtxoEntry.outpoint).Nodup) :
    ((addReplacements new l).map UtxoEntry.outpoint).Nodup := by
  induction new generalizing l with
  | nil => exact hl
  | cons e rest ih =>
    by_cases h : find UtxoEntry.outpoint e.outpoint l = none
    · rw [addReplacements_new h]
      exact ih (nodup_append_fresh hl h)
    · rw [addReplacements_tracked h]
      exact ih hl

/-! ### The whole list -/

section Result
variable {utxos : List UtxoEntry} (hdistinct : (utxos.map UtxoEntry.outpoint).Nodup)
  (replacements : List UtxoEntry)
include hdistinct

theorem nodup_result :
    ((addReplacements replacements (utxos.map (replace replacedTxid))).map
      UtxoEntry.outpoint).Nodup := by
  refine nodup_addReplacements ?_
  have hmap : (utxos.map (replace replacedTxid)).map UtxoEntry.outpoint =
      utxos.map UtxoEntry.outpoint := by
    rw [List.map_map]
    exact List.map_congr_left fun u _ => replace_outpoint replacedTxid u
  rw [hmap]
  exact hdistinct

/-- Under the outpoint of a tracked entry stands what the first pass made of it. -/
theorem find_result {u : UtxoEntry} (hu : u ∈ utxos) :
    find UtxoEntry.outpoint u.outpoint
        (addReplacements replacements (utxos.map (replace replacedTxid))) =
      some (replace replacedTxid u) := by
  have hmem : replace replacedTxid u ∈
      addReplacements replacements (utxos.map (replace replacedTxid)) :=
    (isPrefix_addReplacements _ _).subset (List.mem_map_of_mem hu)
  rw [← replace_outpoint replacedTxid u]
  exact find_of_mem (nodup_result hdistinct replacements) hmem

end Result

/-! ### Terminal states -/

/-- The holders whose reservation is gone: nobody holds the outpoint afterwards. -/
def clearedHolders (before after : List UtxoEntry) : List String :=
  before.filterMap fun u =>
    if (find UtxoEntry.outpoint u.outpoint after).bind UtxoEntry.reservedBy = none then u.reservedBy
    else none

/-- A replacement that leaves terminal entries and other transactions alone. -/
structure Respects (replacedTxid : String) (before : List UtxoEntry) (released : List String)
    (after : List UtxoEntry) : Prop where
  terminal : ∀ u ∈ before, u.isTerminal = true → find UtxoEntry.outpoint u.outpoint after = some u
  others : ∀ u ∈ before, u.outpoint.txid ≠ replacedTxid →
    find UtxoEntry.outpoint u.outpoint after = some u
  replaced : ∀ u ∈ before, u.outpoint.txid = replacedTxid → u.isTerminal = false →
    find UtxoEntry.outpoint u.outpoint after = some { u with
      state := .replaced
      reservedBy := none
      reservedAtBucket := if u.reservedBy = none then u.reservedAtBucket else none }
  distinct : (after.map UtxoEntry.outpoint).Nodup
  holders : released = clearedHolders before after

/-- The holders returned are those whose reservation is gone, in the order of the
entries. -/
theorem released_eq_clearedHolders {utxos : List UtxoEntry}
    (hdistinct : (utxos.map UtxoEntry.outpoint).Nodup) (replacements : List UtxoEntry) :
    (utxos.filter (isOriginal replacedTxid)).filterMap UtxoEntry.reservedBy =
      clearedHolders utxos (addReplacements replacements (utxos.map (replace replacedTxid))) := by
  rw [List.filterMap_filter]
  refine List.filterMap_congr fun u hu => ?_
  rw [find_result hdistinct replacements hu, Option.bind_some, replace_reservedBy]
  by_cases h : isOriginal replacedTxid u = true
  · rw [if_pos h, if_pos h, if_pos rfl]
  · rw [if_neg h, if_neg h]
    cases u.reservedBy <;> rfl

end Rbf

/-- A replacement respects the terminal states exactly when the replaced
transaction has no spent output. -/
theorem applyRbfReplacement_respects (replacedTxid : String) (utxos replacements : List UtxoEntry)
    (hdistinct : (utxos.map UtxoEntry.outpoint).Nodup) :
    (∃ released after, applyRbfReplacement replacedTxid replacements utxos = .ok released after ∧
        Rbf.Respects replacedTxid utxos released after) ↔
      ∀ u ∈ utxos, u.outpoint.txid = replacedTxid → u.state ≠ .spent := by
  have hfind : ∀ u ∈ utxos, find UtxoEntry.outpoint u.outpoint
      (Rbf.addReplacements replacements (utxos.map (Rbf.replace replacedTxid))) =
        some (Rbf.replace replacedTxid u) := fun u => Rbf.find_result hdistinct replacements
  refine ⟨fun h u hu htxid hspent => ?_, fun h => ?_⟩
  · -- A spent output of the transaction would have to stay, and is marked.
    obtain ⟨released, after, hrun, hrespects⟩ := h
    cases hrun
    have hkept := hrespects.terminal u hu (by simp [UtxoEntry.isTerminal, hspent])
    have horiginal : Rbf.isOriginal replacedTxid u = true :=
      Rbf.isOriginal_iff.mpr ⟨htxid, by rw [hspent]; decide⟩
    rw [hfind u hu, Rbf.replace_of_original horiginal] at hkept
    have hstate := congrArg UtxoEntry.state (Option.some.inj hkept)
    rw [hspent] at hstate
    cases hstate
  · refine ⟨_, _, rfl, ?_, ?_, ?_, Rbf.nodup_result hdistinct replacements,
      Rbf.released_eq_clearedHolders hdistinct replacements⟩
    · intro u hu hterminal
      rw [hfind u hu, Rbf.replace_of_not_original]
      intro horiginal
      obtain ⟨htxid, hstate⟩ := Rbf.isOriginal_iff.mp horiginal
      have := h u hu htxid
      simp [UtxoEntry.isTerminal, hstate, this] at hterminal
    · intro u hu htxid
      rw [hfind u hu, Rbf.replace_of_not_original]
      exact fun horiginal => htxid (Rbf.isOriginal_iff.mp horiginal).1
    · intro u hu htxid hterminal
      rw [hfind u hu, Rbf.replace_of_original]
      refine Rbf.isOriginal_iff.mpr ⟨htxid, fun hstate => ?_⟩
      simp [UtxoEntry.isTerminal, hstate] at hterminal

/-! ### A payment and its change

`tx1` pays to `bc1q-pay` and back to `bc1q-change`. -/
namespace Rbf

def payment : UtxoEntry := .newSeen ⟨"tx1", 0⟩ 70000 "bc1q-pay" 12

/-- The change, held by an intent. -/
def heldChange : UtxoEntry :=
  { UtxoEntry.newSeen ⟨"tx1", 1⟩ 29000 "bc1q-change" 12 with
    state := .spendable
    reservedBy := some "intent-7"
    reservedAtBucket := some 13 }

/-- The change, spent by `tx9`. -/
def spentChange : UtxoEntry :=
  { UtxoEntry.newSeen ⟨"tx1", 1⟩ 29000 "bc1q-change" 12 with
    state := .spent
    spentAtBucket := some 14
    spentByTxid := some "tx9" }

def higherFee : UtxoEntry := .newSeen ⟨"tx2", 0⟩ 70000 "bc1q-pay" 15

end Rbf

theorem replacement_of_unspent_respects :
    ∃ released after,
      applyRbfReplacement "tx1" [Rbf.higherFee] [Rbf.payment, Rbf.heldChange] = .ok released after ∧
        Rbf.Respects "tx1" [Rbf.payment, Rbf.heldChange] released after := by
  refine (applyRbfReplacement_respects "tx1" [Rbf.payment, Rbf.heldChange] [Rbf.higherFee] ?_).mpr ?_
  · decide
  · decide

/-- The spent output is made a replaced one. -/
theorem replacement_rewrites_spent :
    ([Rbf.payment, Rbf.spentChange].map UtxoEntry.outpoint).Nodup ∧
      Rbf.spentChange.isTerminal = true ∧
      ¬∃ released after,
        applyRbfReplacement "tx1" [Rbf.higherFee] [Rbf.payment, Rbf.spentChange] =
            .ok released after ∧
          Rbf.Respects "tx1" [Rbf.payment, Rbf.spentChange] released after := by
  refine ⟨by decide, rfl, fun h => ?_⟩
  obtain ⟨released, after, hrun, hrespects⟩ := h
  cases hrun
  have hkept := hrespects.terminal Rbf.spentChange (by decide) rfl
  have hfound : find UtxoEntry.outpoint Rbf.spentChange.outpoint
      (Rbf.addReplacements [Rbf.higherFee]
        ([Rbf.payment, Rbf.spentChange].map (Rbf.replace "tx1"))) =
      some { Rbf.spentChange with state := .replaced } := by decide
  rw [hfound] at hkept
  cases hkept

end Kerosene.Ledger
