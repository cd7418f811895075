import Kerosene.Ledger.Crates
import Kerosene.Ledger.Error
import Kerosene.Lib.Inplace

/-! UTXOs: their life cycle, chain reorganizations and the root of a UTXO set
(`chain.rs`). -/
namespace Kerosene.Ledger

open Lib.Encode Lib.Word

/-! ### Outpoints -/

@[ext] structure OutPoint where
  txid : String
  vout : UInt32
  deriving DecidableEq, Repr

namespace OutPoint

def toCanonicalString (o : OutPoint) : String := o.txid ++ ":" ++ toString o.vout

def fromCanonicalString (s : String) : Except LedgerError OutPoint :=
  match splitOnce ':' s with
  | none => .error (.invalidUtxoData
      ("cannot parse outpoint from '" ++ s ++ "': expected txid:vout"))
  | some (txid, voutStr) =>
    match parseU32 voutStr with
    | .error e => .error (.invalidUtxoData ("invalid vout '" ++ voutStr ++ "': " ++ e.display))
    | .ok vout => .ok ⟨txid, vout⟩

theorem toList_toCanonicalString (o : OutPoint) :
    o.toCanonicalString.toList = o.txid.toList ++ ':' :: (toString o.vout).toList := by
  rw [toCanonicalString, String.toList_append, String.toList_append, List.append_assoc]
  rfl

theorem colon_not_mem_vout (v : UInt32) : ':' ∉ (toString v).toList := by
  show ':' ∉ (toString v.toNat).toList
  rw [Nat.toString_eq_ofList_toDigits, String.toList_ofList]
  intro h
  have hdigit : ':'.isDigit = true := Nat.isDigit_of_mem_toDigits (by decide) (by decide) h
  cases hdigit

/-- The output index follows the last colon, so a key names one outpoint. -/
theorem toCanonicalString_injective : Function.Injective toCanonicalString := by
  intro o o' h
  have hlist := congrArg String.toList h
  rw [toList_toCanonicalString, toList_toCanonicalString] at hlist
  obtain ⟨htxid, hvout⟩ := eq_of_append_sep hlist (colon_not_mem_vout _) (colon_not_mem_vout _)
  have hparsed := parseU32_toString o.vout
  rw [String.toList_inj.mp hvout, parseU32_toString] at hparsed
  exact OutPoint.ext (String.toList_inj.mp htxid) (Except.ok.inj hparsed).symm

theorem fromCanonicalString_ok {s : String} {o : OutPoint} :
    fromCanonicalString s = .ok o ↔
      ∃ vout, splitOnce ':' s = some (o.txid, vout) ∧ parseU32 vout = .ok o.vout := by
  unfold fromCanonicalString
  cases splitOnce ':' s with
  | none => simp
  | some parts =>
    obtain ⟨txid, vout⟩ := parts
    simp only [Option.some.injEq, Prod.mk.injEq]
    cases hv : parseU32 vout with
    | error e =>
      simp only [reduceCtorEq, false_iff]
      intro h
      obtain ⟨_, ⟨_, rfl⟩, hparsed⟩ := h
      rw [hv] at hparsed
      cases hparsed
    | ok v =>
      constructor
      · intro h
        cases h
        exact ⟨vout, ⟨rfl, rfl⟩, hv⟩
      · intro h
        obtain ⟨_, ⟨rfl, rfl⟩, hparsed⟩ := h
        rw [hv] at hparsed
        rw [Except.ok.inj hparsed]

/-- A parsed outpoint has no colon in its transaction id. -/
theorem colon_not_mem_of_fromCanonicalString {s : String} {o : OutPoint}
    (h : fromCanonicalString s = .ok o) : ':' ∉ o.txid.toList := by
  obtain ⟨vout, hsplit, _⟩ := fromCanonicalString_ok.mp h
  exact (splitOnce_eq_some.mp hsplit).2

/-- A key is read back to its outpoint exactly when the transaction id has no colon:
keys are cut at the first one. -/
theorem fromCanonicalString_toCanonicalString {o : OutPoint} :
    fromCanonicalString o.toCanonicalString = .ok o ↔ ':' ∉ o.txid.toList := by
  constructor
  · exact colon_not_mem_of_fromCanonicalString
  · intro h
    refine fromCanonicalString_ok.mpr ⟨toString o.vout, ?_, parseU32_toString _⟩
    exact splitOnce_eq_some.mpr ⟨toList_toCanonicalString o, h⟩

end OutPoint

/-! ### UTXO entries -/

@[ext] structure UtxoEntry where
  outpoint : OutPoint
  valueSats : UInt64
  address : String
  state : OnchainState
  blockHeight : Option UInt64
  detectedAtBucket : UInt64
  confirmedAtBucket : Option UInt64
  reservedBy : Option String
  reservedAtBucket : Option UInt64
  spentAtBucket : Option UInt64
  spentByTxid : Option String
  deriving DecidableEq, Repr

namespace UtxoEntry

def newSeen (outpoint : OutPoint) (valueSats : UInt64) (address : String)
    (detectedAtBucket : UInt64) : UtxoEntry :=
  { outpoint, valueSats, address
    state := .seen
    blockHeight := none
    detectedAtBucket
    confirmedAtBucket := none
    reservedBy := none
    reservedAtBucket := none
    spentAtBucket := none
    spentByTxid := none }

def canonicalKey (u : UtxoEntry) : String := u.outpoint.toCanonicalString

theorem canonicalKey_inj {u v : UtxoEntry} :
    u.canonicalKey = v.canonicalKey ↔ u.outpoint = v.outpoint :=
  OutPoint.toCanonicalString_injective.eq_iff

end UtxoEntry

/-- Payload of a detection command. -/
structure DetectUtxoPayload where
  valueSats : UInt64
  address : String

/-- Payload of a reorganization command. -/
structure ReorgPayload where
  disconnectedTxids : List String
  newUtxos : List UtxoEntry

/-! ### Transitions -/

namespace UtxoTransitionGate

def allowed : OnchainState → OnchainState → Bool
  | .seen, .inMempool => true
  | .inMempool, .seen => true
  | .seen, .replaced => true
  | .inMempool, .confirming => true
  | .inMempool, .replaced => true
  | .confirming, .spendable => true
  | .confirming, .reorged => true
  | .spendable, .finalizedByPolicy => true
  | .spendable, .spent => true
  | .reorged, .seen => true
  | _, _ => false

def validateTransition (current target : OnchainState) : Except LedgerError Unit :=
  if !allowed current target then .error (.invalidUtxoTransition current target) else .ok ()

end UtxoTransitionGate

/-! ### Reorganizations -/

namespace ReorgHandler

/-- In a disconnected transaction and in a block. -/
def isDisconnected (disconnectedTxids : List String) (u : UtxoEntry) : Bool :=
  disconnectedTxids.contains u.outpoint.txid &&
    (u.state == .confirming || u.state == .spendable || u.state == .finalizedByPolicy)

def disconnect (disconnectedTxids : List String) (u : UtxoEntry) : UtxoEntry :=
  if isDisconnected disconnectedTxids u then
    { u with state := .reorged, blockHeight := none, confirmedAtBucket := none }
  else u

/-- Adds the new chain's UTXOs that are not tracked yet, in order; returns the
keys of those added. -/
def connect (currentBucket : UInt64) :
    List UtxoEntry → List UtxoEntry → List UtxoEntry × List String
  | [], utxos => (utxos, [])
  | newUtxo :: rest, utxos =>
    let key := newUtxo.canonicalKey
    if utxos.any fun u => u.canonicalKey == key then connect currentBucket rest utxos
    else
      let entry := { newUtxo with state := .seen, detectedAtBucket := currentBucket }
      let (utxos, affected) := connect currentBucket rest (utxos ++ [entry])
      (utxos, key :: affected)

/-- Never fails; returns the keys of the affected UTXOs. -/
def applyReorg (disconnectedTxids : List String) (newUtxos : List UtxoEntry)
    (currentBucket : UInt64) : EStateM LedgerError (List UtxoEntry) (List String) := do
  let utxos ← get
  let affected := (utxos.filter (isDisconnected disconnectedTxids)).map UtxoEntry.canonicalKey
  let (utxos, added) := connect currentBucket newUtxos (utxos.map (disconnect disconnectedTxids))
  set utxos
  return affected ++ added

end ReorgHandler

/-! ### The root of a UTXO set -/

def OnchainState.code : OnchainState → UInt8
  | .seen => 0
  | .inMempool => 1
  | .confirming => 2
  | .spendable => 3
  | .finalizedByPolicy => 4
  | .replaced => 5
  | .reorged => 6
  | .spent => 7

/-- A flag byte, then the value when there is one. -/
def encodeOption {α : Type} (encode : α → Bytes) : Option α → Bytes
  | some v => 1 :: encode v
  | none => [0]

/-- A text behind its length. -/
def encodeString (s : String) : Bytes := leBytes 8 (utf8 s).length ++ utf8 s

def UtxoEntry.encode (u : UtxoEntry) : Bytes :=
  [u.state.code] ++ le64 u.valueSats ++ le32 u.outpoint.vout ++ le64 u.detectedAtBucket ++
    encodeOption le64 u.blockHeight ++ encodeOption le64 u.confirmedAtBucket ++
    encodeOption le64 u.reservedAtBucket ++ encodeOption le64 u.spentAtBucket ++
    encodeOption encodeString u.reservedBy ++ encodeOption encodeString u.spentByTxid ++
    encodeString u.outpoint.txid ++ encodeString u.address ++ encodeString u.canonicalKey

/-- Digests in byte order. -/
def sortDigests (l : List (Vector UInt8 32)) : List (Vector UInt8 32) :=
  l.insertionSort fun a b => bytesLe a.toList b.toList

def computeUtxoRoot (x : Crypto) (utxos : List UtxoEntry) : String :=
  let sorted := utxos.insertionSort fun a b => bytesLe (utf8 a.canonicalKey) (utf8 b.canonicalKey)
  let itemHashes := sortDigests (sorted.map fun u => x.sha256 u.encode)
  x.sha256Hex (utf8 "KROOTv1:utxos" ++ itemHashes.flatMap Vector.toList)

end Kerosene.Ledger
