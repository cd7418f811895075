import Kerosene.Ledger.Error
import Kerosene.Lib.Digest
import Kerosene.Lib.Keyed
import Kerosene.Lib.Tables

/-! The crates the ledger calls, as parameters of everything that uses them:
SHA-256 (`sha2`), hexadecimal text (`hex`), Ed25519 verification
(`ed25519_dalek`) and JSON (`serde_json`); a database (`sled`) is a map. No
property of SHA-256 or of Ed25519 is assumed anywhere. Of hexadecimal text and
of JSON only round trips are. -/
namespace Kerosene.Ledger

open Lib.Encode Lib.Keyed Lib.Tables

structure Crypto where
  sha256 : Bytes → Vector UInt8 32
  hexEncode : Bytes → String
  /-- `none` for an odd length or a character that is no hexadecimal digit. -/
  hexDecode : String → Option Bytes
  /-- Whether 32 bytes are a public key, with the reason when they are not. -/
  verifyingKey : Vector UInt8 32 → Except String Unit
  /-- Whether a signature of a message verifies under a public key. -/
  verify : Vector UInt8 32 → Bytes → Vector UInt8 64 → Bool
  /-- Every byte is written with two digits. -/
  hexEncode_size : ∀ b, (hexEncode b).utf8ByteSize = 2 * b.length
  hexDecode_hexEncode : ∀ b, hexDecode (hexEncode b) = some b

namespace Crypto

variable (x : Crypto)

/-- A digest as hexadecimal text. -/
def sha256Hex (material : Bytes) : String := x.hexEncode (x.sha256 material).toList

theorem sha256Hex_ne_empty (material : Bytes) : x.sha256Hex material ≠ "" := by
  intro h
  have hsize := x.hexEncode_size (x.sha256 material).toList
  rw [← sha256Hex, h, Vector.length_toList] at hsize
  cases hsize

theorem sha256_eq_of_sha256Hex_eq {material material' : Bytes}
    (h : x.sha256Hex material = x.sha256Hex material') : x.sha256 material = x.sha256 material' := by
  have hdecode := congrArg x.hexDecode h
  rw [sha256Hex, sha256Hex, hexDecode_hexEncode, hexDecode_hexEncode, Option.some_inj] at hdecode
  exact Vector.toList_inj.mp hdecode

/-- SHA-256 and hexadecimal text as they are, and Ed25519 as a record of keys,
messages and signatures that verify, in hexadecimal: nothing outside the record
does. -/
def recorded (valid : List (String × String × String)) : Crypto where
  sha256 := Lib.Digest.sha256
  hexEncode := Lib.Digest.toHex
  hexDecode := Lib.Digest.fromHex
  verifyingKey key :=
    if valid.any (fun entry => entry.1 == Lib.Digest.toHex key.toList) then .ok ()
    else .error "signature error"
  verify key message signature :=
    decide ((Lib.Digest.toHex key.toList, Lib.Digest.toHex message,
      Lib.Digest.toHex signature.toList) ∈ valid)
  hexEncode_size := Lib.Digest.toHex_size
  hexDecode_hexEncode := Lib.Digest.fromHex_toHex

end Crypto

/-- A byte string of a required length. -/
def toVector (n : Nat) (b : Bytes) : Option (Vector UInt8 n) :=
  if h : b.toArray.size = n then some ⟨b.toArray, h⟩ else none

theorem toVector_eq_some {n : Nat} {b : Bytes} {v : Vector UInt8 n} :
    toVector n b = some v ↔ b = v.toList := by
  unfold toVector
  split
  case isTrue h =>
    rw [Option.some_inj]
    constructor
    · intro hv
      rw [← hv]
      rfl
    · intro hb
      exact Vector.toList_inj.mp hb
  case isFalse h =>
    constructor
    · intro hv
      cases hv
    · intro hb
      rw [hb] at h
      exact absurd v.length_toList h

/-! ### JSON and the database -/

/-- `serde_json` for one type: what was serialized is read back. -/
structure Json (α : Type) where
  toVec : α → Except String Bytes
  fromSlice : Bytes → Except String α
  fromSlice_toVec : ∀ {a b}, toVec a = .ok b → fromSlice b = .ok a

namespace Json

variable {α : Type} (json : Json α)

def serialize (value : α) : Except LedgerError Bytes :=
  match json.toVec value with
  | .ok bytes => .ok bytes
  | .error e => .error (.invariantViolation ("serialization error: " ++ e))

def deserialize (bytes : Bytes) : Except LedgerError α :=
  match json.fromSlice bytes with
  | .ok value => .ok value
  | .error e => .error (.invariantViolation ("deserialization error: " ++ e))

theorem deserialize_serialize {value : α} {bytes : Bytes} (h : json.serialize value = .ok bytes) :
    json.deserialize bytes = .ok value := by
  unfold serialize at h
  cases hv : json.toVec value with
  | error e =>
    rw [hv] at h
    cases h
  | ok b =>
    rw [hv] at h
    cases h
    rw [deserialize, json.fromSlice_toVec hv]

/-- The answers on record; any other value or text is refused. -/
def recorded [DecidableEq α] (answers : List (α × Bytes)) (h : (answers.map Prod.snd).Nodup) :
    Json α where
  toVec value :=
    match find Prod.fst value answers with
    | some entry => .ok entry.2
    | none => .error "not on record"
  fromSlice bytes :=
    match find Prod.snd bytes answers with
    | some entry => .ok entry.1
    | none => .error "expected value at line 1 column 1"
  fromSlice_toVec := by
    intro value bytes hto
    cases hv : find Prod.fst value answers with
    | none =>
      rw [hv] at hto
      cases hto
    | some entry =>
      rw [hv] at hto
      cases hto
      have hmem := mem_of_find hv
      cases hb : find Prod.snd entry.2 answers with
      | none => exact absurd rfl (find_eq_none.mp hb entry hmem)
      | some other =>
        have hsame := List.inj_on_of_nodup_map h (mem_of_find hb) hmem (key_of_find hb)
        simp only [hsame, key_of_find hv]

end Json

/-- A database: byte strings by byte strings. -/
abbrev Db := Table Bytes Bytes

end Kerosene.Ledger
