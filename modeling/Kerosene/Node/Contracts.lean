import Kerosene.Ledger.Crates
import Kerosene.Lib.Inplace

/-! The data nodes exchange, and the crates that give it meaning.

The records are those of `kerosene_contracts`, with the fields the node reads.
What that crate computes on them (canonical hashes, bytes to sign, member ids) and
the parser of `url` are parameters, next to the ones the ledger has. -/
namespace Kerosene.Node

open Lib.Encode Lib.Inplace Ledger

inductive DiscoveryPlane where
  | bank
  | vault
  deriving DecidableEq, Repr

/-! ### Trust bundles and manifests -/

structure TrustMember where
  memberId : String
  rootPublicKey : String
  deriving DecidableEq, Repr

structure TrustPlane where
  threshold : UInt16
  members : List TrustMember
  deriving DecidableEq, Repr

structure GenesisTrustBundleV1 where
  contractVersion : String
  networkId : String
  bank : TrustPlane
  vault : TrustPlane
  deriving DecidableEq, Repr

inductive MembershipPhase where
  | stable
  | joint
  deriving DecidableEq, Repr

structure ManifestMember where
  memberId : String
  rootPublicKey : String
  endpoint : String
  deriving DecidableEq, Repr

structure ManifestSignature where
  signerId : String
  signature : String
  deriving DecidableEq, Repr

structure MembershipManifestV1 where
  contractVersion : String
  networkId : String
  plane : DiscoveryPlane
  epoch : UInt64
  phase : MembershipPhase
  previousManifestHash : String
  threshold : UInt16
  members : List ManifestMember
  nextEpoch : Option UInt64
  signatures : List ManifestSignature
  deriving DecidableEq, Repr

structure PeerHelloV1 where
  contractVersion : String
  networkId : String
  plane : DiscoveryPlane
  memberId : String
  rootPublicKey : String
  challenge : String
  issuedAtEpochMs : UInt64
  endpoint : String
  signature : String
  deriving DecidableEq, Repr

/-! ### The crates -/

/-- The parts of a parsed URL that are looked at. -/
structure Url where
  scheme : String
  username : String
  password : Option String
  query : Option String
  fragment : Option String
  path : String
  host : Option String

structure Crates extends Crypto where
  discoveryContractVersion : String
  canonicalHash : MembershipManifestV1 → String
  /-- `signing_bytes` of a manifest. -/
  manifestSigningBytes : MembershipManifestV1 → Bytes
  /-- `signing_bytes` of a hello. -/
  helloSigningBytes : PeerHelloV1 → Bytes
  memberId : String → Vector UInt8 32 → String
  parseUrl : String → Option Url

/-- Hexadecimal text of exactly `n` bytes. -/
def decodeArray (x : Crypto) (n : Nat) (value : String) : Option (Vector UInt8 n) := do
  let bytes ← x.hexDecode value
  toVector n bytes

theorem decodeArray_eq_some {x : Crypto} {n : Nat} {value : String} {v : Vector UInt8 n} :
    decodeArray x n value = some v ↔ x.hexDecode value = some v.toList := by
  unfold decodeArray
  cases x.hexDecode value with
  | none => simp
  | some bytes =>
    rw [Option.bind_eq_bind, Option.bind_some, toVector_eq_some, Option.some_inj]

/-! ### Endpoints -/

/-- A text without an ending it has. -/
def stripSuffix (value ending : Bytes) : Option Bytes :=
  if ending.isSuffixOf value then some (value.take (value.length - ending.length)) else none

/-- A letter of an onion service id: `a` to `z` or `2` to `7`. -/
def isOnionByte (b : UInt8) : Bool := (97 ≤ b && b ≤ 122) || (50 ≤ b && b ≤ 55)

/-- An HTTPS v3 onion URL and nothing else; two crates have this check, each with
an error of its own. -/
def validateOnionEndpoint {ε : Type} (x : Crates) (invalidEndpoint : ε) (endpoint : String) :
    Except ε Unit := do
  let url ← okOr (x.parseUrl endpoint) invalidEndpoint
  refuse (url.scheme ≠ "https" ∨ url.username ≠ "" ∨ url.password.isSome ∨ url.query.isSome ∨
    url.fragment.isSome ∨ (url.path ≠ "" ∧ url.path ≠ "/")) invalidEndpoint
  let host ← okOr url.host invalidEndpoint
  let serviceId ← okOr (stripSuffix (utf8 host) (utf8 ".onion")) invalidEndpoint
  refuse (serviceId.length ≠ 56 ∨ ¬ serviceId.all isOnionByte) invalidEndpoint

/-- Which endpoints pass does not depend on the error. -/
theorem validateOnionEndpoint_ok {ε ε' : Type} {x : Crates} {e : ε} {endpoint : String} (e' : ε')
    (h : validateOnionEndpoint x e endpoint = .ok ()) :
    validateOnionEndpoint x e' endpoint = .ok () := by
  simp only [validateOnionEndpoint, except_bind_ok, okOr_ok, refuse_ok] at h ⊢
  exact h

end Kerosene.Node
