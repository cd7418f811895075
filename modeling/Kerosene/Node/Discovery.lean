import Kerosene.Node.Membership

/-! Peers that prove who they are (`kerosene-identity-core`, `kerosene-discovery`).

A node hands out a challenge; a peer answers with a signed hello that carries it.
`authenticate` takes the challenge out of the store and only then looks the peer
up in the roster, so a peer that is no member has used its challenge up. -/
namespace Kerosene.Node

open Lib.Encode Lib.Inplace Lib.Tables Lib.Word Ledger

inductive IdentityError where
  | io (message : String)
  | invalidSecret
  | invalidPublicKey
  | invalidSignature
  | memberIdMismatch
  deriving DecidableEq, Repr

inductive DiscoveryError where
  | invalidEndpoint
  | scopeMismatch
  | clockSkew
  | challengeRejected
  | notMember
  | selfConnection
  | identity (error : IdentityError)
  | io (message : String)
  | json (message : String)
  | transport (message : String)
  deriving DecidableEq, Repr

def IdentityError.display : IdentityError → String
  | .io message => "identity key IO failed: " ++ message
  | .invalidSecret => "identity key must contain exactly 32 bytes encoded as lowercase hex"
  | .invalidPublicKey => "peer public key is invalid"
  | .invalidSignature => "peer signature is invalid"
  | .memberIdMismatch => "peer member ID does not match its network-bound root key"

def DiscoveryError.display : DiscoveryError → String
  | .invalidEndpoint => "only HTTPS v3 onion endpoints are accepted"
  | .scopeMismatch => "peer hello contract, network, or plane mismatch"
  | .clockSkew => "peer hello timestamp is outside the accepted window"
  | .challengeRejected => "challenge is unknown, expired, or already consumed"
  | .notMember => "peer is authenticated but is not a verified member"
  | .selfConnection => "a node cannot authenticate itself as a remote peer"
  | .identity error => "peer identity verification failed: " ++ error.display
  | .io message => "peer-store IO failed: " ++ message
  | .json message => "peer-store data is invalid: " ++ message
  | .transport message => "Tor transport failed: " ++ message

/-! ### Identities -/

/-- An Ed25519 key pair: the public key and what the secret one signs. -/
structure SigningKey where
  verifyingKey : Vector UInt8 32
  sign : Bytes → Vector UInt8 64

/-- An identity is known under the id of its own key. -/
structure NodeIdentity (x : Crates) where
  networkId : String
  plane : DiscoveryPlane
  signingKey : SigningKey
  memberId : String
  memberId_eq : memberId = x.memberId networkId signingKey.verifyingKey

namespace NodeIdentity

variable {x : Crates}

def fromSigningKey (networkId : String) (plane : DiscoveryPlane) (signingKey : SigningKey) :
    NodeIdentity x where
  networkId
  plane
  signingKey
  memberId := x.memberId networkId signingKey.verifyingKey
  memberId_eq := rfl

def rootPublicKeyHex (identity : NodeIdentity x) : String :=
  x.hexEncode identity.signingKey.verifyingKey.toList

def signHello (identity : NodeIdentity x) (challenge endpoint : String)
    (issuedAtEpochMs : UInt64) : PeerHelloV1 :=
  let hello : PeerHelloV1 :=
    { contractVersion := x.discoveryContractVersion
      networkId := identity.networkId
      plane := identity.plane
      memberId := identity.memberId
      rootPublicKey := identity.rootPublicKeyHex
      challenge
      issuedAtEpochMs
      endpoint
      signature := "" }
  { hello with
    signature := x.hexEncode (identity.signingKey.sign (x.helloSigningBytes hello)).toList }

end NodeIdentity

section Authentication
variable (x : Crates)

def verifyHelloSignature (hello : PeerHelloV1) : Except IdentityError Unit := do
  let publicBytes ← okOr (decodeArray x.toCrypto 32 hello.rootPublicKey) .invalidPublicKey
  (x.verifyingKey publicBytes).mapError fun _ => .invalidPublicKey
  refuse (x.memberId hello.networkId publicBytes ≠ hello.memberId) .memberIdMismatch
  let signatureBytes ← okOr (decodeArray x.toCrypto 64 hello.signature) .invalidSignature
  refuse (x.verify publicBytes (x.helloSigningBytes hello) signatureBytes = false) .invalidSignature

/-! ### Challenges -/

/-- Challenges handed out and not answered yet, each with the time it expires. -/
structure ChallengeStore where
  ttlMs : UInt64
  pending : Table String UInt64

namespace ChallengeStore

def new (ttlMs : UInt64) : ChallengeStore := ⟨max ttlMs 1, ∅⟩

/-- A challenge from 32 random bytes. -/
def issue (c : ChallengeStore) (bytes : Vector UInt8 32) (nowEpochMs : UInt64) :
    String × ChallengeStore :=
  let challenge := x.hexEncode bytes.toList
  (challenge, { c with pending := c.pending.insert challenge (saturatingAdd nowEpochMs c.ttlMs) })

def consume (challenge : String) (nowEpochMs : UInt64) : EStateM DiscoveryError ChallengeStore Unit := do
  let c ← get
  let live := retain (fun _ expiresAt => decide (nowEpochMs ≤ expiresAt)) c.pending
  set { c with pending := live.erase challenge }
  match live.lookup challenge with
  | some expiresAt => check (refuse (expiresAt < nowEpochMs) .challengeRejected)
  | none => throw .challengeRejected

end ChallengeStore

/-! ### Authentication -/

structure AuthenticatedPeer where
  memberId : String
  plane : DiscoveryPlane
  rootPublicKey : String
  endpoint : String
  authenticatedAtEpochMs : UInt64
  deriving DecidableEq, Repr

/-- What an authenticator has of its own; it shares the challenges and the
membership with the node. -/
structure PeerAuthenticator where
  networkId : String
  plane : DiscoveryPlane
  maxClockSkewMs : UInt64

/-- The checks a hello has to pass by itself. -/
def PeerAuthenticator.examine (a : PeerAuthenticator) (hello : PeerHelloV1) (nowEpochMs : UInt64) :
    Except DiscoveryError Unit := do
  refuse (hello.contractVersion ≠ x.discoveryContractVersion ∨ hello.networkId ≠ a.networkId ∨
    hello.plane ≠ a.plane) .scopeMismatch
  refuse (a.maxClockSkewMs < absDiff hello.issuedAtEpochMs nowEpochMs) .clockSkew
  validateOnionEndpoint x .invalidEndpoint hello.endpoint
  (verifyHelloSignature x hello).mapError .identity

def PeerAuthenticator.authenticate (a : PeerAuthenticator) (membership : MembershipVerifier)
    (hello : PeerHelloV1) (nowEpochMs : UInt64) :
    EStateM DiscoveryError ChallengeStore AuthenticatedPeer := do
  check (a.examine x hello nowEpochMs)
  ChallengeStore.consume hello.challenge nowEpochMs
  check (refuse (membership.isMember hello.memberId hello.rootPublicKey = false) .notMember)
  return { memberId := hello.memberId
           plane := hello.plane
           rootPublicKey := hello.rootPublicKey
           endpoint := hello.endpoint
           authenticatedAtEpochMs := nowEpochMs }

end Authentication

/-! ### What an authenticated peer has shown -/

theorem authenticate_ok {x : Crates} {a : PeerAuthenticator} {membership : MembershipVerifier}
    {hello : PeerHelloV1} {now : UInt64} {c c' : ChallengeStore} {peer : AuthenticatedPeer}
    (h : a.authenticate x membership hello now c = .ok peer c') :
    a.examine x hello now = .ok () ∧
      membership.isMember hello.memberId hello.rootPublicKey = true ∧
      peer = ⟨hello.memberId, hello.plane, hello.rootPublicKey, hello.endpoint, now⟩ := by
  unfold PeerAuthenticator.authenticate at h
  obtain ⟨_, _, hchecked, h⟩ := bind_ok.mp h
  obtain ⟨_, _, _, h⟩ := bind_ok.mp h
  obtain ⟨_, _, hlisted, h⟩ := bind_ok.mp h
  have hexamine := (check_eq_ok.mp hchecked).1
  have hmember := (check_eq_ok.mp hlisted).1
  rw [refuse_ok, Bool.not_eq_false] at hmember
  cases h
  exact ⟨hexamine, hmember, rfl⟩

theorem examine_ok {x : Crates} {a : PeerAuthenticator} {hello : PeerHelloV1} {now : UInt64}
    (h : a.examine x hello now = .ok ()) :
    hello.networkId = a.networkId ∧ hello.plane = a.plane := by
  simp only [PeerAuthenticator.examine, except_then_ok, refuse_ok, not_or, not_not] at h
  exact h.1.2

/-- A challenge that is pending and has not expired is consumed. -/
theorem consume_ok {c : ChallengeStore} {challenge : String} {now expiresAt : UInt64}
    (hpending : c.pending.lookup challenge = some expiresAt) (hlive : now ≤ expiresAt) :
    ∃ c', ChallengeStore.consume challenge now c = .ok () c' := by
  have hkept : (retain (fun _ expiresAt => decide (now ≤ expiresAt)) c.pending).lookup challenge =
      some expiresAt := (lookup_retain _ _).mpr ⟨hpending, decide_eq_true hlive⟩
  have hlive' : refuse (expiresAt < now) DiscoveryError.challengeRejected = .ok () :=
    refuse_ok.mpr (UInt64.not_lt.mpr hlive)
  simp only [ChallengeStore.consume, bind_def, get_def, set_def, hkept, hlive', check_ok]
  exact ⟨_, rfl⟩

/-- A hello that is in order, for a pending challenge, from a member is accepted. -/
theorem authenticate_of_member {x : Crates} {a : PeerAuthenticator}
    {membership : MembershipVerifier} {hello : PeerHelloV1} {now expiresAt : UInt64}
    {c : ChallengeStore} (hexamine : a.examine x hello now = .ok ())
    (hpending : c.pending.lookup hello.challenge = some expiresAt) (hlive : now ≤ expiresAt)
    (hmember : membership.isMember hello.memberId hello.rootPublicKey = true) :
    ∃ c', a.authenticate x membership hello now c =
      .ok ⟨hello.memberId, hello.plane, hello.rootPublicKey, hello.endpoint, now⟩ c' := by
  obtain ⟨c', hc'⟩ := consume_ok hpending hlive
  have hlisted : refuse (membership.isMember hello.memberId hello.rootPublicKey = false)
      DiscoveryError.notMember = .ok () := refuse_ok.mpr (by rw [hmember]; decide)
  simp only [PeerAuthenticator.authenticate, bind_def, hexamine, check_ok, hc', hlisted]
  exact ⟨c', rfl⟩

end Kerosene.Node
