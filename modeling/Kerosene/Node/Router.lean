import Kerosene.Lib.Text
import Kerosene.Node.Lives

/-! The program a node runs (`kerosene-node`).

A process of the binary answers requests at its routes and, beside that, goes round the
endpoints it knows of. The routes, each with its handler, and a round of discovery; what
another node answers is what comes in from outside. -/
namespace Kerosene.Node

open Lib.AtomicFile Lib.Encode Lib.Inplace Lib.Tables Lib.Text Ledger MembershipVerifier PersistentPeerStore

def MembershipError.display : MembershipError → String
  | .contractVersion => "unsupported discovery contract version"
  | .scopeMismatch => "network or discovery plane mismatch"
  | .invalidThreshold => "threshold is invalid for the roster"
  | .memberIdMismatch => "member ID does not match its network-bound root key"
  | .invalidEndpoint => "member endpoint must be an HTTPS v3 onion URL"
  | .duplicateIdentity => "duplicate member or signer"
  | .hashChain => "manifest hash chain is invalid"
  | .epochTransition => "manifest epoch transition is invalid"
  | .jointConsensusRequired => "membership change must use OLD -> JOINT -> NEW"
  | .jointRosterMismatch => "joint consensus transition changed its proposed roster"
  | .insufficientSignatures => "manifest has insufficient valid signatures"

/-! ### Routes -/

/-- A request at one of the routes, with the body its handler is given. -/
inductive HttpRequest where
  | live
  | readyLocal
  | readyMember
  | readyQuorum
  | readyFinancial
  | readiness
  | challenge
  | peers
  | hello (request : HelloExchangeRequest)
  | currentManifest
  | acceptManifest (manifest : MembershipManifestV1)

inductive Body where
  | live
  | readiness (readiness : Readiness)
  | challenge (challenge : String)
  | peers (records : List EndpointRecord)
  | hello (hello : PeerHelloV1)
  | manifest (manifest : MembershipManifestV1)
  | accepted (manifestHash : String)
  | error (message : String)
  | empty
  deriving DecidableEq

structure Response where
  status : ℕ
  body : Body
  deriving DecidableEq

/-- A call that may fail, and is not the end of its caller when it does. -/
def result {ε α : Type} (m : EStateM (Stop ε) World α) :
    EStateM (Stop Empty) World (Except ε α) := fun w =>
  match m w with
  | .ok a w' => .ok (.ok a) w'
  | .error (.failed e) w' => .ok (.error e) w'
  | .error .ended w' => .error .ended w'

section Routes
variable {x : Crates} (k : Codecs)

def authenticatedEndpoints (plane : DiscoveryPlane) :
    EStateM (Stop DiscoveryError) Disk (List EndpointRecord) := do
  let peers ← readFile k .peers
  return (peers.filter fun peer => peer.plane == plane).map fun peer =>
    { memberId := peer.memberId
      endpoint := peer.endpoint
      source := .authenticatedPeer
      observedAtEpochMs := peer.authenticatedAtEpochMs }

namespace NodeService

variable (svc : NodeService x)

/-- `readiness` as a call of the process. -/
def readinessOn (nowEpochMs : UInt64) : EStateM (Stop Empty) World Readiness := fun w =>
  let (readiness, node) := svc.readiness nowEpochMs w.node
  .ok readiness { w with node }

def issueChallengeOn (bytes : Vector UInt8 32) (nowEpochMs : UInt64) :
    EStateM (Stop Empty) World String := fun w =>
  let (challenge, node) := issueChallenge (x := x) bytes nowEpochMs w.node
  .ok challenge { w with node }

def readinessStatus (readiness : Readiness) (predicate : Readiness → Bool) : Response :=
  ⟨if predicate readiness then 200 else 503, .readiness readiness⟩

/-- A request is answered at `now`; `bytes` are the random bytes of a challenge. -/
def handle (now : UInt64) (bytes : Vector UInt8 32) :
    HttpRequest → EStateM (Stop Empty) World Response
  | .live => return ⟨200, .live⟩
  | .readyLocal => do
    let readiness ← svc.readinessOn now
    return readinessStatus readiness (·.localReady)
  | .readyMember => do
    let readiness ← svc.readinessOn now
    return readinessStatus readiness (·.memberReady)
  | .readyQuorum => do
    let readiness ← svc.readinessOn now
    return readinessStatus readiness (·.quorumReady)
  | .readyFinancial => do
    let readiness ← svc.readinessOn now
    return readinessStatus readiness (·.financialReady)
  | .readiness => do
    let readiness ← svc.readinessOn now
    return ⟨200, .readiness readiness⟩
  | .challenge => do
    let challenge ← issueChallengeOn (x := x) bytes now
    return ⟨200, .challenge challenge⟩
  | .peers => do
    match ← result (onDisk (authenticatedEndpoints k svc.plane)) with
    | .ok records => return ⟨200, .peers records⟩
    | .error _ => return ⟨500, .empty⟩
  | .hello request => do
    match ← result (svc.admitPeerOn k request.hello now) with
    | .ok () =>
      return ⟨200, .hello (svc.identity.signHello request.responseChallenge svc.endpoint now)⟩
    | .error e => return ⟨401, .error e.display⟩
  | .currentManifest => do
    let w ← get
    match w.node.membership.current with
    | some manifest => return ⟨200, .manifest manifest⟩
    | none => return ⟨404, .empty⟩
  | .acceptManifest manifest => do
    match ← result (svc.acceptMembershipOn k manifest now) with
    | .ok () => return ⟨200, .accepted (x.canonicalHash manifest)⟩
    | .error e => return ⟨422, .error e.display⟩

end NodeService

end Routes

/-! ### Discovery -/

/-- What a visit to an endpoint brings back: the hello of the other side and its manifest;
`now` is the clock before, `later` the clock when the manifest is taken. -/
structure Visit where
  bytes : Vector UInt8 32
  now : UInt64
  exchanged : Except DiscoveryError PeerHelloV1
  fetched : Except DiscoveryError MembershipManifestV1
  later : UInt64

def DiscoverySource.debug : DiscoverySource → String
  | .previousConnection => "PreviousConnection"
  | .currentManifest => "CurrentManifest"
  | .genesis => "Genesis"
  | .mirror => "Mirror"
  | .authenticatedPeer => "AuthenticatedPeer"

/-- The endpoints of a variable that lists them, or of another one when it is missing or
blank; `fallback` is `none` when there is no other. -/
def endpointsFromEnv (x : Crates) (primary fallback : Option String) (source : DiscoverySource) :
    Except DiscoveryError (List EndpointRecord) :=
  let raw := ((primary.filter fun value => trim value != "").or fallback).getD ""
  let listed := ((split ',' raw).map trim).filter (· != "")
  listed.zipIdx.mapM fun entry => do
    validateOnionEndpoint x .invalidEndpoint entry.1
    return { memberId := (source.debug ++ "-" ++ toString entry.2).map Char.toLower
             endpoint := entry.1
             source
             observedAtEpochMs := 0 }

section Rounds
variable {x : Crates} (k : Codecs)

def orderedCandidatesOn (x : Crates) (plane : DiscoveryPlane)
    (currentManifest : Option MembershipManifestV1)
    (genesis mirrors authenticatedSuggestions : List EndpointRecord) :
    EStateM (Stop DiscoveryError) Disk (List EndpointRecord) := do
  let successfulConnections ← readFile k .successfulConnections
  let peers ← readFile k .peers
  checkFailed (orderedCandidates x { peers, endpoints := [], successfulConnections } plane
    currentManifest genesis mirrors authenticatedSuggestions)

namespace NodeService

variable (svc : NodeService x)

/-- The candidates of a round. -/
def candidates (discovery : Discovery) :
    EStateM (Stop DiscoveryError) World (List EndpointRecord) := do
  let authenticated ← onDisk (authenticatedEndpoints k svc.plane)
  let w ← get
  onDisk (orderedCandidatesOn k x svc.plane w.node.membership.current discovery.genesisEndpoints
    discovery.mirrors authenticated)

def visit (observer : Bool) (v : Visit) : EStateM (Stop Empty) World Unit := do
  if observer then
    match v.fetched with
    | .ok manifest => discard (result (svc.acceptMembershipOn k manifest v.later))
    | .error _ => return ()
  else
    discard (issueChallengeOn (x := x) v.bytes v.now)
    match v.exchanged with
    | .ok hello =>
      let observed ← result (svc.admitPeerOn k hello v.now)
      if observed.isOk then
        match v.fetched with
        | .ok manifest => discard (result (svc.acceptMembershipOn k manifest v.later))
        | .error _ => return ()
    | .error _ => return ()

/-- One round of the loop; `visits` is what comes of each endpoint. -/
def discover (discovery : Discovery) (visits : EndpointRecord → Visit) :
    EStateM (Stop Empty) World Unit := do
  match ← result (svc.candidates k discovery) with
  | .ok candidates => candidates.forM fun candidate => svc.visit k discovery.observer (visits candidate)
  | .error _ => return ()

/-- What the loop does between two points at which it waits. -/
inductive Turn where
  | look
  | challenge (bytes : Vector UInt8 32) (now : UInt64)
  | observe (hello : PeerHelloV1) (now : UInt64)
  | take (manifest : MembershipManifestV1) (now : UInt64)

def turn (discovery : Discovery) : Turn → EStateM (Stop Empty) World Unit
  | .look => discard (result (svc.candidates k discovery))
  | .challenge bytes now => discard (issueChallengeOn (x := x) bytes now)
  | .observe hello now => discard (result (svc.admitPeerOn k hello now))
  | .take manifest now => discard (result (svc.acceptMembershipOn k manifest now))

end NodeService

end Rounds

end Kerosene.Node
