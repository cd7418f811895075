import Kerosene.Node.Discovery
import Kerosene.Node.Lifecycle

/-! The node as a service (`kerosene-node`).

Calls on one service, one after another, at whatever clock values; the clock, the
random bytes of a challenge and the results of file operations come in with each
call. `Effect` says once what a call can do to the service, and `perform_effect`
that it does nothing else. -/
namespace Kerosene.Node

open Lib.Encode Lib.Inplace Lib.Tables Lib.Word Ledger

structure HelloExchangeRequest where
  hello : PeerHelloV1
  responseChallenge : String

/-- What stays the same while a service runs. Its authenticator is for the network of
its identity and for its own plane. -/
structure NodeService (x : Crates) where
  identity : NodeIdentity x
  endpoint : String
  plane : DiscoveryPlane
  authenticator : PeerAuthenticator
  peerLiveWindowMs : UInt64
  network_eq : authenticator.networkId = identity.networkId
  plane_eq : authenticator.plane = plane

/-- What is behind the locks of a service, and its file of manifests. -/
structure NodeState where
  challenges : ChallengeStore
  membership : MembershipVerifier
  manifests : List MembershipManifestV1
  lifecycle : Lifecycle
  activePeers : Table String UInt64

/-- Active peers the membership lists. -/
def NodeState.liveRemote (s : NodeState) : Finset String :=
  s.activePeers.keys.filter fun memberId => memberId ∈ s.membership.authorizedKeys

structure Readiness where
  live : Bool
  localReady : Bool
  memberReady : Bool
  quorumReady : Bool
  financialReady : Bool
  plane : DiscoveryPlane
  lifecycle : LifecycleState
  operationalState : String
  verifiedMembers : ℕ
  liveMembers : ℕ
  requiredThreshold : ℕ
  manifestHash : Option String
  deriving DecidableEq, Repr

namespace NodeService

variable {x : Crates}

/-- `saved` is the result of writing the lifecycle file. -/
def new (identity : NodeIdentity x) (endpoint : String) (plane : DiscoveryPlane)
    (membership : MembershipVerifier) (manifests : List MembershipManifestV1) (file : LifecycleFile)
    (saved : Except SyncError Unit) (challengeTtlMs peerLiveWindowMs : UInt64) :
    Except String (NodeService x × NodeState) := do
  validateOnionEndpoint x DiscoveryError.invalidEndpoint.display endpoint
  let lifecycle ← file.load.mapError SyncError.display
  let lifecycle ← (bootstrapLocalLifecycle lifecycle).mapError SyncError.display
  saved.mapError SyncError.display
  return ({ identity
            endpoint
            plane
            authenticator := ⟨identity.networkId, plane, challengeTtlMs⟩
            peerLiveWindowMs
            network_eq := rfl
            plane_eq := rfl },
          { challenges := .new challengeTtlMs
            membership
            manifests
            lifecycle
            activePeers := ∅ })

section Calls
variable (svc : NodeService x)

/-! ### Readiness -/

/-- An entry made at `lastSeen` still counts at `now`. -/
def isLive (now lastSeen : UInt64) : Bool :=
  decide (saturatingSub now lastSeen ≤ svc.peerLiveWindowMs)

def expirePeers (nowEpochMs : UInt64) (s : NodeState) : NodeState :=
  { s with activePeers := retain (fun _ lastSeen => svc.isLive nowEpochMs lastSeen) s.activePeers }

def localMember (membership : MembershipVerifier) : Bool :=
  membership.isMember svc.identity.memberId svc.identity.rootPublicKeyHex

/-- What `readiness` reports once peers have expired. -/
def report (s : NodeState) : Readiness :=
  let localMember := svc.localMember s.membership
  let liveMembers := s.liveRemote.card + localMember.toNat
  let threshold := s.membership.threshold
  let quorum := localMember && decide (threshold ≤ liveMembers)
  let lifecycle := s.lifecycle.state
  let stateVerified := lifecycle.isStateVerified
  { live := true
    localReady := lifecycle != .created
    memberReady := localMember
    quorumReady := quorum
    financialReady := quorum && lifecycle == .active
    plane := svc.plane
    lifecycle
    operationalState :=
      if lifecycle == .active && quorum then "ACTIVE"
      else if stateVerified then "ELIGIBLE_WAITING_FOR_QUORUM"
      else "ACTIVE_LOCAL_WAITING_FOR_PEERS"
    verifiedMembers := s.membership.memberCount
    liveMembers
    requiredThreshold := threshold
    manifestHash := s.membership.currentHash x }

def readiness (nowEpochMs : UInt64) (s : NodeState) : Readiness × NodeState :=
  let s := svc.expirePeers nowEpochMs s
  (svc.report s, s)

/-! ### Moves of the lifecycle -/

def activateIfQuorum (nowEpochMs : UInt64) (s : NodeState) : NodeState :=
  let (readiness, s) := svc.readiness nowEpochMs s
  if readiness.quorumReady && s.lifecycle.state == .eligible then
    { s with lifecycle := s.lifecycle.advanceOrStay .active }
  else s

/-- The lifecycle after a peer was authenticated, by whether this node is a member. -/
def afterAuthentication (localMember : Bool) (l : Lifecycle) : Lifecycle :=
  let l := if l.state == .discovering then l.advanceOrStay .authenticated else l
  if localMember && l.state == .authenticated then
    (l.advanceOrStay .memberVerified).advanceOrStay .syncing
  else l

def advanceAfterAuthentication (s : NodeState) : NodeState :=
  { s with lifecycle := afterAuthentication (svc.localMember s.membership) s.lifecycle }

/-- `Lifecycle::advance` on the lifecycle behind the lock. -/
def advance (target : LifecycleState) : EStateM SyncError NodeState Unit := do
  let s ← get
  let lifecycle ← check (s.lifecycle.advance target)
  set { s with lifecycle }

/-! ### Calls -/

def issueChallenge (bytes : Vector UInt8 32) (nowEpochMs : UInt64) (s : NodeState) :
    String × NodeState :=
  let (challenge, challenges) := s.challenges.issue x bytes nowEpochMs
  (challenge, { s with challenges })

/-- `PeerAuthenticator::authenticate` on the challenges and the membership it shares. -/
def authenticate (hello : PeerHelloV1) (nowEpochMs : UInt64) :
    EStateM DiscoveryError NodeState AuthenticatedPeer := fun s =>
  match svc.authenticator.authenticate x s.membership hello nowEpochMs s.challenges with
  | .ok peer challenges => .ok peer { s with challenges }
  | .error e challenges => .error e { s with challenges }

/-- The results of the peer store's file operations for one peer. -/
structure StoreResults where
  upserted : Except DiscoveryError Unit
  recorded : Except DiscoveryError Unit

/-- `record_success` looks at the endpoint before it turns to its files. -/
def recordSuccess (x : Crates) (endpoint : String) (recorded : Except DiscoveryError Unit) :
    Except DiscoveryError Unit := do
  validateOnionEndpoint x .invalidEndpoint endpoint
  recorded

/-- What `observe_peer` and `exchange_hello` have in common: all but the answer. -/
def admitPeer (hello : PeerHelloV1) (nowEpochMs : UInt64) (store : StoreResults) :
    EStateM DiscoveryError NodeState Unit := do
  check (refuse (hello.memberId = svc.identity.memberId) .selfConnection)
  let peer ← svc.authenticate hello nowEpochMs
  check store.upserted
  check (recordSuccess x peer.endpoint store.recorded)
  modify fun s => { s with activePeers := s.activePeers.insert peer.memberId nowEpochMs }
  modify svc.advanceAfterAuthentication
  modify (svc.activateIfQuorum nowEpochMs)

def observePeer (hello : PeerHelloV1) (nowEpochMs : UInt64) (store : StoreResults) :
    EStateM DiscoveryError NodeState Unit :=
  svc.admitPeer hello nowEpochMs store

def exchangeHello (request : HelloExchangeRequest) (nowEpochMs : UInt64) (store : StoreResults) :
    EStateM DiscoveryError NodeState PeerHelloV1 := do
  svc.admitPeer request.hello nowEpochMs store
  return svc.identity.signHello request.responseChallenge svc.endpoint nowEpochMs

/-- `appended` is the result of appending to the file of manifests, `nowEpochMs` the
clock at the end. -/
def acceptMembership (manifest : MembershipManifestV1) (appended : Except DiscoveryError Unit)
    (nowEpochMs : UInt64) : EStateM MembershipError NodeState Unit := do
  let s ← get
  if s.membership.currentHash x = some (x.canonicalHash manifest) then
    return ()
  let candidate ← check (candidateOf x manifest s.membership)
  check (appended.mapError fun _ => .hashChain)
  set { s with manifests := s.manifests ++ [manifest], membership := candidate }
  modify (svc.activateIfQuorum nowEpochMs)
where
  /-- A copy of the verifier that has accepted the manifest. -/
  candidateOf (x : Crates) (manifest : MembershipManifestV1) (membership : MembershipVerifier) :
      Except MembershipError MembershipVerifier :=
    match MembershipVerifier.accept x manifest membership with
    | .ok () candidate => .ok candidate
    | .error e _ => .error e

/-- `saved` is the result of writing the lifecycle file. -/
def verifyStateSnapshot (snapshot : StateSnapshot) (saved : Except SyncError Unit)
    (nowEpochMs : UInt64) : EStateM SyncError NodeState Unit := do
  check (snapshot.verify x.toCrypto)
  let s ← get
  check (refuse (s.lifecycle.state ≠ .syncing)
    (.invalidTransition s.lifecycle.state .stateVerified))
  advance .stateVerified
  advance .eligible
  check saved
  modify (svc.activateIfQuorum nowEpochMs)

end Calls

end NodeService

/-! ### Runs -/

/-- A call with all that comes in from outside. -/
inductive Call where
  | issueChallenge (bytes : Vector UInt8 32) (now : UInt64)
  | observePeer (hello : PeerHelloV1) (now : UInt64) (store : NodeService.StoreResults)
  | exchangeHello (request : HelloExchangeRequest) (now : UInt64)
    (store : NodeService.StoreResults)
  | acceptMembership (manifest : MembershipManifestV1) (appended : Except DiscoveryError Unit)
    (now : UInt64)
  | verifyStateSnapshot (snapshot : StateSnapshot) (saved : Except SyncError Unit) (now : UInt64)
  | readiness (now : UInt64)

namespace Call

/-- The hello a call presents, and when. -/
def hello? : Call → Option (PeerHelloV1 × UInt64)
  | observePeer hello now _ => some (hello, now)
  | exchangeHello request now _ => some (request.hello, now)
  | _ => none

/-- The snapshot a call presents. -/
def snapshot? : Call → Option StateSnapshot
  | verifyStateSnapshot snapshot _ _ => some snapshot
  | _ => none

end Call

namespace NodeService

variable {x : Crates} (svc : NodeService x)

/-- The state a call leaves, whatever it returns. -/
def perform (call : Call) (s : NodeState) : NodeState :=
  match call with
  | .issueChallenge bytes now => (issueChallenge (x := x) bytes now s).2
  | .observePeer hello now store => after (svc.observePeer hello now store) s
  | .exchangeHello request now store => after (svc.exchangeHello request now store) s
  | .acceptMembership manifest appended now => after (svc.acceptMembership manifest appended now) s
  | .verifyStateSnapshot snapshot saved now => after (svc.verifyStateSnapshot snapshot saved now) s
  | .readiness now => (svc.readiness now s).2

def run (calls : List Call) (s : NodeState) : NodeState :=
  calls.foldl (fun s call => svc.perform call s) s

theorem run_nil (s : NodeState) : svc.run [] s = s := rfl

theorem run_cons (call : Call) (calls : List Call) (s : NodeState) :
    svc.run (call :: calls) s = svc.run calls (svc.perform call s) := rfl

theorem run_append_singleton (calls : List Call) (call : Call) (s : NodeState) :
    svc.run (calls ++ [call]) s = svc.perform call (svc.run calls s) := by
  rw [run, List.foldl_append]
  rfl

/-- Everything a call can do to a service. -/
inductive Effect (s : NodeState) : Call → NodeState → Prop where
  /-- At most a challenge is issued or used up. -/
  | challenges (call : Call) (challenges : ChallengeStore) : Effect s call { s with challenges }
  | admits (call : Call) (hello : PeerHelloV1) (now : UInt64) (peer : AuthenticatedPeer)
    (challenges : ChallengeStore) (hcall : call.hello? = some (hello, now))
    (hother : hello.memberId ≠ svc.identity.memberId)
    (hauth : svc.authenticator.authenticate x s.membership hello now s.challenges =
      .ok peer challenges) :
    Effect s call (svc.activateIfQuorum now (svc.advanceAfterAuthentication
      { s with challenges, activePeers := s.activePeers.insert hello.memberId now }))
  | accepts (manifest : MembershipManifestV1) (appended : Except DiscoveryError Unit) (now : UInt64)
    (candidate : MembershipVerifier)
    (haccept : MembershipVerifier.accept x manifest s.membership = .ok () candidate) :
    Effect s (.acceptMembership manifest appended now) (svc.activateIfQuorum now
      { s with manifests := s.manifests ++ [manifest], membership := candidate })
  /-- The lifecycle is ahead even when the file could not be written. -/
  | verifies (snapshot : StateSnapshot) (saved : Except SyncError Unit) (now : UInt64)
    (lifecycle : Lifecycle) (s' : NodeState) (hverify : snapshot.verify x.toCrypto = .ok ())
    (hlater : s.lifecycle.Later lifecycle) (hstate : lifecycle.state = .eligible)
    (hs : s' = { s with lifecycle } ∨ s' = svc.activateIfQuorum now { s with lifecycle }) :
    Effect s (.verifyStateSnapshot snapshot saved now) s'
  | expires (now : UInt64) : Effect s (.readiness now) (svc.expirePeers now s)

section Effects
variable {svc : NodeService x} {s : NodeState}

theorem effect_of_admitPeer {call : Call} {hello : PeerHelloV1} {now : UInt64}
    (hcall : call.hello? = some (hello, now)) (store : StoreResults) :
    svc.Effect s call (after (svc.admitPeer hello now store) s) := by
  rw [admitPeer, after_check_bind]
  cases hself : refuse (hello.memberId = svc.identity.memberId) DiscoveryError.selfConnection with
  | error e => exact .challenges call s.challenges
  | ok u =>
    have hother := refuse_ok.mp hself
    simp only [after, bind_def, authenticate]
    cases hauth : svc.authenticator.authenticate x s.membership hello now s.challenges with
    | error e c => exact .challenges call c
    | ok peer c =>
      obtain ⟨_, _, rfl⟩ := authenticate_ok hauth
      cases store.upserted with
      | error e => exact .challenges call c
      | ok u =>
        simp only [check_ok]
        cases recordSuccess x hello.endpoint store.recorded with
        | error e => exact .challenges call c
        | ok u => exact .admits call hello now _ c hcall hother hauth

variable (svc) in
/-- A peer that is authenticated and goes into the files. -/
theorem perform_observePeer {hello : PeerHelloV1} {now : UInt64} {peer : AuthenticatedPeer}
    {c : ChallengeStore} (hother : hello.memberId ≠ svc.identity.memberId)
    (hauth : svc.authenticator.authenticate x s.membership hello now s.challenges = .ok peer c) :
    svc.perform (.observePeer hello now ⟨.ok (), .ok ()⟩) s =
      svc.activateIfQuorum now (svc.advanceAfterAuthentication
        { s with challenges := c, activePeers := s.activePeers.insert hello.memberId now }) := by
  obtain ⟨hexamine, _, rfl⟩ := authenticate_ok hauth
  have hself : refuse (hello.memberId = svc.identity.memberId) DiscoveryError.selfConnection =
      .ok () := refuse_ok.mpr hother
  have hrecord : recordSuccess x hello.endpoint (.ok ()) = .ok () := by
    simp only [PeerAuthenticator.examine, except_then_ok] at hexamine
    exact except_then_ok.mpr ⟨hexamine.2.2.1, rfl⟩
  simp only [perform, observePeer, admitPeer, after, bind_def, hself, check_ok, authenticate, hauth,
    hrecord, modify_def]

theorem candidateOf_ok {manifest : MembershipManifestV1} {membership candidate : MembershipVerifier} :
    acceptMembership.candidateOf x manifest membership = .ok candidate ↔
      MembershipVerifier.accept x manifest membership = .ok () candidate := by
  unfold acceptMembership.candidateOf
  cases MembershipVerifier.accept x manifest membership <;> simp

variable (svc) in
/-- A new manifest that the membership accepts and the file takes. -/
theorem perform_acceptMembership {manifest : MembershipManifestV1} {candidate : MembershipVerifier}
    (hfresh : s.membership.currentHash x ≠ some (x.canonicalHash manifest))
    (haccept : MembershipVerifier.accept x manifest s.membership = .ok () candidate)
    (now : UInt64) :
    svc.perform (.acceptMembership manifest (.ok ()) now) s = svc.activateIfQuorum now
      { s with manifests := s.manifests ++ [manifest], membership := candidate } := by
  simp only [perform, after, acceptMembership, bind_def, get_def, if_neg hfresh,
    acceptMembership.candidateOf, haccept, check_ok]
  rfl

theorem effect_of_acceptMembership (manifest : MembershipManifestV1)
    (appended : Except DiscoveryError Unit) (now : UInt64) :
    svc.Effect s (.acceptMembership manifest appended now)
      (after (svc.acceptMembership manifest appended now) s) := by
  simp only [after, acceptMembership, bind_def, get_def]
  split_ifs with hknown
  · exact .challenges _ s.challenges
  · simp only [acceptMembership.candidateOf, bind_def]
    cases haccept : MembershipVerifier.accept x manifest s.membership with
    | error e v => exact .challenges _ s.challenges
    | ok u candidate =>
      cases appended with
      | error e => exact .challenges _ s.challenges
      | ok u => exact .accepts manifest (.ok u) now candidate haccept

variable (svc) in
/-- A snapshot that verifies makes a syncing node eligible, even when the file cannot
be written and the call fails. -/
theorem verifyStateSnapshot_syncing {snapshot : StateSnapshot}
    (hverify : snapshot.verify x.toCrypto = .ok ()) (hsyncing : s.lifecycle.state = .syncing)
    (saved : Except SyncError Unit) (now : UInt64) :
    ∃ lifecycle, s.lifecycle.Later lifecycle ∧ lifecycle.state = .eligible ∧
      svc.verifyStateSnapshot snapshot saved now s =
        match saved with
        | .ok _ => .ok () (svc.activateIfQuorum now { s with lifecycle })
        | .error e => .error e { s with lifecycle } := by
  have hverified : s.lifecycle.state.next = some .stateVerified := by rw [hsyncing]; rfl
  obtain ⟨l, hl, hlstate⟩ := Lifecycle.advance_of_next hverified
  have heligible : l.state.next = some .eligible := by rw [hlstate]; rfl
  obtain ⟨m, hm, hmstate⟩ := Lifecycle.advance_of_next heligible
  have hpass : refuse (s.lifecycle.state ≠ .syncing)
      (SyncError.invalidTransition s.lifecycle.state .stateVerified) = .ok () :=
    refuse_ok.mpr (not_not.mpr hsyncing)
  refine ⟨m, (Lifecycle.later_of_advance hl).trans (Lifecycle.later_of_advance hm), hmstate, ?_⟩
  simp only [verifyStateSnapshot, bind_def, hverify, get_def, hpass, check_ok, advance, hl, set_def,
    hm]
  cases saved <;> rfl

variable (svc) in
/-- Refused by the snapshot or by the lifecycle, a call changes nothing. -/
theorem verifyStateSnapshot_refused {snapshot : StateSnapshot}
    (h : ¬(snapshot.verify x.toCrypto = .ok () ∧ s.lifecycle.state = .syncing))
    (saved : Except SyncError Unit) (now : UInt64) :
    ∃ e, svc.verifyStateSnapshot snapshot saved now s = .error e s := by
  cases hverify : snapshot.verify x.toCrypto with
  | error e =>
    refine ⟨e, ?_⟩
    simp only [verifyStateSnapshot, bind_def, hverify, check_error]
  | ok u =>
    have hwrong : refuse (s.lifecycle.state ≠ .syncing)
        (SyncError.invalidTransition s.lifecycle.state .stateVerified) = .error _ :=
      if_pos fun hsyncing => h ⟨hverify, hsyncing⟩
    refine ⟨.invalidTransition s.lifecycle.state .stateVerified, ?_⟩
    simp only [verifyStateSnapshot, bind_def, hverify, get_def, hwrong, check_error, check_ok]

theorem effect_of_verifyStateSnapshot (snapshot : StateSnapshot) (saved : Except SyncError Unit)
    (now : UInt64) :
    svc.Effect s (.verifyStateSnapshot snapshot saved now)
      (after (svc.verifyStateSnapshot snapshot saved now) s) := by
  by_cases hpassed : snapshot.verify x.toCrypto = .ok () ∧ s.lifecycle.state = .syncing
  · obtain ⟨hverify, hsyncing⟩ := hpassed
    obtain ⟨l, hlater, hstate, hcall⟩ := svc.verifyStateSnapshot_syncing hverify hsyncing saved now
    cases saved with
    | error e =>
      rw [after_error hcall]
      exact .verifies snapshot _ now l _ hverify hlater hstate (.inl rfl)
    | ok u =>
      rw [after_ok hcall]
      exact .verifies snapshot _ now l _ hverify hlater hstate (.inr rfl)
  · obtain ⟨e, he⟩ := svc.verifyStateSnapshot_refused hpassed saved now
    rw [after_error he]
    exact .challenges _ s.challenges

variable (svc s) in
/-- A call does one of these things. -/
theorem perform_effect (call : Call) : svc.Effect s call (svc.perform call s) := by
  cases call with
  | issueChallenge bytes now => exact .challenges _ _
  | observePeer hello now store => exact effect_of_admitPeer rfl store
  | exchangeHello request now store =>
    show svc.Effect s _ (after (svc.exchangeHello request now store) s)
    rw [exchangeHello, after_bind_pure]
    exact effect_of_admitPeer rfl store
  | acceptMembership manifest appended now => exact effect_of_acceptMembership manifest appended now
  | verifyStateSnapshot snapshot saved now =>
    exact effect_of_verifyStateSnapshot snapshot saved now
  | readiness now => exact .expires now

end Effects

end NodeService

end Kerosene.Node
