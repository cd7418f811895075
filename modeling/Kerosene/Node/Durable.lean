import Kerosene.Lib.AtomicFile
import Kerosene.Node.PeerStore
import Kerosene.Node.Readiness

/-! A node and its files (`kerosene-node`, `kerosene-discovery`, `kerosene-sync`).

The calls of a service once more, this time with every file operation they make, in its
place. An operation may fail or be the last thing the process does; the memory of a process
is gone with it, its files are not. A call that ends by itself has done what it does in the
service without files, with the results its operations had (`serve_refines`). -/
namespace Kerosene.Node

open Lib.AtomicFile Lib.Encode Lib.Inplace Lib.Tables Ledger

/-! ### Files -/

inductive FileName where
  | peers
  | endpoints
  | successfulConnections
  | membershipManifests
  | lifecycle
  deriving DecidableEq

namespace FileName

def path : FileName → String
  | .peers => "peers.db"
  | .endpoints => "endpoints.db"
  | .successfulConnections => "successful-connections.db"
  | .membershipManifests => "membership-manifests.db"
  | .lifecycle => "lifecycle.db"

abbrev Value : FileName → Type
  | .peers => List StoredPeer
  | .endpoints => List EndpointRecord
  | .successfulConnections => List SuccessfulConnection
  | .membershipManifests => List MembershipManifestV1
  | .lifecycle => LifecycleState

theorem path_injective : Function.Injective path := by
  intro f g h
  cases f <;> cases g <;> first | rfl | exact absurd h (by decide)

/-- No file is the temporary of another. -/
theorem path_ne_temporary (f g : FileName) : f.path ≠ temporary g.path := by
  cases f <;> cases g <;> decide

end FileName

/-- `serde_json` for what is in each file. -/
abbrev Codecs := (f : FileName) → Json f.Value

/-- An error of one kind passed on as one of another. -/
def failWith {ε ε' σ α : Type} (wrap : ε → ε') (m : EStateM (Stop ε) σ α) :
    EStateM (Stop ε') σ α := fun s =>
  match m s with
  | .ok a s' => .ok a s'
  | .error .ended s' => .error .ended s'
  | .error (.failed e) s' => .error (.failed (wrap e)) s'

/-- A check of a call that has files. -/
def checkFailed {ε σ α : Type} (r : Except ε α) : EStateM (Stop ε) σ α :=
  check (r.mapError Stop.failed)

section Operations
variable (x : Crates) (k : Codecs)

def readFile (f : FileName) : EStateM (Stop DiscoveryError) Disk f.Value := do
  let bytes ← failWith .io (read f.path)
  checkFailed (((k f).fromSlice bytes).mapError .json)

def writeFile (f : FileName) (value : f.Value) : EStateM (Stop DiscoveryError) Disk Unit := do
  let bytes ← checkFailed (((k f).toVec value).mapError .json)
  failWith .io (replace f.path bytes)

/-! ### The peer store -/

def storePeer (peer : AuthenticatedPeer) (peers : List StoredPeer) : List StoredPeer :=
  peers.filter (fun saved => saved.memberId != peer.memberId) ++
    [{ memberId := peer.memberId
       plane := peer.plane
       rootPublicKey := peer.rootPublicKey
       endpoint := peer.endpoint
       authenticatedAtEpochMs := peer.authenticatedAtEpochMs
       lastSuccessEpochMs := none }]

def storeEndpoint (peer : AuthenticatedPeer) (endpoints : List EndpointRecord) :
    List EndpointRecord :=
  endpoints.filter (fun saved =>
      saved.memberId != peer.memberId || saved.source != .authenticatedPeer) ++
    [{ memberId := peer.memberId
       endpoint := peer.endpoint
       source := .authenticatedPeer
       observedAtEpochMs := peer.authenticatedAtEpochMs }]

def storeConnection (memberId endpoint : String) (nowEpochMs : UInt64)
    (successes : List SuccessfulConnection) : List SuccessfulConnection :=
  successes.filter (fun saved => saved.memberId != memberId || saved.endpoint != endpoint) ++
    [⟨memberId, endpoint, nowEpochMs⟩]

def markSuccess (memberId endpoint : String) (nowEpochMs : UInt64) (peers : List StoredPeer) :
    List StoredPeer :=
  peers.map fun peer =>
    if peer.memberId = memberId ∧ peer.endpoint = endpoint then
      { peer with lastSuccessEpochMs := some nowEpochMs }
    else peer

def ensureFile (f : FileName) (empty : f.Value) : EStateM (Stop DiscoveryError) Disk Unit := do
  let d ← get
  if d.files.lookup f.path = none then writeFile k f empty

def openStore : EStateM (Stop DiscoveryError) Disk Unit := do
  ensureFile k .peers []
  ensureFile k .endpoints []
  ensureFile k .successfulConnections []
  ensureFile k .membershipManifests []

def upsertFiles (peer : AuthenticatedPeer) : EStateM (Stop DiscoveryError) Disk Unit := do
  let peers ← readFile k .peers
  writeFile k .peers (storePeer peer peers)
  let endpoints ← readFile k .endpoints
  writeFile k .endpoints (storeEndpoint peer endpoints)

def recordFiles (memberId endpoint : String) (nowEpochMs : UInt64) :
    EStateM (Stop DiscoveryError) Disk Unit := do
  checkFailed (validateOnionEndpoint x .invalidEndpoint endpoint)
  let successes ← readFile k .successfulConnections
  writeFile k .successfulConnections (storeConnection memberId endpoint nowEpochMs successes)
  let peers ← readFile k .peers
  writeFile k .peers (markSuccess memberId endpoint nowEpochMs peers)

def authenticatedCount (plane : DiscoveryPlane) : EStateM (Stop DiscoveryError) Disk ℕ := do
  let peers ← readFile k .peers
  return (peers.filter fun peer => peer.plane == plane).length

def appendManifest (manifest : MembershipManifestV1) : EStateM (Stop DiscoveryError) Disk Unit := do
  let manifests ← readFile k .membershipManifests
  writeFile k .membershipManifests (manifests ++ [manifest])

inductive BootError where
  | store (error : DiscoveryError)
  | membership (error : MembershipError)
  | identity (error : IdentityError)
  | service (message : String)
  | anyhow (message : String)

/-! ### The lifecycle store -/

def save (lifecycle : Lifecycle) : EStateM (Stop SyncError) Disk Unit := do
  let bytes ← checkFailed (((k .lifecycle).toVec lifecycle.state).mapError .json)
  failWith .io (replace FileName.lifecycle.path bytes)

/-- What `load` finds. -/
def lifecycleFile : EStateM (Stop BootError) Disk LifecycleFile := fun d =>
  if d.files.lookup FileName.lifecycle.path = none then .ok .absent d
  else
    match read FileName.lifecycle.path d with
    | .ok bytes d' =>
      match (k .lifecycle).fromSlice bytes with
      | .ok state => .ok (.holds state) d'
      | .error message => .ok (.invalid message) d'
    | .error (.failed message) d' => .ok (.unreadable message) d'
    | .error .ended d' => .error .ended d'

end Operations

/-! ### The process -/

/-- A process that serves requests: its memory and its files. -/
structure World where
  node : NodeState
  disk : Disk

section Process
variable {ε α : Type}

def onDisk (m : EStateM (Stop ε) Disk α) : EStateM (Stop ε) World α := fun w =>
  match m w.disk with
  | .ok a disk => .ok a { w with disk }
  | .error e disk => .error e { w with disk }

def onNode (m : EStateM ε NodeState α) : EStateM (Stop ε) World α := fun w =>
  match m w.node with
  | .ok a node => .ok a { w with node }
  | .error e node => .error (.failed e) { w with node }

def modifyNode (f : NodeState → NodeState) : EStateM (Stop ε) World Unit :=
  modify fun w => { w with node := f w.node }

/-- The lifecycle in memory goes to its file. -/
def saveLifecycle (k : Codecs) : EStateM (Stop SyncError) World Unit := fun w =>
  onDisk (save k w.node.lifecycle) w

/-- `let _ =`: a failure is dropped. -/
def dropFailure {ε' : Type} (m : EStateM (Stop ε') World Unit) : EStateM (Stop ε) World Unit :=
  fun w =>
    match m w with
    | .ok () w' => .ok () w'
    | .error (.failed _) w' => .ok () w'
    | .error .ended w' => .error .ended w'

end Process

namespace NodeService

variable {x : Crates} (svc : NodeService x) (k : Codecs)

def activateIfQuorumOn {ε : Type} (nowEpochMs : UInt64) : EStateM (Stop ε) World Unit := do
  let w ← get
  modifyNode (svc.activateIfQuorum nowEpochMs)
  if (svc.readiness nowEpochMs w.node).1.quorumReady && w.node.lifecycle.state == .eligible then
    dropFailure (saveLifecycle k)

def admitPeerOn (hello : PeerHelloV1) (nowEpochMs : UInt64) :
    EStateM (Stop DiscoveryError) World Unit := do
  checkFailed (refuse (hello.memberId = svc.identity.memberId) .selfConnection)
  let peer ← onNode (svc.authenticate hello nowEpochMs)
  onDisk (upsertFiles k peer)
  onDisk (recordFiles x k peer.memberId peer.endpoint nowEpochMs)
  modifyNode fun s => { s with activePeers := s.activePeers.insert peer.memberId nowEpochMs }
  modifyNode svc.advanceAfterAuthentication
  dropFailure (saveLifecycle k)
  svc.activateIfQuorumOn k nowEpochMs

def acceptMembershipOn (manifest : MembershipManifestV1) (nowEpochMs : UInt64) :
    EStateM (Stop MembershipError) World Unit := do
  let w ← get
  if w.node.membership.currentHash x = some (x.canonicalHash manifest) then
    return ()
  let candidate ← checkFailed (acceptMembership.candidateOf x manifest w.node.membership)
  failWith (fun _ => .hashChain) (onDisk (appendManifest k manifest))
  modifyNode fun s => { s with manifests := s.manifests ++ [manifest], membership := candidate }
  svc.activateIfQuorumOn k nowEpochMs

def verifyStateSnapshotOn (snapshot : StateSnapshot) (nowEpochMs : UInt64) :
    EStateM (Stop SyncError) World Unit := do
  checkFailed (snapshot.verify x.toCrypto)
  let w ← get
  checkFailed (refuse (w.node.lifecycle.state ≠ .syncing)
    (.invalidTransition w.node.lifecycle.state .stateVerified))
  onNode (advance .stateVerified)
  onNode (advance .eligible)
  saveLifecycle k
  svc.activateIfQuorumOn k nowEpochMs

end NodeService

/-- What a process is asked to do. -/
inductive Request where
  | issueChallenge (bytes : Vector UInt8 32) (now : UInt64)
  | observePeer (hello : PeerHelloV1) (now : UInt64)
  | exchangeHello (request : HelloExchangeRequest) (now : UInt64)
  | acceptMembership (manifest : MembershipManifestV1) (now : UInt64)
  | verifyStateSnapshot (snapshot : StateSnapshot) (now : UInt64)
  | readiness (now : UInt64)

namespace Request

/-- The call of a service without files that has these results. -/
def toCall (store : NodeService.StoreResults) (appended : Except DiscoveryError Unit)
    (saved : Except SyncError Unit) : Request → Call
  | .issueChallenge bytes now => .issueChallenge bytes now
  | .observePeer hello now => .observePeer hello now store
  | .exchangeHello request now => .exchangeHello request now store
  | .acceptMembership manifest now => .acceptMembership manifest appended now
  | .verifyStateSnapshot snapshot now => .verifyStateSnapshot snapshot saved now
  | .readiness now => .readiness now

/-- The manifest a request brings. -/
def manifest? : Request → Option MembershipManifestV1
  | .acceptMembership manifest _ => some manifest
  | _ => none

/-- The snapshot a request brings. -/
def snapshot? : Request → Option StateSnapshot
  | .verifyStateSnapshot snapshot _ => some snapshot
  | _ => none

end Request

/-- A request is served; of an error only remains whether the process has ended. -/
def NodeService.serve {x : Crates} (svc : NodeService x) (k : Codecs) :
    Request → EStateM (Stop Unit) World Unit
  | .issueChallenge bytes now => modifyNode fun s => (issueChallenge (x := x) bytes now s).2
  | .observePeer hello now => failWith (fun _ => ()) (svc.admitPeerOn k hello now)
  | .exchangeHello request now => failWith (fun _ => ()) (svc.admitPeerOn k request.hello now)
  | .acceptMembership manifest now => failWith (fun _ => ()) (svc.acceptMembershipOn k manifest now)
  | .verifyStateSnapshot snapshot now =>
    failWith (fun _ => ()) (svc.verifyStateSnapshotOn k snapshot now)
  | .readiness now => modifyNode fun s => (svc.readiness now s).2

/-! ### Starting -/

/-- Where discovery begins, and whether it only looks. -/
structure Discovery where
  genesisEndpoints : List EndpointRecord
  mirrors : List EndpointRecord
  observer : Bool

/-- What a process is started with. -/
structure Config where
  networkId : String
  endpoint : String
  plane : DiscoveryPlane
  bundle : GenesisTrustBundleV1
  tlsClientIdentity : Option String
  discovery : Discovery
  challengeTtlMs : UInt64
  peerLiveWindowMs : UInt64

/-- What a start finds outside the peer store: the ledger database, the identity that
`load_or_create` returns, the client for outgoing connections, made of two files, and the
files of the server's own TLS. -/
structure Found (x : Crates) where
  ledgerDb : Except String Unit
  identity : Except IdentityError (NodeIdentity x)
  client : Except String Unit
  tls : Except String Unit

section Boot
variable {x : Crates} (k : Codecs) (cfg : Config) (found : Found x)

/-- From the bundle to the service; `new` with a lifecycle file that can be written, and then
the writing. -/
def openService : EStateM (Stop BootError) Disk (NodeService x × NodeState) := do
  checkFailed (refuse (cfg.bundle.networkId ≠ cfg.networkId)
    (.anyhow "GenesisTrustBundle network mismatch"))
  checkFailed (found.ledgerDb.mapError fun e => .anyhow ("failed to open ledger database: " ++ e))
  failWith .store (openStore k)
  let manifests ← failWith .store (readFile k .membershipManifests)
  let membership ← checkFailed
    ((MembershipVerifier.restore x cfg.bundle cfg.plane manifests).mapError .membership)
  let identity ← checkFailed (found.identity.mapError .identity)
  let file ← lifecycleFile k
  let started ← checkFailed ((NodeService.new identity cfg.endpoint cfg.plane membership
    manifests file (.ok ()) cfg.challengeTtlMs cfg.peerLiveWindowMs).mapError .service)
  failWith (fun e => .service e.display) (save k started.2.lifecycle)
  return started

/-- Peers are counted only when no endpoints are configured. -/
def discoveryConfigured : EStateM (Stop BootError) Disk Bool :=
  if cfg.discovery.genesisEndpoints ≠ [] ∨ cfg.discovery.mirrors ≠ [] then pure true
  else do
    let count ← failWith .store (authenticatedCount k cfg.plane)
    return decide (0 < count)

/-- The client for outgoing connections. -/
def outgoingClient : Except BootError Unit := do
  refuse (cfg.tlsClientIdentity = none)
    (.anyhow "KEROSENE_TLS_CLIENT_IDENTITY_PEM is required when discovery endpoints exist")
  found.client.mapError .anyhow

/-- `main`, up to the point where requests are served. -/
def boot : EStateM (Stop BootError) Disk (NodeService x × NodeState) := do
  let started ← openService k cfg found
  let configured ← discoveryConfigured k cfg
  checkFailed (if configured then outgoingClient cfg found else .ok ())
  checkFailed (found.tls.mapError .anyhow)
  return started

end Boot

/-! ### What the files hold -/

/-- A file is there and reads as the value. -/
def Holds (k : Codecs) (f : FileName) (value : f.Value) (files : Files) : Prop :=
  ∃ bytes, files.lookup f.path = some bytes ∧ (k f).fromSlice bytes = .ok value

/-- At most this file has changed. -/
def OthersSame (f : FileName) (files files' : Files) : Prop :=
  ∀ g, g ≠ f → files'.lookup g.path = files.lookup g.path

section FileSpecs
variable {k : Codecs} {f : FileName} {files files' : Files}

theorem Holds.unique {v v' : f.Value} (h : Holds k f v files) (h' : Holds k f v' files) : v = v' := by
  obtain ⟨bytes, hbytes, hv⟩ := h
  obtain ⟨bytes', hbytes', hv'⟩ := h'
  rw [hbytes] at hbytes'
  cases hbytes'
  rw [hv] at hv'
  exact Except.ok.inj hv'

theorem Holds.of_lookup_eq {v : f.Value} (h : Holds k f v files)
    (hsame : files'.lookup f.path = files.lookup f.path) : Holds k f v files' := by
  obtain ⟨bytes, hbytes, hv⟩ := h
  exact ⟨bytes, hsame.trans hbytes, hv⟩

theorem OthersSame.of_sameElsewhere (h : SameElsewhere f.path files files') :
    OthersSame f files files' :=
  fun g hg => h g.path (fun hpath => hg (FileName.path_injective hpath)) (g.path_ne_temporary f)

theorem failWith_spec {ε ε' σ α : Type} {wrap : ε → ε'} {m : EStateM (Stop ε) σ α} {P : σ → Prop}
    {Q : α → σ → Prop} {E : Stop ε' → σ → Prop}
    (h : Triple P m Q fun e s =>
      match e with
      | .ended => E .ended s
      | .failed e => E (.failed (wrap e)) s) :
    Triple P (failWith wrap m) Q E := by
  intro s hs
  have hpost := h s hs
  unfold failWith
  cases hm : m s with
  | ok a s' =>
    rw [hm] at hpost
    exact hpost
  | error e s' =>
    rw [hm] at hpost
    cases e with
    | ended => exact hpost
    | failed e => exact hpost

/-- What holds whatever went wrong. -/
theorem failWith_always {ε ε' σ α : Type} {wrap : ε → ε'} {m : EStateM (Stop ε) σ α}
    {P : σ → Prop} {Q : α → σ → Prop} {R : σ → Prop} (h : Triple P m Q fun _ => R) :
    Triple P (failWith wrap m) Q fun _ => R := by
  refine failWith_spec (h.mono (fun _ hs => hs) (fun _ _ hs => hs) fun e s hs => ?_)
  cases e with
  | ended => exact hs
  | failed e => exact hs

/-- Whether the process goes on does not depend on the kind of error. -/
theorem failWith_survived {ε ε' σ α : Type} {wrap : ε → ε'} {m : EStateM (Stop ε) σ α}
    {P : σ → Prop} {Q : α → σ → Prop} {R : σ → Prop}
    (h : Triple P m Q fun e s => ¬ e.IsEnded → R s) :
    Triple P (failWith wrap m) Q fun e s => ¬ e.IsEnded → R s := by
  refine failWith_spec (h.mono (fun _ hs => hs) (fun _ _ hs => hs) fun e s hs => ?_)
  cases e with
  | ended => exact hs
  | failed e => exact hs

theorem checkFailed_spec {ε σ α : Type} {r : Except ε α} {P : σ → Prop} {Q : α → σ → Prop}
    {E : Stop ε → σ → Prop} (hok : ∀ s a, P s → r = .ok a → Q a s)
    (herror : ∀ s e, P s → r = .error e → E (.failed e) s) : Triple P (checkFailed r) Q E := by
  intro s hs
  cases hr : r with
  | ok a => exact hok s a hs hr
  | error e => exact herror s e hs hr

/-- Reading changes nothing and finds what is there. -/
theorem readFile_spec (k : Codecs) (f : FileName) (files : Files) :
    Triple (fun d => d.files = files) (readFile k f)
      (fun value d => d.files = files ∧ Holds k f value files) (fun _ d => d.files = files) := by
  unfold readFile
  refine Triple.bind (Q := fun bytes d => d.files = files ∧ files.lookup f.path = some bytes)
    (failWith_always (read_spec f.path files)) fun bytes => ?_
  · refine checkFailed_spec (fun s value h hvalue => ?_) fun s e h _ => h.1
    exact ⟨h.1, bytes, h.2, (mapError_eq_ok _).mp hvalue⟩

/-- The file holds the value when it is written, what it held when that fails, and one of
the two when the process ends. -/
theorem replace_file_spec (k : Codecs) {f : FileName} {value : f.Value} {bytes : Bytes}
    (hbytes : (k f).toVec value = .ok bytes) (files : Files) :
    Triple (fun d => d.files = files) (replace f.path bytes)
      (fun _ d => OthersSame f files d.files ∧ Holds k f value d.files)
      (fun e d => OthersSame f files d.files ∧ (d.files.lookup f.path = files.lookup f.path ∨
        e.IsEnded ∧ Holds k f value d.files)) := by
  refine (replace_spec f.path bytes files).mono (fun _ h => h) (fun _ d h => ?_) fun e d h => ?_
  · exact ⟨.of_sameElsewhere h.1, bytes, h.2, (k f).fromSlice_toVec hbytes⟩
  · refine ⟨.of_sameElsewhere h.1, h.2.imp_right fun hended => ?_⟩
    exact ⟨hended.1, bytes, hended.2, (k f).fromSlice_toVec hbytes⟩

/-- It does so under any kind of error. -/
theorem failWith_replace_spec {ε : Type} (wrap : String → ε) (k : Codecs) {f : FileName}
    {value : f.Value} {bytes : Bytes} (hbytes : (k f).toVec value = .ok bytes) (files : Files) :
    Triple (fun d => d.files = files) (failWith wrap (replace f.path bytes))
      (fun _ d => OthersSame f files d.files ∧ Holds k f value d.files)
      (fun e d => OthersSame f files d.files ∧ (d.files.lookup f.path = files.lookup f.path ∨
        e.IsEnded ∧ Holds k f value d.files)) := by
  refine failWith_spec ((replace_file_spec k hbytes files).mono (fun _ h => h) (fun _ _ h => h)
    fun e d h => ?_)
  cases e with
  | ended => exact h
  | failed e => exact h

theorem writeFile_spec (k : Codecs) (f : FileName) (value : f.Value) (files : Files) :
    Triple (fun d => d.files = files) (writeFile k f value)
      (fun _ d => OthersSame f files d.files ∧ Holds k f value d.files)
      (fun e d => OthersSame f files d.files ∧ (d.files.lookup f.path = files.lookup f.path ∨
        e.IsEnded ∧ Holds k f value d.files)) := by
  unfold writeFile
  refine Triple.bind (Q := fun bytes d => d.files = files ∧ (k f).toVec value = .ok bytes)
    (checkFailed_spec (fun s bytes h hbytes => ⟨h, (mapError_eq_ok _).mp hbytes⟩) ?_) fun bytes => ?_
  · rintro s e rfl _
    exact ⟨fun _ _ => rfl, .inl rfl⟩
  · refine Triple.of_forall fun d h => ?_
    exact (failWith_replace_spec _ k h.2 files).mono (fun s hs => hs ▸ h.1) (fun _ _ h => h)
      fun _ _ h => h

theorem save_spec (k : Codecs) (l : Lifecycle) (files : Files) :
    Triple (fun d => d.files = files) (save k l)
      (fun _ d => OthersSame .lifecycle files d.files ∧ Holds k .lifecycle l.state d.files)
      (fun e d => OthersSame .lifecycle files d.files ∧
        (d.files.lookup FileName.lifecycle.path = files.lookup FileName.lifecycle.path ∨
          e.IsEnded ∧ Holds k .lifecycle l.state d.files)) := by
  unfold save
  refine Triple.bind (Q := fun bytes d => d.files = files ∧ (k .lifecycle).toVec l.state = .ok bytes)
    (checkFailed_spec (fun s bytes h hbytes => ⟨h, (mapError_eq_ok _).mp hbytes⟩) ?_) fun bytes => ?_
  · rintro s e rfl _
    exact ⟨fun _ _ => rfl, .inl rfl⟩
  · refine Triple.of_forall fun d h => ?_
    exact (failWith_replace_spec _ k h.2 files).mono (fun s hs => hs ▸ h.1) (fun _ _ h => h)
      fun _ _ h => h

end FileSpecs

/-! ### The service without files -/

section Frames
variable {ε α : Type} {s : NodeState}

/-- Files do not matter to the memory. -/
theorem onDisk_node (m : EStateM (Stop ε) Disk α) (s : NodeState) :
    Triple (fun w => w.node = s) (onDisk m) (fun _ w => w.node = s) (fun _ w => w.node = s) := by
  intro w hw
  unfold onDisk
  cases m w.disk with
  | ok a d => exact hw
  | error e d => exact hw

theorem saveLifecycle_node (k : Codecs) (s : NodeState) :
    Triple (fun w => w.node = s) (saveLifecycle k) (fun _ w => w.node = s) (fun _ w => w.node = s) :=
  fun w hw => onDisk_node (save k w.node.lifecycle) s w hw

theorem dropFailure_spec {ε' : Type} {m : EStateM (Stop ε') World Unit} {P Q : World → Prop}
    {E : Stop ε → World → Prop}
    (h : Triple P m (fun _ => Q) fun e w =>
      match e with
      | .ended => E .ended w
      | .failed _ => Q w) :
    Triple P (dropFailure m) (fun _ => Q) E := by
  intro w hw
  have hpost := h w hw
  unfold dropFailure
  cases hm : m w with
  | ok a w' =>
    rw [hm] at hpost
    exact hpost
  | error e w' =>
    rw [hm] at hpost
    cases e with
    | ended => exact hpost
    | failed e => exact hpost

theorem dropFailure_saveLifecycle_node (k : Codecs) (s : NodeState) :
    Triple (fun w => w.node = s) (dropFailure (saveLifecycle k) : EStateM (Stop ε) World Unit)
      (fun _ w => w.node = s) (fun e _ => e.IsEnded) := by
  refine dropFailure_spec ((saveLifecycle_node k s).mono (fun _ h => h) (fun _ _ h => h) ?_)
  intro e w hw
  cases e with
  | ended => trivial
  | failed e => exact hw

theorem modifyNode_spec {f : NodeState → NodeState} {P Q : World → Prop} {E : Stop ε → World → Prop}
    (h : ∀ w, P w → Q { w with node := f w.node }) : Triple P (modifyNode f) (fun _ => Q) E := h

theorem modifyNode_node {f : NodeState → NodeState} (s : NodeState)
    {E : Stop ε → World → Prop} :
    Triple (fun w => w.node = s) (modifyNode f) (fun _ w => w.node = f s) E :=
  fun _ hw => congrArg f hw

end Frames

namespace NodeService

variable {x : Crates} {svc : NodeService x} {k : Codecs} {s : NodeState} {ε : Type}

theorem activateIfQuorumOn_node (now : UInt64) (s : NodeState) :
    Triple (fun w => w.node = s) (svc.activateIfQuorumOn k now : EStateM (Stop ε) World Unit)
      (fun _ w => w.node = svc.activateIfQuorum now s) (fun e _ => e.IsEnded) := by
  unfold activateIfQuorumOn
  refine Triple.bind (Q := fun w₀ w => w.node = s) (Triple.get fun w hw => hw) fun w₀ => ?_
  refine Triple.bind (Q := fun _ w => w.node = svc.activateIfQuorum now s)
    (modifyNode_spec fun w hw => by rw [hw]) fun _ => ?_
  split_ifs
  · exact dropFailure_saveLifecycle_node k _
  · exact Triple.pure fun w hw => hw

/-- A peer that is authenticated and that the files have not taken. -/
theorem after_admitPeer_refused {hello : PeerHelloV1} {now : UInt64} {peer : AuthenticatedPeer}
    {c : ChallengeStore} (hother : hello.memberId ≠ svc.identity.memberId)
    (hauth : svc.authenticator.authenticate x s.membership hello now s.challenges = .ok peer c)
    (store : StoreResults) (h : store.upserted.isOk = false ∨ store.recorded.isOk = false) :
    after (svc.admitPeer hello now store) s = { s with challenges := c } := by
  have hself : refuse (hello.memberId = svc.identity.memberId) DiscoveryError.selfConnection =
      .ok () := refuse_ok.mpr hother
  simp only [admitPeer, after, bind_def, hself, check_ok, authenticate, hauth]
  cases hup : store.upserted with
  | error e => rfl
  | ok u =>
    simp only [check_ok]
    cases hrec : recordSuccess x peer.endpoint store.recorded with
    | error e => rfl
    | ok u' =>
      rw [recordSuccess, except_then_ok] at hrec
      rw [hup, hrec.2] at h
      exact absurd h (by simp [Except.isOk, Except.toBool])

/-- With files, a hello that is admitted is admitted; otherwise it is not, or the files
have failed it. -/
theorem admitPeerOn_node (hello : PeerHelloV1) (now : UInt64) (s : NodeState) :
    Triple (fun w => w.node = s) (svc.admitPeerOn k hello now)
      (fun _ w => w.node = after (svc.admitPeer hello now ⟨.ok (), .ok ()⟩) s)
      (fun e w => ¬ e.IsEnded → ∃ store, w.node = after (svc.admitPeer hello now store) s) := by
  refine Triple.bind (Q := fun _ w => hello.memberId ≠ svc.identity.memberId ∧ w.node = s)
    (checkFailed_spec (fun w _ hw hok => ⟨refuse_ok.mp hok, hw⟩) fun w e hw herror _ =>
      ⟨⟨.ok (), .ok ()⟩, ?_⟩) fun _ => ?_
  · rw [hw, admitPeer, after_check_bind, herror]
  refine Triple.of_forall fun w₀ h₀ => ?_
  obtain ⟨hother, hnode⟩ := h₀
  have hself : refuse (hello.memberId = svc.identity.memberId) DiscoveryError.selfConnection =
      .ok () := refuse_ok.mpr hother
  cases hauth : svc.authenticator.authenticate x s.membership hello now s.challenges with
  | error e c =>
    refine Triple.bind (Q := fun _ _ => False) (fun w hw => ?_) fun _ w hw => hw.elim
    simp only [onNode, authenticate, hw, hnode, hauth]
    refine fun _ => ⟨⟨.ok (), .ok ()⟩, ?_⟩
    simp only [admitPeer, after, bind_def, hself, check_ok, authenticate, hauth]
  | ok peer c =>
    have hfailed (store : StoreResults) := after_admitPeer_refused hother hauth store
    refine Triple.bind_eq (a := peer) (Q := fun w => w.node = { s with challenges := c })
      (fun w hw => ?_) ?_
    · simp only [onNode, authenticate, hw, hnode, hauth, and_self]
    refine Triple.bind ((onDisk_node _ _).mono (fun _ hw => hw) (fun _ _ hw => hw)
      fun e w hw _ => ⟨⟨.error .invalidEndpoint, .ok ()⟩, ?_⟩) fun _ => ?_
    · rw [hw, hfailed _ (.inl rfl)]
    refine Triple.bind ((onDisk_node _ _).mono (fun _ hw => hw) (fun _ _ hw => hw)
      fun e w hw _ => ⟨⟨.ok (), .error .invalidEndpoint⟩, ?_⟩) fun _ => ?_
    · rw [hw, hfailed _ (.inr rfl)]
    obtain ⟨_, _, rfl⟩ := authenticate_ok hauth
    have hdone := svc.perform_observePeer hother hauth
    refine Triple.bind (modifyNode_node _) fun _ => ?_
    refine Triple.bind (modifyNode_node _) fun _ => ?_
    refine Triple.bind ((dropFailure_saveLifecycle_node k _).mono (fun _ hw => hw) (fun _ _ hw => hw)
      fun e w he hnot => absurd he hnot) fun _ => ?_
    refine (activateIfQuorumOn_node now _).mono (fun _ hw => hw) (fun _ w hw => ?_)
      fun e w he hnot => absurd he hnot
    rw [hw]
    exact hdone.symm

theorem acceptMembershipOn_node (manifest : MembershipManifestV1) (now : UInt64) (s : NodeState) :
    Triple (fun w => w.node = s) (svc.acceptMembershipOn k manifest now)
      (fun _ w => w.node = after (svc.acceptMembership manifest (.ok ()) now) s)
      (fun e w => ¬ e.IsEnded →
        ∃ appended, w.node = after (svc.acceptMembership manifest appended now) s) := by
  unfold acceptMembershipOn
  refine Triple.bind (Q := fun w₀ w => w₀.node = s ∧ w.node = s) (Triple.get fun w hw => ⟨hw, hw⟩)
    fun w₀ => Triple.of_forall fun w₁ h₁ => ?_
  obtain ⟨hnode, hw₁⟩ := h₁
  rw [hnode]
  by_cases hknown : s.membership.currentHash x = some (x.canonicalHash manifest)
  · rw [if_pos hknown]
    refine Triple.pure fun w hw => ?_
    rw [hw, hw₁]
    simp only [after, acceptMembership, bind_def, get_def, if_pos hknown, pure_def]
  rw [if_neg hknown]
  refine Triple.bind (Q := fun candidate w =>
      MembershipVerifier.accept x manifest s.membership = .ok () candidate ∧ w.node = s)
    (checkFailed_spec (fun w candidate hw hok => ⟨candidateOf_ok.mp hok, by rw [hw, hw₁]⟩)
      fun w e hw herror _ => ⟨.ok (), ?_⟩) fun candidate => Triple.of_forall fun w₂ h₂ => ?_
  · rw [hw, hw₁]
    simp only [after, acceptMembership, bind_def, get_def, if_neg hknown, herror, check_error]
  obtain ⟨haccept, hw₂⟩ := h₂
  have hcandidate := candidateOf_ok.mpr haccept
  refine Triple.bind (Q := fun _ w => w.node = s) (failWith_spec ((onDisk_node _ s).mono
    (fun w hw => by rw [hw, hw₂]) (fun _ _ hw => hw) fun e w hw => ?_)) fun _ => ?_
  · cases e with
    | ended => exact fun hnot => absurd trivial hnot
    | failed e =>
      refine fun _ => ⟨.error .invalidEndpoint, ?_⟩
      rw [hw]
      simp only [after, acceptMembership, bind_def, get_def, if_neg hknown, hcandidate, check_ok,
        Except.mapError, check_error]
  refine Triple.bind (modifyNode_node _) fun _ => ?_
  refine (activateIfQuorumOn_node now _).mono (fun _ hw => hw) (fun _ w hw => ?_)
    fun e w he hnot => absurd he hnot
  rw [hw]
  exact (svc.perform_acceptMembership hknown haccept now).symm

theorem verifyStateSnapshotOn_node (snapshot : StateSnapshot) (now : UInt64) (s : NodeState) :
    Triple (fun w => w.node = s) (svc.verifyStateSnapshotOn k snapshot now)
      (fun _ w => w.node = after (svc.verifyStateSnapshot snapshot (.ok ()) now) s)
      (fun e w => ¬ e.IsEnded →
        ∃ saved, w.node = after (svc.verifyStateSnapshot snapshot saved now) s) := by
  unfold verifyStateSnapshotOn
  refine Triple.bind (Q := fun _ w => snapshot.verify x.toCrypto = .ok () ∧ w.node = s)
    (checkFailed_spec (fun w _ hw hok => ⟨hok, hw⟩) fun w e hw herror _ => ⟨.ok (), ?_⟩)
    fun _ => Triple.of_forall fun w₁ h₁ => ?_
  · rw [hw]
    simp only [after, verifyStateSnapshot, bind_def, herror, check_error]
  obtain ⟨hverify, hw₁⟩ := h₁
  refine Triple.bind_eq (a := w₁) (Q := fun w => w = w₁) (Triple.get fun w hw => ⟨hw, hw⟩) ?_
  rw [hw₁]
  refine Triple.bind (Q := fun _ w => s.lifecycle.state = .syncing ∧ w.node = s)
    (checkFailed_spec (fun w _ hw hok => ⟨not_not.mp (refuse_ok.mp hok), by rw [hw, hw₁]⟩)
      fun w e hw herror _ => ⟨.ok (), ?_⟩) fun _ => Triple.of_forall fun w₂ h₂ => ?_
  · rw [hw, hw₁]
    simp only [after, verifyStateSnapshot, bind_def, hverify, check_ok, get_def, herror, check_error]
  obtain ⟨hsyncing, hw₂⟩ := h₂
  have hverified : s.lifecycle.state.next = some .stateVerified := by rw [hsyncing]; rfl
  obtain ⟨l, hl, hlstate⟩ := Lifecycle.advance_of_next hverified
  have heligible : l.state.next = some .eligible := by rw [hlstate]; rfl
  obtain ⟨m, hm, _⟩ := Lifecycle.advance_of_next heligible
  have hpass : refuse (s.lifecycle.state ≠ .syncing)
      (SyncError.invalidTransition s.lifecycle.state .stateVerified) = .ok () :=
    refuse_ok.mpr (not_not.mpr hsyncing)
  have hcall (saved : Except SyncError Unit) :
      after (svc.verifyStateSnapshot snapshot saved now) s =
        if saved.isOk then svc.activateIfQuorum now { s with lifecycle := m }
        else { s with lifecycle := m } := by
    simp only [after, verifyStateSnapshot, bind_def, hverify, get_def, hpass, check_ok, advance, hl,
      set_def, hm]
    cases saved <;> rfl
  refine Triple.bind (Q := fun _ w => w.node = { s with lifecycle := l }) (fun w hw => ?_) fun _ => ?_
  · simp only [onNode, advance, bind_def, get_def, hw, hw₂, hl, check_ok, set_def]
  refine Triple.bind (Q := fun _ w => w.node = { s with lifecycle := m }) (fun w hw => ?_) fun _ => ?_
  · simp only [onNode, advance, bind_def, get_def, hw, hm, check_ok, set_def]
  refine Triple.bind ((saveLifecycle_node k _).mono (fun _ hw => hw) (fun _ _ hw => hw)
    fun e w hw _ => ⟨.error .stateRootMismatch, ?_⟩) fun _ => ?_
  · rw [hw, hcall]
    rfl
  exact (activateIfQuorumOn_node now _).mono (fun _ hw => hw)
    (fun _ w hw => hw.trans (hcall (.ok ())).symm) fun e w he hnot => absurd he hnot

/-- **The service with files is the service.** A request that the process survives leaves
its memory as the call of the service does, with whatever results the files had. -/
theorem serve_refines (r : Request) (s : NodeState) :
    Triple (fun w => w.node = s) (svc.serve k r)
      (fun _ w => w.node = svc.perform (r.toCall ⟨.ok (), .ok ()⟩ (.ok ()) (.ok ())) s)
      (fun e w => ¬ e.IsEnded → ∃ store appended saved,
        w.node = svc.perform (r.toCall store appended saved) s) := by
  cases r with
  | issueChallenge bytes now => exact fun w hw => by rw [← hw]; rfl
  | readiness now => exact fun w hw => by rw [← hw]; rfl
  | observePeer hello now =>
    refine (failWith_survived (admitPeerOn_node hello now s)).mono (fun _ hw => hw) (fun _ _ hw => hw)
      fun e w hw hsurvived => ?_
    obtain ⟨store, hstore⟩ := hw hsurvived
    exact ⟨store, .ok (), .ok (), hstore⟩
  | exchangeHello request now =>
    have hsame (store : StoreResults) : svc.perform (.exchangeHello request now store) s =
        after (svc.admitPeer request.hello now store) s := by
      show after (svc.exchangeHello request now store) s = _
      rw [exchangeHello, after_bind_pure]
    refine (failWith_survived (admitPeerOn_node request.hello now s)).mono (fun _ hw => hw)
      (fun _ w hw => hw.trans (hsame _).symm) fun e w hw hsurvived => ?_
    obtain ⟨store, hstore⟩ := hw hsurvived
    exact ⟨store, .ok (), .ok (), hstore.trans (hsame store).symm⟩
  | acceptMembership manifest now =>
    refine (failWith_survived (acceptMembershipOn_node manifest now s)).mono (fun _ hw => hw)
      (fun _ _ hw => hw) fun e w hw hsurvived => ?_
    obtain ⟨appended, happended⟩ := hw hsurvived
    exact ⟨⟨.ok (), .ok ()⟩, appended, .ok (), happended⟩
  | verifyStateSnapshot snapshot now =>
    refine (failWith_survived (verifyStateSnapshotOn_node snapshot now s)).mono (fun _ hw => hw)
      (fun _ _ hw => hw) fun e w hw hsurvived => ?_
    obtain ⟨saved, hsaved⟩ := hw hsurvived
    exact ⟨⟨.ok (), .ok ()⟩, .ok (), saved, hsaved⟩

end NodeService

end Kerosene.Node
