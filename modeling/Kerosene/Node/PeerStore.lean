import Kerosene.Lib.Firsts
import Kerosene.Node.Discovery
import Kerosene.Node.JointConsensus

/-! Where a node looks for peers (`kerosene-discovery`).

The store keeps peers, endpoints and successful connections in files of their own.
`orderedCandidates` joins connections with peers, most recent first, puts the manifest, the
genesis list, the mirrors and the suggestions behind them and keeps the first of each
endpoint. One endpoint that is not an onion URL fails the whole list, but the store lets no
such connection in (`run_vetted`), so what it adds is never the reason. -/
namespace Kerosene.Node

open Lib.Firsts Lib.Inplace

structure StoredPeer where
  memberId : String
  plane : DiscoveryPlane
  rootPublicKey : String
  endpoint : String
  authenticatedAtEpochMs : UInt64
  lastSuccessEpochMs : Option UInt64
  deriving DecidableEq, Repr

inductive DiscoverySource where
  | previousConnection
  | currentManifest
  | genesis
  | mirror
  | authenticatedPeer
  deriving DecidableEq, Repr

structure EndpointRecord where
  memberId : String
  endpoint : String
  source : DiscoverySource
  observedAtEpochMs : UInt64
  deriving DecidableEq, Repr

structure SuccessfulConnection where
  memberId : String
  endpoint : String
  connectedAtEpochMs : UInt64
  deriving DecidableEq, Repr

/-- The files of the store, each the list that was last written to it. -/
structure PersistentPeerStore where
  peers : List StoredPeer
  endpoints : List EndpointRecord
  successfulConnections : List SuccessfulConnection
  deriving DecidableEq, Repr

namespace PersistentPeerStore

/-- A store opened on a new directory. -/
def empty : PersistentPeerStore := ⟨[], [], []⟩

section Operations
variable (x : Crates)

def upsertAuthenticated (peer : AuthenticatedPeer) :
    EStateM DiscoveryError PersistentPeerStore Unit :=
  modify fun store =>
    { store with
      peers := store.peers.filter (fun saved => saved.memberId != peer.memberId) ++
        [{ memberId := peer.memberId
           plane := peer.plane
           rootPublicKey := peer.rootPublicKey
           endpoint := peer.endpoint
           authenticatedAtEpochMs := peer.authenticatedAtEpochMs
           lastSuccessEpochMs := none }]
      endpoints := store.endpoints.filter (fun saved =>
          saved.memberId != peer.memberId || saved.source != .authenticatedPeer) ++
        [{ memberId := peer.memberId
           endpoint := peer.endpoint
           source := .authenticatedPeer
           observedAtEpochMs := peer.authenticatedAtEpochMs }] }

def recordSuccess (memberId endpoint : String) (nowEpochMs : UInt64) :
    EStateM DiscoveryError PersistentPeerStore Unit := do
  check (validateOnionEndpoint x .invalidEndpoint endpoint)
  modify fun store =>
    { store with
      successfulConnections := store.successfulConnections.filter (fun saved =>
          saved.memberId != memberId || saved.endpoint != endpoint) ++
        [⟨memberId, endpoint, nowEpochMs⟩]
      peers := store.peers.map fun peer =>
        if peer.memberId = memberId ∧ peer.endpoint = endpoint then
          { peer with lastSuccessEpochMs := some nowEpochMs }
        else peer }

/-- A call on the store. -/
inductive StoreCall where
  | upsertAuthenticated (peer : AuthenticatedPeer)
  | recordSuccess (memberId endpoint : String) (nowEpochMs : UInt64)

def perform : StoreCall → EStateM DiscoveryError PersistentPeerStore Unit
  | .upsertAuthenticated peer => upsertAuthenticated peer
  | .recordSuccess memberId endpoint nowEpochMs => recordSuccess x memberId endpoint nowEpochMs

/-! ### Candidates -/

/-- Keeps the first candidate of each endpoint; `seen` are the endpoints met so far. -/
def deduplicateValid (seen : List String) :
    List EndpointRecord → Except DiscoveryError (List EndpointRecord)
  | [] => return []
  | candidate :: rest => do
    validateOnionEndpoint x .invalidEndpoint candidate.endpoint
    if candidate.endpoint ∈ seen then deduplicateValid seen rest
    else
      let ordered ← deduplicateValid (candidate.endpoint :: seen) rest
      return candidate :: ordered

/-- Connected no earlier. -/
def NoEarlier (a b : SuccessfulConnection) : Prop := b.connectedAtEpochMs ≤ a.connectedAtEpochMs

instance : DecidableRel NoEarlier := fun a b =>
  inferInstanceAs (Decidable (b.connectedAtEpochMs ≤ a.connectedAtEpochMs))

/-- The connections, most recent first; those of one moment stay in the order of the file. -/
def sortedConnections (store : PersistentPeerStore) : List SuccessfulConnection :=
  store.successfulConnections.insertionSort NoEarlier

def previousConnections (store : PersistentPeerStore) (plane : DiscoveryPlane) :
    List EndpointRecord :=
  store.sortedConnections.filterMap fun success =>
    (store.peers.find? fun peer => peer.memberId == success.memberId && peer.plane == plane).map
      fun peer =>
        { memberId := peer.memberId
          endpoint := success.endpoint
          source := .previousConnection
          observedAtEpochMs := success.connectedAtEpochMs }

def manifestRecords (currentManifest : Option MembershipManifestV1) : List EndpointRecord :=
  match currentManifest with
  | none => []
  | some manifest => manifest.members.map fun member =>
      { memberId := member.memberId
        endpoint := member.endpoint
        source := .currentManifest
        observedAtEpochMs := manifest.epoch }

def orderedCandidates (store : PersistentPeerStore) (plane : DiscoveryPlane)
    (currentManifest : Option MembershipManifestV1)
    (genesis mirrors authenticatedSuggestions : List EndpointRecord) :
    Except DiscoveryError (List EndpointRecord) :=
  deduplicateValid x [] (store.previousConnections plane ++ manifestRecords currentManifest ++
    genesis ++ mirrors ++ authenticatedSuggestions)

end Operations

/-! ### What the store lets in -/

/-- An endpoint that passes `validate_onion_endpoint`. -/
def IsOnion (x : Crates) (endpoint : String) : Prop :=
  validateOnionEndpoint x DiscoveryError.invalidEndpoint endpoint = .ok ()

section Vetted
variable {x : Crates}

/-- Every connection on record is to an onion endpoint. -/
def Vetted (x : Crates) (store : PersistentPeerStore) : Prop :=
  ∀ success ∈ store.successfulConnections, IsOnion x success.endpoint

theorem vetted_empty : empty.Vetted x := fun _ h => absurd h List.not_mem_nil

theorem vetted_perform {store : PersistentPeerStore} (h : store.Vetted x) (call : StoreCall) :
    (after (perform x call) store).Vetted x := by
  cases call with
  | upsertAuthenticated peer => exact h
  | recordSuccess memberId endpoint now =>
    show (after (recordSuccess x memberId endpoint now) store).Vetted x
    unfold recordSuccess
    rw [after_check_bind]
    cases hvalid : validateOnionEndpoint x DiscoveryError.invalidEndpoint endpoint with
    | error e => exact h
    | ok u =>
      intro success hsuccess
      rcases List.mem_append.mp hsuccess with hkept | hnew
      · exact h success (List.mem_of_mem_filter hkept)
      · rw [List.mem_singleton.mp hnew]
        exact hvalid

theorem run_vetted (calls : List StoreCall) {store : PersistentPeerStore} (h : store.Vetted x) :
    (run (perform x) calls store).Vetted x := by
  induction calls generalizing store with
  | nil => exact h
  | cons call rest ih => exact ih (vetted_perform h call)

end Vetted

/-! ### Candidates in order -/

section Candidates
variable {x : Crates} {store : PersistentPeerStore} {plane : DiscoveryPlane}

/-- With endpoints that are all in order, the pass keeps the first of each. -/
theorem deduplicateValid_eq {candidates : List EndpointRecord}
    (h : ∀ c ∈ candidates, IsOnion x c.endpoint) (seen : List String) :
    deduplicateValid x seen candidates = .ok (firsts EndpointRecord.endpoint seen candidates) := by
  induction candidates generalizing seen with
  | nil => rfl
  | cons c rest ih =>
    have hfirst : validateOnionEndpoint x DiscoveryError.invalidEndpoint c.endpoint = .ok () :=
      h c List.mem_cons_self
    have hrest := ih fun d hd => h d (List.mem_cons_of_mem _ hd)
    rw [deduplicateValid, hfirst, firsts]
    by_cases hseen : c.endpoint ∈ seen
    · rw [if_pos hseen, if_pos hseen, ← hrest seen]
      rfl
    · rw [if_neg hseen, if_neg hseen, hrest]
      rfl

instance : Std.Total NoEarlier := ⟨fun a b => UInt64.le_total b.connectedAtEpochMs a.connectedAtEpochMs⟩

instance : IsTrans SuccessfulConnection NoEarlier := ⟨fun _ _ _ h h' => UInt64.le_trans h' h⟩

/-- A connection with a peer that is stored, and under this plane. -/
def Knows (store : PersistentPeerStore) (plane : DiscoveryPlane) (success : SuccessfulConnection) :
    Bool :=
  store.peers.any fun peer => peer.memberId == success.memberId && peer.plane == plane

theorem previousConnections_endpoints :
    (store.previousConnections plane).map EndpointRecord.endpoint =
      (store.sortedConnections.filter (store.Knows plane)).map SuccessfulConnection.endpoint := by
  unfold previousConnections
  induction store.sortedConnections with
  | nil => rfl
  | cons success rest ih =>
    rw [List.filterMap_cons, List.filter_cons]
    cases hfind : store.peers.find? fun peer =>
        peer.memberId == success.memberId && peer.plane == plane with
    | none =>
      have hknows : store.Knows plane success = false := by
        rw [Knows, List.any_eq_false]
        exact List.find?_eq_none.mp hfind
      rw [hknows]
      exact ih
    | some peer =>
      have hpeer := List.find?_some hfind
      have hknows : store.Knows plane success = true :=
        List.any_eq_true.mpr ⟨peer, List.mem_of_find?_eq_some hfind, hpeer⟩
      rw [hknows]
      exact congrArg (success.endpoint :: ·) ih

end Candidates

/-- The endpoints of the sources in their order, previous connections first. -/
def sourceOrder (previous : List SuccessfulConnection)
    (currentManifest : Option MembershipManifestV1)
    (genesis mirrors authenticatedSuggestions : List EndpointRecord) : List String :=
  previous.map SuccessfulConnection.endpoint ++
    (currentManifest.toList.flatMap fun manifest => manifest.members.map ManifestMember.endpoint) ++
    genesis.map EndpointRecord.endpoint ++ mirrors.map EndpointRecord.endpoint ++
    authenticatedSuggestions.map EndpointRecord.endpoint

/-- One of the sources has the endpoint; of the connections those count whose peer is
stored, and under this plane. -/
def Offered (store : PersistentPeerStore) (plane : DiscoveryPlane)
    (currentManifest : Option MembershipManifestV1)
    (genesis mirrors authenticatedSuggestions : List EndpointRecord) (endpoint : String) : Prop :=
  (∃ success ∈ store.successfulConnections, success.endpoint = endpoint ∧
      ∃ peer ∈ store.peers, peer.memberId = success.memberId ∧ peer.plane = plane) ∨
    (∃ manifest ∈ currentManifest, ∃ member ∈ manifest.members, member.endpoint = endpoint) ∨
    (∃ record ∈ genesis, record.endpoint = endpoint) ∨
    (∃ record ∈ mirrors, record.endpoint = endpoint) ∨
    ∃ record ∈ authenticatedSuggestions, record.endpoint = endpoint

/-- What a list of candidates owes to the store and the other sources. -/
structure Ordered (store : PersistentPeerStore) (plane : DiscoveryPlane)
    (currentManifest : Option MembershipManifestV1)
    (genesis mirrors authenticatedSuggestions : List EndpointRecord)
    (candidates : List EndpointRecord) : Prop where
  distinct : (candidates.map EndpointRecord.endpoint).Nodup
  complete : ∀ endpoint, endpoint ∈ candidates.map EndpointRecord.endpoint ↔
    store.Offered plane currentManifest genesis mirrors authenticatedSuggestions endpoint
  ordered : ∃ previous : List SuccessfulConnection,
    previous.Perm (store.successfulConnections.filter (store.Knows plane)) ∧
      previous.Pairwise NoEarlier ∧
      (candidates.map EndpointRecord.endpoint).Pairwise fun e e' =>
        (sourceOrder previous currentManifest genesis mirrors authenticatedSuggestions).idxOf e <
          (sourceOrder previous currentManifest genesis mirrors authenticatedSuggestions).idxOf e'

section Main
variable {x : Crates} {store : PersistentPeerStore} {plane : DiscoveryPlane}
  {currentManifest : Option MembershipManifestV1}
  {genesis mirrors authenticatedSuggestions : List EndpointRecord}

theorem mem_sourceOrder {endpoint : String} :
    endpoint ∈ sourceOrder (store.sortedConnections.filter (store.Knows plane)) currentManifest
        genesis mirrors authenticatedSuggestions ↔
      store.Offered plane currentManifest genesis mirrors authenticatedSuggestions endpoint := by
  have hprevious : endpoint ∈ (store.sortedConnections.filter (store.Knows plane)).map
      SuccessfulConnection.endpoint ↔
        ∃ success ∈ store.successfulConnections, success.endpoint = endpoint ∧
          ∃ peer ∈ store.peers, peer.memberId = success.memberId ∧ peer.plane = plane := by
    simp only [List.mem_map, List.mem_filter, sortedConnections, List.mem_insertionSort, Knows,
      List.any_eq_true, Bool.and_eq_true, beq_iff_eq]
    exact exists_congr fun success => by rw [and_assoc, and_comm (b := _ = endpoint)]
  rw [Offered, ← hprevious]
  simp [sourceOrder]

theorem endpoints_candidates :
    (store.previousConnections plane ++ manifestRecords currentManifest ++ genesis ++ mirrors ++
        authenticatedSuggestions).map EndpointRecord.endpoint =
      sourceOrder (store.sortedConnections.filter (store.Knows plane)) currentManifest genesis
        mirrors authenticatedSuggestions := by
  have hmanifest : (manifestRecords currentManifest).map EndpointRecord.endpoint =
      currentManifest.toList.flatMap fun manifest =>
        manifest.members.map ManifestMember.endpoint := by
    cases currentManifest with
    | none => rfl
    | some manifest => simp [manifestRecords, Function.comp_def]
  simp only [List.map_append, previousConnections_endpoints, hmanifest, sourceOrder]

/-- Every source of a store that knows onion endpoints only is in order. -/
theorem isOnion_of_offered (hstore : store.Vetted x)
    (hmanifest : ∀ manifest ∈ currentManifest, ∀ member ∈ manifest.members, IsOnion x member.endpoint)
    (hrecords : ∀ record ∈ genesis ++ mirrors ++ authenticatedSuggestions,
      IsOnion x record.endpoint) {endpoint : String}
    (h : store.Offered plane currentManifest genesis mirrors authenticatedSuggestions endpoint) :
    IsOnion x endpoint := by
  rcases h with ⟨success, hsuccess, rfl, _⟩ | ⟨manifest, hm, member, hmember, rfl⟩ |
    ⟨record, hrecord, rfl⟩ | ⟨record, hrecord, rfl⟩ | ⟨record, hrecord, rfl⟩
  · exact hstore success hsuccess
  · exact hmanifest manifest hm member hmember
  · exact hrecords record (List.mem_append_left _ (List.mem_append_left _ hrecord))
  · exact hrecords record (List.mem_append_left _ (List.mem_append_right _ hrecord))
  · exact hrecords record (List.mem_append_right _ hrecord)

end Main

/-- **Candidates in order.** Whatever a store has recorded, with other sources that name
onion endpoints only it finds every endpoint of every source, each once, in the order in
which the sources first name them, the most recent connections first. -/
theorem orderedCandidates_ordered (x : Crates) (calls : List StoreCall) (plane : DiscoveryPlane)
    (currentManifest : Option MembershipManifestV1)
    (genesis mirrors authenticatedSuggestions : List EndpointRecord)
    (hmanifest : ∀ manifest ∈ currentManifest, ∀ member ∈ manifest.members, IsOnion x member.endpoint)
    (hrecords : ∀ record ∈ genesis ++ mirrors ++ authenticatedSuggestions,
      IsOnion x record.endpoint) :
    let store := run (perform x) calls empty
    ∃ candidates, store.orderedCandidates x plane currentManifest genesis mirrors
        authenticatedSuggestions = .ok candidates ∧
      store.Ordered plane currentManifest genesis mirrors authenticatedSuggestions candidates := by
  intro store
  have hstore : store.Vetted x := run_vetted calls vetted_empty
  have hvalid : ∀ c ∈ store.previousConnections plane ++ manifestRecords currentManifest ++ genesis ++
      mirrors ++ authenticatedSuggestions, IsOnion x c.endpoint := by
    intro c hc
    have hendpoint := List.mem_map_of_mem (f := EndpointRecord.endpoint) hc
    rw [endpoints_candidates, mem_sourceOrder] at hendpoint
    exact isOnion_of_offered hstore hmanifest hrecords hendpoint
  refine ⟨_, deduplicateValid_eq hvalid [], nodup_map_firsts _ _, fun endpoint => ?_,
    store.sortedConnections.filter (store.Knows plane), (List.perm_insertionSort _ _).filter _,
    (List.pairwise_insertionSort NoEarlier _).filter _, ?_⟩
  · rw [mem_map_firsts, endpoints_candidates, mem_sourceOrder, and_iff_left List.not_mem_nil]
  · rw [← endpoints_candidates]
    exact pairwise_idxOf_firsts _ _

/-- A store that has connected to Alice, and a genesis list that names her and Bob. -/
theorem orderedCandidates_alice_bob :
    let store := run (perform (.plain [])) [
      .upsertAuthenticated ⟨alice.memberId, .vault, alice.rootPublicKey, alice.endpoint, 1000⟩,
      .recordSuccess alice.memberId alice.endpoint 2000] empty
    let genesis : List EndpointRecord := [
      ⟨bob.memberId, bob.endpoint, .genesis, 0⟩, ⟨alice.memberId, alice.endpoint, .genesis, 0⟩]
    ∃ candidates, store.orderedCandidates (.plain []) .vault none genesis [] [] = .ok candidates ∧
      store.Ordered .vault none genesis [] [] candidates := by
  intro store genesis
  refine orderedCandidates_ordered (.plain []) _ .vault none genesis [] [] (by simp) ?_
  intro record hrecord
  have hlisted : record ∈ genesis := by simpa using hrecord
  rcases List.mem_pair.mp hlisted with rfl | rfl
  · exact validateOnionEndpoint_ok _ bob_endpoint
  · exact validateOnionEndpoint_ok _ alice_endpoint

end PersistentPeerStore

end Kerosene.Node
