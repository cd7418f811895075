import Kerosene.Node.JointConsensus
import Kerosene.Node.Service

/-! What a node that reports itself ready has been through.

`Sound` relates a state to the calls that led to it: every active peer had a hello
accepted, the lifecycle goes on from the one at the start, and if it has passed
verification since, a snapshot was shown. Every call keeps it (`Sound.step`),
whatever the clocks and files do, so it holds after any run (`run_sound`).
`financial_ready_sound` and `quorum_ready_current` read the reports off it. -/
namespace Kerosene.Node

open Lib.Encode Lib.Inplace Lib.Tables Lib.Word Ledger

namespace NodeService

variable {x : Crates} {svc : NodeService x}

/-! ### Frames -/

section Frames
variable (s : NodeState) (now : UInt64)

@[simp] theorem activateIfQuorum_membership :
    (svc.activateIfQuorum now s).membership = s.membership := by
  unfold activateIfQuorum
  dsimp only
  split_ifs <;> rfl

@[simp] theorem activateIfQuorum_manifests :
    (svc.activateIfQuorum now s).manifests = s.manifests := by
  unfold activateIfQuorum
  dsimp only
  split_ifs <;> rfl

@[simp] theorem activateIfQuorum_activePeers :
    (svc.activateIfQuorum now s).activePeers = (svc.expirePeers now s).activePeers := by
  unfold activateIfQuorum
  dsimp only
  split_ifs <;> rfl

/-- No peer becomes active by time passing. -/
theorem activateIfQuorum_lookup_eq_none {id : String} (h : s.activePeers.lookup id = none) :
    (svc.activateIfQuorum now s).activePeers.lookup id = none := by
  rw [activateIfQuorum_activePeers]
  exact lookup_retain_eq_none _ h

theorem activateIfQuorum_lookup {id : String} {t : UInt64} (h : s.activePeers.lookup id = some t)
    (hlive : svc.isLive now t = true) :
    (svc.activateIfQuorum now s).activePeers.lookup id = some t := by
  rw [activateIfQuorum_activePeers]
  exact (lookup_retain _ _).mpr ⟨h, hlive⟩

/-- Only an eligible node with a quorum moves. -/
theorem activateIfQuorum_lifecycle :
    (svc.activateIfQuorum now s).lifecycle =
      if (svc.readiness now s).1.quorumReady && s.lifecycle.state == .eligible then
        s.lifecycle.advanceOrStay .active
      else s.lifecycle :=
  apply_ite NodeState.lifecycle _ _ _

theorem later_activateIfQuorum : s.lifecycle.Later (svc.activateIfQuorum now s).lifecycle := by
  rw [activateIfQuorum_lifecycle]
  split_ifs
  · exact Lifecycle.later_advanceOrStay _ _
  · exact .refl _

theorem activateIfQuorum_state :
    (svc.activateIfQuorum now s).lifecycle.state =
      if (svc.readiness now s).1.quorumReady && s.lifecycle.state == .eligible then .active
      else s.lifecycle.state := by
  rw [activateIfQuorum_lifecycle]
  split_ifs with h
  · rw [Bool.and_eq_true, beq_iff_eq] at h
    rw [Lifecycle.state_advanceOrStay _ .eligible rfl, if_pos h.2]
  · rfl

theorem isStateVerified_activateIfQuorum :
    (svc.activateIfQuorum now s).lifecycle.state.isStateVerified =
      s.lifecycle.state.isStateVerified := by
  rw [activateIfQuorum_state]
  split_ifs with h
  · rw [Bool.and_eq_true, beq_iff_eq] at h
    rw [h.2]
    rfl
  · rfl

end Frames

section Authentication
variable (localMember : Bool) (l : Lifecycle)

theorem later_afterAuthentication : l.Later (afterAuthentication localMember l) := by
  have hfirst : l.Later (if l.state == .discovering then l.advanceOrStay .authenticated else l) := by
    split_ifs
    · exact Lifecycle.later_advanceOrStay _ _
    · exact .refl l
  unfold afterAuthentication
  dsimp only
  generalize (if l.state == .discovering then l.advanceOrStay .authenticated else l) = m at hfirst ⊢
  split_ifs
  · exact hfirst.trans ((Lifecycle.later_advanceOrStay _ _).trans
      (Lifecycle.later_advanceOrStay _ _))
  · exact hfirst

theorem afterAuthentication_state :
    (afterAuthentication localMember l).state =
      if l.state = .discovering ∨ l.state = .authenticated then
        if localMember then .syncing else .authenticated
      else l.state := by
  have hfirst : (if l.state == .discovering then l.advanceOrStay .authenticated else l).state =
      if l.state = .discovering then .authenticated else l.state := by
    rw [apply_ite Lifecycle.state, Lifecycle.state_advanceOrStay _ .discovering rfl]
    cases l.state <;> rfl
  unfold afterAuthentication
  dsimp only
  generalize (if l.state == .discovering then l.advanceOrStay .authenticated else l) = m at hfirst ⊢
  rw [apply_ite Lifecycle.state, Lifecycle.state_advanceOrStay _ .memberVerified rfl,
    Lifecycle.state_advanceOrStay _ .authenticated rfl, hfirst]
  cases l.state <;> cases localMember <;> rfl

/-- No peer leads past verification. -/
theorem isStateVerified_afterAuthentication :
    (afterAuthentication localMember l).state.isStateVerified = l.state.isStateVerified := by
  rw [afterAuthentication_state]
  cases l.state <;> cases localMember <;> rfl

end Authentication

/-- A manifest brings no peer in. -/
theorem acceptMembership_lookup_eq_none (manifest : MembershipManifestV1)
    (appended : Except DiscoveryError Unit) (now : UInt64) {s : NodeState} {id : String}
    (h : s.activePeers.lookup id = none) :
    (svc.perform (.acceptMembership manifest appended now) s).activePeers.lookup id = none := by
  have heffect := perform_effect svc s (.acceptMembership manifest appended now)
  generalize svc.perform (.acceptMembership manifest appended now) s = s' at heffect ⊢
  cases heffect with
  | challenges _ c => exact h
  | admits _ _ _ _ _ hcall => cases hcall
  | accepts _ _ _ candidate _ => exact activateIfQuorum_lookup_eq_none _ now h

/-! ### What calls have shown -/

/-- Some call presented a hello of the member for this network and plane at time
`t`, and the authenticator accepted it. -/
def HelloAccepted (svc : NodeService x) (start : NodeState) (calls : List Call) (id : String)
    (t : UInt64) : Prop :=
  ∃ before call later hello peer challenges, calls = before ++ call :: later ∧
    call.hello? = some (hello, t) ∧ hello.memberId = id ∧
    hello.networkId = svc.identity.networkId ∧ hello.plane = svc.plane ∧
    svc.authenticator.authenticate x (svc.run before start).membership hello t
      (svc.run before start).challenges = .ok peer challenges

/-- Some call presented a snapshot that verifies. -/
def SnapshotPresented (x : Crates) (calls : List Call) : Prop :=
  ∃ call ∈ calls, ∃ snapshot, call.snapshot? = some snapshot ∧
    snapshot.verify x.toCrypto = .ok ()

theorem HelloAccepted.append {start : NodeState} {calls : List Call} {id : String} {t : UInt64}
    (h : svc.HelloAccepted start calls id t) (call : Call) :
    svc.HelloAccepted start (calls ++ [call]) id t := by
  obtain ⟨before, c, later, hello, peer, challenges, rfl, hrest⟩ := h
  exact ⟨before, c, later ++ [call], hello, peer, challenges, by simp, hrest⟩

theorem SnapshotPresented.append {calls : List Call} (h : SnapshotPresented x calls) (call : Call) :
    SnapshotPresented x (calls ++ [call]) := by
  obtain ⟨c, hc, hrest⟩ := h
  exact ⟨c, List.mem_append_left _ hc, hrest⟩

/-- What a state owes to the calls that led to it. -/
structure Sound (svc : NodeService x) (start : NodeState) (calls : List Call) (s : NodeState) :
    Prop where
  self : s.activePeers.lookup svc.identity.memberId = none
  seen : ∀ id t, s.activePeers.lookup id = some t → svc.HelloAccepted start calls id t
  later : start.lifecycle.Later s.lifecycle
  shown : s.lifecycle.state.isStateVerified →
    start.lifecycle.state.isStateVerified ∨ SnapshotPresented x calls

section Steps
variable {start s s' : NodeState} {calls : List Call}

theorem Sound.append (h : svc.Sound start calls s) (call : Call) :
    svc.Sound start (calls ++ [call]) s :=
  ⟨h.self, fun id t hid => (h.seen id t hid).append call, h.later,
    fun hverified => (h.shown hverified).imp_right fun hshown => hshown.append call⟩

theorem Sound.expirePeers (h : svc.Sound start calls s) (now : UInt64) :
    svc.Sound start calls (svc.expirePeers now s) :=
  ⟨lookup_retain_eq_none _ h.self, fun id t hid => h.seen id t ((lookup_retain _ _).mp hid).1,
    h.later, h.shown⟩

/-- A lifecycle that goes on from this one. -/
theorem Sound.lifecycle (h : svc.Sound start calls s) {l : Lifecycle} (hlater : s.lifecycle.Later l)
    (hshown : l.state.isStateVerified →
      start.lifecycle.state.isStateVerified ∨ SnapshotPresented x calls) :
    svc.Sound start calls { s with lifecycle := l } :=
  ⟨h.self, h.seen, h.later.trans hlater, hshown⟩

theorem Sound.activateIfQuorum (h : svc.Sound start calls s) (now : UInt64) :
    svc.Sound start calls (svc.activateIfQuorum now s) := by
  refine ⟨activateIfQuorum_lookup_eq_none s now h.self, ?_, ?_, ?_⟩
  · rw [activateIfQuorum_activePeers]
    exact (h.expirePeers now).seen
  · exact h.later.trans (later_activateIfQuorum s now)
  · rw [isStateVerified_activateIfQuorum]
    exact h.shown

theorem Sound.advanceAfterAuthentication (h : svc.Sound start calls s) :
    svc.Sound start calls (svc.advanceAfterAuthentication s) := by
  refine h.lifecycle (later_afterAuthentication _ _) ?_
  rw [isStateVerified_afterAuthentication]
  exact h.shown

/-- Every call keeps what is known of the service. -/
theorem Sound.step {call : Call} (h : svc.Sound start calls (svc.run calls start))
    (he : svc.Effect (svc.run calls start) call s') : svc.Sound start (calls ++ [call]) s' := by
  have happend := h.append call
  cases he with
  | challenges _ c => exact ⟨happend.self, happend.seen, happend.later, happend.shown⟩
  | admits _ hello now peer c hcall hother hauth =>
    refine Sound.activateIfQuorum (Sound.advanceAfterAuthentication ?_) now
    obtain ⟨hexamine, _, _⟩ := authenticate_ok hauth
    obtain ⟨hnetwork, hplane⟩ := examine_ok hexamine
    refine ⟨?_, fun id t hid => ?_, happend.later, happend.shown⟩
    · rw [Finmap.lookup_insert_of_ne _ hother.symm]
      exact h.self
    · by_cases hsame : id = hello.memberId
      · rw [hsame, Finmap.lookup_insert] at hid
        cases hid
        exact ⟨calls, call, [], hello, peer, c, rfl, hcall, hsame.symm,
          hnetwork.trans svc.network_eq, hplane.trans svc.plane_eq, hauth⟩
      · rw [Finmap.lookup_insert_of_ne _ hsame] at hid
        exact happend.seen id t hid
  | accepts manifest appended now candidate _ =>
    refine Sound.activateIfQuorum ?_ now
    exact ⟨happend.self, happend.seen, happend.later, happend.shown⟩
  | verifies snapshot saved now l _ hverify hlater _ hs =>
    have hpresented : SnapshotPresented x (calls ++ [.verifyStateSnapshot snapshot saved now]) :=
      ⟨_, List.mem_append_right _ List.mem_cons_self, snapshot, rfl, hverify⟩
    have hnext := happend.lifecycle hlater fun _ => .inr hpresented
    rcases hs with rfl | rfl
    · exact hnext
    · exact hnext.activateIfQuorum now
  | expires now => exact happend.expirePeers now

variable (svc) in
/-- And so does every run that starts without active peers. -/
theorem run_sound (h : start.activePeers = ∅) (calls : List Call) :
    svc.Sound start calls (svc.run calls start) := by
  induction calls using List.reverseRecOn with
  | nil =>
    refine ⟨?_, fun id t hid => ?_, .refl _, .inl⟩
    · rw [run_nil, h, Finmap.lookup_empty]
    · rw [run_nil, h, Finmap.lookup_empty] at hid
      cases hid
  | append_singleton calls call ih =>
    rw [run_append_singleton]
    exact ih.step (perform_effect svc _ call)

end Steps

/-! ### Reports -/

section Reports
variable {identity : NodeIdentity x} {endpoint : String} {plane : DiscoveryPlane}
  {membership : MembershipVerifier} {manifests : List MembershipManifestV1} {file : LifecycleFile}
  {saved : Except SyncError Unit} {challengeTtlMs window : UInt64} {start : NodeState}

theorem new_ok (h : new identity endpoint plane membership manifests file saved challengeTtlMs
    window = .ok (svc, start)) :
    (∃ l, file.load = .ok l ∧ l.Later start.lifecycle ∧ start.lifecycle.state =
      if l.state.isBootstrap then .discovering else l.state) ∧
    start.membership = membership ∧ start.activePeers = ∅ ∧ svc.peerLiveWindowMs = window := by
  simp only [new, except_bind_ok, mapError_eq_ok] at h
  obtain ⟨_, _, l, hload, l', hl', _, _, hstart⟩ := h
  cases hstart
  obtain ⟨l'', hl'', hlater, hstate⟩ := bootstrap_done l
  rw [hl'] at hl''
  cases hl''
  exact ⟨⟨l, hload, hlater, hstate⟩, rfl, rfl, rfl⟩

/-- A member that counts at `now`: this node itself, or a peer seen within the window. -/
def IsLive (svc : NodeService x) (s : NodeState) (now : UInt64) (id : String) : Prop :=
  id = svc.identity.memberId ∨
    ∃ t, s.activePeers.lookup id = some t ∧ saturatingSub now t ≤ svc.peerLiveWindowMs

/-- At least `n` members of the roster are live. -/
def LiveQuorum (svc : NodeService x) (s : NodeState) (now : UInt64) (roster : Roster) (n : ℕ) :
    Prop :=
  ∃ ids : Finset String, n ≤ ids.card ∧
    ∀ id ∈ ids, id ∈ roster.map Prod.fst ∧ svc.IsLive s now id

/-- The peers counted are the ones listed that were seen within the window. -/
theorem mem_liveRemote_expirePeers {s : NodeState} {now : UInt64} {id : String} :
    id ∈ (svc.expirePeers now s).liveRemote ↔ id ∈ s.membership.roster.map Prod.fst ∧
      ∃ t, s.activePeers.lookup id = some t ∧ saturatingSub now t ≤ svc.peerLiveWindowMs := by
  rw [NodeState.liveRemote, Finset.mem_filter, Finmap.mem_keys, ← Finmap.lookup_isSome,
    Option.isSome_iff_exists]
  show (∃ t, (retain _ s.activePeers).lookup id = some t) ∧ id ∈ s.membership.authorizedKeys ↔ _
  simp only [lookup_retain, isLive, decide_eq_true_eq, MembershipVerifier.mem_authorizedKeys]
  exact and_comm

/-- A node reports a quorum when it is listed itself and, with it, as many members
are live as the membership asks for. It is not among its own active peers, so it is
counted once. -/
theorem quorum_ready_iff {s : NodeState} {now : UInt64}
    (hself : s.activePeers.lookup svc.identity.memberId = none) :
    (svc.readiness now s).1.quorumReady = true ↔ svc.localMember s.membership = true ∧
      svc.LiveQuorum s now s.membership.roster s.membership.threshold := by
  have hreport : (svc.readiness now s).1.quorumReady =
      (svc.localMember s.membership && decide (s.membership.threshold ≤
        (svc.expirePeers now s).liveRemote.card + (svc.localMember s.membership).toNat)) := rfl
  rw [hreport, Bool.and_eq_true, decide_eq_true_eq]
  refine and_congr_right fun hlocal => ?_
  have hlisted := List.mem_map_of_mem (f := Prod.fst)
    (MembershipVerifier.mem_roster_of_isMember hlocal)
  have hnot : svc.identity.memberId ∉ (svc.expirePeers now s).liveRemote := by
    intro hin
    obtain ⟨_, t, ht, _⟩ := mem_liveRemote_expirePeers.mp hin
    rw [hself] at ht
    cases ht
  have hcard := Finset.card_insert_of_notMem hnot
  rw [hlocal, Bool.toNat_true, ← hcard]
  constructor
  · intro hcount
    refine ⟨_, hcount, fun id hid => ?_⟩
    rcases Finset.mem_insert.mp hid with rfl | hid
    · exact ⟨hlisted, .inl rfl⟩
    · obtain ⟨hmem, hlive⟩ := mem_liveRemote_expirePeers.mp hid
      exact ⟨hmem, .inr hlive⟩
  · intro h
    obtain ⟨ids, hcount, hids⟩ := h
    refine hcount.trans (Finset.card_le_card fun id hid => ?_)
    obtain ⟨hmem, hlive⟩ := hids id hid
    rcases hlive with rfl | hlive
    · exact Finset.mem_insert_self _ _
    · exact Finset.mem_insert_of_mem (mem_liveRemote_expirePeers.mpr ⟨hmem, hlive⟩)

theorem financialReady_iff {s : NodeState} {now : UInt64} :
    (svc.readiness now s).1.financialReady = true ↔
      (svc.readiness now s).1.quorumReady = true ∧ s.lifecycle.state = .active := by
  show ((svc.readiness now s).1.quorumReady && s.lifecycle.state == .active) = true ↔ _
  rw [Bool.and_eq_true, beq_iff_eq]

/-- **Financial readiness is sound.** Whatever calls a service started without a
lifecycle file has seen, this node is never among its own active peers; and when it
reports itself ready for financial work, it is in the roster in force, as many
distinct members of that roster as the threshold asks for are live, each of them this
node or one whose hello was accepted within the window, some call presented a
snapshot that verifies, and the lifecycle went through all its states in order. -/
theorem financial_ready_sound (hnew : new identity endpoint plane membership manifests .absent saved
      challengeTtlMs window = .ok (svc, start)) (calls : List Call) :
    (svc.run calls start).activePeers.lookup svc.identity.memberId = none ∧
    ∀ now, (svc.readiness now (svc.run calls start)).1.financialReady = true →
      (svc.identity.memberId, svc.identity.rootPublicKeyHex) ∈
        (svc.run calls start).membership.roster ∧
      (∃ ids : Finset String, (svc.run calls start).membership.threshold ≤ ids.card ∧
        ∀ id ∈ ids, id ∈ (svc.run calls start).membership.roster.map Prod.fst ∧
          (id = svc.identity.memberId ∨
            ∃ t, svc.HelloAccepted start calls id t ∧ saturatingSub now t ≤ window)) ∧
      SnapshotPresented x calls ∧
      (svc.run calls start).lifecycle.path = LifecycleState.all := by
  obtain ⟨⟨l, hl, hlater, hstate⟩, _, hpeers, hwindow⟩ := new_ok hnew
  cases hl
  have hsound := svc.run_sound hpeers calls
  refine ⟨hsound.self, fun now hready => ?_⟩
  obtain ⟨hquorum, hactive⟩ := financialReady_iff.mp hready
  obtain ⟨hlocal, ids, hcount, hids⟩ := (quorum_ready_iff hsound.self).mp hquorum
  have hmem := MembershipVerifier.mem_roster_of_isMember hlocal
  refine ⟨hmem, ⟨ids, hcount, fun id hid => ?_⟩, ?_, ?_⟩
  · obtain ⟨hlisted, hlive⟩ := hids id hid
    refine ⟨hlisted, hlive.imp_right fun hseen => ?_⟩
    obtain ⟨t, ht, hle⟩ := hseen
    rw [hwindow] at hle
    exact ⟨t, hsound.seen id t ht, hle⟩
  · -- The node starts at `discovering`, before any snapshot.
    refine (hsound.shown (by rw [hactive]; rfl)).resolve_left fun hverified => ?_
    rw [hstate] at hverified
    cases hverified
  · rw [Lifecycle.path_eq (hlater.trans hsound.later).head?, hactive]
    rfl

/-- **A quorum is one of the current manifest.** When a node reports a quorum, it is
in the roster of its current manifest, a joint one or not, and as many of that
roster's members are live as the manifest's threshold asks for. -/
theorem quorum_ready_current (hnew : new identity endpoint plane membership manifests file saved
      challengeTtlMs window = .ok (svc, start)) (calls : List Call) (now : UInt64)
    {current : MembershipManifestV1}
    (hcurrent : (svc.run calls start).membership.current = some current)
    (hready : (svc.readiness now (svc.run calls start)).1.quorumReady = true) :
    (svc.identity.memberId, svc.identity.rootPublicKeyHex) ∈ current.roster ∧
      svc.LiveQuorum (svc.run calls start) now current.roster current.threshold.toNat := by
  obtain ⟨_, _, hpeers, _⟩ := new_ok hnew
  obtain ⟨hlocal, hlive⟩ := (quorum_ready_iff (svc.run_sound hpeers calls).self).mp hready
  have hmem := MembershipVerifier.mem_roster_of_isMember hlocal
  rw [MembershipVerifier.roster, hcurrent] at hmem hlive
  rw [MembershipVerifier.threshold, hcurrent] at hlive
  exact ⟨hmem, hlive⟩

end Reports

end NodeService

/-! ### Bob's node -/

/-- A key that signs what is on record for it. -/
def SigningKey.recorded (valid : List (Vector UInt8 32 × Bytes × Vector UInt8 64))
    (key : Vector UInt8 32) : SigningKey where
  verifyingKey := key
  sign message :=
    match valid.find? fun entry => entry.1 == key && entry.2.1 == message with
    | some entry => entry.2.2
    | none => Vector.replicate 64 0

/-- Alice's signature of her answer to Bob's challenge. -/
def aliceAnswer : Vector UInt8 64 := #v[
  0x80, 0x85, 0x7d, 0xed, 0xb6, 0x4d, 0xa5, 0x5e, 0x6c, 0xf3, 0xb9, 0x0a, 0xe5, 0xf1, 0x28, 0x48,
  0xc2, 0x65, 0x16, 0xf5, 0x74, 0x12, 0x1a, 0x85, 0xad, 0xc1, 0x06, 0x21, 0xd2, 0x46, 0x46, 0x86,
  0x3e, 0x47, 0x29, 0x0d, 0xe7, 0x1a, 0xd1, 0x9a, 0x88, 0x52, 0x36, 0xad, 0xdb, 0x6b, 0xde, 0xc1,
  0xb1, 0xdb, 0x86, 0x9a, 0xbe, 0xd4, 0x42, 0xc7, 0x45, 0x2f, 0xd3, 0xcf, 0x68, 0x29, 0x52, 0x0a]

def bobChallenge : Vector UInt8 32 := Vector.replicate 32 7

def aliceHello : PeerHelloV1 where
  contractVersion := "1"
  networkId := "kerosene-test"
  plane := .vault
  memberId := alice.memberId
  rootPublicKey := alice.rootPublicKey
  challenge := Lib.Digest.toHex bobChallenge.toList
  issuedAtEpochMs := 1000
  endpoint := alice.endpoint
  signature := Lib.Digest.toHex aliceAnswer.toList

def helloRecord : List (Vector UInt8 32 × Bytes × Vector UInt8 64) :=
  (aliceKey, (Crates.plain []).helloSigningBytes aliceHello, aliceAnswer) :: networkRecord

theorem network_subset_hello : networkRecord ⊆ helloRecord := List.subset_cons_self _ _

def bobIdentity : NodeIdentity (.plain helloRecord) :=
  .fromSigningKey "kerosene-test" .vault (.recorded helloRecord bobKey)

def bobService : NodeService (.plain helloRecord) where
  identity := bobIdentity
  endpoint := bob.endpoint
  plane := .vault
  authenticator := ⟨"kerosene-test", .vault, 60000⟩
  peerLiveWindowMs := 30000
  network_eq := rfl
  plane_eq := rfl

/-- Bob's node as it starts on the genesis roster. -/
def bobStart : NodeState where
  challenges := .new 60000
  membership := networkVerifier
  manifests := []
  lifecycle := ⟨.discovering, [.created, .identityReady, .transportReady], by decide⟩
  activePeers := ∅

theorem new_bobService :
    NodeService.new bobIdentity bob.endpoint .vault networkVerifier [] .absent (.ok ()) 60000 30000 =
      .ok (bobService, bobStart) := by
  have hendpoint : validateOnionEndpoint (.plain helloRecord)
      DiscoveryError.invalidEndpoint.display bob.endpoint = .ok () :=
    validateOnionEndpoint_ok _ bob_endpoint
  simp only [NodeService.new, except_bind_ok, mapError_eq_ok]
  exact ⟨(), hendpoint, .ofState .created, rfl, bobStart.lifecycle, rfl, (), trivial, rfl⟩

theorem memberId_plain (valid : List (Vector UInt8 32 × Bytes × Vector UInt8 64)) (network : String)
    (key : Vector UInt8 32) :
    (Crates.plain valid).memberId network key = (Crates.plain []).memberId network key := rfl

theorem bob_memberId : bobService.identity.memberId = bob.memberId :=
  memberId_plain helloRecord "kerosene-test" bobKey

theorem bob_localMember : bobService.localMember networkVerifier = true :=
  (MembershipVerifier.new_bound (new_network helloRecord .vault)).2.isMember
    (List.mem_cons_of_mem _ List.mem_cons_self)

theorem alice_isMember : networkVerifier.isMember alice.memberId alice.rootPublicKey = true :=
  (MembershipVerifier.new_bound (new_network helloRecord .vault)).2.isMember List.mem_cons_self

/-- A hello signed on record under the id of its key. -/
theorem verifyHelloSignature_plain {valid : List (Vector UInt8 32 × Bytes × Vector UInt8 64)}
    {hello : PeerHelloV1} {key : Vector UInt8 32} {signature : Vector UInt8 64}
    (h : (key, (Crates.plain []).helloSigningBytes hello, signature) ∈ valid)
    (hkey : hello.rootPublicKey = Lib.Digest.toHex key.toList)
    (hid : hello.memberId = (Crates.plain []).memberId hello.networkId key)
    (hsignature : hello.signature = Lib.Digest.toHex signature.toList) :
    verifyHelloSignature (.plain valid) hello = .ok () := by
  have hlisted : key ∈ valid.map Prod.fst := List.mem_map_of_mem h
  simp only [verifyHelloSignature, except_bind_ok, okOr_ok, mapError_eq_ok, refuse_ok, hkey, hid,
    hsignature]
  exact ⟨key, decodeArray_toHex key, (), if_pos hlisted, (), fun hne => hne rfl, signature,
    decodeArray_toHex signature, ne_false_of_eq_true (decide_eq_true h)⟩

theorem examine_aliceHello :
    bobService.authenticator.examine (.plain helloRecord) aliceHello 1000 = .ok () := by
  have hsigned : verifyHelloSignature (.plain helloRecord) aliceHello = .ok () :=
    verifyHelloSignature_plain List.mem_cons_self rfl rfl rfl
  simp only [PeerAuthenticator.examine, except_then_ok, refuse_ok, mapError_eq_ok]
  exact ⟨by simp [aliceHello, bobService, Crates.plain], by decide,
    validateOnionEndpoint_ok _ alice_endpoint, hsigned⟩

def bobSnapshot : StateSnapshot := ⟨1, [], (Crates.plain []).sha256Hex []⟩

/-- Alice answers a challenge, then a snapshot is verified. -/
def bobCalls : List Call := [
  .issueChallenge bobChallenge 1000,
  .observePeer aliceHello 1000 ⟨.ok (), .ok ()⟩,
  .verifyStateSnapshot bobSnapshot (.ok ()) 1500]

section Bob
open NodeService

/-- Alice's hello is admitted: Bob's node knows her and waits for a snapshot. -/
theorem perform_aliceHello {s : NodeState} (hmembership : s.membership = networkVerifier)
    (hstate : s.lifecycle.state = .discovering)
    (hpending : s.challenges.pending.lookup aliceHello.challenge = some 61000) :
    ∃ s', bobService.perform (.observePeer aliceHello 1000 ⟨.ok (), .ok ()⟩) s = s' ∧
      s'.membership = networkVerifier ∧ s'.lifecycle.state = .syncing ∧
      s'.activePeers.lookup alice.memberId = some 1000 := by
  obtain ⟨c, hc⟩ := authenticate_of_member examine_aliceHello hpending (by decide)
    (hmembership ▸ alice_isMember)
  have hother : aliceHello.memberId ≠ bobService.identity.memberId := by
    rw [bob_memberId, aliceHello]
    exact alice_ne_bob
  have hsyncing : (afterAuthentication (bobService.localMember s.membership) s.lifecycle).state =
      .syncing := by
    rw [afterAuthentication_state, hmembership, bob_localMember, if_pos (.inl hstate), if_pos rfl]
  refine ⟨_, bobService.perform_observePeer hother hc, ?_, ?_, ?_⟩
  · rw [activateIfQuorum_membership]
    exact hmembership
  · rw [activateIfQuorum_state, advanceAfterAuthentication]
    simp only [hsyncing]
    exact if_neg (by simp)
  · exact activateIfQuorum_lookup _ 1000 (Finmap.lookup_insert _) rfl

/-- With Alice seen at 1000 Bob's node has a quorum until 31000. -/
theorem bob_quorum {s : NodeState} {now : UInt64} (hmembership : s.membership = networkVerifier)
    (hself : s.activePeers.lookup bobService.identity.memberId = none)
    (halice : s.activePeers.lookup alice.memberId = some 1000)
    (hnow : saturatingSub now 1000 ≤ 30000) :
    (bobService.readiness now s).1.quorumReady = true := by
  refine (quorum_ready_iff hself).mpr ⟨hmembership ▸ bob_localMember, ?_⟩
  refine ⟨{alice.memberId, bob.memberId}, ?_, fun id hid => ?_⟩
  · rw [Finset.card_pair alice_ne_bob, hmembership]
    rfl
  · rw [hmembership]
    rcases Finset.mem_insert.mp hid with rfl | hid
    · exact ⟨List.mem_cons_self, .inr ⟨1000, halice, hnow⟩⟩
    · rw [Finset.mem_singleton.mp hid]
      exact ⟨List.mem_cons_of_mem _ List.mem_cons_self, .inl rfl⟩

/-- After Alice's answer Bob's node waits for a snapshot. -/
def bobWaiting : NodeState := bobService.run (bobCalls.take 2) bobStart

theorem bobWaiting_eq :
    bobWaiting = bobService.perform (.observePeer aliceHello 1000 ⟨.ok (), .ok ()⟩)
      (bobService.perform (.issueChallenge bobChallenge 1000) bobStart) := by
  rw [bobWaiting, bobCalls, List.take_succ_cons, List.take_succ_cons, List.take_zero, run_cons,
    run_cons, run_nil]

theorem bob_waiting :
    bobWaiting.membership = networkVerifier ∧ bobWaiting.lifecycle.state = .syncing ∧
      bobWaiting.activePeers.lookup alice.memberId = some 1000 ∧
      bobWaiting.activePeers.lookup bobService.identity.memberId = none := by
  have hpending : (bobService.perform (.issueChallenge bobChallenge 1000)
      bobStart).challenges.pending.lookup aliceHello.challenge = some 61000 :=
    Finmap.lookup_insert _
  have hsound : bobService.Sound bobStart (bobCalls.take 2) bobWaiting :=
    bobService.run_sound rfl (bobCalls.take 2)
  obtain ⟨s, hs, hmembership, hsyncing, halice⟩ := perform_aliceHello rfl rfl hpending
  have hself := hsound.self
  rw [bobWaiting_eq, hs] at hself ⊢
  exact ⟨hmembership, hsyncing, halice, hself⟩

theorem verify_bobSnapshot : bobSnapshot.verify (Crates.plain helloRecord).toCrypto = .ok () :=
  refuse_ok.mpr fun h => h rfl

/-- The snapshot makes the node active: with Alice it has a quorum. -/
theorem ready_of_snapshot {s : NodeState} (hmembership : s.membership = networkVerifier)
    (hsyncing : s.lifecycle.state = .syncing)
    (halice : s.activePeers.lookup alice.memberId = some 1000)
    (hself : s.activePeers.lookup bobService.identity.memberId = none) :
    (bobService.readiness 2000 (bobService.perform
      (.verifyStateSnapshot bobSnapshot (.ok ()) 1500) s)).1.financialReady = true := by
  obtain ⟨l, _, heligible, hcall⟩ :=
    bobService.verifyStateSnapshot_syncing verify_bobSnapshot hsyncing (.ok ()) 1500
  rw [perform, after_ok hcall]
  have hquorum : (bobService.readiness 1500 { s with lifecycle := l }).1.quorumReady = true :=
    bob_quorum hmembership hself halice (by decide)
  have hactive : (bobService.activateIfQuorum 1500 { s with lifecycle := l }).lifecycle.state =
      .active := by
    rw [activateIfQuorum_state, hquorum]
    simp only [heligible]
    rfl
  refine financialReady_iff.mpr ⟨bob_quorum ?_ ?_ ?_ (by decide), hactive⟩
  · rw [activateIfQuorum_membership]
    exact hmembership
  · exact activateIfQuorum_lookup_eq_none _ 1500 hself
  · exact activateIfQuorum_lookup _ 1500 halice rfl

theorem bob_financial_ready :
    (bobService.readiness 2000 (bobService.run bobCalls bobStart)).1.financialReady = true := by
  obtain ⟨hmembership, hsyncing, halice, hself⟩ := bob_waiting
  have hlast : bobService.run bobCalls bobStart =
      bobService.perform (.verifyStateSnapshot bobSnapshot (.ok ()) 1500) bobWaiting := by
    rw [bobWaiting_eq, bobCalls, run_cons, run_cons, run_cons, run_nil]
  rw [hlast]
  exact ready_of_snapshot hmembership hsyncing halice hself

theorem financial_ready_sound_bob :
    (bobService.run bobCalls bobStart).activePeers.lookup bob.memberId = none ∧
      SnapshotPresented (.plain helloRecord) bobCalls ∧
      (bobService.run bobCalls bobStart).lifecycle.path = LifecycleState.all := by
  obtain ⟨hself, hready⟩ := financial_ready_sound new_bobService bobCalls
  obtain ⟨_, _, hshown, hpath⟩ := hready 2000 bob_financial_ready
  exact ⟨hself, hshown, hpath⟩

/-! ### The roster passes to Bob -/

def bobJointCalls : List Call := [
  .acceptMembership aliceManifest (.ok ()) 1000, .acceptMembership jointManifest (.ok ()) 1000]

theorem perform_alice {s : NodeState} (h : s.membership = networkVerifier) (now : UInt64) :
    bobService.perform (.acceptMembership aliceManifest (.ok ()) now) s =
      bobService.activateIfQuorum now { s with
        manifests := s.manifests ++ [aliceManifest]
        membership := { networkVerifier with current := some aliceManifest } } := by
  have hfresh : s.membership.currentHash (.plain helloRecord) ≠
      some ((Crates.plain helloRecord).canonicalHash aliceManifest) := by
    rw [h]
    exact (Option.some_ne_none _).symm
  refine bobService.perform_acceptMembership hfresh ?_ now
  rw [h]
  exact accept_alice network_subset_hello

theorem perform_joint {s : NodeState}
    (h : s.membership = { networkVerifier with current := some aliceManifest }) (now : UInt64) :
    bobService.perform (.acceptMembership jointManifest (.ok ()) now) s =
      bobService.activateIfQuorum now { s with
        manifests := s.manifests ++ [jointManifest]
        membership := { networkVerifier with current := some jointManifest } } := by
  refine bobService.perform_acceptMembership ?_ (h ▸ accept_joint network_subset_hello) now
  rw [h, MembershipVerifier.currentHash, Option.map_some, canonicalHash_plain, canonicalHash_plain]
  exact fun hsame => alice_hash_ne_joint (Option.some.inj hsame)

/-- The joint manifest is current and no peer was ever seen. -/
theorem bob_joint :
    (bobService.run (bobJointCalls.take 1) bobStart).membership.current = some aliceManifest ∧
      (bobService.run bobJointCalls bobStart).membership =
        { networkVerifier with current := some jointManifest } ∧
      ∀ id, (bobService.run bobJointCalls bobStart).activePeers.lookup id = none := by
  have hfirst : (bobService.perform (.acceptMembership aliceManifest (.ok ()) 1000)
      bobStart).membership = { networkVerifier with current := some aliceManifest } := by
    rw [perform_alice rfl, activateIfQuorum_membership]
  rw [bobJointCalls, List.take_succ_cons, List.take_zero, run_cons, run_cons, run_nil, run_cons,
    run_nil]
  refine ⟨?_, ?_, fun id => ?_⟩
  · rw [hfirst]
  · rw [perform_joint hfirst 1000, activateIfQuorum_membership]
  · exact acceptMembership_lookup_eq_none _ _ 1000
      (acceptMembership_lookup_eq_none _ _ 1000 (Finmap.lookup_empty id))

/-- Under the joint manifest Bob's node is a quorum by itself. -/
theorem quorum_of_joint {s : NodeState} (now : UInt64)
    (hmembership : s.membership = { networkVerifier with current := some jointManifest })
    (hself : s.activePeers.lookup bobService.identity.memberId = none) :
    (bobService.readiness now s).1.quorumReady = true := by
  have hbound := ((MembershipVerifier.new_bound (new_network helloRecord .vault)).2.accept
    (accept_alice network_subset_hello)).accept (accept_joint network_subset_hello)
  refine (quorum_ready_iff hself).mpr ⟨?_, {bob.memberId}, ?_, fun id hid => ?_⟩
  · rw [hmembership]
    exact hbound.isMember List.mem_cons_self
  · rw [hmembership]
    rfl
  · rw [Finset.mem_singleton.mp hid, hmembership]
    exact ⟨List.mem_cons_self, .inl rfl⟩

theorem bob_joint_quorum :
    (bobService.readiness 1000 (bobService.run bobJointCalls bobStart)).1.quorumReady = true := by
  obtain ⟨_, hmembership, hpeers⟩ := bob_joint
  exact quorum_of_joint 1000 hmembership (hpeers _)

theorem quorum_ready_current_joint :
    bobService.LiveQuorum (bobService.run bobJointCalls bobStart) 1000 jointManifest.roster 1 :=
  (quorum_ready_current new_bobService bobJointCalls 1000
    (congrArg MembershipVerifier.current bob_joint.2.1) bob_joint_quorum).2

/-- The old roster has no live member, and still there is a quorum. -/
theorem joint_quorum_without_old :
    NodeService.new bobIdentity bob.endpoint .vault networkVerifier [] .absent (.ok ()) 60000 30000 =
        .ok (bobService, bobStart) ∧
      (bobService.run (bobJointCalls.take 1) bobStart).membership.current = some aliceManifest ∧
      aliceManifest.phase = .stable ∧
      (bobService.run bobJointCalls bobStart).membership.current = some jointManifest ∧
      jointManifest.phase = .joint ∧
      (bobService.readiness 1000 (bobService.run bobJointCalls bobStart)).1.quorumReady = true ∧
      ¬ bobService.LiveQuorum (bobService.run bobJointCalls bobStart) 1000 aliceManifest.roster
        aliceManifest.threshold.toNat := by
  obtain ⟨hfirst, hmembership, hpeers⟩ := bob_joint
  refine ⟨new_bobService, hfirst, rfl, congrArg MembershipVerifier.current hmembership, rfl,
    bob_joint_quorum, ?_⟩
  intro h
  obtain ⟨ids, hcount, hids⟩ := h
  obtain ⟨id, hid⟩ := Finset.card_pos.mp hcount
  obtain ⟨hlisted, hlive⟩ := hids id hid
  have halice : id = alice.memberId := List.mem_singleton.mp hlisted
  rcases hlive with hbob | ⟨t, ht, _⟩
  · exact alice_ne_bob (halice.symm.trans hbob)
  · rw [hpeers id] at ht
    cases ht

end Bob

end Kerosene.Node
