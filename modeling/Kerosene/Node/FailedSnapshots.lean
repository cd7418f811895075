import Kerosene.Node.Readiness

/-! Snapshots that a node failed to verify.

`verifyStateSnapshot` moves the lifecycle first and writes its file then. A call that is
refused by the snapshot or by the lifecycle changes nothing, but one whose file cannot be
written fails with the node eligible already (`error_keeps_lifecycle_iff`), and the next
hello or manifest may make it active. A manifest is taken more carefully: it is accepted on a
copy, which takes the place of the verifier when the file is written.

`Reached` are the states of nodes over all their lives, with whether some call has verified a
snapshot. As long as no file is lost at the wrong moment, a node that is past verification
has verified one (`verified_of_reached`). -/
namespace Kerosene.Node

open Lib.Inplace Lib.Tables

theorem LifecycleState.isStateVerified_iff {s : LifecycleState} :
    s.isStateVerified = true ↔ 7 ≤ s.rank := by
  cases s <;> decide

namespace NodeService

variable {x : Crates}

/-! ### One call -/

/-- The file is written when a snapshot has passed and the node was waiting for one. -/
def SavedWhenVerified (x : Crates) (s : NodeState) : Call → Prop
  | .verifyStateSnapshot snapshot saved _ =>
    snapshot.verify x.toCrypto = .ok () → s.lifecycle.state = .syncing → saved = .ok ()
  | _ => True

theorem savedWhenVerified_other (s : NodeState) (call : Call) (h : call.snapshot? = none) :
    SavedWhenVerified x s call := by
  cases call with
  | verifyStateSnapshot => cases h
  | _ => trivial

/-- A failed call leaves the state of the lifecycle exactly when it was not the file that
failed it. -/
theorem error_keeps_lifecycle_iff {svc : NodeService x} {s s' : NodeState}
    {snapshot : StateSnapshot} {saved : Except SyncError Unit} {now : UInt64} {e : SyncError}
    (h : svc.verifyStateSnapshot snapshot saved now s = .error e s') :
    s'.lifecycle.state = s.lifecycle.state ↔
      SavedWhenVerified x s (.verifyStateSnapshot snapshot saved now) := by
  by_cases hpassed : snapshot.verify x.toCrypto = .ok () ∧ s.lifecycle.state = .syncing
  · obtain ⟨hverify, hsyncing⟩ := hpassed
    obtain ⟨l, _, hstate, hcall⟩ := svc.verifyStateSnapshot_syncing hverify hsyncing saved now
    rw [h] at hcall
    cases saved with
    | ok u => cases hcall
    | error e' =>
      cases hcall
      refine iff_of_false (fun hkept => ?_) fun hrule => ?_
      · rw [hsyncing] at hkept
        cases hstate.symm.trans hkept
      · cases hrule hverify hsyncing
  · obtain ⟨e', he'⟩ := svc.verifyStateSnapshot_refused hpassed saved now
    rw [he'] at h
    cases h
    exact iff_of_true rfl fun hverify hsyncing => absurd ⟨hverify, hsyncing⟩ hpassed

/-! ### All lives of a node -/

/-- A call that verifies a snapshot and returns `Ok`. -/
def verifiedBy (svc : NodeService x) (s : NodeState) : Call → Bool
  | .verifyStateSnapshot snapshot saved now =>
    match outcome (svc.verifyStateSnapshot snapshot saved now) s with
    | .ok () => true
    | .error _ => false
  | _ => false

/-- A service and its state, reached by calls that obey a rule, and whether one of them
verified a snapshot. A node that is started again finds its file where it left it, or behind:
what is written to it is the lifecycle in memory, which only moves forward. -/
inductive Reached (x : Crates) (Rule : NodeState → Call → Prop) :
    NodeService x → NodeState → Bool → Prop
  | fresh {identity : NodeIdentity x} {endpoint : String} {plane : DiscoveryPlane}
    {membership : MembershipVerifier} {manifests : List MembershipManifestV1}
    {saved : Except SyncError Unit} {challengeTtlMs window : UInt64} {svc : NodeService x}
    {start : NodeState}
    (hnew : new identity endpoint plane membership manifests .absent saved challengeTtlMs window =
      .ok (svc, start)) : Reached x Rule svc start false
  | call {svc : NodeService x} {s : NodeState} {verified : Bool} (h : Reached x Rule svc s verified)
    (call : Call) (hrule : Rule s call) :
    Reached x Rule svc (svc.perform call s) (verified || svc.verifiedBy s call)
  | restart {svc : NodeService x} {s : NodeState} {verified : Bool}
    (h : Reached x Rule svc s verified) {state : LifecycleState}
    (hfile : state.rank ≤ s.lifecycle.state.rank) {identity : NodeIdentity x} {endpoint : String}
    {plane : DiscoveryPlane} {membership : MembershipVerifier}
    {manifests : List MembershipManifestV1} {saved : Except SyncError Unit}
    {challengeTtlMs window : UInt64} {svc' : NodeService x} {start : NodeState}
    (hnew : new identity endpoint plane membership manifests (.holds state) saved challengeTtlMs
      window = .ok (svc', start)) : Reached x Rule svc' start verified

section Reached
variable {svc : NodeService x} {s : NodeState}

/-- A call without a snapshot. -/
theorem Reached.other {Rule : NodeState → Call → Prop} {verified : Bool}
    (h : Reached x Rule svc s verified) {call : Call} (hcall : call.snapshot? = none)
    (hrule : Rule s call) : Reached x Rule svc (svc.perform call s) verified := by
  have hflag : svc.verifiedBy s call = false := by
    cases call with
    | verifyStateSnapshot => cases hcall
    | _ => rfl
  have hnext := h.call call hrule
  rw [hflag, Bool.or_false] at hnext
  exact hnext

/-- Only a snapshot leads past verification. -/
theorem isStateVerified_perform {call : Call} (h : call.snapshot? = none) :
    (svc.perform call s).lifecycle.state.isStateVerified = s.lifecycle.state.isStateVerified := by
  have heffect := perform_effect svc s call
  generalize svc.perform call s = s' at heffect ⊢
  cases heffect with
  | challenges _ c => rfl
  | admits _ hello now peer c _ _ _ =>
    rw [isStateVerified_activateIfQuorum]
    exact isStateVerified_afterAuthentication _ _
  | accepts manifest appended now candidate _ => rw [isStateVerified_activateIfQuorum]
  | verifies => cases h
  | expires now => rfl

/-- A call that obeys the rule and leaves the node past verification found it there, or has
verified a snapshot. -/
theorem verified_of_perform {call : Call} (hrule : SavedWhenVerified x s call)
    (h : (svc.perform call s).lifecycle.state.isStateVerified = true) :
    s.lifecycle.state.isStateVerified = true ∨ svc.verifiedBy s call = true := by
  cases hsnapshot : call.snapshot? with
  | none =>
    rw [isStateVerified_perform hsnapshot] at h
    exact .inl h
  | some snapshot =>
    cases call with
    | verifyStateSnapshot snapshot saved now =>
      by_cases hpassed : snapshot.verify x.toCrypto = .ok () ∧ s.lifecycle.state = .syncing
      · right
        obtain ⟨l, _, _, hcall⟩ := svc.verifyStateSnapshot_syncing hpassed.1 hpassed.2 saved now
        rw [hrule hpassed.1 hpassed.2] at hcall ⊢
        rw [verifiedBy, outcome_ok hcall]
      · left
        obtain ⟨e, he⟩ := svc.verifyStateSnapshot_refused hpassed saved now
        rw [show svc.perform (.verifyStateSnapshot snapshot saved now) s = s from after_error he] at h
        exact h
    | _ => cases hsnapshot

/-- A file behind the lifecycle starts a node that is past verification only if the
lifecycle was. -/
theorem isStateVerified_of_restart {identity : NodeIdentity x} {endpoint : String}
    {plane : DiscoveryPlane} {membership : MembershipVerifier}
    {manifests : List MembershipManifestV1} {file : LifecycleFile} {saved : Except SyncError Unit}
    {challengeTtlMs window : UInt64} {start : NodeState}
    (hnew : new identity endpoint plane membership manifests file saved challengeTtlMs window =
      .ok (svc, start)) (h : start.lifecycle.state.isStateVerified = true) :
    ∃ state, file = .holds state ∧ state.isStateVerified = true := by
  obtain ⟨⟨l, hload, _, hstate⟩, _⟩ := new_ok hnew
  rw [hstate] at h
  split at h
  · cases h
  · cases file with
    | absent =>
      cases hload
      cases h
    | unreadable message => cases hload
    | invalid message => cases hload
    | holds state =>
      cases hload
      exact ⟨state, rfl, h⟩

/-- Past verification only by verification. -/
theorem verified_of_reached {verified : Bool} (h : Reached x (SavedWhenVerified x) svc s verified)
    (hstate : s.lifecycle.state.isStateVerified = true) : verified = true := by
  induction h with
  | fresh hnew =>
    obtain ⟨state, hfile, _⟩ := isStateVerified_of_restart hnew hstate
    cases hfile
  | call _ call hrule ih =>
    rw [Bool.or_eq_true]
    exact (verified_of_perform hrule hstate).imp_left ih
  | restart _ hbehind hnew ih =>
    obtain ⟨state, hfile, hverified⟩ := isStateVerified_of_restart hnew hstate
    cases hfile
    refine ih (LifecycleState.isStateVerified_iff.mpr ?_)
    exact (LifecycleState.isStateVerified_iff.mp hverified).trans hbehind

/-- **Failed verifications.** Of a node for which no file was lost after a snapshot had
passed: a call that fails leaves the state of the lifecycle exactly when its own file is not
lost that way either, and the node is never ready for financial work unless some call has
verified a snapshot. -/
theorem failed_snapshot_neutral {verified : Bool}
    (h : Reached x (SavedWhenVerified x) svc s verified) :
    (∀ snapshot saved now e s', svc.verifyStateSnapshot snapshot saved now s = .error e s' →
        (s'.lifecycle.state = s.lifecycle.state ↔
          SavedWhenVerified x s (.verifyStateSnapshot snapshot saved now))) ∧
      ∀ now, (svc.readiness now s).1.financialReady = true → verified = true := by
  refine ⟨fun _ _ _ _ _ herror => error_keeps_lifecycle_iff herror, fun now hready => ?_⟩
  refine verified_of_reached h ?_
  rw [(financialReady_iff.mp hready).2]
  rfl

end Reached

end NodeService

/-! ### Bob's node waits for a snapshot -/

section Bob
open NodeService

/-- No snapshot was shown so far. -/
theorem reached_waiting {Rule : NodeState → Call → Prop}
    (hrule : ∀ (s : NodeState) (call : Call), call.snapshot? = none → Rule s call) :
    Reached (.plain helloRecord) Rule bobService bobWaiting false := by
  have hfresh : Reached (.plain helloRecord) Rule bobService bobStart false :=
    .fresh new_bobService
  rw [bobWaiting_eq]
  exact (hfresh.other rfl (hrule _ _ rfl)).other rfl (hrule _ _ rfl)

/-- A snapshot that does not match its root changes nothing, and the node is not ready. -/
theorem failed_snapshot_neutral_bob :
    (∃ e s', bobService.verifyStateSnapshot ⟨1, [], ""⟩ (.ok ()) 1500 bobWaiting = .error e s' ∧
        s'.lifecycle.state = bobWaiting.lifecycle.state) ∧
      (bobService.readiness 2000 bobWaiting).1.financialReady = false := by
  have hmismatch : ¬StateSnapshot.verify (Crates.plain helloRecord).toCrypto ⟨1, [], ""⟩ = .ok () :=
    fun h => refuse_ok.mp h ((Crates.plain helloRecord).toCrypto.sha256Hex_ne_empty [])
  obtain ⟨e, he⟩ := bobService.verifyStateSnapshot_refused
    (s := bobWaiting) (fun h => hmismatch h.1) (.ok ()) 1500
  have hreached : Reached (.plain helloRecord) (SavedWhenVerified (.plain helloRecord)) bobService
      bobWaiting false := reached_waiting savedWhenVerified_other
  obtain ⟨hkept, hready⟩ := failed_snapshot_neutral hreached
  refine ⟨⟨e, _, he, (hkept _ _ _ _ _ he).mpr fun hverify => absurd hverify hmismatch⟩, ?_⟩
  exact Bool.eq_false_iff.mpr fun h => Bool.false_ne_true (hready 2000 h)

/-- Two manifests after which an eligible node is a quorum by itself, and active. -/
theorem ready_of_joint {s : NodeState} (hmembership : s.membership = networkVerifier)
    (hself : s.activePeers.lookup bobService.identity.memberId = none)
    (heligible : s.lifecycle.state = .eligible) :
    (bobService.readiness 2000 (bobService.run [.acceptMembership aliceManifest (.ok ()) 1600,
      .acceptMembership jointManifest (.ok ()) 1700] s)).1.financialReady = true := by
  obtain ⟨t, ht, htmembership, htpeers, htlifecycle⟩ : ∃ t,
      bobService.perform (.acceptMembership aliceManifest (.ok ()) 1600) s =
        bobService.activateIfQuorum 1600 t ∧
      t.membership = { networkVerifier with current := some aliceManifest } ∧
      t.activePeers = s.activePeers ∧ t.lifecycle = s.lifecycle :=
    ⟨_, perform_alice hmembership 1600, rfl, rfl, rfl⟩
  have hmembership' : (bobService.activateIfQuorum 1600 t).membership =
      { networkVerifier with current := some aliceManifest } := by
    rw [activateIfQuorum_membership, htmembership]
  obtain ⟨u, hu, humembership, hupeers, hulifecycle⟩ : ∃ u,
      bobService.perform (.acceptMembership jointManifest (.ok ()) 1700)
        (bobService.activateIfQuorum 1600 t) = bobService.activateIfQuorum 1700 u ∧
      u.membership = { networkVerifier with current := some jointManifest } ∧
      u.activePeers = (bobService.activateIfQuorum 1600 t).activePeers ∧
      u.lifecycle = (bobService.activateIfQuorum 1600 t).lifecycle :=
    ⟨_, perform_joint hmembership' 1700, rfl, rfl, rfl⟩
  have huself : u.activePeers.lookup bobService.identity.memberId = none := by
    rw [hupeers]
    refine activateIfQuorum_lookup_eq_none _ 1600 ?_
    rw [htpeers]
    exact hself
  have hactive : (bobService.activateIfQuorum 1700 u).lifecycle.state = .active := by
    rw [activateIfQuorum_state, quorum_of_joint 1700 humembership huself, hulifecycle,
      activateIfQuorum_state, htlifecycle, heligible]
    cases (bobService.readiness 1600 t).1.quorumReady <;> rfl
  rw [run_cons, run_cons, run_nil, ht, hu]
  refine financialReady_iff.mpr ⟨quorum_of_joint 2000 ?_ ?_, hactive⟩
  · rw [activateIfQuorum_membership, humembership]
  · exact activateIfQuorum_lookup_eq_none _ 1700 huself

/-- A file that cannot be written, while the node waits for a snapshot. -/
theorem ready_of_failed_save {s : NodeState} (hmembership : s.membership = networkVerifier)
    (hsyncing : s.lifecycle.state = .syncing)
    (hself : s.activePeers.lookup bobService.identity.memberId = none) (e : SyncError) :
    ∃ s', bobService.verifyStateSnapshot bobSnapshot (.error e) 1500 s = .error e s' ∧
      s'.lifecycle.state = .eligible ∧
      (bobService.readiness 2000 (bobService.run [.acceptMembership aliceManifest (.ok ()) 1600,
        .acceptMembership jointManifest (.ok ()) 1700] s')).1.financialReady = true := by
  obtain ⟨l, _, heligible, hcall⟩ :=
    bobService.verifyStateSnapshot_syncing verify_bobSnapshot hsyncing (.error e) 1500
  obtain ⟨s', hs', hmembership', hpeers, hlifecycle⟩ : ∃ s',
      bobService.verifyStateSnapshot bobSnapshot (.error e) 1500 s = .error e s' ∧
      s'.membership = s.membership ∧ s'.activePeers = s.activePeers ∧ s'.lifecycle = l :=
    ⟨_, hcall, rfl, rfl, rfl⟩
  rw [← hlifecycle] at heligible
  refine ⟨s', hs', heligible, ready_of_joint (hmembership'.trans hmembership) ?_ heligible⟩
  rw [hpeers]
  exact hself

/-- The file of Bob's node cannot be written. The call fails, the node is eligible all the
same, and two manifests later it is ready. -/
theorem failed_save_makes_ready :
    let full := SyncError.io "No space left on device (os error 28)"
    Reached (.plain helloRecord) (fun _ _ => True) bobService bobWaiting false ∧
      bobWaiting.lifecycle.state = .syncing ∧
      ∃ s', bobService.verifyStateSnapshot bobSnapshot (.error full) 1500 bobWaiting =
          .error full s' ∧
        s'.lifecycle.state = .eligible ∧
        (bobService.readiness 2000 (bobService.run [.acceptMembership aliceManifest (.ok ()) 1600,
          .acceptMembership jointManifest (.ok ()) 1700] s')).1.financialReady = true := by
  intro full
  obtain ⟨hmembership, hsyncing, _, hself⟩ := bob_waiting
  exact ⟨reached_waiting fun _ _ _ => trivial, hsyncing,
    ready_of_failed_save hmembership hsyncing hself full⟩

end Bob

end Kerosene.Node
