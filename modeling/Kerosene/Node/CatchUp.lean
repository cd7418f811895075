import Kerosene.Node.Readiness

/-! How far a lagging node gets by asking a peer.

In a discovery exchange a node fetches its peer's current manifest and offers it to
its own membership. A verifier takes no manifest but the next one, so a node that is
one manifest behind catches up in one exchange and a node further behind never does
(`catches_up_iff`); the manifests in between are not to be had from a peer. -/
namespace Kerosene.Node

open Lib.Encode Lib.Inplace Lib.Tables Lib.Word Ledger MembershipVerifier

/-! ### The next manifest -/

/-- The hash the next manifest has to name. -/
def MembershipVerifier.tip (x : Crates) (v : MembershipVerifier) : String :=
  (v.currentHash x).getD zeroHash

section Chain
variable {x : Crates} {v w : MembershipVerifier} {manifest : MembershipManifestV1}

theorem previous_of_accept (h : accept x manifest v = .ok () w) :
    manifest.previousManifestHash = v.tip x := by
  obtain ⟨_, hnext, _⟩ := accept_ok.mp h
  unfold verifyNext at hnext
  unfold tip currentHash
  cases hcurrent : v.current with
  | none =>
    simp only [hcurrent, verifyInitial, except_then_ok, refuse_ok, not_or, not_not] at hnext
    exact hnext.1.2.2
  | some current =>
    cases hphase : current.phase with
    | stable =>
      simp only [hcurrent, hphase, verifyAfterStable, except_then_ok, requireChain_ok] at hnext
      exact hnext.1.1
    | joint =>
      simp only [hcurrent, hphase] at hnext
      rw [verifyAfterJoint, except_then_ok, except_bind_ok] at hnext
      obtain ⟨_, _, _, hrule⟩ := hnext
      rw [except_then_ok, requireChain_ok] at hrule
      exact hrule.1.1

theorem current_of_accept (h : accept x manifest v = .ok () w) : w.current = some manifest := by
  obtain ⟨_, _, rfl⟩ := accept_ok.mp h
  rfl

theorem replay_append_singleton {chain : List MembershipManifestV1}
    (h : replay (accept x) (chain ++ [manifest]) v = .ok () w) :
    ∃ u, replay (accept x) chain v = .ok () u ∧ accept x manifest u = .ok () w := by
  obtain ⟨u, hu, hlast⟩ := replay_append_ok.mp h
  obtain ⟨_, w', haccept, hend⟩ := replay_cons_ok.mp hlast
  cases hend
  exact ⟨u, hu, haccept⟩

/-- After some manifests the tip is the hash of one of them. -/
theorem tip_mem {chain : List MembershipManifestV1} (hne : chain ≠ [])
    (h : replay (accept x) chain v = .ok () w) : w.tip x ∈ chain.map x.canonicalHash := by
  induction chain using List.reverseRecOn with
  | nil => exact absurd rfl hne
  | append_singleton chain m _ =>
    obtain ⟨u, _, haccept⟩ := replay_append_singleton h
    rw [tip, currentHash, current_of_accept haccept, List.map_append]
    exact List.mem_append_right _ List.mem_cons_self

/-- At first it is the zero hash. -/
theorem tip_mem_cons {chain : List MembershipManifestV1} (hv : v.current = none)
    (h : replay (accept x) chain v = .ok () w) : w.tip x ∈ zeroHash :: chain.map x.canonicalHash := by
  by_cases hne : chain = []
  · rw [hne] at h
    cases h
    rw [tip, currentHash, hv]
    exact List.mem_cons_self
  · exact List.mem_cons_of_mem _ (tip_mem hne h)

end Chain

/-! ### Exchanges -/

/-- A node fetches the current manifest of a peer and offers it to its membership,
with the result of appending to its file and the clock at the end. A peer without a
manifest answers that there is none. -/
def NodeService.fetchAndAccept {x : Crates} (svc : NodeService x) (peer : MembershipVerifier)
    (result : Except DiscoveryError Unit × UInt64) (s : NodeState) : NodeState :=
  match peer.current with
  | none => s
  | some manifest => svc.perform (.acceptMembership manifest result.1 result.2) s

/-- One exchange after another, the peer staying as it is. -/
def NodeService.fetchAll {x : Crates} (svc : NodeService x) (peer : MembershipVerifier)
    (results : List (Except DiscoveryError Unit × UInt64)) (s : NodeState) : NodeState :=
  results.foldl (fun s result => svc.fetchAndAccept peer result s) s

section Exchanges
variable {x : Crates} (svc : NodeService x) {genesis peer : MembershipVerifier} {s : NodeState}

variable (s) in
/-- An exchange changes the membership only to the peer's manifest, accepted. -/
theorem membership_of_acceptMembership (manifest : MembershipManifestV1)
    (appended : Except DiscoveryError Unit) (now : UInt64) :
    (svc.perform (.acceptMembership manifest appended now) s).membership = s.membership ∨
      ∃ candidate, accept x manifest s.membership = .ok () candidate := by
  have heffect := svc.perform_effect s (.acceptMembership manifest appended now)
  generalize svc.perform (.acceptMembership manifest appended now) s = s' at heffect ⊢
  cases heffect with
  | challenges => exact .inl rfl
  | admits _ _ _ _ _ hcall => cases hcall
  | accepts _ _ _ candidate haccept => exact .inr ⟨candidate, haccept⟩

/-- What is known of a chain and what is missing have no hash in common. -/
theorem hashes_disjoint {known missing : List MembershipManifestV1}
    (h : (zeroHash :: (known ++ missing).map x.canonicalHash).Nodup) :
    (zeroHash :: known.map x.canonicalHash).Disjoint (missing.map x.canonicalHash) := by
  rw [List.map_append, ← List.cons_append] at h
  exact List.disjoint_of_nodup_append h

variable {known missing : List MembershipManifestV1} (hgenesis : genesis.current = none)
  (hpeer : replay (accept x) (known ++ missing) genesis = .ok () peer)
  (hdistinct : (zeroHash :: (known ++ missing).map x.canonicalHash).Nodup)

include hgenesis hpeer hdistinct

/-- With a manifest missing in between, an exchange changes nothing. -/
theorem fetchAndAccept_stuck (hs : replay (accept x) known genesis = .ok () s.membership)
    (hgap : 1 < missing.length) (result : Except DiscoveryError Unit × UInt64) :
    (svc.fetchAndAccept peer result s).membership = s.membership := by
  have hne : missing ≠ [] := List.ne_nil_of_length_pos (Nat.lt_trans Nat.zero_lt_one hgap)
  obtain ⟨mid, last, rfl⟩ := (List.eq_nil_or_concat' missing).resolve_left hne
  have hmid : mid ≠ [] := by
    intro hnil
    rw [hnil] at hgap
    exact absurd hgap (by simp)
  rw [← List.append_assoc] at hpeer
  obtain ⟨u, hu, hlast⟩ := replay_append_singleton hpeer
  rw [NodeService.fetchAndAccept, current_of_accept hlast]
  rcases membership_of_acceptMembership svc s last result.1 result.2 with hsame | ⟨candidate, hcandidate⟩
  · exact hsame
  · -- The last manifest names the hash before it, which is not the one known last.
    have htips : s.membership.tip x = u.tip x :=
      (previous_of_accept hcandidate).symm.trans (previous_of_accept hlast)
    obtain ⟨_, _, hmiddle⟩ := replay_append_ok.mp hu
    have hmem : u.tip x ∈ (mid ++ [last]).map x.canonicalHash := by
      rw [List.map_append]
      exact List.mem_append_left _ (tip_mem hmid hmiddle)
    exact absurd hmem (hashes_disjoint hdistinct (htips ▸ tip_mem_cons hgenesis hs))

/-- Nor do any number of exchanges. -/
theorem fetchAll_stuck (hs : replay (accept x) known genesis = .ok () s.membership)
    (hgap : 1 < missing.length) (results : List (Except DiscoveryError Unit × UInt64)) :
    (svc.fetchAll peer results s).membership = s.membership := by
  induction results generalizing s with
  | nil => rfl
  | cons result rest ih =>
    have hone := fetchAndAccept_stuck svc hgenesis hpeer hdistinct hs hgap result
    have hrest := ih (hone ▸ hs)
    exact hrest.trans hone

end Exchanges

/-- **Catching up.** A node that knows a beginning of the chain its peer has accepted
gets to the peer's manifest by exchanges exactly when one manifest is missing; when
more are, no number of exchanges changes its membership. The manifests of the chain
are taken to have different hashes, none of them all zeros. -/
theorem catches_up_iff {x : Crates} {bundle : GenesisTrustBundleV1} {plane : DiscoveryPlane}
    {genesis peer : MembershipVerifier} (hnew : MembershipVerifier.new x bundle plane = .ok genesis)
    {known missing : List MembershipManifestV1}
    (hpeer : replay (accept x) (known ++ missing) genesis = .ok () peer)
    (hdistinct : (zeroHash :: (known ++ missing).map x.canonicalHash).Nodup)
    (svc : NodeService x) {s : NodeState}
    (hs : replay (accept x) known genesis = .ok () s.membership) (hmissing : missing ≠ []) :
    ((∃ results, (svc.fetchAll peer results s).membership.current = peer.current) ↔
        missing.length = 1) ∧
      (1 < missing.length → ∀ results, (svc.fetchAll peer results s).membership = s.membership) := by
  have hgenesis := (new_bound hnew).1
  have hstuck := fetchAll_stuck svc hgenesis hpeer hdistinct hs
  have hapart := hashes_disjoint hdistinct
  have htip := tip_mem_cons hgenesis hs
  refine ⟨⟨fun h => ?_, fun hone => ?_⟩, hstuck⟩
  · obtain ⟨results, hresults⟩ := h
    by_contra hne
    have hgap : 1 < missing.length := by
      have hpos := List.length_pos_of_ne_nil hmissing
      omega
    rw [hstuck hgap results] at hresults
    have htips : s.membership.tip x = peer.tip x := by
      rw [tip, tip, currentHash, currentHash, hresults]
    obtain ⟨_, _, hrest⟩ := replay_append_ok.mp hpeer
    exact hapart (htips ▸ htip) (tip_mem hmissing hrest)
  · obtain ⟨last, rfl⟩ := List.length_eq_one_iff.mp hone
    obtain ⟨u, hu, hlast⟩ := replay_append_singleton hpeer
    rw [hs] at hu
    cases hu
    have hfresh : s.membership.currentHash x ≠ some (x.canonicalHash last) := by
      intro hsame
      rw [tip, hsame] at htip
      exact hapart htip List.mem_cons_self
    refine ⟨[(.ok (), 0)], ?_⟩
    show (svc.fetchAndAccept peer (.ok (), 0) s).membership.current = peer.current
    rw [NodeService.fetchAndAccept, current_of_accept hlast]
    dsimp only
    rw [svc.perform_acceptMembership hfresh hlast 0, NodeService.activateIfQuorum_membership]
    exact current_of_accept hlast

/-! ### Two manifests behind -/

section Behind

/-- Bob's node with some manifest as its current one. -/
def bobAt (manifest : MembershipManifestV1) : NodeState :=
  { bobStart with membership := { networkVerifier with current := some manifest } }

theorem replay_alice : replay (accept (.plain helloRecord)) [aliceManifest] networkVerifier =
    .ok () (bobAt aliceManifest).membership :=
  replay_cons_ok.mpr ⟨(), _, accept_alice network_subset_hello, rfl⟩

theorem replay_joint :
    replay (accept (.plain helloRecord)) ([aliceManifest] ++ [jointManifest]) networkVerifier =
      .ok () (bobAt jointManifest).membership :=
  replay_append_ok.mpr ⟨_, replay_alice,
    replay_cons_ok.mpr ⟨(), _, accept_joint network_subset_hello, rfl⟩⟩

theorem replay_bob :
    replay (accept (.plain helloRecord)) ([aliceManifest, jointManifest] ++ [bobManifest])
      networkVerifier = .ok () (bobAt bobManifest).membership :=
  replay_append_ok.mpr ⟨_, replay_joint,
    replay_cons_ok.mpr ⟨(), _, accept_bob network_subset_hello, rfl⟩⟩

theorem catches_up_iff_bob :
    ∃ results, (bobService.fetchAll (bobAt bobManifest).membership results
      (bobAt jointManifest)).membership.current = some bobManifest :=
  (catches_up_iff (new_network helloRecord .vault) replay_bob network_hashes_nodup bobService
    replay_joint (List.cons_ne_nil _ _)).1.mpr rfl

/-- A peer at the last of three manifests, and a node that has the first. -/
theorem two_behind_never_catches_up :
    MembershipVerifier.new (.plain helloRecord) networkBundle .vault = .ok networkVerifier ∧
      replay (accept (.plain helloRecord)) [aliceManifest, jointManifest, bobManifest]
        networkVerifier = .ok () (bobAt bobManifest).membership ∧
      replay (accept (.plain helloRecord)) [aliceManifest] networkVerifier =
        .ok () (bobAt aliceManifest).membership ∧
      ¬ ∃ results, (bobService.fetchAll (bobAt bobManifest).membership results
        (bobAt aliceManifest)).membership.current = some bobManifest := by
  refine ⟨new_network helloRecord .vault, replay_bob, replay_alice, fun h => ?_⟩
  obtain ⟨results, hresults⟩ := h
  have hpeer : replay (accept (.plain helloRecord))
      ([aliceManifest] ++ [jointManifest, bobManifest]) networkVerifier =
        .ok () (bobAt bobManifest).membership := replay_bob
  have hstuck := fetchAll_stuck bobService rfl hpeer network_hashes_nodup replay_alice (by decide)
    results
  rw [hstuck] at hresults
  have hepoch := congrArg MembershipManifestV1.epoch (Option.some.inj hresults)
  exact absurd hepoch (by decide)

end Behind

end Kerosene.Node
