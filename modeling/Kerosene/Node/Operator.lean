import Kerosene.Node.Ceremony
import Kerosene.Node.Program

/-! An operator and a node (`kerosene-rsctl`, `membership verify` and `membership publish`).

Before a manifest is published it can be verified, against the genesis roster and nothing
else, because the tool knows no other. So its verdict is the node's as long as the node has
taken no manifest, and from then on the opposite of it (`verify_foretells`). The connection
to the node and its certificates are left out: a manifest that is published is a request. -/
namespace Kerosene.Node

open Lib.AtomicFile Lib.Encode Lib.Inplace Lib.Tables MembershipVerifier

namespace Rsctl

/-- The hash of a manifest that a new verifier accepts. -/
def verify (x : Crates) (manifest : MembershipManifestV1) (bundle : GenesisTrustBundleV1) :
    Except MembershipError String := do
  let verifier ← MembershipVerifier.new x bundle manifest.plane
  outcome (accept x manifest) verifier
  return x.canonicalHash manifest

/-- The node's answer, or the status of a request that was turned down. -/
def publish {x : Crates} (k : Codecs) (svc : NodeService x) (now : UInt64)
    (bytes : Vector UInt8 32) (manifest : MembershipManifestV1) :
    EStateM (Stop Empty) World (Except ℕ Body) := do
  let response ← svc.handle k now bytes (.acceptManifest manifest)
  return if 400 ≤ response.status then .error response.status else .ok response.body

end Rsctl

section Foretells
variable {x : Crates} {k : Codecs} {cfg : Config} {genesis : MembershipVerifier}
  {svc : NodeService x} {s : NodeState} {files : Files}
  {snapshots : List StateSnapshot} {manifest : MembershipManifestV1}

theorem verify_ok {bundle : GenesisTrustBundleV1}
    (hgenesis : MembershipVerifier.new x bundle manifest.plane = .ok genesis) :
    (∃ hash, Rsctl.verify x manifest bundle = .ok hash) ↔
      ∃ v, accept x manifest genesis = .ok () v := by
  simp only [Rsctl.verify, hgenesis, except_bind_ok]
  cases haccept : accept x manifest genesis with
  | ok u v => simp [outcome, haccept, except_pure_ok]
  | error e v => simp [outcome, haccept]

/-- A manifest the service takes is the current one, or is accepted on top of it. -/
theorem accept_of_acceptMembershipOn {now : UInt64} {w w' : World}
    (h : svc.acceptMembershipOn k manifest now w = .ok () w') :
    w.node.membership.currentHash x = some (x.canonicalHash manifest) ∨
      ∃ v, accept x manifest w.node.membership = .ok () v := by
  by_cases hknown : w.node.membership.currentHash x = some (x.canonicalHash manifest)
  · exact .inl hknown
  · refine .inr ?_
    cases hcandidate : NodeService.acceptMembership.candidateOf x manifest w.node.membership with
    | ok v => exact ⟨v, NodeService.candidateOf_ok.mp hcandidate⟩
    | error e =>
      simp [NodeService.acceptMembershipOn, bind_def, hknown, checkFailed, hcandidate,
        Except.mapError, check] at h

theorem publish_ok {now : UInt64} {bytes : Vector UInt8 32} {w w' : World} {body : Body} :
    Rsctl.publish k svc now bytes manifest w = .ok (.ok body) w' ↔
      svc.handle k now bytes (.acceptManifest manifest) w = .ok ⟨200, body⟩ w' := by
  simp only [Rsctl.publish, NodeService.handle, bind_def, result]
  cases svc.acceptMembershipOn k manifest now w with
  | ok u w'' => simp
  | error e w'' => cases e <;> simp

/-- **What `verify` is worth.** Whatever a node has been through, while it has taken no
manifest and its files can be written, a manifest of its plane can be published to it
exactly when `verify` passes it. Once it has a current manifest (whose hash is not all
zeros), `verify` passes none of those that can be published, but for the current one. -/
theorem verify_foretells (hjson : Serializes k)
    (hgenesis : MembershipVerifier.new x cfg.bundle cfg.plane = .ok genesis)
    (hoperation : Operating k cfg (.blank x) ⟨files, some (svc, s), snapshots⟩)
    (hplane : manifest.plane = cfg.plane)
    (hwritable : ∃ text, (k .membershipManifests).toVec (s.manifests ++ [manifest]) = .ok text)
    (now : UInt64) (bytes : Vector UInt8 32) :
    (s.manifests = [] →
      ((∃ body w, Rsctl.publish k svc now bytes manifest ⟨s, files, []⟩ = .ok (.ok body) w) ↔
        ∃ hash, Rsctl.verify x manifest cfg.bundle = .ok hash)) ∧
      ∀ current, s.membership.current = some current → x.canonicalHash current ≠ zeroHash →
        (∃ body w, Rsctl.publish k svc now bytes manifest ⟨s, files, []⟩ = .ok (.ok body) w) →
        (∃ hash, Rsctl.verify x manifest cfg.bundle = .ok hash) →
        x.canonicalHash manifest = x.canonicalHash current := by
  have htracks : Tracks x k genesis _ [] ⟨s, files, []⟩ := hoperation.lives.good hgenesis
  have hcurrent : genesis.current = none := (new_bound hgenesis).1
  rw [verify_ok (hplane ▸ hgenesis)]
  simp only [publish_ok]
  refine ⟨fun hfirst => ?_, fun current hsome hzero hpublished hverified => ?_⟩
  · have hmembership : s.membership = genesis := by
      have hreplayed := htracks.replayed
      simp only [hfirst] at hreplayed
      injection hreplayed with _ hsame
      exact hsame.symm
    have hnone : s.membership.current = none := hmembership ▸ hcurrent
    constructor
    · rintro ⟨body, w, hposted⟩
      rcases accept_of_acceptMembershipOn (acceptMembershipOn_of_handle hposted) with hknown | hnext
      · simp [currentHash, hnone] at hknown
      · rwa [hmembership] at hnext
    · rintro ⟨v, hv⟩
      obtain ⟨text, htext⟩ := hwritable
      have hfile := htracks.manifests
      rw [List.append_nil] at hfile
      exact handle_acceptManifest hjson hnone (hmembership ▸ hv) hfile htext now bytes
  · obtain ⟨body, w, hposted⟩ := hpublished
    obtain ⟨v, hv⟩ := hverified
    rcases accept_of_acceptMembershipOn (acceptMembershipOn_of_handle hposted) with hknown | ⟨v', hv'⟩
    · simp only [currentHash, hsome, Option.map_some, Option.some.injEq] at hknown
      exact hknown.symm
    · -- It would have to name both the current manifest and none before it.
      have hprevious := previous_of_accept hv'
      rw [previous_of_accept hv, tip, tip, currentHash, currentHash, hcurrent, hsome] at hprevious
      exact absurd hprevious.symm hzero

end Foretells

/-- Bob's node, which has just started, and the first manifest. -/
theorem verify_foretells_bob :
    ∃ (files : Files) (svc : NodeService (.plain helloRecord)) (s : NodeState),
      Operating fileCodecs bobConfig (.blank _) ⟨files, some (svc, s), []⟩ ∧
      (∃ hash, Rsctl.verify (.plain helloRecord) aliceManifest bobConfig.bundle = .ok hash) ∧
      ∃ body w, Rsctl.publish fileCodecs svc 1000 bobChallenge aliceManifest ⟨s, files, []⟩ =
        .ok (.ok body) w := by
  obtain ⟨files, svc, s, hoperation, _, hmanifests, _⟩ := bob_starts
  have hwritable : ∃ text,
      (fileCodecs .membershipManifests).toVec (s.manifests ++ [aliceManifest]) = .ok text :=
    ⟨utf8 ("[" ++ aliceManifest.jsonText ++ "]"), by
      rw [hmanifests, List.nil_append, toVec_aliceManifest]⟩
  have hplane : aliceManifest.plane = bobConfig.plane := rfl
  have hgenesis := bobConfig_genesis
  rw [← hplane] at hgenesis
  have hverified := (verify_ok hgenesis).mpr ⟨_, accept_alice network_subset_hello⟩
  have hpublished := ((verify_foretells fileCodecs_serializes bobConfig_genesis hoperation hplane
    hwritable 1000 bobChallenge).1 hmanifests).mpr hverified
  exact ⟨files, svc, s, hoperation, hverified, hpublished⟩

end Kerosene.Node
