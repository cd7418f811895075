import Kerosene.Node.Challenges

/-! Members that are recognised.

The keys of a roster are checked as bytes, so a roster may write them in either case; who
is a member is decided on the text of a key, and an identity writes its own in lower case.
A listed identity is recognised exactly when the roster has its key in lower case, over
every roster a verifier can come to (`recognised_iff`). -/
namespace Kerosene.Node

open Lib.Encode Lib.Inplace Lib.Tables Lib.Word Ledger MembershipVerifier

/-- The `hex` crate: it writes lower case and reads either case. -/
structure HexText (x : Crypto) : Prop where
  encode : x.hexEncode = Lib.Digest.toHex
  decode : x.hexDecode = Lib.Digest.fromHex

/-- No digit of a key is in upper case. -/
def LowerCase (key : String) : Prop := ∀ c ∈ key.toList, Lib.Digest.isUpperDigit c = false

/-- What a member can expect of the nodes that have its roster, and of its own. -/
structure Recognised (x : Crates) (v : MembershipVerifier) (identity : NodeIdentity x) : Prop where
  isMember : v.isMember identity.memberId identity.rootPublicKeyHex = true
  hello : ∀ (a : PeerAuthenticator) (c : ChallengeStore) (challenge endpoint : String)
    (issuedAtEpochMs now expiresAt : UInt64), c.pending.lookup challenge = some expiresAt →
    outcome (a.authenticate x v (identity.signHello challenge endpoint issuedAtEpochMs) now) c ≠
      .error .notMember
  memberReady : ∀ (svc : NodeService x) (s : NodeState) (now : UInt64), svc.identity = identity →
    s.membership = v → (svc.readiness now s).1.memberReady = true

/-! ### Errors of authentication -/

section Errors
variable {x : Crates}

theorem validateOnionEndpoint_error {ε : Type} {e e' : ε} {endpoint : String}
    (h : validateOnionEndpoint x e endpoint = .error e') : e = e' := by
  simp only [validateOnionEndpoint, except_bind_error, okOr_error, refuse_error] at h
  rcases h with ⟨_, h⟩ | ⟨url, _, ⟨_, h⟩ | ⟨_, _, ⟨_, h⟩ | ⟨host, _, ⟨_, h⟩ | ⟨id, _, _, h⟩⟩⟩⟩ <;>
    exact h

/-- A hello is looked at before the roster is. -/
theorem examine_ne_notMember (a : PeerAuthenticator) (hello : PeerHelloV1) (now : UInt64) :
    a.examine x hello now ≠ .error .notMember := by
  intro h
  simp only [PeerAuthenticator.examine, except_bind_error, refuse_error, mapError_eq_error] at h
  rcases h with ⟨_, h⟩ | ⟨_, _, ⟨_, h⟩ | ⟨_, _, h | ⟨_, _, _, _, h⟩⟩⟩
  · cases h
  · cases h
  · cases validateOnionEndpoint_error h
  · cases h

/-- Only who is no member is rejected as none. -/
theorem authenticate_ne_notMember {a : PeerAuthenticator} {v : MembershipVerifier}
    {hello : PeerHelloV1} {now : UInt64} {c : ChallengeStore}
    (hmember : v.isMember hello.memberId hello.rootPublicKey = true) :
    outcome (a.authenticate x v hello now) c ≠ .error .notMember := by
  have hlisted : refuse (v.isMember hello.memberId hello.rootPublicKey = false)
      DiscoveryError.notMember = .ok () := refuse_ok.mpr (by rw [hmember]; decide)
  have hconsume := ChallengeStore.consume_eq hello.challenge now c
  cases hexamine : a.examine x hello now with
  | error e =>
    simp only [outcome, PeerAuthenticator.authenticate, bind_def, hexamine, check_error]
    intro h
    rw [Except.error.inj h] at hexamine
    exact examine_ne_notMember a hello now hexamine
  | ok u =>
    cases hlive : (c.live now).lookup hello.challenge with
    | none =>
      rw [hlive] at hconsume
      simp only [outcome, PeerAuthenticator.authenticate, bind_def, hexamine, check_ok, hconsume]
      intro h
      cases h
    | some expiresAt =>
      rw [hlive] at hconsume
      simp only [outcome, PeerAuthenticator.authenticate, bind_def, hexamine, check_ok, hconsume,
        hlisted, pure_def]
      intro h
      cases h

end Errors

/-! ### Reachable rosters -/

section Rosters
variable {x : Crates} {v : MembershipVerifier}

/-- Calls on a verifier leave its network and keep its rosters bound. -/
theorem run_accept_bound (hv : v.Bound x) (calls : List MembershipManifestV1) :
    (run (accept x) calls v).networkId = v.networkId ∧ (run (accept x) calls v).Bound x := by
  refine run_accept (P := fun w => w.networkId = v.networkId ∧ w.Bound x) ?_ ⟨rfl, hv⟩ calls
  intro w w' manifest hw h
  refine ⟨?_, hw.2.accept h⟩
  obtain ⟨_, _, rfl⟩ := accept_ok.mp h
  exact hw.1

theorem new_networkId {bundle : GenesisTrustBundleV1} {plane : DiscoveryPlane}
    (h : MembershipVerifier.new x bundle plane = .ok v) : v.networkId = bundle.networkId := by
  simp only [MembershipVerifier.new, except_then_ok] at h
  obtain ⟨_, _, _, hv⟩ := h
  cases hv
  rfl

/-- The one key listed under an id. -/
theorem Bound.eq_of_mem (hv : v.Bound x) {id key key' : String} (h : (id, key) ∈ v.roster)
    (h' : (id, key') ∈ v.roster) : key = key' :=
  (Prod.mk.inj (List.inj_on_of_nodup_map hv.roster.nodup h h' rfl)).2

/-- A listed identity is a member when the text of its key is the one listed. -/
theorem isMember_iff_lowerCase (hhex : HexText x.toCrypto) (hv : v.Bound x)
    (hinj : Function.Injective (x.memberId v.networkId)) {identity : NodeIdentity x}
    (hnetwork : identity.networkId = v.networkId) {key : String}
    (hlisted : (identity.memberId, key) ∈ v.roster) :
    v.isMember identity.memberId identity.rootPublicKeyHex = true ↔ LowerCase key := by
  obtain ⟨bytes, hdecode, hid⟩ := hv.roster.ids _ hlisted
  -- The bytes listed are those of the identity's key, whatever text they are in.
  have hbytes : bytes = identity.signingKey.verifyingKey := by
    apply hinj
    rw [hid, identity.memberId_eq, hnetwork]
  rw [decodeArray_eq_some, hhex.decode, hbytes] at hdecode
  rw [LowerCase, ← Lib.Digest.toHex_eq_iff hdecode, ← hhex.encode]
  constructor
  · intro hmember
    exact Bound.eq_of_mem hv (mem_roster_of_isMember hmember) hlisted
  · intro hkey
    refine hv.isMember ?_
    rw [NodeIdentity.rootPublicKeyHex, hkey]
    exact hlisted

end Rosters

/-- **Who is recognised.** Over any calls on a verifier of a valid bundle, an identity of
its network that is in the roster is recognised exactly when the key listed for it has no
digit in upper case. -/
theorem recognised_iff {x : Crates} (hhex : HexText x.toCrypto) {bundle : GenesisTrustBundleV1}
    {plane : DiscoveryPlane} {v : MembershipVerifier}
    (hnew : MembershipVerifier.new x bundle plane = .ok v)
    (hinj : Function.Injective (x.memberId bundle.networkId)) (calls : List MembershipManifestV1)
    {identity : NodeIdentity x} (hnetwork : identity.networkId = bundle.networkId) {key : String}
    (hlisted : (identity.memberId, key) ∈ (run (accept x) calls v).roster) :
    Recognised x (run (accept x) calls v) identity ↔ LowerCase key := by
  obtain ⟨_, hbound⟩ := new_bound hnew
  obtain ⟨hsame, hv⟩ := run_accept_bound hbound calls
  rw [new_networkId hnew] at hsame
  have hmember := isMember_iff_lowerCase hhex hv (by rw [hsame]; exact hinj)
    (hnetwork.trans hsame.symm) hlisted
  rw [← hmember]
  constructor
  · intro hrecognised
    exact hrecognised.isMember
  · intro h
    refine ⟨h, fun a c challenge endpoint issuedAtEpochMs now expiresAt _ => ?_, ?_⟩
    · exact authenticate_ne_notMember h
    · intro svc s now hidentity hmembership
      show svc.localMember s.membership = true
      rw [NodeService.localMember, hidentity, hmembership]
      exact h

/-- The crates on plain encodings, with member ids that spell out network and key. -/
def Crates.spelled : Crates :=
  { Crates.plain [] with
    memberId := fun network key => Lib.Digest.toHex (utf8 network ++ key.toList) }

theorem hexText_spelled : HexText Crates.spelled.toCrypto := ⟨rfl, rfl⟩

theorem spelled_memberId_injective (network : String) :
    Function.Injective (Crates.spelled.memberId network) := by
  intro key key' h
  have hbytes := congrArg Lib.Digest.fromHex h
  dsimp only [Crates.spelled] at hbytes
  rw [Lib.Digest.fromHex_toHex, Lib.Digest.fromHex_toHex, Option.some_inj,
    List.append_cancel_left_eq] at hbytes
  exact Vector.toList_inj.mp hbytes

def aliceNode : NodeIdentity .spelled :=
  .fromSigningKey "kerosene-test" .vault (.recorded [] aliceKey)

/-- A bundle in which Alice is the one root of trust, her key written in some text. -/
def aliceBundle (text : String) : GenesisTrustBundleV1 :=
  let plane : TrustPlane := ⟨1, [⟨aliceNode.memberId, text⟩]⟩
  ⟨"1", "kerosene-test", plane, plane⟩

def aliceVerifier (text : String) : MembershipVerifier :=
  ⟨"kerosene-test", .vault, (aliceBundle text).vault, none⟩

theorem new_aliceBundle {text : String}
    (h : decodeArray Crates.spelled.toCrypto 32 text = some aliceKey) :
    MembershipVerifier.new .spelled (aliceBundle text) .vault = .ok (aliceVerifier text) := by
  have hplane : validateTrustPlane .spelled "kerosene-test" (aliceBundle text).vault = .ok () := by
    rw [validateTrustPlane, except_then_ok, refuse_ok, validateEach_ok]
    refine ⟨by simp [aliceBundle], fun member hmember => ?_, List.nodup_singleton _,
      fun _ _ => List.not_mem_nil⟩
    rw [List.mem_singleton.mp hmember]
    exact validateMember_ok.mpr ⟨aliceKey, h, rfl⟩
  rw [MembershipVerifier.new, except_then_ok, except_then_ok, except_then_ok, refuse_ok]
  exact ⟨fun h => h rfl, hplane, hplane, rfl⟩

/-- Alice is recognised under her key in lower case. -/
theorem recognised_alice :
    let text := Lib.Digest.toHex aliceKey.toList
    Recognised .spelled (run (accept .spelled) [] (aliceVerifier text)) aliceNode := by
  intro text
  have hdecode : decodeArray Crates.spelled.toCrypto 32 text = some aliceKey :=
    decodeArray_toHex aliceKey
  refine (recognised_iff hexText_spelled (new_aliceBundle hdecode) (spelled_memberId_injective _) []
    rfl (List.mem_singleton.mpr rfl)).mpr ?_
  exact (Lib.Digest.toHex_eq_iff (Lib.Digest.fromHex_toHex _)).mp rfl

/-- Alice's key in upper case. -/
def aliceUpper : String := "D75A980182B10AB7D54BFED3C964073A0EE172F3DAA62325AF021A68F707511A"

theorem decode_aliceUpper :
    decodeArray Crates.spelled.toCrypto 32 aliceUpper = some aliceKey :=
  decodeArray_eq_some.mpr (by decide +kernel)

/-- A bundle that is valid and lists Alice, who is no member by it. -/
theorem upper_case_member_unknown :
    HexText Crates.spelled.toCrypto ∧
      Function.Injective (Crates.spelled.memberId "kerosene-test") ∧
      ∃ v, MembershipVerifier.new .spelled (aliceBundle aliceUpper) .vault = .ok v ∧
        aliceNode.memberId ∈ v.roster.map Prod.fst ∧
        v.isMember aliceNode.memberId aliceNode.rootPublicKeyHex = false := by
  have hnew := new_aliceBundle decode_aliceUpper
  have hlisted : (aliceNode.memberId, aliceUpper) ∈ (aliceVerifier aliceUpper).roster :=
    List.mem_singleton.mpr rfl
  refine ⟨hexText_spelled, spelled_memberId_injective _, _, hnew, List.mem_map_of_mem hlisted, ?_⟩
  rw [← Bool.not_eq_true, isMember_iff_lowerCase hexText_spelled (new_bound hnew).2
    (spelled_memberId_injective _) rfl hlisted]
  intro hlower
  have hupper : Lib.Digest.isUpperDigit 'D' = true := by decide
  have hfirst : 'D' ∈ aliceUpper.toList := by decide
  exact absurd (hlower 'D' hfirst) (by rw [hupper]; decide)

end Kerosene.Node
