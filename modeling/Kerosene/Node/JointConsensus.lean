import Kerosene.Node.Membership

/-! Joint consensus along the chain of accepted manifests.

A manifest follows another under one of three rules: it keeps the roster, it
proposes a new one, or it activates the one proposed (`Follows`). The manifests a
verifier accepts, among any calls, are linked by these rules and by their hashes
(`accepted_isChain`), and from the links alone a roster only changes through one
joint manifest that both rosters signed (`joint_consensus`). -/
namespace Kerosene.Node

open Lib.Encode Lib.Inplace Lib.Tables Lib.Word Ledger MembershipVerifier

/-! ### Links -/

def SameRoster (a b : MembershipManifestV1) : Prop :=
  a.members = b.members ∧ a.threshold = b.threshold

/-- How an accepted manifest follows the one accepted before. -/
inductive Follows (x : Crates) (a b : MembershipManifestV1) : Prop where
  | keeps (ha : a.phase = .stable) (hb : b.phase = .stable) (hsame : SameRoster a b)
  | proposes (ha : a.phase = .stable) (hb : b.phase = .joint)
    (hold : SignedBy x b a.roster a.threshold.toNat)
    (hnew : SignedBy x b b.roster b.threshold.toNat)
  | activates (ha : a.phase = .joint) (hb : b.phase = .stable) (hsame : SameRoster a b)
    (hsigned : SignedBy x b a.roster a.threshold.toNat)

/-- One manifest is the successor of another. -/
structure Linked (x : Crates) (a b : MembershipManifestV1) : Prop where
  hash : b.previousManifestHash = x.canonicalHash a
  follows : Follows x a b

section Links
variable {x : Crates} {v v' : MembershipVerifier} {a b : MembershipManifestV1}

theorem requireChain_ok {current next : MembershipManifestV1} {epoch : UInt64} :
    requireChain x current next epoch = .ok () ↔
      next.previousManifestHash = x.canonicalHash current ∧ next.epoch = epoch := by
  simp only [requireChain, except_then_ok, refuse_ok, not_not]

theorem verifyAfterStable_linked (ha : a.phase = .stable) (hroster : a.roster.Bound x v.networkId)
    (hb : v.Structured x b) (h : verifyAfterStable x a b = .ok ()) : Linked x a b := by
  rw [verifyAfterStable, except_then_ok, except_then_ok, requireChain_ok] at h
  obtain ⟨⟨hhash, _⟩, hold, hrule⟩ := h
  refine ⟨hhash, ?_⟩
  cases hphase : b.phase with
  | stable =>
    rw [hphase] at hrule
    simp only [refuse_ok, Bool.not_eq_false, sameRoster_eq] at hrule
    exact .keeps ha hphase ⟨hrule.2, hrule.1⟩
  | joint =>
    rw [hphase] at hrule
    exact .proposes ha hphase (signedBy_of_requireSignatures hb.signers hroster hold)
      (signedBy_of_requireSignatures hb.signers hb.roster hrule)

theorem verifyAfterJoint_linked (ha : a.phase = .joint) (hroster : a.roster.Bound x v.networkId)
    (hb : v.Structured x b) (h : verifyAfterJoint x a b = .ok ()) : Linked x a b := by
  rw [verifyAfterJoint, except_then_ok, refuse_ok, not_not, except_bind_ok] at h
  obtain ⟨hphase, epoch, _, hrule⟩ := h
  rw [except_then_ok, requireChain_ok, except_then_ok, refuse_ok, Bool.not_eq_false,
    sameRoster_eq] at hrule
  obtain ⟨⟨hhash, _⟩, ⟨hthreshold, hmembers⟩, hsigned⟩ := hrule
  exact ⟨hhash, .activates ha hphase ⟨hmembers, hthreshold⟩
    (signedBy_of_requireSignatures hb.signers hroster hsigned)⟩

/-- What is accepted is linked to what was accepted before. -/
theorem accept_linked (hv : v.Bound x) (ha : v.current = some a) (h : accept x b v = .ok () v') :
    Linked x a b := by
  obtain ⟨hstructure, hnext, _⟩ := accept_ok.mp h
  have hb := structured_of_validateStructure hstructure
  rw [verifyNext, ha] at hnext
  cases hphase : a.phase with
  | stable =>
    simp only [hphase] at hnext
    exact verifyAfterStable_linked hphase (hv.current a ha) hb hnext
  | joint =>
    simp only [hphase] at hnext
    exact verifyAfterJoint_linked hphase (hv.current a ha) hb hnext

end Links

/-! ### Chains -/

/-- The manifests accepted in a run of calls, in order. -/
def accepted (x : Crates) : List MembershipManifestV1 → MembershipVerifier → List MembershipManifestV1
  | [], _ => []
  | manifest :: rest, v =>
    match accept x manifest v with
    | .ok () v' => manifest :: accepted x rest v'
    | .error _ v' => accepted x rest v'

theorem accepted_nil (x : Crates) (v : MembershipVerifier) : accepted x [] v = [] := rfl

theorem accepted_cons_ok {x : Crates} {manifest : MembershipManifestV1}
    {rest : List MembershipManifestV1} {v v' : MembershipVerifier}
    (h : accept x manifest v = .ok () v') :
    accepted x (manifest :: rest) v = manifest :: accepted x rest v' := by
  rw [accepted, h]

/-- Every call extends the chain by a link or leaves it alone. -/
theorem accepted_isChain {x : Crates} {v : MembershipVerifier} (hv : v.Bound x)
    (calls : List MembershipManifestV1) :
    (v.current.toList ++ accepted x calls v).IsChain (Linked x) := by
  induction calls generalizing v with
  | nil =>
    rw [accepted, List.append_nil]
    cases v.current with
    | none => exact .nil
    | some a => exact .singleton a
  | cons manifest rest ih =>
    rw [accepted]
    cases h : accept x manifest v with
    | error e v' =>
      have hsame : v' = v := accept_atomic x manifest v e v' h
      rw [hsame]
      exact ih hv
    | ok u v' =>
      have hchain := ih (hv.accept h)
      have hcurrent : v'.current = some manifest := by
        obtain ⟨_, _, rfl⟩ := accept_ok.mp h
        rfl
      rw [hcurrent] at hchain
      cases ha : v.current with
      | none => exact hchain
      | some a => exact .cons_cons (accept_linked hv ha h) hchain

/-- Between two stable manifests of a chain with no stable one in between, the
roster is kept, or one joint manifest proposed the later one's. -/
theorem joint_between {x : Crates} {pre mid post : List MembershipManifestV1}
    {a b : MembershipManifestV1} (h : (pre ++ a :: (mid ++ b :: post)).IsChain (Linked x))
    (ha : a.phase = .stable) (hb : b.phase = .stable) (hmid : ∀ m ∈ mid, m.phase ≠ .stable)
    (hdiff : ¬ SameRoster a b) :
    ∃ j, mid = [j] ∧ Linked x a j ∧ Linked x j b ∧ j.phase = .joint := by
  have hchain := (List.isChain_append.mp h).2.1
  cases mid with
  | nil =>
    obtain ⟨hlink, _⟩ := List.isChain_cons_cons.mp hchain
    cases hlink.follows with
    | keeps _ _ hsame => exact absurd hsame hdiff
    | proposes _ hjoint => rw [hb] at hjoint; cases hjoint
    | activates hjoint => rw [ha] at hjoint; cases hjoint
  | cons j rest =>
    have hj : j.phase = .joint := by
      cases hphase : j.phase with
      | stable => exact absurd hphase (hmid j List.mem_cons_self)
      | joint => rfl
    obtain ⟨haj, hrest⟩ := List.isChain_cons_cons.mp hchain
    cases rest with
    | nil =>
      obtain ⟨hjb, _⟩ := List.isChain_cons_cons.mp hrest
      exact ⟨j, rfl, haj, hjb, hj⟩
    | cons k rest =>
      -- After a joint manifest only a stable one is accepted.
      obtain ⟨hjk, _⟩ := List.isChain_cons_cons.mp hrest
      have hk := hmid k (List.mem_cons_of_mem j List.mem_cons_self)
      cases hjk.follows with
      | keeps hstable => rw [hj] at hstable; cases hstable
      | proposes hstable => rw [hj] at hstable; cases hstable
      | activates _ hstable => exact absurd hstable hk

/-- **Joint consensus is safe.** Of the manifests accepted among any calls, each
names the hash of the one before it; two successive stable ones with different
rosters or thresholds have exactly one joint manifest between them, with the later
roster and threshold, signed by the old roster's threshold and by its own, and the
later stable one is signed by the joint one's threshold; and a refused manifest
leaves the verifier unchanged. -/
theorem joint_consensus {x : Crates} {bundle : GenesisTrustBundleV1} {plane : DiscoveryPlane}
    {v : MembershipVerifier} (h : MembershipVerifier.new x bundle plane = .ok v)
    (calls : List MembershipManifestV1) :
    (accepted x calls v).IsChain (fun a b => b.previousManifestHash = x.canonicalHash a) ∧
    (∀ pre a mid b post, accepted x calls v = pre ++ a :: (mid ++ b :: post) →
      a.phase = .stable → b.phase = .stable → (∀ m ∈ mid, m.phase ≠ .stable) →
      (a.members ≠ b.members ∨ a.threshold ≠ b.threshold) →
      ∃ j, mid = [j] ∧ j.phase = .joint ∧ j.members = b.members ∧ j.threshold = b.threshold ∧
        SignedBy x j a.roster a.threshold.toNat ∧ SignedBy x j j.roster j.threshold.toNat ∧
        SignedBy x b j.roster j.threshold.toNat) ∧
    (∀ w manifest e w', accept x manifest w = .error e w' → w' = w) := by
  obtain ⟨hcurrent, hv⟩ := new_bound h
  have hchain := accepted_isChain hv calls
  rw [hcurrent, Option.toList_none, List.nil_append] at hchain
  refine ⟨hchain.imp fun a b hlink => hlink.hash, ?_, fun w manifest => accept_atomic x manifest w⟩
  intro pre a mid b post hparts ha hb hmid hdiff
  have hnot : ¬ SameRoster a b := fun hsame => hdiff.elim (· hsame.1) (· hsame.2)
  rw [hparts] at hchain
  obtain ⟨j, rfl, haj, hjb, hj⟩ := joint_between hchain ha hb hmid hnot
  cases haj.follows with
  | keeps _ hstable => rw [hj] at hstable; cases hstable
  | activates hjoint => rw [ha] at hjoint; cases hjoint
  | proposes _ _ hold hnew =>
    cases hjb.follows with
    | keeps hstable => rw [hj] at hstable; cases hstable
    | proposes hstable => rw [hj] at hstable; cases hstable
    | activates _ _ hsame hsigned => exact ⟨j, rfl, hj, hsame.1, hsame.2, hold, hnew, hsigned⟩

/-! ### A network that changes hands -/

/-- The fields of a manifest one after another, its signatures left out. -/
def plainBytes (m : MembershipManifestV1) : Bytes :=
  le64 m.epoch ++
    (match m.phase with
      | .stable => [0]
      | .joint => [1]) ++
    utf8 m.previousManifestHash ++ leBytes 2 m.threshold.toNat ++
    (match m.nextEpoch with
      | none => [0]
      | some epoch => 1 :: le64 epoch) ++
    m.members.flatMap fun member =>
      utf8 member.memberId ++ utf8 member.rootPublicKey ++ utf8 member.endpoint

/-- `https` URLs with a host and no more than a host. -/
def parseHostUrl (value : String) : Option Url :=
  if "https://".toList.isPrefixOf value.toList then
    some ⟨"https", "", none, none, none, "/", some (String.ofList (value.toList.drop 8))⟩
  else none

/-- The crates on plain encodings: a member id is the hash of network and key, a
manifest's the hash of its fields, and Ed25519 is a record of public keys, messages
and signatures that verify. -/
def Crates.plain (valid : List (Vector UInt8 32 × Bytes × Vector UInt8 64)) : Crates where
  toCrypto :=
    { Crypto.recorded [] with
      verifyingKey := fun key =>
        if key ∈ valid.map Prod.fst then .ok () else .error "signature error"
      verify := fun key message signature => decide ((key, message, signature) ∈ valid) }
  discoveryContractVersion := "1"
  canonicalHash m := Lib.Digest.toHex (Lib.Digest.sha256 (plainBytes m)).toList
  manifestSigningBytes := plainBytes
  helloSigningBytes hello := utf8 hello.memberId ++ utf8 hello.challenge ++
    le64 hello.issuedAtEpochMs ++ utf8 hello.endpoint
  memberId network key := Lib.Digest.toHex (Lib.Digest.sha256 (utf8 network ++ key.toList)).toList
  parseUrl := parseHostUrl

section Plain
variable {valid : List (Vector UInt8 32 × Bytes × Vector UInt8 64)}

theorem decodeArray_toHex {n : ℕ} (v : Vector UInt8 n) :
    decodeArray (Crates.plain valid).toCrypto n (Lib.Digest.toHex v.toList) = some v :=
  decodeArray_eq_some.mpr (Lib.Digest.fromHex_toHex v.toList)

/-- What is on record verifies. -/
theorem verifySignature_plain {key : Vector UInt8 32} {signature : Vector UInt8 64}
    {m : MembershipManifestV1} (h : (key, plainBytes m, signature) ∈ valid) :
    verifySignature (.plain valid) (Lib.Digest.toHex key.toList)
      (Lib.Digest.toHex signature.toList) m = true := by
  have hkey : key ∈ valid.map Prod.fst := List.mem_map_of_mem h
  exact verifySignature_eq_true.mpr ⟨key, signature, decodeArray_toHex key,
    decodeArray_toHex signature, if_pos hkey, decide_eq_true h⟩

/-- Signatures of listed members that are on record make up a threshold. -/
theorem requireSignatures_plain {network : String} {roster : Roster} {m : MembershipManifestV1}
    {n : ℕ} {signed : List ManifestSignature} (hroster : roster.Bound (.plain valid) network)
    (hsub : signed.Sublist m.signatures)
    (hsigned : ∀ s ∈ signed, ∃ key, (s.signerId, key) ∈ roster ∧
      verifySignature (.plain valid) key s.signature m = true) (hn : n ≤ signed.length) :
    requireSignatures (.plain valid) m (insertAll ∅ roster) n = .ok () := by
  have hall : signed.filter (countsFor (.plain valid) m (insertAll ∅ roster)) = signed := by
    refine List.filter_eq_self.mpr fun s hs => ?_
    obtain ⟨key, hmem, hverify⟩ := hsigned s hs
    rw [countsFor, hroster.lookup hmem]
    exact hverify
  have hle := (hsub.filter (countsFor (.plain valid) m (insertAll ∅ roster))).length_le
  rw [hall] at hle
  exact refuse_ok.mpr (by omega)

end Plain

/-- A member of the network, under the id of its key. -/
def memberOf (key : Vector UInt8 32) (endpoint : String) : ManifestMember where
  memberId := (Crates.plain []).memberId "kerosene-test" key
  rootPublicKey := Lib.Digest.toHex key.toList
  endpoint

def signatureOf (member : ManifestMember) (signature : Vector UInt8 64) : ManifestSignature :=
  ⟨member.memberId, Lib.Digest.toHex signature.toList⟩

def aliceKey : Vector UInt8 32 := #v[
  0xd7, 0x5a, 0x98, 0x01, 0x82, 0xb1, 0x0a, 0xb7, 0xd5, 0x4b, 0xfe, 0xd3, 0xc9, 0x64, 0x07, 0x3a,
  0x0e, 0xe1, 0x72, 0xf3, 0xda, 0xa6, 0x23, 0x25, 0xaf, 0x02, 0x1a, 0x68, 0xf7, 0x07, 0x51, 0x1a]

def bobKey : Vector UInt8 32 := #v[
  0x3d, 0x40, 0x17, 0xc3, 0xe8, 0x43, 0x89, 0x5a, 0x92, 0xb7, 0x0a, 0xa7, 0x4d, 0x1b, 0x7e, 0xbc,
  0x9c, 0x98, 0x2c, 0xcf, 0x2e, 0xc4, 0x96, 0x8c, 0xc0, 0xcd, 0x55, 0xf1, 0x2a, 0xf4, 0x66, 0x0c]

def alice : ManifestMember :=
  memberOf aliceKey "https://aaaaaaaaaaaaaaaaaaaaaaaaaaaaaaaaaaaaaaaaaaaaaaaaaaaaaaaa.onion"

def bob : ManifestMember :=
  memberOf bobKey "https://bbbbbbbbbbbbbbbbbbbbbbbbbbbbbbbbbbbbbbbbbbbbbbbbbbbbbbbb.onion"

/-- Two roots of trust, both of them needed. -/
def networkBundle : GenesisTrustBundleV1 :=
  let plane : TrustPlane :=
    ⟨2, [⟨alice.memberId, alice.rootPublicKey⟩, ⟨bob.memberId, bob.rootPublicKey⟩]⟩
  ⟨"1", "kerosene-test", plane, plane⟩

/-- A manifest of the network with one member. -/
def manifestOf (epoch : UInt64) (phase : MembershipPhase) (previousManifestHash : String)
    (member : ManifestMember) (nextEpoch : Option UInt64) (signatures : List ManifestSignature) :
    MembershipManifestV1 where
  contractVersion := "1"
  networkId := "kerosene-test"
  plane := .vault
  epoch
  phase
  previousManifestHash
  threshold := 1
  members := [member]
  nextEpoch
  signatures

/-- Alice's and Bob's signatures of the first manifest. -/
def aliceFirst : Vector UInt8 64 := #v[
  0xd9, 0xbf, 0x91, 0x9f, 0x08, 0x36, 0x04, 0xd3, 0xe5, 0x47, 0x13, 0xa3, 0x06, 0x18, 0x68, 0x1e,
  0x9a, 0x3d, 0xa4, 0x0b, 0x69, 0x07, 0x95, 0x76, 0x9a, 0xb8, 0xe5, 0x31, 0x66, 0x81, 0x35, 0xa8,
  0x4c, 0x60, 0xf7, 0x90, 0x11, 0xf5, 0x87, 0xf8, 0xa4, 0x29, 0x8b, 0xc6, 0x14, 0x5a, 0xb8, 0x03,
  0xba, 0x4f, 0xb7, 0x1d, 0x3a, 0x59, 0x64, 0xb4, 0x0c, 0x0b, 0x86, 0x3d, 0xf3, 0xe7, 0xb4, 0x06]

def bobFirst : Vector UInt8 64 := #v[
  0xea, 0x2f, 0x81, 0x25, 0x93, 0x96, 0xf0, 0x61, 0xd6, 0x4d, 0x29, 0x7e, 0x20, 0x36, 0xb6, 0xdf,
  0xb4, 0xf5, 0xd8, 0x55, 0x90, 0xf0, 0x78, 0x5e, 0x78, 0xd0, 0x0b, 0x03, 0x92, 0xf3, 0xf8, 0xc4,
  0xe9, 0xec, 0xba, 0x2d, 0xe0, 0x46, 0xec, 0x98, 0x57, 0x00, 0x30, 0x2a, 0x4e, 0x01, 0x60, 0x53,
  0x09, 0x20, 0x6e, 0x86, 0xac, 0x52, 0x2b, 0x18, 0x4d, 0xd3, 0x9b, 0x5c, 0xfc, 0x21, 0x70, 0x05]

/-- Their signatures of the joint manifest. -/
def aliceJoint : Vector UInt8 64 := #v[
  0x53, 0x48, 0x8f, 0x86, 0x20, 0x2d, 0x42, 0x50, 0x93, 0x94, 0xd2, 0x89, 0x71, 0x17, 0xd4, 0x31,
  0xad, 0x0f, 0x8d, 0xff, 0x40, 0x70, 0x35, 0x74, 0x7f, 0x71, 0xa3, 0x15, 0x8a, 0xe8, 0xdd, 0x9e,
  0xfb, 0xe1, 0x2e, 0x44, 0x6f, 0x27, 0xe4, 0x44, 0xe6, 0x66, 0xd3, 0xd7, 0xe9, 0x40, 0xfa, 0x1c,
  0xf8, 0x10, 0x85, 0x7e, 0xeb, 0x84, 0x0d, 0x04, 0xe4, 0xdb, 0x3e, 0x74, 0x58, 0x20, 0x57, 0x0f]

def bobJoint : Vector UInt8 64 := #v[
  0xe6, 0x68, 0x04, 0xc5, 0x43, 0x45, 0xf0, 0xa3, 0x99, 0x47, 0x22, 0xba, 0x75, 0xed, 0x02, 0x73,
  0x53, 0x41, 0x3f, 0x02, 0x36, 0x76, 0x9d, 0xe1, 0xb7, 0x30, 0x34, 0x85, 0xd0, 0x2e, 0xc3, 0x0c,
  0x1f, 0x2d, 0x17, 0xb9, 0xfa, 0x00, 0x4c, 0x53, 0xc7, 0x06, 0x59, 0xbb, 0xc7, 0xaf, 0x92, 0x40,
  0xbf, 0x61, 0x30, 0x89, 0xaa, 0xc5, 0x4c, 0xd1, 0xef, 0xee, 0xc4, 0x9f, 0xe8, 0xf8, 0x44, 0x09]

/-- Bob's signature of the last manifest. -/
def bobLast : Vector UInt8 64 := #v[
  0xb7, 0x75, 0xc4, 0x95, 0x70, 0x6f, 0x94, 0xb9, 0x23, 0x43, 0xfb, 0x12, 0xe9, 0xe2, 0x51, 0xd4,
  0x15, 0xe0, 0x70, 0x04, 0xc8, 0xc7, 0xe3, 0xa4, 0x3b, 0x05, 0x90, 0x30, 0x41, 0xce, 0xf4, 0xcc,
  0x5c, 0xa0, 0x37, 0x33, 0xc3, 0xd3, 0x91, 0x78, 0x84, 0x4a, 0x67, 0x16, 0x89, 0xb5, 0x60, 0xf3,
  0xfb, 0x60, 0x14, 0x72, 0xfe, 0x25, 0xed, 0x75, 0xb3, 0x77, 0x77, 0x43, 0xe4, 0x01, 0xf8, 0x02]

/-- The first manifest: a roster of one. -/
def aliceManifest : MembershipManifestV1 :=
  manifestOf 1 .stable zeroHash alice none [signatureOf alice aliceFirst, signatureOf bob bobFirst]

/-- The roster passes on, signed by the old one and the new one. -/
def jointManifest : MembershipManifestV1 :=
  manifestOf 2 .joint ((Crates.plain []).canonicalHash aliceManifest) bob (some 3)
    [signatureOf alice aliceJoint, signatureOf bob bobJoint]

def bobManifest : MembershipManifestV1 :=
  manifestOf 3 .stable ((Crates.plain []).canonicalHash jointManifest) bob none
    [signatureOf bob bobLast]

def networkRecord : List (Vector UInt8 32 × Bytes × Vector UInt8 64) := [
  (aliceKey, plainBytes aliceManifest, aliceFirst), (bobKey, plainBytes aliceManifest, bobFirst),
  (aliceKey, plainBytes jointManifest, aliceJoint), (bobKey, plainBytes jointManifest, bobJoint),
  (bobKey, plainBytes bobManifest, bobLast)]

def networkVerifier : MembershipVerifier := ⟨"kerosene-test", .vault, networkBundle.vault, none⟩

theorem alice_ne_bob : alice.memberId ≠ bob.memberId := by decide +kernel

theorem alice_endpoint :
    validateOnionEndpoint (.plain []) MembershipError.invalidEndpoint alice.endpoint = .ok () := by
  decide +kernel

theorem bob_endpoint :
    validateOnionEndpoint (.plain []) MembershipError.invalidEndpoint bob.endpoint = .ok () := by
  decide +kernel

section Network
variable {valid : List (Vector UInt8 32 × Bytes × Vector UInt8 64)}

theorem validateMember_plain (network : String) (key : Vector UInt8 32) :
    validateMember (.plain valid) network ((Crates.plain []).memberId network key)
      (Lib.Digest.toHex key.toList) = .ok () :=
  validateMember_ok.mpr ⟨key, decodeArray_toHex key, rfl⟩

theorem canonicalHash_plain (m : MembershipManifestV1) :
    (Crates.plain valid).canonicalHash m = (Crates.plain []).canonicalHash m := rfl

variable (valid) in
theorem validateTrustPlane_network :
    validateTrustPlane (.plain valid) "kerosene-test" networkBundle.vault = .ok () := by
  rw [validateTrustPlane, except_then_ok, refuse_ok, validateEach_ok]
  refine ⟨by decide, ?_, ?_, fun _ _ => List.not_mem_nil⟩
  · intro member hmember
    rcases List.mem_cons.mp hmember with rfl | hmember
    · exact validateMember_plain _ aliceKey
    · rw [List.mem_singleton.mp hmember]
      exact validateMember_plain _ bobKey
  · exact List.nodup_cons.mpr ⟨fun h => alice_ne_bob (List.mem_singleton.mp h),
      List.nodup_singleton _⟩

variable (valid) in
theorem new_network (plane : DiscoveryPlane) :
    MembershipVerifier.new (.plain valid) networkBundle plane =
      .ok { networkVerifier with plane := plane } := by
  have hplane := validateTrustPlane_network valid
  unfold MembershipVerifier.new
  rw [except_then_ok, except_then_ok, except_then_ok, refuse_ok]
  refine ⟨fun h => h rfl, hplane, hplane, ?_⟩
  cases plane <;> rfl

/-- A manifest of one member is well formed when its endpoint, its signers and its
epochs are. -/
theorem validateStructure_manifestOf {v : MembershipVerifier} (hnetwork : v.networkId = "kerosene-test")
    (hplane : v.plane = .vault) {epoch : UInt64} {phase : MembershipPhase} {previous : String}
    {key : Vector UInt8 32} {endpoint : String} {nextEpoch : Option UInt64}
    {signatures : List ManifestSignature}
    (hendpoint : validateOnionEndpoint (.plain []) MembershipError.invalidEndpoint endpoint = .ok ())
    (hsigners : (signatures.map ManifestSignature.signerId).Nodup)
    (hepochs : match phase with
      | .stable => nextEpoch = none
      | .joint => ∃ next, nextEpoch = some next ∧ epoch < next) :
    v.validateStructure (.plain valid)
      (manifestOf epoch phase previous (memberOf key endpoint) nextEpoch signatures) = .ok () := by
  have hmembers : validateManifestMembers (.plain valid) v.networkId [memberOf key endpoint] 1 =
      .ok () := by
    rw [validateManifestMembers, except_then_ok, refuse_ok, validateEach_ok, hnetwork]
    refine ⟨by simp, fun member hmember => ?_, List.nodup_singleton _, fun _ _ => List.not_mem_nil⟩
    rw [List.mem_singleton.mp hmember]
    exact except_then_ok.mpr ⟨validateMember_plain _ key, hendpoint⟩
  rw [validateStructure, except_then_ok, except_then_ok, except_then_ok, except_then_ok, refuse_ok,
    refuse_ok, refuse_ok, not_not, not_not, not_or, not_not, not_not]
  refine ⟨rfl, ⟨hnetwork.symm, hplane.symm⟩, hmembers, hsigners, ?_⟩
  cases phase with
  | stable =>
    rw [hepochs]
    rfl
  | joint =>
    obtain ⟨next, rfl, hlt⟩ := hepochs
    refine refuse_ok.mpr fun h => ?_
    exact absurd (h next rfl) (UInt64.not_le.mpr hlt)

theorem requireChain_joint :
    requireChain (.plain valid) aliceManifest jointManifest (saturatingAdd aliceManifest.epoch 1) =
      .ok () := by
  rw [requireChain_ok, canonicalHash_plain, jointManifest, manifestOf]
  exact ⟨rfl, rfl⟩

theorem requireChain_bob : requireChain (.plain valid) jointManifest bobManifest 3 = .ok () := by
  rw [requireChain_ok, canonicalHash_plain, bobManifest, manifestOf]
  exact ⟨rfl, rfl⟩

/-- The first manifest of the network, at any epoch, is accepted from both roots. -/
theorem accept_first {epoch : UInt64} {aliceSignature bobSignature : Vector UInt8 64}
    (hepoch : epoch ≠ 0) :
    let m := manifestOf epoch .stable zeroHash alice none
      [signatureOf alice aliceSignature, signatureOf bob bobSignature]
    (aliceKey, plainBytes m, aliceSignature) ∈ valid → (bobKey, plainBytes m, bobSignature) ∈ valid →
    accept (.plain valid) m networkVerifier = .ok () { networkVerifier with current := some m } := by
  intro m halice hbob
  have hroster := (new_bound (new_network valid .vault)).2.genesis
  refine accept_ok.mpr ⟨?_, ?_, rfl⟩
  · refine validateStructure_manifestOf rfl rfl alice_endpoint ?_ rfl
    exact List.nodup_cons.mpr ⟨fun h => alice_ne_bob (List.mem_singleton.mp h),
      List.nodup_singleton _⟩
  · show verifyInitial (.plain valid) networkVerifier m = .ok ()
    rw [verifyInitial, except_then_ok, refuse_ok]
    refine ⟨by simp [m, manifestOf, hepoch], ?_⟩
    refine requireSignatures_plain hroster (List.Sublist.refl _) (fun s hs => ?_) (Nat.le_refl 2)
    rcases List.mem_cons.mp hs with rfl | hs
    · exact ⟨_, .head _, verifySignature_plain halice⟩
    · rw [List.mem_singleton.mp hs]
      exact ⟨_, .tail _ (.head _), verifySignature_plain hbob⟩

variable (hvalid : networkRecord ⊆ valid)
include hvalid

theorem accept_alice :
    accept (.plain valid) aliceManifest networkVerifier =
      .ok () { networkVerifier with current := some aliceManifest } :=
  accept_first (by decide) (hvalid (.head _)) (hvalid (.tail _ (.head _)))

theorem accept_joint :
    accept (.plain valid) jointManifest { networkVerifier with current := some aliceManifest } =
      .ok () { networkVerifier with current := some jointManifest } := by
  have hroster := ((new_bound (new_network valid .vault)).2.accept
    (accept_alice hvalid)).current aliceManifest rfl
  have hstructure : MembershipVerifier.validateStructure (.plain valid)
      { networkVerifier with current := some aliceManifest } jointManifest = .ok () := by
    refine validateStructure_manifestOf rfl rfl bob_endpoint ?_ ⟨3, rfl, by decide⟩
    exact List.nodup_cons.mpr ⟨fun h => alice_ne_bob (List.mem_singleton.mp h),
      List.nodup_singleton _⟩
  have hroster' := (structured_of_validateStructure hstructure).roster
  refine accept_ok.mpr ⟨hstructure, ?_, rfl⟩
  show verifyAfterStable (.plain valid) aliceManifest jointManifest = .ok ()
  rw [verifyAfterStable, except_then_ok, except_then_ok]
  refine ⟨requireChain_joint, ?_, ?_⟩
  · refine requireSignatures_plain hroster (List.Sublist.cons_cons _ (List.nil_sublist _))
      (fun s hs => ?_) (by decide)
    rw [List.mem_singleton.mp hs]
    exact ⟨_, .head _, verifySignature_plain (hvalid (.tail _ (.tail _ (.head _))))⟩
  · refine requireSignatures_plain hroster' (List.sublist_cons_self _ _) (fun s hs => ?_) (by decide)
    rw [List.mem_singleton.mp hs]
    exact ⟨_, .head _, verifySignature_plain (hvalid (.tail _ (.tail _ (.tail _ (.head _)))))⟩

theorem accept_bob :
    accept (.plain valid) bobManifest { networkVerifier with current := some jointManifest } =
      .ok () { networkVerifier with current := some bobManifest } := by
  have hroster := (((new_bound (new_network valid .vault)).2.accept
    (accept_alice hvalid)).accept (accept_joint hvalid)).current jointManifest rfl
  refine accept_ok.mpr ⟨?_, ?_, rfl⟩
  · exact validateStructure_manifestOf rfl rfl bob_endpoint (List.nodup_singleton _) rfl
  · show verifyAfterJoint (.plain valid) jointManifest bobManifest = .ok ()
    rw [verifyAfterJoint, except_then_ok, refuse_ok, not_not, except_bind_ok]
    refine ⟨rfl, 3, rfl, ?_⟩
    rw [except_then_ok, except_then_ok, refuse_ok, Bool.not_eq_false, sameRoster_eq]
    refine ⟨requireChain_bob, ⟨rfl, rfl⟩, ?_⟩
    refine requireSignatures_plain hroster (List.Sublist.refl _) (fun s hs => ?_) (by decide)
    rw [List.mem_singleton.mp hs]
    exact ⟨_, .head _,
      verifySignature_plain (hvalid (.tail _ (.tail _ (.tail _ (.tail _ (.head _))))))⟩

end Network

theorem network_hashes_nodup : (zeroHash ::
    [aliceManifest, jointManifest, bobManifest].map (Crates.plain []).canonicalHash).Nodup := by
  decide +kernel

theorem zeroHash_ne_alice : zeroHash ≠ (Crates.plain []).canonicalHash aliceManifest := by
  have h := network_hashes_nodup
  simp only [List.map_cons, List.map_nil, List.nodup_cons, List.mem_cons, not_or] at h
  exact h.1.1

theorem alice_hash_ne_joint :
    (Crates.plain []).canonicalHash aliceManifest ≠ (Crates.plain []).canonicalHash jointManifest := by
  have h := network_hashes_nodup
  simp only [List.map_cons, List.map_nil, List.nodup_cons, List.mem_cons, not_or] at h
  exact h.2.1.1

theorem accepted_network :
    accepted (.plain networkRecord) [aliceManifest, jointManifest, bobManifest] networkVerifier =
      [aliceManifest, jointManifest, bobManifest] := by
  have hrecord : networkRecord ⊆ networkRecord := fun _ h => h
  rw [accepted_cons_ok (accept_alice hrecord), accepted_cons_ok (accept_joint hrecord),
    accepted_cons_ok (accept_bob hrecord), accepted_nil]

theorem joint_consensus_network :
    SignedBy (.plain networkRecord) jointManifest aliceManifest.roster 1 ∧
      SignedBy (.plain networkRecord) jointManifest jointManifest.roster 1 ∧
      SignedBy (.plain networkRecord) bobManifest jointManifest.roster 1 := by
  have hmembers : aliceManifest.members ≠ bobManifest.members := fun h =>
    alice_ne_bob (congrArg ManifestMember.memberId (List.cons.inj h).1)
  have hjoint : ∀ m ∈ [jointManifest], m.phase ≠ .stable := by
    intro m hm h
    rw [List.mem_singleton.mp hm] at h
    cases h
  obtain ⟨_, hchange, _⟩ :=
    joint_consensus (new_network networkRecord .vault) [aliceManifest, jointManifest, bobManifest]
  obtain ⟨j, hj, _, _, _, hold, hnew, hlater⟩ :=
    hchange [] aliceManifest [jointManifest] bobManifest [] accepted_network rfl rfl hjoint
      (.inl hmembers)
  have hj : jointManifest = j := (List.cons.inj hj).1
  rw [← hj] at hold hnew hlater
  exact ⟨hold, hnew, hlater⟩

end Kerosene.Node
