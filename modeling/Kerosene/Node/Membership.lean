import Kerosene.Node.Contracts

/-! Verification of membership manifests (`kerosene-membership`).

A verifier holds the roster of the genesis bundle and the manifest accepted last.
`accept` checks a manifest by itself and then against the last one, under one of
three rules. Each check has one lemma that says when it passes; `accept_ok` puts
them together. -/
namespace Kerosene.Node

open Lib.Encode Lib.Inplace Lib.Tables Lib.Word Ledger

inductive MembershipError where
  | contractVersion
  | scopeMismatch
  | invalidThreshold
  | memberIdMismatch
  | invalidEndpoint
  | duplicateIdentity
  | hashChain
  | epochTransition
  | jointConsensusRequired
  | jointRosterMismatch
  | insufficientSignatures
  deriving DecidableEq, Repr

structure MembershipVerifier where
  networkId : String
  plane : DiscoveryPlane
  genesis : TrustPlane
  current : Option MembershipManifestV1
  deriving DecidableEq, Repr

/-! ### Rosters -/

section Rosters
variable (x : Crates)

/-- An id is the one of its key. -/
def validateMember (network id key : String) : Except MembershipError Unit := do
  let bytes ← okOr (decodeArray x.toCrypto 32 key) .memberIdMismatch
  refuse (x.memberId network bytes ≠ id) .memberIdMismatch

/-- Members one after another: each is checked and must have an id not seen yet. -/
def validateEach {α : Type} (validate : α → Except MembershipError Unit) (id : α → String) :
    List String → List α → Except MembershipError Unit
  | _, [] => .ok ()
  | ids, member :: rest => do
    validate member
    refuse (id member ∈ ids) .duplicateIdentity
    validateEach validate id (id member :: ids) rest

def validateTrustPlane (network : String) (plane : TrustPlane) : Except MembershipError Unit := do
  refuse (plane.threshold = 0 ∨ plane.threshold.toNat > plane.members.length) .invalidThreshold
  validateEach (fun member => validateMember x network member.memberId member.rootPublicKey)
    TrustMember.memberId [] plane.members

def validateManifestMembers (network : String) (members : List ManifestMember)
    (threshold : UInt16) : Except MembershipError Unit := do
  refuse (threshold = 0 ∨ threshold.toNat > members.length) .invalidThreshold
  validateEach (fun member => do
      validateMember x network member.memberId member.rootPublicKey
      validateOnionEndpoint x .invalidEndpoint member.endpoint)
    ManifestMember.memberId [] members

end Rosters

def sameRoster (left right : MembershipManifestV1) : Bool :=
  left.threshold == right.threshold && left.members == right.members

def trustKeys (members : List TrustMember) : Table String String :=
  insertAll ∅ (members.map fun member => (member.memberId, member.rootPublicKey))

def manifestKeys (members : List ManifestMember) : Table String String :=
  insertAll ∅ (members.map fun member => (member.memberId, member.rootPublicKey))

/-! ### Signatures -/

section Signatures
variable (x : Crates)

def verifySignature (publicKey signature : String) (manifest : MembershipManifestV1) : Bool :=
  match decodeArray x.toCrypto 32 publicKey with
  | none => false
  | some keyBytes =>
    match decodeArray x.toCrypto 64 signature with
    | none => false
    | some signatureBytes =>
      match x.verifyingKey keyBytes with
      | .error _ => false
      | .ok () => x.verify keyBytes (x.manifestSigningBytes manifest) signatureBytes

/-- A signature of a manifest that counts: its signer is allowed, under a key it
verifies with. -/
def countsFor (manifest : MembershipManifestV1) (allowed : Table String String)
    (candidate : ManifestSignature) : Bool :=
  match allowed.lookup candidate.signerId with
  | none => false
  | some key => verifySignature x key candidate.signature manifest

def requireSignatures (manifest : MembershipManifestV1) (allowed : Table String String)
    (threshold : ℕ) : Except MembershipError Unit :=
  let valid := (manifest.signatures.filter (countsFor x manifest allowed)).length
  refuse (valid < threshold) .insufficientSignatures

def requireChain (current next : MembershipManifestV1) (expectedEpoch : UInt64) :
    Except MembershipError Unit := do
  refuse (next.previousManifestHash ≠ x.canonicalHash current) .hashChain
  refuse (next.epoch ≠ expectedEpoch) .epochTransition

end Signatures

/-- The hash a first manifest names: sixty-four zeros. -/
def zeroHash : String := String.ofList (List.replicate 64 '0')

namespace MembershipVerifier

/-! ### The verifier -/

section Verifier
variable (x : Crates)

def new (bundle : GenesisTrustBundleV1) (plane : DiscoveryPlane) :
    Except MembershipError MembershipVerifier := do
  refuse (bundle.contractVersion ≠ x.discoveryContractVersion) .contractVersion
  validateTrustPlane x bundle.networkId bundle.bank
  validateTrustPlane x bundle.networkId bundle.vault
  return { networkId := bundle.networkId
           plane
           genesis := match plane with
             | .bank => bundle.bank
             | .vault => bundle.vault
           current := none }

def validateStructure (v : MembershipVerifier) (manifest : MembershipManifestV1) :
    Except MembershipError Unit := do
  refuse (manifest.contractVersion ≠ x.discoveryContractVersion) .contractVersion
  refuse (manifest.networkId ≠ v.networkId ∨ manifest.plane ≠ v.plane) .scopeMismatch
  validateManifestMembers x v.networkId manifest.members manifest.threshold
  refuse (¬ (manifest.signatures.map ManifestSignature.signerId).Nodup) .duplicateIdentity
  match manifest.phase with
  | .stable => refuse manifest.nextEpoch.isSome .epochTransition
  | .joint => refuse (∀ next ∈ manifest.nextEpoch, next ≤ manifest.epoch) .epochTransition

def verifyInitial (v : MembershipVerifier) (manifest : MembershipManifestV1) :
    Except MembershipError Unit := do
  refuse (manifest.phase ≠ .stable ∨ manifest.epoch = 0 ∨
    manifest.previousManifestHash ≠ zeroHash) .epochTransition
  requireSignatures x manifest (trustKeys v.genesis.members) v.genesis.threshold.toNat

def verifyAfterStable (current next : MembershipManifestV1) : Except MembershipError Unit := do
  requireChain x current next (saturatingAdd current.epoch 1)
  requireSignatures x next (manifestKeys current.members) current.threshold.toNat
  match next.phase with
  | .stable => refuse (sameRoster current next = false) .jointConsensusRequired
  | .joint => requireSignatures x next (manifestKeys next.members) next.threshold.toNat

def verifyAfterJoint (joint next : MembershipManifestV1) : Except MembershipError Unit := do
  refuse (next.phase ≠ .stable) .epochTransition
  let expectedEpoch ← okOr joint.nextEpoch .epochTransition
  requireChain x joint next expectedEpoch
  refuse (sameRoster joint next = false) .jointRosterMismatch
  requireSignatures x next (manifestKeys joint.members) joint.threshold.toNat

/-- The rule for the manifest that follows what was accepted so far. -/
def verifyNext (v : MembershipVerifier) (manifest : MembershipManifestV1) :
    Except MembershipError Unit :=
  match v.current with
  | none => verifyInitial x v manifest
  | some current =>
    match current.phase with
    | .stable => verifyAfterStable x current manifest
    | .joint => verifyAfterJoint x current manifest

def accept (manifest : MembershipManifestV1) : EStateM MembershipError MembershipVerifier Unit := do
  let v ← get
  check (v.validateStructure x manifest)
  check (v.verifyNext x manifest)
  set { v with current := some manifest }

def restore (bundle : GenesisTrustBundleV1) (plane : DiscoveryPlane)
    (manifests : List MembershipManifestV1) : Except MembershipError MembershipVerifier := do
  let v ← new x bundle plane
  match replay (accept x) manifests v with
  | .ok () v => .ok v
  | .error e _ => .error e

def currentHash (v : MembershipVerifier) : Option String := v.current.map x.canonicalHash

end Verifier

def threshold (v : MembershipVerifier) : ℕ :=
  match v.current with
  | some manifest => manifest.threshold.toNat
  | none => v.genesis.threshold.toNat

def memberCount (v : MembershipVerifier) : ℕ :=
  match v.current with
  | some manifest => manifest.members.length
  | none => v.genesis.members.length

def authorizedKeys (v : MembershipVerifier) : Table String String :=
  match v.current with
  | some manifest => manifestKeys manifest.members
  | none => trustKeys v.genesis.members

def isMember (v : MembershipVerifier) (member publicKey : String) : Bool :=
  v.authorizedKeys.lookup member == some publicKey

end MembershipVerifier

/-! ### When the checks pass -/

section Rosters
variable {x : Crates} {network : String}

theorem validateMember_ok {id key : String} :
    validateMember x network id key = .ok () ↔
      ∃ bytes, decodeArray x.toCrypto 32 key = some bytes ∧ x.memberId network bytes = id := by
  simp only [validateMember, except_bind_ok, okOr_ok, refuse_ok, not_not]

theorem validateEach_ok {α : Type} {validate : α → Except MembershipError Unit} {id : α → String}
    {ids : List String} {l : List α} :
    validateEach validate id ids l = .ok () ↔
      (∀ member ∈ l, validate member = .ok ()) ∧ (l.map id).Nodup ∧
        ∀ member ∈ l, id member ∉ ids := by
  induction l generalizing ids with
  | nil => simp [validateEach]
  | cons member rest ih =>
    rw [validateEach, except_then_ok, except_then_ok, refuse_ok, ih, List.forall_mem_cons,
      List.forall_mem_cons, List.map_cons, List.nodup_cons]
    constructor
    · intro h
      obtain ⟨hmember, hfresh, hrest, hnodup, hids⟩ := h
      refine ⟨⟨hmember, hrest⟩, ⟨fun hmem => ?_, hnodup⟩, hfresh, fun other hother hold =>
        hids other hother (List.mem_cons_of_mem _ hold)⟩
      obtain ⟨other, hother, hsame⟩ := List.mem_map.mp hmem
      exact hids other hother (hsame ▸ List.mem_cons_self)
    · intro h
      obtain ⟨⟨hmember, hrest⟩, ⟨hne, hnodup⟩, hfresh, hids⟩ := h
      refine ⟨hmember, hfresh, hrest, hnodup, fun other hother hseen => ?_⟩
      rcases List.mem_cons.mp hseen with hsame | hold
      · exact hne (List.mem_map.mpr ⟨other, hother, hsame⟩)
      · exact hids other hother hold

/-- The ids and keys of a roster. -/
abbrev Roster := List (String × String)

def TrustPlane.roster (plane : TrustPlane) : Roster :=
  plane.members.map fun member => (member.memberId, member.rootPublicKey)

def MembershipManifestV1.roster (manifest : MembershipManifestV1) : Roster :=
  manifest.members.map fun member => (member.memberId, member.rootPublicKey)

/-- No id occurs twice, and every id is the one of its key. -/
structure Roster.Bound (x : Crates) (network : String) (roster : Roster) : Prop where
  nodup : (roster.map Prod.fst).Nodup
  ids : ∀ p ∈ roster, ∃ bytes, decodeArray x.toCrypto 32 p.2 = some bytes ∧
    x.memberId network bytes = p.1

theorem validateTrustPlane_bound {plane : TrustPlane}
    (h : validateTrustPlane x network plane = .ok ()) : plane.roster.Bound x network := by
  simp only [validateTrustPlane, except_then_ok, validateEach_ok, validateMember_ok] at h
  obtain ⟨_, hids, hnodup, _⟩ := h
  constructor
  · rw [TrustPlane.roster, List.map_map]
    exact hnodup
  · intro p hp
    obtain ⟨member, hmember, rfl⟩ := List.mem_map.mp hp
    exact hids member hmember

theorem validateManifestMembers_bound {manifest : MembershipManifestV1} {threshold : UInt16}
    (h : validateManifestMembers x network manifest.members threshold = .ok ()) :
    manifest.roster.Bound x network := by
  simp only [validateManifestMembers, except_then_ok, validateEach_ok, validateMember_ok] at h
  obtain ⟨_, hids, hnodup, _⟩ := h
  constructor
  · rw [MembershipManifestV1.roster, List.map_map]
    exact hnodup
  · intro p hp
    obtain ⟨member, hmember, rfl⟩ := List.mem_map.mp hp
    exact (hids member hmember).1

theorem sameRoster_eq {left right : MembershipManifestV1} :
    sameRoster left right = true ↔
      left.threshold = right.threshold ∧ left.members = right.members := by
  simp [sameRoster]

/-- What a table of keys has under an id is in the roster it was made of. -/
theorem mem_of_lookup {roster : Roster} {id key : String}
    (h : (insertAll (∅ : Table String String) roster).lookup id = some key) : (id, key) ∈ roster := by
  rcases lookup_insertAll ∅ roster id with ⟨_, hl⟩ | ⟨key', hmem, hl⟩
  · rw [hl, Finmap.lookup_empty] at h
    cases h
  · rw [hl] at h
    cases h
    exact hmem

/-- With distinct ids the table has all of the roster. -/
theorem Roster.Bound.lookup {roster : Roster} (hroster : roster.Bound x network) {id key : String}
    (h : (id, key) ∈ roster) : (insertAll (∅ : Table String String) roster).lookup id = some key := by
  rcases lookup_insertAll ∅ roster id with ⟨hnot, _⟩ | ⟨key', hmem, hl⟩
  · exact absurd (List.mem_map_of_mem h) hnot
  · have hsame := List.inj_on_of_nodup_map hroster.nodup hmem h rfl
    rw [hl, (Prod.mk.inj hsame).2]

end Rosters

/-! ### Who signed -/

section Signatures
variable {x : Crates} {manifest : MembershipManifestV1}

/-- One of the manifest's signatures verifies under the key. -/
def VerifiesUnder (x : Crates) (manifest : MembershipManifestV1) (key : Vector UInt8 32) : Prop :=
  x.verifyingKey key = .ok () ∧ ∃ s ∈ manifest.signatures, ∃ signature,
    decodeArray x.toCrypto 64 s.signature = some signature ∧
      x.verify key (x.manifestSigningBytes manifest) signature = true

/-- The manifest carries signatures that verify under at least `n` distinct keys of
32 bytes, all of them root keys of the roster. -/
def SignedBy (x : Crates) (manifest : MembershipManifestV1) (roster : Roster) (n : ℕ) : Prop :=
  ∃ keys : List (Vector UInt8 32), keys.Nodup ∧ n ≤ keys.length ∧
    ∀ key ∈ keys, (∃ p ∈ roster, decodeArray x.toCrypto 32 p.2 = some key) ∧
      VerifiesUnder x manifest key

theorem verifySignature_eq_true {publicKey signature : String} :
    verifySignature x publicKey signature manifest = true ↔
      ∃ key sig, decodeArray x.toCrypto 32 publicKey = some key ∧
        decodeArray x.toCrypto 64 signature = some sig ∧ x.verifyingKey key = .ok () ∧
        x.verify key (x.manifestSigningBytes manifest) sig = true := by
  unfold verifySignature
  cases decodeArray x.toCrypto 32 publicKey with
  | none => simp
  | some key =>
    cases decodeArray x.toCrypto 64 signature with
    | none => simp
    | some sig => cases hkey : x.verifyingKey key <;> simp [hkey]

/-- Reading off distinct labels of some of the elements leaves as many results as
there are elements, and distinct ones. -/
theorem map_filterMap_of_forall {σ κ ι : Type} {l : List σ} {read : σ → Option κ} {label : κ → ι}
    {id : σ → ι} (h : ∀ s ∈ l, ∃ k, read s = some k ∧ label k = id s) :
    (l.filterMap read).map label = l.map id := by
  induction l with
  | nil => rfl
  | cons s l ih =>
    obtain ⟨k, hk, hid⟩ := h s List.mem_cons_self
    rw [List.filterMap_cons_some hk, List.map_cons, List.map_cons, hid,
      ih fun s' hs' => h s' (List.mem_cons_of_mem s hs')]

/-- The key a signer is listed with, as bytes. -/
def signerKey (x : Crates) (roster : Roster) (s : ManifestSignature) : Option (Vector UInt8 32) := do
  let key ← (insertAll (∅ : Table String String) roster).lookup s.signerId
  decodeArray x.toCrypto 32 key

/-- A signature counts under a root key of the roster, and the id of its signer is
the one of that key. -/
theorem countsFor_signerKey {network : String} {roster : Roster} (hroster : roster.Bound x network)
    {s : ManifestSignature} (hs : s ∈ manifest.signatures)
    (h : countsFor x manifest (insertAll ∅ roster) s = true) :
    ∃ key, signerKey x roster s = some key ∧ x.memberId network key = s.signerId ∧
      (∃ p ∈ roster, decodeArray x.toCrypto 32 p.2 = some key) ∧ VerifiesUnder x manifest key := by
  unfold countsFor at h
  cases hkey : (insertAll (∅ : Table String String) roster).lookup s.signerId with
  | none =>
    rw [hkey] at h
    cases h
  | some text =>
    rw [hkey] at h
    obtain ⟨key, sig, hdecode, hsig, hok, hverify⟩ := verifySignature_eq_true.mp h
    have hmem := mem_of_lookup hkey
    obtain ⟨bytes, hbytes, hid⟩ := hroster.ids _ hmem
    rw [hdecode] at hbytes
    cases hbytes
    refine ⟨key, ?_, hid, ⟨_, hmem, hdecode⟩, hok, s, hs, sig, hsig, hverify⟩
    simp only [signerKey, hkey, Option.bind_eq_bind, Option.bind_some, hdecode]

/-- Signatures that count have distinct signers, so their keys are distinct too. -/
theorem signedBy_of_requireSignatures {network : String} {roster : Roster} {n : ℕ}
    (hsigners : (manifest.signatures.map ManifestSignature.signerId).Nodup)
    (hroster : roster.Bound x network)
    (h : requireSignatures x manifest (insertAll ∅ roster) n = .ok ()) :
    SignedBy x manifest roster n := by
  have hcount : n ≤ (manifest.signatures.filter (countsFor x manifest (insertAll ∅ roster))).length :=
    Nat.not_lt.mp (refuse_ok.mp h)
  have hvalid : ∀ s ∈ manifest.signatures.filter (countsFor x manifest (insertAll ∅ roster)),
      s ∈ manifest.signatures ∧ countsFor x manifest (insertAll ∅ roster) s = true := fun s hs =>
    List.mem_filter.mp hs
  generalize hl : manifest.signatures.filter (countsFor x manifest (insertAll ∅ roster)) = valid
    at hcount hvalid
  have hids : (valid.filterMap (signerKey x roster)).map (x.memberId network) =
      valid.map ManifestSignature.signerId := by
    refine map_filterMap_of_forall fun s hs => ?_
    obtain ⟨key, hkey, hid, _⟩ := countsFor_signerKey hroster (hvalid s hs).1 (hvalid s hs).2
    exact ⟨key, hkey, hid⟩
  have hnodup : ((valid.filterMap (signerKey x roster)).map (x.memberId network)).Nodup := by
    rw [hids, ← hl]
    exact hsigners.sublist (List.filter_sublist.map _)
  have hlength := congrArg List.length hids
  rw [List.length_map, List.length_map] at hlength
  refine ⟨valid.filterMap (signerKey x roster), hnodup.of_map, by omega, fun key hmem => ?_⟩
  obtain ⟨s, hs, hkey⟩ := List.mem_filterMap.mp hmem
  obtain ⟨key', hkey', _, hfacts⟩ := countsFor_signerKey hroster (hvalid s hs).1 (hvalid s hs).2
  rw [hkey] at hkey'
  cases hkey'
  exact hfacts

end Signatures

/-! ### What acceptance means -/

namespace MembershipVerifier

variable {x : Crates} {v v' : MembershipVerifier} {manifest : MembershipManifestV1}

/-- The rosters a verifier goes by are bound to its network. -/
structure Bound (x : Crates) (v : MembershipVerifier) : Prop where
  genesis : v.genesis.roster.Bound x v.networkId
  current : ∀ m, v.current = some m → m.roster.Bound x v.networkId

/-- The roster in force: the current manifest's, the bundle's before the first one. -/
def roster (v : MembershipVerifier) : Roster :=
  match v.current with
  | some m => m.roster
  | none => v.genesis.roster

theorem authorizedKeys_eq (v : MembershipVerifier) : v.authorizedKeys = insertAll ∅ v.roster := by
  unfold authorizedKeys roster
  cases v.current <;> rfl

theorem mem_roster_of_isMember {id key : String} (h : v.isMember id key = true) :
    (id, key) ∈ v.roster := by
  rw [isMember, authorizedKeys_eq, beq_iff_eq] at h
  exact mem_of_lookup h

theorem mem_authorizedKeys {id : String} :
    id ∈ v.authorizedKeys ↔ id ∈ v.roster.map Prod.fst := by
  rw [authorizedKeys_eq, ← Finmap.lookup_isSome]
  rcases lookup_insertAll ∅ v.roster id with ⟨hnot, hl⟩ | ⟨key, hmem, hl⟩
  · rw [hl, Finmap.lookup_empty]
    simp only [Option.isSome_none, Bool.false_eq_true, hnot]
  · rw [hl]
    simp only [Option.isSome_some, true_iff]
    exact List.mem_map_of_mem hmem

theorem Bound.roster (hv : v.Bound x) : v.roster.Bound x v.networkId := by
  unfold MembershipVerifier.roster
  cases h : v.current with
  | none => exact hv.genesis
  | some m => exact hv.current m h

/-- Who is in the roster is a member under the key listed there. -/
theorem Bound.isMember (hv : v.Bound x) {id key : String} (h : (id, key) ∈ v.roster) :
    v.isMember id key = true := by
  rw [MembershipVerifier.isMember, authorizedKeys_eq, hv.roster.lookup h]
  exact beq_self_eq_true _

theorem new_bound {bundle : GenesisTrustBundleV1} {plane : DiscoveryPlane}
    (h : new x bundle plane = .ok v) : v.current = none ∧ v.Bound x := by
  simp only [new, except_then_ok] at h
  obtain ⟨_, hbank, hvault, hv⟩ := h
  cases hv
  refine ⟨rfl, ?_, fun m hm => ?_⟩
  · cases plane
    · exact validateTrustPlane_bound hbank
    · exact validateTrustPlane_bound hvault
  · cases hm

/-- What a manifest shows by itself. -/
structure Structured (x : Crates) (v : MembershipVerifier) (manifest : MembershipManifestV1) :
    Prop where
  network : manifest.networkId = v.networkId
  roster : manifest.roster.Bound x v.networkId
  threshold : manifest.threshold ≠ 0
  signers : (manifest.signatures.map ManifestSignature.signerId).Nodup

theorem structured_of_validateStructure (h : v.validateStructure x manifest = .ok ()) :
    v.Structured x manifest := by
  simp only [validateStructure, except_then_ok, refuse_ok, not_or, not_not] at h
  obtain ⟨_, ⟨hnetwork, _⟩, hmembers, hsigners, _⟩ := h
  have hroster := validateManifestMembers_bound hmembers
  simp only [validateManifestMembers, except_then_ok, refuse_ok, not_or] at hmembers
  exact ⟨hnetwork, hroster, hmembers.1.1, hsigners⟩

theorem accept_ok :
    accept x manifest v = .ok () v' ↔
      v.validateStructure x manifest = .ok () ∧ v.verifyNext x manifest = .ok () ∧
        v' = { v with current := some manifest } := by
  simp only [accept, bind_def, get_def]
  cases v.validateStructure x manifest with
  | error e => simp
  | ok u =>
    simp only [check_ok]
    cases v.verifyNext x manifest with
    | error e => simp
    | ok u => simp [eq_comm]

theorem restore_ok {bundle : GenesisTrustBundleV1} {plane : DiscoveryPlane}
    {manifests : List MembershipManifestV1} :
    restore x bundle plane manifests = .ok v ↔
      ∃ genesis, new x bundle plane = .ok genesis ∧
        replay (accept x) manifests genesis = .ok () v := by
  rw [restore, except_bind_ok]
  refine exists_congr fun genesis => and_congr_right fun _ => ?_
  cases replay (accept x) manifests genesis <;> simp

/-- A manifest that is refused leaves the verifier as it was. -/
theorem accept_atomic (x : Crates) (manifest : MembershipManifestV1) (v : MembershipVerifier) :
    AtomicAt (accept x manifest) v := by
  intro e w h
  simp only [accept, bind_def, get_def] at h
  cases hs : v.validateStructure x manifest with
  | error e' =>
    rw [hs] at h
    cases h
    rfl
  | ok u =>
    rw [hs] at h
    simp only [check_ok] at h
    cases hn : v.verifyNext x manifest with
    | error e' =>
      rw [hn] at h
      cases h
      rfl
    | ok u =>
      rw [hn] at h
      cases h

theorem Bound.accept (h : accept x manifest v = .ok () v') (hv : v.Bound x) : v'.Bound x := by
  obtain ⟨hstructure, _, rfl⟩ := accept_ok.mp h
  refine ⟨hv.genesis, fun m hm => ?_⟩
  cases hm
  exact (structured_of_validateStructure hstructure).roster

/-- What accepting keeps, any calls keep: a refused manifest leaves the verifier. -/
theorem run_accept {P : MembershipVerifier → Prop}
    (hstep : ∀ v v' manifest, P v → accept x manifest v = .ok () v' → P v') (hv : P v)
    (calls : List MembershipManifestV1) : P (run (accept x) calls v) := by
  induction calls generalizing v with
  | nil => exact hv
  | cons manifest rest ih =>
    rw [run]
    cases h : accept x manifest v with
    | error e v' =>
      rw [after_error h, accept_atomic x manifest v e v' h]
      exact ih hv
    | ok u v' =>
      rw [after_ok h]
      exact ih (hstep v v' manifest hv h)

end MembershipVerifier

end Kerosene.Node
