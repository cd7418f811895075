import Kerosene.Node.Commands
import Kerosene.Node.JointConsensus

/-! The membership ceremony (`kerosene-rsctl`).

An operator creates a manifest, key holders sign copies of it, and the copies are assembled, from
file to file. Two things stand in the way. The program never gets to one of these commands,
because their lines cannot be read (`ceremony_never_complete`). And past the command line a key
can sign only if it is in the roster that the manifest proposes, while a verifier counts signers
of the roster in force: the commands bring about what a verifier accepts exactly when all who are
to sign are in the proposed roster (`commands_complete_iff`). -/
namespace Kerosene.Node

open Lib.Encode Lib.Inplace Lib.Keyed Lib.Tables Lib.Word Ledger MembershipVerifier

namespace Rsctl

/-! ### The ceremony -/

section Ceremony
variable (runs : MembershipCommand → Folder → Folder → Prop)

/-- Keys sign one after another, the first one the manifest at a path, each other one what the
last one has written. -/
def Signs : List SigningKey → Folder → String → Folder → String → Prop
  | [], folder, path, folder', path' => folder' = folder ∧ path' = path
  | key :: keys, folder, path, folder', path' =>
    ∃ identity output next, readSecret folder identity = .ok key ∧
      runs (.sign ⟨path, identity, output⟩) folder next ∧ Signs keys next output folder' path'

/-- Every copy is signed by the keys listed for it. -/
def SignsCopies (created : String) :
    List (List SigningKey) → Folder → Folder → List String → Prop
  | [], folder, folder', paths => folder' = folder ∧ paths = []
  | keys :: copies, folder, folder', paths =>
    ∃ next path rest, Signs runs keys folder created next path ∧
      SignsCopies created copies next folder' rest ∧ paths = path :: rest

/-- A manifest is created from a roster on file, copies of it are signed, each by the keys
listed for it, and a file holds what they are assembled to. -/
def Produces (m : MembershipManifestV1) (copies : List (List SigningKey))
    (result : MembershipManifestV1) : Prop :=
  ∃ folder roster created folder₁ folder₂ signed output folder₃,
    readRoster folder roster = .ok m.members ∧
    runs (.create (.describing m roster created)) folder folder₁ ∧
    SignsCopies runs created copies folder₁ folder₂ signed ∧
    runs (.assemble ⟨created, signed, output⟩) folder₂ folder₃ ∧
    readManifest folder₃ output = .ok result

end Ceremony

/-- The commands by themselves. -/
def Performs (x : Crates) (command : MembershipCommand) (folder folder' : Folder) : Prop :=
  membership x folder command = .ok folder'

/-- The signatures a copy comes back with. -/
def copySignatures (x : Crates) (m : MembershipManifestV1) (keys : List SigningKey) :
    List ManifestSignature :=
  (keys.map (signatureBy x m)).foldl renewed []

/-- The signatures of an assembled manifest. -/
def assembledSignatures (x : Crates) (m : MembershipManifestV1)
    (copies : List (List SigningKey)) : List ManifestSignature :=
  bySigner ((copies.flatMap (copySignatures x m)).foldl renewed [])

section Ceremony
variable {x : Crates} {m : MembershipManifestV1} {folder folder' : Folder}
  {copies : List (List SigningKey)} {keys : List SigningKey}

/-- Keys that have signed are listed, and all their signatures are in the last file. -/
theorem Signs.signed (hx : SignsProposal x) {l : List ManifestSignature} {path path' : String}
    (hpath : readManifest folder path = .ok { m with signatures := l })
    (h : Signs (Performs x) keys folder path folder' path') :
    (∀ key ∈ keys, Listed x m key) ∧ Keeps folder folder' ∧
      readManifest folder' path' =
        .ok { m with signatures := (keys.map (signatureBy x m)).foldl renewed l } := by
  induction keys generalizing folder path l with
  | nil =>
    obtain ⟨rfl, rfl⟩ := h
    exact ⟨List.forall_mem_nil _, .refl _, hpath⟩
  | cons key rest ih =>
    obtain ⟨identity, output, next, hkey, hsign, hrest⟩ := h
    obtain ⟨hlisted, hnew, rfl⟩ := (sign_ok hx hpath hkey).mp hsign
    obtain ⟨hothers, hkeeps, hlast⟩ := ih readManifest_insert hrest
    exact ⟨List.forall_mem_cons.mpr ⟨hlisted, hothers⟩, (keeps_insert hnew _).trans hkeeps, hlast⟩

/-- The same of the keys of all copies. -/
theorem SignsCopies.signed (hx : SignsProposal x) (hunsigned : m.signatures = [])
    {created : String} {paths : List String} (hcreated : readManifest folder created = .ok m)
    (h : SignsCopies (Performs x) created copies folder folder' paths) :
    (∀ key ∈ copies.flatten, Listed x m key) ∧ Keeps folder folder' ∧
      List.Forall₂ (fun path l => readManifest folder' path = .ok { m with signatures := l })
        paths (copies.map (copySignatures x m)) := by
  induction copies generalizing folder paths with
  | nil =>
    obtain ⟨rfl, rfl⟩ := h
    exact ⟨List.forall_mem_nil _, .refl _, .nil⟩
  | cons keys rest ih =>
    obtain ⟨next, path, restPaths, hsigns, hrest, rfl⟩ := h
    have hproposal : readManifest folder created = .ok { m with signatures := [] } := by
      rw [unsigned_eq hunsigned]
      exact hcreated
    obtain ⟨hlisted, hkeeps, hlast⟩ := hsigns.signed hx hproposal
    obtain ⟨hothers, hkeeps', hpaths⟩ := ih (hkeeps.readManifest hcreated) hrest
    refine ⟨?_, hkeeps.trans hkeeps', .cons ?_ hpaths⟩
    · rw [List.flatten_cons]
      exact List.forall_mem_append.mpr ⟨hlisted, hothers⟩
    · exact hkeeps'.readManifest hlast

/-- Each key is on file. -/
def HasKeys (folder : Folder) (keys : List SigningKey) : Prop :=
  ∀ key ∈ keys, ∃ identity, readSecret folder identity = .ok key

theorem HasKeys.keeps (h : HasKeys folder keys) (hkeeps : Keeps folder folder') :
    HasKeys folder' keys := by
  intro key hkey
  obtain ⟨identity, hidentity⟩ := h key hkey
  exact ⟨identity, hkeeps.readSecret hidentity⟩

/-- An operator can have a roster and any keys on file. -/
theorem exists_folder (members : List ManifestMember) (keys : List SigningKey) :
    ∃ folder roster, readRoster folder roster = .ok members ∧ HasKeys folder keys := by
  induction keys with
  | nil =>
    exact ⟨(∅ : Folder).insert "" (.roster members), "",
      readRoster_ok.mpr (Finmap.lookup_insert _), List.forall_mem_nil _⟩
  | cons key rest ih =>
    obtain ⟨folder, roster, hroster, hkeys⟩ := ih
    obtain ⟨identity, hnew⟩ := exists_unused folder
    have hkeeps := keeps_insert hnew (.secret key true)
    refine ⟨folder.insert identity (.secret key true), roster, hkeeps.readRoster hroster, ?_⟩
    refine List.forall_mem_cons.mpr ⟨⟨identity, ?_⟩, hkeys.keeps hkeeps⟩
    exact readSecret_ok.mpr (Finmap.lookup_insert _)

/-- Listed keys that are on file can sign. -/
theorem exists_signs (hx : SignsProposal x) {l : List ManifestSignature} {path : String}
    (hlisted : ∀ key ∈ keys, Listed x m key) (hkeys : HasKeys folder keys)
    (hpath : readManifest folder path = .ok { m with signatures := l }) :
    ∃ folder' path', Signs (Performs x) keys folder path folder' path' := by
  induction keys generalizing folder path l with
  | nil => exact ⟨folder, path, rfl, rfl⟩
  | cons key rest ih =>
    obtain ⟨hkey, hothers⟩ := List.forall_mem_cons.mp hlisted
    obtain ⟨⟨identity, hidentity⟩, hrest⟩ := List.forall_mem_cons.mp hkeys
    obtain ⟨output, hnew⟩ := exists_unused folder
    obtain ⟨folder', path', hsigns⟩ :=
      ih hothers (HasKeys.keeps hrest (keeps_insert hnew _)) readManifest_insert
    exact ⟨folder', path', identity, output, _, hidentity,
      (sign_ok hx hpath hidentity).mpr ⟨hkey, hnew, rfl⟩, hsigns⟩

theorem exists_signsCopies (hx : SignsProposal x) (hunsigned : m.signatures = [])
    {created : String} (hlisted : ∀ key ∈ copies.flatten, Listed x m key)
    (hkeys : HasKeys folder copies.flatten) (hcreated : readManifest folder created = .ok m) :
    ∃ folder' paths, SignsCopies (Performs x) created copies folder folder' paths := by
  induction copies generalizing folder with
  | nil => exact ⟨folder, [], rfl, rfl⟩
  | cons keys rest ih =>
    rw [List.flatten_cons] at hlisted hkeys
    obtain ⟨hfirst, hothers⟩ := List.forall_mem_append.mp hlisted
    obtain ⟨hfirstKeys, hotherKeys⟩ := List.forall_mem_append.mp hkeys
    have hproposal : readManifest folder created = .ok { m with signatures := [] } := by
      rw [unsigned_eq hunsigned]
      exact hcreated
    obtain ⟨next, path, hsigns⟩ := exists_signs hx hfirst hfirstKeys hproposal
    obtain ⟨_, hkeeps, _⟩ := hsigns.signed hx hproposal
    obtain ⟨folder', paths, hrest⟩ :=
      ih hothers (HasKeys.keeps hotherKeys hkeeps) (hkeeps.readManifest hcreated)
    exact ⟨folder', path :: paths, next, path, paths, hsigns, hrest, rfl⟩

/-- The commands produce a manifest when the keys that sign are listed, and what they produce
has all their signatures. -/
theorem produces_ok (hx : SignsProposal x) (hunsigned : m.signatures = [])
    (hversion : m.contractVersion = x.discoveryContractVersion) (hmembers : m.members ≠ [])
    {result : MembershipManifestV1} :
    Produces (Performs x) m copies result ↔ (∀ key ∈ copies.flatten, Listed x m key) ∧
      result = { m with signatures := assembledSignatures x m copies } := by
  constructor
  · intro h
    obtain ⟨folder, roster, created, _, folder₂, signed, output, _, hroster, hcreate, hsigns,
      hassemble, hresult⟩ := h
    obtain ⟨_, rfl⟩ := (create_ok hroster hunsigned hversion hmembers).mp hcreate
    obtain ⟨hlisted, hkeeps, hsigned⟩ := hsigns.signed hx hunsigned readManifest_insert
    have hcreated := hkeeps.readManifest readManifest_insert
    obtain ⟨_, rfl⟩ := (assemble_ok hx hcreated hunsigned hsigned).mp hassemble
    rw [readManifest_insert] at hresult
    cases hresult
    exact ⟨hlisted, rfl⟩
  · intro h
    obtain ⟨hlisted, rfl⟩ := h
    obtain ⟨folder, roster, hroster, hkeys⟩ := exists_folder m.members copies.flatten
    obtain ⟨created, hnew⟩ := exists_unused folder
    have hcreate := (create_ok hroster hunsigned hversion hmembers).mpr ⟨hnew, rfl⟩
    obtain ⟨folder₂, signed, hsigns⟩ := exists_signsCopies hx hunsigned hlisted
      (hkeys.keeps (keeps_insert hnew _)) readManifest_insert
    obtain ⟨_, hkeeps, hsigned⟩ := hsigns.signed hx hunsigned readManifest_insert
    obtain ⟨output, hfree⟩ := exists_unused folder₂
    have hcreated := hkeeps.readManifest readManifest_insert
    exact ⟨folder, roster, created, _, folder₂, signed, output, _, hroster, hcreate, hsigns,
      (assemble_ok hx hcreated hunsigned hsigned).mpr ⟨hfree, rfl⟩, readManifest_insert⟩

/-- An assembled manifest has the signature of every key once. -/
theorem assembledSignatures_perm
    (hids : ((keys.map (signatureBy x m)).map ManifestSignature.signerId).Nodup)
    (hsame : ∀ key, key ∈ copies.flatten ↔ key ∈ keys) :
    (assembledSignatures x m copies).Perm (keys.map (signatureBy x m)) := by
  have hinj : Set.InjOn ManifestSignature.signerId {t | t ∈ keys.map (signatureBy x m)} :=
    fun s hs t ht => List.inj_on_of_nodup_map hids hs ht
  have hof {copy : List SigningKey} (hcopy : copy ∈ copies) {t : ManifestSignature}
      (ht : t ∈ copy.map (signatureBy x m)) : t ∈ keys.map (signatureBy x m) := by
    obtain ⟨key, hkey, rfl⟩ := List.mem_map.mp ht
    exact List.mem_map_of_mem ((hsame key).mp (List.mem_flatten.mpr ⟨copy, hcopy, hkey⟩))
  have hcopy {copy : List SigningKey} (hcopy : copy ∈ copies) {t : ManifestSignature} :
      t ∈ copySignatures x m copy ↔ t ∈ copy.map (signatureBy x m) := by
    rw [copySignatures, mem_renewAll hinj (List.forall_mem_nil _) (fun t ht => hof hcopy ht),
      or_iff_right List.not_mem_nil]
  have hall {t : ManifestSignature} :
      t ∈ (copies.flatMap (copySignatures x m)).foldl renewed [] ↔
        t ∈ keys.map (signatureBy x m) := by
    rw [mem_renewAll hinj (List.forall_mem_nil _), or_iff_right List.not_mem_nil, List.mem_flatMap]
    · constructor
      · intro h
        obtain ⟨copy, hmem, ht⟩ := h
        exact hof hmem ((hcopy hmem).mp ht)
      · intro h
        obtain ⟨key, hkey, rfl⟩ := List.mem_map.mp h
        obtain ⟨copy, hmem, hkey⟩ := List.mem_flatten.mp ((hsame key).mpr hkey)
        exact ⟨copy, hmem, (hcopy hmem).mpr (List.mem_map_of_mem hkey)⟩
    · intro t ht
      obtain ⟨copy, hmem, ht⟩ := List.mem_flatMap.mp ht
      exact hof hmem ((hcopy hmem).mp ht)
  refine (List.perm_insertionSort _ _).trans ?_
  exact (List.perm_ext_iff_of_nodup (nodup_renewAll (l := []) List.nodup_nil _).of_map hids.of_map).mpr
    fun t => hall

end Ceremony

/-! ### What a verifier makes of the signatures -/

/-- Two manifests that differ in the order of their signatures only. -/
structure SameProposal (x : Crates) (a b : MembershipManifestV1) : Prop where
  fields : b = { a with signatures := b.signatures }
  bytes : x.manifestSigningBytes b = x.manifestSigningBytes a
  signatures : b.signatures.Perm a.signatures

section Acceptance
variable {x : Crates} {v v' : MembershipVerifier} {m a b : MembershipManifestV1}

theorem SameProposal.requireSignatures (h : SameProposal x a b) (allowed : Table String String)
    (threshold : ℕ) :
    requireSignatures x b allowed threshold = .ok () ↔
      requireSignatures x a allowed threshold = .ok () := by
  have hcounts : countsFor x b allowed = countsFor x a allowed := by
    funext candidate
    unfold countsFor verifySignature
    rw [h.bytes]
  unfold Node.requireSignatures
  rw [hcounts, refuse_ok, refuse_ok, (h.signatures.filter _).length_eq]

theorem SameProposal.validateStructure (h : SameProposal x a b) :
    v.validateStructure x b = .ok () ↔ v.validateStructure x a = .ok () := by
  have hsigners := (h.signatures.map ManifestSignature.signerId).nodup_iff
  rw [h.fields]
  simp only [MembershipVerifier.validateStructure, except_then_ok, refuse_ok, not_not, hsigners]

theorem SameProposal.verifyNext (h : SameProposal x a b) :
    v.verifyNext x b = .ok () ↔ v.verifyNext x a = .ok () := by
  have hphase : b.phase = a.phase := by rw [h.fields]
  have hmembers : b.members = a.members := by rw [h.fields]
  have hthreshold : b.threshold = a.threshold := by rw [h.fields]
  have hchain (current : MembershipManifestV1) (epoch : UInt64) :
      requireChain x current b epoch = requireChain x current a epoch := by rw [h.fields]; rfl
  have hsame (current : MembershipManifestV1) : sameRoster current b = sameRoster current a := by
    rw [h.fields]
    rfl
  unfold MembershipVerifier.verifyNext
  cases v.current with
  | none =>
    have hepoch : b.epoch = a.epoch := by rw [h.fields]
    have hprevious : b.previousManifestHash = a.previousManifestHash := by rw [h.fields]
    simp only [verifyInitial, except_then_ok, refuse_ok, hphase, hepoch, hprevious,
      h.requireSignatures]
  | some current =>
    cases hcurrent : current.phase with
    | stable =>
      simp only [hcurrent, verifyAfterStable, except_then_ok, hchain, h.requireSignatures, hphase, hsame,
        hmembers, hthreshold]
      cases a.phase with
      | stable => rfl
      | joint => simp only [h.requireSignatures]
    | joint =>
      simp only [hcurrent, verifyAfterJoint, except_bind_ok, hphase, hchain, hsame,
        h.requireSignatures]

/-- The order of the signatures makes no difference. -/
theorem SameProposal.accept (h : SameProposal x a b)
    (haccept : MembershipVerifier.accept x a v = .ok () v') :
    ∃ w, MembershipVerifier.accept x b v = .ok () w := by
  obtain ⟨hstructure, hnext, _⟩ := accept_ok.mp haccept
  exact ⟨_, accept_ok.mpr ⟨h.validateStructure.mpr hstructure, h.verifyNext.mpr hnext, rfl⟩⟩

theorem wellFormed_of_validateStructure {l : List ManifestSignature}
    (h : v.validateStructure x { m with signatures := l } = .ok ()) :
    m.contractVersion = x.discoveryContractVersion ∧ m.members ≠ [] := by
  simp only [MembershipVerifier.validateStructure, validateManifestMembers, except_then_ok, refuse_ok,
    not_or, not_not] at h
  obtain ⟨hversion, _, ⟨⟨hthreshold, hle⟩, _⟩, _⟩ := h
  refine ⟨hversion, fun hempty => hthreshold ?_⟩
  rw [hempty] at hle
  exact UInt16.toNat_inj.mp (Nat.eq_zero_of_not_pos hle)

end Acceptance

/-- **When the commands complete the ceremony.** Let a manifest be accepted with the signatures
of some keys. Past the command line, creating it, signing copies of it with these keys, in any
order and on any copies, and assembling the copies succeeds and is accepted exactly when all the
keys are in the roster the manifest proposes. -/
theorem commands_complete_iff {x : Crates} (hx : SignsProposal x) {v v' : MembershipVerifier}
    {m : MembershipManifestV1} (hunsigned : m.signatures = []) {keys : List SigningKey}
    (haccept : accept x (signedBy x m keys) v = .ok () v') :
    (∀ copies : List (List SigningKey), (∀ key, key ∈ copies.flatten ↔ key ∈ keys) →
        ∃ result w, Produces (Performs x) m copies result ∧ accept x result v = .ok () w) ↔
      ∀ key ∈ keys, Listed x m key := by
  obtain ⟨hstructure, _, _⟩ := accept_ok.mp haccept
  obtain ⟨hversion, hmembers⟩ := wellFormed_of_validateStructure hstructure
  constructor
  · intro hcomplete
    -- One copy that all keys sign is enough to see that none of them is refused.
    have hcopy : [keys].flatten = keys := List.flatten_singleton
    obtain ⟨_, _, hproduces, _⟩ := hcomplete [keys] fun key => by rw [hcopy]
    obtain ⟨hlisted, _⟩ := (produces_ok hx hunsigned hversion hmembers).mp hproduces
    rw [hcopy] at hlisted
    exact hlisted
  · intro hlisted copies hsame
    have hperm := assembledSignatures_perm
      (structured_of_validateStructure hstructure).signers hsame
    have hproposal : SameProposal x (signedBy x m keys)
        { m with signatures := assembledSignatures x m copies } :=
      ⟨rfl, (hx m _).trans (hx m _).symm, hperm⟩
    obtain ⟨w, hw⟩ := hproposal.accept haccept
    refine ⟨_, w, (produces_ok hx hunsigned hversion hmembers).mpr ⟨?_, rfl⟩, hw⟩
    intro key hkey
    exact hlisted key ((hsame key).mp hkey)

/-! ### The network changes hands by ceremony -/

theorem signsProposal_plain (valid : List (Vector UInt8 32 × Bytes × Vector UInt8 64)) :
    SignsProposal (.plain valid) := fun _ _ => rfl

/-- Alice and Bob, about to sign the joint manifest, and Bob to sign the last one. -/
def aliceSigner : SigningKey := ⟨aliceKey, fun _ => aliceJoint⟩

def bobSigner : SigningKey := ⟨bobKey, fun _ => bobJoint⟩

def bobLastSigner : SigningKey := ⟨bobKey, fun _ => bobLast⟩

theorem run_network {valid : List (Vector UInt8 32 × Bytes × Vector UInt8 64)}
    (hvalid : networkRecord ⊆ valid) :
    run (accept (.plain valid)) [aliceManifest, jointManifest] networkVerifier =
      { networkVerifier with current := some jointManifest } := by
  rw [run, run, run, after_ok (accept_alice hvalid), after_ok (accept_joint hvalid)]

/-- Past the command line Bob activates his roster by ceremony. -/
theorem commands_complete_bob :
    let x := Crates.plain networkRecord
    let m := { bobManifest with signatures := [] }
    let v := run (accept x) [aliceManifest, jointManifest] networkVerifier
    ∃ result w, Produces (Performs x) m [[bobLastSigner]] result ∧ accept x result v = .ok () w := by
  intro x m v
  have hrecord : networkRecord ⊆ networkRecord := fun _ h => h
  have haccept : accept x (signedBy x m [bobLastSigner]) v =
      .ok () { networkVerifier with current := some bobManifest } := by
    show accept x _ (run (accept x) [aliceManifest, jointManifest] networkVerifier) = _
    rw [run_network hrecord]
    exact accept_bob hrecord
  have hlisted : ∀ key ∈ [bobLastSigner], Listed x m key := by
    intro key hkey
    rw [List.mem_singleton.mp hkey]
    exact List.mem_singleton.mpr rfl
  exact (commands_complete_iff (signsProposal_plain networkRecord) rfl haccept).mpr hlisted
    [[bobLastSigner]] fun key => .rfl

/-- The verifier accepts a manifest that replaces Alice by Bob with the signatures of both,
and the commands cannot bring it about. -/
theorem replaced_member_cannot_sign :
    let x := Crates.plain networkRecord
    let m := { jointManifest with signatures := [] }
    let v := run (accept x) [aliceManifest] networkVerifier
    accept x (signedBy x m [aliceSigner, bobSigner]) v =
        .ok () { networkVerifier with current := some jointManifest } ∧
      ¬ ∃ result, Produces (Performs x) m [[aliceSigner], [bobSigner]] result := by
  intro x m v
  have hrecord : networkRecord ⊆ networkRecord := fun _ h => h
  refine ⟨?_, ?_⟩
  · show accept x (signedBy x m [aliceSigner, bobSigner]) (run (accept x) [aliceManifest]
      networkVerifier) = _
    rw [run, run, after_ok (accept_alice hrecord)]
    exact accept_joint hrecord
  · intro hproduces
    obtain ⟨result, hproduces⟩ := hproduces
    obtain ⟨hlisted, _⟩ := (produces_ok (signsProposal_plain networkRecord) rfl rfl
      (List.cons_ne_nil _ _)).mp hproduces
    exact alice_ne_bob (List.mem_singleton.mp (hlisted aliceSigner List.mem_cons_self))

/-! ### The ceremony with the program -/

section Program
variable (x : Crates) (clap : Clap) (setup : Cli → Except String Unit)

/-- The program succeeds with some line that gives it the command. -/
def Runs (command : MembershipCommand) (folder folder' : Folder) : Prop :=
  ∃ line cli, Cli.parse clap line = .ok cli ∧ cli.command = .membership command ∧
    main x clap setup line folder = .ok folder'

end Program

section Program
variable {x : Crates} {clap : Clap} {setup : Cli → Except String Unit}

theorem not_runs (hclap : clap.Propagates) (command : MembershipCommand) (folder folder' : Folder) :
    ¬ Runs x clap setup command folder folder' := by
  intro h
  obtain ⟨line, cli, hparse, hcommand, _⟩ := h
  exact parse_ne_membership hclap hparse command hcommand

/-- Not even its first step succeeds. -/
theorem not_produces (hclap : clap.Propagates) (m : MembershipManifestV1)
    (copies : List (List SigningKey)) (result : MembershipManifestV1) :
    ¬ Produces (Runs x clap setup) m copies result := by
  intro h
  obtain ⟨_, _, _, _, _, _, _, _, _, hcreate, _⟩ := h
  exact not_runs hclap _ _ _ hcreate

/-- The program leaves all files as they are, -/
theorem main_files (hclap : clap.Propagates) {line : List String} {folder folder' : Folder}
    (h : main x clap setup line folder = .ok folder') : folder' = folder := by
  rw [main, except_bind_ok] at h
  obtain ⟨cli, hparse, h⟩ := h
  rw [except_then_ok] at h
  obtain ⟨_, h⟩ := h
  cases hcommand : cli.command with
  | membership command => exact absurd hcommand (parse_ne_membership hclap hparse command)
  | other =>
    rw [hcommand] at h
    exact except_pure_ok.mp h

/-- however often it is run. -/
theorem mains_files (hclap : clap.Propagates) {lines : List (List String)} {folder folder' : Folder}
    (h : lines.foldlM (fun folder line => main x clap setup line folder) folder = .ok folder') :
    folder' = folder := by
  induction lines generalizing folder with
  | nil => exact except_pure_ok.mp h
  | cons line rest ih =>
    rw [List.foldlM_cons, except_bind_ok] at h
    obtain ⟨next, hmain, hrest⟩ := h
    rw [ih hrest, main_files hclap hmain]

/-- **The ceremony cannot be carried out.** No manifest at all comes out of it, whatever is
proposed and whoever signs, so for no verifier and no keys does it bring about what the verifier
would accept with their signatures. -/
theorem ceremony_never_complete (hclap : clap.Propagates) (v : MembershipVerifier)
    (m : MembershipManifestV1) (keys : List SigningKey) :
    (∀ copies result, ¬ Produces (Runs x clap setup) m copies result) ∧
      ¬ ∀ copies : List (List SigningKey), (∀ key, key ∈ copies.flatten ↔ key ∈ keys) →
        ∃ result w, Produces (Runs x clap setup) m copies result ∧ accept x result v = .ok () w := by
  refine ⟨not_produces hclap m, fun hcomplete => ?_⟩
  -- One copy that all keys sign is as good as any.
  obtain ⟨result, _, hproduces, _⟩ := hcomplete [keys] fun key => by rw [List.flatten_singleton]
  exact not_produces hclap m [keys] result hproduces

end Program

/-! ### Bob's manifest and the command line -/

def bobLine : List String :=
  ["membership", "create", "--network", "kerosene-test", "--plane", "vault", "--epoch", "3",
    "--threshold", "1", "--members", "roster.json", "--output", "bob.json",
    "--previous-manifest-hash", bobManifest.previousManifestHash]

/-- The path stands for the format, too; everything else is at its default. -/
def bobGlobals : Values := fun id =>
  if id = "output" then [.path "bob.json"]
  else if id = "timeout" then [.u64 10]
  else if id = "verbose" then [.bool false]
  else []

def bobValues : Values := fun id =>
  if id = "network" then [.string "kerosene-test"]
  else if id = "plane" then [.plane .vault]
  else if id = "epoch" then [.u64 3]
  else if id = "threshold" then [.u16 1]
  else if id = "members" then [.path "roster.json"]
  else if id = "joint" then [.bool false]
  else if id = "previous_manifest_hash" then [.string bobManifest.previousManifestHash]
  else bobGlobals id

def bobMatches : ArgMatches := ⟨bobGlobals, [("membership", bobGlobals), ("create", bobValues)]⟩

/-- What is matched on one line, and every other line refused. -/
def recordedClap : Clap := fun line =>
  if line = bobLine then .ok bobMatches else .error "error: unexpected argument found"

theorem recordedClap_bobLine : recordedClap bobLine = .ok bobMatches := if_pos rfl

theorem recordedClap_propagates : recordedClap.Propagates := by
  have hvalues : ∀ id ∈ Cli.globals, bobValues id = bobGlobals id := by decide
  intro line m hm id hid subcommand hsubcommand
  obtain rfl : m = bobMatches := by
    unfold recordedClap at hm
    split_ifs at hm
    exact (Except.ok.inj hm).symm
  simp only [bobMatches, List.mem_cons, List.not_mem_nil, or_false] at hsubcommand
  obtain rfl | rfl := hsubcommand
  · rfl
  · exact hvalues id hid

theorem ceremony_never_complete_bob :
    recordedClap.Propagates ∧ (recordedClap bobLine).isOk = true ∧
      ¬ ∀ copies : List (List SigningKey), (∀ key, key ∈ copies.flatten ↔ key ∈ [bobLastSigner]) →
        ∃ result w, Produces
            (Runs (.plain networkRecord) recordedClap fun _ => .ok ())
            { bobManifest with signatures := [] } copies result ∧
          accept (.plain networkRecord) result
            { networkVerifier with current := some jointManifest } = .ok () w := by
  refine ⟨recordedClap_propagates, by rw [recordedClap_bobLine]; rfl, ?_⟩
  exact (ceremony_never_complete recordedClap_propagates _ _ _).2

/-- With Bob's signature a verifier accepts the manifest that makes his roster the current one.
The program ends on the line that is to create it. -/
theorem program_stops_bob :
    let x := Crates.plain networkRecord
    let m := { bobManifest with signatures := [] }
    let v := { networkVerifier with current := some jointManifest }
    let folder : Folder := (∅ : Folder).insert "roster.json" (.roster [bob])
    run (accept x) [aliceManifest, jointManifest] networkVerifier = v ∧
      accept x (signedBy x m [bobLastSigner]) v =
        .ok () { networkVerifier with current := some bobManifest } ∧
      main x recordedClap (fun _ => .ok ()) bobLine folder = .error (.mismatch "output") ∧
      ¬ ∀ copies : List (List SigningKey), (∀ key, key ∈ copies.flatten ↔ key ∈ [bobLastSigner]) →
        ∃ result w, Produces (Runs x recordedClap fun _ => .ok ()) m copies result ∧
          accept x result v = .ok () w := by
  intro x m v folder
  have hrecord : networkRecord ⊆ networkRecord := fun _ h => h
  refine ⟨run_network hrecord, accept_bob hrecord, ?_, fun hcomplete => ?_⟩
  · rw [main, Cli.parse, recordedClap_bobLine]
    rfl
  · obtain ⟨result, _, hproduces, _⟩ := hcomplete [[bobLastSigner]] fun key => by
      rw [List.flatten_singleton]
    exact not_produces recordedClap_propagates m _ result hproduces

end Rsctl

end Kerosene.Node
