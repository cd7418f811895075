import Kerosene.Node.CommandLine
import Kerosene.Node.Discovery

/-! The commands that write a manifest (`kerosene-rsctl`, `membership`).

Each reads what it needs from files and writes a new one. What a command does is said once
(`create_ok`, `sign_ok`, `assemble_ok`): it succeeds when the file it is to write is not there
yet, and to sign the key has to be listed as well; all other files stay (`keeps_insert`). -/
namespace Kerosene.Node.Rsctl

open Lib.Encode Lib.Inplace Lib.Keyed Lib.Tables Lib.Word Ledger

/-! ### Files -/

/-- What a file reads as. -/
inductive Document where
  | roster (members : List ManifestMember)
  | manifest (manifest : MembershipManifestV1)
  | secret (key : SigningKey) (isPrivate : Bool)

/-- The files of an operator, by their paths. -/
abbrev Folder := Table String Document

def Document.roster? : Document → Option (List ManifestMember)
  | .roster members => some members
  | _ => none

def Document.manifest? : Document → Option MembershipManifestV1
  | .manifest value => some value
  | _ => none

def readJson {α : Type} (parse : Document → Option α) (folder : Folder) (path : String) :
    Except String α :=
  match folder.lookup path with
  | some document =>
    match parse document with
    | some a => .ok a
    | none => .error ("parse " ++ path)
  | none => .error ("read " ++ path)

def readRoster : Folder → String → Except String (List ManifestMember) := readJson Document.roster?

def readManifest : Folder → String → Except String MembershipManifestV1 :=
  readJson Document.manifest?

def readSecret (folder : Folder) (path : String) : Except String SigningKey :=
  match folder.lookup path with
  | some (.secret key true) => .ok key
  | some (.secret _ false) =>
    .error "credential file permissions must not grant group or other access"
  | some _ => .error "identity key must contain 32 bytes"
  | none => .error "No such file or directory (os error 2)"

/-- A file that is there is never written over. -/
def writePrivateJson (folder : Folder) (path : String) (manifest : MembershipManifestV1) :
    Except String Folder := do
  refuse (path ∈ folder) "File exists (os error 17)"
  return folder.insert path (.manifest manifest)

/-! ### The commands -/

/-- The signatures of a manifest with one more, in the place of any of the same signer. -/
abbrev renewed : List ManifestSignature → ManifestSignature → List ManifestSignature :=
  renew ManifestSignature.signerId

/-- The signatures in the order of the signers' ids. -/
def bySigner (l : List ManifestSignature) : List ManifestSignature :=
  l.insertionSort fun left right => bytesLe (utf8 left.signerId) (utf8 right.signerId)

section Commands
variable (x : Crates) (folder : Folder)

/-- The manifest that the arguments and a roster describe. -/
def CreateManifest.proposal (args : CreateManifest) (members : List ManifestMember) :
    MembershipManifestV1 where
  contractVersion := x.discoveryContractVersion
  networkId := args.network
  plane := args.plane
  epoch := args.epoch
  phase := if args.joint then .joint else .stable
  previousManifestHash := args.previousManifestHash
  threshold := args.threshold
  members := members
  nextEpoch := args.nextEpoch
  signatures := []

def create (args : CreateManifest) : Except String Folder := do
  let members ← readRoster folder args.members
  refuse (members.isEmpty = true) "membership roster cannot be empty"
  writePrivateJson folder args.output (args.proposal x members)

/-- A manifest with the signature of a key, in the place of any that the key gave before. -/
def signWith (manifest : MembershipManifestV1) (key : SigningKey) : MembershipManifestV1 :=
  let signerId := x.memberId manifest.networkId key.verifyingKey
  let retained := { manifest with
    signatures := manifest.signatures.filter fun signature => signature.signerId != signerId }
  let signature := x.hexEncode (key.sign (x.manifestSigningBytes retained)).toList
  { retained with signatures := retained.signatures ++ [⟨signerId, signature⟩] }

def sign (args : SignManifest) : Except String Folder := do
  let manifest ← readManifest folder args.manifest
  let key ← readSecret folder args.identity
  let signerId := x.memberId manifest.networkId key.verifyingKey
  refuse (manifest.members.any (fun member => member.memberId == signerId) = false)
    "signing identity is absent from the proposed roster"
  writePrivateJson folder args.output (signWith x manifest key)

/-- The signatures of one signed copy are taken over. -/
def merge (expected : Bytes) (manifest : MembershipManifestV1) (path : String) :
    Except String MembershipManifestV1 := do
  let signed ← readManifest folder path
  refuse (x.manifestSigningBytes signed ≠ expected)
    ("signed manifest " ++ path ++ " does not describe the same proposal")
  return { manifest with signatures := signed.signatures.foldl renewed manifest.signatures }

def assemble (args : AssembleManifest) : Except String Folder := do
  let manifest ← readManifest folder args.manifest
  let expected := x.manifestSigningBytes manifest
  let merged ← args.signedManifests.foldlM (merge x folder expected) manifest
  writePrivateJson folder args.output { merged with signatures := bySigner merged.signatures }

/-- The arms that write a manifest; the JSON they report is left out. -/
def membership : MembershipCommand → Except String Folder
  | .create args => create x folder args
  | .sign args => sign x folder args
  | .assemble args => assemble x folder args

end Commands

/-- `main`: what it does to the files. `setup` loads the profile and builds the clients, and
stands for all that a command does that writes no manifest. -/
def main (x : Crates) (clap : Clap) (setup : Cli → Except String Unit) (line : List String)
    (folder : Folder) : Except Exit Folder := do
  let cli ← Cli.parse clap line
  (setup cli).mapError .failed
  match cli.command with
  | .membership command => (membership x folder command).mapError .failed
  | .other => return folder

/-! ### What the commands do -/

section Files
variable {folder folder' folder'' : Folder} {path : String} {m : MembershipManifestV1}

theorem readJson_ok {α : Type} {parse : Document → Option α} {a : α} {document : Document}
    (hparse : ∀ d, parse d = some a ↔ d = document) :
    readJson parse folder path = .ok a ↔ folder.lookup path = some document := by
  unfold readJson
  cases folder.lookup path with
  | none => simp
  | some found =>
    rw [Option.some.injEq, ← hparse found]
    cases hfound : parse found <;> simp [hfound]

theorem readRoster_ok {members : List ManifestMember} :
    readRoster folder path = .ok members ↔ folder.lookup path = some (.roster members) := by
  refine readJson_ok fun d => ?_
  cases d <;> simp [Document.roster?]

theorem readManifest_ok :
    readManifest folder path = .ok m ↔ folder.lookup path = some (.manifest m) := by
  refine readJson_ok fun d => ?_
  cases d <;> simp [Document.manifest?]

theorem readSecret_ok {key : SigningKey} :
    readSecret folder path = .ok key ↔ folder.lookup path = some (.secret key true) := by
  unfold readSecret
  split <;> simp_all

theorem writePrivateJson_ok :
    writePrivateJson folder path m = .ok folder' ↔
      path ∉ folder ∧ folder' = folder.insert path (.manifest m) := by
  rw [writePrivateJson, except_then_ok, refuse_ok, except_pure_ok]

/-- What is on file stays there. -/
def Keeps (folder folder' : Folder) : Prop :=
  ∀ path document, folder.lookup path = some document → folder'.lookup path = some document

theorem Keeps.refl (folder : Folder) : Keeps folder folder := fun _ _ h => h

theorem Keeps.trans (h : Keeps folder folder') (h' : Keeps folder' folder'') :
    Keeps folder folder'' := fun path document hpath => h' path document (h path document hpath)

theorem keeps_insert (hnew : path ∉ folder) (document : Document) :
    Keeps folder (folder.insert path document) := by
  intro path' document' hpath'
  have hne : path' ≠ path := by
    rintro rfl
    exact hnew (Finmap.mem_iff.mpr ⟨document', hpath'⟩)
  rw [Finmap.lookup_insert_of_ne _ hne, hpath']

theorem Keeps.readRoster {members : List ManifestMember} (h : Keeps folder folder')
    (hread : readRoster folder path = .ok members) : readRoster folder' path = .ok members :=
  readRoster_ok.mpr (h _ _ (readRoster_ok.mp hread))

theorem Keeps.readManifest (h : Keeps folder folder') (hread : readManifest folder path = .ok m) :
    readManifest folder' path = .ok m :=
  readManifest_ok.mpr (h _ _ (readManifest_ok.mp hread))

theorem Keeps.readSecret {key : SigningKey} (h : Keeps folder folder')
    (hread : readSecret folder path = .ok key) : readSecret folder' path = .ok key :=
  readSecret_ok.mpr (h _ _ (readSecret_ok.mp hread))

/-- What was written can be read. -/
theorem readManifest_insert : readManifest (folder.insert path (.manifest m)) path = .ok m :=
  readManifest_ok.mpr (Finmap.lookup_insert _)

theorem exists_unused (folder : Folder) : ∃ path, path ∉ folder := by
  obtain ⟨path, hpath⟩ := Infinite.exists_notMem_finset folder.keys
  exact ⟨path, fun h => hpath (Finmap.mem_keys.mpr h)⟩

end Files

theorem unsigned_eq {m : MembershipManifestV1} (hunsigned : m.signatures = []) :
    { m with signatures := [] } = m := by
  rw [← hunsigned]

/-- What is signed of a manifest does not include its signatures. -/
def SignsProposal (x : Crates) : Prop :=
  ∀ manifest signatures, x.manifestSigningBytes { manifest with signatures := signatures } =
    x.manifestSigningBytes manifest

/-- The id a key signs under. -/
def signerId (x : Crates) (m : MembershipManifestV1) (key : SigningKey) : String :=
  x.memberId m.networkId key.verifyingKey

/-- A key's signature of a manifest. -/
def signatureBy (x : Crates) (m : MembershipManifestV1) (key : SigningKey) : ManifestSignature :=
  ⟨signerId x m key, x.hexEncode (key.sign (x.manifestSigningBytes m)).toList⟩

/-- A manifest together with the signatures of keys. -/
def signedBy (x : Crates) (m : MembershipManifestV1) (keys : List SigningKey) :
    MembershipManifestV1 :=
  { m with signatures := keys.map (signatureBy x m) }

/-- The key's id is one of the roster that the manifest proposes. -/
def Listed (x : Crates) (m : MembershipManifestV1) (key : SigningKey) : Prop :=
  signerId x m key ∈ m.members.map ManifestMember.memberId

/-- The arguments a manifest is created with. -/
def CreateManifest.describing (m : MembershipManifestV1) (roster output : String) :
    CreateManifest where
  network := m.networkId
  plane := m.plane
  epoch := m.epoch
  threshold := m.threshold
  members := roster
  output := output
  joint := m.phase == .joint
  previousManifestHash := m.previousManifestHash
  nextEpoch := m.nextEpoch

section Commands
variable {x : Crates} {folder folder' : Folder} {m : MembershipManifestV1} {path output : String}

theorem proposal_describing (roster output : String) (hunsigned : m.signatures = [])
    (hversion : m.contractVersion = x.discoveryContractVersion) :
    (CreateManifest.describing m roster output).proposal x m.members = m := by
  obtain ⟨version, network, plane, epoch, phase, previous, threshold, members, next, signatures⟩ := m
  obtain rfl : signatures = [] := hunsigned
  obtain rfl : version = x.discoveryContractVersion := hversion
  cases phase <;> rfl

theorem create_ok {roster : String} (hroster : readRoster folder roster = .ok m.members)
    (hunsigned : m.signatures = []) (hversion : m.contractVersion = x.discoveryContractVersion)
    (hmembers : m.members ≠ []) :
    create x folder (.describing m roster output) = .ok folder' ↔
      output ∉ folder ∧ folder' = folder.insert output (.manifest m) := by
  have hread : create x folder (.describing m roster output) = (do
      refuse (m.members.isEmpty = true) "membership roster cannot be empty"
      writePrivateJson folder output
        ((CreateManifest.describing m roster output).proposal x m.members)) := by
    show (readRoster folder roster >>= _) = _
    rw [hroster]
    rfl
  rw [hread, except_then_ok, refuse_ok, List.isEmpty_iff, writePrivateJson_ok,
    proposal_describing roster output hunsigned hversion]
  exact and_iff_right hmembers

theorem signWith_eq (hx : SignsProposal x) (l : List ManifestSignature) (key : SigningKey) :
    signWith x { m with signatures := l } key =
      { m with signatures := renewed l (signatureBy x m key) } := by
  unfold signWith
  dsimp only
  rw [hx]
  rfl

theorem sign_ok (hx : SignsProposal x) {l : List ManifestSignature} {key : SigningKey}
    {identity : String} (hpath : readManifest folder path = .ok { m with signatures := l })
    (hkey : readSecret folder identity = .ok key) :
    sign x folder ⟨path, identity, output⟩ = .ok folder' ↔ Listed x m key ∧ output ∉ folder ∧
      folder' = folder.insert output
        (.manifest { m with signatures := renewed l (signatureBy x m key) }) := by
  have hread : sign x folder ⟨path, identity, output⟩ = (do
      refuse (m.members.any (fun member => member.memberId == signerId x m key) = false)
        "signing identity is absent from the proposed roster"
      writePrivateJson folder output (signWith x { m with signatures := l } key)) := by
    rw [sign, hpath, hkey]
    rfl
  rw [hread, except_then_ok, refuse_ok, Bool.not_eq_false, List.any_eq_true, writePrivateJson_ok,
    Listed, List.mem_map, signWith_eq hx]
  simp only [beq_iff_eq]

/-- Copies of the proposal are merged whatever their signatures are. -/
theorem mergeAll_ok (hx : SignsProposal x) {paths : List String}
    {signatures : List (List ManifestSignature)} {l : List ManifestSignature}
    (hpaths : List.Forall₂ (fun path l => readManifest folder path = .ok { m with signatures := l })
      paths signatures) :
    paths.foldlM (merge x folder (x.manifestSigningBytes m)) { m with signatures := l } =
      .ok { m with signatures := signatures.flatten.foldl renewed l } := by
  induction hpaths generalizing l with
  | nil => rfl
  | @cons path copy _ _ hpath _ ih =>
    have hmerge : merge x folder (x.manifestSigningBytes m) { m with signatures := l } path =
        .ok { m with signatures := copy.foldl renewed l } := by
      rw [merge, hpath, except_bind_ok]
      refine ⟨_, rfl, ?_⟩
      rw [except_then_ok, refuse_ok, not_not]
      exact ⟨hx m copy, rfl⟩
    rw [List.foldlM_cons, except_bind_ok, List.flatten_cons, List.foldl_append]
    exact ⟨_, hmerge, ih⟩

theorem assemble_ok (hx : SignsProposal x) {created : String} {paths : List String}
    {signatures : List (List ManifestSignature)}
    (hcreated : readManifest folder created = .ok m) (hunsigned : m.signatures = [])
    (hpaths : List.Forall₂ (fun path l => readManifest folder path = .ok { m with signatures := l })
      paths signatures) :
    assemble x folder ⟨created, paths, output⟩ = .ok folder' ↔ output ∉ folder ∧
      folder' = folder.insert output
        (.manifest { m with signatures := bySigner (signatures.flatten.foldl renewed []) }) := by
  have hmerged := mergeAll_ok hx (l := []) hpaths
  rw [unsigned_eq hunsigned] at hmerged
  have hread : assemble x folder ⟨created, paths, output⟩ = writePrivateJson folder output
      { m with signatures := bySigner (signatures.flatten.foldl renewed []) } := by
    rw [assemble, hcreated]
    show (paths.foldlM (merge x folder (x.manifestSigningBytes m)) m >>= _) = _
    rw [hmerged]
    rfl
  rw [hread, writePrivateJson_ok]

end Commands

end Kerosene.Node.Rsctl
