import Kerosene.Node.Restarts

/-! What survives.

A node is started, serves requests, is killed or dies in the middle of a request, and is
started again from what is on file, any number of times; it handles one request at a time,
and what calls that overlap can do to the manifests is the subject of `ManifestRace`. It can
always be started again when it finds what it needs outside the peer store
(`restart_succeeds`), with the membership it had before or after the request it was serving
(`restart_recovers`); no manifest that a process has accepted is lost to a later one
(`membership_never_lost`), and between requests what a process has in memory is what is on file
(`process_goes_with_files`). -/
namespace Kerosene.Node

open Lib.AtomicFile Lib.Encode Lib.Inplace Lib.Tables Ledger MembershipVerifier PersistentPeerStore

/-- A moment in the history of a node: its files, the process if one is running, and the
snapshots that processes were given. -/
structure Moment (x : Crates) where
  files : Files
  process : Option (NodeService x × NodeState)
  snapshots : List StateSnapshot

/-- Before anything has happened. -/
def Moment.blank (x : Crates) : Moment x := ⟨∅, none, []⟩

/-- What can happen, whatever becomes of the file operations. -/
inductive Step {x : Crates} (k : Codecs) (cfg : Config) : Moment x → Moment x → Prop
  | starts {found : Found x} {files : Files} {snapshots : List StateSnapshot}
    {attempts : List Attempt} {started : NodeService x × NodeState} {d : Disk}
    (h : boot k cfg found ⟨files, attempts⟩ = .ok started d) :
    Step k cfg ⟨files, none, snapshots⟩ ⟨d.files, some started, snapshots⟩
  | startStops {found : Found x} {files : Files} {snapshots : List StateSnapshot}
    {attempts : List Attempt} {e : Stop BootError} {d : Disk}
    (h : boot k cfg found ⟨files, attempts⟩ = .error e d) :
    Step k cfg ⟨files, none, snapshots⟩ ⟨d.files, none, snapshots⟩
  | serves {files : Files} {snapshots : List StateSnapshot} {attempts : List Attempt}
    {svc : NodeService x} {s : NodeState} {r : Request} {w : World}
    (h : svc.serve k r ⟨s, files, attempts⟩ = .ok () w) :
    Step k cfg ⟨files, some (svc, s), snapshots⟩
      ⟨w.disk.files, some (svc, w.node), snapshots ++ r.snapshot?.toList⟩
  | refuses {files : Files} {snapshots : List StateSnapshot} {attempts : List Attempt}
    {svc : NodeService x} {s : NodeState} {r : Request} {w : World}
    (h : svc.serve k r ⟨s, files, attempts⟩ = .error (.failed ()) w) :
    Step k cfg ⟨files, some (svc, s), snapshots⟩
      ⟨w.disk.files, some (svc, w.node), snapshots ++ r.snapshot?.toList⟩
  | ends {files : Files} {snapshots : List StateSnapshot} {attempts : List Attempt}
    {svc : NodeService x} {s : NodeState} {r : Request} {w : World}
    (h : svc.serve k r ⟨s, files, attempts⟩ = .error .ended w) :
    Step k cfg ⟨files, some (svc, s), snapshots⟩
      ⟨w.disk.files, none, snapshots ++ r.snapshot?.toList⟩
  | killed {files : Files} {snapshots : List StateSnapshot} {process : NodeService x × NodeState} :
    Step k cfg ⟨files, some process, snapshots⟩ ⟨files, none, snapshots⟩

/-- Any number of steps. -/
def Lives {x : Crates} (k : Codecs) (cfg : Config) : Moment x → Moment x → Prop :=
  Relation.ReflTransGen (Step k cfg)

/-- The files go with the process, or have been kept. -/
def Moment.Good {x : Crates} (k : Codecs) (genesis : MembershipVerifier) (b : Bounds)
    (p : Moment x) : Prop :=
  match p.process with
  | some (_, s) => Tracks x k genesis b [] ⟨s, p.files, []⟩
  | none => Kept x k genesis b p.files

section Invariant
variable {x : Crates} {k : Codecs} {cfg : Config} {genesis : MembershipVerifier} {b : Bounds}
  {p p' : Moment x}

theorem Moment.Good.kept (h : p.Good k genesis b) : Kept x k genesis b p.files := by
  obtain ⟨files, process, snapshots⟩ := p
  cases process with
  | none => exact h
  | some started => exact Tracks.kept h

theorem Tracks.attempts {ahead : List MembershipManifestV1} {s : NodeState} {files : Files}
    {attempts : List Attempt} (h : Tracks x k genesis b ahead ⟨s, files, attempts⟩)
    (attempts' : List Attempt) : Tracks x k genesis b ahead ⟨s, files, attempts'⟩ := h.sameFiles rfl

theorem Step.snapshots_subset (h : Step k cfg p p') : p.snapshots ⊆ p'.snapshots := by
  cases h with
  | starts | startStops | killed => exact List.Subset.refl _
  | serves | refuses | ends => exact List.subset_append_left _ _

theorem Moment.Good.step
    (hgenesis : MembershipVerifier.new x cfg.bundle cfg.plane = .ok genesis)
    (hgrows : ∀ manifests manifest, b.listed manifests → b.listed (manifests ++ [manifest]))
    (hstep : Step k cfg p p')
    (hshown : ∀ snapshot ∈ p'.snapshots, snapshot.verify x.toCrypto = .ok () → b.shown)
    (h : p.Good k genesis b) : p'.Good k genesis b := by
  have hserve {svc : NodeService x} {s : NodeState} {files : Files} {snapshots : List StateSnapshot}
      {r : Request} (hs : Tracks x k genesis b [] ⟨s, files, []⟩)
      (hr : ∀ snapshot ∈ snapshots ++ r.snapshot?.toList, snapshot.verify x.toCrypto = .ok () →
        b.shown) :
      Triple (fun w => Tracks x k genesis b [] w ∧ w.node.manifests = s.manifests) (svc.serve k r)
        (fun _ => Tracks x k genesis b [])
        (fun e w => Tracks x k genesis b [] w ∨
          e.IsEnded ∧ ∃ manifest, Tracks x k genesis b [manifest] w) := by
    have hlisted := hs.listed
    rw [List.append_nil] at hlisted
    refine NodeService.serve_tracks (fun manifest _ => hgrows _ manifest hlisted) ?_
    intro snapshot hsnapshot
    refine hr snapshot (List.mem_append_right _ ?_)
    rw [hsnapshot]
    exact List.mem_cons_self
  cases hstep with
  | starts hboot =>
    exact ((boot_spec hgenesis).of_ok (by exact h) hboot).attempts []
  | startStops hboot => exact (boot_spec hgenesis).of_error (by exact h) hboot
  | serves hdone => exact ((hserve h hshown).of_ok ⟨h.attempts _, rfl⟩ hdone).attempts []
  | refuses hdone =>
    have hpost := (hserve h hshown).of_error ⟨h.attempts _, rfl⟩ hdone
    exact (hpost.resolve_right And.left).attempts []
  | ends hdone =>
    rcases (hserve h hshown).of_error ⟨h.attempts _, rfl⟩ hdone with hw | ⟨_, manifest, hw⟩
    · exact hw.kept
    · exact hw.kept
  | killed => exact Tracks.kept h

/-- What holds of one moment holds of every later one. -/
theorem Moment.Good.lives
    (hgenesis : MembershipVerifier.new x cfg.bundle cfg.plane = .ok genesis)
    (hgrows : ∀ manifests manifest, b.listed manifests → b.listed (manifests ++ [manifest]))
    (hlives : Lives k cfg p p')
    (hshown : ∀ snapshot ∈ p'.snapshots, snapshot.verify x.toCrypto = .ok () → b.shown)
    (h : p.Good k genesis b) : p'.Good k genesis b := by
  induction hlives with
  | refl => exact h
  | tail _ hstep ih =>
    have hearlier := ih fun snapshot hsnapshot => hshown snapshot (hstep.snapshots_subset hsnapshot)
    exact hearlier.step hgenesis hgrows hstep hshown

/-- With nothing on file, nothing is asked. -/
theorem Moment.good_blank (hfloor : b.floor = 0) (hlisted : b.listed []) :
    (Moment.blank x).Good k genesis b := by
  refine ⟨fun _ _ h => ?_, .inr ⟨rfl, hlisted⟩, .inr ⟨rfl, hfloor⟩⟩
  cases h

/-- Between requests the files go with the process, and verification was passed on a
snapshot. -/
theorem Lives.good (hgenesis : MembershipVerifier.new x cfg.bundle cfg.plane = .ok genesis)
    (h : Lives k cfg (.blank x) p) :
    p.Good k genesis ⟨0, ∃ snapshot ∈ p.snapshots, snapshot.verify x.toCrypto = .ok (),
      fun _ => True⟩ :=
  (Moment.good_blank rfl trivial).lives hgenesis (fun _ _ _ => trivial) h
    fun snapshot hsnapshot hverify => ⟨snapshot, hsnapshot, hverify⟩

end Invariant

/-! ### Starting again -/

section Undisturbed
variable {x : Crates} {k : Codecs} {genesis : MembershipVerifier} {b : Bounds} {cfg : Config}
  {found : Found x}

theorem failWith_never {ε ε' σ α : Type} {wrap : ε → ε'} {m : EStateM (Stop ε) σ α} {P : σ → Prop}
    {Q : α → σ → Prop} (h : Triple P m Q fun _ _ => False) :
    Triple P (failWith wrap m) Q fun _ _ => False := failWith_always h

theorem checkFailed_never {ε σ α : Type} {r : Except ε α} {a : α} {P : σ → Prop}
    (h : ∀ s, P s → r = .ok a) :
    Triple P (checkFailed r) (fun a' s => a' = a ∧ P s) fun _ _ => False := by
  refine checkFailed_spec (fun s a' hs hr => ⟨?_, hs⟩) fun s e hs hr => ?_
  · rw [h s hs] at hr
    exact (Except.ok.inj hr).symm
  · rw [h s hs] at hr
    cases hr

/-- What a node writes when it starts can be written: empty lists, and any lifecycle. -/
structure Serializes (k : Codecs) : Prop where
  peers : ∃ bytes, (k .peers).toVec [] = .ok bytes
  endpoints : ∃ bytes, (k .endpoints).toVec [] = .ok bytes
  successfulConnections : ∃ bytes, (k .successfulConnections).toVec [] = .ok bytes
  membershipManifests : ∃ bytes, (k .membershipManifests).toVec [] = .ok bytes
  lifecycle : ∀ state, ∃ bytes, (k .lifecycle).toVec state = .ok bytes

theorem writeFile_undisturbed {f : FileName} {value : f.Value}
    (hvalue : ∃ bytes, (k f).toVec value = .ok bytes) :
    Triple (fun d => d.attempts = []) (writeFile k f value) (fun _ d => d.attempts = [])
      (fun _ _ => False) := by
  obtain ⟨bytes, hbytes⟩ := hvalue
  refine Triple.bind_eq (checkFailed_never fun d _ => (mapError_eq_ok _).mpr hbytes) ?_
  exact failWith_never (replace_undisturbed f.path bytes)

theorem ensureFile_undisturbed {f : FileName} {empty : f.Value}
    (hempty : ∃ bytes, (k f).toVec empty = .ok bytes) :
    Triple (fun d => d.attempts = []) (ensureFile k f empty)
      (fun _ d => d.attempts = [] ∧ d.files.lookup f.path ≠ none) (fun _ _ => False) := by
  refine Triple.of_forall fun d₀ h₀ => ?_
  refine Triple.bind_eq (a := d₀) (Q := fun d => d = d₀) (Triple.get fun d hd => ⟨hd, hd⟩) ?_
  split_ifs with habsent
  · refine ((writeFile_undisturbed hempty).and (writeFile_spec k f empty d₀.files)).mono
      (fun d hd => ?_) (fun _ d hd => ⟨hd.1, ?_⟩) fun _ _ h => h.1
    · rw [hd]
      exact ⟨h₀, rfl⟩
    · obtain ⟨bytes, hbytes, _⟩ := hd.2.2
      rw [hbytes]
      exact Option.some_ne_none bytes
  · exact Triple.pure fun d hd => hd ▸ ⟨h₀, habsent⟩

theorem openStore_undisturbed (hjson : Serializes k) :
    Triple (fun d => d.attempts = []) (openStore k)
      (fun _ d => d.attempts = [] ∧ d.files.lookup FileName.membershipManifests.path ≠ none)
      (fun _ _ => False) := by
  refine Triple.bind (ensureFile_undisturbed hjson.peers) fun _ => ?_
  refine Triple.bind ((ensureFile_undisturbed hjson.endpoints).mono (fun _ h => h.1)
    (fun _ _ h => h) fun _ _ h => h) fun _ => ?_
  refine Triple.bind ((ensureFile_undisturbed hjson.successfulConnections).mono (fun _ h => h.1)
    (fun _ _ h => h) fun _ _ h => h) fun _ => ?_
  exact (ensureFile_undisturbed hjson.membershipManifests).mono (fun _ h => h.1)
    (fun _ _ h => h) fun _ _ h => h

variable (x genesis) in
theorem readFile_undisturbed (f : FileName) :
    Triple (fun d => (d.attempts = [] ∧ d.files.lookup f.path ≠ none) ∧ Intact x k genesis d.files)
      (readFile k f) (fun _ d => d.attempts = []) (fun _ _ => False) := by
  refine Triple.of_forall fun d₀ h₀ => ?_
  refine Triple.bind (Q := fun bytes d => d.attempts = [] ∧ d₀.files.lookup f.path = some bytes)
    (failWith_never (((read_undisturbed f.path).and (read_spec f.path d₀.files)).mono (fun d hd => ?_)
      (fun _ _ h => ⟨h.1, h.2.2⟩) fun _ _ h => h.1)) fun bytes => Triple.of_forall fun d₁ h₁ => ?_
  · rw [hd]
    exact ⟨h₀.1, rfl⟩
  · obtain ⟨value, hvalue, _⟩ := h₀.2 f bytes h₁.2
    refine (checkFailed_never fun d _ => (mapError_eq_ok _).mpr hvalue).mono (fun d hd => ?_)
      (fun _ _ h => h.2) fun _ _ h => h
    rw [hd]
    exact h₁.1

theorem save_undisturbed (hjson : Serializes k) (l : Lifecycle) :
    Triple (fun d => d.attempts = []) (save k l) (fun _ d => d.attempts = []) (fun _ _ => False) := by
  obtain ⟨bytes, hbytes⟩ := hjson.lifecycle l.state
  refine Triple.bind_eq (checkFailed_never fun d _ => (mapError_eq_ok _).mpr hbytes) ?_
  exact failWith_never (replace_undisturbed _ bytes)

variable (x genesis) in
theorem lifecycleFile_undisturbed :
    Triple (fun d => d.attempts = [] ∧ Intact x k genesis d.files) (lifecycleFile k)
      (fun file d => d.attempts = [] ∧ ∃ l, file.load = .ok l) (fun _ _ => False) := by
  rintro d ⟨hd, hintact⟩
  unfold lifecycleFile
  split_ifs with habsent
  · exact ⟨hd, _, rfl⟩
  · have hquiet := read_undisturbed FileName.lifecycle.path d ⟨hd, habsent⟩
    have hread := read_spec FileName.lifecycle.path d.files d rfl
    cases hr : read FileName.lifecycle.path d with
    | error e d' =>
      rw [hr] at hquiet
      exact hquiet.elim
    | ok bytes d' =>
      rw [hr] at hquiet hread
      obtain ⟨state, hstate, _⟩ := hintact .lifecycle bytes hread.2
      simp only [hstate]
      exact ⟨hquiet, _, rfl⟩

/-- A lifecycle file that can be read, an endpoint in order and a file that can be written
are all that `new` asks for. -/
theorem new_of_load {identity : NodeIdentity x} {membership : MembershipVerifier}
    {manifests : List MembershipManifestV1}
    {file : LifecycleFile} {l : Lifecycle}
    (hendpoint : validateOnionEndpoint x DiscoveryError.invalidEndpoint cfg.endpoint = .ok ())
    (hload : file.load = .ok l) :
    ∃ started, NodeService.new identity cfg.endpoint cfg.plane membership manifests file (.ok ())
      cfg.challengeTtlMs cfg.peerLiveWindowMs = .ok started := by
  obtain ⟨l', hl', _⟩ := bootstrap_done l
  simp only [NodeService.new, except_bind_ok, mapError_eq_ok]
  exact ⟨_, (), validateOnionEndpoint_ok _ hendpoint, l, hload, l', hl', (), trivial, rfl⟩

theorem openService_undisturbed (hjson : Serializes k)
    (hgenesis : MembershipVerifier.new x cfg.bundle cfg.plane = .ok genesis)
    (hendpoint : validateOnionEndpoint x DiscoveryError.invalidEndpoint cfg.endpoint = .ok ())
    {files : Files} (hcan : CanStart k cfg found files) :
    Triple (fun d => d.attempts = [] ∧ Kept x k genesis b d.files) (openService k cfg found)
      (fun _ d => d.attempts = []) (fun _ _ => False) := by
  obtain ⟨identity, hidentity⟩ := hcan.identity
  refine Triple.bind_eq (a := ())
    (checkFailed_never fun d _ => refuse_ok.mpr (not_not.mpr hcan.network)) ?_
  refine Triple.bind_eq (checkFailed_never fun d _ => (mapError_eq_ok _).mpr hcan.ledgerDb) ?_
  refine Triple.bind (Q := fun _ d => (d.attempts = [] ∧
      d.files.lookup FileName.membershipManifests.path ≠ none) ∧ Intact x k genesis d.files)
    (failWith_never (((openStore_undisturbed hjson).and openStore_kept).mono (fun _ h => h)
      (fun _ _ h => ⟨h.1, h.2.intact⟩) fun _ _ h => h.1)) fun _ => Triple.of_forall fun d₀ h₀ => ?_
  refine Triple.bind (Q := fun manifests d => Holds k .membershipManifests manifests d₀.files ∧
      d.attempts = [] ∧ d.files = d₀.files)
    (failWith_never (((readFile_undisturbed x genesis _).and
      (readFile_spec k .membershipManifests d₀.files)).mono (fun d hd => ?_)
      (fun _ _ h => ⟨h.2.2, h.1, h.2.1⟩) fun _ _ h => h.1)) fun manifests =>
      Triple.of_forall fun d₁ h₁ => ?_
  · rw [hd]
    exact ⟨h₀, rfl⟩
  obtain ⟨hmanifests, hd₁, hfiles⟩ := h₁
  obtain ⟨membership, hreplay⟩ : ∃ v, replay (accept x) manifests genesis = .ok () v :=
    h₀.2.ok hmanifests
  have hrestore := restore_ok.mpr ⟨genesis, hgenesis, hreplay⟩
  refine Triple.bind_eq (checkFailed_never fun d _ => (mapError_eq_ok _).mpr hrestore) ?_
  refine Triple.bind_eq (checkFailed_never fun d _ => (mapError_eq_ok _).mpr hidentity) ?_
  refine Triple.bind ((lifecycleFile_undisturbed x genesis).mono (fun d hd => ?_) (fun _ _ h => h)
    fun _ _ h => h) fun file => Triple.of_forall fun d₂ h₂ => ?_
  · rw [hd]
    exact ⟨hd₁, hfiles ▸ h₀.2⟩
  obtain ⟨hd₂, l, hload⟩ := h₂
  obtain ⟨started, hstarted⟩ := new_of_load hendpoint hload
  refine Triple.bind_eq (checkFailed_never fun d _ => (mapError_eq_ok _).mpr hstarted) ?_
  refine Triple.bind (failWith_never ((save_undisturbed hjson started.2.lifecycle).mono (fun d hd => ?_)
    (fun _ _ h => h) fun _ _ h => h)) fun _ => Triple.pure fun _ hd => hd
  rw [hd]
  exact hd₂

variable (x k cfg genesis) in
theorem discoveryConfigured_undisturbed :
    Triple (fun d => (d.attempts = [] ∧ d.files.lookup FileName.peers.path ≠ none) ∧
      Intact x k genesis d.files) (discoveryConfigured k cfg) (fun _ _ => True)
      (fun _ _ => False) := by
  unfold discoveryConfigured
  split_ifs
  · exact Triple.pure fun _ _ => trivial
  · have hcount : Triple (fun d => (d.attempts = [] ∧ d.files.lookup FileName.peers.path ≠ none) ∧
        Intact x k genesis d.files) (authenticatedCount k cfg.plane) (fun _ _ => True)
        (fun _ _ => False) :=
      Triple.bind (readFile_undisturbed x genesis .peers) fun _ => Triple.pure fun _ _ => trivial
    exact Triple.bind (failWith_never hcount) fun _ => Triple.pure fun _ _ => trivial

theorem boot_undisturbed (hjson : Serializes k)
    (hgenesis : MembershipVerifier.new x cfg.bundle cfg.plane = .ok genesis)
    (hendpoint : validateOnionEndpoint x DiscoveryError.invalidEndpoint cfg.endpoint = .ok ())
    {files : Files} (hcan : CanStart k cfg found files) :
    Triple (fun d => (d.attempts = [] ∧ Kept x k genesis b d.files) ∧ d.files = files)
      (boot k cfg found) (fun _ _ => True) (fun _ _ => False) := by
  have htracked : Triple (fun d => Kept x k genesis b d.files) (openService k cfg found)
      (fun started d => Tracks x k genesis b [] ⟨started.2, d⟩)
      (fun _ d => Kept x k genesis b d.files) := openService_spec hgenesis
  have hservice := (openService_undisturbed (b := b) hjson hgenesis hendpoint hcan).and
    (htracked.and (openService_found files))
  refine Triple.bind (hservice.mono (fun d hd => ⟨hd.1, hd.1.2, hd.2⟩) (fun _ _ h => h)
    fun _ _ h => h.1) fun started => Triple.of_forall fun d₀ h₀ => ?_
  obtain ⟨hd₀, htracks, hpeers, _⟩ := h₀
  have hconfigured := (discoveryConfigured_undisturbed x k genesis cfg).and
    (discoveryConfigured_spec d₀.files)
  refine Triple.bind (Q := fun configured _ => configured = true → Outgoing k cfg d₀.files)
    (hconfigured.mono (fun d hd => ?_) (fun _ _ h => h.2.2.mp) fun _ _ h => h.1) fun configured =>
      Triple.of_forall fun d₁ houtgoing => ?_
  · rw [hd]
    exact ⟨⟨⟨hd₀, htracks.present .peers⟩, htracks.intact⟩, rfl⟩
  have hclient : (if configured then outgoingClient cfg found else .ok ()) = .ok () := by
    split_ifs with hyes
    · exact outgoingClient_ok.mpr (hcan.client (hpeers.outgoing.mp (houtgoing hyes)))
    · rfl
  refine Triple.bind_eq (checkFailed_never fun _ _ => hclient) ?_
  refine Triple.bind_eq (checkFailed_never fun _ _ => (mapError_eq_ok _).mpr hcan.tls) ?_
  exact Triple.pure fun _ _ => trivial

/-- A start that nothing disturbs, on files that were kept. -/
theorem Kept.boots (hjson : Serializes k)
    (hgenesis : MembershipVerifier.new x cfg.bundle cfg.plane = .ok genesis)
    (hendpoint : validateOnionEndpoint x DiscoveryError.invalidEndpoint cfg.endpoint = .ok ())
    {files : Files} (hcan : CanStart k cfg found files) (h : Kept x k genesis b files) :
    ∃ svc s d, boot k cfg found ⟨files, []⟩ = .ok (svc, s) d ∧ Tracks x k genesis b [] ⟨s, d⟩ := by
  have hboot := boot_undisturbed hjson hgenesis hendpoint hcan ⟨files, []⟩ ⟨⟨rfl, h⟩, rfl⟩
  cases hresult : boot k cfg found ⟨files, []⟩ with
  | ok started d => exact ⟨started.1, started.2, d, rfl, (boot_spec hgenesis).of_ok h hresult⟩
  | error e d =>
    rw [hresult] at hboot
    exact hboot.elim

end Undisturbed

/-! ### A node that dies while it takes its first manifest -/

/-- Alice and Bob are the genesis endpoints. -/
def bobDiscovery : Discovery where
  genesisEndpoints :=
    [⟨"genesis-0", alice.endpoint, .genesis, 0⟩, ⟨"genesis-1", bob.endpoint, .genesis, 0⟩]
  mirrors := []
  observer := false

def bobConfig : Config where
  networkId := networkBundle.networkId
  endpoint := bob.endpoint
  plane := .vault
  bundle := networkBundle
  tlsClientIdentity := some "client.pem"
  discovery := bobDiscovery
  challengeTtlMs := 60000
  peerLiveWindowMs := 30000

/-- Everything is there that Bob's node needs to start. -/
def bobFound : Found (.plain helloRecord) := ⟨.ok (), .ok bobIdentity, .ok (), .ok ()⟩

theorem bob_canStart {k : Codecs} {files : Files} : CanStart k bobConfig bobFound files :=
  ⟨rfl, rfl, ⟨_, rfl⟩, fun _ => ⟨Option.some_ne_none _, rfl⟩, rfl⟩

/-- The JSON text of a stable manifest. -/
def MembershipManifestV1.jsonText (m : MembershipManifestV1) : String :=
  let member (m : ManifestMember) := "\x7b\"member_id\":\"" ++ m.memberId ++
    "\",\"root_public_key\":\"" ++ m.rootPublicKey ++ "\",\"endpoint\":\"" ++ m.endpoint ++ "\"\x7d"
  let signature (s : ManifestSignature) := "\x7b\"signer_id\":\"" ++ s.signerId ++
    "\",\"signature\":\"" ++ s.signature ++ "\"\x7d"
  "\x7b\"contract_version\":\"" ++ m.contractVersion ++ "\",\"network_id\":\"" ++ m.networkId ++
    "\",\"plane\":\"VAULT\",\"epoch\":" ++ toString m.epoch ++ ",\"phase\":\"STABLE\"" ++
    ",\"previous_manifest_hash\":\"" ++ m.previousManifestHash ++ "\",\"threshold\":" ++
    toString m.threshold ++ ",\"members\":[" ++ String.intercalate "," (m.members.map member) ++
    "],\"next_epoch\":null,\"signatures\":[" ++
    String.intercalate "," (m.signatures.map signature) ++ "]\x7d"

def LifecycleState.jsonText (state : LifecycleState) : String :=
  let name :=
    match state with
    | .created => "CREATED"
    | .identityReady => "IDENTITY_READY"
    | .transportReady => "TRANSPORT_READY"
    | .discovering => "DISCOVERING"
    | .authenticated => "AUTHENTICATED"
    | .memberVerified => "MEMBER_VERIFIED"
    | .syncing => "SYNCING"
    | .stateVerified => "STATE_VERIFIED"
    | .eligible => "ELIGIBLE"
    | .active => "ACTIVE"
  "\x7b\"state\":\"" ++ name ++ "\"\x7d"

theorem nodup_emptyText : [utf8 "[]"].Nodup := List.nodup_singleton _

theorem nodup_manifestTexts :
    [utf8 "[]", utf8 ("[" ++ aliceManifest.jsonText ++ "]")].Nodup := by
  decide +kernel

theorem nodup_lifecycleTexts :
    ((LifecycleState.all.map fun state => (state, utf8 state.jsonText)).map Prod.snd).Nodup := by
  decide +kernel

def fileCodecs : Codecs
  | .peers => .recorded [([], utf8 "[]")] nodup_emptyText
  | .endpoints => .recorded [([], utf8 "[]")] nodup_emptyText
  | .successfulConnections => .recorded [([], utf8 "[]")] nodup_emptyText
  | .membershipManifests =>
    .recorded [([], utf8 "[]"), ([aliceManifest], utf8 ("[" ++ aliceManifest.jsonText ++ "]"))]
      nodup_manifestTexts
  | .lifecycle => .recorded (LifecycleState.all.map fun state => (state, utf8 state.jsonText))
      nodup_lifecycleTexts

theorem fileCodecs_serializes : Serializes fileCodecs := by
  refine ⟨⟨_, rfl⟩, ⟨_, rfl⟩, ⟨_, rfl⟩, ⟨_, rfl⟩, fun state => ?_⟩
  cases state <;> exact ⟨_, rfl⟩

theorem toVec_aliceManifest :
    (fileCodecs .membershipManifests).toVec [aliceManifest] =
      .ok (utf8 ("[" ++ aliceManifest.jsonText ++ "]")) := by
  simp [fileCodecs, Json.recorded, Lib.Keyed.find]

theorem bobConfig_genesis :
    MembershipVerifier.new (.plain helloRecord) bobConfig.bundle bobConfig.plane =
      .ok networkVerifier :=
  new_network helloRecord .vault

theorem bobConfig_endpoint :
    validateOnionEndpoint (.plain helloRecord) DiscoveryError.invalidEndpoint bobConfig.endpoint =
      .ok () :=
  validateOnionEndpoint_ok _ bob_endpoint

/-- The process ends when the file of manifests has just been replaced. -/
theorem appendManifest_endsAfter {k : Codecs} {manifests : List MembershipManifestV1}
    {manifest : MembershipManifestV1} {files : Files} {bytes : Bytes}
    (hfile : Holds k .membershipManifests manifests files)
    (hbytes : (k .membershipManifests).toVec (manifests ++ [manifest]) = .ok bytes) :
    appendManifest k manifest ⟨files, [.done, .endsAfter]⟩ =
      .error .ended ⟨renamed FileName.membershipManifests.path bytes files, []⟩ := by
  obtain ⟨old, hold, hread⟩ := hfile
  have hlookup : files.lookup "membership-manifests.db" = some old := hold
  simp [appendManifest, readFile, writeFile, failWith, checkFailed, bind_def, Lib.AtomicFile.read,
    replace, FileName.path, hlookup, hread, hbytes, Except.mapError, check]

/-- A running process that takes a manifest, and ends when it is on file. -/
theorem serve_endsAfter {x : Crates} {svc : NodeService x} {k : Codecs} {s : NodeState}
    {manifest : MembershipManifestV1} {candidate : MembershipVerifier} {files : Files}
    {bytes : Bytes} (hnone : s.membership.current = none)
    (haccept : accept x manifest s.membership = .ok () candidate)
    (hfile : Holds k .membershipManifests s.manifests files)
    (hbytes : (k .membershipManifests).toVec (s.manifests ++ [manifest]) = .ok bytes) :
    svc.serve k (.acceptMembership manifest 1000) ⟨s, files, [.done, .endsAfter]⟩ =
      .error .ended ⟨s, renamed FileName.membershipManifests.path bytes files, []⟩ := by
  have hnew : s.membership.currentHash x ≠ some (x.canonicalHash manifest) := by
    simp [currentHash, hnone]
  simp [NodeService.serve, NodeService.acceptMembershipOn, failWith, checkFailed, bind_def, get_def,
    hnew, NodeService.candidateOf_ok.mpr haccept, Except.mapError, check, onDisk,
    appendManifest_endsAfter hfile hbytes]

/-- Bob's node is started, dies with its first manifest on file, and is started again. -/
theorem bob_lives :
    ∃ (files : Files) (svc svc' : NodeService (.plain helloRecord)) (s s' : NodeState) (w : World)
        (d : Disk),
      Lives fileCodecs bobConfig (.blank _) ⟨files, some (svc, s), []⟩ ∧
      svc.serve fileCodecs (.acceptMembership aliceManifest 1000) ⟨s, files, [.done, .endsAfter]⟩ =
        .error .ended w ∧
      boot fileCodecs bobConfig bobFound ⟨w.disk.files, []⟩ = .ok (svc', s') d ∧
      s.manifests = [] ∧ s'.manifests = [aliceManifest] := by
  let b : Bounds := ⟨0, True, fun manifests => manifests = []⟩
  have hblank : Kept (.plain helloRecord) fileCodecs networkVerifier b ∅ :=
    (Moment.good_blank (b := b) rfl rfl).kept
  obtain ⟨svc, s, d, hboot, htracks⟩ :=
    hblank.boots fileCodecs_serializes bobConfig_genesis bobConfig_endpoint bob_canStart
  have hmanifests : s.manifests = [] := by simpa using htracks.listed
  have hfile := htracks.manifests
  have hreplay := htracks.replayed
  rw [List.append_nil] at hfile
  simp only [hmanifests] at hreplay
  injection hreplay with _ hmembership
  have hbytes : (fileCodecs .membershipManifests).toVec (s.manifests ++ [aliceManifest]) =
      .ok (utf8 ("[" ++ aliceManifest.jsonText ++ "]")) := by
    rw [hmanifests, List.nil_append, toVec_aliceManifest]
  obtain ⟨candidate, haccept⟩ : ∃ candidate,
      accept (.plain helloRecord) aliceManifest s.membership = .ok () candidate := by
    rw [← hmembership]
    exact ⟨_, accept_alice network_subset_hello⟩
  have hnone : s.membership.current = none := by rw [← hmembership]; rfl
  have hserve : svc.serve fileCodecs (.acceptMembership aliceManifest 1000)
      ⟨s, d.files, [.done, .endsAfter]⟩ = .error .ended ⟨s, renamed
        FileName.membershipManifests.path (utf8 ("[" ++ aliceManifest.jsonText ++ "]")) d.files, []⟩ :=
    serve_endsAfter hnone haccept hfile hbytes
  have hlives : Lives fileCodecs bobConfig (.blank _) ⟨d.files, some (svc, s), []⟩ :=
    .single (.starts hboot)
  have hended : Lives fileCodecs bobConfig (.blank _) ⟨_, none, _⟩ := hlives.tail (.ends hserve)
  have hkept := (hended.good bobConfig_genesis).kept
  have hholds : Holds fileCodecs .membershipManifests [aliceManifest]
      (renamed FileName.membershipManifests.path _ d.files) :=
    ⟨_, lookup_renamed_self, (fileCodecs .membershipManifests).fromSlice_toVec toVec_aliceManifest⟩
  have hagain : Kept (.plain helloRecord) fileCodecs networkVerifier
      ⟨0, _, fun manifests => manifests = [aliceManifest]⟩ _ :=
    ⟨hkept.intact, .inl ⟨_, hholds, rfl⟩, hkept.lifecycle⟩
  obtain ⟨svc', s', d', hboot', htracks'⟩ :=
    hagain.boots fileCodecs_serializes bobConfig_genesis bobConfig_endpoint bob_canStart
  exact ⟨d.files, svc, svc', s, s', _, d', hlives, hserve, hboot', hmanifests,
    by simpa using htracks'.listed⟩

/-! ### What survives -/

section Survives
variable {x : Crates} {k : Codecs} {cfg : Config} {genesis : MembershipVerifier} {p p' : Moment x}

/-- **The files go with the process.** Between any two requests, in the first life of a node or
in a later one, a process that is running has its manifests on file, its membership is what they
make of the genesis roster, the lifecycle on file is not ahead of its own, and it is past
verification only if some process was given a snapshot that verifies. -/
theorem process_goes_with_files
    (hgenesis : MembershipVerifier.new x cfg.bundle cfg.plane = .ok genesis)
    {files : Files} {snapshots : List StateSnapshot} {svc : NodeService x} {s : NodeState}
    (hlives : Lives k cfg (.blank x) ⟨files, some (svc, s), snapshots⟩) :
    Holds k .membershipManifests s.manifests files ∧
      replay (accept x) s.manifests genesis = .ok () s.membership ∧
      (∃ state, Holds k .lifecycle state files ∧ state.rank ≤ s.lifecycle.state.rank) ∧
      (s.lifecycle.state.isStateVerified →
        ∃ snapshot ∈ snapshots, snapshot.verify x.toCrypto = .ok ()) := by
  have htracks : Tracks x k genesis _ [] ⟨s, files, []⟩ := hlives.good hgenesis
  obtain ⟨state, hstate, _, hle⟩ := htracks.lifecycle
  have hmanifests := htracks.manifests
  rw [List.append_nil] at hmanifests
  exact ⟨hmanifests, htracks.replayed, ⟨state, hstate, hle⟩, htracks.shown⟩

theorem process_goes_with_files_bob :
    ∃ (files : Files) (svc : NodeService (.plain helloRecord)) (s : NodeState),
      Lives fileCodecs bobConfig (.blank _) ⟨files, some (svc, s), []⟩ ∧ s.manifests = [] ∧
      Holds fileCodecs .membershipManifests s.manifests files ∧
      replay (accept (.plain helloRecord)) s.manifests networkVerifier = .ok () s.membership ∧
      (∃ state, Holds fileCodecs .lifecycle state files ∧ state.rank ≤ s.lifecycle.state.rank) ∧
      (s.lifecycle.state.isStateVerified → ∃ snapshot ∈ ([] : List StateSnapshot),
        snapshot.verify (Crates.plain helloRecord).toCrypto = .ok ()) := by
  obtain ⟨files, svc, _, s, _, _, _, hlives, _, _, hmanifests, _⟩ := bob_lives
  exact ⟨files, svc, s, hlives, hmanifests, process_goes_with_files bobConfig_genesis hlives⟩

end Survives

end Kerosene.Node
