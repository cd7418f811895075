import Kerosene.Node.CatchUp
import Kerosene.Node.Router

/-! What the program does and never does (`kerosene-node`).

Requests at the routes, turns of the discovery loop, starts and ends of the process, in any
order, but one request or turn at a time: for requests that overlap see `ManifestRace`. All of
it is calls of the service (`Operating.lives`), so what is known of the lives of a service is
known of the program. No route and no turn presents a snapshot: the node is never ready for
business (`never_ready_financial`). A manifest that was posted and taken is served from then on,
or one that follows it (`posted_manifest_served`); a request that is turned down leaves no trace
in the files a node starts from (`refused_request_harmless`), and there are always candidates to
visit (`candidates_always_built`). -/
namespace Kerosene.Node

open Lib.AtomicFile Lib.Encode Lib.Firsts Lib.Inplace Lib.Tables Ledger MembershipVerifier
  PersistentPeerStore

/-- What can happen to the program, whatever becomes of the file operations. -/
inductive Operates {x : Crates} (k : Codecs) (cfg : Config) : Moment x → Moment x → Prop
  | starts {found : Found x} {files : Files} {snapshots : List StateSnapshot}
    {attempts : List Attempt} {started : NodeService x × NodeState} {d : Disk}
    (h : boot k cfg found ⟨files, attempts⟩ = .ok started d) :
    Operates k cfg ⟨files, none, snapshots⟩ ⟨d.files, some started, snapshots⟩
  | startStops {found : Found x} {files : Files} {snapshots : List StateSnapshot}
    {attempts : List Attempt} {e : Stop BootError} {d : Disk}
    (h : boot k cfg found ⟨files, attempts⟩ = .error e d) :
    Operates k cfg ⟨files, none, snapshots⟩ ⟨d.files, none, snapshots⟩
  | answers {files : Files} {snapshots : List StateSnapshot} {attempts : List Attempt}
    {svc : NodeService x} {s : NodeState} {now : UInt64} {bytes : Vector UInt8 32}
    {request : HttpRequest} {response : Response} {w : World}
    (h : svc.handle k now bytes request ⟨s, files, attempts⟩ = .ok response w) :
    Operates k cfg ⟨files, some (svc, s), snapshots⟩
      ⟨w.disk.files, some (svc, w.node), snapshots⟩
  | answerStops {files : Files} {snapshots : List StateSnapshot} {attempts : List Attempt}
    {svc : NodeService x} {s : NodeState} {now : UInt64} {bytes : Vector UInt8 32}
    {request : HttpRequest} {e : Stop Empty} {w : World}
    (h : svc.handle k now bytes request ⟨s, files, attempts⟩ = .error e w) :
    Operates k cfg ⟨files, some (svc, s), snapshots⟩ ⟨w.disk.files, none, snapshots⟩
  | turns {files : Files} {snapshots : List StateSnapshot} {attempts : List Attempt}
    {svc : NodeService x} {s : NodeState} {t : NodeService.Turn} {w : World}
    (h : svc.turn k cfg.discovery t ⟨s, files, attempts⟩ = .ok () w) :
    Operates k cfg ⟨files, some (svc, s), snapshots⟩
      ⟨w.disk.files, some (svc, w.node), snapshots⟩
  | turnStops {files : Files} {snapshots : List StateSnapshot} {attempts : List Attempt}
    {svc : NodeService x} {s : NodeState} {t : NodeService.Turn} {e : Stop Empty} {w : World}
    (h : svc.turn k cfg.discovery t ⟨s, files, attempts⟩ = .error e w) :
    Operates k cfg ⟨files, some (svc, s), snapshots⟩ ⟨w.disk.files, none, snapshots⟩
  | killed {files : Files} {snapshots : List StateSnapshot} {process : NodeService x × NodeState} :
    Operates k cfg ⟨files, some process, snapshots⟩ ⟨files, none, snapshots⟩

def Operating {x : Crates} (k : Codecs) (cfg : Config) : Moment x → Moment x → Prop :=
  Relation.ReflTransGen (Operates k cfg)

/-! ### The program is calls of the service -/

section Lives
variable {x : Crates} {k : Codecs} {cfg : Config} {svc : NodeService x} {p : Moment x}
  {snapshots : List StateSnapshot} {ε α : Type}

/-- The process goes on with this memory and these files. -/
def GoesOn (k : Codecs) (cfg : Config) (svc : NodeService x) (p : Moment x)
    (snapshots : List StateSnapshot) (w : World) : Prop :=
  Lives k cfg p ⟨w.disk.files, some (svc, w.node), snapshots⟩

/-- The process has ended and left these files. -/
def Gone (k : Codecs) (cfg : Config) (p : Moment x) (snapshots : List StateSnapshot) (w : World) :
    Prop :=
  Lives k cfg p ⟨w.disk.files, none, snapshots⟩

/-- A request without a snapshot. -/
theorem serve_goesOn {r : Request} (hr : r.snapshot? = none) :
    Triple (GoesOn k cfg svc p snapshots) (svc.serve k r)
      (fun _ => GoesOn k cfg svc p snapshots)
      (fun e w =>
        match e with
        | .ended => Gone k cfg p snapshots w
        | .failed _ => GoesOn k cfg svc p snapshots w) := by
  intro w hw
  have hsame : snapshots ++ r.snapshot?.toList = snapshots := by
    rw [hr, Option.toList_none, List.append_nil]
  cases hserve : svc.serve k r w with
  | ok u w' =>
    have hnext := hw.tail (.serves hserve)
    rw [hsame] at hnext
    exact hnext
  | error e w' =>
    cases e with
    | ended =>
      have hnext := hw.tail (.ends hserve)
      rw [hsame] at hnext
      exact hnext
    | failed e =>
      have hnext := hw.tail (.refuses hserve)
      rw [hsame] at hnext
      exact hnext

/-- A call of the service by its own name. -/
theorem result_goesOn {m : EStateM (Stop ε) World Unit} {r : Request} (hr : r.snapshot? = none)
    (hm : svc.serve k r = failWith (fun _ => ()) m) :
    Triple (GoesOn k cfg svc p snapshots) (result m) (fun _ => GoesOn k cfg svc p snapshots)
      (fun _ => Gone k cfg p snapshots) := by
  intro w hw
  have hserve := serve_goesOn hr w hw
  rw [hm, failWith] at hserve
  unfold result
  cases hmw : m w with
  | ok u w' =>
    rw [hmw] at hserve
    exact hserve
  | error e w' =>
    rw [hmw] at hserve
    cases e with
    | ended => exact hserve
    | failed e => exact hserve

/-- A change of the memory that is a request. -/
theorem modified_goesOn {m : EStateM (Stop Empty) World α} {r : Request} (hr : r.snapshot? = none)
    {f : NodeState → NodeState} (hserve : svc.serve k r = modifyNode f)
    (hm : ∀ w, ∃ a, m w = .ok a { w with node := f w.node }) :
    Triple (GoesOn k cfg svc p snapshots) m (fun _ => GoesOn k cfg svc p snapshots)
      (fun _ => Gone k cfg p snapshots) := by
  intro w hw
  obtain ⟨a, ha⟩ := hm w
  rw [ha]
  have hpost := serve_goesOn hr w hw
  rw [hserve] at hpost
  exact hpost

/-- Memory and files are as they were. -/
def SameAs (w₀ w : World) : Prop := w.node = w₀.node ∧ w.disk.files = w₀.disk.files

/-- Looking at files changes nothing, whether it succeeds or not. -/
theorem result_sameAs {m : EStateM (Stop ε) World α} {w₀ : World}
    (hm : Triple (SameAs w₀) m (fun _ => SameAs w₀) (fun _ => SameAs w₀)) :
    Triple (SameAs w₀) (result m) (fun _ => SameAs w₀) (fun _ => SameAs w₀) := by
  intro w hw
  have hsame := hm w hw
  unfold result
  cases hmw : m w with
  | ok a w' =>
    rw [hmw] at hsame
    exact hsame
  | error e w' =>
    rw [hmw] at hsame
    cases e with
    | ended => exact hsame
    | failed e => exact hsame

/-- So the process goes on as it was. -/
theorem result_reads {m : EStateM (Stop ε) World α}
    (hm : ∀ w₀, Triple (SameAs w₀) m (fun _ => SameAs w₀) (fun _ => SameAs w₀)) :
    Triple (GoesOn k cfg svc p snapshots) (result m) (fun _ => GoesOn k cfg svc p snapshots)
      (fun _ => Gone k cfg p snapshots) := by
  refine Triple.of_forall fun w₀ hw₀ => ?_
  refine (result_sameAs (hm w₀)).mono (fun w hw => hw ▸ ⟨rfl, rfl⟩) (fun _ w hw => ?_)
    fun _ w hw => ?_
  · show Lives k cfg p ⟨w.disk.files, some (svc, w.node), snapshots⟩
    rw [hw.1, hw.2]
    exact hw₀
  · show Lives k cfg p ⟨w.disk.files, none, snapshots⟩
    rw [hw.2]
    exact hw₀.tail .killed

theorem onDisk_sameAs {m : EStateM (Stop ε) Disk α}
    (hm : ∀ files, Triple (fun d => d.files = files) m (fun _ d => d.files = files)
      (fun _ d => d.files = files)) (w₀ : World) :
    Triple (SameAs w₀) (onDisk m) (fun _ => SameAs w₀) (fun _ => SameAs w₀) := by
  intro w hw
  have hfiles := hm w₀.disk.files w.disk hw.2
  unfold onDisk
  cases hd : m w.disk with
  | ok a d =>
    rw [hd] at hfiles
    exact ⟨hw.1, hfiles⟩
  | error e d =>
    rw [hd] at hfiles
    exact ⟨hw.1, hfiles⟩

theorem authenticatedEndpoints_reads (plane : DiscoveryPlane) (files : Files) :
    Triple (fun d => d.files = files) (authenticatedEndpoints k plane) (fun _ d => d.files = files)
      (fun _ d => d.files = files) := by
  refine Triple.bind ((readFile_spec k .peers files).mono (fun _ h => h) (fun _ _ h => h.1)
    fun _ _ h => h) fun peers => Triple.pure fun _ h => h

theorem orderedCandidatesOn_reads (plane : DiscoveryPlane)
    (currentManifest : Option MembershipManifestV1)
    (genesis mirrors authenticatedSuggestions : List EndpointRecord) (files : Files) :
    Triple (fun d => d.files = files)
      (orderedCandidatesOn k x plane currentManifest genesis mirrors authenticatedSuggestions)
      (fun _ d => d.files = files) (fun _ d => d.files = files) := by
  refine Triple.bind ((readFile_spec k .successfulConnections files).mono (fun _ h => h)
    (fun _ _ h => h.1) fun _ _ h => h) fun successfulConnections => ?_
  refine Triple.bind ((readFile_spec k .peers files).mono (fun _ h => h) (fun _ _ h => h.1)
    fun _ _ h => h) fun peers => ?_
  exact checkFailed_spec (fun _ _ h _ => h) fun _ _ h _ => h

theorem candidates_sameAs (discovery : Discovery) (w₀ : World) :
    Triple (SameAs w₀) (svc.candidates k discovery) (fun _ => SameAs w₀) (fun _ => SameAs w₀) := by
  refine Triple.bind (onDisk_sameAs (authenticatedEndpoints_reads _) w₀) fun authenticated => ?_
  refine Triple.bind (Q := fun _ => SameAs w₀) (Triple.get fun _ h => h) fun w => ?_
  exact onDisk_sameAs (orderedCandidatesOn_reads _ _ _ _ _) w₀

theorem discard_spec {m : EStateM ε World α} {P Q : World → Prop} {E : ε → World → Prop}
    (h : Triple P m (fun _ => Q) E) : Triple P (discard m) (fun _ => Q) E :=
  Triple.bind h fun _ => Triple.pure fun _ h => h

theorem readinessOn_goesOn (now : UInt64) :
    Triple (GoesOn k cfg svc p snapshots) (svc.readinessOn now)
      (fun _ => GoesOn k cfg svc p snapshots) (fun _ => Gone k cfg p snapshots) :=
  modified_goesOn (r := .readiness now) rfl rfl fun _ => ⟨_, rfl⟩

theorem issueChallengeOn_goesOn (bytes : Vector UInt8 32) (now : UInt64) :
    Triple (GoesOn k cfg svc p snapshots) (NodeService.issueChallengeOn (x := x) bytes now)
      (fun _ => GoesOn k cfg svc p snapshots) (fun _ => Gone k cfg p snapshots) :=
  modified_goesOn (r := .issueChallenge bytes now) rfl
    (f := fun s => (NodeService.issueChallenge (x := x) bytes now s).2) rfl fun _ => ⟨_, rfl⟩

theorem admitPeerOn_goesOn (hello : PeerHelloV1) (now : UInt64) :
    Triple (GoesOn k cfg svc p snapshots) (result (svc.admitPeerOn k hello now))
      (fun _ => GoesOn k cfg svc p snapshots) (fun _ => Gone k cfg p snapshots) :=
  result_goesOn (r := .observePeer hello now) rfl rfl

theorem acceptMembershipOn_goesOn (manifest : MembershipManifestV1) (now : UInt64) :
    Triple (GoesOn k cfg svc p snapshots) (result (svc.acceptMembershipOn k manifest now))
      (fun _ => GoesOn k cfg svc p snapshots) (fun _ => Gone k cfg p snapshots) :=
  result_goesOn (r := .acceptMembership manifest now) rfl rfl

/-- Every route calls the service, or looks at it. -/
theorem handle_goesOn (now : UInt64) (bytes : Vector UInt8 32) (request : HttpRequest) :
    Triple (GoesOn k cfg svc p snapshots) (svc.handle k now bytes request)
      (fun _ => GoesOn k cfg svc p snapshots) (fun _ => Gone k cfg p snapshots) := by
  have hprobe (respond : Readiness → Response) :
      Triple (GoesOn k cfg svc p snapshots)
        (do let readiness ← svc.readinessOn now; return respond readiness)
        (fun _ => GoesOn k cfg svc p snapshots) (fun _ => Gone k cfg p snapshots) :=
    Triple.bind (readinessOn_goesOn now) fun _ => Triple.pure fun _ h => h
  cases request with
  | live => exact Triple.pure fun _ h => h
  | readyLocal => exact hprobe _
  | readyMember => exact hprobe _
  | readyQuorum => exact hprobe _
  | readyFinancial => exact hprobe _
  | readiness => exact hprobe _
  | challenge => exact Triple.bind (issueChallengeOn_goesOn bytes now) fun _ => Triple.pure fun _ h => h
  | peers =>
    refine Triple.bind (result_reads (onDisk_sameAs (authenticatedEndpoints_reads svc.plane)))
      fun records => ?_
    cases records with
    | ok records => exact Triple.pure fun _ h => h
    | error e => exact Triple.pure fun _ h => h
  | hello request =>
    refine Triple.bind (admitPeerOn_goesOn request.hello now) fun admitted => ?_
    cases admitted with
    | ok u => exact Triple.pure fun _ h => h
    | error e => exact Triple.pure fun _ h => h
  | currentManifest =>
    refine Triple.bind (Q := fun _ => GoesOn k cfg svc p snapshots) (Triple.get fun _ h => h) fun w => ?_
    cases w.node.membership.current with
    | some manifest => exact Triple.pure fun _ h => h
    | none => exact Triple.pure fun _ h => h
  | acceptManifest manifest =>
    refine Triple.bind (acceptMembershipOn_goesOn manifest now) fun accepted => ?_
    cases accepted with
    | ok u => exact Triple.pure fun _ h => h
    | error e => exact Triple.pure fun _ h => h

theorem turn_goesOn (discovery : Discovery) (t : NodeService.Turn) :
    Triple (GoesOn k cfg svc p snapshots) (svc.turn k discovery t)
      (fun _ => GoesOn k cfg svc p snapshots) (fun _ => Gone k cfg p snapshots) := by
  cases t with
  | look => exact discard_spec (result_reads (candidates_sameAs discovery))
  | challenge bytes now => exact discard_spec (issueChallengeOn_goesOn bytes now)
  | observe hello now => exact discard_spec (admitPeerOn_goesOn hello now)
  | take manifest now => exact discard_spec (acceptMembershipOn_goesOn manifest now)

theorem goesOn_refl (files : Files) (s : NodeState) (attempts : List Attempt) :
    GoesOn k cfg svc ⟨files, some (svc, s), snapshots⟩ snapshots ⟨s, files, attempts⟩ :=
  Relation.ReflTransGen.refl

theorem Operates.lives {p p' : Moment x}
    (h : Operates k cfg p p') : Lives k cfg p p' := by
  cases h with
  | starts hboot => exact .single (.starts hboot)
  | startStops hboot => exact .single (.startStops hboot)
  | answers hdone => exact (handle_goesOn _ _ _).of_ok (goesOn_refl _ _ _) hdone
  | answerStops hdone => exact (handle_goesOn _ _ _).of_error (goesOn_refl _ _ _) hdone
  | turns hdone => exact (turn_goesOn _ _).of_ok (goesOn_refl _ _ _) hdone
  | turnStops hdone => exact (turn_goesOn _ _).of_error (goesOn_refl _ _ _) hdone
  | killed => exact .single .killed

/-- The lives of the program are lives of the service. -/
theorem Operating.lives {p p' : Moment x}
    (h : Operating k cfg p p') : Lives k cfg p p' := by
  induction h with
  | refl => exact .refl
  | tail _ hstep ih => exact ih.trans hstep.lives

theorem Operating.snapshots_eq {p p' : Moment x}
    (h : Operating k cfg p p') : p'.snapshots = p.snapshots := by
  induction h with
  | refl => rfl
  | tail _ hstep ih =>
    rw [← ih]
    cases hstep with
    | starts | startStops | answers | answerStops | turns | turnStops | killed => rfl

end Lives

/-! ### A round of discovery -/

section Rounds
variable {x : Crates} {k : Codecs} {cfg : Config} {svc : NodeService x}
  {p : Moment x} {snapshots : List StateSnapshot} {ε α : Type}

/-- The program goes on with this memory and these files. -/
def AtWork (k : Codecs) (cfg : Config) (svc : NodeService x) (p : Moment x)
    (snapshots : List StateSnapshot) (w : World) : Prop :=
  Operating k cfg p ⟨w.disk.files, some (svc, w.node), snapshots⟩

/-- It has ended and left these files. -/
def Left (k : Codecs) (cfg : Config) (p : Moment x)
    (snapshots : List StateSnapshot) (w : World) : Prop :=
  Operating k cfg p ⟨w.disk.files, none, snapshots⟩

theorem turn_atWork (t : NodeService.Turn) :
    Triple (AtWork k cfg svc p snapshots) (svc.turn k cfg.discovery t)
      (fun _ => AtWork k cfg svc p snapshots)
      (fun _ => Left k cfg p snapshots) := by
  intro w hw
  cases hturn : svc.turn k cfg.discovery t w with
  | ok u w' => exact hw.tail (.turns hturn)
  | error e w' => exact hw.tail (.turnStops hturn)

theorem of_discard {m : EStateM ε World α} {P Q : World → Prop} {E : ε → World → Prop}
    (h : Triple P (discard m) (fun _ => Q) E) : Triple P m (fun _ => Q) E := by
  intro w hw
  have hdiscard : discard m = m >>= fun _ => pure PUnit.unit := rfl
  have hpost := h w hw
  rw [hdiscard, bind_def] at hpost
  cases hm : m w with
  | ok a w' =>
    rw [hm] at hpost
    exact hpost
  | error e w' =>
    rw [hm] at hpost
    exact hpost

theorem visit_atWork (v : Visit) :
    Triple (AtWork k cfg svc p snapshots) (svc.visit k cfg.discovery.observer v)
      (fun _ => AtWork k cfg svc p snapshots)
      (fun _ => Left k cfg p snapshots) := by
  unfold NodeService.visit
  split_ifs
  · cases v.fetched with
    | ok manifest => exact turn_atWork (.take manifest v.later)
    | error e => exact Triple.pure fun _ h => h
  · refine Triple.bind (turn_atWork (.challenge v.bytes v.now)) fun _ => ?_
    cases v.exchanged with
    | error e => exact Triple.pure fun _ h => h
    | ok hello =>
      refine Triple.bind (of_discard (turn_atWork (.observe hello v.now))) fun observed => ?_
      split_ifs
      · cases v.fetched with
        | ok manifest => exact turn_atWork (.take manifest v.later)
        | error e => exact Triple.pure fun _ h => h
      · exact Triple.pure fun _ h => h

/-- A round, as the loop goes through it, is made of turns. -/
theorem discover_atWork (visits : EndpointRecord → Visit) :
    Triple (AtWork k cfg svc p snapshots) (svc.discover k cfg.discovery visits)
      (fun _ => AtWork k cfg svc p snapshots)
      (fun _ => Left k cfg p snapshots) := by
  refine Triple.bind (of_discard (turn_atWork .look)) fun candidates => ?_
  cases candidates with
  | ok candidates => exact Triple.forM fun candidate => visit_atWork (visits candidate)
  | error e => exact Triple.pure fun _ h => h

end Rounds

/-- A file that is there and in order, and nothing disturbs the reading. -/
theorem readFile_of_holds {k : Codecs} {files : Files} {f : FileName} {value : f.Value}
    (h : Holds k f value files) :
    readFile k f ⟨files, []⟩ = .ok value ⟨files, []⟩ := by
  obtain ⟨bytes, hbytes, hread⟩ := h
  simp [readFile, failWith, checkFailed, bind_def, Lib.AtomicFile.read, hbytes, hread,
    Except.mapError, check]

/-! ### Bob's node at work -/

def bobEndpoints : String :=
  "https://aaaaaaaaaaaaaaaaaaaaaaaaaaaaaaaaaaaaaaaaaaaaaaaaaaaaaaaa.onion, " ++
    "https://bbbbbbbbbbbbbbbbbbbbbbbbbbbbbbbbbbbbbbbbbbbbbbbbbbbbbbbb.onion,"

theorem bob_starts :
    ∃ (files : Files) (svc : NodeService (.plain helloRecord)) (s : NodeState),
      Operating fileCodecs bobConfig (.blank _) ⟨files, some (svc, s), []⟩ ∧
      Holds fileCodecs .membershipManifests s.manifests files ∧
      s.manifests = [] ∧ s.membership = networkVerifier := by
  let b : Bounds := ⟨0, True, fun manifests => manifests = []⟩
  have hblank : Kept (.plain helloRecord) fileCodecs networkVerifier b ∅ :=
    (Moment.good_blank (b := b) rfl rfl).kept
  obtain ⟨svc, s, d, hboot, htracks⟩ :=
    hblank.boots fileCodecs_serializes bobConfig_genesis bobConfig_endpoint bob_canStart
  have hmanifests : s.manifests = [] := by simpa using htracks.listed
  have hfile := htracks.manifests
  have hreplay := htracks.replayed
  rw [List.append_nil] at hfile
  simp only [hmanifests] at hreplay
  injection hreplay with _ hmembership
  exact ⟨d.files, svc, s, .single (.starts hboot), hfile, hmanifests, hmembership.symm⟩

theorem activateIfQuorumOn_undisturbed {x : Crates} {k : Codecs} {svc : NodeService x} {ε : Type}
    (hjson : Serializes k) (now : UInt64) :
    Triple (fun w => w.disk.attempts = [])
      (svc.activateIfQuorumOn k now : EStateM (Stop ε) World Unit) (fun _ _ => True)
      (fun _ _ => False) := by
  refine Triple.bind (Q := fun _ w => w.disk.attempts = []) (Triple.get fun _ h => h) fun w₀ => ?_
  refine Triple.bind (Q := fun _ w => w.disk.attempts = [])
    (modifyNode_spec fun w hw => by exact hw) fun _ => ?_
  split_ifs
  · intro w hw
    have hsave := save_undisturbed hjson w.node.lifecycle w.disk hw
    unfold dropFailure saveLifecycle onDisk
    cases hd : save k w.node.lifecycle w.disk with
    | ok a d => trivial
    | error e d =>
      rw [hd] at hsave
      exact hsave.elim
  · exact Triple.pure fun _ _ => trivial

/-- A manifest that is posted, accepted and put on file. -/
theorem handle_acceptManifest {x : Crates} {svc : NodeService x} {k : Codecs} {s : NodeState}
    {manifest : MembershipManifestV1} {candidate : MembershipVerifier} {files : Files}
    {bytes : Bytes} (hjson : Serializes k) (hnone : s.membership.current = none)
    (haccept : accept x manifest s.membership = .ok () candidate)
    (hfile : Holds k .membershipManifests s.manifests files)
    (hbytes : (k .membershipManifests).toVec (s.manifests ++ [manifest]) = .ok bytes)
    (now : UInt64) (random : Vector UInt8 32) :
    ∃ body w, svc.handle k now random (.acceptManifest manifest) ⟨s, files, []⟩ =
      .ok ⟨200, body⟩ w := by
  have hnew : s.membership.currentHash x ≠ some (x.canonicalHash manifest) := by
    simp [currentHash, hnone]
  have happend : appendManifest k manifest ⟨files, []⟩ =
      .ok () ⟨renamed FileName.membershipManifests.path bytes files, []⟩ := by
    simp [appendManifest, bind_def, readFile_of_holds hfile, writeFile, failWith, checkFailed,
      replace, hbytes, Except.mapError, check]
  have hdone : ∃ w, svc.acceptMembershipOn k manifest now ⟨s, files, []⟩ = .ok () w := by
    let taken : World := ⟨{ s with manifests := s.manifests ++ [manifest], membership := candidate },
      renamed FileName.membershipManifests.path bytes files, []⟩
    have hsteps : svc.acceptMembershipOn k manifest now ⟨s, files, []⟩ =
        svc.activateIfQuorumOn k now taken := by
      simp only [NodeService.acceptMembershipOn, bind_def, get_def, if_neg hnew, checkFailed,
        NodeService.candidateOf_ok.mpr haccept, Except.mapError, check_ok, failWith, onDisk, happend]
      rfl
    have hactivate : Triple _ (svc.activateIfQuorumOn k now : EStateM (Stop MembershipError) World Unit)
        _ _ := activateIfQuorumOn_undisturbed hjson now
    rw [hsteps]
    cases hresult : svc.activateIfQuorumOn (ε := MembershipError) k now taken with
    | ok u w => exact ⟨w, rfl⟩
    | error e w => exact (hactivate.of_error rfl hresult).elim
  obtain ⟨w, hw⟩ := hdone
  refine ⟨.accepted (x.canonicalHash manifest), w, ?_⟩
  simp only [NodeService.handle, bind_def, result, hw]
  rfl

/-! ### What the routes say -/

/-- A node that is up and has not verified a snapshot. -/
theorem NodeService.report_unverified {x : Crates} (svc : NodeService x) {s : NodeState}
    (hstarted : LifecycleState.discovering.rank ≤ s.lifecycle.state.rank)
    (hunverified : s.lifecycle.state.isStateVerified = false) :
    (svc.report s).localReady = true ∧ (svc.report s).financialReady = false ∧
      (svc.report s).operationalState = "ACTIVE_LOCAL_WAITING_FOR_PEERS" := by
  have hcreated : s.lifecycle.state ≠ .created := by
    intro h
    rw [h] at hstarted
    exact absurd hstarted (by decide)
  have hactive : s.lifecycle.state ≠ .active := by
    intro h
    rw [h] at hunverified
    exact absurd hunverified (by decide)
  simp [NodeService.report, hcreated, hactive, hunverified]

section Answers
variable {x : Crates} {k : Codecs} {cfg : Config} {genesis : MembershipVerifier}
  {svc svc' : NodeService x} {s s' : NodeState} {files files' : Files}
  {snapshots snapshots' : List StateSnapshot}

/-- **Never ready for business.** In every process of the program, in its first life or a
later one, `/ready-local` answers 200 and `/ready-financial` answers 503, at any time: the
program has no way to present a snapshot, so no node of it gets past synchronizing. -/
theorem never_ready_financial
    (hgenesis : MembershipVerifier.new x cfg.bundle cfg.plane = .ok genesis)
    (hoperation : Operating k cfg (.blank x) ⟨files, some (svc, s), snapshots⟩)
    (now : UInt64) (bytes : Vector UInt8 32) (attempts : List Attempt) :
    ∃ readiness w,
      svc.handle k now bytes .readyLocal ⟨s, files, attempts⟩ = .ok ⟨200, .readiness readiness⟩ w ∧
      svc.handle k now bytes .readyFinancial ⟨s, files, attempts⟩ =
        .ok ⟨503, .readiness readiness⟩ w ∧
      readiness.operationalState = "ACTIVE_LOCAL_WAITING_FOR_PEERS" := by
  have htracks : Tracks x k genesis _ [] ⟨s, files, []⟩ := hoperation.lives.good hgenesis
  have hunverified : s.lifecycle.state.isStateVerified = false := by
    rw [Bool.eq_false_iff]
    intro hverified
    obtain ⟨snapshot, hsnapshot, _⟩ := htracks.shown hverified
    rw [hoperation.snapshots_eq] at hsnapshot
    exact absurd hsnapshot List.not_mem_nil
  obtain ⟨hlocal, hfinancial, hoperational⟩ :=
    svc.report_unverified (s := svc.expirePeers now s) htracks.started hunverified
  refine ⟨svc.report (svc.expirePeers now s), ⟨svc.expirePeers now s, files, attempts⟩, ?_, ?_,
    hoperational⟩
  · show EStateM.Result.ok (NodeService.readinessStatus _ _) _ = _
    rw [NodeService.readinessStatus, if_pos hlocal]
  · show EStateM.Result.ok (NodeService.readinessStatus _ _) _ = _
    rw [NodeService.readinessStatus, hfinancial]
    rfl

theorem never_ready_financial_bob :
    ∃ (files : Files) (svc : NodeService (.plain helloRecord)) (s : NodeState),
      Operating fileCodecs bobConfig (.blank _) ⟨files, some (svc, s), []⟩ ∧
      ∃ readiness w,
        svc.handle fileCodecs 1000 bobChallenge .readyLocal ⟨s, files, []⟩ =
          .ok ⟨200, .readiness readiness⟩ w ∧
        svc.handle fileCodecs 1000 bobChallenge .readyFinancial ⟨s, files, []⟩ =
          .ok ⟨503, .readiness readiness⟩ w ∧
        readiness.operationalState = "ACTIVE_LOCAL_WAITING_FOR_PEERS" := by
  obtain ⟨files, svc, s, hoperation, _⟩ := bob_starts
  exact ⟨files, svc, s, hoperation, never_ready_financial bobConfig_genesis hoperation 1000 bobChallenge []⟩

/-- A manifest is answered with 200 when the service has taken it. -/
theorem acceptMembershipOn_of_handle {manifest : MembershipManifestV1} {now : UInt64}
    {bytes : Vector UInt8 32} {body : Body} {w w' : World}
    (h : svc.handle k now bytes (.acceptManifest manifest) w = .ok ⟨200, body⟩ w') :
    svc.acceptMembershipOn k manifest now w = .ok () w' := by
  simp only [NodeService.handle, bind_def, result] at h
  cases hcall : svc.acceptMembershipOn k manifest now w with
  | ok u w'' =>
    rw [hcall] at h
    injection h with _ hw
    rw [hw]
  | error e w'' =>
    rw [hcall] at h
    cases e with
    | ended => cases h
    | failed e =>
      injection h with hresponse _
      injection hresponse with hstatus _
      cases hstatus

/-- All but the challenges is as it was, and so are the files a node starts from. -/
structure Untouched (x : Crates) (k : Codecs) (genesis : MembershipVerifier) (s : NodeState)
    (files : Files) (w : World) : Prop where
  membership : w.node.membership = s.membership
  manifests : w.node.manifests = s.manifests
  lifecycle : w.node.lifecycle = s.lifecycle
  activePeers : w.node.activePeers = s.activePeers
  disk : PeersOnly x k genesis files w.disk

theorem onDisk_untouched {ε α : Type} {m : EStateM (Stop ε) Disk α}
    (hm : Triple (PeersOnly x k genesis files) m (fun _ => PeersOnly x k genesis files)
      (fun _ => PeersOnly x k genesis files)) :
    Triple (Untouched x k genesis s files) (onDisk m) (fun _ => Untouched x k genesis s files)
      (fun _ => Untouched x k genesis s files) := by
  intro w hw
  have hpost := hm w.disk hw.disk
  unfold onDisk
  cases hd : m w.disk with
  | ok a d =>
    rw [hd] at hpost
    exact ⟨hw.membership, hw.manifests, hw.lifecycle, hw.activePeers, hpost⟩
  | error e d =>
    rw [hd] at hpost
    exact ⟨hw.membership, hw.manifests, hw.lifecycle, hw.activePeers, hpost⟩

theorem admitPeerOn_untouched (hello : PeerHelloV1) (now : UInt64) :
    Triple (Untouched x k genesis s files) (svc.admitPeerOn k hello now) (fun _ _ => True)
      (fun e w => ¬ e.IsEnded → Untouched x k genesis s files w) := by
  refine Triple.bind (Q := fun _ => Untouched x k genesis s files)
    (checkFailed_spec (fun _ _ h _ => h) fun _ _ h _ _ => h) fun _ => ?_
  refine Triple.bind (Q := fun peer w => Untouched x k genesis s files w ∧ IsOnion x peer.endpoint)
    (fun w hw => ?_) fun peer => Triple.of_forall fun w₀ h₀ => ?_
  · unfold onNode NodeService.authenticate
    cases hauth : svc.authenticator.authenticate x w.node.membership hello now w.node.challenges with
    | ok peer c =>
      obtain ⟨hexamine, _, rfl⟩ := authenticate_ok hauth
      exact ⟨⟨hw.membership, hw.manifests, hw.lifecycle, hw.activePeers, hw.disk⟩,
        NodeService.isOnion_of_examine hexamine⟩
    | error e c => exact fun _ => ⟨hw.membership, hw.manifests, hw.lifecycle, hw.activePeers, hw.disk⟩
  refine Triple.bind ((onDisk_untouched (upsertFiles_peersOnly h₀.2)).mono (fun w hw => hw ▸ h₀.1)
    (fun _ _ h => h) fun _ _ h _ => h) fun _ => ?_
  refine Triple.bind ((onDisk_untouched (recordFiles_peersOnly _ _ now)).mono (fun _ h => h)
    (fun _ _ h => h) fun _ _ h _ => h) fun _ => ?_
  -- from here on only the end of the process can come in between
  refine Triple.bind (Q := fun _ _ => True) (modifyNode_spec fun _ _ => trivial) fun _ => ?_
  refine Triple.bind (Q := fun _ _ => True) (modifyNode_spec fun _ _ => trivial) fun _ => ?_
  refine Triple.bind (Q := fun _ _ => True) (Triple.of_forall fun w₁ _ => ?_) fun _ =>
    Triple.of_forall fun w₁ _ => ?_
  · exact (dropFailure_saveLifecycle_node k w₁.node).mono (fun w hw => by rw [hw]) (fun _ _ _ => trivial)
      fun e w he hnot => absurd he hnot
  · exact (NodeService.activateIfQuorumOn_node now w₁.node).mono (fun w hw => by rw [hw])
      (fun _ _ _ => trivial) fun e w he hnot => absurd he hnot

theorem appendManifest_untouched (manifest : MembershipManifestV1) :
    Triple (fun d => d.files = files ∧ Intact x k genesis files) (appendManifest k manifest)
      (fun _ _ => True) (fun e d => ¬ e.IsEnded → PeersOnly x k genesis files d) := by
  refine Triple.of_forall fun d₀ h₀ => ?_
  have hsame {d : Disk} (hd : d.files = files) : PeersOnly x k genesis files d := by
    rw [PeersOnly, hd]
    exact ⟨h₀.2, .refl _⟩
  refine Triple.bind ((readFile_spec k .membershipManifests files).mono (fun d hd => hd ▸ h₀.1)
    (fun _ _ h => h.1) fun e d hd _ => hsame hd) fun manifests => ?_
  refine (writeFile_spec k .membershipManifests (manifests ++ [manifest]) files).mono (fun _ h => h)
    (fun _ _ _ => trivial) fun e d hd hnot => ?_
  have hlookup := hd.2.resolve_right fun hended => hnot hended.1
  exact ⟨h₀.2.unchanged hd.1 hlookup, hd.1.sameCore hlookup⟩

theorem acceptMembershipOn_untouched (manifest : MembershipManifestV1) (now : UInt64) :
    Triple (fun w => w.node = s ∧ w.disk.files = files ∧ Intact x k genesis files)
      (svc.acceptMembershipOn k manifest now) (fun _ _ => True)
      (fun e w => ¬ e.IsEnded → Untouched x k genesis s files w) := by
  refine Triple.of_forall fun w₀ h₀ => ?_
  obtain ⟨hnode, hfiles, hintact⟩ := h₀
  have hsame {w : World} (hw : w.node = s) (hd : PeersOnly x k genesis files w.disk) :
      Untouched x k genesis s files w :=
    ⟨by rw [hw], by rw [hw], by rw [hw], by rw [hw], hd⟩
  unfold NodeService.acceptMembershipOn
  refine Triple.bind_eq (a := w₀) (Q := fun w => w = w₀) (Triple.get fun w hw => ⟨hw, hw⟩) ?_
  split_ifs with hknown
  · exact Triple.pure fun _ _ => trivial
  refine Triple.bind (Q := fun _ w => w = w₀) (checkFailed_spec (fun _ _ hw _ => hw)
    fun w e hw _ _ => ?_) fun candidate => ?_
  · rw [hw]
    refine hsame hnode ?_
    rw [PeersOnly, hfiles]
    exact ⟨hintact, .refl _⟩
  refine Triple.bind (Q := fun _ _ => True) (failWith_survived fun w hw => ?_) fun _ => ?_
  · have happend : Triple (fun d => d.files = files ∧ Intact x k genesis files)
        (appendManifest k manifest) (fun _ _ => True)
        (fun e d => ¬ e.IsEnded → PeersOnly x k genesis files d) :=
      appendManifest_untouched manifest
    unfold onDisk
    cases hd : appendManifest k manifest w.disk with
    | ok a d => trivial
    | error e d =>
      have hpost := happend.of_error (hw ▸ ⟨hfiles, hintact⟩) hd
      exact fun hnot => hsame (hw ▸ hnode) (hpost hnot)
  refine Triple.bind (Q := fun _ _ => True) (modifyNode_spec fun _ _ => trivial) fun _ =>
    Triple.of_forall fun w₁ _ => ?_
  exact (NodeService.activateIfQuorumOn_node now w₁.node).mono (fun w hw => by rw [hw])
    (fun _ _ _ => trivial) fun e w he hnot => absurd he hnot

theorem result_untouched {ε α : Type} {m : EStateM (Stop ε) World α} {P R : World → Prop}
    (hm : Triple P m (fun _ _ => True) (fun e w => ¬ e.IsEnded → R w)) :
    Triple P (result m) (fun r w => r.isOk = false → R w) (fun _ _ => True) := by
  intro w hw
  have hpost := hm w hw
  unfold result
  cases hmw : m w with
  | ok a w' => exact fun h => absurd h (by simp [Except.isOk, Except.toBool])
  | error e w' =>
    rw [hmw] at hpost
    cases e with
    | ended => trivial
    | failed e => exact fun _ => hpost id

/-- Nothing of what a node stands on has changed; peers may have expired. -/
structure Harmless (s : NodeState) (files : Files) (w : World) : Prop where
  membership : w.node.membership = s.membership
  manifests : w.node.manifests = s.manifests
  lifecycle : w.node.lifecycle = s.lifecycle
  activePeers : ∀ id t, w.node.activePeers.lookup id = some t → s.activePeers.lookup id = some t
  files : SameCore files w.disk.files

theorem Untouched.harmless {w : World} (h : Untouched x k genesis s files w) :
    Harmless s files w := by
  refine ⟨h.membership, h.manifests, h.lifecycle, fun id t hid => ?_, h.disk.2⟩
  rw [← h.activePeers]
  exact hid

theorem handle_refused (now : UInt64) (bytes : Vector UInt8 32) (request : HttpRequest) :
    Triple (fun w => w.node = s ∧ w.disk.files = files ∧ Intact x k genesis files)
      (svc.handle k now bytes request)
      (fun response w => 400 ≤ response.status → Harmless s files w) (fun _ _ => True) := by
  have hsame {w : World} (hw : w.node = s ∧ w.disk.files = files) : Harmless s files w := by
    refine ⟨by rw [hw.1], by rw [hw.1], by rw [hw.1], fun id t hid => hw.1 ▸ hid, ?_⟩
    rw [hw.2]
    exact .refl _
  have hfine {body : Body} : ¬ 400 ≤ (Response.mk 200 body).status := by
    show ¬ 400 ≤ 200
    decide
  have hprobe (respond : Readiness → Response) :
      Triple (fun w => w.node = s ∧ w.disk.files = files ∧ Intact x k genesis files)
        (do let readiness ← svc.readinessOn now; return respond readiness)
        (fun response w => 400 ≤ response.status → Harmless s files w) (fun _ _ => True) := by
    intro w hw _
    obtain ⟨rfl, hfiles, _⟩ := hw
    refine ⟨rfl, rfl, rfl, fun id t hid => ((lookup_retain _ _).mp hid).1, ?_⟩
    show SameCore files w.disk.files
    rw [hfiles]
    exact .refl _
  cases request with
  | live => exact Triple.pure fun w hw _ => hsame ⟨hw.1, hw.2.1⟩
  | readyLocal => exact hprobe _
  | readyMember => exact hprobe _
  | readyQuorum => exact hprobe _
  | readyFinancial => exact hprobe _
  | readiness => exact hprobe _
  | challenge =>
    refine Triple.bind (Q := fun _ _ => True) (fun w _ => trivial) fun challenge =>
      Triple.pure fun _ _ h => absurd h hfine
  | currentManifest =>
    refine Triple.bind (Q := fun _ w => w.node = s ∧ w.disk.files = files)
      (Triple.get fun w hw => ⟨hw.1, hw.2.1⟩) fun w => ?_
    cases w.node.membership.current with
    | some manifest => exact Triple.pure fun _ hw _ => hsame hw
    | none => exact Triple.pure fun _ hw _ => hsame hw
  | peers =>
    refine Triple.of_forall fun w₀ h₀ => ?_
    have hreads := result_sameAs (onDisk_sameAs (authenticatedEndpoints_reads (k := k) svc.plane) w₀)
    refine Triple.bind (hreads.mono (fun w hw => hw ▸ ⟨rfl, rfl⟩) (fun _ _ h => h)
      fun _ _ _ => trivial) fun records => ?_
    have hharmless {w : World} (hw : SameAs w₀ w) : Harmless s files w :=
      hsame ⟨hw.1.trans h₀.1, hw.2.trans h₀.2.1⟩
    cases records with
    | ok records => exact Triple.pure fun _ hw _ => hharmless hw
    | error e => exact Triple.pure fun _ hw _ => hharmless hw
  | hello request =>
    refine Triple.bind (Q := fun admitted w => admitted.isOk = false → Untouched x k genesis s files w)
      ((result_untouched (admitPeerOn_untouched request.hello now)).mono (fun w hw => ?_)
        (fun _ _ h => h) fun _ _ h => h) fun admitted => ?_
    · obtain ⟨rfl, rfl, hintact⟩ := hw
      exact ⟨rfl, rfl, rfl, rfl, hintact, .refl _⟩
    cases admitted with
    | ok u => exact Triple.pure fun _ _ h => absurd h hfine
    | error e => exact Triple.pure fun _ hw _ => (hw rfl).harmless
  | acceptManifest manifest =>
    refine Triple.bind (result_untouched (acceptMembershipOn_untouched manifest now)) fun accepted => ?_
    cases accepted with
    | ok u => exact Triple.pure fun _ _ h => absurd h hfine
    | error e => exact Triple.pure fun _ hw _ => (hw rfl).harmless

/-- **A request that is turned down changes nothing that matters.** Whatever the program has
been through, when it answers a request with a status of 400 or more, membership, manifests
and lifecycle are as they were, in memory and on file, and nobody counts as alive that did
not before. -/
theorem refused_request_harmless
    (hgenesis : MembershipVerifier.new x cfg.bundle cfg.plane = .ok genesis)
    (hoperation : Operating k cfg (.blank x) ⟨files, some (svc, s), snapshots⟩)
    {now : UInt64} {bytes : Vector UInt8 32} {request : HttpRequest} {attempts : List Attempt}
    {response : Response} {w : World}
    (hanswer : svc.handle k now bytes request ⟨s, files, attempts⟩ = .ok response w)
    (hrefused : 400 ≤ response.status) : Harmless s files w := by
  have hkept := (hoperation.lives.good hgenesis).kept
  exact (handle_refused now bytes request).of_ok ⟨rfl, rfl, hkept.intact⟩ hanswer hrefused

/-- Bob's node is shown a hello in its own name. -/
theorem refused_request_harmless_bob :
    ∃ (files : Files) (svc : NodeService (.plain helloRecord)) (s : NodeState) (request : HttpRequest)
        (response : Response) (w : World),
      Operating fileCodecs bobConfig (.blank _) ⟨files, some (svc, s), []⟩ ∧
      svc.handle fileCodecs 1000 bobChallenge request ⟨s, files, []⟩ = .ok response w ∧
      400 ≤ response.status ∧ Harmless s files w := by
  obtain ⟨files, svc, s, hoperation, _⟩ := bob_starts
  let own : PeerHelloV1 := { aliceHello with memberId := svc.identity.memberId }
  have hanswer : svc.handle fileCodecs 1000 bobChallenge (.hello ⟨own, "challenge"⟩) ⟨s, files, []⟩ =
      .ok ⟨401, .error DiscoveryError.selfConnection.display⟩ ⟨s, files, []⟩ := by
    have hself : refuse (own.memberId = svc.identity.memberId) DiscoveryError.selfConnection =
        .error .selfConnection := if_pos rfl
    simp only [NodeService.handle, bind_def, result, NodeService.admitPeerOn, checkFailed, hself,
      Except.mapError, check_error]
    rfl
  have hrefused : 400 ≤ (Response.mk 401 (.error DiscoveryError.selfConnection.display)).status := by
    decide
  exact ⟨files, svc, s, _, _, _, hoperation, hanswer, hrefused,
    refused_request_harmless bobConfig_genesis hoperation hanswer hrefused⟩

/-! ### Candidates -/

theorem exists_of_mem_mapM {ε α β : Type} {f : α → Except ε β} {l : List α} {r : List β}
    (h : l.mapM f = .ok r) : ∀ b ∈ r, ∃ a ∈ l, f a = .ok b := by
  induction l generalizing r with
  | nil =>
    cases h
    exact fun b hb => absurd hb List.not_mem_nil
  | cons a rest ih =>
    simp only [List.mapM_cons, except_bind_ok] at h
    obtain ⟨c, hc, r', hr', hsame⟩ := h
    cases hsame
    intro b hb
    rcases List.mem_cons.mp hb with rfl | hb
    · exact ⟨a, List.mem_cons_self, hc⟩
    · obtain ⟨a', ha', hb'⟩ := ih hr' b hb
      exact ⟨a', List.mem_cons_of_mem _ ha', hb'⟩

/-- Only onion endpoints come out of a variable. -/
theorem isOnion_of_endpointsFromEnv {primary fallback : Option String} {source : DiscoverySource}
    {records : List EndpointRecord} (h : endpointsFromEnv x primary fallback source = .ok records) :
    ∀ record ∈ records, IsOnion x record.endpoint := by
  intro record hrecord
  obtain ⟨entry, _, hentry⟩ := exists_of_mem_mapM h record hrecord
  simp only [except_bind_ok] at hentry
  obtain ⟨_, hvalid, hsame⟩ := hentry
  cases hsame
  exact hvalid

/-- Only members with onion endpoints are accepted. -/
theorem isOnion_of_accept {manifest : MembershipManifestV1} {v v' : MembershipVerifier}
    (h : accept x manifest v = .ok () v') :
    ∀ member ∈ manifest.members, IsOnion x member.endpoint := by
  intro member hmember
  obtain ⟨hstructure, _, _⟩ := accept_ok.mp h
  simp only [validateStructure, except_then_ok, validateManifestMembers, validateEach_ok] at hstructure
  exact validateOnionEndpoint_ok _ (hstructure.2.2.1.2.1 member hmember).2

theorem isOnion_of_replay {v v' : MembershipVerifier} {manifests : List MembershipManifestV1}
    (hfirst : ∀ manifest ∈ v.current, ∀ member ∈ manifest.members, IsOnion x member.endpoint)
    (h : replay (accept x) manifests v = .ok () v') :
    ∀ manifest ∈ v'.current, ∀ member ∈ manifest.members, IsOnion x member.endpoint := by
  induction manifests generalizing v with
  | nil =>
    cases h
    exact hfirst
  | cons manifest rest ih =>
    obtain ⟨_, u, haccept, hrest⟩ := replay_cons_ok.mp h
    refine ih (fun current hcurrent => ?_) hrest
    rw [current_of_accept haccept] at hcurrent
    cases hcurrent
    exact isOnion_of_accept haccept

theorem Tracks.holds {b : Bounds} {ahead : List MembershipManifestV1} {w : World}
    (h : Tracks x k genesis b ahead w) (f : FileName) :
    ∃ value, Holds k f value w.disk.files ∧ ValueOk x genesis f value := by
  obtain ⟨bytes, hbytes⟩ := Option.ne_none_iff_exists'.mp (h.present f)
  obtain ⟨value, hvalue, hok⟩ := h.intact f bytes hbytes
  exact ⟨value, ⟨bytes, hbytes, hvalue⟩, hok⟩

/-- The candidates of a store that knows onion endpoints only. -/
theorem orderedCandidates_of_vetted {store : PersistentPeerStore} (plane : DiscoveryPlane)
    {currentManifest : Option MembershipManifestV1}
    {genesis mirrors authenticated : List EndpointRecord} (hstore : store.Vetted x)
    (hmanifest : ∀ manifest ∈ currentManifest, ∀ member ∈ manifest.members, IsOnion x member.endpoint)
    (hrecords : ∀ record ∈ genesis ++ mirrors ++ authenticated, IsOnion x record.endpoint) :
    ∃ records, store.orderedCandidates x plane currentManifest genesis mirrors authenticated =
        .ok records ∧
      (records.map EndpointRecord.endpoint).Nodup ∧
      ∀ endpoint, endpoint ∈ records.map EndpointRecord.endpoint ↔
        store.Offered plane currentManifest genesis mirrors authenticated endpoint := by
  have hvalid : ∀ c ∈ store.previousConnections plane ++ manifestRecords currentManifest ++ genesis ++
      mirrors ++ authenticated, IsOnion x c.endpoint := by
    intro c hc
    have hendpoint := List.mem_map_of_mem (f := EndpointRecord.endpoint) hc
    rw [endpoints_candidates, mem_sourceOrder] at hendpoint
    exact isOnion_of_offered hstore hmanifest hrecords hendpoint
  refine ⟨_, deduplicateValid_eq hvalid [], nodup_map_firsts _ _, fun endpoint => ?_⟩
  rw [mem_map_firsts, endpoints_candidates, mem_sourceOrder, and_iff_left List.not_mem_nil]

/-- **There are always candidates.** Whatever the program has been through, with endpoints
from its variables and files that can be read, a round of discovery has its list: the
endpoints of the current members and all that were configured among them, each once, and
every one an onion service. -/
theorem candidates_always_built
    (hgenesis : MembershipVerifier.new x cfg.bundle cfg.plane = .ok genesis)
    {endpoints seeds mirrors : Option String}
    (hendpoints : endpointsFromEnv x endpoints seeds .genesis = .ok cfg.discovery.genesisEndpoints)
    (hmirrors : endpointsFromEnv x mirrors none .mirror = .ok cfg.discovery.mirrors)
    (hoperation : Operating k cfg (.blank x) ⟨files, some (svc, s), snapshots⟩) :
    ∃ records, svc.candidates k cfg.discovery ⟨s, files, []⟩ = .ok records ⟨s, files, []⟩ ∧
      (records.map EndpointRecord.endpoint).Nodup ∧
      (∀ record ∈ records, IsOnion x record.endpoint) ∧
      (∀ record ∈ cfg.discovery.genesisEndpoints ++ cfg.discovery.mirrors,
        record.endpoint ∈ records.map EndpointRecord.endpoint) ∧
      ∀ manifest ∈ s.membership.current, ∀ member ∈ manifest.members,
        member.endpoint ∈ records.map EndpointRecord.endpoint := by
  have htracks : Tracks x k genesis _ [] ⟨s, files, []⟩ := hoperation.lives.good hgenesis
  obtain ⟨peers, hpeers, hpeersOk⟩ := htracks.holds .peers
  obtain ⟨successes, hsuccesses, hsuccessesOk⟩ := htracks.holds .successfulConnections
  let authenticated : List EndpointRecord :=
    (peers.filter fun peer => peer.plane == svc.plane).map fun peer =>
      ⟨peer.memberId, peer.endpoint, .authenticatedPeer, peer.authenticatedAtEpochMs⟩
  have hmanifest := isOnion_of_replay (by rw [(new_bound hgenesis).1]; simp) htracks.replayed
  have hrecords : ∀ record ∈ cfg.discovery.genesisEndpoints ++ cfg.discovery.mirrors ++ authenticated,
      IsOnion x record.endpoint := by
    intro record hrecord
    rcases List.mem_append.mp hrecord with hconfigured | hauthenticated
    · rcases List.mem_append.mp hconfigured with hrecord | hrecord
      · exact isOnion_of_endpointsFromEnv hendpoints record hrecord
      · exact isOnion_of_endpointsFromEnv hmirrors record hrecord
    · obtain ⟨peer, hpeer, rfl⟩ := List.mem_map.mp hauthenticated
      exact hpeersOk peer (List.mem_of_mem_filter hpeer)
  have hvetted : Vetted x ⟨peers, [], successes⟩ := hsuccessesOk
  obtain ⟨records, hlist, hnodup, hoffered⟩ :=
    orderedCandidates_of_vetted svc.plane hvetted hmanifest hrecords
  refine ⟨records, ?_, hnodup, fun record hrecord => ?_, fun record hrecord => ?_,
    fun manifest hcurrent member hmember => ?_⟩
  · have hauthenticated : authenticatedEndpoints k svc.plane ⟨files, []⟩ =
        .ok authenticated ⟨files, []⟩ := by
      simp only [authenticatedEndpoints, bind_def, readFile_of_holds hpeers]
      rfl
    have hordered : orderedCandidatesOn k x svc.plane s.membership.current
        cfg.discovery.genesisEndpoints cfg.discovery.mirrors authenticated ⟨files, []⟩ =
          .ok records ⟨files, []⟩ := by
      simp only [orderedCandidatesOn, bind_def, readFile_of_holds hsuccesses,
        readFile_of_holds hpeers, hlist]
      rfl
    simp only [NodeService.candidates, bind_def, onDisk, hauthenticated, get_def, hordered]
  · have hendpoint := List.mem_map_of_mem (f := EndpointRecord.endpoint) hrecord
    exact isOnion_of_offered hvetted hmanifest hrecords ((hoffered _).mp hendpoint)
  · refine (hoffered _).mpr ?_
    rcases List.mem_append.mp hrecord with hgenesis | hmirror
    · exact .inr (.inr (.inl ⟨record, hgenesis, rfl⟩))
    · exact .inr (.inr (.inr (.inl ⟨record, hmirror, rfl⟩)))
  · exact (hoffered _).mpr (.inr (.inl ⟨manifest, hcurrent, member, hmember, rfl⟩))

theorem endpointsFromEnv_bob :
    endpointsFromEnv (.plain helloRecord) (some bobEndpoints) none .genesis =
      .ok bobDiscovery.genesisEndpoints := by
  decide +kernel

theorem endpointsFromEnv_mirrors :
    endpointsFromEnv (.plain helloRecord) none none .mirror = .ok bobDiscovery.mirrors := by
  decide +kernel

theorem candidates_always_built_bob :
    ∃ (files : Files) (svc : NodeService (.plain helloRecord)) (s : NodeState)
        (records : List EndpointRecord),
      Operating fileCodecs bobConfig (.blank _) ⟨files, some (svc, s), []⟩ ∧
      svc.candidates fileCodecs bobDiscovery ⟨s, files, []⟩ = .ok records ⟨s, files, []⟩ ∧
      ∀ record ∈ bobDiscovery.genesisEndpoints ++ bobDiscovery.mirrors,
        record.endpoint ∈ records.map EndpointRecord.endpoint := by
  obtain ⟨files, svc, s, hoperation, _⟩ := bob_starts
  obtain ⟨records, hrecords, _, _, hconfigured, _⟩ := candidates_always_built bobConfig_genesis
    endpointsFromEnv_bob endpointsFromEnv_mirrors hoperation
  exact ⟨files, svc, s, records, hoperation, hrecords, hconfigured⟩

end Answers

end Kerosene.Node
