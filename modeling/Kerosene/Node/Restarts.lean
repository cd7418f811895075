import Kerosene.Node.Durable

/-! A node over all its lives.

A process ends when it is killed, between two file operations or in the middle of one, and
the next one starts from the files. `Tracks` relates the files of a process to its memory: the
file of manifests is the chain that was accepted, ahead of the memory by at most the manifest
being accepted, and the lifecycle file is behind the lifecycle or level with it. Every file
operation keeps it, done or not, and so does every request (`serve_tracks`). -/
namespace Kerosene.Node

open Lib.AtomicFile Lib.Encode Lib.Inplace Lib.Tables Ledger MembershipVerifier PersistentPeerStore

theorem Lifecycle.Later.rank_le {l l' : Lifecycle} (h : l.Later l') :
    l.state.rank ≤ l'.state.rank := by
  have hchain : l'.path.IsChain fun s t => s.rank < t.rank :=
    l'.linked.imp fun s t hnext => by
      rw [LifecycleState.rank_next hnext]
      exact Nat.lt_succ_self _
  have hmem : l.state ∈ l'.visited ++ [l'.state] :=
    h.subset (List.mem_append_right _ List.mem_cons_self)
  rcases List.mem_append.mp hmem with hvisited | hlast
  · have hpairwise := List.isChain_iff_pairwise.mp hchain
    exact Nat.le_of_lt ((List.pairwise_append.mp hpairwise).2.2 _ hvisited _ List.mem_cons_self)
  · rw [List.mem_singleton.mp hlast]

/-! ### Files in order -/

/-- What a file may hold. -/
def ValueOk (x : Crates) (genesis : MembershipVerifier) : (f : FileName) → f.Value → Prop
  | .successfulConnections, successes => ∀ success ∈ successes, IsOnion x success.endpoint
  | .membershipManifests, manifests => ∃ v, replay (accept x) manifests genesis = .ok () v
  | .peers, peers => ∀ peer ∈ peers, IsOnion x peer.endpoint
  | .endpoints, _ => True
  | .lifecycle, _ => True

/-- Every file is absent or holds something it may hold. -/
def Intact (x : Crates) (k : Codecs) (genesis : MembershipVerifier) (files : Files) : Prop :=
  ∀ (f : FileName) bytes, files.lookup f.path = some bytes →
    ∃ value, (k f).fromSlice bytes = .ok value ∧ ValueOk x genesis f value

/-- The files the node starts from are the same, and no file is gone. -/
structure SameCore (files files' : Files) : Prop where
  manifests : files'.lookup FileName.membershipManifests.path =
    files.lookup FileName.membershipManifests.path
  lifecycle : files'.lookup FileName.lifecycle.path = files.lookup FileName.lifecycle.path
  present : ∀ f : FileName, files.lookup f.path ≠ none → files'.lookup f.path ≠ none

section Files
variable {x : Crates} {k : Codecs} {genesis : MembershipVerifier} {files files' : Files}

theorem Intact.ok (h : Intact x k genesis files) {f : FileName} {value : f.Value}
    (hvalue : Holds k f value files) : ValueOk x genesis f value := by
  obtain ⟨bytes, hbytes, hread⟩ := hvalue
  obtain ⟨value', hread', hok⟩ := h f bytes hbytes
  rw [hread] at hread'
  cases hread'
  exact hok

theorem Intact.unchanged (h : Intact x k genesis files) {f : FileName}
    (hothers : OthersSame f files files') (hf : files'.lookup f.path = files.lookup f.path) :
    Intact x k genesis files' := by
  intro g bytes hbytes
  by_cases hg : g = f
  · subst hg
    exact h g bytes (hf.symm.trans hbytes)
  · exact h g bytes ((hothers g hg).symm.trans hbytes)

theorem SameCore.refl (files : Files) : SameCore files files := ⟨rfl, rfl, fun _ h => h⟩

theorem Holds.present {f : FileName} {value : f.Value} (h : Holds k f value files) :
    files.lookup f.path ≠ none := by
  obtain ⟨bytes, hbytes, _⟩ := h
  rw [hbytes]
  exact Option.some_ne_none bytes

/-- A file that is replaced does not go away. -/
theorem OthersSame.present {f : FileName} {value : f.Value} (hothers : OthersSame f files files')
    (hf : files'.lookup f.path = files.lookup f.path ∨ Holds k f value files') (g : FileName)
    (hg : files.lookup g.path ≠ none) : files'.lookup g.path ≠ none := by
  by_cases hgf : g = f
  · subst hgf
    rcases hf with hsame | hholds
    · rw [hsame]
      exact hg
    · exact hholds.present
  · rw [hothers g hgf]
    exact hg

/-- Nothing has changed after all. -/
theorem OthersSame.sameCore {f : FileName} (hothers : OthersSame f files files')
    (hf : files'.lookup f.path = files.lookup f.path) : SameCore files files' := by
  have hsame (g : FileName) : files'.lookup g.path = files.lookup g.path := by
    by_cases hg : g = f
    · subst hg
      exact hf
    · exact hothers g hg
  exact ⟨hsame _, hsame _, fun g hg => hsame g ▸ hg⟩

/-- One file is left or holds something new. -/
theorem Intact.wrote (h : Intact x k genesis files) {f : FileName} {value : f.Value}
    (hothers : OthersSame f files files') (hok : ValueOk x genesis f value)
    (hf : files'.lookup f.path = files.lookup f.path ∨ Holds k f value files') :
    Intact x k genesis files' := by
  rcases hf with hsame | ⟨bytes', hbytes', hread⟩
  · exact h.unchanged hothers hsame
  · intro g bytes hbytes
    by_cases hg : g = f
    · subst hg
      rw [hbytes] at hbytes'
      cases hbytes'
      exact ⟨value, hread, hok⟩
    · exact h g bytes ((hothers g hg).symm.trans hbytes)

/-- The files are in order, and those the node starts from are as they were. -/
def PeersOnly (x : Crates) (k : Codecs) (genesis : MembershipVerifier) (files : Files) (d : Disk) :
    Prop :=
  Intact x k genesis d.files ∧ SameCore files d.files

theorem readFile_peersOnly (f : FileName) :
    Triple (PeersOnly x k genesis files) (readFile k f)
      (fun value d => PeersOnly x k genesis files d ∧ ValueOk x genesis f value)
      (fun _ => PeersOnly x k genesis files) := by
  refine Triple.of_forall fun d₀ h₀ => ?_
  refine (readFile_spec k f d₀.files).mono (fun d hd => by rw [hd]) (fun value d hd => ?_)
    fun _ d hd => ?_
  · rw [PeersOnly, hd.1]
    exact ⟨h₀, h₀.1.ok hd.2⟩
  · rw [PeersOnly, hd]
    exact h₀

theorem writeFile_peersOnly {f : FileName} (hmanifests : f ≠ .membershipManifests)
    (hlifecycle : f ≠ .lifecycle) {value : f.Value} (hok : ValueOk x genesis f value) :
    Triple (PeersOnly x k genesis files) (writeFile k f value)
      (fun _ => PeersOnly x k genesis files) (fun _ => PeersOnly x k genesis files) := by
  refine Triple.of_forall fun d₀ h₀ => ?_
  have hnext {d : Disk} (hothers : OthersSame f d₀.files d.files)
      (hf : d.files.lookup f.path = d₀.files.lookup f.path ∨ Holds k f value d.files) :
      PeersOnly x k genesis files d :=
    ⟨h₀.1.wrote hothers hok hf, (hothers _ hmanifests.symm).trans h₀.2.manifests,
      (hothers _ hlifecycle.symm).trans h₀.2.lifecycle,
      fun g hg => hothers.present hf g (h₀.2.present g hg)⟩
  exact (writeFile_spec k f value d₀.files).mono (fun d hd => by rw [hd])
    (fun _ d hd => hnext hd.1 (.inr hd.2)) fun e d hd => hnext hd.1 (hd.2.imp_right And.right)

theorem upsertFiles_peersOnly {peer : AuthenticatedPeer} (hpeer : IsOnion x peer.endpoint) :
    Triple (PeersOnly x k genesis files) (upsertFiles k peer)
      (fun _ => PeersOnly x k genesis files) (fun _ => PeersOnly x k genesis files) := by
  refine Triple.bind (readFile_peersOnly _) fun peers => ?_
  refine Triple.bind (Q := fun _ => PeersOnly x k genesis files)
    (Triple.of_forall fun d₀ h₀ => ?_) fun _ => ?_
  · have hok : ValueOk x genesis .peers (storePeer peer peers) := by
      intro stored hstored
      rcases List.mem_append.mp hstored with hkept | hnew
      · exact h₀.2 stored (List.mem_of_mem_filter hkept)
      · rw [List.mem_singleton.mp hnew]
        exact hpeer
    exact (writeFile_peersOnly (by decide) (by decide) hok).mono (fun d hd => hd ▸ h₀.1)
      (fun _ _ h => h) fun _ _ h => h
  refine Triple.bind (readFile_peersOnly _) fun endpoints => ?_
  exact (writeFile_peersOnly (f := .endpoints) (by decide) (by decide) trivial).mono
    (fun _ h => h.1) (fun _ _ h => h) fun _ _ h => h

theorem markSuccess_ok {peers : List StoredPeer} (h : ValueOk x genesis .peers peers)
    (memberId endpoint : String) (now : UInt64) :
    ValueOk x genesis .peers (markSuccess memberId endpoint now peers) := by
  intro stored hstored
  obtain ⟨peer, hpeer, rfl⟩ := List.mem_map.mp hstored
  have hendpoint := h peer hpeer
  split_ifs
  · exact hendpoint
  · exact hendpoint

theorem recordFiles_peersOnly (memberId endpoint : String) (now : UInt64) :
    Triple (PeersOnly x k genesis files) (recordFiles x k memberId endpoint now)
      (fun _ => PeersOnly x k genesis files) (fun _ => PeersOnly x k genesis files) := by
  refine Triple.bind (Q := fun _ d => PeersOnly x k genesis files d ∧ IsOnion x endpoint)
    (checkFailed_spec (fun d _ h hok => ⟨h, hok⟩) fun d _ h _ => h) fun _ => ?_
  refine Triple.of_forall fun d₀ h₀ => ?_
  refine Triple.bind ((readFile_peersOnly _).mono (fun d hd => hd ▸ h₀.1) (fun _ _ h => h)
    fun _ _ h => h) fun successes => ?_
  refine Triple.bind (Q := fun _ => PeersOnly x k genesis files)
    (Triple.of_forall fun d₁ h₁ => ?_) fun _ => ?_
  · have hok : ValueOk x genesis .successfulConnections
        (storeConnection memberId endpoint now successes) := by
      intro success hsuccess
      rcases List.mem_append.mp hsuccess with hkept | hnew
      · exact h₁.2 success (List.mem_of_mem_filter hkept)
      · rw [List.mem_singleton.mp hnew]
        exact h₀.2
    exact (writeFile_peersOnly (by decide) (by decide) hok).mono (fun d hd => hd ▸ h₁.1)
      (fun _ _ h => h) fun _ _ h => h
  refine Triple.bind (readFile_peersOnly _) fun peers => Triple.of_forall fun d₁ h₁ => ?_
  exact (writeFile_peersOnly (by decide) (by decide) (markSuccess_ok h₁.2 _ _ _)).mono
    (fun d hd => hd ▸ h₁.1) (fun _ _ h => h) fun _ _ h => h

end Files

/-! ### Files and memory -/

/-- What is kept in view while a request is served: how far the lifecycle file has come
(one more than the rank in it, and 0 when there need not be one), what has to be shown
before the lifecycle passes verification, and which manifests may be on file. -/
structure Bounds where
  floor : ℕ
  shown : Prop
  listed : List MembershipManifestV1 → Prop

/-- The files go with the memory; `ahead` is on file and not in memory yet. -/
structure Tracks (x : Crates) (k : Codecs) (genesis : MembershipVerifier) (b : Bounds)
    (ahead : List MembershipManifestV1) (w : World) : Prop where
  intact : Intact x k genesis w.disk.files
  manifests : Holds k .membershipManifests (w.node.manifests ++ ahead) w.disk.files
  listed : b.listed (w.node.manifests ++ ahead)
  replayed : replay (accept x) w.node.manifests genesis = .ok () w.node.membership
  lifecycle : ∃ state, Holds k .lifecycle state w.disk.files ∧ b.floor ≤ state.rank + 1 ∧
    state.rank ≤ w.node.lifecycle.state.rank
  started : LifecycleState.discovering.rank ≤ w.node.lifecycle.state.rank
  present : ∀ f : FileName, w.disk.files.lookup f.path ≠ none
  shown : w.node.lifecycle.state.isStateVerified → b.shown

section Tracking
variable {x : Crates} {k : Codecs} {genesis : MembershipVerifier} {b : Bounds}
  {ahead : List MembershipManifestV1} {w w' : World} {ε α : Type}

/-- The peer files may change. -/
theorem Tracks.peersOnly (h : Tracks x k genesis b ahead w) (hnode : w'.node = w.node)
    (hdisk : PeersOnly x k genesis w.disk.files w'.disk) : Tracks x k genesis b ahead w' := by
  obtain ⟨state, hstate, hfloor, hle⟩ := h.lifecycle
  refine ⟨hdisk.1, ?_, ?_, ?_, ⟨state, hstate.of_lookup_eq hdisk.2.lifecycle, hfloor, ?_⟩, ?_,
    fun f => hdisk.2.present f (h.present f), ?_⟩
  · rw [hnode]
    exact h.manifests.of_lookup_eq hdisk.2.manifests
  · rw [hnode]
    exact h.listed
  · rw [hnode]
    exact h.replayed
  · rw [hnode]
    exact hle
  · rw [hnode]
    exact h.started
  · rw [hnode]
    exact h.shown

/-- The lifecycle file may take the lifecycle in memory. -/
theorem Tracks.saved (h : Tracks x k genesis b ahead w) (hnode : w'.node = w.node)
    (hothers : OthersSame .lifecycle w.disk.files w'.disk.files)
    (hfile : w'.disk.files.lookup FileName.lifecycle.path =
        w.disk.files.lookup FileName.lifecycle.path ∨
      Holds k .lifecycle w.node.lifecycle.state w'.disk.files) :
    Tracks x k genesis b ahead w' := by
  obtain ⟨state, hstate, hfloor, hle⟩ := h.lifecycle
  have hok : ValueOk x genesis .lifecycle w.node.lifecycle.state := trivial
  refine ⟨h.intact.wrote hothers hok hfile, ?_, ?_, ?_, ?_, ?_,
    fun f => hothers.present hfile f (h.present f), ?_⟩
  · rw [hnode]
    exact h.manifests.of_lookup_eq (hothers _ (by decide))
  · rw [hnode]
    exact h.listed
  · rw [hnode]
    exact h.replayed
  · rw [hnode]
    rcases hfile with hsame | hnew
    · exact ⟨state, hstate.of_lookup_eq hsame, hfloor, hle⟩
    · exact ⟨_, hnew, hfloor.trans (Nat.succ_le_succ hle), le_refl _⟩
  · rw [hnode]
    exact h.started
  · rw [hnode]
    exact h.shown

/-- The memory may change with a lifecycle that goes on. -/
theorem Tracks.node (h : Tracks x k genesis b ahead w) {s : NodeState}
    (hmanifests : s.manifests = w.node.manifests) (hmembership : s.membership = w.node.membership)
    (hlater : w.node.lifecycle.Later s.lifecycle)
    (hshown : s.lifecycle.state.isStateVerified → b.shown) :
    Tracks x k genesis b ahead { w with node := s } := by
  obtain ⟨state, hstate, hfloor, hle⟩ := h.lifecycle
  refine ⟨h.intact, ?_, ?_, ?_, ⟨state, hstate, hfloor, hle.trans hlater.rank_le⟩,
    h.started.trans hlater.rank_le, h.present, hshown⟩
  · rw [hmanifests]
    exact h.manifests
  · rw [hmanifests]
    exact h.listed
  · rw [hmanifests, hmembership]
    exact h.replayed

/-- A manifest that is accepted goes on file first. -/
theorem Tracks.appended (h : Tracks x k genesis b [] w) {manifest : MembershipManifestV1}
    {candidate : MembershipVerifier}
    (haccept : accept x manifest w.node.membership = .ok () candidate)
    (hlisted : b.listed (w.node.manifests ++ [manifest])) (hnode : w'.node = w.node)
    (hothers : OthersSame .membershipManifests w.disk.files w'.disk.files)
    (hfile : Holds k .membershipManifests (w.node.manifests ++ [manifest]) w'.disk.files) :
    Tracks x k genesis b [manifest] w' := by
  obtain ⟨state, hstate, hfloor, hle⟩ := h.lifecycle
  have hreplay : replay (accept x) (w.node.manifests ++ [manifest]) genesis = .ok () candidate :=
    replay_append_ok.mpr ⟨_, h.replayed, replay_cons_ok.mpr ⟨_, _, haccept, rfl⟩⟩
  refine ⟨h.intact.wrote hothers ⟨candidate, hreplay⟩ (.inr hfile), ?_, ?_, ?_,
    ⟨state, hstate.of_lookup_eq (hothers _ (by decide)), hfloor, ?_⟩, ?_,
    fun f => hothers.present (.inr hfile) f (h.present f), ?_⟩
  · rw [hnode]
    exact hfile
  · rw [hnode]
    exact hlisted
  · rw [hnode]
    exact h.replayed
  · rw [hnode]
    exact hle
  · rw [hnode]
    exact h.started
  · rw [hnode]
    exact h.shown

/-- And into memory then. -/
theorem Tracks.accepted {manifest : MembershipManifestV1} (h : Tracks x k genesis b [manifest] w)
    {candidate : MembershipVerifier}
    (haccept : accept x manifest w.node.membership = .ok () candidate) :
    Tracks x k genesis b [] { w with node := { w.node with
      manifests := w.node.manifests ++ [manifest]
      membership := candidate } } := by
  refine ⟨h.intact, ?_, ?_, ?_, h.lifecycle, h.started, h.present, h.shown⟩
  · rw [List.append_nil]
    exact h.manifests
  · rw [List.append_nil]
    exact h.listed
  · exact replay_append_ok.mpr ⟨_, h.replayed, replay_cons_ok.mpr ⟨_, _, haccept, rfl⟩⟩

/-! ### Every step keeps track -/

theorem onDisk_tracks {m : EStateM (Stop ε) Disk α}
    (hm : ∀ files, Triple (PeersOnly x k genesis files) m (fun _ => PeersOnly x k genesis files)
      (fun _ => PeersOnly x k genesis files)) :
    Triple (Tracks x k genesis b ahead) (onDisk m) (fun _ => Tracks x k genesis b ahead)
      (fun _ => Tracks x k genesis b ahead) := by
  intro w hw
  have hpost := hm w.disk.files w.disk ⟨hw.intact, .refl _⟩
  unfold onDisk
  cases hd : m w.disk with
  | ok a d =>
    rw [hd] at hpost
    exact hw.peersOnly rfl hpost
  | error e d =>
    rw [hd] at hpost
    exact hw.peersOnly rfl hpost

theorem saveLifecycle_tracks :
    Triple (Tracks x k genesis b ahead) (saveLifecycle k) (fun _ => Tracks x k genesis b ahead)
      (fun _ => Tracks x k genesis b ahead) := by
  intro w hw
  have hpost := save_spec k w.node.lifecycle w.disk.files w.disk rfl
  unfold saveLifecycle onDisk
  cases hd : save k w.node.lifecycle w.disk with
  | ok a d =>
    rw [hd] at hpost
    exact hw.saved rfl hpost.1 (.inr hpost.2)
  | error e d =>
    rw [hd] at hpost
    exact hw.saved rfl hpost.1 (hpost.2.imp_right And.right)

theorem dropFailure_saveLifecycle_tracks :
    Triple (Tracks x k genesis b ahead)
      (dropFailure (saveLifecycle k) : EStateM (Stop ε) World Unit)
      (fun _ => Tracks x k genesis b ahead) (fun _ => Tracks x k genesis b ahead) := by
  refine dropFailure_spec (saveLifecycle_tracks.mono (fun _ h => h) (fun _ _ h => h) ?_)
  intro e w hw
  cases e with
  | ended => exact hw
  | failed e => exact hw

/-- What becomes of the file of manifests when one is appended. -/
theorem appendManifest_tracks {manifest : MembershipManifestV1} {candidate : MembershipVerifier}
    {s : NodeState} (haccept : accept x manifest s.membership = .ok () candidate)
    (hlisted : b.listed (s.manifests ++ [manifest])) :
    Triple (fun w => Tracks x k genesis b [] w ∧ w.node = s) (onDisk (appendManifest k manifest))
      (fun _ w => Tracks x k genesis b [manifest] w ∧ w.node = s)
      (fun e w => Tracks x k genesis b [] w ∨ e.IsEnded ∧ Tracks x k genesis b [manifest] w) := by
  rintro w ⟨hw, hnode⟩
  have happend : Triple (fun d => d.files = w.disk.files) (appendManifest k manifest)
      (fun _ d => Tracks x k genesis b [manifest] { w with disk := d })
      (fun e d => Tracks x k genesis b [] { w with disk := d } ∨
        e.IsEnded ∧ Tracks x k genesis b [manifest] { w with disk := d }) := by
    have hsame {d : Disk} (hd : d.files = w.disk.files) :
        Tracks x k genesis b [] { w with disk := d } :=
      hw.peersOnly rfl ⟨by rw [hd]; exact hw.intact, by rw [hd]; exact .refl _⟩
    refine Triple.bind ((readFile_spec k .membershipManifests w.disk.files).mono (fun _ h => h)
      (fun _ _ h => h) fun e d hd => .inl (hsame hd)) fun manifests => Triple.of_forall fun d₁ h₁ => ?_
    have hfile := h₁.2.unique hw.manifests
    rw [List.append_nil] at hfile
    rw [hfile]
    have hdone {d : Disk} (hothers : OthersSame .membershipManifests w.disk.files d.files)
        (hholds : Holds k .membershipManifests (w.node.manifests ++ [manifest]) d.files) :
        Tracks x k genesis b [manifest] { w with disk := d } := by
      subst hnode
      exact hw.appended haccept hlisted rfl hothers hholds
    refine (writeFile_spec k .membershipManifests _ w.disk.files).mono (fun d hd => hd ▸ h₁.1)
      (fun _ d hd => hdone hd.1 hd.2) fun e d hd => ?_
    refine hd.2.imp (fun hlookup => ?_) fun hended => ⟨hended.1, hdone hd.1 hended.2⟩
    exact hw.peersOnly rfl ⟨hw.intact.unchanged hd.1 hlookup, hd.1.sameCore hlookup⟩
  have hpost := happend w.disk rfl
  unfold onDisk
  cases hd : appendManifest k manifest w.disk with
  | ok a d =>
    rw [hd] at hpost
    exact ⟨hpost, hnode⟩
  | error e d =>
    rw [hd] at hpost
    exact hpost

end Tracking

namespace NodeService

variable {x : Crates} {svc : NodeService x} {k : Codecs} {genesis : MembershipVerifier} {b : Bounds}
  {ahead : List MembershipManifestV1} {ε : Type}

theorem activateIfQuorumOn_tracks (now : UInt64) :
    Triple (Tracks x k genesis b ahead) (svc.activateIfQuorumOn k now : EStateM (Stop ε) World Unit)
      (fun _ => Tracks x k genesis b ahead) (fun _ => Tracks x k genesis b ahead) := by
  unfold activateIfQuorumOn
  refine Triple.bind (Q := fun _ => Tracks x k genesis b ahead) (Triple.get fun _ h => h) fun w₀ => ?_
  refine Triple.bind (Q := fun _ => Tracks x k genesis b ahead)
    (modifyNode_spec fun w hw => hw.node ?_ ?_ (later_activateIfQuorum _ now) ?_) fun _ => ?_
  · exact activateIfQuorum_manifests _ now
  · exact activateIfQuorum_membership _ now
  · rw [isStateVerified_activateIfQuorum]
    exact hw.shown
  split_ifs
  · exact dropFailure_saveLifecycle_tracks
  · exact Triple.pure fun _ h => h

theorem isOnion_of_examine {a : PeerAuthenticator} {hello : PeerHelloV1} {now : UInt64}
    (h : a.examine x hello now = .ok ()) : IsOnion x hello.endpoint := by
  simp only [PeerAuthenticator.examine, except_then_ok] at h
  exact h.2.2.1

theorem admitPeerOn_tracks (hello : PeerHelloV1) (now : UInt64) :
    Triple (Tracks x k genesis b ahead) (svc.admitPeerOn k hello now)
      (fun _ => Tracks x k genesis b ahead) (fun _ => Tracks x k genesis b ahead) := by
  unfold admitPeerOn
  refine Triple.bind (Q := fun _ => Tracks x k genesis b ahead)
    (checkFailed_spec (fun _ _ h _ => h) fun _ _ h _ => h) fun _ => ?_
  refine Triple.bind (Q := fun peer w => Tracks x k genesis b ahead w ∧ IsOnion x peer.endpoint)
    (fun w hw => ?_) fun peer => Triple.of_forall fun w₀ h₀ => ?_
  · unfold onNode authenticate
    cases hauth : svc.authenticator.authenticate x w.node.membership hello now w.node.challenges with
    | ok peer c =>
      obtain ⟨hexamine, _, rfl⟩ := authenticate_ok hauth
      exact ⟨hw.node rfl rfl (.refl _) hw.shown, isOnion_of_examine hexamine⟩
    | error e c => exact hw.node rfl rfl (.refl _) hw.shown
  refine Triple.bind ((onDisk_tracks fun _ => upsertFiles_peersOnly h₀.2).mono
    (fun w hw => hw ▸ h₀.1) (fun _ _ h => h) fun _ _ h => h) fun _ => ?_
  refine Triple.bind (onDisk_tracks fun _ => recordFiles_peersOnly _ _ now) fun _ => ?_
  refine Triple.bind (Q := fun _ => Tracks x k genesis b ahead)
    (modifyNode_spec fun w hw => hw.node rfl rfl (.refl _) hw.shown) fun _ => ?_
  refine Triple.bind (Q := fun _ => Tracks x k genesis b ahead)
    (modifyNode_spec fun w hw => hw.node rfl rfl (later_afterAuthentication _ _) ?_) fun _ => ?_
  · show (afterAuthentication _ _).state.isStateVerified → _
    rw [isStateVerified_afterAuthentication]
    exact hw.shown
  refine Triple.bind dropFailure_saveLifecycle_tracks fun _ => ?_
  exact activateIfQuorumOn_tracks now

/-- While a manifest is accepted, it is in place, or on file alone, or nowhere. -/
theorem acceptMembershipOn_tracks {manifest : MembershipManifestV1} {now : UInt64}
    {manifests : List MembershipManifestV1} (hlisted : b.listed (manifests ++ [manifest])) :
    Triple (fun w => Tracks x k genesis b [] w ∧ w.node.manifests = manifests)
      (svc.acceptMembershipOn k manifest now) (fun _ => Tracks x k genesis b [])
      (fun e w => Tracks x k genesis b [] w ∨ e.IsEnded ∧ Tracks x k genesis b [manifest] w) := by
  refine Triple.of_forall fun w₀ h₀ => ?_
  obtain ⟨hw₀, rfl⟩ := h₀
  unfold acceptMembershipOn
  refine Triple.bind_eq (a := w₀) (Q := fun w => w = w₀) (Triple.get fun w hw => ⟨hw, hw⟩) ?_
  split_ifs with hknown
  · exact Triple.pure fun w hw => hw ▸ hw₀
  refine Triple.bind (Q := fun candidate w =>
      accept x manifest w₀.node.membership = .ok () candidate ∧ w = w₀)
    (checkFailed_spec (fun w candidate hw hok => ⟨candidateOf_ok.mp hok, hw⟩)
      fun w e hw _ => .inl (hw ▸ hw₀)) fun candidate => Triple.of_forall fun w₁ h₁ => ?_
  obtain ⟨haccept, rfl⟩ := h₁
  refine Triple.bind (Q := fun _ w => Tracks x k genesis b [manifest] w ∧ w.node = w₁.node)
    (failWith_spec ((appendManifest_tracks haccept hlisted).mono (fun w hw => ⟨hw ▸ hw₀, by rw [hw]⟩)
      (fun _ _ h => h) fun e w hw => ?_)) fun _ => ?_
  · cases e with
    | ended => exact hw
    | failed e => exact hw
  refine Triple.bind (Q := fun _ => Tracks x k genesis b [])
    (modifyNode_spec fun w hw => hw.1.accepted (hw.2 ▸ haccept)) fun _ => ?_
  exact (activateIfQuorumOn_tracks now).mono (fun _ h => h) (fun _ _ h => h) fun _ _ h => .inl h

theorem verifyStateSnapshotOn_tracks {snapshot : StateSnapshot} {now : UInt64}
    (hshown : snapshot.verify x.toCrypto = .ok () → b.shown) :
    Triple (Tracks x k genesis b ahead) (svc.verifyStateSnapshotOn k snapshot now)
      (fun _ => Tracks x k genesis b ahead) (fun _ => Tracks x k genesis b ahead) := by
  unfold verifyStateSnapshotOn
  refine Triple.bind (Q := fun _ w => b.shown ∧ Tracks x k genesis b ahead w)
    (checkFailed_spec (fun w _ hw hok => ⟨hshown hok, hw⟩) fun _ _ h _ => h) fun _ =>
      Triple.of_forall fun w₀ h₀ => ?_
  obtain ⟨hb, hw₀⟩ := h₀
  have hadvance (target : LifecycleState) :
      Triple (Tracks x k genesis b ahead) (onNode (advance target))
        (fun _ => Tracks x k genesis b ahead) (fun _ => Tracks x k genesis b ahead) := by
    intro w hw
    simp only [onNode, advance, bind_def, get_def]
    cases hl : w.node.lifecycle.advance target with
    | error e => exact hw
    | ok l => exact hw.node rfl rfl (Lifecycle.later_of_advance hl) fun _ => hb
  refine Triple.bind (Q := fun _ => Tracks x k genesis b ahead)
    (Triple.get fun w hw => hw ▸ hw₀) fun w₁ => ?_
  refine Triple.bind (Q := fun _ => Tracks x k genesis b ahead)
    (checkFailed_spec (fun _ _ h _ => h) fun _ _ h _ => h) fun _ => ?_
  refine Triple.bind (hadvance .stateVerified) fun _ => ?_
  refine Triple.bind (hadvance .eligible) fun _ => ?_
  refine Triple.bind saveLifecycle_tracks fun _ => ?_
  exact activateIfQuorumOn_tracks now

/-- **Every request keeps track.** -/
theorem serve_tracks {r : Request} {manifests : List MembershipManifestV1}
    (hlisted : ∀ manifest, r.manifest? = some manifest → b.listed (manifests ++ [manifest]))
    (hshown : ∀ snapshot, r.snapshot? = some snapshot → snapshot.verify x.toCrypto = .ok () →
      b.shown) :
    Triple (fun w => Tracks x k genesis b [] w ∧ w.node.manifests = manifests) (svc.serve k r)
      (fun _ => Tracks x k genesis b [])
      (fun e w => Tracks x k genesis b [] w ∨
        e.IsEnded ∧ ∃ manifest, Tracks x k genesis b [manifest] w) := by
  have hkeeps {ε : Type} {m : EStateM (Stop ε) World Unit}
      (hm : Triple (Tracks x k genesis b []) m (fun _ => Tracks x k genesis b [])
        (fun _ => Tracks x k genesis b [])) :
      Triple (fun w => Tracks x k genesis b [] w ∧ w.node.manifests = manifests)
        (failWith (fun _ => ()) m) (fun _ => Tracks x k genesis b [])
        (fun e w => Tracks x k genesis b [] w ∨
          e.IsEnded ∧ ∃ manifest, Tracks x k genesis b [manifest] w) := by
    refine failWith_spec (hm.mono (fun _ h => h.1) (fun _ _ h => h) fun e w hw => ?_)
    cases e with
    | ended => exact .inl hw
    | failed e => exact .inl hw
  cases r with
  | issueChallenge bytes now => exact fun w hw => hw.1.node rfl rfl (.refl _) hw.1.shown
  | readiness now => exact fun w hw => hw.1.node rfl rfl (.refl _) hw.1.shown
  | observePeer hello now => exact hkeeps (admitPeerOn_tracks hello now)
  | exchangeHello request now => exact hkeeps (admitPeerOn_tracks request.hello now)
  | acceptMembership manifest now =>
    refine failWith_spec ((acceptMembershipOn_tracks (hlisted manifest rfl)).mono (fun _ h => h)
      (fun _ _ h => h) fun e w hw => ?_)
    cases e with
    | ended => exact hw.imp_right fun h => ⟨h.1, manifest, h.2⟩
    | failed e => exact .inl (hw.resolve_right And.left)
  | verifyStateSnapshot snapshot now =>
    exact hkeeps (verifyStateSnapshotOn_tracks (hshown snapshot rfl))

end NodeService

/-! ### Starting from the files -/

/-- What the files of a process that has ended say. -/
structure Kept (x : Crates) (k : Codecs) (genesis : MembershipVerifier) (b : Bounds)
    (files : Files) : Prop where
  intact : Intact x k genesis files
  manifests : (∃ manifests, Holds k .membershipManifests manifests files ∧ b.listed manifests) ∨
    files.lookup FileName.membershipManifests.path = none ∧ b.listed []
  lifecycle : (∃ state, Holds k .lifecycle state files ∧ b.floor ≤ state.rank + 1 ∧
      (state.isStateVerified → b.shown)) ∨
    files.lookup FileName.lifecycle.path = none ∧ b.floor = 0

theorem LifecycleState.isStateVerified_of_rank_le {s t : LifecycleState} (h : s.rank ≤ t.rank)
    (hs : s.isStateVerified = true) : t.isStateVerified = true := by
  revert h hs
  cases s <;> cases t <;> decide

section Boot
variable {x : Crates} {k : Codecs} {genesis : MembershipVerifier} {b : Bounds} {files : Files}
  {ahead : List MembershipManifestV1} {w : World} {cfg : Config} {found : Found x}

/-- What is known of files and memory does not depend on the operations to come. -/
theorem Tracks.sameFiles {s : NodeState} {d d' : Disk} (h : Tracks x k genesis b ahead ⟨s, d⟩)
    (hfiles : d'.files = d.files) : Tracks x k genesis b ahead ⟨s, d'⟩ := by
  obtain ⟨files, attempts⟩ := d
  obtain ⟨files', attempts'⟩ := d'
  obtain rfl : files' = files := hfiles
  exact ⟨h.intact, h.manifests, h.listed, h.replayed, h.lifecycle, h.started, h.present, h.shown⟩

theorem Tracks.kept (h : Tracks x k genesis b ahead w) : Kept x k genesis b w.disk.files := by
  obtain ⟨state, hstate, hfloor, hle⟩ := h.lifecycle
  refine ⟨h.intact, .inl ⟨_, h.manifests, h.listed⟩, .inl ⟨state, hstate, hfloor, fun hverified => ?_⟩⟩
  exact h.shown (LifecycleState.isStateVerified_of_rank_le hle hverified)

theorem Kept.sameCore {files' : Files} (h : Kept x k genesis b files)
    (hintact : Intact x k genesis files') (hcore : SameCore files files') :
    Kept x k genesis b files' := by
  refine ⟨hintact, h.manifests.imp (fun hheld => ?_) fun habsent => ?_,
    h.lifecycle.imp (fun hheld => ?_) fun habsent => ?_⟩
  · obtain ⟨manifests, hholds, hlisted⟩ := hheld
    exact ⟨manifests, hholds.of_lookup_eq hcore.manifests, hlisted⟩
  · exact ⟨hcore.manifests.trans habsent.1, habsent.2⟩
  · obtain ⟨state, hholds, hrest⟩ := hheld
    exact ⟨state, hholds.of_lookup_eq hcore.lifecycle, hrest⟩
  · exact ⟨hcore.lifecycle.trans habsent.1, habsent.2⟩

theorem ensureFile_peersOnly {f : FileName} {empty : f.Value}
    (hmanifests : f ≠ .membershipManifests) (hlifecycle : f ≠ .lifecycle)
    (hok : ValueOk x genesis f empty) :
    Triple (PeersOnly x k genesis files) (ensureFile k f empty)
      (fun _ => PeersOnly x k genesis files) (fun _ => PeersOnly x k genesis files) := by
  unfold ensureFile
  refine Triple.bind (Q := fun _ => PeersOnly x k genesis files) (Triple.get fun _ h => h) fun d => ?_
  split_ifs
  · exact writeFile_peersOnly hmanifests hlifecycle hok
  · exact Triple.pure fun _ h => h

/-- The file of manifests is made when there is none. -/
theorem ensureManifests_kept :
    Triple (fun d => Kept x k genesis b d.files) (ensureFile k .membershipManifests [])
      (fun _ d => Kept x k genesis b d.files) (fun _ d => Kept x k genesis b d.files) := by
  refine Triple.of_forall fun d₀ h₀ => ?_
  unfold ensureFile
  refine Triple.bind_eq (a := d₀) (Q := fun d => d = d₀) (Triple.get fun d hd => ⟨hd, hd⟩) ?_
  split_ifs with habsent
  · have hok : ValueOk x genesis .membershipManifests [] := ⟨genesis, rfl⟩
    have hlisted : b.listed [] := by
      rcases h₀.manifests with ⟨_, ⟨bytes, hbytes, _⟩, _⟩ | hnone
      · rw [habsent] at hbytes
        cases hbytes
      · exact hnone.2
    have hmade {d : Disk} (hothers : OthersSame .membershipManifests d₀.files d.files)
        (hholds : Holds k .membershipManifests [] d.files) : Kept x k genesis b d.files := by
      refine ⟨h₀.intact.wrote hothers hok (.inr hholds), .inl ⟨[], hholds, hlisted⟩, ?_⟩
      have hsame := hothers .lifecycle (by decide)
      refine h₀.lifecycle.imp (fun hheld => ?_) fun hnone => ⟨hsame.trans hnone.1, hnone.2⟩
      obtain ⟨state, hstate, hrest⟩ := hheld
      exact ⟨state, hstate.of_lookup_eq hsame, hrest⟩
    refine (writeFile_spec k .membershipManifests [] d₀.files).mono (fun d hd => by rw [hd])
      (fun _ d hd => hmade hd.1 hd.2) fun e d hd => ?_
    rcases hd.2 with hsame | hended
    · exact h₀.sameCore (h₀.intact.unchanged hd.1 hsame) (hd.1.sameCore hsame)
    · exact hmade hd.1 hended.2
  · exact Triple.pure fun d hd => hd ▸ h₀

theorem openStore_kept :
    Triple (fun d => Kept x k genesis b d.files) (openStore k)
      (fun _ d => Kept x k genesis b d.files) (fun _ d => Kept x k genesis b d.files) := by
  refine Triple.of_forall fun d₀ h₀ => ?_
  have hkept {d : Disk} (hd : PeersOnly x k genesis d₀.files d) : Kept x k genesis b d.files :=
    h₀.sameCore hd.1 hd.2
  unfold openStore
  have hpeers : ValueOk x genesis .peers [] := fun _ h => absurd h List.not_mem_nil
  refine Triple.bind (Q := fun _ => PeersOnly x k genesis d₀.files)
    ((ensureFile_peersOnly (by decide) (by decide) hpeers).mono
      (fun d hd => by rw [hd]; exact ⟨h₀.intact, .refl _⟩) (fun _ _ h => h) fun _ _ h => hkept h) fun _ => ?_
  refine Triple.bind (Q := fun _ => PeersOnly x k genesis d₀.files)
    ((ensureFile_peersOnly (f := .endpoints) (by decide) (by decide) trivial).mono
      (fun _ h => h) (fun _ _ h => h) fun _ _ h => hkept h) fun _ => ?_
  have hok : ValueOk x genesis .successfulConnections [] := fun _ h => absurd h List.not_mem_nil
  refine Triple.bind (Q := fun _ => PeersOnly x k genesis d₀.files)
    ((ensureFile_peersOnly (by decide) (by decide) hok).mono
      (fun _ h => h) (fun _ _ h => h) fun _ _ h => hkept h) fun _ => ?_
  exact ensureManifests_kept.mono (fun _ h => hkept h) (fun _ _ h => h) fun _ _ h => h

/-- A file that is there stays as it is; one that is made is written whole. -/
theorem ensureFile_spec (k : Codecs) (f : FileName) (empty : f.Value) (files : Files) :
    Triple (fun d => d.files = files) (ensureFile k f empty)
      (fun _ d => (files.lookup f.path ≠ none ∧ d.files = files) ∨
        (files.lookup f.path = none ∧ OthersSame f files d.files ∧ Holds k f empty d.files))
      (fun _ _ => True) := by
  refine Triple.of_forall fun d₀ h₀ => ?_
  unfold ensureFile
  refine Triple.bind_eq (a := d₀) (Q := fun d => d = d₀) (Triple.get fun d hd => ⟨hd, hd⟩) ?_
  rw [← h₀]
  split_ifs with habsent
  · exact (writeFile_spec k f empty d₀.files).mono (fun d hd => by rw [hd])
      (fun _ d hd => .inr ⟨habsent, hd⟩) fun _ _ _ => trivial
  · exact Triple.pure fun d hd => .inl ⟨habsent, by rw [hd]⟩

theorem ensureFile_present {f : FileName} {empty : f.Value} (others : List FileName) :
    Triple (fun d => ∀ g ∈ others, d.files.lookup g.path ≠ none) (ensureFile k f empty)
      (fun _ d => ∀ g ∈ f :: others, d.files.lookup g.path ≠ none) (fun _ _ => True) := by
  refine Triple.of_forall fun d₀ h₀ => (ensureFile_spec k f empty d₀.files).mono
    (fun d hd => by rw [hd]) (fun _ d hd => List.forall_mem_cons.mpr ?_) fun _ _ h => h
  rcases hd with ⟨hthere, hd⟩ | ⟨_, hothers, hholds⟩
  · rw [hd]
    exact ⟨hthere, h₀⟩
  · exact ⟨hholds.present, fun g hg => hothers.present (.inr hholds) g (h₀ g hg)⟩

/-- All files of the store are there when it is open. -/
theorem openStore_present :
    Triple (fun _ => True) (openStore k)
      (fun _ d => ∀ f : FileName, f ≠ .lifecycle → d.files.lookup f.path ≠ none)
      (fun _ _ => True) := by
  refine Triple.bind ((ensureFile_present []).mono (fun _ _ _ h => absurd h List.not_mem_nil)
    (fun _ _ h => h) fun _ _ h => h) fun _ => ?_
  refine Triple.bind (ensureFile_present _) fun _ => ?_
  refine Triple.bind (ensureFile_present _) fun _ => ?_
  refine (ensureFile_present _).mono (fun _ h => h) (fun _ d h f hf => h f ?_) fun _ _ h => h
  cases f with
  | lifecycle => exact absurd rfl hf
  | peers | endpoints | successfulConnections | membershipManifests => decide

/-- The manifests of a file that is kept are listed. -/
theorem Kept.listed {manifests : List MembershipManifestV1} (h : Kept x k genesis b files)
    (hmanifests : Holds k .membershipManifests manifests files) : b.listed manifests := by
  rcases h.manifests with ⟨_, hheld, hlisted⟩ | ⟨hnone, _⟩
  · rw [hmanifests.unique hheld]
    exact hlisted
  · obtain ⟨bytes, hbytes, _⟩ := hmanifests
    rw [hnone] at hbytes
    cases hbytes

/-- The lifecycle file may be written over, or may fail to be. -/
theorem Kept.lifecycleSaved {manifests : List MembershipManifestV1} {state : LifecycleState}
    {files' : Files} (h : Kept x k genesis b files)
    (hmanifests : Holds k .membershipManifests manifests files)
    (hfloor : b.floor ≤ state.rank + 1) (hshown : state.isStateVerified → b.shown)
    (hothers : OthersSame .lifecycle files files')
    (hlifecycle : files'.lookup FileName.lifecycle.path = files.lookup FileName.lifecycle.path ∨
      Holds k .lifecycle state files') : Kept x k genesis b files' := by
  have hok : ValueOk x genesis .lifecycle state := trivial
  rcases hlifecycle with hsame | hholds
  · exact h.sameCore (h.intact.unchanged hothers hsame) (hothers.sameCore hsame)
  · exact ⟨h.intact.wrote hothers hok (.inr hholds),
      .inl ⟨manifests, hmanifests.of_lookup_eq (hothers _ (by decide)), h.listed hmanifests⟩,
      .inl ⟨_, hholds, hfloor, hshown⟩⟩

/-- What `load` finds is what is there. -/
theorem lifecycleFile_spec (files : Files) :
    Triple (fun d => d.files = files) (lifecycleFile k)
      (fun file d => d.files = files ∧ ∀ l, file.load = .ok l →
        files.lookup FileName.lifecycle.path = none ∧ l = .ofState .created ∨
        ∃ state, Holds k .lifecycle state files ∧ l = .ofState state)
      (fun _ d => d.files = files) := by
  intro d hd
  have hread := read_spec FileName.lifecycle.path files d hd
  unfold lifecycleFile
  subst hd
  split_ifs with habsent
  · refine ⟨rfl, fun l hl => .inl ⟨habsent, ?_⟩⟩
    cases hl
    rfl
  · cases hr : read FileName.lifecycle.path d with
    | error e d' =>
      rw [hr] at hread
      cases e with
      | ended => exact hread
      | failed message => exact ⟨hread, fun l hl => by cases hl⟩
    | ok bytes d' =>
      rw [hr] at hread
      cases hparse : (k .lifecycle).fromSlice bytes with
      | error message =>
        simp only [hparse]
        exact ⟨hread.1, fun l hl => by cases hl⟩
      | ok state =>
        simp only [hparse]
        refine ⟨hread.1, fun l hl => .inr ⟨state, ⟨bytes, hread.2, hparse⟩, ?_⟩⟩
        cases hl
        rfl

/-- What the lifecycle of a process that starts owes to the file. -/
theorem lifecycle_of_new {identity : NodeIdentity x} {membership : MembershipVerifier}
    {manifests : List MembershipManifestV1} {file : LifecycleFile} {svc : NodeService x}
    {start : NodeState} (h : Kept x k genesis b files)
    (hfile : ∀ l, file.load = .ok l →
      files.lookup FileName.lifecycle.path = none ∧ l = .ofState .created ∨
      ∃ state, Holds k .lifecycle state files ∧ l = .ofState state)
    (hnew : NodeService.new identity cfg.endpoint cfg.plane membership manifests file (.ok ())
      cfg.challengeTtlMs cfg.peerLiveWindowMs = .ok (svc, start)) :
    LifecycleState.discovering.rank ≤ start.lifecycle.state.rank ∧
      b.floor ≤ start.lifecycle.state.rank + 1 ∧
      (start.lifecycle.state.isStateVerified → b.shown) := by
  obtain ⟨⟨l, hload, hlater, hstate⟩, _, _, _⟩ := NodeService.new_ok hnew
  have hstarted : LifecycleState.discovering.rank ≤ start.lifecycle.state.rank := by
    rw [hstate]
    cases l.state <;> decide
  refine ⟨hstarted, ?_⟩
  have hverified : start.lifecycle.state.isStateVerified → l.state.isStateVerified := by
    rw [hstate]
    cases l.state <;> decide
  rcases hfile l hload with ⟨habsent, rfl⟩ | ⟨state, hstate', rfl⟩
  · rcases h.lifecycle with ⟨_, ⟨bytes, hbytes, _⟩, _⟩ | hnone
    · rw [habsent] at hbytes
      cases hbytes
    · exact ⟨hnone.2 ▸ Nat.zero_le _, fun hstart => absurd (hverified hstart) (by decide)⟩
  · rcases h.lifecycle with ⟨state', hheld, hfloor, hshown⟩ | hnone
    · rw [hheld.unique hstate'] at hfloor hshown
      exact ⟨hfloor.trans (Nat.succ_le_succ hlater.rank_le), fun hstart => hshown (hverified hstart)⟩
    · obtain ⟨bytes, hbytes, _⟩ := hstate'
      rw [hnone.1] at hbytes
      cases hbytes

theorem NodeService.new_manifests {identity : NodeIdentity x} {endpoint : String}
    {plane : DiscoveryPlane} {membership : MembershipVerifier}
    {manifests : List MembershipManifestV1} {file : LifecycleFile} {saved : Except SyncError Unit}
    {challengeTtlMs window : UInt64} {svc : NodeService x} {start : NodeState}
    (h : NodeService.new identity endpoint plane membership manifests file saved challengeTtlMs
      window = .ok (svc, start)) : start.manifests = manifests := by
  simp only [NodeService.new, except_bind_ok] at h
  obtain ⟨_, _, _, _, _, _, _, _, hstart⟩ := h
  rw [← (Prod.mk.inj (Except.ok.inj hstart)).2]

/-- A service that is there goes with its files; if there is none they have been kept. -/
theorem openService_spec
    (hgenesis : MembershipVerifier.new x cfg.bundle cfg.plane = .ok genesis) :
    Triple (fun d => Kept x k genesis b d.files) (openService k cfg found)
      (fun started d => Tracks x k genesis b [] ⟨started.2, d⟩)
      (fun _ d => Kept x k genesis b d.files) := by
  unfold openService
  refine Triple.bind (checkFailed_spec (fun _ _ h _ => h) fun _ _ h _ => h) fun _ => ?_
  refine Triple.bind (checkFailed_spec (fun _ _ h _ => h) fun _ _ h _ => h) fun _ => ?_
  refine Triple.bind (Q := fun _ d => Kept x k genesis b d.files ∧
      ∀ f : FileName, f ≠ .lifecycle → d.files.lookup f.path ≠ none)
    (failWith_always ((openStore_kept.and openStore_present).mono (fun _ h => ⟨h, trivial⟩)
      (fun _ _ h => h) fun _ _ h => h.1)) fun _ => Triple.of_forall fun d₀ h₀ => ?_
  obtain ⟨h₀, hpresent⟩ := h₀
  have hkept {d : Disk} (hd : d.files = d₀.files) : Kept x k genesis b d.files := hd ▸ h₀
  refine Triple.bind (Q := fun manifests d => Holds k .membershipManifests manifests d₀.files ∧
      d.files = d₀.files)
    (failWith_always ((readFile_spec k .membershipManifests d₀.files).mono (fun d hd => by rw [hd])
      (fun _ _ h => ⟨h.2, h.1⟩) fun _ _ h => hkept h)) fun manifests =>
        Triple.of_forall fun d₁ h₁ => ?_
  obtain ⟨hmanifests, hd₁⟩ := h₁
  refine Triple.bind (Q := fun membership d =>
      replay (accept x) manifests genesis = .ok () membership ∧ d.files = d₀.files)
    (checkFailed_spec (fun d membership hd hok => ⟨?_, hd ▸ hd₁⟩) fun d _ hd _ => hkept (hd ▸ hd₁))
    fun membership => Triple.of_forall fun d₂ h₂ => ?_
  · obtain ⟨genesis', hgenesis', hreplay⟩ := restore_ok.mp ((mapError_eq_ok _).mp hok)
    rw [hgenesis] at hgenesis'
    cases hgenesis'
    exact hreplay
  obtain ⟨hreplay, hd₂⟩ := h₂
  refine Triple.bind (Q := fun _ d => d.files = d₀.files)
    (checkFailed_spec (fun _ _ hd _ => hd ▸ hd₂) fun _ _ hd _ => hkept (hd ▸ hd₂)) fun identity => ?_
  refine Triple.bind ((lifecycleFile_spec d₀.files).mono (fun _ h => h) (fun _ _ h => h)
    fun _ d h => hkept h) fun file => Triple.of_forall fun d₃ h₃ => ?_
  obtain ⟨hd₃, hfile⟩ := h₃
  refine Triple.bind (Q := fun started d => NodeService.new identity cfg.endpoint cfg.plane
      membership manifests file (.ok ()) cfg.challengeTtlMs cfg.peerLiveWindowMs = .ok started ∧
      d.files = d₀.files)
    (checkFailed_spec (fun d started hd hok => ⟨(mapError_eq_ok _).mp hok, hd ▸ hd₃⟩)
      fun d _ hd _ => hkept (hd ▸ hd₃)) fun started => Triple.of_forall fun d₄ h₄ => ?_
  obtain ⟨svc, start⟩ := started
  obtain ⟨hnew, hd₄⟩ := h₄
  obtain ⟨hstarted, hfloor, hshown⟩ := lifecycle_of_new h₀ hfile hnew
  have hok : ValueOk x genesis .lifecycle start.lifecycle.state := trivial
  refine Triple.bind (Q := fun _ d => Tracks x k genesis b [] ⟨start, d⟩)
    (failWith_always ((save_spec k start.lifecycle d₀.files).mono (fun d hd => hd ▸ hd₄)
      (fun _ d hd => ?_) fun e d hd => ?_)) fun _ => Triple.pure fun _ h => h
  · refine ⟨h₀.intact.wrote hd.1 hok (.inr hd.2), ?_, ?_, ?_, ⟨_, hd.2, hfloor, le_refl _⟩,
      hstarted, fun f => ?_, hshown⟩
    · rw [NodeService.new_manifests hnew, List.append_nil]
      exact hmanifests.of_lookup_eq (hd.1 _ (by decide))
    · rw [NodeService.new_manifests hnew, List.append_nil]
      exact h₀.listed hmanifests
    · rw [NodeService.new_manifests hnew, (NodeService.new_ok hnew).2.1]
      exact hreplay
    · by_cases hf : f = .lifecycle
      · rw [hf]
        exact hd.2.present
      · exact hd.1.present (.inr hd.2) f (hpresent f hf)
  · exact h₀.lifecycleSaved hmanifests hfloor hshown hd.1 (hd.2.imp_right And.right)

/-- The program looks for others: endpoints are configured, or a peer of the plane is on
file. -/
def Outgoing (k : Codecs) (cfg : Config) (files : Files) : Prop :=
  cfg.discovery.genesisEndpoints ≠ [] ∨ cfg.discovery.mirrors ≠ [] ∨
    ∃ peers, Holds k .peers peers files ∧ ∃ peer ∈ peers, peer.plane = cfg.plane

/-- The files have the same peers. -/
def KeepsPeers (k : Codecs) (files files' : Files) : Prop :=
  ∀ peers, peers ≠ [] → (Holds k .peers peers files' ↔ Holds k .peers peers files)

theorem KeepsPeers.refl : KeepsPeers k files files := fun _ _ => .rfl

theorem KeepsPeers.trans {files' files'' : Files} (h : KeepsPeers k files files')
    (h' : KeepsPeers k files' files'') : KeepsPeers k files files'' :=
  fun peers hpeers => (h' peers hpeers).trans (h peers hpeers)

theorem KeepsPeers.of_othersSame {f : FileName} {files' : Files} (hf : f ≠ .peers)
    (h : OthersSame f files files') : KeepsPeers k files files' := by
  intro peers _
  have hsame := h .peers hf.symm
  exact ⟨fun hheld => hheld.of_lookup_eq hsame.symm, fun hheld => hheld.of_lookup_eq hsame⟩

theorem KeepsPeers.outgoing {files' : Files} (h : KeepsPeers k files files') :
    Outgoing k cfg files' ↔ Outgoing k cfg files := by
  refine or_congr_right (or_congr_right (exists_congr fun peers => ?_))
  refine and_congr_left fun hpeer => h peers ?_
  obtain ⟨peer, hmem, _⟩ := hpeer
  exact List.ne_nil_of_mem hmem

/-- A file of peers that is made where there was none is empty. -/
theorem ensurePeers_keeps :
    Triple (fun d => KeepsPeers k files d.files) (ensureFile k .peers [])
      (fun _ d => KeepsPeers k files d.files) (fun _ _ => True) := by
  refine Triple.of_forall fun d₀ h₀ => (ensureFile_spec k .peers [] d₀.files).mono
    (fun d hd => by rw [hd]) (fun _ d hd => ?_) fun _ _ h => h
  rcases hd with ⟨_, hd⟩ | ⟨habsent, _, hempty⟩
  · rw [hd]
    exact h₀
  · refine h₀.trans fun peers hpeers => iff_of_false ?_ ?_
    · exact fun hheld => hpeers (hheld.unique hempty)
    · intro hheld
      obtain ⟨bytes, hbytes, _⟩ := hheld
      rw [habsent] at hbytes
      cases hbytes

theorem ensureFile_keeps {f : FileName} {empty : f.Value} (hf : f ≠ .peers) :
    Triple (fun d => KeepsPeers k files d.files) (ensureFile k f empty)
      (fun _ d => KeepsPeers k files d.files) (fun _ _ => True) := by
  refine Triple.of_forall fun d₀ h₀ => (ensureFile_spec k f empty d₀.files).mono
    (fun d hd => by rw [hd]) (fun _ d hd => h₀.trans ?_) fun _ _ h => h
  rcases hd with ⟨_, hd⟩ | ⟨_, hothers, _⟩
  · rw [hd]
    exact .refl
  · exact .of_othersSame hf hothers

theorem openStore_keeps :
    Triple (fun d => KeepsPeers k files d.files) (openStore k)
      (fun _ d => KeepsPeers k files d.files) (fun _ _ => True) := by
  refine Triple.bind ensurePeers_keeps fun _ => ?_
  refine Triple.bind (ensureFile_keeps (by decide)) fun _ => ?_
  refine Triple.bind (ensureFile_keeps (by decide)) fun _ => ?_
  exact ensureFile_keeps (by decide)

/-- What a start asks for outside the peer store. -/
structure CanStart (k : Codecs) (cfg : Config) (found : Found x) (files : Files) : Prop where
  network : cfg.bundle.networkId = cfg.networkId
  ledgerDb : found.ledgerDb = .ok ()
  identity : ∃ identity, found.identity = .ok identity
  client : Outgoing k cfg files → cfg.tlsClientIdentity ≠ none ∧ found.client = .ok ()
  tls : found.tls = .ok ()

theorem authenticatedCount_spec (plane : DiscoveryPlane) (files : Files) :
    Triple (fun d => d.files = files) (authenticatedCount k plane)
      (fun count d => d.files = files ∧ ∃ peers, Holds k .peers peers files ∧
        (0 < count ↔ ∃ peer ∈ peers, peer.plane = plane))
      (fun _ d => d.files = files) := by
  refine Triple.bind (readFile_spec k .peers files) fun peers => Triple.pure fun d hd => ?_
  refine ⟨hd.1, peers, hd.2, ?_⟩
  rw [List.length_filter_pos_iff]
  simp only [beq_iff_eq]

theorem discoveryConfigured_spec (files : Files) :
    Triple (fun d => d.files = files) (discoveryConfigured k cfg)
      (fun configured d => d.files = files ∧ (configured = true ↔ Outgoing k cfg files))
      (fun _ d => d.files = files) := by
  unfold discoveryConfigured
  split_ifs with hendpoints
  · exact Triple.pure fun d hd => ⟨hd, iff_of_true rfl (hendpoints.imp_right .inl)⟩
  · refine Triple.bind (failWith_always (authenticatedCount_spec cfg.plane files)) fun count =>
      Triple.pure fun d hd => ?_
    obtain ⟨hfiles, peers, hpeers, hcount⟩ := hd
    refine ⟨hfiles, ?_⟩
    rw [decide_eq_true_iff, hcount]
    constructor
    · exact fun hpeer => .inr (.inr ⟨peers, hpeers, hpeer⟩)
    · rintro (hgenesis | hmirrors | ⟨peers', hpeers', hpeer⟩)
      · exact absurd (.inl hgenesis) hendpoints
      · exact absurd (.inr hmirrors) hendpoints
      · rwa [hpeers.unique hpeers']

theorem outgoingClient_ok :
    outgoingClient cfg found = .ok () ↔ cfg.tlsClientIdentity ≠ none ∧ found.client = .ok () := by
  rw [outgoingClient, except_then_ok, refuse_ok, mapError_eq_ok]

/-- A service that is there has found what it asks for, and the peers are those from before. -/
theorem openService_found (files : Files) :
    Triple (fun d => d.files = files) (openService k cfg found)
      (fun _ d => KeepsPeers k files d.files ∧ cfg.bundle.networkId = cfg.networkId ∧
        found.ledgerDb = .ok () ∧ ∃ identity, found.identity = .ok identity)
      (fun _ _ => True) := by
  unfold openService
  refine Triple.bind (Q := fun _ d => cfg.bundle.networkId = cfg.networkId ∧ d.files = files)
    (checkFailed_spec (fun d _ hd hok => ⟨not_not.mp (refuse_ok.mp hok), hd⟩)
      fun _ _ _ _ => trivial) fun _ => ?_
  refine Triple.bind (Q := fun _ d => cfg.bundle.networkId = cfg.networkId ∧
      found.ledgerDb = .ok () ∧ KeepsPeers k files d.files)
    (checkFailed_spec (fun d _ hd hok => ⟨hd.1, (mapError_eq_ok _).mp hok, hd.2 ▸ .refl⟩)
      fun _ _ _ _ => trivial) fun _ => Triple.of_forall fun d₀ h₀ => ?_
  obtain ⟨hnetwork, hledger, hpeers⟩ := h₀
  refine Triple.bind (Q := fun _ d => KeepsPeers k files d.files)
    (failWith_always (openStore_keeps.mono (fun d hd => hd ▸ hpeers) (fun _ _ h => h)
      fun _ _ h => h)) fun _ => Triple.of_forall fun d₁ hd₁ => ?_
  refine Triple.bind (Q := fun _ d => d.files = d₁.files)
    (failWith_always ((readFile_spec k .membershipManifests d₁.files).mono (fun d hd => by rw [hd])
      (fun _ _ h => h.1) fun _ _ _ => trivial)) fun manifests => ?_
  refine Triple.bind (checkFailed_spec (fun _ _ hd _ => hd) fun _ _ _ _ => trivial) fun membership => ?_
  refine Triple.bind (Q := fun identity d => found.identity = .ok identity ∧ d.files = d₁.files)
    (checkFailed_spec (fun _ _ hd hok => ⟨(mapError_eq_ok _).mp hok, hd⟩) fun _ _ _ _ => trivial)
    fun identity => Triple.of_forall fun d₂ h₂ => ?_
  obtain ⟨hidentity, hd₂⟩ := h₂
  refine Triple.bind (Q := fun _ d => d.files = d₁.files)
    ((lifecycleFile_spec d₁.files).mono (fun d hd => hd ▸ hd₂) (fun _ _ h => h.1)
      fun _ _ _ => trivial) fun file => ?_
  refine Triple.bind (checkFailed_spec (fun _ _ hd _ => hd) fun _ _ _ _ => trivial) fun started => ?_
  refine Triple.bind (Q := fun _ d => KeepsPeers k files d.files)
    (failWith_always ((save_spec k started.2.lifecycle d₁.files).mono (fun _ h => h)
      (fun _ d hd => hd₁.trans (.of_othersSame (by decide) hd.1)) fun _ _ _ => trivial)) fun _ =>
    Triple.pure fun d hd => ⟨hd, hnetwork, hledger, identity, hidentity⟩

/-- A process that starts goes with its files; one that does not has kept them. -/
theorem boot_spec (hgenesis : MembershipVerifier.new x cfg.bundle cfg.plane = .ok genesis) :
    Triple (fun d => Kept x k genesis b d.files) (boot k cfg found)
      (fun started d => Tracks x k genesis b [] ⟨started.2, d⟩)
      (fun _ d => Kept x k genesis b d.files) := by
  refine Triple.bind (openService_spec hgenesis) fun started => Triple.of_forall fun d₀ h₀ => ?_
  have hkept {d : Disk} (hd : d.files = d₀.files) : Kept x k genesis b d.files := hd ▸ h₀.kept
  refine Triple.bind ((discoveryConfigured_spec d₀.files).mono (fun d hd => by rw [hd])
    (fun _ _ h => h.1) fun _ _ hd => hkept hd) fun configured => ?_
  refine Triple.bind (checkFailed_spec (fun _ _ hd _ => hd) fun _ _ hd _ => hkept hd) fun _ => ?_
  refine Triple.bind (checkFailed_spec (fun _ _ hd _ => hd) fun _ _ hd _ => hkept hd) fun _ =>
    Triple.pure fun d hd => h₀.sameFiles hd

end Boot

end Kerosene.Node
