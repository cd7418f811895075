import Kerosene.Lib.Interleave
import Kerosene.Node.CatchUp

/-! Calls of `accept_membership` that run at the same time.

A call compares the manifest with the current one, lets a copy of the verifier accept
it, appends it to the file and writes the copy back, and takes the locks anew for
each of these steps. Two calls can both append before either has written back, and
the file of manifests no longer restores (`same_manifest_twice`). When no manifest is
appended between another call's append and its write-back, or after the membership
has moved on, the file always restores to what is in memory (`restores_of_undisturbed`). -/
namespace Kerosene.Node

open Lib.Inplace Lib.Interleave MembershipVerifier

variable {ι : Type} [DecidableEq ι]

/-! ### Calls step by step -/

/-- The next step of a call. -/
inductive Stage where
  | compare
  | clone
  | append (candidate : MembershipVerifier)
  | write (candidate : MembershipVerifier)
  | finished (result : Except MembershipError Unit)

/-- The membership in memory, the file of manifests, and where every call stands. -/
@[ext] structure Race (ι : Type) where
  membership : MembershipVerifier
  manifests : List MembershipManifestV1
  stage : ι → Stage

/-- No call has begun. -/
def Race.start (membership : MembershipVerifier) (manifests : List MembershipManifestV1) : Race ι :=
  ⟨membership, manifests, fun _ => .compare⟩

def Race.goTo (r : Race ι) (i : ι) (stage : Stage) : Race ι :=
  { r with stage := Function.update r.stage i stage }

@[simp] theorem Race.goTo_stage_self (r : Race ι) (i : ι) (stage : Stage) :
    (r.goTo i stage).stage i = stage := Function.update_self ..

theorem Race.goTo_stage_of_ne (r : Race ι) {i j : ι} (h : j ≠ i) (stage : Stage) :
    (r.goTo i stage).stage j = r.stage j := Function.update_of_ne h ..

/-- A step of a call; `appended` is the result of the file operation if it is an append. -/
structure Move (ι : Type) where
  call : ι
  appended : Except DiscoveryError Unit

section Steps
variable (x : Crates) (manifest : ι → MembershipManifestV1)

def raceStep (move : Move ι) (r : Race ι) : Race ι :=
  let m := manifest move.call
  match r.stage move.call with
  | .compare =>
    if r.membership.currentHash x = some (x.canonicalHash m) then
      r.goTo move.call (.finished (.ok ()))
    else r.goTo move.call .clone
  | .clone =>
    match NodeService.acceptMembership.candidateOf x m r.membership with
    | .ok candidate => r.goTo move.call (.append candidate)
    | .error e => r.goTo move.call (.finished (.error e))
  | .append candidate =>
    match move.appended with
    | .ok () => { r.goTo move.call (.write candidate) with manifests := r.manifests ++ [m] }
    | .error _ => r.goTo move.call (.finished (.error .hashChain))
  | .write candidate =>
    { r.goTo move.call (.finished (.ok ())) with membership := candidate }
  | .finished _ => r

/-- A move that appends finds no other call between its append and its write-back, and
the membership in memory would still accept the manifest. -/
def Undisturbed (r : Race ι) (move : Move ι) : Prop :=
  ∀ candidate, r.stage move.call = .append candidate → move.appended = .ok () →
    (∀ j other, r.stage j ≠ .write other) ∧
      ∃ v, accept x (manifest move.call) r.membership = .ok () v

/-- What a restart would do with the file, against the membership in memory. -/
def Restores (bundle : GenesisTrustBundleV1) (plane : DiscoveryPlane) (r : Race ι) : Prop :=
  ∃ v, restore x bundle plane r.manifests = .ok v ∧ v.current = r.membership.current

end Steps

/-- A call nobody interrupts does what `acceptMembership` does. -/
theorem alone_eq_acceptMembership {x : Crates} (svc : NodeService x)
    (manifest : ι → MembershipManifestV1) (s : NodeState) {r : Race ι} {i : ι}
    (hmembership : r.membership = s.membership) (hmanifests : r.manifests = s.manifests)
    (hstage : r.stage i = .compare) (appended : Except DiscoveryError Unit) (now : UInt64) :
    let r' := follow (raceStep x manifest) (List.replicate 4 ⟨i, appended⟩) r
    let call := svc.acceptMembership (manifest i) appended now
    r'.stage i = .finished (outcome call s) ∧ r'.membership = (after call s).membership ∧
      r'.manifests = (after call s).manifests := by
  simp only [follow, List.replicate, List.foldl_cons, List.foldl_nil, outcome, after,
    NodeService.acceptMembership, bind_def, get_def]
  by_cases hknown : s.membership.currentHash x = some (x.canonicalHash (manifest i))
  · simp [raceStep, hstage, hmembership, hmanifests, hknown, Race.goTo]
  · cases hcandidate : NodeService.acceptMembership.candidateOf x (manifest i) s.membership with
    | error e =>
      simp [raceStep, hstage, hmembership, hmanifests, hknown, hcandidate, Race.goTo, bind_def]
    | ok candidate =>
      cases appended <;> simp [raceStep, hstage, hmembership, hmanifests, hknown, hcandidate,
        Race.goTo, bind_def, Except.mapError]

/-! ### What a step can do -/

section Effects
variable {x : Crates} {manifest : ι → MembershipManifestV1} {r : Race ι} {move : Move ι}

/-- Everything a step can do. -/
inductive RaceEffect (x : Crates) (manifest : ι → MembershipManifestV1) (r : Race ι)
    (move : Move ι) : Race ι → Prop where
  /-- Only the call moves on; if it is to append next, it has accepted the manifest. -/
  | goes (stage : Stage) (hhere : ∀ c, r.stage move.call ≠ .write c)
    (hwrite : ∀ c, stage ≠ .write c)
    (happend : ∀ c, stage = .append c →
      accept x (manifest move.call) r.membership = .ok () c) :
    RaceEffect x manifest r move (r.goTo move.call stage)
  | appends (c : MembershipVerifier) (hhere : r.stage move.call = .append c)
    (hok : move.appended = .ok ()) :
    RaceEffect x manifest r move
      { r.goTo move.call (.write c) with manifests := r.manifests ++ [manifest move.call] }
  | writes (c : MembershipVerifier) (hhere : r.stage move.call = .write c) :
    RaceEffect x manifest r move { r.goTo move.call (.finished (.ok ())) with membership := c }

theorem raceStep_effect (r : Race ι) (move : Move ι) :
    RaceEffect x manifest r move (raceStep x manifest move r) := by
  unfold raceStep
  cases hstage : r.stage move.call with
  | compare =>
    dsimp only
    split_ifs
    · exact .goes _ (by simp [hstage]) (by simp) (by simp)
    · exact .goes _ (by simp [hstage]) (by simp) (by simp)
  | clone =>
    dsimp only
    cases hcandidate : NodeService.acceptMembership.candidateOf x (manifest move.call) r.membership with
    | error e => exact .goes _ (by simp [hstage]) (by simp) (by simp)
    | ok candidate =>
      refine .goes _ (by simp [hstage]) (by simp) fun c hc => ?_
      cases hc
      exact NodeService.candidateOf_ok.mp hcandidate
  | append candidate =>
    dsimp only
    cases happended : move.appended with
    | error e => exact .goes _ (by simp [hstage]) (by simp) (by simp)
    | ok u => exact .appends candidate hstage happended
  | write candidate => exact .writes candidate hstage
  | finished result =>
    have hsame : r.goTo move.call (r.stage move.call) = r := by
      rw [Race.goTo, Function.update_eq_self]
    have heffect : RaceEffect x manifest r move (r.goTo move.call (r.stage move.call)) :=
      .goes _ (by simp [hstage]) (by simp [hstage]) (by simp [hstage])
    rw [hsame] at heffect
    exact heffect

end Effects

/-! ### Undisturbed runs -/

section Runs
variable {x : Crates} {manifest : ι → MembershipManifestV1} {bundle : GenesisTrustBundleV1}
  {plane : DiscoveryPlane} {r : Race ι} {move : Move ι}

theorem restore_append {manifests : List MembershipManifestV1} {m : MembershipManifestV1}
    {v w : MembershipVerifier} (h : restore x bundle plane manifests = .ok v)
    (haccept : accept x m v = .ok () w) : restore x bundle plane (manifests ++ [m]) = .ok w := by
  obtain ⟨genesis, hnew, hreplay⟩ := restore_ok.mp h
  refine restore_ok.mpr ⟨genesis, hnew, ?_⟩
  exact replay_append_ok.mpr ⟨v, hreplay, replay_cons_ok.mpr ⟨(), w, haccept, rfl⟩⟩

/-- The file restores to the membership in memory, or to the one about to be written
back when a call has appended. -/
structure Recorded (x : Crates) (manifest : ι → MembershipManifestV1)
    (bundle : GenesisTrustBundleV1) (plane : DiscoveryPlane) (r : Race ι) : Prop where
  candidates : ∀ j c, r.stage j = .append c ∨ r.stage j = .write c →
    c = { r.membership with current := some (manifest j) }
  settled : (∀ j c, r.stage j ≠ .write c) → restore x bundle plane r.manifests = .ok r.membership
  pending : ∀ j c, r.stage j = .write c → restore x bundle plane r.manifests = .ok c ∧
    ∀ k c', r.stage k = .write c' → k = j

omit [DecidableEq ι] in
theorem recorded_start {manifests : List MembershipManifestV1} {membership : MembershipVerifier}
    (h : restore x bundle plane manifests = .ok membership) :
    Recorded x manifest bundle plane (.start membership manifests) := by
  refine ⟨fun j c hc => ?_, fun _ => h, fun j c hc => ?_⟩
  · rcases hc with hc | hc <;> cases hc
  · cases hc

omit [DecidableEq ι] in
theorem eq_of_accept {m : MembershipManifestV1} {v w : MembershipVerifier}
    (h : accept x m v = .ok () w) : w = { v with current := some m } := (accept_ok.mp h).2.2

theorem Recorded.goes (h : Recorded x manifest bundle plane r) {i : ι} {stage : Stage}
    (hhere : ∀ c, r.stage i ≠ .write c) (hwrite : ∀ c, stage ≠ .write c)
    (happend : ∀ c, stage = .append c → accept x (manifest i) r.membership = .ok () c) :
    Recorded x manifest bundle plane (r.goTo i stage) := by
  have hsame : ∀ j c, (r.goTo i stage).stage j = .write c ↔ r.stage j = .write c := by
    intro j c
    by_cases hj : j = i
    · rw [hj, Race.goTo_stage_self]
      exact iff_of_false (hwrite c) (hhere c)
    · rw [r.goTo_stage_of_ne hj]
  refine ⟨fun j c hc => ?_, fun hquiet => ?_, fun j c hc => ?_⟩
  · by_cases hj : j = i
    · rw [hj, Race.goTo_stage_self] at hc
      rw [hj]
      exact eq_of_accept (happend c (hc.resolve_right (hwrite c)))
    · rw [r.goTo_stage_of_ne hj] at hc
      exact h.candidates j c hc
  · exact h.settled fun j c hc => hquiet j c ((hsame j c).mpr hc)
  · obtain ⟨hrestore, hunique⟩ := h.pending j c ((hsame j c).mp hc)
    exact ⟨hrestore, fun k c' hk => hunique k c' ((hsame k c').mp hk)⟩

theorem Recorded.appends (h : Recorded x manifest bundle plane r) {i : ι} {c : MembershipVerifier}
    (hhere : r.stage i = .append c) (hquiet : ∀ j other, r.stage j ≠ .write other)
    {v : MembershipVerifier} (haccept : accept x (manifest i) r.membership = .ok () v) :
    Recorded x manifest bundle plane
      { r.goTo i (.write c) with manifests := r.manifests ++ [manifest i] } := by
  have hc := h.candidates i c (.inl hhere)
  have hv : v = c := (eq_of_accept haccept).trans hc.symm
  have hrestore := restore_append (h.settled hquiet) (hv ▸ haccept)
  have honly : ∀ j c', (r.goTo i (.write c)).stage j = .write c' → j = i := by
    intro j c' hj
    by_contra hne
    rw [r.goTo_stage_of_ne hne] at hj
    exact hquiet j c' hj
  refine ⟨fun j c' hc' => ?_, fun hnone => ?_, fun j c' hc' => ?_⟩
  · by_cases hj : j = i
    · subst hj
      simp only [Race.goTo_stage_self, reduceCtorEq, false_or, Stage.write.injEq] at hc'
      exact hc'.symm.trans hc
    · dsimp only at hc'
      rw [r.goTo_stage_of_ne hj] at hc'
      exact h.candidates j c' hc'
  · exact absurd (r.goTo_stage_self i _) (hnone i c)
  · have hj := honly j c' hc'
    subst hj
    simp only [Race.goTo_stage_self, Stage.write.injEq] at hc'
    rw [← hc']
    exact ⟨hrestore, fun k other hk => honly k other hk⟩

theorem Recorded.writes (h : Recorded x manifest bundle plane r) {i : ι} {c : MembershipVerifier}
    (hhere : r.stage i = .write c) :
    Recorded x manifest bundle plane
      { r.goTo i (.finished (.ok ())) with membership := c } := by
  have hc := h.candidates i c (.inr hhere)
  obtain ⟨hrestore, hunique⟩ := h.pending i c hhere
  have hnone : ∀ j c', (r.goTo i (.finished (.ok ()))).stage j ≠ .write c' := by
    intro j c' hj
    by_cases hne : j = i
    · rw [hne, Race.goTo_stage_self] at hj
      cases hj
    · rw [r.goTo_stage_of_ne hne] at hj
      exact hne (hunique j c' hj)
  refine ⟨fun j c' hc' => ?_, fun _ => hrestore, fun j c' hc' => absurd hc' (hnone j c')⟩
  have hj : j ≠ i := by
    intro hj
    rw [hj] at hc'
    simp only [Race.goTo_stage_self, reduceCtorEq, or_self] at hc'
  dsimp only at hc'
  rw [r.goTo_stage_of_ne hj] at hc'
  rw [h.candidates j c' hc', hc]

/-- An undisturbed step keeps the record. -/
theorem Recorded.step (h : Recorded x manifest bundle plane r)
    (hmove : Undisturbed x manifest r move) :
    Recorded x manifest bundle plane (raceStep x manifest move r) := by
  have heffect : RaceEffect x manifest r move (raceStep x manifest move r) := raceStep_effect r move
  generalize raceStep x manifest move r = r' at heffect ⊢
  cases heffect with
  | goes stage hhere hwrite happend => exact h.goes hhere hwrite happend
  | appends c hhere hok =>
    obtain ⟨hquiet, v, hv⟩ := hmove c hhere hok
    exact h.appends hhere hquiet hv
  | writes c hhere => exact h.writes hhere

end Runs

/-- **Undisturbed calls keep the file in order.** From a membership that its file
restores, in every run of concurrent calls whose appends are undisturbed: whenever
all calls have finished, the file restores to the manifest in memory. -/
theorem restores_of_undisturbed {x : Crates} {bundle : GenesisTrustBundleV1} {plane : DiscoveryPlane}
    {manifests : List MembershipManifestV1} {membership : MembershipVerifier}
    (hstart : restore x bundle plane manifests = .ok membership)
    (manifest : ι → MembershipManifestV1) {r : Race ι}
    (hrun : Reaches (raceStep x manifest) (Undisturbed x manifest) (.start membership manifests) r)
    (hdone : ∀ j, ∃ result, r.stage j = .finished result) : Restores x bundle plane r := by
  have hrecorded : Recorded x manifest bundle plane r :=
    hrun.invariant _ (recorded_start hstart) fun s move hs hmove => hs.step hmove
  have hquiet : ∀ j c, r.stage j ≠ .write c := by
    intro j c hc
    obtain ⟨result, hresult⟩ := hdone j
    rw [hresult] at hc
    cases hc
  exact ⟨r.membership, hrecorded.settled hquiet, rfl⟩

/-! ### The same manifest from two peers -/

section Twice

/-- One step after another by each of two calls. -/
def alternating : List (Move Bool) :=
  [⟨false, .ok ()⟩, ⟨true, .ok ()⟩, ⟨false, .ok ()⟩, ⟨true, .ok ()⟩, ⟨false, .ok ()⟩, ⟨true, .ok ()⟩,
    ⟨false, .ok ()⟩, ⟨true, .ok ()⟩]

/-- Two calls that alternate both append the manifest. -/
theorem follow_alternating {x : Crates} {v w : MembershipVerifier} {m : MembershipManifestV1}
    (hfresh : v.currentHash x ≠ some (x.canonicalHash m)) (haccept : accept x m v = .ok () w)
    (manifests : List MembershipManifestV1) :
    follow (raceStep x fun _ => m) alternating (.start v manifests) =
      ⟨w, manifests ++ [m, m], fun _ => .finished (.ok ())⟩ := by
  have hcandidate := NodeService.candidateOf_ok.mpr haccept
  refine Race.ext ?_ ?_ (funext fun i => ?_)
  · simp [follow, alternating, raceStep, Race.start, Race.goTo, hfresh, hcandidate]
  · simp [follow, alternating, raceStep, Race.start, Race.goTo, hfresh, hcandidate]
  · cases i <;> simp [follow, alternating, raceStep, Race.start, Race.goTo, hfresh, hcandidate]

theorem network_restores : restore (.plain networkRecord) networkBundle .vault [] =
    .ok networkVerifier :=
  restore_ok.mpr ⟨_, new_network networkRecord .vault, rfl⟩

theorem alice_fresh : networkVerifier.currentHash (.plain networkRecord) ≠
    some ((Crates.plain networkRecord).canonicalHash aliceManifest) :=
  (Option.some_ne_none _).symm

/-- A call by itself is undisturbed. -/
theorem alone_undisturbed {x : Crates} {v w : MembershipVerifier} {m : MembershipManifestV1}
    (hfresh : v.currentHash x ≠ some (x.canonicalHash m)) (haccept : accept x m v = .ok () w)
    (manifests : List MembershipManifestV1) :
    Reaches (raceStep x fun _ : Unit => m) (Undisturbed x fun _ => m) (.start v manifests)
      ⟨w, manifests ++ [m], fun _ => .finished (.ok ())⟩ := by
  have hcandidate := NodeService.candidateOf_ok.mpr haccept
  have hobeys : Obeys (raceStep x fun _ : Unit => m) (Undisturbed x fun _ => m)
      (List.replicate 4 ⟨(), .ok ()⟩) (.start v manifests) := by
    simp [List.replicate, Obeys, Undisturbed, raceStep, Race.start, Race.goTo, hfresh, hcandidate,
      haccept]
  have hend : follow (raceStep x fun _ : Unit => m) (List.replicate 4 ⟨(), .ok ()⟩)
      (.start v manifests) = ⟨w, manifests ++ [m], fun _ => .finished (.ok ())⟩ := by
    refine Race.ext ?_ ?_ (funext fun i => ?_) <;>
      simp [follow, List.replicate, raceStep, Race.start, Race.goTo, hfresh, hcandidate]
  rw [← hend]
  exact reaches_follow hobeys

theorem restores_of_undisturbed_alice :
    ∃ v, restore (.plain networkRecord) networkBundle .vault [aliceManifest] = .ok v ∧
      v.current = some aliceManifest := by
  have hrun := alone_undisturbed alice_fresh (accept_alice fun _ h => h) []
  obtain ⟨v, hv, hcurrent⟩ := restores_of_undisturbed network_restores (fun _ => aliceManifest) hrun
    fun _ => ⟨.ok (), rfl⟩
  exact ⟨v, hv, hcurrent⟩

/-- Two peers offer the first manifest at the same time: both calls succeed, it is
in the file twice, and the node does not start again. -/
theorem same_manifest_twice :
    restore (.plain networkRecord) networkBundle .vault [] = .ok networkVerifier ∧
      ∃ r, Reaches (raceStep (.plain networkRecord) fun _ : Bool => aliceManifest) (fun _ _ => True)
          (.start networkVerifier []) r ∧
        (∀ j, ∃ result, r.stage j = .finished result) ∧
        ¬ Restores (.plain networkRecord) networkBundle .vault r := by
  have hend := follow_alternating alice_fresh (accept_alice fun _ h => h) []
  have hany : Obeys (raceStep (.plain networkRecord) fun _ : Bool => aliceManifest)
      (fun _ _ => True) alternating (.start networkVerifier []) := by
    simp [Obeys, alternating]
  have hreach := reaches_follow hany
  rw [hend] at hreach
  refine ⟨network_restores, _, hreach, fun _ => ⟨_, rfl⟩, fun hrestores => ?_⟩
  obtain ⟨v, hv, _⟩ := hrestores
  obtain ⟨genesis, hnew, hreplay⟩ := restore_ok.mp hv
  obtain ⟨_, u, hfirst, hrest⟩ := replay_cons_ok.mp hreplay
  obtain ⟨_, w, hagain, _⟩ := replay_cons_ok.mp hrest
  -- The manifest would have to name its own hash.
  have hprevious := previous_of_accept hagain
  rw [tip, currentHash, current_of_accept hfirst, Option.map_some, Option.getD_some,
    canonicalHash_plain] at hprevious
  exact zeroHash_ne_alice hprevious

end Twice

end Kerosene.Node
