import Kerosene.Node.JointConsensus

/-! Epochs along the chain of accepted manifests.

An epoch is the next one after a stable manifest and the announced one, later than its
own, after a joint manifest. The next one after the last word is that word again, so the
epochs rise strictly exactly as long as nothing renews a manifest of the last epoch
(`accepted_rising_iff`). -/
namespace Kerosene.Node

open Lib.Encode Lib.Inplace Lib.Tables Lib.Word Ledger MembershipVerifier

/-! ### One manifest after another -/

/-- The last epoch there is. -/
def lastEpoch : UInt64 := 0xffffffffffffffff

/-- A stable manifest of the last epoch is current and the one given is valid after it. -/
def RenewsLast (x : Crates) (v : MembershipVerifier) (manifest : MembershipManifestV1) : Prop :=
  ∃ a, v.current = some a ∧ a.phase = .stable ∧ a.epoch = lastEpoch ∧
    v.validateStructure x manifest = .ok () ∧ verifyAfterStable x a manifest = .ok ()

/-- A joint manifest that is current announces a later epoch. -/
def MembershipVerifier.Announces (v : MembershipVerifier) : Prop :=
  ∀ a, v.current = some a → a.phase = .joint → ∀ next ∈ a.nextEpoch, a.epoch < next

/-- A manifest has an earlier epoch than another. -/
def Earlier (a b : MembershipManifestV1) : Prop := a.epoch < b.epoch

instance : Trans Earlier Earlier Earlier := ⟨UInt64.lt_trans⟩

theorem lt_saturatingAdd_one {epoch : UInt64} : epoch < saturatingAdd epoch 1 ↔ epoch ≠ lastEpoch := by
  constructor
  · intro h hlast
    rw [hlast] at h
    exact absurd h (by decide)
  · intro h
    have hfits := succ_lt_of_ne_max h
    rw [UInt64.lt_iff_toNat_lt, toNat_saturatingAdd]
    show epoch.toNat < min (epoch.toNat + 1) _
    omega

section Steps
variable {x : Crates} {v v' : MembershipVerifier} {a b : MembershipManifestV1}

theorem announces_of_validateStructure (h : v.validateStructure x b = .ok ())
    (hjoint : b.phase = .joint) : ∀ next ∈ b.nextEpoch, b.epoch < next := by
  simp only [validateStructure, except_then_ok, hjoint, refuse_ok] at h
  obtain ⟨_, _, _, _, hepochs⟩ := h
  intro next hnext
  refine UInt64.not_le.mp fun hle => hepochs fun other hother => ?_
  rw [Option.mem_unique hother hnext]
  exact hle

theorem Announces.accept (h : accept x b v = .ok () v') : v'.Announces := by
  obtain ⟨hstructure, _, rfl⟩ := accept_ok.mp h
  intro m hm
  cases hm
  exact announces_of_validateStructure hstructure

theorem not_renewsLast_of_error {e : MembershipError} (h : accept x b v = .error e v') :
    ¬ RenewsLast x v b := by
  intro hrenews
  obtain ⟨a, ha, hphase, _, hstructure, hrule⟩ := hrenews
  have hnext : v.verifyNext x b = .ok () := by
    rw [verifyNext, ha]
    simp only [hphase]
    exact hrule
  rw [accept_ok.mpr ⟨hstructure, hnext, rfl⟩] at h
  cases h

theorem not_renewsLast_of_none (ha : v.current = none) : ¬ RenewsLast x v b := by
  intro hrenews
  obtain ⟨a, hsome, _⟩ := hrenews
  rw [ha] at hsome
  cases hsome

/-- What is accepted has a later epoch, unless it renews the last one. -/
theorem accept_rises_iff (hv : v.Announces) (ha : v.current = some a)
    (h : accept x b v = .ok () v') : Earlier a b ↔ ¬ RenewsLast x v b := by
  obtain ⟨hstructure, hnext, _⟩ := accept_ok.mp h
  rw [verifyNext, ha] at hnext
  cases hphase : a.phase with
  | stable =>
    simp only [hphase] at hnext
    have hrule := hnext
    rw [verifyAfterStable, except_then_ok, requireChain_ok] at hrule
    rw [Earlier, hrule.1.2, lt_saturatingAdd_one, not_iff_not]
    constructor
    · intro hlast
      exact ⟨a, ha, hphase, hlast, hstructure, hnext⟩
    · intro hrenews
      obtain ⟨a', ha', _, hlast, _⟩ := hrenews
      rw [ha] at ha'
      cases ha'
      exact hlast
  | joint =>
    simp only [hphase] at hnext
    rw [verifyAfterJoint, except_then_ok, except_bind_ok] at hnext
    obtain ⟨_, epoch, hannounced, hrule⟩ := hnext
    rw [except_then_ok, requireChain_ok] at hrule
    have hlater : Earlier a b := by
      rw [Earlier, hrule.1.2]
      exact hv a ha hphase epoch (okOr_ok.mp hannounced)
    refine iff_of_true hlater fun hrenews => ?_
    obtain ⟨a', ha', hstable, _⟩ := hrenews
    rw [ha] at ha'
    cases ha'
    rw [hphase] at hstable
    cases hstable

/-- Each call adds a later epoch or none. -/
theorem accepted_isChain_rising (hv : v.Announces) (calls : List MembershipManifestV1) :
    (v.current.toList ++ accepted x calls v).IsChain Earlier ↔
      Admissible (accept x) (fun w m => ¬ RenewsLast x w m) calls v := by
  induction calls generalizing v with
  | nil =>
    rw [accepted, List.append_nil]
    refine iff_of_true ?_ trivial
    cases v.current with
    | none => exact .nil
    | some a => exact .singleton a
  | cons manifest rest ih =>
    rw [accepted, Admissible]
    cases h : accept x manifest v with
    | error e v' =>
      have hsame : v' = v := accept_atomic x manifest v e v' h
      rw [after_error h, hsame, and_iff_right (not_renewsLast_of_error h)]
      exact ih hv
    | ok u v' =>
      have hchain := ih (Announces.accept h)
      have hcurrent : v'.current = some manifest := by
        obtain ⟨_, _, rfl⟩ := accept_ok.mp h
        rfl
      rw [hcurrent] at hchain
      rw [after_ok h, ← hchain]
      cases ha : v.current with
      | none => exact (and_iff_right (not_renewsLast_of_none ha)).symm
      | some a =>
        rw [← accept_rises_iff hv ha h]
        exact List.isChain_cons_cons

end Steps

/-- **Epochs rise until the last one.** The manifests accepted among any calls have
strictly increasing epochs exactly when no call renews a stable manifest of the last
epoch. -/
theorem accepted_rising_iff {x : Crates} {bundle : GenesisTrustBundleV1} {plane : DiscoveryPlane}
    {v : MembershipVerifier} (h : MembershipVerifier.new x bundle plane = .ok v)
    (calls : List MembershipManifestV1) :
    (accepted x calls v).Pairwise Earlier ↔
      Admissible (accept x) (fun w m => ¬ RenewsLast x w m) calls v := by
  obtain ⟨hcurrent, _⟩ := new_bound h
  have hv : v.Announces := by
    intro a ha
    rw [hcurrent] at ha
    cases ha
  have hchain := accepted_isChain_rising (x := x) hv calls
  rw [hcurrent, Option.toList_none, List.nil_append] at hchain
  rw [← hchain]
  exact List.isChain_iff_pairwise.symm

/-- Alice's and Bob's signatures of a first manifest at the last epoch. -/
def aliceEnd : Vector UInt8 64 := #v[
  0x33, 0x97, 0x92, 0x7e, 0x5f, 0xe9, 0xef, 0x22, 0xc7, 0x54, 0xbf, 0x60, 0x75, 0x4a, 0x4a, 0x43,
  0xe3, 0x48, 0xf0, 0xde, 0x61, 0xaa, 0x00, 0xaa, 0x67, 0xb7, 0xa0, 0x80, 0x2c, 0x06, 0x79, 0x82,
  0x6f, 0xc3, 0xe0, 0x14, 0x5c, 0x96, 0x22, 0xd0, 0x76, 0x1c, 0x01, 0x2d, 0x56, 0xab, 0x19, 0x02,
  0xd1, 0x19, 0xdf, 0xcd, 0x19, 0x89, 0x99, 0xdf, 0x6b, 0x62, 0x86, 0xeb, 0xcd, 0xcf, 0xc4, 0x08]

def bobEnd : Vector UInt8 64 := #v[
  0xbf, 0x34, 0x84, 0x56, 0x34, 0xa1, 0x4b, 0x45, 0x4d, 0x3a, 0x57, 0xa0, 0x7f, 0xee, 0xed, 0xad,
  0xbf, 0xc8, 0x00, 0x44, 0xb2, 0x1c, 0x1a, 0x58, 0x29, 0x32, 0x67, 0x68, 0xfe, 0x6a, 0x12, 0x95,
  0x22, 0xe5, 0x73, 0x49, 0xaa, 0x4a, 0x4c, 0x0c, 0x68, 0xe2, 0x4b, 0x41, 0x12, 0x83, 0xf5, 0x13,
  0x22, 0x8c, 0xa5, 0xdc, 0xbf, 0xae, 0x89, 0x07, 0x50, 0x75, 0x1b, 0x95, 0x6f, 0x87, 0xf1, 0x07]

/-- Alice's signature of its renewal. -/
def aliceRenewal : Vector UInt8 64 := #v[
  0x4f, 0x41, 0x6a, 0x9e, 0x27, 0x54, 0x65, 0x7c, 0x8f, 0x50, 0xa9, 0xa4, 0xc1, 0x9d, 0xbe, 0x09,
  0x4a, 0x10, 0x30, 0x66, 0x14, 0xe6, 0x9d, 0x84, 0x03, 0x5d, 0xe2, 0x2c, 0x1e, 0x07, 0xa8, 0xb0,
  0x84, 0x37, 0x1a, 0x51, 0xb4, 0x92, 0xa1, 0x17, 0x67, 0xf5, 0x3d, 0xfc, 0x75, 0x0e, 0xc2, 0x99,
  0x28, 0x87, 0xae, 0x1d, 0x4d, 0x24, 0xcb, 0x4b, 0xd1, 0xec, 0x47, 0x03, 0x46, 0xb4, 0xd2, 0x0b]

def endManifest : MembershipManifestV1 :=
  manifestOf lastEpoch .stable zeroHash alice none
    [signatureOf alice aliceEnd, signatureOf bob bobEnd]

def renewalManifest : MembershipManifestV1 :=
  manifestOf lastEpoch .stable ((Crates.plain []).canonicalHash endManifest) alice none
    [signatureOf alice aliceRenewal]

def endRecord : List (Vector UInt8 32 × Bytes × Vector UInt8 64) := [
  (aliceKey, plainBytes endManifest, aliceEnd), (bobKey, plainBytes endManifest, bobEnd),
  (aliceKey, plainBytes renewalManifest, aliceRenewal)]

theorem accept_end :
    accept (.plain endRecord) endManifest networkVerifier =
      .ok () { networkVerifier with current := some endManifest } :=
  accept_first (by decide) (.head _) (.tail _ (.head _))

theorem accept_renewal :
    accept (.plain endRecord) renewalManifest { networkVerifier with current := some endManifest } =
      .ok () { networkVerifier with current := some renewalManifest } := by
  have hroster := ((new_bound (new_network endRecord .vault)).2.accept accept_end).current
    endManifest rfl
  refine accept_ok.mpr ⟨?_, ?_, rfl⟩
  · exact validateStructure_manifestOf rfl rfl alice_endpoint (List.nodup_singleton _) rfl
  · show verifyAfterStable (.plain endRecord) endManifest renewalManifest = .ok ()
    have hchain : requireChain (.plain endRecord) endManifest renewalManifest
        (saturatingAdd endManifest.epoch 1) = .ok () := by
      rw [requireChain_ok, canonicalHash_plain, renewalManifest, manifestOf]
      exact ⟨rfl, rfl⟩
    rw [verifyAfterStable, except_then_ok, except_then_ok]
    refine ⟨hchain, ?_, ?_⟩
    · refine requireSignatures_plain hroster (List.Sublist.refl _) (fun s hs => ?_) (Nat.le_refl 1)
      rw [List.mem_singleton.mp hs]
      exact ⟨_, .head _, verifySignature_plain (.tail _ (.tail _ (.head _)))⟩
    · have hsame : sameRoster endManifest renewalManifest = true := by
        rw [sameRoster_eq, endManifest, renewalManifest, manifestOf, manifestOf]
        exact ⟨rfl, rfl⟩
      rw [renewalManifest, manifestOf] at hsame ⊢
      exact refuse_ok.mpr (by rw [hsame]; exact Bool.noConfusion)

/-- Two manifests of one epoch are accepted one after the other. -/
theorem last_epoch_accepted_twice :
    ∃ v, MembershipVerifier.new (.plain endRecord) networkBundle .vault = .ok v ∧
      ¬ (accepted (.plain endRecord) [endManifest, renewalManifest] v).Pairwise Earlier := by
  refine ⟨networkVerifier, new_network endRecord .vault, ?_⟩
  rw [accepted_cons_ok accept_end, accepted_cons_ok accept_renewal, accepted_nil]
  intro hrising
  have hlater : lastEpoch < lastEpoch :=
    (List.pairwise_cons.mp hrising).1 renewalManifest List.mem_cons_self
  exact absurd hlater (by decide)

/-- The epochs of a network that changes hands. -/
theorem accepted_rising_network :
    (accepted (.plain networkRecord) [aliceManifest, jointManifest, bobManifest]
      networkVerifier).Pairwise Earlier := by
  have hrecord : networkRecord ⊆ networkRecord := fun _ h => h
  have hnot {v : MembershipVerifier} {a m : MembershipManifestV1} (ha : v.current = some a)
      (hepoch : a.epoch ≠ lastEpoch) : ¬ RenewsLast (.plain networkRecord) v m := by
    intro hrenews
    obtain ⟨a', ha', _, hlast, _⟩ := hrenews
    rw [ha] at ha'
    cases ha'
    exact hepoch hlast
  have hadmissible : Admissible (accept (.plain networkRecord))
      (fun w m => ¬ RenewsLast (.plain networkRecord) w m)
      [aliceManifest, jointManifest, bobManifest] networkVerifier := by
    rw [Admissible, Admissible, Admissible, after_ok (accept_alice hrecord),
      after_ok (accept_joint hrecord)]
    exact ⟨not_renewsLast_of_none rfl, hnot rfl (by decide), hnot rfl (by decide), trivial⟩
  exact (accepted_rising_iff (new_network networkRecord .vault) _).mpr hadmissible

end Kerosene.Node
