import Kerosene.Ledger.Snapshot
import Kerosene.Ledger.Transitions

/-! How a node that is behind or has diverged gets back to the cluster's state
(`replication.rs`).

Both ways install the latest snapshot and replay commands on it, and both replay
commands the snapshot already contains. The version counter shows it, since every
command that applies moves it by one (`replay_version`). A catch-up replays what
the node misses whatever the snapshot has of it, so it ends in the state of the
log only if no snapshot was installed or it was the node's own state
(`executeCatchUp_reaches_iff`). A recovery picks its commands by epoch and so
replays at least the last command of the snapshot: it never ends in the state of
the log (`recoverDivergence_overshoots`). -/
namespace Kerosene.Ledger

open Lib.Inplace Lib.Keyed Lib.Word QuorumCertificate

def maxReplayCommands : UInt64 := 10000

/-! ### Recovery -/

/-- What a recovering node tells the cluster: whether each call succeeds. -/
structure SyncManager where
  startCatchUp : UInt64 → Except LedgerError Unit
  markQuarantined : String → Except LedgerError Unit

/-- A slice: its length is a machine word. -/
abbrev Slice (α : Type) := { items : List α // items.length < UInt64.size }

/-- Replaces the state by the one of the latest snapshot. -/
def installLatest (store : SnapshotStore) (sequence : UInt64) :
    StateMachine.Update CertifiedSnapshot := do
  let latest ← check store.latestSnapshot
  let snapshot ← check (okOr latest (.snapshotNotFound sequence))
  let restoredState ← check (store.installSnapshot snapshot)
  set restoredState
  return snapshot

section Recovery
variable (sync : SyncManager) (store : SnapshotStore) (sm : StateMachine)

def recoverDivergence (commands : Slice LedgerCommand) : StateMachine.Update Unit := do
  check (sync.markQuarantined "divergence detected")
  let snapshot ← installLatest store 0
  replay sm.apply (commands.val.filter fun c => c.epoch ≥ snapshot.epoch)

def executeCatchUp (fromSequence : UInt64) (commands : Slice LedgerCommand) :
    StateMachine.Update Unit := do
  let missingCount := UInt64.ofNat commands.val.length
  if missingCount > maxReplayCommands then
    let _ ← installLatest store fromSequence
    check (sync.startCatchUp fromSequence)
    replay sm.apply commands.val
  else
    check (sync.startCatchUp fromSequence)
    replay sm.apply commands.val

end Recovery

theorem installLatest_of_some {store : SnapshotStore} {snapshot : CertifiedSnapshot}
    {restored : LedgerState} (hlatest : store.latestSnapshot = .ok (some snapshot))
    (hinstall : store.installSnapshot snapshot = .ok restored) (sequence : UInt64)
    (s : LedgerState) : installLatest store sequence s = .ok snapshot restored := by
  simp only [installLatest, bind_def, hlatest, check_ok, okOr, hinstall, set_def, pure_def]

/-- Commands that all apply move the version by their number. -/
theorem replay_version {sm : StateMachine} {l : List LedgerCommand} {s s' : LedgerState}
    (h : replay sm.apply l s = .ok () s') : s'.version = s.version + UInt64.ofNat l.length :=
  replay_counts (fun _ _ _ _ hi => sm.apply_version hi) h

/-! ### Catching up -/

section CatchUp
variable {sync : SyncManager} {store : SnapshotStore} {sm : StateMachine} {fromSequence : UInt64}
  {commands : Slice LedgerCommand}

theorem missingCount_le_iff :
    UInt64.ofNat commands.val.length ≤ maxReplayCommands ↔ commands.val.length ≤ 10000 := by
  rw [UInt64.le_iff_toNat_le, UInt64.toNat_ofNat_of_lt' commands.prop]
  rfl

/-- A short gap is replayed from the node's own state. -/
theorem executeCatchUp_of_le {s : LedgerState} (hle : commands.val.length ≤ 10000)
    (hsync : sync.startCatchUp fromSequence = .ok ()) :
    executeCatchUp sync store sm fromSequence commands s = replay sm.apply commands.val s := by
  have hgap := UInt64.not_lt.mpr (missingCount_le_iff.mpr hle)
  simp only [executeCatchUp, gt_iff_lt, hgap, if_false, bind_def, hsync, check_ok]

/-- A long gap is replayed, as a whole, from the snapshot. -/
theorem executeCatchUp_of_gt {s restored : LedgerState} {snapshot : CertifiedSnapshot}
    (hgt : ¬ commands.val.length ≤ 10000) (hsync : sync.startCatchUp fromSequence = .ok ())
    (hlatest : store.latestSnapshot = .ok (some snapshot))
    (hinstall : store.installSnapshot snapshot = .ok restored) :
    executeCatchUp sync store sm fromSequence commands s =
      replay sm.apply commands.val restored := by
  have hgap := UInt64.not_le.mp (missingCount_le_iff.not.mpr hgt)
  simp only [executeCatchUp, gt_iff_lt, hgap, if_true, bind_def,
    installLatest_of_some hlatest hinstall, hsync, check_ok]

/-- States that a log passes with the same version are at the same place of it. -/
theorem place_of_version {log : List LedgerCommand} {genesis sₖ sⱼ : LedgerState} {k j : ℕ}
    (hk : replay sm.apply (log.take k) genesis = .ok () sₖ)
    (hj : replay sm.apply (log.take j) genesis = .ok () sⱼ) (hkj : k ≤ j) (hjn : j ≤ log.length)
    (hlen : log.length - k < 2 ^ 64) (h : sₖ.version = sⱼ.version) : k = j := by
  rw [replay_version hk, replay_version hj, List.length_take_of_le (hkj.trans hjn),
    List.length_take_of_le hjn] at h
  exact eq_of_ofNat_eq (add_left_cancel h) hkj (by omega)

/-- **Where a catch-up ends.** With the node at place `k` of a log and the snapshot
at place `j`, a catch-up that succeeds ends in the state of the log exactly when the
gap is short or the snapshot adds nothing to what the node has. -/
theorem executeCatchUp_reaches_iff {log : List LedgerCommand}
    {genesis sₖ sⱼ sₙ final : LedgerState} {k j : ℕ} {snapshot : CertifiedSnapshot}
    (hkj : k ≤ j) (hjn : j ≤ log.length) (hcommands : commands.val = log.drop k)
    (hk : replay sm.apply (log.take k) genesis = .ok () sₖ)
    (hj : replay sm.apply (log.take j) genesis = .ok () sⱼ)
    (hn : replay sm.apply log genesis = .ok () sₙ)
    (hsync : sync.startCatchUp (UInt64.ofNat k) = .ok ())
    (hlatest : store.latestSnapshot = .ok (some snapshot))
    (hinstall : store.installSnapshot snapshot = .ok sⱼ)
    (h : executeCatchUp sync store sm (UInt64.ofNat k) commands sₖ = .ok () final) :
    final = sₙ ↔ log.length - k ≤ 10000 ∨ j = k := by
  have hlen : commands.val.length = log.length - k := by rw [hcommands, List.length_drop]
  have hreplay : replay sm.apply commands.val sₖ = .ok () sₙ := by
    rw [hcommands]
    exact replay_drop hn hk
  by_cases hgap : commands.val.length ≤ 10000
  · rw [executeCatchUp_of_le hgap hsync, hreplay] at h
    cases h
    exact iff_of_true rfl (.inl (hlen ▸ hgap))
  · rw [executeCatchUp_of_gt hgap hsync hlatest hinstall] at h
    rw [← hlen, or_iff_right hgap]
    constructor
    · intro hfinal
      -- Equal final versions make the states the replays started from equally old.
      have hversion : sₖ.version = sⱼ.version := by
        have hsame := congrArg LedgerState.version hfinal
        rw [replay_version h, replay_version hreplay] at hsame
        exact (add_right_cancel hsame).symm
      have hword : log.length - k < 2 ^ 64 := hlen ▸ commands.prop
      exact (place_of_version hk hj hkj hjn hword hversion).symm
    · intro hplace
      rw [hplace, hk] at hj
      cases hj
      rw [hreplay] at h
      cases h
      rfl

end CatchUp

/-- Every call succeeds. -/
def SyncManager.willing : SyncManager := ⟨fun _ => .ok (), fun _ => .ok ()⟩

def StateMachine.nodeOne : StateMachine := { StateMachine.plain with crypto := nodeOneCrypto }

def genesis : LedgerState := .empty (.singleNode "cluster-1" "node-1")

/-- A command that moves the version and nothing else. -/
def withdrawal : LedgerCommand :=
  .new nodeOneCrypto "w1" .prepareWithdrawal "withdrawal-1" none "" 1 1

def withdrawals (n : ℕ) : List LedgerCommand := .replicate n withdrawal

theorem withdrawals_length (n : ℕ) : (withdrawals n).length = n := List.length_replicate

def afterWithdrawals (n : ℕ) : LedgerState := { genesis with version := UInt64.ofNat n }

theorem apply_withdrawal (n : ℕ) :
    ∃ r, StateMachine.nodeOne.apply withdrawal (afterWithdrawals n) =
      .ok r (afterWithdrawals (n + 1)) := by
  refine ⟨_, (StateMachine.apply_ok _).mpr ⟨rfl, _, afterWithdrawals n, rfl, ?_, rfl⟩⟩
  unfold afterWithdrawals StateMachine.bumpVersion
  rw [UInt64.ofNat_add]
  rfl

theorem replay_withdrawals (m n : ℕ) :
    replay StateMachine.nodeOne.apply (withdrawals n) (afterWithdrawals m) =
      .ok () (afterWithdrawals (m + n)) := by
  induction n generalizing m with
  | zero => rfl
  | succ n ih =>
    obtain ⟨r, happly⟩ := apply_withdrawal m
    refine replay_cons_ok.mpr ⟨r, _, happly, ?_⟩
    show replay _ (withdrawals n) _ = _
    rw [ih, Nat.add_right_comm, Nat.add_assoc]

/-- The state of a log of withdrawals at any place of it. -/
theorem replay_withdrawals_take {n k : ℕ} (hk : k ≤ n) :
    replay StateMachine.nodeOne.apply ((withdrawals n).take k) genesis =
      .ok () (afterWithdrawals k) := by
  have h := replay_withdrawals 0 k
  rw [Nat.zero_add] at h
  rw [withdrawals, List.take_replicate, Nat.min_eq_left hk]
  exact h

theorem executeCatchUp_reaches_short_gap :
    let store := SnapshotStore.nodeOne (afterWithdrawals 2) 1 2
    let commands : Slice LedgerCommand := ⟨withdrawals 2, by decide⟩
    executeCatchUp .willing store .nodeOne 1 commands (afterWithdrawals 1) =
        .ok () (afterWithdrawals 3) ∧
      (afterWithdrawals 3 = afterWithdrawals 3 ↔ 3 - 1 ≤ 10000 ∨ 2 = 1) := by
  intro store commands
  have h : executeCatchUp .willing store .nodeOne 1 commands (afterWithdrawals 1) =
      .ok () (afterWithdrawals 3) := by
    rw [executeCatchUp_of_le (by decide) rfl]
    exact replay_withdrawals 1 2
  have hcommands : commands.val = (withdrawals 3).drop 1 := rfl
  have hn : replay StateMachine.nodeOne.apply (withdrawals 3) genesis =
      .ok () (afterWithdrawals 3) := replay_withdrawals 0 3
  exact ⟨h, executeCatchUp_reaches_iff (by decide) (by decide) hcommands
    (replay_withdrawals_take (by decide)) (replay_withdrawals_take (by decide)) hn rfl
    (SnapshotStore.latestSnapshot_nodeOne _ _ _) (SnapshotStore.installSnapshot_nodeOne _ _ _) h⟩

/-- A long gap from genesis, with a snapshot that has the first command of it: the
command is applied twice. -/
theorem long_catchUp_repeats_snapshot :
    let log := withdrawals 10001
    let store := SnapshotStore.nodeOne (afterWithdrawals 1) 1 1
    let commands : Slice LedgerCommand :=
      ⟨log, (withdrawals_length 10001).trans_lt (by decide)⟩
    replay StateMachine.nodeOne.apply log genesis = .ok () (afterWithdrawals 10001) ∧
      replay StateMachine.nodeOne.apply (log.take 1) genesis = .ok () (afterWithdrawals 1) ∧
      store.latestSnapshot = .ok (some (.nodeOne (afterWithdrawals 1) 1 1)) ∧
      store.installSnapshot (.nodeOne (afterWithdrawals 1) 1 1) = .ok (afterWithdrawals 1) ∧
      executeCatchUp .willing store .nodeOne 0 commands genesis =
        .ok () (afterWithdrawals 10002) ∧
      afterWithdrawals 10002 ≠ afterWithdrawals 10001 := by
  intro log store commands
  have hlatest := SnapshotStore.latestSnapshot_nodeOne (afterWithdrawals 1) 1 1
  have hinstall := SnapshotStore.installSnapshot_nodeOne (afterWithdrawals 1) 1 1
  have hlong : ¬ commands.val.length ≤ 10000 := by
    show ¬ (withdrawals 10001).length ≤ 10000
    rw [withdrawals_length]
    decide
  refine ⟨replay_withdrawals 0 10001, replay_withdrawals_take (by decide), hlatest, hinstall, ?_,
    by decide⟩
  rw [executeCatchUp_of_gt hlong rfl hlatest hinstall]
  exact replay_withdrawals 1 10001

/-! ### Recovering from a divergence -/

section Divergence
variable {sync : SyncManager} {store : SnapshotStore} {sm : StateMachine}
  {log : Slice LedgerCommand}

theorem recoverDivergence_eq {s restored : LedgerState} {snapshot : CertifiedSnapshot}
    (hsync : sync.markQuarantined "divergence detected" = .ok ())
    (hlatest : store.latestSnapshot = .ok (some snapshot))
    (hinstall : store.installSnapshot snapshot = .ok restored) :
    recoverDivergence sync store sm log s =
      replay sm.apply (log.val.filter fun c => c.epoch ≥ snapshot.epoch) restored := by
  simp only [recoverDivergence, bind_def, hsync, check_ok, installLatest_of_some hlatest hinstall]

/-- **Where a recovery ends.** Never in the state of the log: the last command of the
snapshot has the snapshot's epoch, and is applied again. -/
theorem recoverDivergence_overshoots {genesis s sⱼ sₙ final : LedgerState} {j : ℕ}
    {last : LedgerCommand} {snapshot : CertifiedSnapshot}
    (hepochs : log.val.Pairwise fun c d => c.epoch ≤ d.epoch)
    (hpos : 1 ≤ j) (hlast : log.val[j - 1]? = some last) (hsnapshot : snapshot.epoch = last.epoch)
    (hj : replay sm.apply (log.val.take j) genesis = .ok () sⱼ)
    (hn : replay sm.apply log.val genesis = .ok () sₙ)
    (hsync : sync.markQuarantined "divergence detected" = .ok ())
    (hlatest : store.latestSnapshot = .ok (some snapshot))
    (hinstall : store.installSnapshot snapshot = .ok sⱼ)
    (h : recoverDivergence sync store sm log s = .ok () final) : final ≠ sₙ := by
  intro hfinal
  have hjn : j - 1 < log.val.length := (List.getElem?_eq_some_iff.mp hlast).1
  have hmore : log.val.length - (j - 1) ≤
      (log.val.filter fun c => c.epoch ≥ last.epoch).length :=
    length_sub_le_length_filter (r := fun c d => c.epoch ≤ d.epoch)
      (fun c => UInt64.le_refl c.epoch) hepochs hlast
  have hmost := List.length_filter_le (fun c => decide (c.epoch ≥ last.epoch)) log.val
  rw [recoverDivergence_eq hsync hlatest hinstall, hsnapshot] at h
  have hsame := congrArg LedgerState.version hfinal
  rw [replay_version h, replay_version (replay_drop hn hj), List.length_drop] at hsame
  have hword : log.val.length < 2 ^ 64 := log.prop
  have hcount := eq_of_ofNat_eq (add_left_cancel hsame).symm (by omega) (by omega)
  omega

end Divergence

/-- A deposit in one epoch and a payment from it in the next. -/
def deposit : LedgerCommand :=
  .new nodeOneCrypto "c1" .creditInternalBalance "alice" (some 0) "100" 1 1

def payment : LedgerCommand :=
  .new nodeOneCrypto "c2" .debitInternalBalance "alice" none "30" 2 2

def payments : Slice LedgerCommand := ⟨[deposit, payment], by decide⟩

def paid : LedgerState := { genesis with version := 2, accounts := [.holding "alice" 2 70] }

def paidTwice : LedgerState := { genesis with version := 3, accounts := [.holding "alice" 3 40] }

/-- With a snapshot of both, recovery makes the payment again. -/
theorem recoverDivergence_payments :
    recoverDivergence .willing (.nodeOne paid 2 2) .nodeOne payments genesis = .ok () paidTwice := by
  rw [recoverDivergence_eq rfl (SnapshotStore.latestSnapshot_nodeOne paid 2 2)
    (SnapshotStore.installSnapshot_nodeOne paid 2 2)]
  rfl

theorem recoverDivergence_overshoots_payments :
    recoverDivergence .willing (.nodeOne paid 2 2) .nodeOne payments genesis = .ok () paidTwice ∧
      paidTwice ≠ paid := by
  have hlast : payments.val[2 - 1]? = some payment := rfl
  have hn : replay StateMachine.nodeOne.apply payments.val genesis = .ok () paid := rfl
  exact ⟨recoverDivergence_payments, recoverDivergence_overshoots (by decide) (by decide) hlast rfl
    hn hn rfl (SnapshotStore.latestSnapshot_nodeOne paid 2 2)
    (SnapshotStore.installSnapshot_nodeOne paid 2 2) recoverDivergence_payments⟩

/-- The payment of 30 is taken from alice twice. -/
theorem recovery_repeats_payment :
    let store := SnapshotStore.nodeOne paid 2 2
    (payments.val.Pairwise fun c d => c.epoch ≤ d.epoch) ∧ payments.val[1]? = some payment ∧
      payment.epoch = 2 ∧ replay StateMachine.nodeOne.apply payments.val genesis = .ok () paid ∧
      store.latestSnapshot = .ok (some (.nodeOne paid 2 2)) ∧
      store.installSnapshot (.nodeOne paid 2 2) = .ok paid ∧
      recoverDivergence .willing store .nodeOne payments genesis = .ok () paidTwice ∧
      paidTwice ≠ paid :=
  ⟨by decide, rfl, rfl, rfl, SnapshotStore.latestSnapshot_nodeOne paid 2 2,
    SnapshotStore.installSnapshot_nodeOne paid 2 2, recoverDivergence_payments, by decide⟩

end Kerosene.Ledger
