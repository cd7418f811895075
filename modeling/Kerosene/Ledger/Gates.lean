import Kerosene.Ledger.Reconciliation

/-! Production gates and the mode they are folded into (`gates.rs`).

Each gate lists its reasons to block and passes when there are none. The mode is what
callers consult: for withdrawals, membership changes and key rotation it says what the
gate says (`withdrawalsAllowed_evaluate` and its siblings), but credits it allows in
every case (`creditsAllowed_evaluate`), although the gate for deposits is one of those
that bring the degraded mode about. -/
namespace Kerosene.Ledger

/-! ### What the gates read -/

inductive SyncStatus where
  | healthy
  | catchingUp
  | snapshotRequired
  | diverged
  | quarantined
  deriving DecidableEq, Repr

def SyncStatus.debug : SyncStatus → String
  | .healthy => "Healthy"
  | .catchingUp => "CatchingUp"
  | .snapshotRequired => "SnapshotRequired"
  | .diverged => "Diverged"
  | .quarantined => "Quarantined"

structure ReplicationStatus where
  epoch : UInt64
  committedSequence : UInt64
  appliedSequence : UInt64
  stateRoot : String
  leaderView : UInt64
  syncStatus : SyncStatus
  deriving DecidableEq, Repr

/-- The counters that a gate looks at. -/
structure LedgerMetrics where
  sequenceLag : UInt64
  quorumUnavailableTotal : UInt64
  deriving DecidableEq, Repr

def LedgerMetrics.new : LedgerMetrics := ⟨0, 0⟩

/-! ### Gates -/

structure GateResult where
  allowed : Bool
  reasons : List String
  deriving DecidableEq, Repr

namespace GateResult

/-- Blocked when there is a reason. -/
def ofReasons (reasons : List String) : GateResult :=
  if reasons = [] then ⟨true, []⟩ else ⟨false, reasons⟩

theorem ofReasons_allowed {reasons : List String} :
    (ofReasons reasons).allowed = true ↔ reasons = [] := by
  unfold ofReasons
  split <;> simp [*]

end GateResult

namespace ProductionGates

/-- The text, when the condition holds. -/
def reason (c : Prop) [Decidable c] (text : String) : List String := if c then [text] else []

@[simp] theorem reason_eq_nil {c : Prop} [Decidable c] {text : String} :
    reason c text = [] ↔ ¬c := by
  unfold reason
  split <;> simp [*]

def reconciliationReasons (report : ReconciliationReport) : List String :=
  match report.status with
  | .balanced | .warning | .surplus => []
  | .deficit => ["reconciliation deficit: " ++ toString report.differenceSats ++ " sats"]
  | .incompleteChainData => ["reconciliation data is incomplete"]

def canAuthorizeWithdrawals (metrics : LedgerMetrics) (report : ReconciliationReport)
    (status : ReplicationStatus) : GateResult :=
  .ofReasons
    (reason (status.syncStatus ≠ .healthy)
        ("sync status is " ++ status.syncStatus.debug ++ ", must be Healthy") ++
      reason (metrics.sequenceLag > 0)
        ("sequence lag is " ++ toString metrics.sequenceLag ++ ", must be 0") ++
      reconciliationReasons report ++
      reason (status.committedSequence = 0 ∧ status.appliedSequence = 0 ∧
          metrics.quorumUnavailableTotal > 0)
        "quorum appears unavailable")

def canAcceptDeposits (metrics : LedgerMetrics) (status : ReplicationStatus) : GateResult :=
  .ofReasons
    (reason (status.syncStatus = .diverged ∨ status.syncStatus = .quarantined)
        ("sync status is " ++ status.syncStatus.debug ++ ", cannot accept deposits") ++
      reason (metrics.sequenceLag > 100)
        ("sequence lag " ++ toString metrics.sequenceLag ++ " exceeds threshold for deposits"))

def canAddNodes (_metrics : LedgerMetrics) (status : ReplicationStatus)
    (membership : MembershipView) : GateResult :=
  .ofReasons
    (reason (status.syncStatus ≠ .healthy)
        ("sync status is " ++ status.syncStatus.debug ++ ", must be Healthy to add nodes") ++
      reason (membership.nodes.length ≥ 100)
        ("membership size " ++ toString membership.nodes.length ++ " exceeds safety limit"))

/-- A gate for what the whole cluster takes part in. -/
def requireInStep (operation : String) (status : ReplicationStatus) : GateResult :=
  .ofReasons
    (reason (status.syncStatus ≠ .healthy)
        ("sync status is " ++ status.syncStatus.debug ++ ", must be Healthy to " ++ operation) ++
      reason (status.appliedSequence ≠ status.committedSequence)
        ("applied sequence " ++ toString status.appliedSequence ++ " != committed sequence " ++
          toString status.committedSequence))

def canChangeMembership (status : ReplicationStatus) : GateResult :=
  requireInStep "change membership" status

def canRotateKeys (status : ReplicationStatus) : GateResult := requireInStep "rotate keys" status

end ProductionGates

/-! ### The mode -/

inductive DegradedMode where
  | normal
  | degraded (withdrawalsBlocked membershipChangesBlocked keyRotationBlocked
      internalTransfersAllowed creditsAllowed : Bool)
  | readOnly
  deriving DecidableEq, Repr

namespace DegradedMode

def withdrawalsAllowed : DegradedMode → Bool
  | .normal => true
  | .degraded withdrawalsBlocked _ _ _ _ => !withdrawalsBlocked
  | .readOnly => false

def internalTransfersAllowed : DegradedMode → Bool
  | .normal => true
  | .degraded _ _ _ internalTransfersAllowed _ => internalTransfersAllowed
  | .readOnly => false

def creditsAllowed : DegradedMode → Bool
  | .normal => true
  | .degraded _ _ _ _ creditsAllowed => creditsAllowed
  | .readOnly => false

/-- The flag for membership changes, which no method of the source reads, read like the
others. -/
def membershipChangesAllowed : DegradedMode → Bool
  | .normal => true
  | .degraded _ membershipChangesBlocked _ _ _ => !membershipChangesBlocked
  | .readOnly => false

/-- The flag for key rotation, likewise. -/
def keyRotationAllowed : DegradedMode → Bool
  | .normal => true
  | .degraded _ _ keyRotationBlocked _ _ => !keyRotationBlocked
  | .readOnly => false

end DegradedMode

namespace ProductionGates

def evaluateDegradedMode (metrics : LedgerMetrics) (report : ReconciliationReport)
    (status : ReplicationStatus) (membership : MembershipView) : DegradedMode :=
  let withdrawalsGate := canAuthorizeWithdrawals metrics report status
  let depositsGate := canAcceptDeposits metrics status
  let membershipGate := canChangeMembership status
  let keyRotationGate := canRotateKeys status
  let addNodesGate := canAddNodes metrics status membership
  let withdrawalsBlocked := !withdrawalsGate.allowed
  let membershipChangesBlocked := !membershipGate.allowed
  let keyRotationBlocked := !keyRotationGate.allowed
  if !withdrawalsGate.allowed || !depositsGate.allowed || !membershipGate.allowed then
    .degraded withdrawalsBlocked membershipChangesBlocked keyRotationBlocked true true
  else if !addNodesGate.allowed then
    .degraded false membershipChangesBlocked keyRotationBlocked true true
  else .normal

/-! ### When a gate passes -/

section Gates
variable {metrics : LedgerMetrics} {report : ReconciliationReport} {status : ReplicationStatus}
  {membership : MembershipView}

theorem canAcceptDeposits_allowed :
    (canAcceptDeposits metrics status).allowed = true ↔
      status.syncStatus ≠ .diverged ∧ status.syncStatus ≠ .quarantined ∧
        metrics.sequenceLag ≤ 100 := by
  rw [canAcceptDeposits, GateResult.ofReasons_allowed, List.append_eq_nil_iff, reason_eq_nil,
    reason_eq_nil, not_or, and_assoc, gt_iff_lt, UInt64.not_lt]

theorem requireInStep_allowed {operation : String} :
    (requireInStep operation status).allowed = true ↔
      status.syncStatus = .healthy ∧ status.appliedSequence = status.committedSequence := by
  rw [requireInStep, GateResult.ofReasons_allowed, List.append_eq_nil_iff, reason_eq_nil,
    reason_eq_nil, not_not, not_not]

/-- Keys may be rotated exactly when the membership may change. -/
theorem canRotateKeys_allowed :
    (canRotateKeys status).allowed = (canChangeMembership status).allowed := by
  rw [Bool.eq_iff_iff, canRotateKeys, canChangeMembership, requireInStep_allowed,
    requireInStep_allowed]

/-! ### What the mode permits -/

variable (metrics report status membership)

theorem withdrawalsAllowed_evaluate :
    (evaluateDegradedMode metrics report status membership).withdrawalsAllowed =
      (canAuthorizeWithdrawals metrics report status).allowed := by
  simp only [evaluateDegradedMode]
  generalize (canAuthorizeWithdrawals metrics report status).allowed = withdrawals
  split_ifs with hblocked hfull
  · exact Bool.not_not _
  · -- Only the gate for new nodes blocks, so the one for withdrawals does not.
    cases withdrawals
    · simp at hblocked
    · rfl
  · cases withdrawals
    · simp at hblocked
    · rfl

theorem creditsAllowed_evaluate :
    (evaluateDegradedMode metrics report status membership).creditsAllowed = true := by
  simp only [evaluateDegradedMode]
  split_ifs <;> rfl

theorem membershipChangesAllowed_evaluate :
    (evaluateDegradedMode metrics report status membership).membershipChangesAllowed =
      (canChangeMembership status).allowed := by
  simp only [evaluateDegradedMode]
  generalize (canChangeMembership status).allowed = change
  split_ifs with hblocked hfull
  · exact Bool.not_not _
  · exact Bool.not_not _
  · cases change
    · simp at hblocked
    · rfl

/-- The mode lets keys rotate when it lets the membership change. -/
theorem keyRotationAllowed_evaluate_eq :
    (evaluateDegradedMode metrics report status membership).keyRotationAllowed =
      (evaluateDegradedMode metrics report status membership).membershipChangesAllowed := by
  simp only [evaluateDegradedMode, canRotateKeys_allowed]
  split_ifs <;> rfl

theorem keyRotationAllowed_evaluate :
    (evaluateDegradedMode metrics report status membership).keyRotationAllowed =
      (canRotateKeys status).allowed := by
  rw [keyRotationAllowed_evaluate_eq, membershipChangesAllowed_evaluate, canRotateKeys_allowed]

end Gates

/-- A mode that says what the gates say, and permits nothing that one of them blocks. -/
structure Agrees (metrics : LedgerMetrics) (report : ReconciliationReport)
    (status : ReplicationStatus) (mode : DegradedMode) : Prop where
  withdrawals : mode.withdrawalsAllowed = true ↔
    (canAuthorizeWithdrawals metrics report status).allowed = true
  credits : mode.creditsAllowed = true → (canAcceptDeposits metrics status).allowed = true
  membershipChanges : mode.membershipChangesAllowed = true →
    (canChangeMembership status).allowed = true
  keyRotation : mode.keyRotationAllowed = true → (canRotateKeys status).allowed = true

/-- **When the mode agrees with the gates.** Exactly when the node is neither diverged nor
quarantined and not too far behind for deposits. -/
theorem evaluateDegradedMode_agrees_iff (metrics : LedgerMetrics) (report : ReconciliationReport)
    (status : ReplicationStatus) (membership : MembershipView) :
    Agrees metrics report status (evaluateDegradedMode metrics report status membership) ↔
      status.syncStatus ≠ .diverged ∧ status.syncStatus ≠ .quarantined ∧
        metrics.sequenceLag ≤ 100 := by
  rw [← canAcceptDeposits_allowed]
  refine ⟨fun h => h.credits (creditsAllowed_evaluate metrics report status membership),
    fun h => ⟨?_, fun _ => h, ?_, ?_⟩⟩
  · rw [withdrawalsAllowed_evaluate]
  · rw [membershipChangesAllowed_evaluate]
    exact id
  · rw [keyRotationAllowed_evaluate]
    exact id

/-- A diverged node accepts no deposits, and its mode permits credits. -/
theorem diverged_permits_credits :
    let metrics := LedgerMetrics.new
    let report : ReconciliationReport := ⟨"root", "tip", 0, 0, 0, 0, 0, .balanced⟩
    let status : ReplicationStatus := ⟨1, 42, 42, "root", 0, .diverged⟩
    let mode := evaluateDegradedMode metrics report status (.singleNode "cluster-1" "node-1")
    (canAcceptDeposits metrics status).allowed = false ∧ mode.creditsAllowed = true ∧
      ¬Agrees metrics report status mode := by
  intro metrics report status mode
  have hdeposits : (canAcceptDeposits metrics status).allowed = false := by decide
  have hcredits : mode.creditsAllowed = true := creditsAllowed_evaluate _ _ _ _
  refine ⟨hdeposits, hcredits, fun h => ?_⟩
  have hallowed := h.credits hcredits
  rw [hdeposits] at hallowed
  cases hallowed

end ProductionGates

end Kerosene.Ledger
