import Kerosene.Ledger.Gates
import Kerosene.Ledger.SharedDatabase
import Kerosene.Lib.Transcripts

/-! How a node becomes a voter (`membership.rs`).

The roles of a node go up one by one, and what a store says of it is explained by the calls
that were acknowledged: it was added, and every role since then was given in order, each one
allowed after the one before (`admission_history`). A node that may vote has climbed from
observer over learner, unless it was added higher up, which `add_node` does not refuse
(`voters_climbed`). Both hold as well of the store that shares its database with five
others. -/
namespace Kerosene.Ledger

open Lib.Inplace Lib.Records Lib.Simulation Lib.Tables Lib.Transcripts

/-! ### The transcripts of the stores -/

/-- The calls of one store of the database with their answers, whatever the others do in
between. -/
def storeTranscript (x : StoreCrates) (l : List (Σ kind : StoreKind, kind.Call)) (kind : StoreKind) :
    List (kind.Call × Except LedgerError kind.Reply) :=
  sharedTranscript (sledCall x) l ∅ kind

theorem storeTranscript_eq {x : StoreCrates} (hx : x.Total)
    (l : List (Σ kind : StoreKind, kind.Call)) (kind : StoreKind) :
    storeTranscript x l kind = transcript (memoryCall x kind) (select kind l) kind.empty :=
  sharedTranscript_eq (simulates_call hx)
    (fun i _ c _ db hij h => represents_of_confined hij (confined_call i c db) h) l ∅
    (fun kind => kind.empty) represents_empty kind

namespace HashMap

variable {ρ : Type}

theorem create_ok {id : String} {r : ρ} {duplicate : LedgerError} {map map' : Table String ρ}
    (h : create id r duplicate map = .ok () map') : map' = map.insert id r := by
  simp only [create, bind_def, get_def] at h
  cases hold : map.lookup id with
  | some old => simp [hold, bind_def] at h
  | none =>
    simp [hold] at h
    exact h.symm

theorem update_ok {id : String} {missing : LedgerError} {f : ρ → Except LedgerError ρ}
    {map map' : Table String ρ} (h : update id missing f map = .ok () map') :
    ∃ r new, map.lookup id = some r ∧ f r = .ok new ∧ map' = map.insert id new := by
  simp only [update, bind_def, get_def] at h
  cases hold : map.lookup id with
  | none => simp [hold] at h
  | some r =>
    cases hf : f r with
    | error e => simp [hold, hf, bind_def] at h
    | ok new =>
      simp [hold, hf, bind_def] at h
      exact ⟨r, new, rfl, hf, h.symm⟩

theorem create_error {id : String} {r : ρ} {duplicate e : LedgerError} {map map' : Table String ρ}
    (h : create id r duplicate map = .error e map') : map' = map := by
  simp only [create, bind_def, get_def] at h
  cases hold : map.lookup id with
  | some old =>
    simp only [hold, Option.isSome_some, if_true, bind_def, throw_def, EStateM.Result.error.injEq] at h
    exact h.2.symm
  | none => simp [hold] at h

theorem update_error {id : String} {missing e : LedgerError} {f : ρ → Except LedgerError ρ}
    {map map' : Table String ρ} (h : update id missing f map = .error e map') : map' = map := by
  simp only [update, bind_def, get_def] at h
  cases hold : map.lookup id with
  | none =>
    simp [hold] at h
    exact h.2.symm
  | some r =>
    cases hf : f r with
    | error e =>
      simp [hold, hf, bind_def] at h
      exact h.2.symm
    | ok new => simp [hold, hf, bind_def] at h

end HashMap

/-! ### Gates -/

/-- A node may vote when it is healthy and has applied all that is committed. -/
def canVote (status : ReplicationStatus) : Bool :=
  status.syncStatus = .healthy && status.appliedSequence == status.committedSequence

structure VotingGate where
  syncStatus : ReplicationStatus
  membership : NodeMembership

namespace VotingGate

def canVote (gate : VotingGate) : Bool :=
  gate.membership.role = .voter &&
    gate.syncStatus.appliedSequence == gate.syncStatus.committedSequence &&
    gate.syncStatus.syncStatus = .healthy

def canPropose (gate : VotingGate) : Bool := gate.canVote

def reasonBlocked (gate : VotingGate) : List String :=
  (if gate.membership.role ≠ .voter then
    ["node " ++ gate.membership.nodeId ++ " is not a voter (role: " ++ gate.membership.role.debug ++ ")"]
  else []) ++
  (if gate.syncStatus.appliedSequence ≠ gate.syncStatus.committedSequence then
    ["applied sequence " ++ toString gate.syncStatus.appliedSequence ++ " != committed sequence " ++
      toString gate.syncStatus.committedSequence]
  else []) ++
  if gate.syncStatus.syncStatus ≠ .healthy then
    ["sync status is " ++ gate.syncStatus.syncStatus.debug]
  else []

/-- Whoever may not vote is told why. -/
theorem reasonBlocked_eq_nil_iff (gate : VotingGate) :
    gate.reasonBlocked = [] ↔ gate.canVote = true := by
  simp [reasonBlocked, VotingGate.canVote, and_assoc]

/-- The gate is the check of the status for those that are voters. -/
theorem canVote_eq (gate : VotingGate) :
    gate.canVote = (decide (gate.membership.role = .voter) && Ledger.canVote gate.syncStatus) := by
  simp only [VotingGate.canVote, Ledger.canVote, Bool.and_assoc]
  rw [Bool.and_comm (_ == _)]

end VotingGate

/-! ### What the acknowledged calls say -/

/-- One role may be followed by another. -/
def Allowed (current target : NodeRole) : Prop := validateRoleTransition current target = .ok ()

namespace MembershipCall

/-- The role that a call gives to a node. -/
def roleFor (id : String) : MembershipCall → Option NodeRole
  | .promote nodeId role => if nodeId = id then some role else none
  | _ => none

def heartbeatFor (id : String) : MembershipCall → Option UInt64
  | .updateHeartbeat nodeId bucket => if nodeId = id then some bucket else none
  | _ => none

/-- A call that puts a node in or takes it out. -/
def Replaces (id : String) : MembershipCall → Prop
  | .addNode node => node.nodeId = id
  | .removeNode nodeId => nodeId = id
  | _ => False

end MembershipCall

/-- What a record has become of a node that was added: it was given roles, each allowed
after the one before, and has given signs of life. -/
structure Become (id : String) (node : NodeMembership) (since : List MembershipCall)
    (r : NodeMembership) : Prop where
  named : node.nodeId = id
  there : ∀ c ∈ since, ¬ c.Replaces id
  climbs : (node.role :: since.filterMap (MembershipCall.roleFor id)).IsChain Allowed
  record : r = { node with
    role := (since.filterMap (MembershipCall.roleFor id)).getLastD node.role
    lastHeartbeatBucket :=
      (since.filterMap (MembershipCall.heartbeatFor id)).getLastD node.lastHeartbeatBucket }

/-- A record is explained by calls: the last one that put the node in, and those since. -/
def Explained (calls : List MembershipCall) (id : String) (r : NodeMembership) : Prop :=
  ∃ before node since, calls = before ++ .addNode node :: since ∧ Become id node since r

/-- The last of some, or else one more. -/
theorem getLastD_append_toList {α : Type} (l : List α) (o : Option α) (d : α) :
    (l ++ o.toList).getLastD d = o.getD (l.getLastD d) := by
  cases o with
  | none => rw [Option.toList_none, List.append_nil, Option.getD_none]
  | some a => rw [Option.toList_some, List.getLastD_concat, Option.getD_some]

section Explained
variable {id : String} {r : NodeMembership} {node : NodeMembership} {calls since : List MembershipCall}

theorem Become.role (h : Become id node since r) :
    r.role = (since.filterMap (MembershipCall.roleFor id)).getLastD node.role := by
  rw [h.record]

theorem filterMap_concat {α : Type} (f : MembershipCall → Option α) (c : MembershipCall) :
    (since ++ [c]).filterMap f = since.filterMap f ++ (f c).toList := by
  rw [List.filterMap_append]
  cases hc : f c <;> simp [hc]

theorem Become.next (h : Become id node since r) {c : MembershipCall} (hc : ¬ c.Replaces id)
    {r' : NodeMembership}
    (hrole : ∀ role ∈ c.roleFor id, Allowed r.role role)
    (hrecord : r' = { r with
      role := (c.roleFor id).getD r.role
      lastHeartbeatBucket := (c.heartbeatFor id).getD r.lastHeartbeatBucket }) :
    Become id node (since ++ [c]) r' where
  named := h.named
  there := List.forall_mem_append.mpr ⟨h.there, List.forall_mem_singleton.mpr hc⟩
  climbs := by
    rw [filterMap_concat, ← List.cons_append, List.isChain_append]
    refine ⟨h.climbs, ?_, fun current hcurrent target htarget => ?_⟩
    · cases c.roleFor id <;> simp
    · rw [List.getLast?_cons, Option.mem_some_iff] at hcurrent
      have htarget : c.roleFor id = some target := by
        cases hc : c.roleFor id <;> simp_all
      have hallowed := hrole target htarget
      rw [h.role, List.getLastD_eq_getLast?, hcurrent] at hallowed
      exact hallowed
  record := by
    rw [hrecord, filterMap_concat, filterMap_concat, getLastD_append_toList, getLastD_append_toList]
    rw [h.record]

theorem Explained.next (h : Explained calls id r) {c : MembershipCall} (hc : ¬ c.Replaces id)
    {r' : NodeMembership}
    (hrole : ∀ role ∈ c.roleFor id, Allowed r.role role)
    (hrecord : r' = { r with
      role := (c.roleFor id).getD r.role
      lastHeartbeatBucket := (c.heartbeatFor id).getD r.lastHeartbeatBucket }) :
    Explained (calls ++ [c]) id r' := by
  obtain ⟨before, node, since, rfl, hbecome⟩ := h
  exact ⟨before, node, since ++ [c], by simp, hbecome.next hc hrole hrecord⟩

end Explained

/-! ### Every record is explained -/

/-- Every record of the store in memory, by the calls that were acknowledged. -/
def AllExplained (history : List MembershipCall) (map : Table String NodeMembership) : Prop :=
  ∀ id r, map.lookup id = some r → Explained history id r

section Members
variable {order : MapOrder NodeMembership} {history : List MembershipCall} {c : MembershipCall}
  {map map' : Table String NodeMembership} {reply : MembershipReply}

/-- A call that leaves the record of a node as it is. -/
theorem Explained.unrelated {id : String} {r : NodeMembership} (h : Explained history id r)
    (hreplaces : ¬ c.Replaces id) (hrole : c.roleFor id = none) (hheartbeat : c.heartbeatFor id = none) :
    Explained (history ++ [c]) id r := by
  refine h.next hreplaces (by simp [hrole]) ?_
  rw [hrole, hheartbeat]
  rfl

/-- A node is changed in place. -/
theorem AllExplained.updated (h : AllExplained history map) {nodeId : String}
    {missing : LedgerError} {f : NodeMembership → Except LedgerError NodeMembership}
    (hupdate : HashMap.update nodeId missing f map = .ok () map')
    (hnone : ∀ id, ¬ c.Replaces id)
    (hothers : ∀ id, id ≠ nodeId → c.roleFor id = none ∧ c.heartbeatFor id = none)
    (hf : ∀ r r', f r = .ok r' → (∀ role ∈ c.roleFor nodeId, Allowed r.role role) ∧
      r' = { r with
        role := (c.roleFor nodeId).getD r.role
        lastHeartbeatBucket := (c.heartbeatFor nodeId).getD r.lastHeartbeatBucket }) :
    AllExplained (history ++ [c]) map' := by
  obtain ⟨r, new, hr, hnew, rfl⟩ := HashMap.update_ok hupdate
  obtain ⟨hrole, hrecord⟩ := hf r new hnew
  intro id r' hlookup
  by_cases hid : id = nodeId
  · subst hid
    rw [Finmap.lookup_insert, Option.some.injEq] at hlookup
    rw [← hlookup]
    exact (h id r hr).next (hnone id) hrole hrecord
  · rw [Finmap.lookup_insert_of_ne map hid] at hlookup
    exact (h id r' hlookup).unrelated (hnone id) (hothers id hid).1 (hothers id hid).2

theorem AllExplained.read (h : AllExplained history map) (hreplaces : ∀ id, ¬ c.Replaces id)
    (hrole : ∀ id, c.roleFor id = none) (hheartbeat : ∀ id, c.heartbeatFor id = none) :
    AllExplained (history ++ [c]) map :=
  fun id r hr => (h id r hr).unrelated (hreplaces id) (hrole id) (hheartbeat id)

theorem AllExplained.ok (h : AllExplained history map)
    (hcall : (InMemoryMembershipStore.store order).call c map = .ok reply map') :
    AllExplained (history ++ [c]) map' := by
  cases c with
  | addNode node =>
    obtain ⟨_, hcall, _⟩ := map_eq_ok hcall
    rw [HashMap.create_ok hcall]
    intro id r hr
    by_cases hid : id = node.nodeId
    · rw [hid, Finmap.lookup_insert, Option.some.injEq] at hr
      subst hr
      exact ⟨history, node, [], rfl, ⟨hid.symm, by simp, .singleton _, rfl⟩⟩
    · rw [Finmap.lookup_insert_of_ne map hid] at hr
      exact (h id r hr).unrelated (Ne.symm hid) rfl rfl
  | getNode nodeId =>
    obtain ⟨_, hcall, _⟩ := map_eq_ok hcall
    cases hcall
    exact h.read (fun _ => id) (fun _ => rfl) fun _ => rfl
  | listByRole role =>
    obtain ⟨_, hcall, _⟩ := map_eq_ok hcall
    cases hcall
    exact h.read (fun _ => id) (fun _ => rfl) fun _ => rfl
  | promote nodeId role =>
    obtain ⟨_, hcall, _⟩ := map_eq_ok hcall
    refine h.updated hcall (fun _ => id) (fun id hid => ⟨if_neg (Ne.symm hid), rfl⟩) fun r r' hr => ?_
    obtain ⟨_, hallowed, hr⟩ := except_bind_ok.mp hr
    cases hr
    simp only [MembershipCall.roleFor, if_pos, Option.mem_some_iff, MembershipCall.heartbeatFor]
    exact ⟨fun _ hsame => hsame ▸ hallowed, rfl⟩
  | removeNode nodeId =>
    obtain ⟨_, hcall, _⟩ := map_eq_ok hcall
    cases hcall
    intro id r hr
    by_cases hid : id = nodeId
    · rw [hid, Finmap.lookup_erase] at hr
      cases hr
    · rw [Finmap.lookup_erase_ne hid] at hr
      exact (h id r hr).unrelated (Ne.symm hid) rfl rfl
  | updateHeartbeat nodeId bucket =>
    obtain ⟨_, hcall, _⟩ := map_eq_ok hcall
    refine h.updated hcall (fun _ => id) (fun id hid => ⟨rfl, if_neg (Ne.symm hid)⟩) fun r r' hr => ?_
    cases hr
    simp [MembershipCall.roleFor, MembershipCall.heartbeatFor]

theorem members_error {e : LedgerError}
    (hcall : (InMemoryMembershipStore.store order).call c map = .error e map') : map' = map := by
  cases c with
  | addNode node => exact HashMap.create_error (map_eq_error hcall)
  | getNode nodeId => cases hcall
  | listByRole role => cases hcall
  | promote nodeId role => exact HashMap.update_error (map_eq_error hcall)
  | removeNode nodeId => cases hcall
  | updateHeartbeat nodeId bucket => exact HashMap.update_error (map_eq_error hcall)

end Members

theorem allExplained_of_transcript {x : StoreCrates} {l : List MembershipCall}
    {t t' : List (MembershipCall × Except LedgerError MembershipReply)} {id : String}
    {r : NodeMembership}
    (h : transcript (memoryCall x .membership) l ∅ = t ++ (.getNode id, .ok (.node (some r))) :: t') :
    Explained (acknowledged t) id r := by
  have hempty : AllExplained [] ∅ := fun id r hr => by cases hr
  have hok (history : List MembershipCall) (s : Table String NodeMembership) (c : MembershipCall)
      (a : MembershipReply) (s' : Table String NodeMembership) (hall : AllExplained history s)
      (hcall : memoryCall x .membership c s = .ok a s') : AllExplained (history ++ [c]) s' :=
    hall.ok hcall
  have herror (history : List MembershipCall) (s : Table String NodeMembership) (c : MembershipCall)
      (e : LedgerError) (s' : Table String NodeMembership) (hall : AllExplained history s)
      (hcall : memoryCall x .membership c s = .error e s') : AllExplained history s' :=
    members_error hcall ▸ hall
  obtain ⟨map, hall, hanswer⟩ := history_of_transcript hok herror hempty h
  refine hall id r ?_
  have hread : outcome (MembershipReply.node <$> HashMap.read id) map = .ok (.node (some r)) :=
    hanswer.symm
  rw [outcome_map] at hread
  exact MembershipReply.node.inj (Except.ok.inj hread)

theorem storeExplained_of_transcript {x : StoreCrates} (hx : x.Total)
    {l : List (Σ kind : StoreKind, kind.Call)}
    {t t' : List (MembershipCall × Except LedgerError MembershipReply)} {id : String}
    {r : NodeMembership}
    (h : storeTranscript x l .membership = t ++ (.getNode id, .ok (.node (some r))) :: t') :
    Explained (acknowledged t) id r := by
  rw [storeTranscript_eq hx] at h
  exact allExplained_of_transcript h

/-! ### A node on its way up -/

def newcomer : NodeMembership where
  nodeId := "node-1"
  role := .observer
  onionEndpoint := none
  identityPubkey := "aa"
  attestedAtBucket := 1
  joinedEpoch := 1
  lastHeartbeatBucket := 0
  admissionSignature := none

/-- What is asked of the two stores while the node goes up. -/
def wayUp : List (Σ kind : StoreKind, kind.Call) :=
  [⟨.membership, .addNode newcomer⟩, ⟨.membership, .promote "node-1" .voter⟩,
    ⟨.nonce, .markConsumed "node-1"⟩, ⟨.membership, .promote "node-1" .learner⟩,
    ⟨.membership, .promote "node-1" .voter⟩, ⟨.membership, .getNode "node-1"⟩]

/-- The first promotion to voter is refused. -/
def wayUpAnswers : List (MembershipCall × Except LedgerError MembershipReply) :=
  [(.addNode newcomer, .ok .done),
    (.promote "node-1" .voter, .error (.invalidRoleTransition .observer .voter)),
    (.promote "node-1" .learner, .ok .done), (.promote "node-1" .voter, .ok .done)]

theorem wayUp_transcript :
    storeTranscript recordedCrates wayUp .membership =
      wayUpAnswers ++ [(.getNode "node-1", .ok (.node (some { newcomer with role := .voter })))] := by
  rw [storeTranscript_eq recordedCrates_total]
  rfl

/-- **A node is what it was made.** In the database that six stores share, whatever is done
to them and in whatever order, and in memory, a node that the store finds was added by an
acknowledged call, and its role and last sign of life come from the acknowledged calls
since then, which gave it one role after another, each allowed after the one before. The
rest of the record, its key among it, is as it was added. -/
theorem admission_history {x : StoreCrates} (hx : x.Total) :
    (∀ l t t' id r, storeTranscript x l .membership =
        t ++ (MembershipCall.getNode id, .ok (.node (some r))) :: t' →
      Explained (acknowledged t) id r) ∧
      ∀ l t t' id r, transcript (memoryCall x .membership) l ∅ =
        t ++ (MembershipCall.getNode id, .ok (.node (some r))) :: t' →
      Explained (acknowledged t) id r := by
  refine ⟨fun l t t' id r h => ?_, fun l t t' id r h => ?_⟩
  · exact storeExplained_of_transcript hx h
  · exact allExplained_of_transcript h

theorem admission_history_newcomer :
    Explained [.addNode newcomer, .promote "node-1" .learner, .promote "node-1" .voter] "node-1"
      { newcomer with role := .voter } :=
  (admission_history recordedCrates_total).1 wayUp wayUpAnswers [] "node-1" _ wayUp_transcript

/-! ### Who may vote -/

/-- The roles of a voter, in order: it was added as one, or as a learner, or the last three
are those from observer up. -/
def Climbed (roles : List NodeRole) : Prop :=
  roles = [.voter] ∨ roles = [.learner, .voter] ∨
    ∃ earlier, roles = earlier ++ [.observer, .learner, .voter]

/-- The calls have made a voter of a node. -/
def MadeVoter (calls : List MembershipCall) (id : String) : Prop :=
  ∃ before node since, calls = before ++ .addNode node :: since ∧ node.nodeId = id ∧
    (∀ c ∈ since, ¬ c.Replaces id) ∧
      Climbed (node.role :: since.filterMap (MembershipCall.roleFor id))

theorem allowed_voter_iff {current : NodeRole} : Allowed current .voter ↔ current = .learner := by
  cases current <;> simp [Allowed, validateRoleTransition]

theorem allowed_learner_iff {current : NodeRole} :
    Allowed current .learner ↔ current = .observer := by
  cases current <;> simp [Allowed, validateRoleTransition]

/-- Before the last role there was none, or one that allows it. -/
theorem before_last {roles : List NodeRole} {role : NodeRole}
    (h : (roles ++ [role]).IsChain Allowed) :
    roles = [] ∨ ∃ earlier current, roles = earlier ++ [current] ∧ Allowed current role := by
  obtain rfl | ⟨earlier, current, rfl⟩ := List.eq_nil_or_concat' roles
  · exact .inl rfl
  · refine .inr ⟨earlier, current, rfl, ?_⟩
    exact (List.isChain_append.mp h).2.2 current (by simp) role (by simp)

theorem climbed_of_isChain {roles : List NodeRole} (h : (roles ++ [NodeRole.voter]).IsChain Allowed) :
    Climbed (roles ++ [.voter]) := by
  obtain rfl | ⟨roles, current, rfl, hcurrent⟩ := before_last h
  · exact .inl rfl
  obtain rfl := allowed_voter_iff.mp hcurrent
  obtain rfl | ⟨earlier, current, rfl, hcurrent⟩ := before_last (List.isChain_append.mp h).1
  · exact .inr (.inl rfl)
  obtain rfl := allowed_learner_iff.mp hcurrent
  exact .inr (.inr ⟨earlier, by simp⟩)

theorem Explained.madeVoter {calls : List MembershipCall} {id : String} {r : NodeMembership}
    (h : Explained calls id r) (hrole : r.role = .voter) : MadeVoter calls id := by
  obtain ⟨before, node, since, rfl, hbecome⟩ := h
  refine ⟨before, node, since, rfl, hbecome.named, hbecome.there, ?_⟩
  have hlast : (node.role :: since.filterMap (MembershipCall.roleFor id)).getLast? = some .voter := by
    rw [List.getLast?_cons, ← List.getLastD_eq_getLast?, ← hbecome.role, hrole]
  obtain ⟨roles, hroles⟩ := List.getLast?_eq_some_iff.mp hlast
  have hclimbs := hbecome.climbs
  rw [hroles] at hclimbs ⊢
  exact climbed_of_isChain hclimbs

theorem VotingGate.role_of_canVote {gate : VotingGate} (h : gate.canVote = true) :
    gate.membership.role = .voter := by
  rw [canVote_eq, Bool.and_eq_true, decide_eq_true_eq] at h
  exact h.1

/-- **Nobody votes who has not climbed.** Whoever passes the gate with the record that a
store returned, of the database that six stores share or in memory, was put in by an
acknowledged call, and the acknowledged calls since then have made it observer, learner and
voter one after another, unless it was added as a learner or voter at once. -/
theorem voters_climbed {x : StoreCrates} (hx : x.Total) :
    (∀ l t t' id r status, storeTranscript x l .membership =
        t ++ (MembershipCall.getNode id, .ok (.node (some r))) :: t' →
      (VotingGate.mk status r).canVote = true → MadeVoter (acknowledged t) id) ∧
      ∀ l t t' id r status, transcript (memoryCall x .membership) l ∅ =
        t ++ (MembershipCall.getNode id, .ok (.node (some r))) :: t' →
      (VotingGate.mk status r).canVote = true → MadeVoter (acknowledged t) id := by
  refine ⟨fun l t t' id r status h hvote => ?_, fun l t t' id r status h hvote => ?_⟩
  · exact (storeExplained_of_transcript hx h).madeVoter (VotingGate.role_of_canVote hvote)
  · exact (allExplained_of_transcript h).madeVoter (VotingGate.role_of_canVote hvote)

theorem voters_climbed_newcomer :
    MadeVoter [.addNode newcomer, .promote "node-1" .learner, .promote "node-1" .voter] "node-1" :=
  (voters_climbed recordedCrates_total).1 wayUp wayUpAnswers [] "node-1" _
    ⟨1, 7, 7, "root", 0, .healthy⟩ wayUp_transcript rfl

end Kerosene.Ledger
