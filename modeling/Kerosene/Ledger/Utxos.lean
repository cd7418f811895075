import Kerosene.Ledger.Atomicity

/-! What a command can do to the UTXOs, said once.

Six commands work on the one entry their key names: `UtxoMove` lists what they
make of it, and `apply_utxo` says that they do that or fail. A reorganization
works on all entries and adds new ones (`mem_reorganize`). Together these are
`UtxosStep`, and `after_apply_utxos` says that any call, failed ones included, is
one. Everything that holds of the UTXOs along a run follows from it. -/
namespace Kerosene.Ledger

open Lib.Inplace Lib.Keyed

/-! ### One entry -/

/-- What a command on the UTXO at `o` makes of the entry there. -/
inductive UtxoMove (sm : StateMachine) (c : LedgerCommand) (o : OutPoint) :
    Option UtxoEntry → UtxoEntry → Prop
  | detected {payload : DetectUtxoPayload} (hc : c.commandType = .detectUtxo)
      (hpayload : sm.detectUtxoPayload c = .ok payload) (hvalue : payload.valueSats ≠ 0)
      (haddress : payload.address ≠ "") :
      UtxoMove sm c o none (.newSeen o payload.valueSats payload.address c.createdAtBucket)
  | detectedAgain {payload : DetectUtxoPayload} {u : UtxoEntry} (hc : c.commandType = .detectUtxo)
      (hpayload : sm.detectUtxoPayload c = .ok payload) (hvalue : payload.valueSats ≠ 0)
      (haddress : payload.address ≠ "") (hstate : u.state = .reorged) :
      UtxoMove sm c o (some u) { u with state := .seen, detectedAtBucket := c.createdAtBucket }
  | tracked {payload : DetectUtxoPayload} {u : UtxoEntry} (hc : c.commandType = .detectUtxo)
      (hpayload : sm.detectUtxoPayload c = .ok payload) (hvalue : payload.valueSats ≠ 0)
      (haddress : payload.address ≠ "") (hstate : u.state ≠ .reorged) :
      UtxoMove sm c o (some u) u
  | confirmed {height : UInt64} {u : UtxoEntry} (hc : c.commandType = .confirmUtxo)
      (hheight : c.blockHeight = .ok height)
      (hstate : UtxoTransitionGate.allowed u.state .confirming = true) :
      UtxoMove sm c o (some u) { u with
        state := .confirming
        blockHeight := some height
        confirmedAtBucket := some c.createdAtBucket }
  | spendable {u : UtxoEntry} (hc : c.commandType = .markUtxoSpendable)
      (hstate : UtxoTransitionGate.allowed u.state .spendable = true) :
      UtxoMove sm c o (some u) { u with state := .spendable }
  | reserved {u : UtxoEntry} (hc : c.commandType = .reserveUtxo)
      (hholder : c.authorizationCommitment ≠ "")
      (hstate : u.state = .spendable ∨ u.state = .finalizedByPolicy) (hfree : u.reservedBy = none) :
      UtxoMove sm c o (some u) { u with
        reservedBy := some c.authorizationCommitment
        reservedAtBucket := some c.createdAtBucket }
  | released {u : UtxoEntry} (hc : c.commandType = .releaseUtxo) (hheld : u.reservedBy ≠ none) :
      UtxoMove sm c o (some u) { u with reservedBy := none, reservedAtBucket := none }
  | spent {u : UtxoEntry} (hc : c.commandType = .markUtxoSpent)
      (hstate : UtxoTransitionGate.allowed u.state .spent = true) :
      UtxoMove sm c o (some u) { u with
        reservedBy := none
        reservedAtBucket := none
        state := .spent
        spentAtBucket := some c.createdAtBucket
        spentByTxid := if c.authorizationCommitment = "" then none else some c.authorizationCommitment }

namespace UtxoMove

variable {sm : StateMachine} {c : LedgerCommand} {o : OutPoint}

/-- A move keeps what identifies an entry and what it is worth. -/
theorem keeps {u u' : UtxoEntry} (h : UtxoMove sm c o (some u) u') :
    u'.outpoint = u.outpoint ∧ u'.valueSats = u.valueSats ∧ u'.address = u.address := by
  cases h <;> exact ⟨rfl, rfl, rfl⟩

theorem outpoint_eq {l : List UtxoEntry} {u : UtxoEntry}
    (h : UtxoMove sm c o (find UtxoEntry.outpoint o l) u) : u.outpoint = o := by
  cases hf : find UtxoEntry.outpoint o l with
  | none =>
    rw [hf] at h
    cases h
    rfl
  | some v =>
    rw [hf] at h
    exact h.keeps.1.trans (key_of_find hf)

end UtxoMove

/-! ### Reorganizations -/

section Connect
variable {bucket : UInt64}

/-- Keys name outpoints, so an entry is taken for tracked exactly when its outpoint is. -/
theorem tracked_iff {l : List UtxoEntry} {e : UtxoEntry} :
    (l.any fun u => u.canonicalKey == e.canonicalKey) = true ↔
      find UtxoEntry.outpoint e.outpoint l ≠ none := by
  rw [Ne, find_eq_none]
  simp [UtxoEntry.canonicalKey_inj]

theorem connect_tracked {l rest : List UtxoEntry} {e : UtxoEntry}
    (h : find UtxoEntry.outpoint e.outpoint l ≠ none) :
    (ReorgHandler.connect bucket (e :: rest) l).1 = (ReorgHandler.connect bucket rest l).1 := by
  rw [ReorgHandler.connect, if_pos (tracked_iff.mpr h)]

theorem connect_new {l rest : List UtxoEntry} {e : UtxoEntry}
    (h : find UtxoEntry.outpoint e.outpoint l = none) :
    (ReorgHandler.connect bucket (e :: rest) l).1 =
      (ReorgHandler.connect bucket rest
        (l ++ [{ e with state := .seen, detectedAtBucket := bucket }])).1 := by
  rw [ReorgHandler.connect, if_neg (fun htracked => tracked_iff.mp htracked h)]

theorem nodup_connect {new l : List UtxoEntry} (hl : (l.map UtxoEntry.outpoint).Nodup) :
    ((ReorgHandler.connect bucket new l).1.map UtxoEntry.outpoint).Nodup := by
  induction new generalizing l with
  | nil => exact hl
  | cons e rest ih =>
    by_cases h : find UtxoEntry.outpoint e.outpoint l = none
    · rw [connect_new h]
      exact ih (nodup_append_fresh hl h)
    · rw [connect_tracked h]
      exact ih hl

/-- What is connected is what was tracked, and of the new entries the first under each
outpoint that was not. -/
theorem mem_connect {new l : List UtxoEntry} {u : UtxoEntry} :
    u ∈ (ReorgHandler.connect bucket new l).1 ↔
      u ∈ l ∨ ∃ e, find UtxoEntry.outpoint e.outpoint new = some e ∧
        find UtxoEntry.outpoint e.outpoint l = none ∧
        u = { e with state := .seen, detectedAtBucket := bucket } := by
  induction new generalizing l with
  | nil => simp [ReorgHandler.connect, find]
  | cons e rest ih =>
    by_cases h : find UtxoEntry.outpoint e.outpoint l = none
    · rw [connect_new h, ih, List.mem_append, List.mem_singleton, or_assoc]
      refine or_congr_right ?_
      constructor
      · intro hu
        rcases hu with rfl | ⟨e', hnew, hl, rfl⟩
        · refine ⟨e, ?_, h, rfl⟩
          rw [find_cons, if_pos rfl]
        · -- The entry just added stands before those of the rest with its outpoint.
          have hne : e.outpoint ≠ e'.outpoint := fun heq =>
            find_eq_none.mp hl _ (List.mem_append_right _ List.mem_cons_self) heq
          refine ⟨e', ?_, ?_, rfl⟩
          · rw [find_cons, if_neg hne]
            exact hnew
          · exact find_eq_none.mpr fun a ha => find_eq_none.mp hl a (List.mem_append_left _ ha)
      · intro hu
        obtain ⟨e', hnew, hl, rfl⟩ := hu
        rw [find_cons] at hnew
        by_cases heq : e.outpoint = e'.outpoint
        · rw [if_pos heq] at hnew
          cases hnew
          exact .inl rfl
        · rw [if_neg heq] at hnew
          refine .inr ⟨e', hnew, find_eq_none.mpr fun a ha => ?_, rfl⟩
          rcases List.mem_append.mp ha with ha | ha
          · exact find_eq_none.mp hl a ha
          · rw [List.mem_singleton.mp ha]
            exact heq
    · rw [connect_tracked h, ih]
      refine or_congr_right (exists_congr fun e' => ?_)
      rw [find_cons]
      by_cases heq : e.outpoint = e'.outpoint
      · rw [heq] at h
        simp [h]
      · rw [if_neg heq]

/-- A search after connecting finds what was tracked, else the first new entry. -/
theorem find_connect (o : OutPoint) (new l : List UtxoEntry) :
    find UtxoEntry.outpoint o (ReorgHandler.connect bucket new l).1 =
      (find UtxoEntry.outpoint o l).or ((find UtxoEntry.outpoint o new).map fun e =>
        { e with state := .seen, detectedAtBucket := bucket }) := by
  induction new generalizing l with
  | nil => exact (Option.or_none).symm
  | cons e rest ih =>
    rw [find_cons]
    by_cases h : find UtxoEntry.outpoint e.outpoint l = none
    · rw [connect_new h, ih, find_append, find_cons]
      by_cases ho : e.outpoint = o
      · rw [← ho, h]
        simp
      · simp [ho, find]
    · rw [connect_tracked h, ih]
      by_cases ho : e.outpoint = o
      · rw [ho] at h
        obtain ⟨u, hu⟩ := Option.ne_none_iff_exists'.mp h
        simp [hu]
      · rw [if_neg ho]

end Connect

namespace ReorgPayload

variable (p : ReorgPayload) (bucket : UInt64) (l : List UtxoEntry)

/-- The UTXOs after a reorganization. -/
def reorganize : List UtxoEntry :=
  (ReorgHandler.connect bucket p.newUtxos (l.map (ReorgHandler.disconnect p.disconnectedTxids))).1

/-- An entry of the payload that is new: the first one with its outpoint, which is
not tracked. -/
def Brings (e : UtxoEntry) : Prop :=
  find UtxoEntry.outpoint e.outpoint p.newUtxos = some e ∧
    find UtxoEntry.outpoint e.outpoint l = none

variable {p bucket l}

theorem disconnect_keeps (txids : List String) (u : UtxoEntry) :
    (ReorgHandler.disconnect txids u).outpoint = u.outpoint ∧
      (ReorgHandler.disconnect txids u).valueSats = u.valueSats ∧
      (ReorgHandler.disconnect txids u).address = u.address ∧
      (ReorgHandler.disconnect txids u).reservedBy = u.reservedBy ∧
      (ReorgHandler.disconnect txids u).reservedAtBucket = u.reservedAtBucket := by
  unfold ReorgHandler.disconnect
  split <;> exact ⟨rfl, rfl, rfl, rfl, rfl⟩

theorem map_outpoint_disconnect (txids : List String) :
    (l.map (ReorgHandler.disconnect txids)).map UtxoEntry.outpoint = l.map UtxoEntry.outpoint := by
  rw [List.map_map]
  exact List.map_congr_left fun u _ => (disconnect_keeps txids u).1

theorem find_disconnect_eq_none (txids : List String) (o : OutPoint) :
    find UtxoEntry.outpoint o (l.map (ReorgHandler.disconnect txids)) = none ↔
      find UtxoEntry.outpoint o l = none := by
  simp [find_eq_none, disconnect_keeps]

/-- After a reorganization there are the entries of before, those of disconnected
transactions reorganized, and the ones that the payload brings. -/
theorem mem_reorganize {u : UtxoEntry} :
    u ∈ p.reorganize bucket l ↔
      (∃ v ∈ l, u = ReorgHandler.disconnect p.disconnectedTxids v) ∨
        ∃ e, p.Brings l e ∧ u = { e with state := .seen, detectedAtBucket := bucket } := by
  unfold reorganize Brings
  rw [mem_connect, List.mem_map]
  simp only [find_disconnect_eq_none, and_assoc]
  exact or_congr_left (exists_congr fun v => and_congr_right fun _ => eq_comm)

theorem find_reorganize (o : OutPoint) :
    find UtxoEntry.outpoint o (p.reorganize bucket l) =
      ((find UtxoEntry.outpoint o l).map (ReorgHandler.disconnect p.disconnectedTxids)).or
        ((find UtxoEntry.outpoint o p.newUtxos).map fun e =>
          { e with state := .seen, detectedAtBucket := bucket }) := by
  rw [reorganize, find_connect, find_map_of_key fun u => (disconnect_keeps p.disconnectedTxids u).1]

theorem nodup_reorganize (hl : (l.map UtxoEntry.outpoint).Nodup) :
    ((p.reorganize bucket l).map UtxoEntry.outpoint).Nodup := by
  refine nodup_connect ?_
  rw [map_outpoint_disconnect]
  exact hl

end ReorgPayload

namespace StateMachine

/-! ### The checks on an entry -/

theorem lookupUtxo_ok {s : LedgerState} {o : OutPoint} {u : UtxoEntry} :
    lookupUtxo s o = .ok u ↔ s.findUtxo o = some u := by
  unfold lookupUtxo
  cases s.findUtxo o <;> simp

theorem validateTransition_ok {current target : OnchainState} :
    UtxoTransitionGate.validateTransition current target = .ok () ↔
      UtxoTransitionGate.allowed current target = true := by
  unfold UtxoTransitionGate.validateTransition
  cases UtxoTransitionGate.allowed current target <;> simp

theorem checkReservable_ok {u : UtxoEntry} :
    checkReservable u = .ok () ↔
      (u.state = .spendable ∨ u.state = .finalizedByPolicy) ∧ u.reservedBy = none := by
  unfold checkReservable
  by_cases hstate : u.state = .spendable ∨ u.state = .finalizedByPolicy
  · rw [if_neg (not_not.mpr hstate)]
    cases u.reservedBy <;> simp [hstate]
  · rw [if_pos hstate]
    simp [hstate]

theorem checkReserved_ok {u : UtxoEntry} : checkReserved u = .ok () ↔ u.reservedBy ≠ none := by
  unfold checkReserved
  cases u.reservedBy <;> simp

/-- An entry found, checked and then rewritten. -/
theorem onUtxo_checked_ok {o : OutPoint} {x : UtxoEntry → Except LedgerError Unit}
    {f : UtxoEntry → UtxoEntry} {s t : LedgerState} {a : Unit} :
    onUtxo o (do let v ← get; check (x v); set (f v)) s = .ok a t ↔
      ∃ u, s.findUtxo o = some u ∧ x u = .ok () ∧ t = s.writeUtxo (f u) := by
  unfold onUtxo lookupUtxo
  cases s.findUtxo o with
  | none => simp
  | some u =>
    simp only [bind_def, get_def]
    cases hx : x u <;> simp [hx, eq_comm]

theorem writeUtxo_found {s : LedgerState} {o : OutPoint} {u : UtxoEntry}
    (h : s.findUtxo o = some u) : s.writeUtxo u = s := by
  unfold LedgerState.writeUtxo
  rw [(put_eq_self (by rw [key_of_find h]; exact h)).mpr rfl]

theorem trackUtxo_new {s : LedgerState} {o : OutPoint} (h : s.findUtxo o = none)
    (payload : DetectUtxoPayload) (bucket : UInt64) :
    trackUtxo o payload bucket s =
      .ok () (s.writeUtxo (.newSeen o payload.valueSats payload.address bucket)) := by
  have hput : put UtxoEntry.outpoint (.newSeen o payload.valueSats payload.address bucket) s.utxos =
      s.utxos ++ [.newSeen o payload.valueSats payload.address bucket] := put_of_find_eq_none h
  unfold trackUtxo LedgerState.writeUtxo
  simp only [bind_def, get_def, h, set_def, hput]

theorem trackUtxo_reorged {s : LedgerState} {o : OutPoint} {u : UtxoEntry}
    (h : s.findUtxo o = some u) (hstate : u.state = .reorged) (payload : DetectUtxoPayload)
    (bucket : UInt64) :
    trackUtxo o payload bucket s =
      .ok () (s.writeUtxo { u with state := .seen, detectedAtBucket := bucket }) := by
  unfold trackUtxo
  simp only [bind_def, get_def, h, hstate]
  rfl

theorem trackUtxo_tracked {s : LedgerState} {o : OutPoint} {u : UtxoEntry}
    (h : s.findUtxo o = some u) (hstate : u.state ≠ .reorged) (payload : DetectUtxoPayload)
    (bucket : UInt64) : trackUtxo o payload bucket s = .ok () (s.writeUtxo u) := by
  rw [writeUtxo_found h]
  unfold trackUtxo
  simp only [bind_def, get_def, h, if_neg hstate]
  rfl

/-! ### The commands on one UTXO -/

variable (sm : StateMachine)

section Commands
variable {c : LedgerCommand} {s t : LedgerState} {affected : List String}

/-- The entry a command names is moved, and nothing else changes. -/
def MovesUtxo (c : LedgerCommand) (s t : LedgerState) : Prop :=
  ∃ o u, OutPoint.fromCanonicalString c.partitionKey = .ok o ∧ UtxoMove sm c o (s.findUtxo o) u ∧
    t = s.writeUtxo u

/-- A command that checks an entry and rewrites it. -/
theorem rewrite_ok {p : Except LedgerError OutPoint} {x : UtxoEntry → Except LedgerError Unit}
    {f : UtxoEntry → UtxoEntry} :
    (do
      let o ← check p
      onUtxo o (do let v ← get; check (x v); set (f v))
      return ["utxo"] : Update (List String)) s = .ok affected t ↔
      affected = ["utxo"] ∧ ∃ o u, p = .ok o ∧ s.findUtxo o = some u ∧ x u = .ok () ∧
        t = s.writeUtxo (f u) := by
  simp only [bind_ok, check_eq_ok, onUtxo_checked_ok, pure_def, EStateM.Result.ok.injEq]
  constructor
  · intro h
    obtain ⟨o, s, ⟨hp, rfl⟩, _, _, ⟨u, hu, hx, rfl⟩, rfl, rfl⟩ := h
    exact ⟨rfl, o, u, hp, hu, hx, rfl⟩
  · intro h
    obtain ⟨rfl, o, u, hp, hu, hx, rfl⟩ := h
    exact ⟨o, s, ⟨hp, rfl⟩, (), _, ⟨u, hu, hx, rfl⟩, rfl, rfl⟩

/-- The checks of a command that validation makes first. -/
theorem validate_rewrite {p : Except LedgerError OutPoint} {x : UtxoEntry → Except LedgerError Unit} :
    (do let o ← p; let u ← lookupUtxo s o; x u) = Except.ok () ↔
      ∃ o u, p = .ok o ∧ s.findUtxo o = some u ∧ x u = .ok () := by
  simp only [except_bind_ok, lookupUtxo_ok]
  constructor
  · intro h
    obtain ⟨o, hp, u, hu, hx⟩ := h
    exact ⟨o, u, hp, hu, hx⟩
  · intro h
    obtain ⟨o, u, hp, hu, hx⟩ := h
    exact ⟨o, hp, u, hu, hx⟩

/-- Validation of a detection. -/
theorem validate_detectUtxo (hc : c.commandType = .detectUtxo) :
    sm.validate s c = .ok () ↔
      (∃ o, OutPoint.fromCanonicalString c.partitionKey = .ok o) ∧
        ∃ payload, sm.detectUtxoPayload c = .ok payload ∧ payload.valueSats ≠ 0 ∧
          payload.address ≠ "" := by
  have hguard (payload : DetectUtxoPayload) :
      (if payload.valueSats = 0 then do
          throw (LedgerError.invalidUtxoData "DetectUtxo value_sats must be > 0")
          if payload.address = "" then
            throw (LedgerError.invalidUtxoData "DetectUtxo address must not be empty")
          else pure ()
        else
          if payload.address = "" then
            throw (LedgerError.invalidUtxoData "DetectUtxo address must not be empty")
          else pure () : Except LedgerError Unit) = .ok () ↔
        payload.valueSats ≠ 0 ∧ payload.address ≠ "" := by
    by_cases hvalue : payload.valueSats = 0
    · simp [hvalue, Bind.bind, Except.bind, throw, throwThe, MonadExceptOf.throw]
    · by_cases haddress : payload.address = "" <;>
        simp [hvalue, haddress, throw, throwThe, MonadExceptOf.throw, pure, Except.pure]
  unfold validate
  rw [hc]
  simp only [except_bind_ok, hguard, exists_and_right]

theorem validate_reserveUtxo (hc : c.commandType = .reserveUtxo) :
    sm.validate s c = .ok () ↔
      c.authorizationCommitment ≠ "" ∧ ∃ o u, OutPoint.fromCanonicalString c.partitionKey = .ok o ∧
        s.findUtxo o = some u ∧ checkReservable u = .ok () := by
  unfold validate
  rw [hc, ← validate_rewrite]
  by_cases hholder : c.authorizationCommitment = ""
  · cases OutPoint.fromCanonicalString c.partitionKey <;>
      simp [hholder, Bind.bind, Except.bind, throw, throwThe, MonadExceptOf.throw]
  · simp [hholder]

/-- A command on one UTXO that is accepted moves the entry it names. -/
theorem movesUtxo_of_ok (hc : c.commandType.group = .utxo) (hvalid : sm.validate s c = .ok ())
    (htransition : sm.transition c s = .ok affected t) : affected = ["utxo"] ∧ MovesUtxo sm c s t := by
  unfold transition at htransition
  cases ht : c.commandType <;> rw [ht] at hc htransition
  case detectUtxo =>
    obtain ⟨_, payload, hpayload, hvalue, haddress⟩ := (validate_detectUtxo sm ht).mp hvalid
    simp only [bind_ok, check_eq_ok, pure_def, EStateM.Result.ok.injEq] at htransition
    obtain ⟨o, _, ⟨ho, rfl⟩, _, s, ⟨hpayload', rfl⟩, _, _, htrack, rfl, rfl⟩ := htransition
    cases Except.ok.inj (hpayload'.symm.trans hpayload)
    refine ⟨rfl, o, ?_⟩
    cases hf : s.findUtxo o with
    | none =>
      rw [trackUtxo_new hf] at htrack
      cases htrack
      exact ⟨_, ho, .detected ht hpayload hvalue haddress, rfl⟩
    | some u =>
      by_cases hstate : u.state = .reorged
      · rw [trackUtxo_reorged hf hstate] at htrack
        cases htrack
        exact ⟨_, ho, .detectedAgain ht hpayload hvalue haddress hstate, rfl⟩
      · rw [trackUtxo_tracked hf hstate] at htrack
        cases htrack
        exact ⟨_, ho, .tracked ht hpayload hvalue haddress hstate, rfl⟩
  case confirmUtxo =>
    simp only [bind_ok, check_eq_ok, onUtxo_checked_ok, pure_def, EStateM.Result.ok.injEq]
      at htransition
    obtain ⟨o, _, ⟨ho, rfl⟩, height, s, ⟨hheight, rfl⟩, _, _, ⟨u, hf, hgate, rfl⟩, rfl, rfl⟩ :=
      htransition
    refine ⟨rfl, o, _, ho, ?_, rfl⟩
    rw [hf]
    exact .confirmed ht hheight (validateTransition_ok.mp hgate)
  case markUtxoSpendable =>
    obtain ⟨rfl, o, u, ho, hf, hgate, rfl⟩ := rewrite_ok.mp htransition
    refine ⟨rfl, o, _, ho, ?_, rfl⟩
    rw [hf]
    exact .spendable ht (validateTransition_ok.mp hgate)
  case reserveUtxo =>
    obtain ⟨rfl, o, u, ho, hf, hfree, rfl⟩ := rewrite_ok.mp htransition
    refine ⟨rfl, o, _, ho, ?_, rfl⟩
    rw [hf]
    exact .reserved ht ((validate_reserveUtxo sm ht).mp hvalid).1 (checkReservable_ok.mp hfree).1
      (checkReservable_ok.mp hfree).2
  case releaseUtxo =>
    obtain ⟨rfl, o, u, ho, hf, hheld, rfl⟩ := rewrite_ok.mp htransition
    refine ⟨rfl, o, _, ho, ?_, rfl⟩
    rw [hf]
    exact .released ht (checkReserved_ok.mp hheld)
  case markUtxoSpent =>
    obtain ⟨rfl, o, u, ho, hf, hgate, rfl⟩ := rewrite_ok.mp htransition
    refine ⟨rfl, o, _, ho, ?_, rfl⟩
    rw [hf]
    exact .spent ht (validateTransition_ok.mp hgate)
  all_goals cases hc

/-- A move that an entry allows is accepted. -/
theorem ok_of_movesUtxo (h : MovesUtxo sm c s t) :
    c.commandType.group = .utxo ∧ sm.validate s c = .ok () ∧
      sm.transition c s = .ok ["utxo"] t := by
  obtain ⟨o, u', ho, hmove, rfl⟩ := h
  have hdetect {payload : DetectUtxoPayload} (hc : c.commandType = .detectUtxo)
      (hpayload : sm.detectUtxoPayload c = .ok payload) (hvalue : payload.valueSats ≠ 0)
      (haddress : payload.address ≠ "")
      (htrack : trackUtxo o payload c.createdAtBucket s = .ok () (s.writeUtxo u')) :
      c.commandType.group = .utxo ∧ sm.validate s c = .ok () ∧
        sm.transition c s = .ok ["utxo"] (s.writeUtxo u') := by
    refine ⟨by rw [hc]; rfl, (validate_detectUtxo sm hc).mpr
      ⟨⟨o, ho⟩, payload, hpayload, hvalue, haddress⟩, ?_⟩
    unfold transition
    rw [hc]
    simp only [bind_def, ho, hpayload, check_ok, htrack, pure_def]
  generalize hf : s.findUtxo o = entry at hmove
  cases hmove with
  | detected hc hpayload hvalue haddress =>
    exact hdetect hc hpayload hvalue haddress (trackUtxo_new hf _ _)
  | detectedAgain hc hpayload hvalue haddress hstate =>
    exact hdetect hc hpayload hvalue haddress (trackUtxo_reorged hf hstate _ _)
  | tracked hc hpayload hvalue haddress hstate =>
    exact hdetect hc hpayload hvalue haddress (trackUtxo_tracked hf hstate _ _)
  | confirmed hc hheight hstate =>
    have hgate := validateTransition_ok.mpr hstate
    refine ⟨by rw [hc]; rfl, ?_, ?_⟩
    · unfold validate
      rw [hc]
      simp only [except_bind_ok, lookupUtxo_ok]
      exact ⟨o, ho, _, hheight, _, hf, hgate⟩
    · unfold transition
      rw [hc]
      simp only [bind_ok, check_eq_ok, onUtxo_checked_ok, pure_def]
      exact ⟨o, s, ⟨ho, rfl⟩, _, s, ⟨hheight, rfl⟩, (), _, ⟨_, hf, hgate, rfl⟩, rfl⟩
  | spendable hc hstate =>
    have hgate := validateTransition_ok.mpr hstate
    refine ⟨by rw [hc]; rfl, ?_, ?_⟩
    · unfold validate
      rw [hc]
      exact validate_rewrite.mpr ⟨o, _, ho, hf, hgate⟩
    · unfold transition
      rw [hc]
      exact rewrite_ok.mpr ⟨rfl, o, _, ho, hf, hgate, rfl⟩
  | reserved hc hholder hstate hfree =>
    have hreservable := checkReservable_ok.mpr ⟨hstate, hfree⟩
    refine ⟨by rw [hc]; rfl, (validate_reserveUtxo sm hc).mpr ⟨hholder, o, _, ho, hf, hreservable⟩, ?_⟩
    unfold transition
    rw [hc]
    exact rewrite_ok.mpr ⟨rfl, o, _, ho, hf, hreservable, rfl⟩
  | released hc hheld =>
    have hreserved := checkReserved_ok.mpr hheld
    refine ⟨by rw [hc]; rfl, ?_, ?_⟩
    · unfold validate
      rw [hc]
      exact validate_rewrite.mpr ⟨o, _, ho, hf, hreserved⟩
    · unfold transition
      rw [hc]
      exact rewrite_ok.mpr ⟨rfl, o, _, ho, hf, hreserved, rfl⟩
  | spent hc hstate =>
    have hgate := validateTransition_ok.mpr hstate
    refine ⟨by rw [hc]; rfl, ?_, ?_⟩
    · unfold validate
      rw [hc]
      exact validate_rewrite.mpr ⟨o, _, ho, hf, hgate⟩
    · unfold transition
      rw [hc]
      exact rewrite_ok.mpr ⟨rfl, o, _, ho, hf, hgate, rfl⟩

/-- **What a command on one UTXO does.** It moves the entry it names, or fails. -/
theorem apply_utxo (hc : c.commandType.group = .utxo) {s' : LedgerState}
    {r : StateTransitionReceipt} :
    sm.apply c s = .ok r s' ↔
      ∃ t, MovesUtxo sm c s t ∧ s' = bumpVersion t ∧ r = sm.receipt c s s' ["utxo"] := by
  rw [apply_ok]
  constructor
  · intro h
    obtain ⟨hvalid, affected, t, htransition, hs, hr⟩ := h
    obtain ⟨rfl, hmoves⟩ := movesUtxo_of_ok sm hc hvalid htransition
    exact ⟨t, hmoves, hs, hr⟩
  · intro h
    obtain ⟨t, hmoves, hs, hr⟩ := h
    obtain ⟨_, hvalid, htransition⟩ := ok_of_movesUtxo sm hmoves
    exact ⟨hvalid, ["utxo"], t, htransition, hs, hr⟩

theorem reorganization_iff {t : LedgerCommandType} :
    t.group = .reorganization ↔ t = .applyChainReorganization := by
  cases t <;> decide

/-- **What a reorganization does.** It never fails on a payload that parses. -/
theorem apply_reorganization (hc : c.commandType = .applyChainReorganization) {s' : LedgerState}
    {r : StateTransitionReceipt} :
    sm.apply c s = .ok r s' ↔
      ∃ p, sm.reorgPayload c = .ok p ∧
        s' = bumpVersion { s with utxos := p.reorganize c.createdAtBucket s.utxos } ∧
        r = sm.receipt c s s' ["utxo"] := by
  have hvalid : sm.validate s c = .ok () ↔ ∃ p, sm.reorgPayload c = .ok p := by
    unfold validate
    rw [hc]
    simp only [except_bind_ok, pure, Except.pure, and_true]
  have htransition {p : ReorgPayload} (hp : sm.reorgPayload c = .ok p) :
      sm.transition c s =
        .ok ["utxo"] { s with utxos := p.reorganize c.createdAtBucket s.utxos } := by
    unfold transition
    rw [hc]
    simp only [bind_def, hp, check_ok]
    rfl
  rw [apply_ok, hvalid]
  constructor
  · intro h
    obtain ⟨⟨p, hp⟩, affected, t, ht, hs, hr⟩ := h
    rw [htransition hp] at ht
    cases ht
    exact ⟨p, hp, hs, hr⟩
  · intro h
    obtain ⟨p, hp, hs, hr⟩ := h
    exact ⟨⟨p, hp⟩, _, _, htransition hp, hs, hr⟩

end Commands

/-! ### Every command -/

/-- What a command can do to the UTXOs. -/
inductive UtxosStep (c : LedgerCommand) (l : List UtxoEntry) : List UtxoEntry → Prop
  | unchanged : UtxosStep c l l
  | moved (o : OutPoint) (u : UtxoEntry)
      (ho : OutPoint.fromCanonicalString c.partitionKey = .ok o)
      (hmove : UtxoMove sm c o (find UtxoEntry.outpoint o l) u) :
      UtxosStep c l (put UtxoEntry.outpoint u l)
  | reorganized (p : ReorgPayload) (hc : c.commandType = .applyChainReorganization)
      (hp : sm.reorgPayload c = .ok p) : UtxosStep c l (p.reorganize c.createdAtBucket l)

/-- What a command can do to one tracked UTXO. -/
inductive UtxoStep (c : LedgerCommand) (u : UtxoEntry) : UtxoEntry → Prop
  | unchanged : UtxoStep c u u
  | moved {u' : UtxoEntry} (ho : OutPoint.fromCanonicalString c.partitionKey = .ok u.outpoint)
      (hmove : UtxoMove sm c u.outpoint (some u) u') : UtxoStep c u u'
  | disconnected (p : ReorgPayload) (hc : c.commandType = .applyChainReorganization)
      (hp : sm.reorgPayload c = .ok p) :
      UtxoStep c u (ReorgHandler.disconnect p.disconnectedTxids u)

variable {sm} in
theorem UtxoStep.keeps {c : LedgerCommand} {u u' : UtxoEntry} (h : UtxoStep sm c u u') :
    u'.outpoint = u.outpoint ∧ u'.valueSats = u.valueSats ∧ u'.address = u.address := by
  cases h with
  | unchanged => exact ⟨rfl, rfl, rfl⟩
  | moved ho hmove => exact hmove.keeps
  | disconnected p hc hp =>
    obtain ⟨ho, hvalue, haddress, _⟩ := ReorgPayload.disconnect_keeps p.disconnectedTxids u
    exact ⟨ho, hvalue, haddress⟩

variable {sm} in
/-- A tracked UTXO is found again after a step of its own. -/
theorem UtxosStep.find_some {c : LedgerCommand} {l l' : List UtxoEntry} (h : UtxosStep sm c l l')
    {o : OutPoint} {u : UtxoEntry} (hu : find UtxoEntry.outpoint o l = some u) :
    ∃ u', find UtxoEntry.outpoint o l' = some u' ∧ UtxoStep sm c u u' := by
  have hkey : u.outpoint = o := key_of_find hu
  cases h with
  | unchanged => exact ⟨u, hu, .unchanged⟩
  | moved o' u' ho hmove =>
    by_cases hsame : o' = o
    · subst hsame
      rw [find_put, if_pos hmove.outpoint_eq]
      rw [hu] at hmove
      subst hkey
      exact ⟨u', rfl, .moved ho hmove⟩
    · rw [find_put, if_neg (by rw [hmove.outpoint_eq]; exact hsame)]
      exact ⟨u, hu, .unchanged⟩
  | reorganized p hc hp =>
    refine ⟨_, ?_, .disconnected p hc hp⟩
    rw [ReorgPayload.find_reorganize, hu]
    rfl

variable (c : LedgerCommand) (s : LedgerState)

theorem apply_utxos {s' : LedgerState} {r : StateTransitionReceipt} (h : sm.apply c s = .ok r s') :
    UtxosStep sm c s.utxos s'.utxos := by
  by_cases hutxo : c.commandType.group = .utxo
  · obtain ⟨t, ⟨o, u, ho, hmove, rfl⟩, rfl, _⟩ := (apply_utxo sm hutxo).mp h
    exact .moved o u ho hmove
  by_cases hreorg : c.commandType.group = .reorganization
  · have hc := reorganization_iff.mp hreorg
    obtain ⟨p, hp, rfl, _⟩ := (apply_reorganization sm hc).mp h
    exact .reorganized p hc hp
  · obtain ⟨_, _, t, ht, rfl, _⟩ := (apply_ok sm).mp h
    have hsame : t.utxos = s.utxos := (transition_utxos sm hutxo hreorg).ok ht
    show UtxosStep sm c s.utxos t.utxos
    rw [hsame]
    exact .unchanged

/-- A failed command leaves the UTXOs. -/
theorem utxos_of_apply_error {s' : LedgerState} {e : LedgerError} (h : sm.apply c s = .error e s') :
    s'.utxos = s.utxos := by
  rcases (apply_error sm).mp h with ⟨_, rfl⟩ | ⟨_, ht⟩
  · rfl
  · by_cases hc : c.commandType.TouchesAccounts
    · have hgroup := LedgerCommandType.touchesAccounts_iff.mp hc
      have hkept := transition_utxos sm (by rw [hgroup]; decide) (by rw [hgroup]; decide) s
      rw [after_error ht] at hkept
      exact hkept
    · rw [transition_atomicAt_of_not_accounts sm hc s e s' ht]

/-- **Whatever is called, and whether or not it fails, is a step of the UTXOs.** -/
theorem after_apply_utxos : UtxosStep sm c s.utxos (after (sm.apply c) s).utxos := by
  cases h : sm.apply c s with
  | ok r s' =>
    rw [after_ok h]
    exact apply_utxos sm c s h
  | error e s' =>
    rw [after_error h, utxos_of_apply_error sm c s h]
    exact .unchanged

/-! ### Samples -/

/-- A new ledger with some UTXOs in it. -/
def tracking (utxos : List UtxoEntry) : LedgerState :=
  { LedgerState.empty (.singleNode "cluster-1" "node-1") with utxos }

def spendableUtxo : UtxoEntry :=
  { UtxoEntry.newSeen ⟨"tx1", 0⟩ 50000 "addr1" 100 with
    state := .spendable
    blockHeight := some 200000
    confirmedAtBucket := some 150 }

/-- A state machine that reads the payloads on record and no others. -/
def recorded (detections : List (String × DetectUtxoPayload))
    (reorganizations : List (String × ReorgPayload)) : StateMachine where
  crypto := .recorded []
  parseDetectUtxo text :=
    match find Prod.fst text detections with
    | some entry => .ok entry.2
    | none => .error "expected value at line 1 column 1"
  parseReorg text :=
    match find Prod.fst text reorganizations with
    | some entry => .ok entry.2
    | none => .error "expected value at line 1 column 1"

def reorgCommand (text : String) : LedgerCommand :=
  .new plain.crypto "reorg-1" .applyChainReorganization "cluster-1" none text 1 200

theorem reorgPayload_recorded (detections : List (String × DetectUtxoPayload)) (text : String)
    (p : ReorgPayload) :
    (recorded detections [(text, p)]).reorgPayload (reorgCommand text) = .ok p := by
  simp [reorgPayload, recorded, reorgCommand, LedgerCommand.new, find]

/-- A reorganization whose payload is on record. -/
theorem apply_recorded (text : String) (p : ReorgPayload) (s : LedgerState) :
    ∃ r, (recorded [] [(text, p)]).apply (reorgCommand text) s =
      .ok r (bumpVersion { s with utxos := p.reorganize 200 s.utxos }) :=
  ⟨_, (apply_reorganization _ rfl).mpr ⟨p, reorgPayload_recorded [] text p, rfl, rfl⟩⟩

end StateMachine

end Kerosene.Ledger
