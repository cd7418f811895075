import Kerosene.Ledger.RecordWrites

/-! Withdrawals over whole runs (`withdrawal.rs`, and the store of `persistent.rs`).

Status, authorization, commitment and transaction id of a withdrawal are written by
different calls with guards of their own; `WithdrawalCall.Writes` says what each call
may write, for the store in memory and the one in the database alike. A withdrawal
goes ahead once it is authorized, but nothing ties the status to an authorization: a
client may move the status by itself, and an authorization is taken for any intent
(`authorized_in_run`). What is settled stays as it is (`settled_frozen`), except that
a commitment may be replaced at any time. -/
namespace Kerosene.Ledger

open Lib.Encode Lib.Inplace Lib.Records Lib.Tables

/-! ### What each call writes -/

/-- What a call may make of the record under a name. -/
def WithdrawalCall.Writes (c : WithdrawalCall) (i : String) (old : Option WithdrawalRecord)
    (new : WithdrawalRecord) : Prop :=
  match c with
  | .create withdrawal => i = withdrawal.withdrawalId ∧ old = none ∧ new = withdrawal
  | .get _ => False
  | .updateStatus id status bucket =>
    i = id ∧ ∃ r, old = some r ∧ r.status.canTransitionTo status = true ∧
      new = { r with status := status, updatedAtBucket := bucket }
  | .setAuthorization id auth =>
    i = id ∧ ∃ r, old = some r ∧ r.status = .reserved ∧
      new = { r with authorization := some auth, status := .authorized }
  | .setPsbt id commitment =>
    i = id ∧ ∃ r, old = some r ∧ new = { r with psbtCommitment := some commitment }
  | .setBroadcastTxid id txid =>
    i = id ∧ ∃ r, old = some r ∧ r.broadcastTxid = none ∧
      new = { r with broadcastTxid := some txid }

/-- A record as a client gets it. -/
def WithdrawalStore.Has {σ : Type} (store : WithdrawalStore σ) (s : σ) (id : String)
    (r : WithdrawalRecord) : Prop :=
  outcome (store.get id) s = .ok (some r)

/-- A store whose calls write what they may, as seen through the records it has. -/
structure WithdrawalStore.Seen {σ : Type} (store : WithdrawalStore σ)
    (view : σ → String → Option WithdrawalRecord) : Prop where
  has : ∀ s id r, store.Has s id r ↔ view s id = some r
  writes : ∀ c : WithdrawalCall, WritesOnly view c.Writes (store.call c)

section Guards
variable {id : String} {i : String} {old : Option WithdrawalRecord} {new : WithdrawalRecord}

theorem writes_updateStatus {status : WithdrawalStatus} {bucket : UInt64} {e : WithdrawalRecord → LedgerError}
    (h : Updates id (fun record => do
      if !record.status.canTransitionTo status then throw (e record)
      return { record with status := status, updatedAtBucket := bucket }) i old new) :
    (WithdrawalCall.updateStatus id status bucket).Writes i old new := by
  obtain ⟨hi, r, hr, hnew⟩ := h
  by_cases hcan : r.status.canTransitionTo status = true
  · simp only [hcan, Bool.not_true, Bool.false_eq_true, if_false] at hnew
    cases hnew
    exact ⟨hi, r, hr, hcan, rfl⟩
  · rw [Bool.not_eq_true] at hcan
    simp only [hcan, Bool.not_false, if_true] at hnew
    cases hnew

theorem writes_setAuthorization {auth : SettlementAuthorization} {e : WithdrawalRecord → LedgerError}
    (h : Updates id (fun record => do
      if record.status ≠ .reserved then throw (e record)
      return { record with authorization := some auth, status := .authorized }) i old new) :
    (WithdrawalCall.setAuthorization id auth).Writes i old new := by
  obtain ⟨hi, r, hr, hnew⟩ := h
  by_cases hreserved : r.status = .reserved
  · simp only [hreserved, ne_eq, not_true_eq_false, if_false] at hnew
    cases hnew
    exact ⟨hi, r, hr, hreserved, rfl⟩
  · simp only [ne_eq, hreserved, not_false_eq_true, if_true] at hnew
    cases hnew

theorem writes_setPsbt {commitment : PsbtCommitment}
    (h : Updates id (fun record => return { record with psbtCommitment := some commitment })
      i old new) :
    (WithdrawalCall.setPsbt id commitment).Writes i old new := by
  obtain ⟨hi, r, hr, hnew⟩ := h
  cases hnew
  exact ⟨hi, r, hr, rfl⟩

theorem writes_setBroadcastTxid {txid : String} {e : String → LedgerError}
    (h : Updates id (fun record => do
      if let some existing := record.broadcastTxid then throw (e existing)
      return { record with broadcastTxid := some txid }) i old new) :
    (WithdrawalCall.setBroadcastTxid id txid).Writes i old new := by
  obtain ⟨hi, r, hr, hnew⟩ := h
  cases htxid : r.broadcastTxid with
  | some existing =>
    simp only [htxid] at hnew
    cases hnew
  | none =>
    simp only [htxid] at hnew
    cases hnew
    exact ⟨hi, r, hr, htxid, rfl⟩

end Guards

theorem InMemoryWithdrawalStore.seen (debugText : String → String) :
    (store debugText).Seen HashMap.stored where
  has _ _ _ := HashMap.read_iff_stored
  writes c := by
    cases c with
    | create withdrawal => exact (HashMap.writesOnly_create _ withdrawal _).map _
    | get id => exact WritesOnly.map (writesOnly_of_readOnly fun _ => rfl) _
    | updateStatus id status bucket =>
      exact ((HashMap.writesOnly_update id _ _).mono fun _ _ _ => writes_updateStatus).map _
    | setAuthorization id auth =>
      exact ((HashMap.writesOnly_update id _ _).mono fun _ _ _ => writes_setAuthorization).map _
    | setPsbt id commitment =>
      exact ((HashMap.writesOnly_update id _ _).mono fun _ _ _ => writes_setPsbt).map _
    | setBroadcastTxid id txid =>
      exact ((HashMap.writesOnly_update id _ _).mono fun _ _ _ => writes_setBroadcastTxid).map _

theorem SledWithdrawalStore.seen (json : Json WithdrawalRecord) (debugText : String → String) :
    (store json debugText).Seen (Sled.stored json prefixWithdrawal) where
  has _ _ _ := Sled.read_iff_stored
  writes c := by
    cases c with
    | create withdrawal => exact (Sled.writesOnly_create _ withdrawal _).map _
    | get id => exact WritesOnly.map (writesOnly_of_readOnly (Sled.readOnly_read _)) _
    | updateStatus id status bucket =>
      exact ((Sled.writesOnly_update id _ _).mono fun _ _ _ => writes_updateStatus).map _
    | setAuthorization id auth =>
      exact ((Sled.writesOnly_update id _ _).mono fun _ _ _ => writes_setAuthorization).map _
    | setPsbt id commitment =>
      exact ((Sled.writesOnly_update id _ _).mono fun _ _ _ => writes_setPsbt).map _
    | setBroadcastTxid id txid =>
      exact ((Sled.writesOnly_update id _ _).mono fun _ _ _ => writes_setBroadcastTxid).map _

/-! ### Going ahead -/

namespace WithdrawalStatus

/-- Authorized or beyond, and not failed. -/
def goesAhead : WithdrawalStatus → Bool
  | authorized | signing | broadcast | confirming | confirmed | replaced => true
  | reserved | failed => false

theorem goesAhead_of_canTransitionTo {status target : WithdrawalStatus}
    (h : status.canTransitionTo target = true) (htarget : target.goesAhead = true) :
    status.goesAhead = true ∨ status = .reserved ∧ target = .authorized := by
  cases status <;> cases target <;> simp_all [canTransitionTo, goesAhead]

theorem ne_reserved_of_canTransitionTo {status target : WithdrawalStatus}
    (h : status.canTransitionTo target = true) : target ≠ .reserved := by
  cases status <;> cases target <;> simp_all [canTransitionTo]

end WithdrawalStatus

/-- Built by `WithdrawalRecord.new`. -/
def WithdrawalRecord.IsNew (w : WithdrawalRecord) : Prop :=
  ∃ withdrawalId intentCommitment accountId amountSats destinationAddress createdAtBucket,
    w = new withdrawalId intentCommitment accountId amountSats destinationAddress createdAtBucket

/-- In every run that creates new records only, a record goes ahead because of a call
that succeeded: an authorization, which the record then carries, or a change of status
without one. -/
def WithdrawalStore.AuthorizedInRun {σ : Type} (store : WithdrawalStore σ) (start : σ) : Prop :=
  ∀ l : List WithdrawalCall, (∀ w, .create w ∈ l → w.IsNew) →
    ∀ id r, store.Has (run store.call l start) id r → r.status.goesAhead = true →
      (∃ auth, r.authorization = some auth ∧
        SucceedsIn store.call (.setAuthorization id auth) l start) ∨
      (r.authorization = none ∧
        ∃ bucket, SucceedsIn store.call (.updateStatus id .authorized bucket) l start)

section Authorized
variable {σ : Type} {store : WithdrawalStore σ} {view : σ → String → Option WithdrawalRecord}

/-- A record on the way to an authorization: without one while it is reserved, and not
ahead with the one in question. -/
def BeforeAuthorization (target : Option SettlementAuthorization) (o : Option WithdrawalRecord) :
    Prop :=
  ∀ r, o = some r → (r.status = .reserved → r.authorization = none) ∧
    (r.status.goesAhead = true → r.authorization ≠ target)

/-- A call that puts a record ahead with this authorization. -/
def PutsAhead (target : Option SettlementAuthorization) (id : String) (c : WithdrawalCall) : Prop :=
  (∃ auth, target = some auth ∧ c = .setAuthorization id auth) ∨
    (target = none ∧ ∃ bucket, c = .updateStatus id .authorized bucket)

theorem beforeAuthorization_write {target : Option SettlementAuthorization} {id : String}
    {c : WithdrawalCall} {o : Option WithdrawalRecord} {new : WithdrawalRecord}
    (hc : ∀ w, c = .create w → w.IsNew) (ho : BeforeAuthorization target o) (h : c.Writes id o new) :
    BeforeAuthorization target (some new) ∨ PutsAhead target id c := by
  cases c with
  | get _ => exact h.elim
  | create w =>
    obtain ⟨_, _, rfl⟩ := h
    obtain ⟨_, _, _, _, _, _, rfl⟩ := hc new rfl
    refine .inl fun r hr => ?_
    cases hr
    exact ⟨fun _ => rfl, fun hahead => Bool.noConfusion hahead⟩
  | updateStatus id' status bucket =>
    obtain ⟨rfl, r, hr, hcan, rfl⟩ := h
    obtain ⟨hreserved, hahead⟩ := ho r hr
    by_cases hput : status = .authorized ∧ r.status = .reserved ∧ target = none
    · obtain ⟨rfl, _, rfl⟩ := hput
      exact .inr (.inr ⟨rfl, bucket, rfl⟩)
    · refine .inl fun r' hr' => ?_
      cases hr'
      refine ⟨fun h => absurd h (WithdrawalStatus.ne_reserved_of_canTransitionTo hcan), fun h => ?_⟩
      rcases WithdrawalStatus.goesAhead_of_canTransitionTo hcan h with hold | ⟨hold, hnew⟩
      · exact hahead hold
      · show r.authorization ≠ target
        rw [hreserved hold]
        exact fun htarget => hput ⟨hnew, hold, htarget.symm⟩
  | setAuthorization id' auth =>
    obtain ⟨rfl, r, hr, _, rfl⟩ := h
    by_cases hput : target = some auth
    · exact .inr (.inl ⟨auth, hput, rfl⟩)
    · refine .inl fun r' hr' => ?_
      cases hr'
      exact ⟨fun h => WithdrawalStatus.noConfusion h, fun _ htarget => hput htarget.symm⟩
  | setPsbt id' commitment =>
    obtain ⟨rfl, r, hr, rfl⟩ := h
    refine .inl fun r' hr' => ?_
    cases hr'
    exact ho r hr
  | setBroadcastTxid id' txid =>
    obtain ⟨rfl, r, hr, _, rfl⟩ := h
    refine .inl fun r' hr' => ?_
    cases hr'
    exact ho r hr

theorem WithdrawalStore.Seen.authorizedInRun (h : store.Seen view) {start : σ}
    (hstart : ∀ id, view start id = none) : store.AuthorizedInRun start := by
  intro l hl id r hr hahead
  have hrule : ∀ c ∈ l, ∀ w, c = .create w → w.IsNew := fun c hc w hw => hl w (hw ▸ hc)
  have hbefore : BeforeAuthorization r.authorization (view start id) := by
    rw [hstart id]
    exact fun _ h => by cases h
  have hor := kept_or_caused h.writes
    (fun _ c new hc ho hw => beforeAuthorization_write hc ho hw)
    (admissible_of_forall hrule start) hbefore
  rcases hor with hend | ⟨c, hput, hin⟩
  · exact absurd rfl ((hend r ((h.has _ id r).mp hr)).2 hahead)
  · rcases hput with ⟨auth, hauth, rfl⟩ | ⟨hnone, bucket, rfl⟩
    · exact .inl ⟨auth, hauth, hin⟩
    · exact .inr ⟨hnone, bucket, hin⟩

end Authorized

/-- **How a withdrawal goes ahead.** In both stores, from nothing, by a call that
succeeded: with the authorization that was set, for whatever intent, or without any,
when its status was moved. -/
theorem authorized_in_run (json : Json WithdrawalRecord) (debugText : String → String) :
    (InMemoryWithdrawalStore.store debugText).AuthorizedInRun ∅ ∧
      (SledWithdrawalStore.store json debugText).AuthorizedInRun ∅ :=
  ⟨(InMemoryWithdrawalStore.seen debugText).authorizedInRun fun _ => rfl,
    (SledWithdrawalStore.seen json debugText).authorizedInRun fun _ => rfl⟩

/-- A withdrawal of 50000 sats. -/
def sampleWithdrawal : WithdrawalRecord := .new "wd-1" "intent" "acc" 50000 "addr" 100

/-- An authorization of another intent. -/
def otherAuthorization : SettlementAuthorization where
  intentCommitment := "intent-1"
  commandHash := "cmd-hash"
  psbtCommitment := "psbt-hash"
  policyHash := "policy-hash"
  epoch := 1
  expiresAtBucket := 200
  nonce := "nonce-auth"
  quorumCertificate := QuorumCertificate.nodeOneCertificate

/-- Two withdrawals that are authorized, one by nothing and one by what authorizes
another intent. -/
theorem authorized_without_its_own :
    let store := InMemoryWithdrawalStore.store fun text => "\"" ++ text ++ "\""
    let moved := { sampleWithdrawal with status := .authorized, updatedAtBucket := 105 }
    let authorized :=
      { sampleWithdrawal with status := .authorized, authorization := some otherAuthorization }
    store.Has (run store.call [.create sampleWithdrawal, .updateStatus "wd-1" .authorized 105] ∅)
        "wd-1" moved ∧ moved.authorization = none ∧
      store.Has (run store.call [.create sampleWithdrawal, .setAuthorization "wd-1" otherAuthorization] ∅)
        "wd-1" authorized ∧
      otherAuthorization.intentCommitment ≠ authorized.intentCommitment := by
  intro store moved authorized
  exact ⟨rfl, rfl, rfl, by decide⟩

/-! ### Settled parts -/

namespace WithdrawalStatus

/-- The vaults have begun to sign, or nothing more will happen. -/
def isSettled : WithdrawalStatus → Bool
  | signing | broadcast | confirming | confirmed | failed | replaced => true
  | reserved | authorized => false

theorem isSettled_of_canTransitionTo {status target : WithdrawalStatus}
    (h : status.canTransitionTo target = true) (hsettled : status.isSettled = true) :
    target.isSettled = true := by
  cases status <;> cases target <;> simp_all [canTransitionTo, isSettled]

theorem not_isTerminal_of_canTransitionTo {status target : WithdrawalStatus}
    (h : status.canTransitionTo target = true) : status.isTerminal = false := by
  cases status <;> cases target <;> simp_all [canTransitionTo, isTerminal]

end WithdrawalStatus

/-- What a record may no longer become. -/
structure WithdrawalRecord.Frozen (r r' : WithdrawalRecord) : Prop where
  settled : r.status.isSettled = true → r'.status.isSettled = true
  authorization : r.status.isSettled = true → r'.authorization = r.authorization
  psbtCommitment : r.status.isSettled = true →
    ∀ commitment, r.psbtCommitment = some commitment → r'.psbtCommitment = some commitment
  broadcastTxid : ∀ txid, r.broadcastTxid = some txid → r'.broadcastTxid = some txid
  terminal : r.status.isTerminal = true → r'.status = r.status

namespace WithdrawalRecord.Frozen

theorem refl (r : WithdrawalRecord) : r.Frozen r :=
  ⟨id, fun _ => rfl, fun _ _ => id, fun _ => id, fun _ => rfl⟩

theorem trans {r r' r'' : WithdrawalRecord} (h : r.Frozen r') (h' : r'.Frozen r'') : r.Frozen r'' where
  settled hr := h'.settled (h.settled hr)
  authorization hr := (h'.authorization (h.settled hr)).trans (h.authorization hr)
  psbtCommitment hr c hc := h'.psbtCommitment (h.settled hr) c (h.psbtCommitment hr c hc)
  broadcastTxid txid htxid := h'.broadcastTxid txid (h.broadcastTxid txid htxid)
  terminal hr := by
    have hsame := h.terminal hr
    rw [h'.terminal (hsame ▸ hr), hsame]

end WithdrawalRecord.Frozen

/-- A commitment is not replaced by another once the withdrawal is settled. -/
def WithdrawalStore.KeepsCommitment {σ : Type} (store : WithdrawalStore σ) (s : σ) :
    WithdrawalCall → Prop
  | .setPsbt id commitment => ∀ r, store.Has s id r → r.status.isSettled = true →
      r.psbtCommitment = none ∨ r.psbtCommitment = some commitment
  | _ => True

/-- Between any two states of a run nothing changes that is settled. -/
def WithdrawalStore.FrozenOver {σ : Type} (store : WithdrawalStore σ) (l : List WithdrawalCall)
    (start : σ) : Prop :=
  ∀ before between rest, l = before ++ between ++ rest →
    ∀ id r, store.Has (run store.call before start) id r →
      ∃ r', store.Has (run store.call (before ++ between) start) id r' ∧ r.Frozen r'

section Frozen
variable {σ : Type} {store : WithdrawalStore σ} {view : σ → String → Option WithdrawalRecord}

theorem frozen_write {c : WithdrawalCall} {i : String} {r new : WithdrawalRecord}
    (hc : ∀ commitment, c = .setPsbt i commitment → r.status.isSettled = true →
      r.psbtCommitment = none ∨ r.psbtCommitment = some commitment)
    (h : c.Writes i (some r) new) : r.Frozen new := by
  cases c with
  | get _ => exact h.elim
  | create w => cases h.2.1
  | updateStatus _ status bucket =>
    obtain ⟨_, _, hr, hcan, rfl⟩ := h
    cases hr
    refine ⟨WithdrawalStatus.isSettled_of_canTransitionTo hcan, fun _ => rfl, fun _ _ => id,
      fun _ => id, fun hterminal => ?_⟩
    rw [WithdrawalStatus.not_isTerminal_of_canTransitionTo hcan] at hterminal
    cases hterminal
  | setAuthorization _ auth =>
    obtain ⟨_, _, hr, hreserved, rfl⟩ := h
    cases hr
    have hopen : ¬ r.status.isSettled = true := by
      rw [hreserved]
      decide
    have hlive : ¬ r.status.isTerminal = true := by
      rw [hreserved]
      decide
    exact ⟨fun h => absurd h hopen, fun h => absurd h hopen, fun _ _ => id, fun _ => id,
      fun h => absurd h hlive⟩
  | setPsbt _ commitment =>
    obtain ⟨rfl, _, hr, rfl⟩ := h
    cases hr
    refine ⟨id, fun _ => rfl, fun hsettled old hold => ?_, fun _ => id, fun _ => rfl⟩
    rcases hc commitment rfl hsettled with hnone | hsame
    · rw [hnone] at hold
      cases hold
    · rw [← hold, hsame]
  | setBroadcastTxid _ txid =>
    obtain ⟨_, _, hr, hnone, rfl⟩ := h
    cases hr
    refine ⟨id, fun _ => rfl, fun _ _ => id, fun old hold => ?_, fun _ => rfl⟩
    rw [hnone] at hold
    cases hold

/-- A run that keeps commitments keeps everything that is settled. -/
theorem WithdrawalStore.Seen.frozenOver (h : store.Seen view) {l : List WithdrawalCall} {start : σ}
    (hl : Admissible store.call store.KeepsCommitment l start) : store.FrozenOver l start := by
  intro before between rest hsplit i r hr
  subst hsplit
  obtain ⟨-, hbetween⟩ := admissible_append.mp (admissible_append.mp hl).1
  have hkept : ∃ r', view (run store.call between (run store.call before start)) i = some r' ∧
      r.Frozen r' := by
    refine kept h.writes (K := fun o => ∃ r', o = some r' ∧ r.Frozen r') ?_ hbetween
      ⟨r, (h.has _ i r).mp hr, .refl r⟩
    intro s c new hrule hk hw
    obtain ⟨r', hr', hfrozen⟩ := hk
    rw [hr'] at hw
    refine ⟨new, rfl, hfrozen.trans (frozen_write (fun commitment hc => ?_) hw)⟩
    subst hc
    exact hrule r' ((h.has s i r').mpr hr')
  obtain ⟨r', hr', hfrozen⟩ := hkept
  rw [run_append]
  exact ⟨r', (h.has _ i r').mpr hr', hfrozen⟩

theorem WithdrawalStore.FrozenOver.tail {c : WithdrawalCall} {l : List WithdrawalCall} {start : σ}
    (h : store.FrozenOver (c :: l) start) : store.FrozenOver l (after (store.call c) start) := by
  intro before between rest hsplit i r hr
  exact h (c :: before) between rest (by rw [hsplit]; rfl) i r hr

/-- A run that replaces a settled commitment shows it, where every call gets through. -/
theorem admissible_of_frozenOver
    (hset : ∀ s i r commitment, store.Has s i r →
      store.Has (after (store.call (.setPsbt i commitment)) s) i
        { r with psbtCommitment := some commitment })
    {l : List WithdrawalCall} {start : σ} (h : store.FrozenOver l start) :
    Admissible store.call store.KeepsCommitment l start := by
  induction l generalizing start with
  | nil => trivial
  | cons c rest ih =>
    refine ⟨?_, ih h.tail⟩
    cases c with
    | setPsbt i commitment =>
      intro r hr hsettled
      obtain ⟨r', hr', hfrozen⟩ := h [] [.setPsbt i commitment] rest rfl i r hr
      have hsame : r' = { r with psbtCommitment := some commitment } :=
        Option.some.inj (Except.ok.inj (hr'.symm.trans (hset start i r commitment hr)))
      cases hold : r.psbtCommitment with
      | none => exact .inl rfl
      | some old =>
        have hkept := hfrozen.psbtCommitment hsettled old hold
        rw [hsame] at hkept
        exact .inr hkept.symm
    | create _ | get _ | updateStatus _ _ _ | setAuthorization _ _ | setBroadcastTxid _ _ => trivial

end Frozen

theorem InMemoryWithdrawalStore.has_setPsbt (debugText : String → String)
    (map : Table String WithdrawalRecord) (i : String) (r : WithdrawalRecord)
    (commitment : PsbtCommitment) (h : (store debugText).Has map i r) :
    (store debugText).Has (after ((store debugText).call (.setPsbt i commitment)) map) i
      { r with psbtCommitment := some commitment } := by
  have hr : map.lookup i = some r := Except.ok.inj h
  have hcall : (store debugText).call (.setPsbt i commitment) map =
      .ok .done (map.insert i { r with psbtCommitment := some commitment }) := by
    simp only [WithdrawalStore.call, store, setPsbt, HashMap.update, ← bind_pure_comp, bind_def,
      get_def, hr]
    rfl
  rw [after_ok hcall]
  exact congrArg Except.ok (Finmap.lookup_insert map)

/-- **When settled parts are frozen.** Over a run of the store in memory exactly when
no call replaces the commitment of a settled withdrawal; over such a run of the store
in the database too. -/
theorem settled_frozen (json : Json WithdrawalRecord) (debugText : String → String)
    (l : List WithdrawalCall) :
    let memory := InMemoryWithdrawalStore.store debugText
    let sled := SledWithdrawalStore.store json debugText
    (memory.FrozenOver l ∅ ↔ Admissible memory.call memory.KeepsCommitment l ∅) ∧
      (Admissible sled.call sled.KeepsCommitment l ∅ → sled.FrozenOver l ∅) := by
  intro memory sled
  refine ⟨⟨?_, ?_⟩, ?_⟩
  · exact admissible_of_frozenOver (InMemoryWithdrawalStore.has_setPsbt debugText)
  · exact (InMemoryWithdrawalStore.seen debugText).frozenOver
  · exact (SledWithdrawalStore.seen json debugText).frozenOver

/-- A withdrawal whose commitment is replaced while the vaults are signing. -/
theorem commitment_replaced_while_signing :
    let store := InMemoryWithdrawalStore.store fun text => "\"" ++ text ++ "\""
    let first : PsbtCommitment := ⟨"psbt-1", 1, 1, 50000⟩
    let second : PsbtCommitment := ⟨"psbt-2", 1, 1, 50000⟩
    let signing : List WithdrawalCall := [.create sampleWithdrawal,
      .updateStatus "wd-1" .authorized 105, .updateStatus "wd-1" .signing 110, .setPsbt "wd-1" first]
    let r := { sampleWithdrawal with
      status := .signing, updatedAtBucket := 110, psbtCommitment := some first }
    store.Has (run store.call signing ∅) "wd-1" r ∧ r.status = .signing ∧
      store.Has (run store.call (signing ++ [.setPsbt "wd-1" second]) ∅) "wd-1"
        { r with psbtCommitment := some second } ∧
      ¬ store.FrozenOver (signing ++ [.setPsbt "wd-1" second]) ∅ := by
  intro store first second signing r
  have hbefore : store.Has (run store.call signing ∅) "wd-1" r := rfl
  have hafter : store.Has (run store.call (signing ++ [.setPsbt "wd-1" second]) ∅) "wd-1"
    { r with psbtCommitment := some second } := rfl
  refine ⟨hbefore, rfl, hafter, fun hfrozen => ?_⟩
  obtain ⟨r', hr', hkept⟩ := hfrozen signing [.setPsbt "wd-1" second] [] rfl "wd-1" r hbefore
  have hsame : r' = { r with psbtCommitment := some second } :=
    Option.some.inj (Except.ok.inj (hr'.symm.trans hafter))
  have hpsbt := hkept.psbtCommitment rfl first rfl
  rw [hsame] at hpsbt
  exact absurd hpsbt (by decide)

end Kerosene.Ledger
