import Kerosene.Ledger.Persistent
import Kerosene.Ledger.StateRoot
import Kerosene.Lib.Simulation

/-! The persistent stores simulate the stores in memory, one by one.

What a store has in memory is what the database holds under the prefix of the store
(`Keeps`, `KeepsNonces`, `KeepsUtxos`). Every call of a persistent store then answers
as the one in memory, keeps that up, and stays under its own prefix: for each store
a theorem `simulates_` and a theorem `confined_` about all of its calls. -/
namespace Kerosene.Ledger

open Lib.Encode Lib.Inplace Lib.Keyed Lib.Regions Lib.Simulation Lib.Tables

/-! ### Records that are always written -/

namespace Json

variable {ρ : Type} (json : Json ρ)

/-- Every record can be serialized. -/
def Total : Prop := ∀ r, ∃ bytes, json.toVec r = .ok bytes

/-- The bytes of a record. -/
def written (r : ρ) : Bytes :=
  match json.toVec r with
  | .ok bytes => bytes
  | .error _ => []

variable {json} (h : json.Total)
include h

theorem Total.toVec (r : ρ) : json.toVec r = .ok (json.written r) := by
  obtain ⟨bytes, hr⟩ := h r
  rw [written, hr]

theorem Total.serialize (r : ρ) : json.serialize r = .ok (json.written r) := by
  rw [Json.serialize, h.toVec r]

theorem Total.deserialize (r : ρ) : json.deserialize (json.written r) = .ok r :=
  json.deserialize_serialize (h.serialize r)

end Json

/-! ### Hash maps and regions -/

section Records
variable {ρ : Type} {json : Json ρ} {p : Bytes}

/-- The database has under a prefix what a hash map has. -/
def Keeps (p : Bytes) (json : Json ρ) (map : Table String ρ) (db : Db) : Prop :=
  Holds p json.written (fun id => map.lookup id) db

theorem Keeps.insert {map : Table String ρ} {db : Db} (h : Keeps p json map db) (id : String) (r : ρ) :
    Keeps p json (map.insert id r) (db.insert (p ++ utf8 id) (json.written r)) := by
  unfold Keeps
  rw [lookup_insert_eq_update]
  exact Holds.insert h id r

theorem Keeps.erase {map : Table String ρ} {db : Db} (h : Keeps p json map db) (id : String) :
    Keeps p json (map.erase id) (db.erase (p ++ utf8 id)) := by
  unfold Keeps
  rw [lookup_erase_eq_update]
  exact Holds.erase h id

variable (hjson : json.Total)
include hjson

theorem simulates_create (id : String) (r : ρ) (duplicate : LedgerError) :
    Simulates (Keeps p json) (HashMap.create id r duplicate)
      (Sled.create json (p ++ utf8 id) r duplicate) := by
  intro map db h
  have hlookup := Holds.lookup h id
  unfold HashMap.create Sled.create outcome after
  simp only [bind_def, get_def, hlookup]
  cases map.lookup id with
  | some old => exact ⟨rfl, h⟩
  | none =>
    simp only [hjson.serialize]
    exact ⟨rfl, h.insert id r⟩

theorem simulates_read (id : String) :
    Simulates (Keeps p json) (HashMap.read id) (Sled.read json (p ++ utf8 id)) := by
  intro map db h
  have hlookup := Holds.lookup h id
  unfold HashMap.read Sled.read outcome after
  simp only [bind_def, get_def, hlookup, pure_def]
  cases map.lookup id with
  | none => exact ⟨rfl, h⟩
  | some r =>
    simp only [Option.map_some, bind_def, hjson.deserialize]
    exact ⟨rfl, h⟩

theorem simulates_update (id : String) (missing : LedgerError) (f : ρ → Except LedgerError ρ) :
    Simulates (Keeps p json) (HashMap.update id missing f)
      (Sled.update json (p ++ utf8 id) missing f) := by
  intro map db h
  have hlookup := Holds.lookup h id
  unfold HashMap.update Sled.update outcome after
  simp only [bind_def, get_def, hlookup]
  cases map.lookup id with
  | none => exact ⟨rfl, h⟩
  | some r =>
    simp only [Option.map_some, bind_def, hjson.deserialize, check_ok]
    cases f r with
    | error e => exact ⟨rfl, h⟩
    | ok r' =>
      simp only [check_ok, hjson.serialize, set_def, true_and]
      exact h.insert id r'

/-- A scan reads the records of the map. -/
theorem scan_perm_of_holds {f : String → Option ρ} {db : Db} (h : Holds p json.written f db)
    {l : List (String × ρ)} (hl : Enumerates l f) :
    (Sled.scan json p db).Perm (l.map fun e => (p ++ utf8 e.1, e.2)) := by
  refine ((h.scan_perm hl).filterMap _).trans (.of_eq ?_)
  rw [List.filterMap_map]
  simp only [Function.comp_def, hjson.deserialize]
  exact congrFun List.filterMap_eq_map' l

omit hjson

theorem confined_create (id : String) (r : ρ) (duplicate : LedgerError) :
    Preserves (Confined p) (Sled.create json (p ++ utf8 id) r duplicate) := by
  intro db
  unfold after Sled.create
  simp only [bind_def, get_def]
  cases db.lookup (p ++ utf8 id) with
  | some old => exact .refl p db
  | none =>
    cases hr : json.serialize r with
    | error e => exact .refl p db
    | ok bytes => exact confined_insert p (utf8 id) bytes db

theorem confined_read (key : Bytes) : Preserves (Confined p) (Sled.read json key) := by
  intro db
  unfold after Sled.read
  simp only [bind_def, get_def]
  cases db.lookup key with
  | none => exact .refl p db
  | some bytes =>
    simp only [bind_def]
    cases json.deserialize bytes <;> exact .refl p db

theorem confined_update (id : String) (missing : LedgerError) (f : ρ → Except LedgerError ρ) :
    Preserves (Confined p) (Sled.update json (p ++ utf8 id) missing f) := by
  intro db
  unfold after Sled.update
  simp only [bind_def, get_def]
  cases db.lookup (p ++ utf8 id) with
  | none => exact .refl p db
  | some bytes =>
    simp only [bind_def]
    cases json.deserialize bytes with
    | error e => exact .refl p db
    | ok r =>
      simp only [check_ok]
      cases f r with
      | error e => exact .refl p db
      | ok r' =>
        simp only [check_ok]
        cases json.serialize r' with
        | error e => exact .refl p db
        | ok bytes' => exact confined_insert p (utf8 id) bytes' db

/-- The keys of a scan have its prefix. -/
theorem prefix_of_mem_scan {db : Db} {e : Bytes × ρ} (he : e ∈ Sled.scan json p db) : p <+: e.1 := by
  obtain ⟨found, hfound, h⟩ := List.mem_filterMap.mp he
  have hkey : e.1 = found.1 := by
    cases hd : json.deserialize found.2 with
    | error _ =>
      rw [hd] at h
      cases h
    | ok r =>
      rw [hd] at h
      cases h
      rfl
  rw [hkey]
  exact (mem_scanPrefix.mp hfound).1

end Records

/-! ### Reservations -/

section Reservations
variable {json : Json Reservation}

def Reservation.expire (r : Reservation) : Reservation := { r with state := .expired }

theorem count_succ (n : UInt64) (k : ℕ) : n + 1 + UInt64.ofNat k = n + UInt64.ofNat (k + 1) := by
  rw [UInt64.ofNat_add, UInt64.add_assoc, UInt64.add_comm 1]
  rfl

/-- Each reservation of the list is found as it was, and written over. -/
theorem expireAll_memory {l : List (String × Reservation)} (hkeys : (l.map Prod.fst).Nodup)
    {map : Table String Reservation} (hl : ∀ e ∈ l, map.lookup e.1 = some e.2) (n : UInt64) :
    InMemoryReservationStore.expireAll (l.map Prod.fst) n map =
      .ok (n + UInt64.ofNat l.length) (insertAll map (l.map fun e => (e.1, e.2.expire))) := by
  induction l generalizing map n with
  | nil =>
    show EStateM.Result.ok n map = .ok (n + 0) map
    rw [UInt64.add_zero]
  | cons e rest ih =>
    have hrest : ∀ e' ∈ rest, (map.insert e.1 e.2.expire).lookup e'.1 = some e'.2 := by
      intro e' he'
      have hne : e'.1 ≠ e.1 := fun heq =>
        (List.nodup_cons.mp hkeys).1 (heq ▸ List.mem_map_of_mem he')
      rw [Finmap.lookup_insert_of_ne map hne]
      exact hl e' (List.mem_cons_of_mem _ he')
    simp only [List.map_cons, InMemoryReservationStore.expireAll, bind_def, get_def,
      hl e List.mem_cons_self, set_def]
    rw [List.length_cons, ← count_succ]
    exact ih (List.nodup_cons.mp hkeys).2 hrest (n + 1)

theorem expireAll_sled (hjson : json.Total) (l : List (Bytes × Reservation)) (n : UInt64) (db : Db) :
    SledReservationStore.expireAll json l n db =
      .ok (n + UInt64.ofNat l.length)
        (insertAll db (l.map fun e => (e.1, json.written e.2.expire))) := by
  induction l generalizing n db with
  | nil =>
    show EStateM.Result.ok n db = .ok (n + 0) db
    rw [UInt64.add_zero]
  | cons e rest ih =>
    simp only [SledReservationStore.expireAll, hjson.serialize, bind_def, modify_def]
    rw [List.length_cons, ← count_succ]
    exact ih (n + 1) _

/-- The two loops expire the same reservations, each in an order of its own. -/
theorem simulates_expireStale (hjson : json.Total) (order : MapOrder Reservation)
    (currentBucket : UInt64) :
    Simulates (Keeps SledReservationStore.prefixReservation json)
      (InMemoryReservationStore.expireStale order currentBucket)
      (SledReservationStore.expireStale json currentBucket) := by
  intro map db h
  set stale := (order.entries map).filter fun e => e.2.isStale currentBucket
  set scanned := (Sled.scan json SledReservationStore.prefixReservation db).filter fun e =>
    e.2.isStale currentBucket
  have henum := order.enumerates map
  have hsub : stale.Sublist (order.entries map) := List.filter_sublist
  have hkeys : (stale.map Prod.fst).Nodup := henum.nodup.sublist (hsub.map Prod.fst)
  have hfound : ∀ e ∈ stale, map.lookup e.1 = some e.2 := fun e he =>
    (henum.mem e.1 e.2).mp (hsub.subset he)
  have hscan : scanned.Perm
      (stale.map fun e => (SledReservationStore.prefixReservation ++ utf8 e.1, e.2)) := by
    refine ((scan_perm_of_holds hjson h henum).filter _).trans (.of_eq ?_)
    rw [List.filter_map]
    rfl
  have hmemory : InMemoryReservationStore.expireStale order currentBucket map = _ :=
    expireAll_memory hkeys hfound 0
  have hsled : SledReservationStore.expireStale json currentBucket db = _ :=
    expireAll_sled hjson scanned 0 db
  have hlength : scanned.length = stale.length := by
    rw [hscan.length_eq, List.length_map]
  refine ⟨?_, ?_⟩
  · unfold outcome
    rw [hmemory, hsled, hlength]
  · rw [after_ok hmemory, after_ok hsled]
    have hwrites := hscan.map fun e => (e.1, json.written e.2.expire)
    have hnodup : ((scanned.map fun e => (e.1, json.written e.2.expire)).map Prod.fst).Nodup := by
      rw [(hwrites.map Prod.fst).nodup_iff, List.map_map, List.map_map]
      have hsame := hkeys.map (append_utf8_injective SledReservationStore.prefixReservation)
      rw [List.map_map] at hsame
      exact hsame
    rw [insertAll_perm hwrites hnodup]
    have hinserted := Holds.insertAll h (stale.map fun e => (e.1, e.2.expire))
    rw [List.map_map] at hinserted ⊢
    exact hinserted

theorem simulates_reservations (hjson : json.Total) (order : MapOrder Reservation)
    (c : ReservationCall) :
    Simulates (Keeps SledReservationStore.prefixReservation json)
      ((InMemoryReservationStore.store order).call c) ((SledReservationStore.store json).call c) := by
  cases c with
  | createReservation r => exact (simulates_create hjson _ r _).map _
  | getReservation id => exact (simulates_read hjson id).map _
  | transition id source target => exact (simulates_update hjson id _ _).map _
  | expireStale bucket => exact (simulates_expireStale hjson order bucket).map _

theorem confined_expireAll {p : Bytes} {l : List (Bytes × Reservation)} (hl : ∀ e ∈ l, p <+: e.1)
    (n : UInt64) : Preserves (Confined p) (SledReservationStore.expireAll json l n) := by
  induction l generalizing n with
  | nil => exact preserves_pure (Confined.refl p) n
  | cons e rest ih =>
    obtain ⟨key, r⟩ := e
    have hrest : ∀ _ : Unit,
        Preserves (Confined p) (SledReservationStore.expireAll json rest (n + 1)) :=
      fun _ => ih (fun e he => hl e (List.mem_cons_of_mem _ he)) (n + 1)
    rw [SledReservationStore.expireAll]
    cases json.serialize { r with state := .expired } with
    | error _ =>
      exact preserves_bind (fun _ _ _ h h' => h.trans h') (preserves_pure (Confined.refl p) ()) hrest
    | ok bytes =>
      refine preserves_bind (fun _ _ _ h h' => h.trans h') (fun db => ?_) hrest
      obtain ⟨suffix, rfl⟩ : p <+: key := hl (key, r) List.mem_cons_self
      exact confined_insert p suffix bytes db

theorem confined_reservations (c : ReservationCall) :
    Preserves (Confined SledReservationStore.prefixReservation)
      ((SledReservationStore.store json).call c) := by
  cases c with
  | createReservation r => exact preserves_map (confined_create _ r _) _
  | getReservation id => exact preserves_map (confined_read _) _
  | transition id source target => exact preserves_map (confined_update id _ _) _
  | expireStale bucket =>
    refine preserves_map (fun db => ?_) _
    exact confined_expireAll (fun e he => prefix_of_mem_scan (List.mem_filter.mp he).1) 0 db

end Reservations

/-! ### Idempotency -/

section Idempotency
variable {json : Json IdempotencyRecord}

theorem simulates_idempotency (hjson : json.Total) (c : IdempotencyCall) :
    Simulates (Keeps SledIdempotencyStore.prefixIdempotency json)
      (InMemoryIdempotencyStore.store.call c) ((SledIdempotencyStore.store json).call c) := by
  cases c with
  | check commandId commandHash =>
    refine Simulates.map (fun map db h => ?_) _
    have hlookup : db.lookup (SledIdempotencyStore.idempotencyKey commandId) = _ :=
      Holds.lookup h commandId
    unfold outcome after
    simp only [InMemoryIdempotencyStore.store, InMemoryIdempotencyStore.check,
      SledIdempotencyStore.store, SledIdempotencyStore.check, bind_def, get_def, hlookup]
    cases map.lookup commandId with
    | none => exact ⟨rfl, h⟩
    | some record =>
      simp only [Option.map_some, bind_def, hjson.deserialize, check_ok]
      by_cases hhash : record.commandHash = commandHash
      · simp only [if_pos hhash]
        exact ⟨rfl, h⟩
      · simp only [if_neg hhash]
        exact ⟨rfl, h⟩
  | record record =>
    refine Simulates.map (fun map db h => ?_) _
    unfold outcome after
    simp only [InMemoryIdempotencyStore.store, InMemoryIdempotencyStore.record,
      SledIdempotencyStore.store, SledIdempotencyStore.record, bind_def, hjson.serialize, check_ok,
      modify_def, true_and]
    exact h.insert record.commandId record

theorem confined_idempotency (c : IdempotencyCall) :
    Preserves (Confined SledIdempotencyStore.prefixIdempotency)
      ((SledIdempotencyStore.store json).call c) := by
  cases c with
  | check commandId commandHash =>
    refine preserves_map (fun db => ?_) _
    unfold after
    simp only [SledIdempotencyStore.store, SledIdempotencyStore.check, bind_def, get_def]
    cases db.lookup (SledIdempotencyStore.idempotencyKey commandId) with
    | none => exact .refl _ db
    | some bytes =>
      simp only [bind_def]
      cases json.deserialize bytes with
      | error e => exact .refl _ db
      | ok record =>
        by_cases hhash : record.commandHash = commandHash
        · simp only [check_ok, if_pos hhash]
          exact .refl _ db
        · simp only [check_ok, if_neg hhash]
          exact .refl _ db
  | record record =>
    refine preserves_map (fun db => ?_) _
    unfold after
    simp only [SledIdempotencyStore.store, SledIdempotencyStore.record, bind_def]
    cases json.serialize record with
    | error e => exact .refl _ db
    | ok bytes => exact confined_insert _ (utf8 record.commandId) bytes db

end Idempotency

/-! ### Nonces -/

section Nonces

/-- The database has an empty value under every nonce that is consumed. -/
def KeepsNonces (consumed : Finset String) (db : Db) : Prop :=
  Holds SledNonceChecker.prefixNonce (fun _ : Unit => ([] : Bytes))
    (fun nonce => if nonce ∈ consumed then some () else none) db

theorem KeepsNonces.isSome {consumed : Finset String} {db : Db} (h : KeepsNonces consumed db)
    (nonce : String) :
    (db.lookup (SledNonceChecker.prefixNonce ++ utf8 nonce)).isSome = decide (nonce ∈ consumed) := by
  rw [Holds.lookup h nonce]
  by_cases hn : nonce ∈ consumed <;> simp [hn]

theorem KeepsNonces.insert {consumed : Finset String} {db : Db} (h : KeepsNonces consumed db)
    (nonce : String) :
    KeepsNonces (insert nonce consumed) (db.insert (SledNonceChecker.prefixNonce ++ utf8 nonce) []) := by
  have hupdate : (fun n => if n ∈ Insert.insert nonce consumed then some () else none) =
      Function.update (fun n => if n ∈ consumed then some () else none) nonce (some ()) := by
    funext n
    by_cases hn : n = nonce
    · rw [hn, Function.update_self, if_pos (Finset.mem_insert_self nonce consumed)]
    · rw [Function.update_of_ne hn]
      simp [hn]
  unfold KeepsNonces
  rw [hupdate]
  exact Holds.insert h nonce ()

theorem simulates_nonces (c : NonceCall) :
    Simulates KeepsNonces (InMemoryNonceChecker.checker.call c) (SledNonceChecker.checker.call c) := by
  cases c with
  | isConsumed nonce | isConsumedSync nonce =>
    refine Simulates.map (fun consumed db h => ⟨?_, h⟩) _
    have hsome := h.isSome nonce
    exact congrArg Except.ok hsome.symm
  | markConsumed nonce =>
    refine Simulates.map (fun consumed db h => ?_) _
    have hsome := h.isSome nonce
    have hinsert := h.insert nonce
    unfold outcome after
    simp only [InMemoryNonceChecker.checker, InMemoryNonceChecker.markConsumed,
      SledNonceChecker.checker, SledNonceChecker.markConsumed, bind_def, get_def, set_def, hsome]
    by_cases hn : nonce ∈ consumed
    · -- The nonce that is refused is written again, to no effect.
      rw [Finset.insert_eq_of_mem hn] at hinsert
      simp only [hn, if_true, decide_true]
      exact ⟨rfl, hinsert⟩
    · simp only [hn, if_false, decide_false]
      exact ⟨rfl, hinsert⟩
  | markConsumedSync nonce =>
    refine Simulates.map (m := InMemoryNonceChecker.markConsumedSync nonce) (fun consumed db h => ?_) _
    exact ⟨rfl, h.insert nonce⟩

theorem confined_nonces (c : NonceCall) :
    Preserves (Confined SledNonceChecker.prefixNonce) (SledNonceChecker.checker.call c) := by
  have hwritten (nonce : String) (db : Db) : Confined SledNonceChecker.prefixNonce db
      (db.insert (SledNonceChecker.prefixNonce ++ utf8 nonce) []) :=
    confined_insert _ (utf8 nonce) [] db
  cases c with
  | isConsumed nonce | isConsumedSync nonce => exact preserves_map (fun db => .refl _ db) _
  | markConsumed nonce =>
    refine preserves_map (fun db => ?_) _
    unfold after
    simp only [SledNonceChecker.checker, SledNonceChecker.markConsumed, bind_def, get_def, set_def]
    cases db.lookup (SledNonceChecker.prefixNonce ++ utf8 nonce) <;> exact hwritten nonce db
  | markConsumedSync nonce => exact preserves_map (fun db => hwritten nonce db) _

end Nonces

/-! ### Withdrawals -/

section Withdrawals
variable {json : Json WithdrawalRecord}

theorem simulates_withdrawals (hjson : json.Total) (debugText : String → String)
    (c : WithdrawalCall) :
    Simulates (Keeps SledWithdrawalStore.prefixWithdrawal json)
      ((InMemoryWithdrawalStore.store debugText).call c)
      ((SledWithdrawalStore.store json debugText).call c) := by
  cases c with
  | create withdrawal => exact (simulates_create hjson _ withdrawal _).map _
  | get id => exact (simulates_read hjson id).map _
  | updateStatus id status bucket => exact (simulates_update hjson id _ _).map _
  | setAuthorization id auth => exact (simulates_update hjson id _ _).map _
  | setPsbt id commitment => exact (simulates_update hjson id _ _).map _
  | setBroadcastTxid id txid => exact (simulates_update hjson id _ _).map _

theorem confined_withdrawals (debugText : String → String) (c : WithdrawalCall) :
    Preserves (Confined SledWithdrawalStore.prefixWithdrawal)
      ((SledWithdrawalStore.store json debugText).call c) := by
  cases c with
  | create withdrawal => exact preserves_map (confined_create _ withdrawal _) _
  | get id => exact preserves_map (confined_read _) _
  | updateStatus id status bucket => exact preserves_map (confined_update id _ _) _
  | setAuthorization id auth => exact preserves_map (confined_update id _ _) _
  | setPsbt id commitment => exact preserves_map (confined_update id _ _) _
  | setBroadcastTxid id txid => exact preserves_map (confined_update id _ _) _

end Withdrawals

/-! ### Members of the cluster -/

section Members
variable {json : Json NodeMembership}

/-- Every node is under its own id. -/
def KeyedNodes (map : Table String NodeMembership) : Prop :=
  ∀ id node, map.lookup id = some node → node.nodeId = id

theorem KeyedNodes.insert {map : Table String NodeMembership} (h : KeyedNodes map) {id : String}
    {node : NodeMembership} (hnode : node.nodeId = id) : KeyedNodes (map.insert id node) := by
  intro id' node' hlookup
  by_cases hid : id' = id
  · rw [hid, Finmap.lookup_insert] at hlookup
    cases hlookup
    rw [hid, hnode]
  · rw [Finmap.lookup_insert_of_ne map hid] at hlookup
    exact h id' node' hlookup

theorem keyedNodes_update {map : Table String NodeMembership} (h : KeyedNodes map) (id : String)
    (missing : LedgerError) {f : NodeMembership → Except LedgerError NodeMembership}
    (hf : ∀ node node', f node = .ok node' → node'.nodeId = node.nodeId) :
    KeyedNodes (after (HashMap.update id missing f) map) := by
  unfold after HashMap.update
  simp only [bind_def, get_def]
  cases hlookup : map.lookup id with
  | none => exact h
  | some node =>
    simp only [bind_def]
    cases hnode : f node with
    | error e => exact h
    | ok node' => exact h.insert ((hf node node' hnode).trans (h id node hlookup))

theorem keyedNodes_call (order : MapOrder NodeMembership) (c : MembershipCall)
    (map : Table String NodeMembership) (h : KeyedNodes map) :
    KeyedNodes (after ((InMemoryMembershipStore.store order).call c) map) := by
  cases c with
  | addNode node =>
    refine (after_map _ _ map).symm ▸ ?_
    unfold after InMemoryMembershipStore.store InMemoryMembershipStore.addNode HashMap.create
    simp only [bind_def, get_def]
    cases map.lookup node.nodeId with
    | some old => exact h
    | none => exact h.insert rfl
  | getNode nodeId => exact h
  | listByRole role => exact h
  | promote nodeId targetRole =>
    refine (after_map _ _ map).symm ▸ keyedNodes_update h nodeId _ fun node node' hf => ?_
    obtain ⟨_, _, hnode⟩ := except_bind_ok.mp hf
    cases hnode
    rfl
  | removeNode nodeId =>
    intro id node hlookup
    by_cases hid : id = nodeId
    · rw [hid] at hlookup
      cases (Finmap.lookup_erase nodeId map).symm.trans hlookup
    · exact h id node ((Finmap.lookup_erase_ne hid).symm.trans hlookup)
  | updateHeartbeat nodeId bucket =>
    refine (after_map _ _ map).symm ▸ keyedNodes_update h nodeId _ fun node node' hf => ?_
    cases hf
    rfl

/-- Ids tell the nodes apart, so it does not matter in which order they come. -/
theorem simulates_listByRole (hjson : json.Total) (order : MapOrder NodeMembership)
    (role : NodeRole) :
    Simulates (fun map db => Keeps SledMembershipStore.prefixMembership json map db ∧ KeyedNodes map)
      (InMemoryMembershipStore.listByRole order role) (SledMembershipStore.listByRole json role) := by
  intro map db h
  obtain ⟨hkeeps, hkeyed⟩ := h
  refine ⟨?_, hkeeps, hkeyed⟩
  have henum := order.enumerates map
  set nodes := (order.entries map).map Prod.snd
  have hscan : ((Sled.scan json SledMembershipStore.prefixMembership db).map Prod.snd).Perm nodes := by
    refine ((scan_perm_of_holds hjson hkeeps henum).map Prod.snd).trans (.of_eq ?_)
    rw [List.map_map]
    rfl
  have hlisted : (SledMembershipStore.listAllNodes json db).Perm nodes :=
    (List.perm_insertionSort _ _).trans hscan
  have hstored {node : NodeMembership} (hn : node ∈ nodes) : map.lookup node.nodeId = some node := by
    obtain ⟨e, he, rfl⟩ := List.mem_map.mp hn
    have hlookup := (henum.mem e.1 e.2).mp he
    rw [hkeyed e.1 e.2 hlookup]
    exact hlookup
  have hsorted : sortByNodeId (nodes.filter fun n => n.role = role) =
      sortByNodeId ((SledMembershipStore.listAllNodes json db).filter fun n => n.role = role) := by
    refine sorted_eq_of_perm (fun a ha b hb hab => ?_) (hlisted.symm.filter _)
    have hid : a.nodeId = b.nodeId := utf8_inj.mp hab
    have ha := hstored (List.mem_filter.mp ha).1
    have hb := hstored (List.mem_filter.mp hb).1
    rw [hid, hb] at ha
    exact (Option.some.inj ha).symm
  exact congrArg Except.ok hsorted

theorem simulates_members (hjson : json.Total) (order : MapOrder NodeMembership)
    (c : MembershipCall) :
    Simulates (fun map db => Keeps SledMembershipStore.prefixMembership json map db ∧ KeyedNodes map)
      ((InMemoryMembershipStore.store order).call c) ((SledMembershipStore.store json).call c) := by
  have hinv := keyedNodes_call order c
  cases c with
  | addNode node => exact ((simulates_create hjson _ node _).map _).and_invariant hinv
  | getNode nodeId => exact ((simulates_read hjson nodeId).map _).and_invariant hinv
  | listByRole role => exact (simulates_listByRole hjson order role).map _
  | promote nodeId targetRole => exact ((simulates_update hjson nodeId _ _).map _).and_invariant hinv
  | removeNode nodeId =>
    refine Simulates.and_invariant (fun map db h => ?_) hinv
    exact ⟨rfl, h.erase nodeId⟩
  | updateHeartbeat nodeId bucket =>
    exact ((simulates_update hjson nodeId _ _).map _).and_invariant hinv

theorem confined_members (c : MembershipCall) :
    Preserves (Confined SledMembershipStore.prefixMembership)
      ((SledMembershipStore.store json).call c) := by
  cases c with
  | addNode node => exact preserves_map (confined_create _ node _) _
  | getNode nodeId => exact preserves_map (confined_read _) _
  | listByRole role => exact preserves_map (fun db => .refl _ db) _
  | promote nodeId targetRole => exact preserves_map (confined_update nodeId _ _) _
  | removeNode nodeId => exact preserves_map (fun db => confined_erase _ (utf8 nodeId) db) _
  | updateHeartbeat nodeId bucket => exact preserves_map (confined_update nodeId _ _) _

end Members

/-! ### UTXOs -/

section Utxos
variable {json : Json UtxoEntry}

/-- The database has the entries of a vector under their keys, of which there are no two alike. -/
def KeepsUtxos (json : Json UtxoEntry) (entries : List UtxoEntry) (db : Db) : Prop :=
  Holds SledUtxoStore.prefixUtxo json.written (fun key => find UtxoEntry.canonicalKey key entries) db ∧
    (entries.map UtxoEntry.canonicalKey).Nodup

theorem KeepsUtxos.put {entries : List UtxoEntry} {db : Db} (h : KeepsUtxos json entries db)
    (utxo : UtxoEntry) :
    KeepsUtxos json (put UtxoEntry.canonicalKey utxo entries)
      (db.insert (SledUtxoStore.utxoKey utxo.canonicalKey) (json.written utxo)) := by
  have hupdate : (fun key => find UtxoEntry.canonicalKey key (Lib.Keyed.put UtxoEntry.canonicalKey utxo entries)) =
      Function.update (fun key => find UtxoEntry.canonicalKey key entries) utxo.canonicalKey
        (some utxo) := by
    funext key
    rw [find_put]
    by_cases hkey : utxo.canonicalKey = key
    · rw [if_pos hkey, ← hkey, Function.update_self]
    · rw [if_neg hkey, Function.update_of_ne (Ne.symm hkey)]
  refine ⟨?_, nodup_put h.2 utxo⟩
  rw [hupdate]
  exact h.1.insert utxo.canonicalKey utxo

theorem enumerates_entries {entries : List UtxoEntry}
    (h : (entries.map UtxoEntry.canonicalKey).Nodup) :
    Enumerates (entries.map fun u => (u.canonicalKey, u)) fun key =>
      find UtxoEntry.canonicalKey key entries := by
  refine ⟨?_, fun key u => ?_⟩
  · rw [List.map_map]
    exact h
  · rw [List.mem_map]
    constructor
    · intro hu
      obtain ⟨v, hv, heq⟩ := hu
      cases heq
      exact find_of_mem h hv
    · intro hu
      exact ⟨u, mem_of_find hu, by rw [key_of_find hu]⟩

theorem listAllEntries_perm (hjson : json.Total) {entries : List UtxoEntry} {db : Db}
    (h : KeepsUtxos json entries db) : (SledUtxoStore.listAllEntries json db).Perm entries := by
  have hscan := (scan_perm_of_holds hjson h.1 (enumerates_entries h.2)).map Prod.snd
  rw [List.map_map, List.map_map] at hscan
  refine (List.perm_insertionSort _ _).trans (hscan.trans (.of_eq ?_))
  exact List.map_id entries

theorem sortByCanonicalKey_of_perm {l l' : List UtxoEntry} (h : l.Perm l')
    (hl : (l.map UtxoEntry.canonicalKey).Nodup) : sortByCanonicalKey l = sortByCanonicalKey l' :=
  sorted_eq_of_perm (fun _ ha _ hb hab => List.inj_on_of_nodup_map hl ha hb (utf8_inj.mp hab)) h

theorem simulates_addUtxo (hjson : json.Total) (utxo : UtxoEntry) :
    Simulates (KeepsUtxos json) (InMemoryUtxoStore.addUtxo utxo) (SledUtxoStore.addUtxo json utxo) := by
  intro entries db h
  have hlookup : db.lookup (SledUtxoStore.utxoKey utxo.canonicalKey) = _ :=
    h.1.lookup utxo.canonicalKey
  have hput := h.put utxo
  unfold outcome after InMemoryUtxoStore.addUtxo SledUtxoStore.addUtxo
  simp only [bind_def, get_def, hlookup]
  cases hfind : find UtxoEntry.canonicalKey utxo.canonicalKey entries with
  | some old =>
    have hany : (entries.any fun e => e.canonicalKey == utxo.canonicalKey) = true :=
      List.any_eq_true.mpr ⟨old, mem_of_find hfind, beq_iff_eq.mpr (key_of_find hfind)⟩
    simp only [hany, if_true]
    exact ⟨rfl, h⟩
  | none =>
    have hany : (entries.any fun e => e.canonicalKey == utxo.canonicalKey) = false := by
      rw [List.any_eq_false]
      exact fun e he heq => find_eq_none.mp hfind e he (beq_iff_eq.mp heq)
    rw [put_of_find_eq_none hfind] at hput
    simp only [hany, hjson.serialize]
    exact ⟨rfl, hput⟩

theorem simulates_getUtxo (hjson : json.Total) (outpoint : OutPoint) :
    Simulates (KeepsUtxos json) (InMemoryUtxoStore.getUtxo outpoint)
      (SledUtxoStore.getUtxo json outpoint) := by
  intro entries db h
  have hlookup : db.lookup (SledUtxoStore.utxoKey outpoint.toCanonicalString) = _ :=
    h.1.lookup outpoint.toCanonicalString
  unfold outcome after InMemoryUtxoStore.getUtxo SledUtxoStore.getUtxo Sled.read
  simp only [bind_def, get_def, hlookup, pure_def]
  cases find UtxoEntry.canonicalKey outpoint.toCanonicalString entries with
  | none => exact ⟨rfl, h⟩
  | some entry =>
    simp only [Option.map_some, bind_def, hjson.deserialize]
    exact ⟨rfl, h⟩

/-- An entry keeps its key when it is changed, and goes back to where it was. -/
theorem simulates_updateEntry (hjson : json.Total) (outpoint : OutPoint)
    {f : UtxoEntry → Except LedgerError UtxoEntry}
    (hf : ∀ entry entry', f entry = .ok entry' → entry'.outpoint = entry.outpoint) :
    Simulates (KeepsUtxos json) (InMemoryUtxoStore.updateEntry outpoint f)
      (Sled.update json (SledUtxoStore.utxoKey outpoint.toCanonicalString)
        (.utxoNotFound outpoint.txid outpoint.vout) f) := by
  intro entries db h
  have hlookup : db.lookup (SledUtxoStore.utxoKey outpoint.toCanonicalString) = _ :=
    h.1.lookup outpoint.toCanonicalString
  unfold outcome after InMemoryUtxoStore.updateEntry Sled.update
  simp only [bind_def, get_def, hlookup]
  cases hfind : find UtxoEntry.canonicalKey outpoint.toCanonicalString entries with
  | none => exact ⟨rfl, h⟩
  | some entry =>
    simp only [Option.map_some, bind_def, hjson.deserialize, check_ok]
    cases hentry : f entry with
    | error e => exact ⟨rfl, h⟩
    | ok entry' =>
      have hkey : entry'.canonicalKey = outpoint.toCanonicalString := by
        rw [← key_of_find hfind, UtxoEntry.canonicalKey, UtxoEntry.canonicalKey,
          hf entry entry' hentry]
      have hput := h.put entry'
      rw [hkey] at hput
      simp only [check_ok, hjson.serialize, set_def, true_and]
      exact hput

theorem simulates_utxos (hjson : json.Total) (x : Crypto) (c : UtxoCall) :
    Simulates (KeepsUtxos json) ((InMemoryUtxoStore.store x).call c)
      ((SledUtxoStore.store json x).call c) := by
  cases c with
  | addUtxo utxo => exact (simulates_addUtxo hjson utxo).map _
  | getUtxo outpoint => exact (simulates_getUtxo hjson outpoint).map _
  | listByState state =>
    refine Simulates.map (m := InMemoryUtxoStore.listByState state) (fun entries db h => ⟨?_, h⟩) _
    have hperm := (listAllEntries_perm hjson h).symm.filter fun e => e.state = state
    have hnodup : ((entries.filter fun e => e.state = state).map UtxoEntry.canonicalKey).Nodup :=
      h.2.sublist (List.filter_sublist.map _)
    exact congrArg Except.ok (sortByCanonicalKey_of_perm hperm hnodup)
  | listAll =>
    refine Simulates.map (m := InMemoryUtxoStore.listAll) (fun entries db h => ⟨?_, h⟩) _
    have hscan := (scan_perm_of_holds hjson h.1 (enumerates_entries h.2)).map Prod.snd
    rw [List.map_map, List.map_map] at hscan
    have hperm := hscan.trans (.of_eq (List.map_id entries))
    exact congrArg Except.ok (sortByCanonicalKey_of_perm hperm.symm h.2)
  | updateState outpoint newState =>
    refine (simulates_updateEntry hjson outpoint fun entry entry' hf => ?_).map _
    obtain ⟨_, _, hentry⟩ := except_bind_ok.mp hf
    cases hentry
    rfl
  | reserve outpoint reservedBy bucket =>
    refine (simulates_updateEntry hjson outpoint fun entry entry' hf => ?_).map _
    by_cases hstate : entry.state = .spendable ∨ entry.state = .finalizedByPolicy
    · cases hby : entry.reservedBy with
      | some existing =>
        rw [if_neg (not_not.mpr hstate), hby] at hf
        cases hf
      | none =>
        rw [if_neg (not_not.mpr hstate), hby] at hf
        cases hf
        rfl
    · rw [if_pos hstate] at hf
      cases hf
  | release outpoint =>
    refine (simulates_updateEntry hjson outpoint fun entry entry' hf => ?_).map _
    cases hby : entry.reservedBy with
    | none =>
      rw [hby] at hf
      cases hf
    | some holder =>
      rw [hby] at hf
      cases hf
      rfl
  | computeUtxoRootHash =>
    refine Simulates.map (m := InMemoryUtxoStore.computeUtxoRootHash x) (fun entries db h => ⟨?_, h⟩) _
    exact congrArg Except.ok (computeUtxoRoot_of_perm (listAllEntries_perm hjson h).symm)

theorem confined_utxos (x : Crypto) (c : UtxoCall) :
    Preserves (Confined SledUtxoStore.prefixUtxo) ((SledUtxoStore.store json x).call c) := by
  cases c with
  | addUtxo utxo =>
    refine preserves_map (fun db => ?_) _
    unfold after
    simp only [SledUtxoStore.store, SledUtxoStore.addUtxo, bind_def, get_def]
    cases db.lookup (SledUtxoStore.utxoKey utxo.canonicalKey) with
    | some old => exact .refl _ db
    | none =>
      cases json.serialize utxo with
      | error e => exact .refl _ db
      | ok bytes => exact confined_insert _ (utf8 utxo.canonicalKey) bytes db
  | getUtxo outpoint => exact preserves_map (confined_read _) _
  | listByState state => exact preserves_map (fun db => .refl _ db) _
  | listAll => exact preserves_map (fun db => .refl _ db) _
  | updateState outpoint newState => exact preserves_map (confined_update _ _ _) _
  | reserve outpoint reservedBy bucket => exact preserves_map (confined_update _ _ _) _
  | release outpoint => exact preserves_map (confined_update _ _ _) _
  | computeUtxoRootHash => exact preserves_map (fun db => .refl _ db) _

end Utxos

end Kerosene.Ledger
