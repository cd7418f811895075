import Kerosene.Ledger.RecordWrites
import Kerosene.Ledger.SharedDatabase

/-! Reservations over whole runs (`reservation.rs`, `in_memory.rs`, `persistent.rs`).

Of the calls that write a reservation, only `transition` can touch one that is consumed,
released or expired, and only when its caller names that very state as the one to leave:
the stores compare it with the state they find and allow whatever follows. Nothing else
ends a terminal state (`final_until_named`). -/
namespace Kerosene.Ledger

open Lib.Encode Lib.Inplace Lib.Records Lib.Regions Lib.Simulation Lib.Tables

/-! ### What each call writes -/

/-- What a call may make of the reservation under a name. -/
def ReservationCall.Writes (c : ReservationCall) (i : String) (old : Option Reservation)
    (new : Reservation) : Prop :=
  match c with
  | .createReservation r => i = r.reservationId ∧ old = none ∧ new = r
  | .getReservation _ => False
  | .transition id source target =>
    i = id ∧ ∃ r, old = some r ∧ r.state = source ∧ new = { r with state := target }
  | .expireStale bucket => ∃ r, old = some r ∧ r.isStale bucket = true ∧ new = r.expire

/-- A reservation as a client gets it. -/
def ReservationStore.Has {σ : Type} (store : ReservationStore σ) (s : σ) (id : String)
    (r : Reservation) : Prop :=
  outcome (store.getReservation id) s = .ok (some r)

/-- A store whose calls write what they may, as seen through the reservations it has. -/
structure ReservationStore.Seen {σ : Type} (store : ReservationStore σ)
    (view : σ → String → Option Reservation) : Prop where
  has : ∀ s id r, store.Has s id r ↔ view s id = some r
  writes : ∀ c : ReservationCall, WritesOnly view c.Writes (store.call c)

theorem writes_transition {id i : String} {source target : ReservationState}
    {e : Reservation → LedgerError} {old : Option Reservation} {new : Reservation}
    (h : Updates id (fun reservation => do
      if reservation.state ≠ source then throw (e reservation)
      return { reservation with state := target }) i old new) :
    (ReservationCall.transition id source target).Writes i old new := by
  obtain ⟨hi, r, hr, hnew⟩ := h
  by_cases hstate : r.state = source
  · simp only [hstate, ne_eq, not_true_eq_false, if_false] at hnew
    cases hnew
    exact ⟨hi, r, hr, hstate, rfl⟩
  · simp only [ne_eq, hstate, not_false_eq_true, if_true] at hnew
    cases hnew

/-! ### Expiry in memory -/

theorem InMemoryReservationStore.writesOnly_expireStale (order : MapOrder Reservation)
    (currentBucket : UInt64) :
    WritesOnly HashMap.stored (ReservationCall.expireStale currentBucket).Writes
      (expireStale order currentBucket) := by
  intro map i
  set stale := (order.entries map).filter fun e => e.2.isStale currentBucket with hstale
  have henum := order.enumerates map
  have hsub : stale.Sublist (order.entries map) := List.filter_sublist
  have hfound : ∀ e ∈ stale, map.lookup e.1 = some e.2 := fun e he =>
    (henum.mem e.1 e.2).mp (hsub.subset he)
  have hcall : expireStale order currentBucket map = _ :=
    expireAll_memory (henum.nodup.sublist (hsub.map Prod.fst)) hfound 0
  rw [after_ok hcall, outcome, hcall]
  rcases lookup_insertAll map (stale.map fun e => (e.1, e.2.expire)) i with ⟨_, hsame⟩ | ⟨v, hv, hnew⟩
  · exact .inl hsame
  · obtain ⟨e, he, heq⟩ := List.mem_map.mp hv
    cases heq
    exact .inr ⟨⟨_, rfl⟩, _, hnew, e.2, hfound e he, (List.mem_filter.mp he).2, rfl⟩

/-! ### Expiry in the database -/

section Expiry
variable {json : Json Reservation} {p : Bytes}

/-- Reservations are left as they were, or are found expired as some of the list are,
each under its own key. -/
def ExpiredFrom (json : Json Reservation) (p : Bytes) (l : List (Bytes × Reservation)) (db db' : Db) :
    Prop :=
  ∀ i, Sled.stored json p db' i = Sled.stored json p db i ∨
    ∃ e ∈ l, e.1 = p ++ utf8 i ∧ Sled.stored json p db' i = some e.2.expire

theorem ExpiredFrom.trans {l : List (Bytes × Reservation)} {db db' db'' : Db}
    (h : ExpiredFrom json p l db db') (h' : ExpiredFrom json p l db' db'') :
    ExpiredFrom json p l db db'' := by
  intro i
  rcases h' i with hsame | hlater
  · rw [hsame]
    exact h i
  · exact .inr hlater

theorem expiredFrom_insert {l : List (Bytes × Reservation)} {e : Bytes × Reservation} (he : e ∈ l)
    {bytes : Bytes} (hbytes : json.serialize e.2.expire = .ok bytes) (db : Db) :
    ExpiredFrom json p l db (db.insert e.1 bytes) := by
  intro i
  by_cases hi : e.1 = p ++ utf8 i
  · refine .inr ⟨e, he, hi, ?_⟩
    rw [hi, Sled.stored_insert db i hbytes, if_pos rfl]
  · refine .inl ?_
    unfold Sled.stored
    rw [Finmap.lookup_insert_of_ne db (Ne.symm hi)]

/-- The loop over the reservations to expire. -/
theorem expiredFrom_expireAll {l l' : List (Bytes × Reservation)} (hsub : l' ⊆ l) (n : UInt64) :
    Preserves (ExpiredFrom json p l) (SledReservationStore.expireAll json l' n) := by
  induction l' generalizing n with
  | nil => exact preserves_pure (fun _ _ => .inl rfl) n
  | cons e rest ih =>
    have hrest : ∀ _ : Unit,
        Preserves (ExpiredFrom json p l) (SledReservationStore.expireAll json rest (n + 1)) :=
      fun _ => ih (fun e' he' => hsub (List.mem_cons_of_mem e he')) (n + 1)
    rw [SledReservationStore.expireAll]
    cases hbytes : json.serialize { e.2 with state := .expired } with
    | error _ =>
      exact preserves_bind (fun _ _ _ => .trans) (preserves_pure (fun _ _ => .inl rfl) ()) hrest
    | ok bytes =>
      refine preserves_bind (fun _ _ _ => .trans) (fun db => ?_) hrest
      exact expiredFrom_insert (hsub List.mem_cons_self) hbytes db

theorem expireAll_ok (l : List (Bytes × Reservation)) (n : UInt64) (db : Db) :
    ∃ count, outcome (SledReservationStore.expireAll json l n) db = .ok count := by
  induction l generalizing n db with
  | nil => exact ⟨n, rfl⟩
  | cons e rest ih =>
    unfold outcome at ih ⊢
    simp only [SledReservationStore.expireAll]
    cases json.serialize { e.2 with state := .expired } with
    | error _ => exact ih (n + 1) db
    | ok bytes => exact ih (n + 1) (db.insert e.1 bytes)

theorem stored_of_mem_scan {db : Db} {e : Bytes × Reservation} (he : e ∈ Sled.scan json p db)
    {i : String} (hi : e.1 = p ++ utf8 i) : Sled.stored json p db i = some e.2 := by
  obtain ⟨found, hfound, h⟩ := List.mem_filterMap.mp he
  have hlookup := (mem_scanPrefix.mp hfound).2
  cases hr : json.deserialize found.2 with
  | error _ =>
    rw [hr] at h
    cases h
  | ok r =>
    rw [hr] at h
    cases h
    unfold Sled.stored
    rw [← hi, hlookup, Option.bind_some, hr]
    rfl

theorem SledReservationStore.writesOnly_expireStale (currentBucket : UInt64) :
    WritesOnly (Sled.stored json prefixReservation)
      (ReservationCall.expireStale currentBucket).Writes (expireStale json currentBucket) := by
  intro db i
  set stale := (Sled.scan json prefixReservation db).filter fun e => e.2.isStale currentBucket
  have hcall : expireStale json currentBucket db = expireAll json stale 0 db := rfl
  have hafter : after (expireStale json currentBucket) db = after (expireAll json stale 0) db := by
    rw [after, hcall]
    rfl
  rw [hafter]
  rcases expiredFrom_expireAll (p := prefixReservation) (List.Subset.refl stale) 0 db i with
    hsame | ⟨e, he, hi, hnew⟩
  · exact .inl hsame
  · obtain ⟨hscan, hstale⟩ := List.mem_filter.mp he
    have hok : ∃ count, outcome (expireStale json currentBucket) db = .ok count :=
      expireAll_ok stale 0 db
    exact .inr ⟨hok, _, hnew, e.2, stored_of_mem_scan hscan hi, hstale, rfl⟩

end Expiry

theorem InMemoryReservationStore.seen (order : MapOrder Reservation) :
    (store order).Seen HashMap.stored where
  has _ _ _ := HashMap.read_iff_stored
  writes c := by
    cases c with
    | createReservation r => exact (HashMap.writesOnly_create _ r _).map _
    | getReservation id => exact WritesOnly.map (writesOnly_of_readOnly fun _ => rfl) _
    | transition id source target =>
      exact ((HashMap.writesOnly_update id _ _).mono fun _ _ _ => writes_transition).map _
    | expireStale bucket => exact (writesOnly_expireStale order bucket).map _

theorem SledReservationStore.seen (json : Json Reservation) :
    (store json).Seen (Sled.stored json prefixReservation) where
  has _ _ _ := Sled.read_iff_stored
  writes c := by
    cases c with
    | createReservation r => exact (Sled.writesOnly_create _ r _).map _
    | getReservation id => exact WritesOnly.map (writesOnly_of_readOnly (Sled.readOnly_read _)) _
    | transition id source target =>
      exact ((Sled.writesOnly_update id _ _).mono fun _ _ _ => writes_transition).map _
    | expireStale bucket => exact (writesOnly_expireStale bucket).map _

/-! ### Terminal states -/

/-- From any state on, a terminal reservation keeps its state over every run, unless a
transition succeeds that names the state as the one to leave. -/
def ReservationStore.FinalUntilNamed {σ : Type} (store : ReservationStore σ) : Prop :=
  ∀ (s : σ) (l : List ReservationCall) (id : String) (r : Reservation),
    store.Has s id r → r.isTerminal = true →
      (∃ r', store.Has (run store.call l s) id r' ∧ r'.state = r.state) ∨
        ∃ target, target ≠ r.state ∧ SucceedsIn store.call (.transition id r.state target) l s

/-- There is a reservation, and it is in this state. -/
def InState (state : ReservationState) (o : Option Reservation) : Prop :=
  ∃ r, o = some r ∧ r.state = state

/-- A write leaves the state of a terminal reservation, or is a transition out of it. -/
theorem state_write {c : ReservationCall} {i : String} {r new : Reservation}
    (hterminal : r.isTerminal = true) (h : c.Writes i (some r) new) :
    new.state = r.state ∨ ∃ target, target ≠ r.state ∧ c = .transition i r.state target := by
  cases c with
  | getReservation _ => exact h.elim
  | createReservation _ => cases h.2.1
  | transition id source target =>
    obtain ⟨rfl, _, hr, rfl, rfl⟩ := h
    cases hr
    by_cases htarget : target = r.state
    · exact .inl htarget
    · exact .inr ⟨target, htarget, rfl⟩
  | expireStale bucket =>
    obtain ⟨_, hr, hstale, _⟩ := h
    cases hr
    unfold Reservation.isStale at hstale
    rw [hterminal] at hstale
    simp at hstale

theorem inState_write {c : ReservationCall} {i : String} {r new : Reservation}
    {o : Option Reservation} (hterminal : r.isTerminal = true) (ho : InState r.state o)
    (h : c.Writes i o new) :
    InState r.state (some new) ∨ ∃ target, target ≠ r.state ∧ c = .transition i r.state target := by
  obtain ⟨r', rfl, hstate⟩ := ho
  have hterminal' : r'.isTerminal = true := by
    unfold Reservation.isTerminal at hterminal ⊢
    rw [hstate]
    exact hterminal
  rw [← hstate]
  exact (state_write hterminal' h).imp_left fun hnew => ⟨new, rfl, hnew⟩

theorem ReservationStore.Seen.finalUntilNamed {σ : Type} {store : ReservationStore σ}
    {view : σ → String → Option Reservation} (h : store.Seen view) : store.FinalUntilNamed := by
  intro s l i r hr hterminal
  have hstart : InState r.state (view s i) := ⟨r, (h.has s i r).mp hr, rfl⟩
  have hany : Admissible store.call (fun _ _ => True) l s :=
    admissible_of_forall (fun _ _ => trivial) s
  have hor := kept_or_caused h.writes (fun _ c new _ ho hw => inState_write hterminal ho hw) hany hstart
  rcases hor with ⟨r', hr', hstate⟩ | ⟨c, ⟨target, htarget, rfl⟩, hin⟩
  · exact .inl ⟨r', (h.has _ i r').mpr hr', hstate⟩
  · exact .inr ⟨target, htarget, hin⟩

/-- **Terminal reservations are final until a transition names them.** Neither store
lets a creation, an expiry, a failed call or a transition from another state change one. -/
theorem final_until_named (json : Json Reservation) (order : MapOrder Reservation) :
    (InMemoryReservationStore.store order).FinalUntilNamed ∧
      (SledReservationStore.store json).FinalUntilNamed :=
  ⟨(InMemoryReservationStore.seen order).finalUntilNamed,
    (SledReservationStore.seen json).finalUntilNamed⟩

/-- A reservation that is consumed and then released. -/
theorem consumed_then_released :
    let store := InMemoryReservationStore.store .sorted
    let consuming : List ReservationCall :=
      [.createReservation preparedReservation, .transition "res-1" .prepared .consumed]
    let consumed := { preparedReservation with state := .consumed }
    store.Has (run store.call consuming ∅) "res-1" consumed ∧ consumed.isTerminal = true ∧
      store.Has (run store.call (consuming ++ [.transition "res-1" .consumed .released]) ∅) "res-1"
        { consumed with state := .released } ∧
      ReservationState.released ≠ consumed.state := by
  intro store consuming consumed
  exact ⟨rfl, rfl, rfl, by decide⟩

end Kerosene.Ledger
