import Kerosene.Ledger.StateRoot

/-! The roots of single parts of a state, and the order of its lists (`state_root.rs`).

A part is hashed item by item in the order of the items' digests, so its root says which
items there are and not in what order (`computeStateRoot_of_perm`). Short of a collision
the messages of the items are bound. An account or an intent is known by its message. A
reservation is not: its three texts follow each other without a mark between them, and
any that are not all empty can be cut again elsewhere (`computeReservationsRoot_binds_iff`). -/
namespace Kerosene.Ledger

open Lib.Encode Lib.Commit

section Roots
variable (x : Crypto)

def computeAccountsRoot (accounts : List AccountState) : String :=
  x.hexEncode (hashSortedItems x accounts "KROOTv1:accounts" (hashAccount x)).toList

def computeJournalRoot (entries : List JournalEntry) : String :=
  x.hexEncode (hashSortedItems x entries "KROOTv1:journal" (hashJournalEntry x)).toList

def computeReservationsRoot (reservations : List Reservation) : String :=
  x.hexEncode (hashSortedItems x reservations "KROOTv1:reservations" (hashReservation x)).toList

def computeIntentsRoot (intents : List String) : String :=
  x.hexEncode (hashSortedItems x intents "KROOTv1:intents" (hashIntent x)).toList

/-- Every message hashed for the root of a part. -/
def partMessages {α : Type} (tag : String) (message : α → Bytes) (l : List α) : List Bytes :=
  itemsMessage tag (l.map fun a => x.sha256 (message a)) :: l.map message

end Roots

/-! ### What is bound of a part -/

section Parts
variable {x : Crypto} {α : Type} {tag : String} {message : α → Bytes} {l l' : List α}

/-- Short of a collision, one root comes from one list of messages, up to order. -/
theorem messages_perm_of_root
    (hfree : ¬ Collision x.sha256 (partMessages x tag message l ++ partMessages x tag message l'))
    (h : x.hexEncode (hashSortedItems x l tag fun a => x.sha256 (message a)).toList =
      x.hexEncode (hashSortedItems x l' tag fun a => x.sha256 (message a)).toList) :
    (l.map message).Perm (l'.map message) := by
  have hmem {k : List α} {a : α} (ha : a ∈ k) : message a ∈ partMessages x tag message k :=
    List.mem_cons_of_mem _ (List.mem_map_of_mem ha)
  refine perm_of_itemsMessage hfree (fun a ha => List.mem_append_left _ (hmem ha))
    (fun a ha => List.mem_append_right _ (hmem ha)) (List.mem_append_left _ List.mem_cons_self)
    (List.mem_append_right _ List.mem_cons_self) ?_
  exact x.sha256_eq_of_sha256Hex_eq h

/-- Where messages tell the items apart, the items are bound. -/
theorem perm_or_collision_of_root
    (hinj : ∀ a ∈ l, ∀ b ∈ l', message a = message b → a = b)
    (h : x.hexEncode (hashSortedItems x l tag fun a => x.sha256 (message a)).toList =
      x.hexEncode (hashSortedItems x l' tag fun a => x.sha256 (message a)).toList) :
    l.Perm l' ∨
      Collision x.sha256 (partMessages x tag message l ++ partMessages x tag message l') := by
  by_cases hfree : Collision x.sha256 (partMessages x tag message l ++ partMessages x tag message l')
  · exact .inr hfree
  · exact .inl (perm_of_map_perm hinj (messages_perm_of_root hfree h))

end Parts

theorem computeAccountsRoot_binds {x : Crypto} {l l' : List AccountState}
    (h : computeAccountsRoot x l = computeAccountsRoot x l') :
    l.Perm l' ∨ Collision x.sha256 (partMessages x "KROOTv1:accounts" accountMessage l ++
      partMessages x "KROOTv1:accounts" accountMessage l') :=
  perm_or_collision_of_root (fun _ _ _ _ hab => accountMessage_injective hab) h

theorem computeIntentsRoot_binds {x : Crypto} {l l' : List String}
    (h : computeIntentsRoot x l = computeIntentsRoot x l') :
    l.Perm l' ∨ Collision x.sha256 (partMessages x "KROOTv1:intents" intentMessage l ++
      partMessages x "KROOTv1:intents" intentMessage l') :=
  perm_or_collision_of_root (fun _ _ _ _ hij => intentMessage_injective hij) h

/-- Entries that carry one hash are one to the root. -/
theorem computeJournalRoot_of_entryHashes {x : Crypto} {l l' : List JournalEntry}
    (h : (l.map JournalEntry.entryHash).Perm (l'.map JournalEntry.entryHash)) :
    computeJournalRoot x l = computeJournalRoot x l' := by
  have hdigests : (l.map (hashJournalEntry x)).Perm (l'.map (hashJournalEntry x)) := by
    have hmap := h.map fun text => hashWithDomain x "KROOTv1:jent" (utf8 text)
    rw [List.map_map, List.map_map] at hmap
    exact hmap
  unfold computeJournalRoot hashSortedItems
  rw [sortDigests_of_perm hdigests]

/-! ### Reservations -/

theorem ReservationState.code_injective : Function.Injective ReservationState.code := by
  intro a b h
  cases a <;> cases b <;> first | rfl | cases h

namespace Reservation

/-- The texts of a reservation as they are hashed, one right behind the other. -/
def texts (r : Reservation) : Bytes :=
  utf8 r.accountId ++ utf8 r.reservationId ++ utf8 r.authorizationCommitment

/-- No text at all. -/
def Blank (r : Reservation) : Prop :=
  r.accountId = "" ∧ r.reservationId = "" ∧ r.authorizationCommitment = ""

theorem texts_eq_nil {r : Reservation} : r.texts = [] ↔ r.Blank := by
  have hempty (t : String) : utf8 t = [] ↔ t = "" := by
    rw [← utf8_empty, utf8_inj]
  simp only [texts, List.append_eq_nil_iff, hempty, Blank, and_assoc]

/-- Of two reservations with one message the numbers and the states agree, and the texts
as a whole. -/
theorem texts_of_reservationMessage {r r' : Reservation}
    (h : reservationMessage r = reservationMessage r') :
    r.texts = r'.texts ∧ r' = { r with
      accountId := r'.accountId
      reservationId := r'.reservationId
      authorizationCommitment := r'.authorizationCommitment } := by
  simp only [reservationMessage, domainMessage, List.append_assoc, List.append_cancel_left_eq] at h
  obtain ⟨hamount, h⟩ := selfDelimiting_le64 _ _ _ _ trivial trivial h
  obtain ⟨hcreated, h⟩ := selfDelimiting_le64 _ _ _ _ trivial trivial h
  obtain ⟨hexpires, h⟩ := selfDelimiting_le64 _ _ _ _ trivial trivial h
  obtain ⟨hsequence, h⟩ := selfDelimiting_le64 _ _ _ _ trivial trivial h
  obtain ⟨hcode, htexts⟩ := List.append_inj h rfl
  have hstate := ReservationState.code_injective (List.cons.inj hcode).1
  refine ⟨?_, ?_⟩
  · rw [texts, texts, List.append_assoc, List.append_assoc]
    exact htexts
  · rw [hamount, hcreated, hexpires, hsequence, hstate]

/-- Cut at the same places, one message is of one reservation. -/
theorem eq_of_reservationMessage {r r' : Reservation}
    (h : reservationMessage r = reservationMessage r')
    (haccount : (utf8 r.accountId).length = (utf8 r'.accountId).length)
    (hid : (utf8 r.reservationId).length = (utf8 r'.reservationId).length) : r = r' := by
  obtain ⟨htexts, hr'⟩ := texts_of_reservationMessage h
  rw [texts, texts, List.append_assoc, List.append_assoc] at htexts
  obtain ⟨haccounts, htexts⟩ := List.append_inj htexts haccount
  obtain ⟨hids, hcommitments⟩ := List.append_inj htexts hid
  rw [hr', ← utf8_inj.mp haccounts, ← utf8_inj.mp hids, ← utf8_inj.mp hcommitments]

/-- The same texts cut at another place. -/
def recut (r : Reservation) : Reservation :=
  if r.accountId = "" then
    { r with
      accountId := r.reservationId ++ r.authorizationCommitment
      reservationId := ""
      authorizationCommitment := "" }
  else { r with accountId := "", reservationId := r.accountId ++ r.reservationId }

theorem reservationMessage_recut (r : Reservation) :
    reservationMessage r.recut = reservationMessage r := by
  unfold recut
  split
  case isTrue h => simp [reservationMessage, utf8_append, h]
  case isFalse h => simp [reservationMessage, utf8_append]

theorem recut_ne {r : Reservation} (h : ¬ r.Blank) : r.recut ≠ r := by
  unfold recut
  intro heq
  split at heq
  case isTrue hempty =>
    have haccount : r.reservationId ++ r.authorizationCommitment = r.accountId :=
      congrArg accountId heq
    rw [hempty] at haccount
    exact h ⟨hempty, String.append_eq_empty_iff.mp haccount⟩
  case isFalse hne => exact hne (congrArg accountId heq).symm

end Reservation

/-- Every message hashed for the root of some reservations. -/
def reservationMessages (x : Crypto) (l : List Reservation) : List Bytes :=
  partMessages x "KROOTv1:reservations" reservationMessage l

section Reservations
variable {x : Crypto} {l l' : List Reservation}

/-- Lists that cut what they have in common at the same places, as lists do whose account
ids have one length and whose reservation ids do. -/
def SameCuts (l l' : List Reservation) : Prop :=
  ∀ r ∈ l, ∀ r' ∈ l', reservationMessage r = reservationMessage r' →
    (utf8 r.accountId).length = (utf8 r'.accountId).length ∧
      (utf8 r.reservationId).length = (utf8 r'.reservationId).length

theorem perm_or_collision_of_sameCuts (hcuts : SameCuts l l')
    (h : computeReservationsRoot x l = computeReservationsRoot x l') :
    l.Perm l' ∨ Collision x.sha256 (reservationMessages x l ++ reservationMessages x l') :=
  perm_or_collision_of_root (fun r hr r' hr' hmessage =>
    have hcut := hcuts r hr r' hr' hmessage
    Reservation.eq_of_reservationMessage hmessage hcut.1 hcut.2) h

/-- Blank reservations have no text to cut. -/
theorem sameCuts_of_blank (h : ∀ r ∈ l, r.Blank) (l' : List Reservation) : SameCuts l l' := by
  intro r hr r' _ hmessage
  have hblank : r.Blank := h r hr
  have hblank' : r'.Blank := by
    rw [← Reservation.texts_eq_nil, ← (Reservation.texts_of_reservationMessage hmessage).1]
    exact Reservation.texts_eq_nil.mpr hblank
  rw [hblank.1, hblank.2.1, hblank'.1, hblank'.2.1]
  exact ⟨rfl, rfl⟩

/-- The root and the messages hashed for it see only the messages of the reservations. -/
theorem reservationsRoot_of_messages_perm
    (h : (l.map reservationMessage).Perm (l'.map reservationMessage)) :
    computeReservationsRoot x l = computeReservationsRoot x l' ∧
      (reservationMessages x l).Perm (reservationMessages x l') := by
  have hdigests : (l.map (hashReservation x)).Perm (l'.map (hashReservation x)) := by
    have hmap := h.map x.sha256
    rw [List.map_map, List.map_map] at hmap
    exact hmap
  have hsorted := sortDigests_of_perm hdigests
  constructor
  · unfold computeReservationsRoot hashSortedItems
    rw [hsorted]
  · have hitems : itemsMessage "KROOTv1:reservations" (l.map (hashReservation x)) =
        itemsMessage "KROOTv1:reservations" (l'.map (hashReservation x)) := by
      unfold itemsMessage
      rw [hsorted]
    unfold reservationMessages partMessages
    rw [show (fun r => x.sha256 (reservationMessage r)) = hashReservation x from rfl, hitems]
    exact h.cons _

end Reservations

/-- **When a root binds its reservations.** The lists with the root of a list are its
permutations, short of a collision, exactly when its reservations have no text at all or
the messages of the list collide themselves. -/
theorem computeReservationsRoot_binds_iff (x : Crypto) (l : List Reservation) :
    (∀ l', computeReservationsRoot x l = computeReservationsRoot x l' →
        l.Perm l' ∨ Collision x.sha256 (reservationMessages x l ++ reservationMessages x l')) ↔
      (∀ r ∈ l, r.Blank) ∨ Collision x.sha256 (reservationMessages x l) := by
  constructor
  · intro hbinds
    by_contra hneither
    obtain ⟨hblank, hfree⟩ := not_or.mp hneither
    simp only [not_forall] at hblank
    obtain ⟨r, hmem, hr⟩ := hblank
    -- The list with one reservation cut again.
    have hperm : l.Perm (r :: l.erase r) := List.perm_cons_erase hmem
    have hmessages : (l.map reservationMessage).Perm
        ((r.recut :: l.erase r).map reservationMessage) := by
      rw [List.map_cons, Reservation.reservationMessage_recut]
      exact hperm.map _
    obtain ⟨hroot, hhashed⟩ := reservationsRoot_of_messages_perm (x := x) hmessages
    rcases hbinds _ hroot with hsame | hcollision
    · have hcons := Multiset.coe_eq_coe.mpr (hperm.symm.trans hsame)
      rw [← Multiset.cons_coe, ← Multiset.cons_coe] at hcons
      exact Reservation.recut_ne hr ((Multiset.cons_inj_left _).mp hcons).symm
    · refine hfree (hcollision.mono (List.append_subset.mpr ⟨fun _ h => h, ?_⟩))
      exact hhashed.symm.subset
  · intro hcond l' hroot
    rcases hcond with hblank | hcollision
    · exact perm_or_collision_of_sameCuts (sameCuts_of_blank hblank l') hroot
    · exact .inr (hcollision.mono (List.subset_append_left _ _))

/-- A reservation of 1000 sats. -/
def reservationFor (accountId reservationId : String) : Reservation where
  reservationId := reservationId
  accountId := accountId
  amountSats := 1000
  state := .committed
  createdAtBucket := 1
  expiresAtBucket := 100
  committedSequence := 1
  authorizationCommitment := ""

/-- A root that is of a reservation for one account and of one for another. -/
theorem shifted_reservation_keeps_root :
    let x := Crypto.recorded []
    let l := [reservationFor "alice" "r1"]
    let l' := [reservationFor "alicer" "1"]
    computeReservationsRoot x l = computeReservationsRoot x l' ∧ ¬ l.Perm l' ∧
      ¬ Collision x.sha256 (reservationMessages x l ++ reservationMessages x l') := by
  intro x l l'
  have hmessages : l.map reservationMessage = l'.map reservationMessage := by decide
  obtain ⟨hroot, hhashed⟩ :=
    reservationsRoot_of_messages_perm (x := x) (List.Perm.of_eq hmessages)
  refine ⟨hroot, by decide, fun hcollision => ?_⟩
  have hown : Collision x.sha256 (reservationMessages x l) :=
    hcollision.mono (List.append_subset.mpr ⟨fun _ h => h, hhashed.symm.subset⟩)
  refine not_collision_of_nodup Vector.head ?_ hown
  decide +kernel

/-! ### The order of the lists -/

/-- **The order of its lists leaves no trace in a root.** -/
theorem computeStateRoot_of_perm (x : Crypto) {s t : LedgerState} (hversion : s.version = t.version)
    (hcluster : s.membership.clusterId = t.membership.clusterId)
    (hprofile : s.membership.activeProfile = t.membership.activeProfile)
    (haccounts : s.accounts.Perm t.accounts) (hjournal : s.journal.Perm t.journal)
    (hreservations : s.reservations.Perm t.reservations)
    (hintents : s.consumedIntents.Perm t.consumedIntents)
    (hnodes : s.membership.nodes.Perm t.membership.nodes) (hutxos : s.utxos.Perm t.utxos) :
    computeStateRoot x s = computeStateRoot x t :=
  computeStateRoot_of_sameUpToOrder
    ⟨hversion, hcluster, hprofile, haccounts, hintents, hnodes, hutxos⟩ hjournal hreservations

/-- Two accounts and two reservations each way round, and one UTXO listed twice. -/
theorem computeStateRoot_of_perm_swapped :
    let x := Crypto.recorded []
    let u := UtxoEntry.newSeen ⟨"aa", 0⟩ 5000 "bc1q" 7
    let v := UtxoEntry.newSeen ⟨"aa", 0⟩ 6000 "bc1q" 8
    let s : LedgerState := { LedgerState.empty ⟨"cluster-1", ["node-1", "node-2"], .haCrash⟩ with
      accounts := [.holding "alice" 1 100, .holding "bob" 1 50]
      reservations := [reservationFor "alice" "r1", reservationFor "bob" "r2"]
      utxos := [u, v, u] }
    let t : LedgerState := { LedgerState.empty ⟨"cluster-1", ["node-2", "node-1"], .haCrash⟩ with
      accounts := [.holding "bob" 1 50, .holding "alice" 1 100]
      reservations := [reservationFor "bob" "r2", reservationFor "alice" "r1"]
      utxos := [u, u, v] }
    computeStateRoot x s = computeStateRoot x t := by
  generalize Crypto.recorded [] = crypto
  intro x u v s t
  exact computeStateRoot_of_perm x rfl rfl rfl (List.Perm.swap _ _ _) (List.Perm.refl _)
    (List.Perm.swap _ _ _) (List.Perm.refl _) (List.Perm.swap _ _ _)
    ((List.Perm.swap _ _ _).cons u)

end Kerosene.Ledger
