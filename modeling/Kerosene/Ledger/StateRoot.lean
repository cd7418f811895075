import Kerosene.Ledger.State
import Kerosene.Lib.Commit

/-! What a state root commits to (`state_root.rs`, and the encoders of `chain.rs`).

A root is a hash over the hashes of the parts of a state, and the lists among the
parts are hashed item by item in the order of the items' digests. Every message
can be taken apart again: `computeStateRoot_binds` says that, short of a collision
among the messages hashed, equal roots come from one version, one cluster and one
profile, and from accounts, intents, nodes and UTXOs that differ in their order
only. Of a journal entry nothing but the hash it carries is hashed, and
`PartsAgree.entryHashes_perm` says that this much is bound too. The order itself is
not: `computeStateRoot_of_sameUpToOrder`. -/
namespace Kerosene.Ledger

open Lib.Encode Lib.Commit

/-! ### The messages hashed -/

/-- What `hashWithDomain` hashes. -/
def domainMessage (tag : String) (payload : Bytes) : Bytes := utf8 tag ++ utf8 ":" ++ payload

/-- What `hashSortedItems` hashes of the digests of its items. -/
def itemsMessage (tag : String) (digests : List (Vector UInt8 32)) : Bytes :=
  domainMessage tag ((sortDigests digests).flatMap Vector.toList)

def accountMessage (a : AccountState) : Bytes :=
  domainMessage "KROOTv1:acct" (le64 a.version ++ le64 a.availableSats ++
    le64 a.reservedSats ++ le64 a.pendingIncomingSats ++ le64 a.pendingOutgoingSats ++
    le64 a.lastCommittedSequence ++ utf8 a.accountId)

def journalEntryMessage (entry : JournalEntry) : Bytes :=
  domainMessage "KROOTv1:jent" (utf8 entry.entryHash)

def reservationMessage (r : Reservation) : Bytes :=
  domainMessage "KROOTv1:resv" (le64 r.amountSats ++ le64 r.createdAtBucket ++
    le64 r.expiresAtBucket ++ le64 r.committedSequence ++ [r.state.code] ++ utf8 r.accountId ++
    utf8 r.reservationId ++ utf8 r.authorizationCommitment)

def intentMessage (intent : String) : Bytes := domainMessage "KROOTv1:intent" (utf8 intent)

def membershipMessage (m : MembershipView) : Bytes :=
  domainMessage "KROOTv1:mem" (encodeMembership m)

section Messages
variable (x : Crypto)

def accountsMessage (s : LedgerState) : Bytes :=
  itemsMessage "KROOTv1:accounts" (s.accounts.map fun a => x.sha256 (accountMessage a))

def journalMessage (s : LedgerState) : Bytes :=
  itemsMessage "KROOTv1:journal" (s.journal.map fun e => x.sha256 (journalEntryMessage e))

def reservationsMessage (s : LedgerState) : Bytes :=
  itemsMessage "KROOTv1:reservations" (s.reservations.map fun r => x.sha256 (reservationMessage r))

def intentsMessage (s : LedgerState) : Bytes :=
  itemsMessage "KROOTv1:intents" (s.consumedIntents.map fun i => x.sha256 (intentMessage i))

/-- What `computeUtxoRoot` hashes of the digests of the UTXOs. -/
def utxoSetMessage (utxos : List UtxoEntry) : Bytes :=
  let sorted := utxos.insertionSort fun a b => bytesLe (utf8 a.canonicalKey) (utf8 b.canonicalKey)
  utf8 "KROOTv1:utxos" ++
    (sortDigests (sorted.map fun u => x.sha256 u.encode)).flatMap Vector.toList

def utxosMessage (s : LedgerState) : Bytes :=
  domainMessage "KROOTv1:utxos" (utf8 (x.sha256Hex (utxoSetMessage x s.utxos)))

/-- What the root itself is the hash of. -/
def rootMessage (s : LedgerState) : Bytes :=
  utf8 "KROOTv1:version" ++ utf8 ":" ++ le64 s.version ++
    utf8 "KROOTv1:accounts" ++ utf8 ":" ++ (x.sha256 (accountsMessage x s)).toList ++
    utf8 "KROOTv1:journal" ++ utf8 ":" ++ (x.sha256 (journalMessage x s)).toList ++
    utf8 "KROOTv1:reservations" ++ utf8 ":" ++ (x.sha256 (reservationsMessage x s)).toList ++
    utf8 "KROOTv1:intents" ++ utf8 ":" ++ (x.sha256 (intentsMessage x s)).toList ++
    utf8 "KROOTv1:membership" ++ utf8 ":" ++ (x.sha256 (membershipMessage s.membership)).toList ++
    utf8 "KROOTv1:utxos" ++ utf8 ":" ++ (x.sha256 (utxosMessage x s)).toList

theorem computeStateRoot_eq (s : LedgerState) :
    computeStateRoot x s = x.sha256Hex (rootMessage x s) := rfl

/-- Every message hashed on the way to the root of a state. -/
def hashedMessages (s : LedgerState) : List Bytes :=
  [rootMessage x s, accountsMessage x s, journalMessage x s, reservationsMessage x s,
    intentsMessage x s, membershipMessage s.membership, utxosMessage x s,
    utxoSetMessage x s.utxos] ++
  (s.accounts.map accountMessage ++ s.journal.map journalEntryMessage ++
    s.reservations.map reservationMessage ++ s.consumedIntents.map intentMessage ++
    s.utxos.map UtxoEntry.encode)

end Messages

/-! ### Encoders -/

/-- The length of a text fits the eight bytes in front of it. -/
def Addressable (text : String) : Prop := (utf8 text).length < 2 ^ 64

instance : DecidablePred Addressable := fun text =>
  inferInstanceAs (Decidable ((utf8 text).length < 2 ^ 64))

theorem selfDelimiting_le64 : SelfDelimiting (fun _ => True) le64 :=
  selfDelimiting_of_length le64_length fun _ _ _ _ h => le64_injective h

theorem selfDelimiting_le32 : SelfDelimiting (fun _ => True) le32 :=
  selfDelimiting_of_length (fun _ => leBytes_length ..) fun a b _ _ h =>
    UInt32.toNat_inj.mp (leBytes_inj a.toNat_lt b.toNat_lt h)

theorem selfDelimiting_encodeString : SelfDelimiting Addressable encodeString := by
  intro a b rest rest' ha hb h
  simp only [encodeString, List.append_assoc] at h
  obtain ⟨hlen, h⟩ := List.append_inj h (by rw [leBytes_length, leBytes_length])
  have hsame : (utf8 a).length = (utf8 b).length := leBytes_inj ha hb hlen
  obtain ⟨hab, hrest⟩ := List.append_inj h hsame
  exact ⟨utf8_inj.mp hab, hrest⟩

theorem selfDelimiting_encodeOption {α : Type} {P : α → Prop} {encode : α → Bytes}
    (h : SelfDelimiting P encode) :
    SelfDelimiting (fun o => ∀ a, o = some a → P a) (encodeOption encode) := by
  intro o o' rest rest' ho ho' heq
  cases o with
  | none =>
    cases o' with
    | none => exact ⟨rfl, (List.cons.inj heq).2⟩
    | some b => exact absurd (List.cons.inj heq).1 (by decide)
  | some a =>
    cases o' with
    | none => exact absurd (List.cons.inj heq).1 (by decide)
    | some b =>
      obtain ⟨hab, hrest⟩ := h a b rest rest' (ho a rfl) (ho' b rfl) (List.cons.inj heq).2
      exact ⟨congrArg some hab, hrest⟩

theorem OnchainState.code_injective : Function.Injective OnchainState.code := by
  intro a b h
  cases a <;> cases b <;> first | rfl | cases h

theorem ConsensusProfile.code_injective : Function.Injective ConsensusProfile.code := by
  intro a b h
  cases a <;> cases b <;> first | rfl | cases h

/-- The texts of a UTXO entry whose ends are marked by their lengths. -/
def UtxoEntry.Addressable (u : UtxoEntry) : Prop :=
  (∀ t, u.reservedBy = some t → Ledger.Addressable t) ∧
    (∀ t, u.spentByTxid = some t → Ledger.Addressable t) ∧
    Ledger.Addressable u.outpoint.txid ∧ Ledger.Addressable u.address

theorem accountMessage_injective : Function.Injective accountMessage := by
  intro a b h
  simp only [accountMessage, domainMessage, List.append_assoc, List.append_cancel_left_eq] at h
  obtain ⟨hversion, h⟩ := selfDelimiting_le64 _ _ _ _ trivial trivial h
  obtain ⟨havailable, h⟩ := selfDelimiting_le64 _ _ _ _ trivial trivial h
  obtain ⟨hreserved, h⟩ := selfDelimiting_le64 _ _ _ _ trivial trivial h
  obtain ⟨hincoming, h⟩ := selfDelimiting_le64 _ _ _ _ trivial trivial h
  obtain ⟨houtgoing, h⟩ := selfDelimiting_le64 _ _ _ _ trivial trivial h
  obtain ⟨hsequence, h⟩ := selfDelimiting_le64 _ _ _ _ trivial trivial h
  exact AccountState.ext (utf8_inj.mp h) hversion havailable hreserved hincoming houtgoing hsequence

theorem intentMessage_injective : Function.Injective intentMessage := by
  intro a b h
  simpa [intentMessage, domainMessage] using h

/-- An encoded UTXO determines all fields of the entry; the canonical key at its
end says nothing new. -/
theorem UtxoEntry.encode_inj {u v : UtxoEntry} (hu : u.Addressable) (hv : v.Addressable)
    (h : u.encode = v.encode) : u = v := by
  have hoption := selfDelimiting_encodeOption selfDelimiting_le64
  have htext := selfDelimiting_encodeOption selfDelimiting_encodeString
  simp only [UtxoEntry.encode, List.append_assoc] at h
  obtain ⟨hstate, h⟩ := List.append_inj h rfl
  obtain ⟨hvalue, h⟩ := selfDelimiting_le64 _ _ _ _ trivial trivial h
  obtain ⟨hvout, h⟩ := selfDelimiting_le32 _ _ _ _ trivial trivial h
  obtain ⟨hdetected, h⟩ := selfDelimiting_le64 _ _ _ _ trivial trivial h
  obtain ⟨hheight, h⟩ := hoption _ _ _ _ (fun _ _ => trivial) (fun _ _ => trivial) h
  obtain ⟨hconfirmed, h⟩ := hoption _ _ _ _ (fun _ _ => trivial) (fun _ _ => trivial) h
  obtain ⟨hreservedAt, h⟩ := hoption _ _ _ _ (fun _ _ => trivial) (fun _ _ => trivial) h
  obtain ⟨hspentAt, h⟩ := hoption _ _ _ _ (fun _ _ => trivial) (fun _ _ => trivial) h
  obtain ⟨hreservedBy, h⟩ := htext _ _ _ _ hu.1 hv.1 h
  obtain ⟨hspentBy, h⟩ := htext _ _ _ _ hu.2.1 hv.2.1 h
  obtain ⟨htxid, h⟩ := selfDelimiting_encodeString _ _ _ _ hu.2.2.1 hv.2.2.1 h
  obtain ⟨haddress, -⟩ := selfDelimiting_encodeString _ _ _ _ hu.2.2.2 hv.2.2.2 h
  have hstate := OnchainState.code_injective (List.cons.inj hstate).1
  have houtpoint : u.outpoint = v.outpoint := OutPoint.ext htxid hvout
  exact UtxoEntry.ext houtpoint hvalue haddress hstate hheight hdetected hconfirmed hreservedBy
    hreservedAt hspentAt hspentBy

/-- The lengths written into a membership fit. -/
def MembershipView.Addressable (m : MembershipView) : Prop :=
  Ledger.Addressable m.clusterId ∧ (∀ n ∈ m.nodes, Ledger.Addressable n) ∧
    m.nodes.length < 2 ^ 64

/-- An encoded membership determines the profile, the cluster and, up to their
order, the nodes. -/
theorem encodeMembership_inj {m m' : MembershipView} (hm : m.Addressable) (hm' : m'.Addressable)
    (h : encodeMembership m = encodeMembership m') :
    m.activeProfile = m'.activeProfile ∧ m.clusterId = m'.clusterId ∧ m.nodes.Perm m'.nodes := by
  have hsorted := List.perm_insertionSort (fun a b => bytesLe (utf8 a) (utf8 b)) m.nodes
  have hsorted' := List.perm_insertionSort (fun a b => bytesLe (utf8 a) (utf8 b)) m'.nodes
  simp only [encodeMembership, List.append_assoc] at h
  obtain ⟨hprofile, h⟩ := List.append_inj h rfl
  obtain ⟨hcluster, h⟩ := selfDelimiting_encodeString _ _ _ _ hm.1 hm'.1 h
  obtain ⟨hcount, hnodes⟩ := List.append_inj h (by rw [leBytes_length, leBytes_length])
  have hlength := leBytes_inj (by rw [hsorted.length_eq]; exact hm.2.2)
    (by rw [hsorted'.length_eq]; exact hm'.2.2) hcount
  have hsame := selfDelimiting_encodeString.flatMap_inj
    (fun n hn => hm.2.1 n (hsorted.subset hn)) (fun n hn => hm'.2.1 n (hsorted'.subset hn))
    hlength hnodes
  refine ⟨ConsensusProfile.code_injective (List.cons.inj hprofile).1, hcluster, ?_⟩
  exact hsorted.symm.trans (hsame ▸ hsorted')

/-! ### Lists hashed item by item -/

/-- Digests written in their own order are bound up to their order. -/
theorem perm_of_sortDigests {l l' : List (Vector UInt8 32)}
    (h : (sortDigests l).flatMap Vector.toList = (sortDigests l').flatMap Vector.toList) :
    l.Perm l' := by
  have hsame : sortDigests l = sortDigests l' :=
    flatMap_inj_of_length (by decide) (fun v => v.length_toList)
      (fun a b hab => Vector.toList_inj.mp hab) h
  have hl : (sortDigests l).Perm l := List.perm_insertionSort ..
  have hl' : (sortDigests l').Perm l' := List.perm_insertionSort ..
  exact hl.symm.trans (hsame ▸ hl')

section Items
variable {x : Crypto} {inputs : List Bytes} {α : Type} {message : α → Bytes} {l l' : List α}

/-- Items whose digests agree up to order agree up to order themselves. -/
theorem perm_of_digests (hfree : ¬ Collision x.sha256 inputs) (hl : ∀ a ∈ l, message a ∈ inputs)
    (hl' : ∀ a ∈ l', message a ∈ inputs)
    (h : (l.map fun a => x.sha256 (message a)).Perm (l'.map fun a => x.sha256 (message a))) :
    (l.map message).Perm (l'.map message) := by
  have hmap : ((l.map message).map x.sha256).Perm ((l'.map message).map x.sha256) := by
    rw [List.map_map, List.map_map]
    exact h
  refine perm_of_map_perm (fun m hm m' hm' heq => ?_) hmap
  obtain ⟨a, ha, rfl⟩ := List.mem_map.mp hm
  obtain ⟨b, hb, rfl⟩ := List.mem_map.mp hm'
  exact eq_of_hash_eq hfree (hl a ha) (hl' b hb) heq

/-- The same of items behind a tag, one hash further up. -/
theorem perm_of_itemsMessage {tag : String} (hfree : ¬ Collision x.sha256 inputs)
    (hl : ∀ a ∈ l, message a ∈ inputs) (hl' : ∀ a ∈ l', message a ∈ inputs)
    (hitems : itemsMessage tag (l.map fun a => x.sha256 (message a)) ∈ inputs)
    (hitems' : itemsMessage tag (l'.map fun a => x.sha256 (message a)) ∈ inputs)
    (h : x.sha256 (itemsMessage tag (l.map fun a => x.sha256 (message a))) =
      x.sha256 (itemsMessage tag (l'.map fun a => x.sha256 (message a)))) :
    (l.map message).Perm (l'.map message) := by
  have hsame := eq_of_hash_eq hfree hitems hitems' h
  simp only [itemsMessage, domainMessage, List.append_assoc, List.append_cancel_left_eq] at hsame
  exact perm_of_digests hfree hl hl' (perm_of_sortDigests hsame)

end Items

/-! ### The root -/

/-- The digests a root is made of, and the version, agree. -/
structure PartsAgree (x : Crypto) (s t : LedgerState) : Prop where
  version : s.version = t.version
  accounts : x.sha256 (accountsMessage x s) = x.sha256 (accountsMessage x t)
  journal : x.sha256 (journalMessage x s) = x.sha256 (journalMessage x t)
  reservations : x.sha256 (reservationsMessage x s) = x.sha256 (reservationsMessage x t)
  intents : x.sha256 (intentsMessage x s) = x.sha256 (intentsMessage x t)
  membership : x.sha256 (membershipMessage s.membership) = x.sha256 (membershipMessage t.membership)
  utxos : x.sha256 (utxosMessage x s) = x.sha256 (utxosMessage x t)

/-- A digest behind its tag, taken off the end. -/
theorem digest_at_end {front front' tag colon : Bytes} {v w : Vector UInt8 32}
    (h : front ++ tag ++ colon ++ v.toList = front' ++ tag ++ colon ++ w.toList) :
    front = front' ∧ v = w := by
  obtain ⟨hfront, hdigest⟩ :=
    List.append_inj' h (by rw [Vector.length_toList, Vector.length_toList])
  have hfront := List.append_cancel_right (List.append_cancel_right hfront)
  exact ⟨hfront, Vector.toList_inj.mp hdigest⟩

theorem partsAgree_of_rootMessage {x : Crypto} {s t : LedgerState}
    (h : rootMessage x s = rootMessage x t) : PartsAgree x s t := by
  unfold rootMessage at h
  obtain ⟨h, hutxos⟩ := digest_at_end h
  obtain ⟨h, hmembership⟩ := digest_at_end h
  obtain ⟨h, hintents⟩ := digest_at_end h
  obtain ⟨h, hreservations⟩ := digest_at_end h
  obtain ⟨h, hjournal⟩ := digest_at_end h
  obtain ⟨h, haccounts⟩ := digest_at_end h
  have hversion := le64_injective (List.append_cancel_left h)
  exact ⟨hversion, haccounts, hjournal, hreservations, hintents, hmembership, hutxos⟩

/-! ### The messages of a state, one by one -/

section Members
variable (x : Crypto) (s : LedgerState)

theorem rootMessage_mem : rootMessage x s ∈ hashedMessages x s := .head _

theorem accountsMessage_mem : accountsMessage x s ∈ hashedMessages x s := .tail _ (.head _)

theorem journalMessage_mem : journalMessage x s ∈ hashedMessages x s := .tail _ (.tail _ (.head _))

theorem intentsMessage_mem : intentsMessage x s ∈ hashedMessages x s :=
  .tail _ (.tail _ (.tail _ (.tail _ (.head _))))

theorem membershipMessage_mem : membershipMessage s.membership ∈ hashedMessages x s :=
  .tail _ (.tail _ (.tail _ (.tail _ (.tail _ (.head _)))))

theorem utxosMessage_mem : utxosMessage x s ∈ hashedMessages x s :=
  .tail _ (.tail _ (.tail _ (.tail _ (.tail _ (.tail _ (.head _))))))

theorem utxoSetMessage_mem : utxoSetMessage x s.utxos ∈ hashedMessages x s :=
  .tail _ (.tail _ (.tail _ (.tail _ (.tail _ (.tail _ (.tail _ (.head _)))))))

theorem accountMessage_mem {a : AccountState} (h : a ∈ s.accounts) :
    accountMessage a ∈ hashedMessages x s := by
  refine List.mem_append_right _ ?_
  simp only [List.mem_append]
  exact .inl (.inl (.inl (.inl (List.mem_map_of_mem h))))

theorem journalEntryMessage_mem {e : JournalEntry} (h : e ∈ s.journal) :
    journalEntryMessage e ∈ hashedMessages x s := by
  refine List.mem_append_right _ ?_
  simp only [List.mem_append]
  exact .inl (.inl (.inl (.inr (List.mem_map_of_mem h))))

theorem intentMessage_mem {i : String} (h : i ∈ s.consumedIntents) :
    intentMessage i ∈ hashedMessages x s := by
  refine List.mem_append_right _ ?_
  simp only [List.mem_append]
  exact .inl (.inr (List.mem_map_of_mem h))

theorem utxo_encode_mem {u : UtxoEntry} (h : u ∈ s.utxos) : u.encode ∈ hashedMessages x s := by
  refine List.mem_append_right _ ?_
  simp only [List.mem_append]
  exact .inr (List.mem_map_of_mem h)

end Members

/-! ### What a root binds -/

/-- The lengths the encoders write fit the eight bytes they have, as those of
values in memory do. -/
structure LedgerState.Addressable (s : LedgerState) : Prop where
  membership : s.membership.Addressable
  utxos : ∀ u ∈ s.utxos, u.Addressable

/-- Two states are the same in everything but the journal, the reservations and
the order of their lists. -/
structure SameUpToOrder (s t : LedgerState) : Prop where
  version : s.version = t.version
  clusterId : s.membership.clusterId = t.membership.clusterId
  activeProfile : s.membership.activeProfile = t.membership.activeProfile
  accounts : s.accounts.Perm t.accounts
  consumedIntents : s.consumedIntents.Perm t.consumedIntents
  nodes : s.membership.nodes.Perm t.membership.nodes
  utxos : s.utxos.Perm t.utxos

section Order
variable {x : Crypto}

theorem sortDigests_of_perm {l l' : List (Vector UInt8 32)} (h : l.Perm l') :
    sortDigests l = sortDigests l' :=
  sorted_eq_of_perm (fun _ _ _ _ hab => Vector.toList_inj.mp hab) h

theorem hashSortedItems_of_perm {α : Type} {l l' : List α} (h : l.Perm l') (tag : String)
    (hashFn : α → Vector UInt8 32) : hashSortedItems x l tag hashFn = hashSortedItems x l' tag hashFn := by
  unfold hashSortedItems
  rw [sortDigests_of_perm (h.map hashFn)]

theorem encodeMembership_of_perm {m m' : MembershipView} (hcluster : m.clusterId = m'.clusterId)
    (hprofile : m.activeProfile = m'.activeProfile) (hnodes : m.nodes.Perm m'.nodes) :
    encodeMembership m = encodeMembership m' := by
  have hsorted := sorted_eq_of_perm (fun _ _ _ _ hab => utf8_inj.mp hab) hnodes
  unfold encodeMembership
  rw [hcluster, hprofile, hsorted]

/-- Sorting the entries by key first changes nothing, since their digests are sorted. -/
theorem computeUtxoRoot_of_perm {l l' : List UtxoEntry} (h : l.Perm l') :
    computeUtxoRoot x l = computeUtxoRoot x l' := by
  have hsorted : ∀ l : List UtxoEntry, (l.insertionSort fun a b =>
      bytesLe (utf8 a.canonicalKey) (utf8 b.canonicalKey)).Perm l :=
    List.perm_insertionSort _
  have hperm := (hsorted l).trans (h.trans (hsorted l').symm)
  unfold computeUtxoRoot
  dsimp only
  rw [sortDigests_of_perm (hperm.map fun u => x.sha256 u.encode)]

/-- The order of the lists leaves no trace in the root. -/
theorem computeStateRoot_of_sameUpToOrder {s t : LedgerState} (h : SameUpToOrder s t)
    (hjournal : s.journal.Perm t.journal) (hreservations : s.reservations.Perm t.reservations) :
    computeStateRoot x s = computeStateRoot x t := by
  unfold computeStateRoot
  rw [h.version, hashSortedItems_of_perm h.accounts, hashSortedItems_of_perm hjournal,
    hashSortedItems_of_perm hreservations, hashSortedItems_of_perm h.consumedIntents,
    encodeMembership_of_perm h.clusterId h.activeProfile h.nodes, computeUtxoRoot_of_perm h.utxos]

end Order

section Binding
variable {x : Crypto} {s t : LedgerState}
  (hfree : ¬ Collision x.sha256 (hashedMessages x s ++ hashedMessages x t))
include hfree

theorem eq_of_digest_eq {m m' : Bytes} (hm : m ∈ hashedMessages x s) (hm' : m' ∈ hashedMessages x t)
    (h : x.sha256 m = x.sha256 m') : m = m' :=
  eq_of_hash_eq hfree (List.mem_append_left _ hm) (List.mem_append_right _ hm') h

/-- Short of a collision, equal roots are made of equal parts. -/
theorem partsAgree_of_computeStateRoot (h : computeStateRoot x s = computeStateRoot x t) :
    PartsAgree x s t := by
  rw [computeStateRoot_eq, computeStateRoot_eq] at h
  exact partsAgree_of_rootMessage (eq_of_digest_eq hfree (rootMessage_mem x s) (rootMessage_mem x t)
    (x.sha256_eq_of_sha256Hex_eq h))

theorem PartsAgree.accounts_perm (h : PartsAgree x s t) : s.accounts.Perm t.accounts := by
  have hmessages : (s.accounts.map accountMessage).Perm (t.accounts.map accountMessage) :=
    perm_of_itemsMessage hfree (fun a ha => List.mem_append_left _ (accountMessage_mem x s ha))
      (fun a ha => List.mem_append_right _ (accountMessage_mem x t ha))
      (List.mem_append_left _ (accountsMessage_mem x s))
      (List.mem_append_right _ (accountsMessage_mem x t)) h.accounts
  exact perm_of_map_perm (fun a _ b _ hab => accountMessage_injective hab) hmessages

theorem PartsAgree.intents_perm (h : PartsAgree x s t) :
    s.consumedIntents.Perm t.consumedIntents := by
  have hmessages : (s.consumedIntents.map intentMessage).Perm (t.consumedIntents.map intentMessage) :=
    perm_of_itemsMessage hfree (fun i hi => List.mem_append_left _ (intentMessage_mem x s hi))
      (fun i hi => List.mem_append_right _ (intentMessage_mem x t hi))
      (List.mem_append_left _ (intentsMessage_mem x s))
      (List.mem_append_right _ (intentsMessage_mem x t)) h.intents
  exact perm_of_map_perm (fun i _ j _ hij => intentMessage_injective hij) hmessages

/-- Of the journal the hashes its entries carry are bound. -/
theorem PartsAgree.entryHashes_perm (h : PartsAgree x s t) :
    (s.journal.map JournalEntry.entryHash).Perm (t.journal.map JournalEntry.entryHash) := by
  have hmessages :
      (s.journal.map journalEntryMessage).Perm (t.journal.map journalEntryMessage) :=
    perm_of_itemsMessage hfree (fun e he => List.mem_append_left _ (journalEntryMessage_mem x s he))
      (fun e he => List.mem_append_right _ (journalEntryMessage_mem x t he))
      (List.mem_append_left _ (journalMessage_mem x s))
      (List.mem_append_right _ (journalMessage_mem x t)) h.journal
  have hmap : ∀ l : List JournalEntry, l.map journalEntryMessage =
      (l.map JournalEntry.entryHash).map fun text => domainMessage "KROOTv1:jent" (utf8 text) := by
    intro l
    rw [List.map_map]
    rfl
  rw [hmap, hmap] at hmessages
  refine perm_of_map_perm (fun a _ b _ hab => ?_) hmessages
  exact utf8_inj.mp (List.append_cancel_left hab)

theorem PartsAgree.membership_agrees (hs : s.membership.Addressable)
    (ht : t.membership.Addressable) (h : PartsAgree x s t) :
    s.membership.activeProfile = t.membership.activeProfile ∧
      s.membership.clusterId = t.membership.clusterId ∧
      s.membership.nodes.Perm t.membership.nodes := by
  have hmessage : membershipMessage s.membership = membershipMessage t.membership :=
    eq_of_digest_eq hfree (membershipMessage_mem x s) (membershipMessage_mem x t) h.membership
  exact encodeMembership_inj hs ht (List.append_cancel_left hmessage)

/-- UTXOs are two hashes further down than the other items: the root of their set
is hashed as text. -/
theorem PartsAgree.utxos_perm (hs : ∀ u ∈ s.utxos, u.Addressable)
    (ht : ∀ u ∈ t.utxos, u.Addressable) (h : PartsAgree x s t) : s.utxos.Perm t.utxos := by
  have hmessage : utxosMessage x s = utxosMessage x t :=
    eq_of_digest_eq hfree (utxosMessage_mem x s) (utxosMessage_mem x t) h.utxos
  have hroot := x.sha256_eq_of_sha256Hex_eq (utf8_inj.mp (List.append_cancel_left hmessage))
  have hset : utxoSetMessage x s.utxos = utxoSetMessage x t.utxos :=
    eq_of_digest_eq hfree (utxoSetMessage_mem x s) (utxoSetMessage_mem x t) hroot
  have hsorted : ∀ l : List UtxoEntry, (l.insertionSort fun a b =>
      bytesLe (utf8 a.canonicalKey) (utf8 b.canonicalKey)).Perm l :=
    List.perm_insertionSort _
  have hdigests := perm_of_sortDigests (List.append_cancel_left hset)
  have hdigests := ((hsorted s.utxos).map _).symm.trans (hdigests.trans ((hsorted t.utxos).map _))
  have hmessages := perm_of_digests hfree
    (fun u hu => List.mem_append_left _ (utxo_encode_mem x s hu))
    (fun u hu => List.mem_append_right _ (utxo_encode_mem x t hu)) hdigests
  exact perm_of_map_perm (fun u hu v hv huv => UtxoEntry.encode_inj (hs u hu) (ht v hv) huv)
    hmessages

end Binding

/-- **What a state root binds.** States with one root either have a collision among
the messages hashed for them or agree in version, cluster and profile, and in their
accounts, intents, nodes and UTXOs up to order. -/
theorem computeStateRoot_binds (x : Crypto) (s t : LedgerState) (hs : s.Addressable)
    (ht : t.Addressable) (h : computeStateRoot x s = computeStateRoot x t) :
    Collision x.sha256 (hashedMessages x s ++ hashedMessages x t) ∨ SameUpToOrder s t := by
  by_cases hfree : Collision x.sha256 (hashedMessages x s ++ hashedMessages x t)
  · exact .inl hfree
  · have hparts := partsAgree_of_computeStateRoot hfree h
    obtain ⟨hprofile, hcluster, hnodes⟩ :=
      hparts.membership_agrees hfree hs.membership ht.membership
    exact .inr
      { version := hparts.version
        clusterId := hcluster
        activeProfile := hprofile
        accounts := hparts.accounts_perm hfree
        consumedIntents := hparts.intents_perm hfree
        nodes := hnodes
        utxos := hparts.utxos_perm hfree hs.utxos ht.utxos }

theorem computeStateRoot_binds_reordered :
    let x : Crypto := .recorded []
    let s : LedgerState := { LedgerState.empty ⟨"cluster-1", ["node-1", "node-2"], .haCrash⟩ with
      accounts := [.holding "alice" 1 100, .holding "bob" 1 50]
      utxos := [.newSeen ⟨"aa", 0⟩ 5000 "bc1q" 7] }
    let t : LedgerState := { s with membership := ⟨"cluster-1", ["node-2", "node-1"], .haCrash⟩ }
    Collision x.sha256 (hashedMessages x s ++ hashedMessages x t) ∨ SameUpToOrder s t := by
  intro x s t
  have hutxos : ∀ u ∈ s.utxos, u.Addressable := by
    intro u hu
    rw [List.mem_singleton.mp hu]
    refine ⟨fun t ht => ?_, fun t ht => ?_, by decide, by decide⟩
    · cases ht
    · cases ht
  have hs : s.Addressable := ⟨⟨by decide, by decide, by decide⟩, hutxos⟩
  have ht : t.Addressable := ⟨⟨by decide, by decide, by decide⟩, hutxos⟩
  have hmembership : encodeMembership s.membership = encodeMembership t.membership := by
    decide +kernel
  have hroot : computeStateRoot x s = computeStateRoot x t := by
    rw [computeStateRoot, computeStateRoot, hmembership]
  exact computeStateRoot_binds x s t hs ht hroot

end Kerosene.Ledger
