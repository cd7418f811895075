import Kerosene.Ledger.Bookkeeping

/-! Receipts against the journal.

`postEntry_cases` says all that a call can do: an entry id that has a receipt is answered
with it, whatever else the entry says; a refused entry leaves the journal and the
receipts as they were; any other is validated, appended and given a receipt. Over a run
every receipt is that of one entry of the journal and every entry has one
(`Receipted`), so a receipt acknowledges the entry posted unless its id was used up by
another. -/
namespace Kerosene.Ledger.InMemoryLedger

open Lib.Encode Lib.Inplace

/-! ### What passes validation -/

theorem checkPrevious_ok {prevHash given : Option String} :
    checkPrevious prevHash given = .ok () ↔ given = prevHash := by
  cases prevHash <;> cases given <;> simp [checkPrevious]

/-- The hash of the last entry. -/
def headHash (entries : List JournalEntry) : Option String :=
  entries.getLast?.map JournalEntry.entryHash

/-- An entry that may follow a journal. -/
structure Follows (x : Crypto) (entries : List JournalEntry) (entry : JournalEntry) : Prop where
  debits : entry.debits ≠ []
  credits : entry.credits ≠ []
  balanced : amountSum entry.debits = amountSum entry.credits
  sequence : entry.sequence = UInt64.ofNat entries.length
  entryHash : entry.entryHash = JournalEntry.computeEntryHash x entry.entryId entry.sequence
    entry.description entry.debits entry.credits entry.timestampBucket (headHash entries)
  previous : entry.previousEntryHash = headHash entries

variable {x : Crypto} {inner inner' : InMemoryLedgerInner} {entry : JournalEntry}

theorem unless_ok {c : Prop} [Decidable c] {e : LedgerError} {rest : Except LedgerError Unit} :
    (if c then (throw e : Except LedgerError PUnit) >>= fun _ => rest else rest) = .ok () ↔
      ¬ c ∧ rest = .ok () := by
  by_cases h : c <;> simp [h, throw, throwThe, MonadExceptOf.throw, bind, Except.bind]

theorem validateEntry_ok : validateEntry x inner entry = .ok () ↔ Follows x inner.entries entry := by
  unfold validateEntry
  simp only [unless_ok, checkPrevious_ok, Bool.or_eq_true, List.isEmpty_iff, not_or, not_not]
  constructor
  · intro h
    obtain ⟨⟨hdebits, hcredits⟩, hbalanced, hsequence, _, hhash, hprevious⟩ := h
    exact ⟨hdebits, hcredits, hbalanced, hsequence, hhash, hprevious⟩
  · intro h
    have hnot : ¬ entry.sequence < UInt64.ofNat inner.entries.length := by
      rw [h.sequence]
      exact UInt64.lt_irrefl _
    exact ⟨⟨h.debits, h.credits⟩, h.balanced, h.sequence, hnot, h.entryHash, h.previous⟩

/-! ### What a call can do -/

/-- The journal and the receipts are as they were. -/
def SameJournal (inner inner' : InMemoryLedgerInner) : Prop :=
  inner'.entries = inner.entries ∧ inner'.receipts = inner.receipts

theorem SameJournal.refl (inner : InMemoryLedgerInner) : SameJournal inner inner := ⟨rfl, rfl⟩

theorem SameJournal.trans (a b c : InMemoryLedgerInner) (h : SameJournal a b)
    (h' : SameJournal b c) : SameJournal a c := ⟨h'.1.trans h.1, h'.2.trans h.2⟩

theorem sameJournal_applyPosting (side : Side) (posting : Posting) :
    Preserves SameJournal (applyPosting side posting) := by
  intro inner
  cases hfind : Lib.Keyed.find AccountBalance.account posting.account inner.balances with
  | none => simp [applyPosting, after, hfind, SameJournal]
  | some bal =>
    cases hpost : AccountBalance.post side posting bal <;>
      simp [applyPosting, after, hfind, hpost, SameJournal]

theorem sameJournal_replay (side : Side) (l : List Posting) :
    Preserves SameJournal (replay (applyPosting side) l) := by
  induction l with
  | nil => exact preserves_pure SameJournal.refl ()
  | cons p rest ih =>
    exact preserves_bind SameJournal.trans (sameJournal_applyPosting side p) fun _ => ih

/-- All that comes before an entry is appended. -/
def prepare (x : Crypto) (inner : InMemoryLedgerInner) (entry : JournalEntry) : Update Unit := do
  check (validateEntry x inner entry)
  replay (applyPosting .debit) entry.debits
  replay (applyPosting .credit) entry.credits
  let inner ← get
  check (checkSides inner.balances)

theorem sameJournal_prepare (x : Crypto) (inner : InMemoryLedgerInner) (entry : JournalEntry) :
    Preserves SameJournal (prepare x inner entry) := by
  have hget : Preserves SameJournal (get : Update InMemoryLedgerInner) := SameJournal.refl
  unfold prepare
  refine preserves_bind SameJournal.trans (preserves_check SameJournal.refl _) fun _ => ?_
  refine preserves_bind SameJournal.trans (sameJournal_replay _ _) fun _ => ?_
  refine preserves_bind SameJournal.trans (sameJournal_replay _ _) fun _ => ?_
  exact preserves_bind SameJournal.trans hget fun _ => preserves_check SameJournal.refl _

theorem postEntry_unknown (h : inner.receipts.lookup entry.entryId = none) :
    postEntry x entry inner = (prepare x inner entry >>= fun _ => commit x entry) inner := by
  simp only [postEntry, prepare, bind_assoc]
  simp only [bind_def (get : Update InMemoryLedgerInner), get_def, h]

theorem postEntry_known {r : JournalReceipt} (h : inner.receipts.lookup entry.entryId = some r) :
    postEntry x entry inner = .ok r inner := by
  simp only [postEntry, bind_def, get_def, h, pure_def]

/-- Everything a call can do. -/
theorem postEntry_cases (x : Crypto) (inner : InMemoryLedgerInner) (entry : JournalEntry) :
    (∃ r, inner.receipts.lookup entry.entryId = some r ∧ postEntry x entry inner = .ok r inner) ∨
      (inner.receipts.lookup entry.entryId = none ∧
        ∃ e inner', postEntry x entry inner = .error e inner' ∧ SameJournal inner inner') ∨
      (inner.receipts.lookup entry.entryId = none ∧ Follows x inner.entries entry ∧
        ∃ balances, postEntry x entry inner =
          .ok (receiptOf x entry balances) (appended x inner entry balances)) := by
  cases hknown : inner.receipts.lookup entry.entryId with
  | some r => exact .inl ⟨r, rfl, postEntry_known hknown⟩
  | none =>
    have hsame := sameJournal_prepare x inner entry inner
    rw [postEntry_unknown hknown, bind_def]
    cases hprepare : prepare x inner entry inner with
    | error e inner' =>
      rw [after_error hprepare] at hsame
      exact .inr (.inl ⟨rfl, e, inner', rfl, hsame⟩)
    | ok u inner' =>
      rw [after_ok hprepare] at hsame
      obtain ⟨_, _, hcheck, _⟩ := bind_ok.mp hprepare
      have hvalid := validateEntry_ok.mp (check_eq_ok.mp hcheck).1
      refine .inr (.inr ⟨rfl, hvalid, inner'.balances, ?_⟩)
      simp only [commit_eq, appended, hsame.1, hsame.2]

/-- What the journal and the receipts decide is kept by a call if it is kept by appending. -/
theorem after_postEntry {P : InMemoryLedgerInner → Prop}
    (hsame : ∀ inner', SameJournal inner inner' → P inner')
    (happended : inner.receipts.lookup entry.entryId = none → Follows x inner.entries entry →
      ∀ balances, P (appended x inner entry balances)) : P (after (postEntry x entry) inner) := by
  rcases postEntry_cases x inner entry with
    ⟨r, _, hpost⟩ | ⟨_, e, inner', hpost, hjournal⟩ | ⟨hnew, hfollows, balances, hpost⟩
  · rw [after_ok hpost]
    exact hsame inner (SameJournal.refl inner)
  · rw [after_error hpost]
    exact hsame inner' hjournal
  · rw [after_ok hpost]
    exact happended hnew hfollows balances

/-! ### A receipt for every entry -/

/-- An entry of a journal with one more. -/
theorem entry_concat {entries : List JournalEntry} {c : JournalEntry} {i : ℕ}
    (h : (entries ++ [entry])[i]? = some c) :
    (i < entries.length ∧ entries[i]? = some c) ∨ (i = entries.length ∧ c = entry) := by
  have hlt : i < (entries ++ [entry]).length := (List.getElem?_eq_some_iff.mp h).1
  rw [List.length_append, List.length_singleton] at hlt
  rcases Nat.lt_succ_iff_lt_or_eq.mp hlt with hbefore | rfl
  · rw [List.getElem?_append_left hbefore] at h
    exact .inl ⟨hbefore, h⟩
  · rw [List.getElem?_concat_length] at h
    exact .inr ⟨rfl, (Option.some.inj h).symm⟩

/-- Receipts and entries belong together: the ids are distinct, and the receipt of an id is
that of the entry with it. -/
structure Receipted (inner : InMemoryLedgerInner) : Prop where
  receipt : ∀ i entry, inner.entries[i]? = some entry → ∃ r,
    inner.receipts.lookup entry.entryId = some r ∧ r.sequence = UInt64.ofNat i ∧
      r.entryHash = entry.entryHash
  entry : ∀ id, inner.receipts.lookup id ≠ none → ∃ entry ∈ inner.entries, entry.entryId = id
  nodup : (inner.entries.map JournalEntry.entryId).Nodup

theorem receipted_new (order : HashOrder) : Receipted (new order) :=
  ⟨fun _ _ h => absurd h (by simp [new]), fun _ h => absurd rfl h, List.nodup_nil⟩

theorem Receipted.sameJournal (h : Receipted inner) (hsame : SameJournal inner inner') :
    Receipted inner' := by
  obtain ⟨hentries, hreceipts⟩ := hsame
  constructor
  · rw [hentries, hreceipts]
    exact h.receipt
  · rw [hentries, hreceipts]
    exact h.entry
  · rw [hentries]
    exact h.nodup

theorem Receipted.receipt_of_mem (h : Receipted inner) (hmem : entry ∈ inner.entries) :
    ∃ i r, inner.entries[i]? = some entry ∧ i < inner.entries.length ∧
      inner.receipts.lookup entry.entryId = some r ∧ r.sequence = UInt64.ofNat i ∧
      r.entryHash = entry.entryHash := by
  obtain ⟨i, hi⟩ := List.getElem?_of_mem hmem
  obtain ⟨r, hr⟩ := h.receipt i entry hi
  exact ⟨i, r, hi, (List.getElem?_eq_some_iff.mp hi).1, hr⟩

/-- A new id: no entry has it. -/
theorem Receipted.not_mem (h : Receipted inner)
    (hnew : inner.receipts.lookup entry.entryId = none) :
    entry.entryId ∉ inner.entries.map JournalEntry.entryId := by
  intro hmem
  obtain ⟨c, hc, hid⟩ := List.mem_map.mp hmem
  obtain ⟨_, r, _, _, hr, _⟩ := h.receipt_of_mem hc
  rw [hid, hnew] at hr
  cases hr

theorem Receipted.appended (h : Receipted inner)
    (hnew : inner.receipts.lookup entry.entryId = none) (hfollows : Follows x inner.entries entry)
    (balances : List AccountBalance) : Receipted (appended x inner entry balances) := by
  have hnot := h.not_mem hnew
  refine ⟨fun i c hi => ?_, fun id hid => ?_, ?_⟩
  · rcases entry_concat hi with ⟨_, hold⟩ | ⟨rfl, rfl⟩
    · have hne : c.entryId ≠ entry.entryId := fun hid =>
        hnot (hid ▸ List.mem_map_of_mem (List.mem_of_getElem? hold))
      obtain ⟨r, hr, hrest⟩ := h.receipt i c hold
      refine ⟨r, ?_, hrest⟩
      rw [← hr]
      exact Finmap.lookup_insert_of_ne _ hne
    · exact ⟨_, Finmap.lookup_insert _, hfollows.sequence, rfl⟩
  · by_cases hsame : id = entry.entryId
    · exact ⟨entry, List.mem_append_right _ List.mem_cons_self, hsame.symm⟩
    · have hold : inner.receipts.lookup id ≠ none := by
        intro hnone
        refine hid (Eq.trans ?_ hnone)
        exact Finmap.lookup_insert_of_ne _ hsame
      obtain ⟨c, hc, hcid⟩ := h.entry id hold
      exact ⟨c, List.mem_append_left _ hc, hcid⟩
  · rw [InMemoryLedger.appended, List.map_append, List.nodup_append]
    refine ⟨h.nodup, by simp, fun a ha b hb hab => ?_⟩
    simp only [List.map_cons, List.map_nil, List.mem_singleton] at hb
    rw [hab, hb] at ha
    exact hnot ha

theorem receipted_postEntry (h : Receipted inner) (entry : JournalEntry) :
    Receipted (after (postEntry x entry) inner) :=
  after_postEntry (fun _ hsame => h.sameJournal hsame) h.appended

theorem receipted_run (x : Crypto) (order : HashOrder) (l : List JournalEntry) :
    Receipted (run (postEntry x) l (new order)) :=
  preserves_run (R := fun inner inner' => Receipted inner → Receipted inner') (fun _ => id)
    (fun _ _ _ h h' => h' ∘ h) (fun entry _ h => receipted_postEntry h entry) l _
    (receipted_new order)

/-! ### A chain of entries -/

/-- Every entry follows those before it. -/
def Journaled (x : Crypto) (entries : List JournalEntry) : Prop :=
  ∀ i entry, entries[i]? = some entry → Follows x (entries.take i) entry

theorem journaled_concat {entries : List JournalEntry} :
    Journaled x (entries ++ [entry]) ↔ Journaled x entries ∧ Follows x entries entry := by
  constructor
  · intro h
    refine ⟨fun i c hi => ?_, ?_⟩
    · have hlt : i < entries.length := (List.getElem?_eq_some_iff.mp hi).1
      have hfollows := h i c (by rw [List.getElem?_append_left hlt, hi])
      rw [List.take_append_of_le_length hlt.le] at hfollows
      exact hfollows
    · have hlast := h entries.length entry List.getElem?_concat_length
      rw [List.take_left] at hlast
      exact hlast
  · intro h i c hi
    rcases entry_concat hi with ⟨hlt, hold⟩ | ⟨rfl, rfl⟩
    · rw [List.take_append_of_le_length hlt.le]
      exact h.1 i c hold
    · rw [List.take_left]
      exact h.2

theorem journaled_postEntry (h : Journaled x inner.entries) (entry : JournalEntry) :
    Journaled x (after (postEntry x entry) inner).entries := by
  refine after_postEntry (P := fun inner' => Journaled x inner'.entries) ?_ ?_
  · intro inner' hsame
    rw [hsame.1]
    exact h
  · intro _ hfollows balances
    exact journaled_concat.mpr ⟨h, hfollows⟩

theorem journaled_run (x : Crypto) (order : HashOrder) (l : List JournalEntry) :
    Journaled x (run (postEntry x) l (new order)).entries := by
  have hnew : Journaled x (new order).entries := fun _ _ h => absurd h (by simp [new])
  exact preserves_run
    (R := fun (inner inner' : InMemoryLedgerInner) =>
      Journaled x inner.entries → Journaled x inner'.entries)
    (fun _ => id) (fun _ _ _ h h' => h' ∘ h) (fun entry _ h => journaled_postEntry h entry) l _ hnew

/-! ### What a receipt acknowledges -/

/-- **When a receipt acknowledges the entry posted.** In a ledger reached by any calls, what
is answered with a receipt is the entry found at the receipt's sequence exactly when no
other entry was committed under its id. (A vector is shorter than `2 ^ 64`.) -/
theorem receipt_acknowledges_iff (x : Crypto) (order : HashOrder) (l : List JournalEntry)
    (entry : JournalEntry) (hroom : (run (postEntry x) l (new order)).entries.length < 2 ^ 64) :
    let inner := run (postEntry x) l (new order)
    (∀ r, outcome (postEntry x entry) inner = .ok r →
        (after (postEntry x entry) inner).entries[r.sequence.toNat]? = some entry ∧
          r.entryHash = entry.entryHash) ↔
      ∀ c ∈ inner.entries, c.entryId = entry.entryId → c = entry := by
  intro inner
  have hinv : Receipted inner := receipted_run x order l
  have hindex {i : ℕ} (hi : i ≤ inner.entries.length) : (UInt64.ofNat i).toNat = i :=
    UInt64.toNat_ofNat_of_lt (hi.trans_lt hroom)
  constructor
  · intro h c hc hid
    obtain ⟨i, r, hi, hlt, hr, hsequence, _⟩ := hinv.receipt_of_mem hc
    rw [hid] at hr
    have hpost : postEntry x entry inner = .ok r inner := postEntry_known hr
    have hfound := (h r (outcome_ok hpost)).1
    rw [after_ok hpost, hsequence, hindex hlt.le, hi] at hfound
    exact Option.some.inj hfound
  · intro h r hr
    rcases postEntry_cases x inner entry with
      ⟨r', hknown, hpost⟩ | ⟨_, e, inner', hpost, _⟩ | ⟨_, hfollows, balances, hpost⟩
    · rw [outcome_ok hpost] at hr
      cases hr
      obtain ⟨c, hc, hid⟩ := hinv.entry entry.entryId (by rw [hknown]; simp)
      obtain ⟨i, r', hi, hlt, hr', hsequence, hhash⟩ := hinv.receipt_of_mem hc
      rw [hid, hknown] at hr'
      cases hr'
      rw [after_ok hpost, hsequence, hindex hlt.le, hi, hhash, h c hc hid]
      exact ⟨rfl, rfl⟩
    · rw [outcome_error hpost] at hr
      cases hr
    · rw [outcome_ok hpost] at hr
      cases hr
      have hsequence : (receiptOf x entry balances).sequence.toNat = inner.entries.length := by
        rw [receiptOf, hfollows.sequence, hindex le_rfl]
      rw [after_ok hpost, hsequence]
      exact ⟨List.getElem?_concat_length, rfl⟩

/-! ### One deposit -/

/-- A deposit of an amount, as the first entry. -/
def deposit (x : Crypto) (amount : UInt64) : JournalEntry :=
  firstEntry x "deposit" ⟨.assetCustodiedBtc, amount⟩ ⟨.liabilityUserBalances, amount⟩

section Deposit
variable (x : Crypto)

/-- The receipt of a deposit. -/
def depositReceipt : JournalReceipt :=
  receiptOf x (deposit x 1000) (book declarationOrder (journalTotal [deposit x 1000]))

/-- The ledger with a deposit in it. -/
def afterDeposit : InMemoryLedgerInner :=
  run (postEntry x) [deposit x 1000] (new declarationOrder)

theorem postEntry_deposit :
    postEntry x (deposit x 1000) (new declarationOrder) = .ok (depositReceipt x)
      (appended x (new declarationOrder) (deposit x 1000)
        (book declarationOrder (journalTotal [deposit x 1000]))) := by
  have hvalid : validateEntry x (new declarationOrder) (deposit x 1000) = .ok () :=
    validateEntry_firstEntry x declarationOrder "deposit" _ _ rfl
  exact postEntry_of_sides (sound_new declarationOrder).balanced rfl hvalid
    (inRange_firstEntry x "deposit" _ _) (onSide_firstEntry x "deposit" 1000)

theorem afterDeposit_eq :
    afterDeposit x = appended x (new declarationOrder) (deposit x 1000)
      (book declarationOrder (journalTotal [deposit x 1000])) := by
  rw [afterDeposit, run, after_ok (postEntry_deposit x)]
  rfl

theorem entries_afterDeposit : (afterDeposit x).entries = [deposit x 1000] := by
  rw [afterDeposit_eq]
  rfl

/-- After a deposit any other under its id is answered with its receipt. -/
theorem postEntry_afterDeposit (amount : UInt64) :
    postEntry x (deposit x amount) (afterDeposit x) = .ok (depositReceipt x) (afterDeposit x) := by
  apply postEntry_known
  rw [afterDeposit_eq]
  exact Finmap.lookup_insert _

end Deposit

/-- A deposit posted again is found where its receipt says. -/
theorem receipt_acknowledges_deposit :
    let x := Crypto.recorded []
    ∃ r, outcome (postEntry x (deposit x 1000)) (afterDeposit x) = .ok r ∧
      (after (postEntry x (deposit x 1000)) (afterDeposit x)).entries[r.sequence.toNat]? =
        some (deposit x 1000) := by
  generalize Crypto.recorded [] = x
  have hroom : (afterDeposit x).entries.length < 2 ^ 64 := by
    rw [entries_afterDeposit, List.length_singleton]
    decide
  have hiff := receipt_acknowledges_iff x declarationOrder [deposit x 1000] (deposit x 1000) hroom
  have hsame : ∀ c ∈ (afterDeposit x).entries, c.entryId = (deposit x 1000).entryId →
      c = deposit x 1000 := by
    rw [entries_afterDeposit]
    exact fun c hc _ => List.mem_singleton.mp hc
  have hreceipt : outcome (postEntry x (deposit x 1000)) (afterDeposit x) =
      .ok (depositReceipt x) := by
    exact outcome_ok (postEntry_afterDeposit x 1000)
  exact ⟨depositReceipt x, hreceipt, (hiff.mpr hsame _ hreceipt).1⟩

/-- Another deposit under the same id is answered with the receipt of the first. -/
theorem reused_id_is_acknowledged :
    let x := Crypto.recorded []
    ∃ r, outcome (postEntry x (deposit x 2000)) (afterDeposit x) = .ok r ∧
      (after (postEntry x (deposit x 2000)) (afterDeposit x)).entries[r.sequence.toNat]? =
        some (deposit x 1000) ∧
      (deposit x 2000).debits ≠ (deposit x 1000).debits := by
  generalize Crypto.recorded [] = x
  refine ⟨depositReceipt x, ?_, ?_, ?_⟩
  · exact outcome_ok (postEntry_afterDeposit x 2000)
  · rw [after_ok (postEntry_afterDeposit x 2000), entries_afterDeposit]
    rfl
  · simp [deposit, firstEntry]

end Kerosene.Ledger.InMemoryLedger
