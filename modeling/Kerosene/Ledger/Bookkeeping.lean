import Kerosene.Ledger.DoubleEntry

/-! Balances against the journal.

The balances of a ledger should be what its committed entries add up to. They
are as long as every entry that passes validation also keeps each account on its
side and in range; an entry that does not is rejected after its postings were
added, and they stay. `postEntry_run` says both, over every run of a new ledger. -/
namespace Kerosene.Ledger.InMemoryLedger

open Lib.Encode Lib.Inplace Lib.Keyed

/-! ### What the journal adds up to -/

def postings (side : Side) (entry : JournalEntry) : List Posting :=
  match side with
  | .debit => entry.debits
  | .credit => entry.credits

/-- What some postings add to an account. -/
def postedTo (acc : StandardAccount) : List Posting → ℕ
  | [] => 0
  | p :: rest => (if p.account = acc then p.amountSats.toNat else 0) + postedTo acc rest

/-- What the entries of a journal add to one total of an account. -/
def journalTotal (entries : List JournalEntry) (side : Side) (acc : StandardAccount) : ℕ :=
  (entries.map fun entry => postedTo acc (postings side entry)).sum

theorem journalTotal_concat (entries : List JournalEntry) (entry : JournalEntry) (side : Side)
    (acc : StandardAccount) :
    journalTotal (entries ++ [entry]) side acc =
      journalTotal entries side acc + postedTo acc (postings side entry) := by
  simp [journalTotal]

/-! ### The balances of given totals -/

/-- The balance of an account with these totals. -/
def balanceOf (totals : Side → StandardAccount → ℕ) (acc : StandardAccount) : AccountBalance :=
  ⟨acc, acc.accountClass, totals .debit acc, totals .credit acc,
    (totals .debit acc : ℤ) - totals .credit acc⟩

/-- The balances of all accounts, in iteration order. -/
def book (order : HashOrder) (totals : Side → StandardAccount → ℕ) : List AccountBalance :=
  order.val.map (balanceOf totals)

/-- Totals after an amount was added to one of them. -/
def addTo (totals : Side → StandardAccount → ℕ) (side : Side) (acc : StandardAccount) (n : ℕ) :
    Side → StandardAccount → ℕ :=
  Function.update totals side (Function.update (totals side) acc (totals side acc + n))

/-- Totals that an `i128` can hold. -/
def InRange (totals : Side → StandardAccount → ℕ) : Prop :=
  ∀ side acc, totals side acc < 2 ^ 127

theorem asI128_of_lt {n : ℕ} (h : n < 2 ^ 127) : asI128 n = n := if_pos h

theorem checkedAddU128_of_lt {a b : ℕ} (h : a + b < 2 ^ 127) : checkedAddU128 a b = some (a + b) := by
  unfold checkedAddU128
  rw [if_pos (by omega)]

theorem checkedSubI128_of_lt {a b : ℕ} (ha : a < 2 ^ 127) (hb : b < 2 ^ 127) :
    checkedSubI128 a b = some ((a : ℤ) - b) := by
  unfold checkedSubI128
  rw [if_pos (by omega)]

/-- Totals after some postings to one side. -/
def addAll (totals : Side → StandardAccount → ℕ) (side : Side) (l : List Posting) :
    Side → StandardAccount → ℕ :=
  fun side' acc => totals side' acc + if side' = side then postedTo acc l else 0

theorem addTo_apply (totals : Side → StandardAccount → ℕ) (side : Side) (acc : StandardAccount)
    (n : ℕ) (side' : Side) (acc' : StandardAccount) :
    addTo totals side acc n side' acc' =
      totals side' acc' + if side' = side ∧ acc = acc' then n else 0 := by
  unfold addTo
  by_cases hside : side' = side
  · subst hside
    by_cases hacc : acc' = acc
    · subst hacc
      simp
    · simp [hacc, Ne.symm hacc]
  · simp [hside]

theorem addAll_cons (totals : Side → StandardAccount → ℕ) (side : Side) (p : Posting)
    (rest : List Posting) :
    addAll totals side (p :: rest) =
      addAll (addTo totals side p.account p.amountSats.toNat) side rest := by
  funext side' acc
  unfold addAll
  rw [addTo_apply, postedTo]
  by_cases hside : side' = side <;> simp [hside, add_assoc]

theorem InRange.mono {totals totals' : Side → StandardAccount → ℕ} (h : InRange totals')
    (hle : ∀ side acc, totals side acc ≤ totals' side acc) : InRange totals :=
  fun side acc => (hle side acc).trans_lt (h side acc)

/-- Totals only grow with further postings. -/
theorem le_addAll (totals : Side → StandardAccount → ℕ) (side : Side) (l : List Posting)
    (side' : Side) (acc : StandardAccount) : totals side' acc ≤ addAll totals side l side' acc :=
  Nat.le_add_right _ _

/-! ### Postings, one by one -/

variable {totals : Side → StandardAccount → ℕ} {side : Side} {order : HashOrder}
  {inner : InMemoryLedgerInner}

theorem post_of_some {posting : Posting} {bal : AccountBalance} {total : ℕ} {net : ℤ}
    (htotal : checkedAddU128 (bal.total side) posting.amountSats.toNat = some total)
    (hnet : checkedSubI128 (asI128 (bal.setTotal side total).totalDebitsSats)
      (asI128 (bal.setTotal side total).totalCreditsSats) = some net) :
    AccountBalance.post side posting bal =
      .ok () { bal.setTotal side total with netBalanceSats := net } := by
  simp only [AccountBalance.post, bind_def, get_def, htotal, AccountBalance.orOverflow, check_ok,
    set_def, hnet]

theorem post_balanceOf {posting : Posting}
    (h : InRange (addTo totals side posting.account posting.amountSats.toNat)) :
    AccountBalance.post side posting (balanceOf totals posting.account) =
      .ok () (balanceOf (addTo totals side posting.account posting.amountSats.toNat)
        posting.account) := by
  have hdebit := h .debit posting.account
  have hcredit := h .credit posting.account
  rw [addTo_apply] at hdebit hcredit
  cases side with
  | debit =>
    simp only [true_and, if_true, reduceCtorEq, false_and, if_false, add_zero] at hdebit hcredit
    have htotal := checkedAddU128_of_lt hdebit
    have hnet := checkedSubI128_of_lt hdebit hcredit
    rw [← asI128_of_lt hdebit, ← asI128_of_lt hcredit] at hnet
    have hpost : AccountBalance.post .debit posting (balanceOf totals posting.account) = _ :=
      post_of_some htotal hnet
    rw [hpost]
    simp [balanceOf, addTo_apply, AccountBalance.setTotal, asI128_of_lt hdebit, asI128_of_lt hcredit]
  | credit =>
    simp only [true_and, if_true, reduceCtorEq, false_and, if_false, add_zero] at hdebit hcredit
    have htotal := checkedAddU128_of_lt hcredit
    have hnet := checkedSubI128_of_lt hdebit hcredit
    rw [← asI128_of_lt hdebit, ← asI128_of_lt hcredit] at hnet
    have hpost : AccountBalance.post .credit posting (balanceOf totals posting.account) = _ :=
      post_of_some htotal hnet
    rw [hpost]
    simp [balanceOf, addTo_apply, AccountBalance.setTotal, asI128_of_lt hdebit, asI128_of_lt hcredit]

theorem applyPosting_book (hbook : inner.balances = book order totals) {posting : Posting}
    (h : InRange (addTo totals side posting.account posting.amountSats.toNat)) :
    applyPosting side posting inner =
      .ok () { inner with
        balances := book order (addTo totals side posting.account posting.amountSats.toNat) } := by
  have hmem : posting.account ∈ order.val := order.prop.mem_iff.mpr (StandardAccount.mem_all _)
  have hnodup : order.val.Nodup := order.prop.nodup_iff.mpr StandardAccount.nodup_all
  have hfind : find AccountBalance.account posting.account inner.balances =
      some (balanceOf totals posting.account) := by
    rw [hbook, book, find_map (fun _ => rfl) hmem]
  have hput : put AccountBalance.account
      (balanceOf (addTo totals side posting.account posting.amountSats.toNat) posting.account)
      inner.balances = book order (addTo totals side posting.account posting.amountSats.toNat) := by
    rw [hbook, book]
    refine (put_map (f := balanceOf totals) (fun _ => rfl) hnodup hmem).trans ?_
    refine List.map_congr_left fun acc _ => ?_
    by_cases hacc : acc = posting.account
    · rw [hacc]
      exact Function.update_self ..
    · refine (Function.update_of_ne hacc _ _).trans ?_
      simp [balanceOf, addTo_apply, Ne.symm hacc]
  unfold applyPosting
  simp only [hfind, post_balanceOf h, hput]

theorem replay_book (hbook : inner.balances = book order totals) {l : List Posting}
    (h : InRange (addAll totals side l)) :
    replay (applyPosting side) l inner =
      .ok () { inner with balances := book order (addAll totals side l) } := by
  induction l generalizing totals inner with
  | nil =>
    have hnone : addAll totals side [] = totals := by
      funext side' acc
      simp [addAll, postedTo]
    rw [hnone, ← hbook]
    rfl
  | cons p rest ih =>
    rw [addAll_cons] at h ⊢
    have hfirst := applyPosting_book hbook (h.mono (le_addAll _ side rest))
    rw [replay, bind_def, hfirst]
    exact ih rfl h

/-! ### Sides -/

/-- The account carries a balance on the side of its class, or none. -/
def OnSide (totals : Side → StandardAccount → ℕ) (acc : StandardAccount) : Prop :=
  if acc.accountClass = .asset ∨ acc.accountClass = .expense then
    totals .credit acc ≤ totals .debit acc
  else totals .debit acc ≤ totals .credit acc

instance : DecidablePred (OnSide totals) := fun acc =>
  inferInstanceAs (Decidable (if acc.accountClass = .asset ∨ acc.accountClass = .expense then
    totals .credit acc ≤ totals .debit acc else totals .debit acc ≤ totals .credit acc))

theorem checkSide_balanceOf (acc : StandardAccount) :
    (balanceOf totals acc).checkSide = .ok () ↔ OnSide totals acc := by
  unfold AccountBalance.checkSide OnSide balanceOf
  cases acc.accountClass <;> simp

theorem checkSides_book (order : HashOrder) :
    checkSides (book order totals) = .ok () ↔ ∀ acc, OnSide totals acc := by
  rw [checkSides, forM_ok, book, List.forall_mem_map]
  constructor
  · intro h acc
    exact (checkSide_balanceOf acc).mp (h acc (order.prop.mem_iff.mpr (StandardAccount.mem_all acc)))
  · intro h acc _
    exact (checkSide_balanceOf acc).mpr (h acc)

/-! ### One entry -/

/-- Turned away before its postings are touched, or known already. -/
def Untouched (x : Crypto) (inner : InMemoryLedgerInner) (entry : JournalEntry) : Prop :=
  inner.receipts.lookup entry.entryId ≠ none ∨ validateEntry x inner entry ≠ .ok ()

variable {x : Crypto} {entry : JournalEntry}

theorem postEntry_of_untouched (h : Untouched x inner entry) :
    AtomicAt (postEntry x entry) inner ∧ after (postEntry x entry) inner = inner := by
  unfold postEntry after AtomicAt
  simp only [bind_def, get_def]
  cases hknown : inner.receipts.lookup entry.entryId with
  | some receipt => simp
  | none =>
    cases hvalid : validateEntry x inner entry with
    | error e => simp [bind_def]
    | ok u => exact absurd (h.resolve_left (not_not.mpr hknown)) (not_not.mpr hvalid)

theorem valid_of_not_untouched (h : ¬ Untouched x inner entry) :
    inner.receipts.lookup entry.entryId = none ∧ validateEntry x inner entry = .ok () := by
  obtain ⟨hknown, hvalid⟩ := not_or.mp h
  exact ⟨not_not.mp hknown, not_not.mp hvalid⟩

/-- The receipt of an entry over the balances it leaves. -/
def receiptOf (x : Crypto) (entry : JournalEntry) (balances : List AccountBalance) :
    JournalReceipt where
  sequence := entry.sequence
  entryHash := entry.entryHash
  previousEntryHash := entry.previousEntryHash
  accountBalances := sortBalances balances
  trialBalanceHash := computeTrialBalanceHash x balances

/-- The ledger after an entry was appended. -/
def appended (x : Crypto) (inner : InMemoryLedgerInner) (entry : JournalEntry)
    (balances : List AccountBalance) : InMemoryLedgerInner where
  entries := inner.entries ++ [entry]
  balances := balances
  receipts := inner.receipts.insert entry.entryId (receiptOf x entry balances)

theorem commit_eq (x : Crypto) (inner : InMemoryLedgerInner) (entry : JournalEntry) :
    commit x entry inner =
      .ok (receiptOf x entry inner.balances) (appended x inner entry inner.balances) := rfl

/-- An entry that passes validation, as one equation: the postings are added, and
stay added when a side is wrong. -/
theorem postEntry_of_valid (hbalanced : inner.balances = book order (journalTotal inner.entries))
    (hknown : inner.receipts.lookup entry.entryId = none)
    (hvalid : validateEntry x inner entry = .ok ())
    (hrange : InRange (journalTotal (inner.entries ++ [entry]))) :
    postEntry x entry inner =
      (do
        check (checkSides (book order (journalTotal (inner.entries ++ [entry]))))
        commit x entry)
      { inner with balances := book order (journalTotal (inner.entries ++ [entry])) } := by
  have htotals : addAll (addAll (journalTotal inner.entries) .debit entry.debits) .credit
      entry.credits = journalTotal (inner.entries ++ [entry]) := by
    funext side acc
    rw [journalTotal_concat]
    cases side <;> simp [addAll, postings]
  rw [← htotals] at hrange ⊢
  have hdebits := replay_book hbalanced (hrange.mono (le_addAll _ .credit entry.credits))
  have hcredits : replay (applyPosting .credit) entry.credits { inner with
      balances := book order (addAll (journalTotal inner.entries) .debit entry.debits) } = _ :=
    replay_book rfl hrange
  unfold postEntry
  simp only [bind_def, get_def, hknown, hvalid, check_ok, hdebits, hcredits]

/-- With every account on its side the entry is committed. -/
theorem postEntry_of_sides (hbalanced : inner.balances = book order (journalTotal inner.entries))
    (hknown : inner.receipts.lookup entry.entryId = none)
    (hvalid : validateEntry x inner entry = .ok ())
    (hrange : InRange (journalTotal (inner.entries ++ [entry])))
    (hsides : ∀ acc, OnSide (journalTotal (inner.entries ++ [entry])) acc) :
    postEntry x entry inner = commit x entry
      { inner with balances := book order (journalTotal (inner.entries ++ [entry])) } := by
  rw [postEntry_of_valid hbalanced hknown hvalid hrange, bind_def,
    (checkSides_book order).mpr hsides, check_ok]

/-- Turned away untouched, or in range and with every account on its side. -/
def Harmless (x : Crypto) (inner : InMemoryLedgerInner) (entry : JournalEntry) : Prop :=
  Untouched x inner entry ∨
    (InRange (journalTotal (inner.entries ++ [entry])) ∧
      ∀ acc, OnSide (journalTotal (inner.entries ++ [entry])) acc)

/-- What holds of a ledger that only saw harmless entries. -/
structure Sound (order : HashOrder) (inner : InMemoryLedgerInner) : Prop where
  balanced : inner.balances = book order (journalTotal inner.entries)
  onSide : ∀ acc, OnSide (journalTotal inner.entries) acc

theorem postEntry_harmless (hsound : Sound order inner) (h : Harmless x inner entry) :
    AtomicAt (postEntry x entry) inner ∧ Sound order (after (postEntry x entry) inner) := by
  by_cases hun : Untouched x inner entry
  · obtain ⟨hatomic, hafter⟩ := postEntry_of_untouched hun
    rw [hafter]
    exact ⟨hatomic, hsound⟩
  · obtain ⟨hrange, hsides⟩ := h.resolve_left hun
    obtain ⟨hknown, hvalid⟩ := valid_of_not_untouched hun
    have heq := postEntry_of_sides hsound.balanced hknown hvalid hrange hsides
    refine ⟨atomicAt_of_ok heq, ?_⟩
    rw [after_ok heq]
    exact ⟨rfl, hsides⟩

/-- An entry in range that is not harmless is rejected with its postings kept. -/
theorem postEntry_not_atomic (hsound : Sound order inner)
    (hrange : InRange (journalTotal (inner.entries ++ [entry]))) (h : ¬ Harmless x inner entry) :
    ¬ AtomicAt (postEntry x entry) inner := by
  obtain ⟨hun, hsides⟩ := not_or.mp h
  obtain ⟨hknown, hvalid⟩ := valid_of_not_untouched hun
  have heq := postEntry_of_valid hsound.balanced hknown hvalid hrange
  obtain ⟨acc, hacc⟩ := not_forall.mp fun hall => hsides ⟨hrange, hall⟩
  cases hcheck : checkSides (book order (journalTotal (inner.entries ++ [entry]))) with
  | ok u => exact absurd ((checkSides_book order).mp hcheck acc) hacc
  | error e =>
    rw [bind_def, hcheck, check_error] at heq
    rw [atomicAt_of_error heq]
    intro hsame
    -- The account was on its side before, so its totals have changed.
    have hbooks := congrArg InMemoryLedgerInner.balances hsame
    rw [hsound.balanced] at hbooks
    have hbal := List.map_inj_left.mp hbooks acc (order.prop.mem_iff.mpr (StandardAccount.mem_all acc))
    have hdebits : _ = _ := congrArg AccountBalance.totalDebitsSats hbal
    have hcredits : _ = _ := congrArg AccountBalance.totalCreditsSats hbal
    have hbefore := hsound.onSide acc
    simp only [balanceOf] at hdebits hcredits
    unfold OnSide at hacc hbefore
    rw [hdebits, hcredits] at hacc
    exact hacc hbefore

theorem sound_new (order : HashOrder) : Sound order (new order) := by
  refine ⟨rfl, fun acc => ?_⟩
  unfold OnSide
  simp [journalTotal, new]

/-- **Over every run of harmless entries the balances are what the journal adds up
to and no rejected entry leaves a trace**; the next entry, in range, leaves none
exactly when it is harmless too. -/
theorem postEntry_run (x : Crypto) (order : HashOrder) (l : List JournalEntry)
    (h : Admissible (postEntry x) (Harmless x) l (new order)) :
    let inner := run (postEntry x) l (new order)
    (∀ acc, ∃ bal, find AccountBalance.account acc inner.balances = some bal ∧
      bal.totalDebitsSats = journalTotal inner.entries .debit acc ∧
      bal.totalCreditsSats = journalTotal inner.entries .credit acc) ∧
    ∀ entry, (Harmless x inner entry → AtomicAt (postEntry x entry) inner) ∧
      (InRange (journalTotal (inner.entries ++ [entry])) →
        AtomicAt (postEntry x entry) inner → Harmless x inner entry) := by
  intro inner
  have hstep : ∀ inner entry, Sound order inner → Harmless x inner entry →
      Sound order (after (postEntry x entry) inner) := fun _ _ hs hr => (postEntry_harmless hs hr).2
  have hsound : Sound order inner := run_invariant hstep l _ (sound_new order) h
  refine ⟨fun acc => ⟨balanceOf (journalTotal inner.entries) acc, ?_, rfl, rfl⟩, fun entry => ⟨?_, ?_⟩⟩
  · rw [hsound.balanced, book]
    exact find_map (fun _ => rfl) (order.prop.mem_iff.mpr (StandardAccount.mem_all acc))
  · exact fun hr => (postEntry_harmless hsound hr).1
  · intro hrange hatomic
    by_contra hbad
    exact postEntry_not_atomic hsound hrange hbad hatomic

/-- The first entry of a ledger: one debit and one credit, with the hash asked for. -/
def firstEntry (x : Crypto) (entryId : String) (debit credit : Posting) : JournalEntry :=
  { entryId
    sequence := 0
    description := ""
    debits := [debit]
    credits := [credit]
    timestampBucket := 0
    entryHash := JournalEntry.computeEntryHash x entryId 0 "" [debit] [credit] 0 none
    previousEntryHash := none }

/-- The iteration order that is the order of declaration. -/
def declarationOrder : HashOrder := ⟨StandardAccount.all, List.Perm.refl _⟩

theorem validateEntry_firstEntry (x : Crypto) (order : HashOrder) (entryId : String)
    (debit credit : Posting) (h : debit.amountSats = credit.amountSats) :
    validateEntry x (new order) (firstEntry x entryId debit credit) = .ok () := by
  simp [validateEntry, firstEntry, new, amountSum, h, checkPrevious]

/-- One posting on each side is far below the bounds. -/
theorem inRange_firstEntry (x : Crypto) (entryId : String) (debit credit : Posting) :
    InRange (journalTotal [firstEntry x entryId debit credit]) := by
  intro side acc
  have hdebit : debit.amountSats.toNat < 2 ^ 64 := debit.amountSats.toNat_lt
  have hcredit : credit.amountSats.toNat < 2 ^ 64 := credit.amountSats.toNat_lt
  cases side <;>
    simp only [journalTotal, postings, firstEntry, postedTo, List.map_cons, List.map_nil,
      List.sum_cons, List.sum_nil] <;>
    split <;> omega

/-- A deposit debits an asset and credits a liability. -/
theorem onSide_firstEntry (x : Crypto) (entryId : String) (amount : UInt64) (acc : StandardAccount) :
    OnSide (journalTotal [firstEntry x entryId ⟨.assetCustodiedBtc, amount⟩
      ⟨.liabilityUserBalances, amount⟩]) acc := by
  cases acc <;> simp [OnSide, journalTotal, postings, firstEntry, postedTo,
    StandardAccount.accountClass]

/-- A deposit, and a second entry that claims its place in the journal. -/
theorem postEntry_run_deposit :
    let x := Crypto.recorded []
    let entry (entryId : String) :=
      firstEntry x entryId ⟨.assetCustodiedBtc, 1000⟩ ⟨.liabilityUserBalances, 1000⟩
    let inner := run (postEntry x) [entry "deposit", entry "late"] (new declarationOrder)
    outcome (postEntry x (entry "late")) (run (postEntry x) [entry "deposit"] (new declarationOrder)) =
        .error (.sequenceGap 1 0) ∧
      inner.entries = [entry "deposit"] ∧
      ∃ bal, find AccountBalance.account .assetCustodiedBtc inner.balances = some bal ∧
        bal.totalDebitsSats = 1000 ∧ bal.totalCreditsSats = 0 := by
  generalize Crypto.recorded [] = crypto
  intro x entry inner
  have hrange : InRange (journalTotal [entry "deposit"]) := inRange_firstEntry x "deposit" _ _
  have hsides : ∀ acc, OnSide (journalTotal [entry "deposit"]) acc :=
    onSide_firstEntry x "deposit" 1000
  have hvalid : validateEntry x (new declarationOrder) (entry "deposit") = .ok () :=
    validateEntry_firstEntry x declarationOrder "deposit" _ _ rfl
  have hposted := postEntry_of_sides (sound_new declarationOrder).balanced rfl hvalid hrange hsides
  rw [commit_eq] at hposted
  have hfirst : run (postEntry x) [entry "deposit"] (new declarationOrder) = _ := after_ok hposted
  have hrefused : validateEntry x (run (postEntry x) [entry "deposit"] (new declarationOrder))
      (entry "late") = .error (.sequenceGap 1 0) := by
    rw [hfirst]
    rfl
  have huntouched : Untouched x (run (postEntry x) [entry "deposit"] (new declarationOrder))
      (entry "late") := by
    refine .inr fun hok => ?_
    rw [hrefused] at hok
    cases hok
  have hinner : inner = run (postEntry x) [entry "deposit"] (new declarationOrder) :=
    (postEntry_of_untouched huntouched).2
  have hentries : inner.entries = [entry "deposit"] := by
    rw [hinner, hfirst]
    rfl
  obtain ⟨bal, hfind, hdebits, hcredits⟩ := (postEntry_run x declarationOrder
    [entry "deposit", entry "late"]
    ⟨.inr ⟨hrange, hsides⟩, .inl huntouched, trivial⟩).1 .assetCustodiedBtc
  refine ⟨?_, hentries, bal, hfind, ?_, ?_⟩
  · rw [hfirst]
    rfl
  · rw [hdebits, hentries]
    rfl
  · rw [hcredits, hentries]
    rfl

/-- A debit to a liability is rejected, and the postings stay in the balances. -/
theorem rejected_entry_keeps_postings :
    let x := Crypto.recorded []
    let withdrawal :=
      firstEntry x "withdrawal" ⟨.liabilityUserBalances, 500⟩ ⟨.assetCustodiedBtc, 500⟩
    ¬ AtomicAt (postEntry x withdrawal) (new declarationOrder) := by
  generalize Crypto.recorded [] = crypto
  intro x withdrawal
  refine postEntry_not_atomic (sound_new declarationOrder)
    (inRange_firstEntry x "withdrawal" _ _) ?_
  intro h
  rcases h with h | ⟨_, hsides⟩
  · rcases h with h | h
    · exact h rfl
    · exact h (validateEntry_firstEntry x declarationOrder "withdrawal" _ _ rfl)
  · have huser : 500 ≤ 0 := hsides .liabilityUserBalances
    omega

end Kerosene.Ledger.InMemoryLedger
