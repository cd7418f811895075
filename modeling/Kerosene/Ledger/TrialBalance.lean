import Kerosene.Ledger.Receipts

/-! The trial balance.

A ledger whose posts all succeeded has exact totals as long as its journal is not
astronomically long: `2 ^ 62` amounts of 64 bits stay below `2 ^ 126`, where no `u128`
wraps and every cast to `i128` is exact. Each entry adds the same to both sides, so the
net balances cancel. -/
namespace Kerosene.Ledger.InMemoryLedger

open Lib.Encode Lib.Inplace Lib.Keyed

/-! ### Bounds -/

/-- How many postings a journal has. -/
def postingCount (entries : List JournalEntry) : ℕ :=
  (entries.map fun entry => entry.debits.length + entry.credits.length).sum

theorem postingCount_concat (entries : List JournalEntry) (entry : JournalEntry) :
    postingCount (entries ++ [entry]) =
      postingCount entries + (entry.debits.length + entry.credits.length) := by
  simp [postingCount]

theorem postedTo_le (acc : StandardAccount) (l : List Posting) :
    postedTo acc l ≤ l.length * 2 ^ 64 := by
  induction l with
  | nil => exact Nat.zero_le _
  | cons p rest ih =>
    have hamount : p.amountSats.toNat < 2 ^ 64 := p.amountSats.toNat_lt
    rw [postedTo, List.length_cons, Nat.add_one_mul]
    split <;> omega

theorem journalTotal_le (entries : List JournalEntry) (side : Side) (acc : StandardAccount) :
    journalTotal entries side acc ≤ postingCount entries * 2 ^ 64 := by
  induction entries using List.reverseRecOn with
  | nil => exact Nat.zero_le _
  | append_singleton entries entry ih =>
    rw [journalTotal_concat, postingCount_concat, Nat.add_mul]
    have hposted := postedTo_le acc (postings side entry)
    have hpostings : (postings side entry).length ≤ entry.debits.length + entry.credits.length := by
      cases side
      · exact Nat.le_add_right _ _
      · exact Nat.le_add_left _ _
    have hmul := Nat.mul_le_mul_right (2 ^ 64) hpostings
    omega

theorem inRange_of_postingCount {entries : List JournalEntry} (h : postingCount entries < 2 ^ 62) :
    InRange (journalTotal entries) := by
  intro side acc
  have hle := journalTotal_le entries side acc
  omega

/-- Every entry has a posting. -/
theorem length_le_postingCount {x : Crypto} {entries : List JournalEntry}
    (h : Journaled x entries) : entries.length ≤ postingCount entries := by
  induction entries using List.reverseRecOn with
  | nil => exact Nat.zero_le _
  | append_singleton entries entry ih =>
    obtain ⟨hbefore, hfollows⟩ := journaled_concat.mp h
    have hdebits := List.length_pos_iff.mpr hfollows.debits
    rw [postingCount_concat, List.length_append, List.length_singleton]
    have := ih hbefore
    omega

/-! ### Both sides add up alike -/

theorem sum_postedTo (order : HashOrder) (l : List Posting) :
    (order.val.map fun acc => postedTo acc l).sum = amountSum l := by
  have hnodup : order.val.Nodup := order.prop.nodup_iff.mpr StandardAccount.nodup_all
  induction l with
  | nil => simp [postedTo, amountSum]
  | cons p rest ih =>
    have hmem : p.account ∈ order.val := order.prop.mem_iff.mpr (StandardAccount.mem_all _)
    have hfirst : (order.val.map fun acc =>
        if p.account = acc then p.amountSats.toNat else 0).sum = p.amountSats.toNat := by
      rw [← List.sum_toFinset _ hnodup, Finset.sum_ite_eq, if_pos (List.mem_toFinset.mpr hmem)]
    simp only [postedTo]
    rw [List.sum_map_add, ih, hfirst]
    simp [amountSum]

theorem sum_journalTotal (order : HashOrder) (entries : List JournalEntry) (side : Side) :
    (order.val.map (journalTotal entries side)).sum =
      (entries.map fun entry => amountSum (postings side entry)).sum := by
  induction entries using List.reverseRecOn with
  | nil =>
    have hzero : journalTotal [] side = fun _ => 0 := rfl
    simp [hzero]
  | append_singleton entries entry ih =>
    have hsplit : journalTotal (entries ++ [entry]) side =
        fun acc => journalTotal entries side acc + postedTo acc (postings side entry) := by
      funext acc
      exact journalTotal_concat entries entry side acc
    rw [hsplit, List.sum_map_add, ih, sum_postedTo]
    simp

theorem sum_debits_eq_credits {x : Crypto} {entries : List JournalEntry} (h : Journaled x entries) :
    (entries.map fun entry => amountSum (postings .debit entry)).sum =
      (entries.map fun entry => amountSum (postings .credit entry)).sum := by
  congr 1
  refine List.map_congr_left fun entry hentry => ?_
  obtain ⟨i, hi⟩ := List.getElem?_of_mem hentry
  exact (h i entry hi).balanced

/-- The net balances of a journal cancel. -/
theorem sum_net {x : Crypto} {entries : List JournalEntry} (h : Journaled x entries)
    (order : HashOrder) :
    ((book order (journalTotal entries)).map AccountBalance.netBalanceSats).sum = 0 := by
  have hcast (side : Side) : (order.val.map fun acc => ((journalTotal entries side acc : ℕ) : ℤ)).sum =
      (((order.val.map (journalTotal entries side)).sum : ℕ) : ℤ) := by
    rw [Nat.cast_list_sum, List.map_map]
    rfl
  have hsplit := List.sum_map_add (l := order.val)
    (f := fun acc => (balanceOf (journalTotal entries) acc).netBalanceSats)
    (g := fun acc => ((journalTotal entries .credit acc : ℕ) : ℤ))
  simp only [balanceOf, sub_add_cancel] at hsplit
  rw [hcast, hcast, sum_journalTotal, sum_journalTotal, sum_debits_eq_credits h] at hsplit
  rw [book, List.map_map]
  exact right_eq_add.mp hsplit

/-! ### Posts that succeed -/

variable {x : Crypto} {order : HashOrder} {inner inner' : InMemoryLedgerInner}

/-- The receipt of every entry is over the balances of the journal up to it. -/
def ReceiptsExact (x : Crypto) (order : HashOrder) (inner : InMemoryLedgerInner) : Prop :=
  ∀ i entry, inner.entries[i]? = some entry → inner.receipts.lookup entry.entryId =
    some (receiptOf x entry (book order (journalTotal (inner.entries.take (i + 1)))))

/-- As long as the journal is short enough, balances and receipts are exact. -/
def Exact (x : Crypto) (order : HashOrder) (inner : InMemoryLedgerInner) : Prop :=
  postingCount inner.entries < 2 ^ 62 → Sound order inner ∧ ReceiptsExact x order inner

theorem ReceiptsExact.appended {entry : JournalEntry} (h : ReceiptsExact x order inner)
    (hreceipted : Receipted inner) (hnew : inner.receipts.lookup entry.entryId = none) :
    ReceiptsExact x order
      (appended x inner entry (book order (journalTotal (inner.entries ++ [entry])))) := by
  intro i c hi
  rcases entry_concat hi with ⟨hlt, hold⟩ | ⟨rfl, rfl⟩
  · have hne : c.entryId ≠ entry.entryId := fun hid =>
      hreceipted.not_mem hnew (hid ▸ List.mem_map_of_mem (List.mem_of_getElem? hold))
    have htake : (inner.entries ++ [entry]).take (i + 1) = inner.entries.take (i + 1) :=
      List.take_append_of_le_length hlt
    simp only [InMemoryLedger.appended, htake]
    rw [← h i c hold]
    exact Finmap.lookup_insert_of_ne _ hne
  · have htake : (inner.entries ++ [c]).take (inner.entries.length + 1) = inner.entries ++ [c] :=
      List.take_of_length_le (by simp)
    simp only [InMemoryLedger.appended, htake]
    exact Finmap.lookup_insert _

theorem exact_postEntry {entry : JournalEntry} {r : JournalReceipt} (hreceipted : Receipted inner)
    (h : Exact x order inner) (hpost : postEntry x entry inner = .ok r inner') :
    Exact x order inner' := by
  intro hcount
  rcases postEntry_cases x inner entry with
    ⟨r', _, hknown⟩ | ⟨_, e, t, hfails, _⟩ | ⟨hnew, hfollows, balances, happends⟩
  · rw [hpost] at hknown
    cases hknown
    exact h hcount
  · rw [hpost] at hfails
    cases hfails
  · rw [hpost] at happends
    cases happends
    have hbefore : postingCount inner.entries < 2 ^ 62 := by
      simp only [appended, postingCount_concat] at hcount
      omega
    obtain ⟨hsound, hreceipts⟩ := h hbefore
    have heq := postEntry_of_valid hsound.balanced hnew (validateEntry_ok.mpr hfollows)
      (inRange_of_postingCount hcount)
    cases hsides : checkSides (book order (journalTotal (inner.entries ++ [entry]))) with
    | error e =>
      rw [bind_def, hsides, check_error, hpost] at heq
      cases heq
    | ok u =>
      rw [bind_def, hsides, check_ok, hpost] at heq
      have hbalances : balances = book order (journalTotal (inner.entries ++ [entry])) :=
        congrArg InMemoryLedgerInner.balances (EStateM.Result.ok.inj heq).2
      subst hbalances
      exact ⟨⟨rfl, (checkSides_book order).mp hsides⟩, hreceipts.appended hreceipted hnew⟩

theorem exact_replay {l : List JournalEntry} (h : replay (postEntry x) l inner = .ok () inner')
    (hreceipted : Receipted inner) (hexact : Exact x order inner) : Exact x order inner' := by
  induction l generalizing inner with
  | nil =>
    cases h
    exact hexact
  | cons entry rest ih =>
    obtain ⟨r, t, hpost, hrest⟩ := replay_cons_ok.mp h
    have hnext : Receipted t := after_ok hpost ▸ receipted_postEntry hreceipted entry
    exact ih hrest hnext (exact_postEntry hreceipted hexact hpost)

/-! ### Receipts stay -/

/-- A receipt that was given is kept. -/
def KeepsReceipts (inner inner' : InMemoryLedgerInner) : Prop :=
  ∀ id r, inner.receipts.lookup id = some r → inner'.receipts.lookup id = some r

theorem keepsReceipts_postEntry (x : Crypto) (entry : JournalEntry) :
    Preserves KeepsReceipts (postEntry x entry) := by
  intro inner id r hr
  refine after_postEntry (P := fun inner' => inner'.receipts.lookup id = some r) ?_ ?_
  · intro inner' hsame
    rw [hsame.2]
    exact hr
  · intro hnew _ balances
    have hne : id ≠ entry.entryId := by
      rintro rfl
      rw [hnew] at hr
      cases hr
    rw [← hr]
    exact Finmap.lookup_insert_of_ne _ hne

theorem keepsReceipts_run (x : Crypto) (l : List JournalEntry) (inner : InMemoryLedgerInner) :
    KeepsReceipts inner (run (postEntry x) l inner) :=
  preserves_run (fun _ _ _ => id) (fun _ _ _ h h' id r hr => h' id r (h id r hr))
    (keepsReceipts_postEntry x) l inner

theorem lookup_of_postEntry {entry : JournalEntry} {r : JournalReceipt}
    (h : postEntry x entry inner = .ok r inner') : inner'.receipts.lookup entry.entryId = some r := by
  rcases postEntry_cases x inner entry with
    ⟨r', hr', hknown⟩ | ⟨_, e, t, hfails, _⟩ | ⟨_, _, balances, happends⟩
  · rw [h] at hknown
    cases hknown
    exact hr'
  · rw [h] at hfails
    cases hfails
  · rw [h] at happends
    cases happends
    exact Finmap.lookup_insert _

/-! ### The law -/

theorem ordinal_injective : Function.Injective StandardAccount.ordinal := by
  intro a b h
  cases a <;> cases b <;> first | rfl | cases h

/-- Sorted by account, the balances are in declaration order. -/
theorem sortBalances_book (order : HashOrder) (totals : Side → StandardAccount → ℕ) :
    sortBalances (book order totals) = StandardAccount.all.map (balanceOf totals) := by
  let le (a b : AccountBalance) : Prop := a.account.ordinal ≤ b.account.ordinal
  have : Std.Total le := ⟨fun a b => Nat.le_total _ _⟩
  have : IsTrans AccountBalance le := ⟨fun _ _ _ h h' => Nat.le_trans h h'⟩
  have hperm : (sortBalances (book order totals)).Perm
      (StandardAccount.all.map (balanceOf totals)) :=
    (List.perm_insertionSort le _).trans (order.prop.map _)
  have hall : (StandardAccount.all.map (balanceOf totals)).Pairwise le := by
    rw [List.pairwise_map]
    show StandardAccount.all.Pairwise fun a b => a.ordinal ≤ b.ordinal
    decide
  refine List.Perm.eq_of_pairwise (fun a b ha hb hab hba => ?_)
    (List.pairwise_insertionSort le _) hall hperm
  -- One account has one balance in the book.
  obtain ⟨acc, _, rfl⟩ := List.mem_map.mp (hperm.subset ha)
  obtain ⟨acc', _, rfl⟩ := List.mem_map.mp hb
  have hacc : acc = acc' := ordinal_injective (Nat.le_antisymm hab hba)
  rw [hacc]

/-- What double entry promises of a ledger. -/
structure TrialBalance (x : Crypto) (inner : InMemoryLedgerInner) : Prop where
  sequence : ∀ i (entry : JournalEntry), inner.entries[i]? = some entry → entry.sequence.toNat = i
  previous : ∀ i (entry : JournalEntry), inner.entries[i]? = some entry →
    entry.previousEntryHash = headHash (inner.entries.take i)
  entryHash : ∀ entry ∈ inner.entries, entry.entryHash =
    JournalEntry.computeEntryHash x entry.entryId entry.sequence entry.description entry.debits
      entry.credits entry.timestampBucket entry.previousEntryHash
  accounts : (inner.balances.map AccountBalance.account).Perm StandardAccount.all
  debits : ∀ bal ∈ inner.balances,
    bal.totalDebitsSats = journalTotal inner.entries .debit bal.account
  credits : ∀ bal ∈ inner.balances,
    bal.totalCreditsSats = journalTotal inner.entries .credit bal.account
  net : ∀ bal ∈ inner.balances, bal.netBalanceSats = bal.totalDebitsSats - bal.totalCreditsSats
  zero : (inner.balances.map AccountBalance.netBalanceSats).sum = 0
  sides : ∀ bal ∈ inner.balances,
    match bal.account.accountClass with
    | .asset | .expense => 0 ≤ bal.netBalanceSats
    | .liability | .equity | .revenue => bal.netBalanceSats ≤ 0
  receipts : ∀ i (entry : JournalEntry), inner.entries[i]? = some entry → ∃ r,
    inner.receipts.lookup entry.entryId = some r ∧ r.sequence = entry.sequence ∧
      r.entryHash = entry.entryHash ∧ r.accountBalances =
        StandardAccount.all.map (balanceOf (journalTotal (inner.entries.take (i + 1))))

theorem net_of_onSide {totals : Side → StandardAccount → ℕ} {acc : StandardAccount}
    (h : OnSide totals acc) :
    match acc.accountClass with
    | .asset | .expense => 0 ≤ (balanceOf totals acc).netBalanceSats
    | .liability | .equity | .revenue => (balanceOf totals acc).netBalanceSats ≤ 0 := by
  unfold OnSide at h
  unfold balanceOf
  cases hclass : acc.accountClass <;> simp [hclass] at h ⊢ <;> exact h

theorem trialBalance_of_exact (hjournaled : Journaled x inner.entries) (hsound : Sound order inner)
    (hreceipts : ReceiptsExact x order inner) (hcount : postingCount inner.entries < 2 ^ 62) :
    TrialBalance x inner := by
  have hlength := length_le_postingCount hjournaled
  have hbook : ∀ bal ∈ inner.balances, ∃ acc, bal = balanceOf (journalTotal inner.entries) acc := by
    intro bal hbal
    rw [hsound.balanced, book] at hbal
    obtain ⟨acc, _, rfl⟩ := List.mem_map.mp hbal
    exact ⟨acc, rfl⟩
  constructor
  case sequence =>
    intro i entry hi
    have hlt : i < inner.entries.length := (List.getElem?_eq_some_iff.mp hi).1
    rw [(hjournaled i entry hi).sequence, List.length_take_of_le hlt.le]
    have hsmall : i < 2 ^ 64 := by omega
    exact UInt64.toNat_ofNat_of_lt hsmall
  case previous =>
    intro i entry hi
    exact (hjournaled i entry hi).previous
  case entryHash =>
    intro entry hentry
    obtain ⟨i, hi⟩ := List.getElem?_of_mem hentry
    have hfollows := hjournaled i entry hi
    rw [hfollows.previous]
    exact hfollows.entryHash
  case accounts =>
    have hid : (book order (journalTotal inner.entries)).map AccountBalance.account = order.val := by
      rw [book, List.map_map]
      exact List.map_id _
    rw [hsound.balanced, hid]
    exact order.prop
  case debits | credits | net =>
    intro bal hbal
    obtain ⟨acc, rfl⟩ := hbook bal hbal
    rfl
  case zero =>
    rw [hsound.balanced]
    exact sum_net hjournaled order
  case sides =>
    intro bal hbal
    obtain ⟨acc, rfl⟩ := hbook bal hbal
    exact net_of_onSide (hsound.onSide acc)
  case receipts =>
    intro i entry hi
    exact ⟨_, hreceipts i entry hi, rfl, rfl, sortBalances_book order _⟩

/-- **The trial balance law.** A ledger reached by posts that all succeed satisfies it, and
every receipt given on the way is the one it keeps. -/
theorem trial_balance {l : List JournalEntry} (h : replay (postEntry x) l (new order) = .ok () inner)
    (hcount : postingCount inner.entries < 2 ^ 62) :
    TrialBalance x inner ∧ ∀ before entry later, l = before ++ entry :: later →
      ∃ r, outcome (postEntry x entry) (run (postEntry x) before (new order)) = .ok r ∧
        inner.receipts.lookup entry.entryId = some r := by
  have hrun := run_of_replay h
  have hjournaled : Journaled x inner.entries := hrun ▸ journaled_run x order l
  have hexact : Exact x order (new order) := fun _ =>
    ⟨sound_new order, fun _ _ hi => absurd hi (by simp [new])⟩
  obtain ⟨hsound, hreceipts⟩ := exact_replay h (receipted_new order) hexact hcount
  refine ⟨trialBalance_of_exact hjournaled hsound hreceipts hcount, ?_⟩
  intro before entry later hl
  subst hl
  obtain ⟨t, hbefore, hrest⟩ := replay_append_ok.mp h
  obtain ⟨r, u, hpost, hlater⟩ := replay_cons_ok.mp hrest
  rw [run_of_replay hbefore]
  refine ⟨r, outcome_ok hpost, ?_⟩
  rw [← run_of_replay hlater]
  exact keepsReceipts_run x later u _ _ (lookup_of_postEntry hpost)

/-- Two posts of one deposit, the second a replay. -/
theorem trial_balance_deposit :
    let x := Crypto.recorded []
    replay (postEntry x) [deposit x 1000, deposit x 1000] (new declarationOrder) =
        .ok () (afterDeposit x) ∧
      TrialBalance x (afterDeposit x) := by
  generalize Crypto.recorded [] = x
  have hreplay : replay (postEntry x) [deposit x 1000, deposit x 1000] (new declarationOrder) =
      .ok () (afterDeposit x) := by
    have hfirst := postEntry_deposit x
    rw [← afterDeposit_eq] at hfirst
    exact replay_cons_ok.mpr ⟨_, _, hfirst,
      replay_cons_ok.mpr ⟨_, _, postEntry_afterDeposit x 1000, rfl⟩⟩
  have hcount : postingCount (afterDeposit x).entries < 2 ^ 62 := by
    rw [entries_afterDeposit]
    simp [postingCount, deposit, firstEntry]
  exact ⟨hreplay, (trial_balance hreplay hcount).1⟩

end Kerosene.Ledger.InMemoryLedger
