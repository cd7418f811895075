import Kerosene.Lib.Commit
import Kerosene.Ledger.Receipts

/-! What the head of the journal commits to.

An entry's hash is over a text that joins its fields with bars. Read from the end the
text is clear: a number, the hash before it and the hashes of the postings have no bar in
them. What is left, id, sequence and description, is not, because an id or a description
may hold bars itself. So two journals with one head agree in everything but where those
texts are cut (`headHash_commits_iff`). -/
namespace Kerosene.Ledger.InMemoryLedger

open Lib.Commit Lib.Encode Lib.Inplace Lib.Word

/-! ### The messages hashed -/

/-- What the postings of one side are hashed from. -/
def postingBytes (p : Posting) : Bytes :=
  utf8 p.account.debug ++ utf8 ":" ++ le64 p.amountSats ++ utf8 ","

/-- The texts of an entry that may hold bars. -/
def entryText (e : JournalEntry) : String :=
  e.entryId ++ "|" ++ toString e.sequence ++ "|" ++ e.description

/-- The text an entry is hashed from. -/
def entryMaterial (x : Crypto) (e : JournalEntry) : String :=
  entryText e ++ "|" ++ JournalEntry.hashPostings x e.debits ++ "|" ++
    JournalEntry.hashPostings x e.credits ++ "|" ++ e.previousEntryHash.getD "" ++ "|" ++
    toString e.timestampBucket

/-- Every message hashed for a journal. -/
def hashedTexts (x : Crypto) (entries : List JournalEntry) : List Bytes :=
  entries.flatMap fun e =>
    [utf8 (entryMaterial x e), e.debits.flatMap postingBytes, e.credits.flatMap postingBytes]

theorem Follows.entryHash_eq {x : Crypto} {entries : List JournalEntry} {e : JournalEntry}
    (h : Follows x entries e) : e.entryHash = x.sha256Hex (utf8 (entryMaterial x e)) := by
  rw [h.entryHash, ← h.previous]
  rfl

/-! ### Postings -/

theorem colon_not_mem_debug (acc : StandardAccount) : (58 : UInt8) ∉ utf8 acc.debug := by
  cases acc <;> decide

theorem debug_injective : Function.Injective StandardAccount.debug := by
  intro a b h
  cases a <;> cases b <;> first | rfl | exact absurd h (by decide)

/-- A name up to its colon, eight bytes and a comma. -/
theorem selfDelimiting_postingBytes : SelfDelimiting (fun _ => True) postingBytes := by
  intro p q rest rest' _ _ h
  have hname : SelfDelimiting (fun _ => True) fun acc : StandardAccount => utf8 acc.debug ++ [58] :=
    selfDelimiting_of_mark (fun acc _ => colon_not_mem_debug acc)
      fun a b _ _ hab => debug_injective (utf8_inj.mp hab)
  have hcolon : utf8 ":" = [58] := by decide
  have hcomma : utf8 "," = [44] := by decide
  simp only [postingBytes, hcolon, hcomma, List.append_assoc] at h
  obtain ⟨haccount, htail⟩ := hname p.account q.account
    (le64 p.amountSats ++ ([44] ++ rest)) (le64 q.amountSats ++ ([44] ++ rest')) trivial trivial
    (by simpa only [List.append_assoc] using h)
  obtain ⟨hamount, hrest⟩ := List.append_inj htail (by rw [le64_length, le64_length])
  obtain ⟨acc, amount⟩ := p
  obtain ⟨acc', amount'⟩ := q
  cases haccount
  cases le64_injective hamount
  exact ⟨rfl, (List.cons.inj hrest).2⟩

theorem postings_inj {l l' : List Posting}
    (h : l.flatMap postingBytes = l'.flatMap postingBytes) : l = l' := by
  refine selfDelimiting_postingBytes.flatMap_inj_of_ne_nil (fun p hp => ?_) (fun _ _ => trivial)
    (fun _ _ => trivial) h
  have hlast := (List.append_eq_nil_iff.mp hp).2
  exact absurd hlast (by decide)

/-! ### Texts with bars -/

theorem bar_not_mem_toString (v : UInt64) : '|' ∉ (toString v).toList := by
  show '|' ∉ (toString v.toNat).toList
  rw [Nat.toString_eq_ofList_toDigits, String.toList_ofList]
  intro h
  have hdigit : '|'.isDigit = true := Nat.isDigit_of_mem_toDigits (by decide) (by decide) h
  cases hdigit

theorem toList_bar (a b : String) : (a ++ "|" ++ b).toList = a.toList ++ '|' :: b.toList := by
  rw [String.toList_append, String.toList_append, List.append_assoc]
  rfl

/-- A text is cut at its last bar. -/
theorem eq_of_append_bar {a a' b b' : String} (h : a ++ "|" ++ b = a' ++ "|" ++ b')
    (hb : '|' ∉ b.toList) (hb' : '|' ∉ b'.toList) : a = a' ∧ b = b' := by
  have hlist := congrArg String.toList h
  rw [toList_bar, toList_bar] at hlist
  obtain ⟨hfirst, hsecond⟩ := eq_of_append_sep hlist hb hb'
  exact ⟨String.toList_inj.mp hfirst, String.toList_inj.mp hsecond⟩

/-- What remains open of an entry's text is where its id ends. -/
theorem entryText_inj {e e' : JournalEntry} (h : entryText e = entryText e')
    (hlength : e.entryId.length = e'.entryId.length) :
    e.entryId = e'.entryId ∧ e.sequence = e'.sequence ∧ e.description = e'.description := by
  have hlist (f : JournalEntry) : (entryText f).toList =
      f.entryId.toList ++ ('|' :: ((toString f.sequence).toList ++ '|' :: f.description.toList)) := by
    rw [entryText, toList_bar, toList_bar, List.append_assoc, List.cons_append]
  have hsplit (f : JournalEntry) :
      splitOnceList '|' ((toString f.sequence).toList ++ '|' :: f.description.toList) =
        some ((toString f.sequence).toList, f.description.toList) :=
    splitOnceList_eq_some.mpr ⟨rfl, bar_not_mem_toString f.sequence⟩
  have htext := congrArg String.toList h
  rw [hlist, hlist] at htext
  obtain ⟨hid, htail⟩ := List.append_inj htext hlength
  have hrest := congrArg (splitOnceList '|') (List.cons.inj htail).2
  rw [hsplit, hsplit, Option.some.injEq, Prod.mk.injEq, String.toList_inj, String.toList_inj] at hrest
  exact ⟨String.toList_inj.mp hid, toString_injective hrest.1, hrest.2⟩

/-! ### Down the chain -/

/-- At every place the ids are as long as each other. -/
def SameCuts (entries entries' : List JournalEntry) : Prop :=
  ∀ (i : ℕ) (e e' : JournalEntry), entries[i]? = some e → entries'[i]? = some e' →
    e.entryId.length = e'.entryId.length

theorem SameCuts.of_concat {entries entries' : List JournalEntry} {e e' : JournalEntry}
    (h : SameCuts (entries ++ [e]) (entries' ++ [e'])) : SameCuts entries entries' := by
  intro i f f' hf hf'
  have hlt := (List.getElem?_eq_some_iff.mp hf).1
  have hlt' := (List.getElem?_eq_some_iff.mp hf').1
  exact h i f f' (by rw [List.getElem?_append_left hlt, hf])
    (by rw [List.getElem?_append_left hlt', hf'])

theorem headHash_concat (entries : List JournalEntry) (e : JournalEntry) :
    headHash (entries ++ [e]) = some e.entryHash := by
  rw [headHash, List.getLast?_concat, Option.map_some]

/-- A head is none or a hash. -/
theorem headHash_eq {x : Crypto} {entries : List JournalEntry} (h : Journaled x entries) :
    (headHash entries = none ∧ entries = []) ∨ ∃ m, headHash entries = some (x.sha256Hex m) := by
  rcases List.eq_nil_or_concat entries with rfl | ⟨before, e, rfl⟩
  · exact .inl ⟨rfl, rfl⟩
  · rw [List.concat_eq_append] at h ⊢
    rw [headHash_concat, (journaled_concat.mp h).2.entryHash_eq]
    exact .inr ⟨_, rfl⟩

/-- The empty text stands for no head only. -/
theorem headHash_eq_of_getD {x : Crypto} {entries entries' : List JournalEntry}
    (hj : Journaled x entries) (hj' : Journaled x entries')
    (h : (headHash entries).getD "" = (headHash entries').getD "") :
    headHash entries = headHash entries' := by
  rcases headHash_eq hj with ⟨hnone, _⟩ | ⟨m, hm⟩ <;> rcases headHash_eq hj' with ⟨hnone', _⟩ | ⟨m', hm'⟩
  · rw [hnone, hnone']
  · rw [hnone, hm'] at h
    exact absurd h.symm (x.sha256Hex_ne_empty m')
  · rw [hm, hnone'] at h
    exact absurd h (x.sha256Hex_ne_empty m)
  · rw [hm, hm'] at h ⊢
    exact congrArg some h

section Chain
variable {x : Crypto} {entries entries' : List JournalEntry} {e e' : JournalEntry}

/-- Read from the end, a text gives everything but where the id ends. -/
theorem entryMaterial_inj (hhex : ∀ b, '|' ∉ (x.hexEncode b).toList) (hj : Journaled x entries)
    (hj' : Journaled x entries') (hfollows : Follows x entries e) (hfollows' : Follows x entries' e')
    (h : entryMaterial x e = entryMaterial x e') :
    entryText e = entryText e' ∧
      JournalEntry.hashPostings x e.debits = JournalEntry.hashPostings x e'.debits ∧
      JournalEntry.hashPostings x e.credits = JournalEntry.hashPostings x e'.credits ∧
      headHash entries = headHash entries' ∧ e.timestampBucket = e'.timestampBucket := by
  have hprevious {E : List JournalEntry} (hE : Journaled x E) :
      '|' ∉ ((headHash E).getD "").toList := by
    rcases headHash_eq hE with ⟨hnone, _⟩ | ⟨m, hm⟩
    · rw [hnone]
      decide
    · rw [hm]
      exact hhex _
  rw [entryMaterial, entryMaterial, hfollows.previous, hfollows'.previous] at h
  obtain ⟨h, htime⟩ := eq_of_append_bar h (bar_not_mem_toString _) (bar_not_mem_toString _)
  obtain ⟨h, hhead⟩ := eq_of_append_bar h (hprevious hj) (hprevious hj')
  obtain ⟨h, hcredits⟩ := eq_of_append_bar h (hhex _) (hhex _)
  obtain ⟨htext, hdebits⟩ := eq_of_append_bar h (hhex _) (hhex _)
  exact ⟨htext, hdebits, hcredits, headHash_eq_of_getD hj hj' hhead, toString_injective htime⟩

/-- Short of a collision a hash stands for the message it was made from. -/
theorem message_eq_of_sha256Hex {inputs : List Bytes} (hfree : ¬ Collision x.sha256 inputs)
    {m m' : Bytes} (hm : m ∈ inputs) (hm' : m' ∈ inputs) (h : x.sha256Hex m = x.sha256Hex m') :
    m = m' :=
  eq_of_hash_eq hfree hm hm' (x.sha256_eq_of_sha256Hex_eq h)

theorem hashedTexts_concat (x : Crypto) (entries : List JournalEntry) (e : JournalEntry) :
    hashedTexts x (entries ++ [e]) = hashedTexts x entries ++ hashedTexts x [e] := by
  simp [hashedTexts]

/-- One head, and cuts at the same places: the same journal. -/
theorem entries_eq_of_headHash (hhex : ∀ b, '|' ∉ (x.hexEncode b).toList)
    (hj : Journaled x entries) (hj' : Journaled x entries')
    (hhead : headHash entries = headHash entries') (hcuts : SameCuts entries entries')
    (hfree : ¬ Collision x.sha256 (hashedTexts x entries ++ hashedTexts x entries')) :
    entries = entries' := by
  induction entries using List.reverseRecOn generalizing entries' with
  | nil =>
    rcases headHash_eq hj' with ⟨_, hnil⟩ | ⟨m, hm⟩
    · rw [hnil]
    · rw [hm] at hhead
      cases hhead
  | append_singleton before e ih =>
    rcases List.eq_nil_or_concat entries' with rfl | ⟨before', e', rfl⟩
    · rw [headHash_concat] at hhead
      cases hhead
    rw [List.concat_eq_append] at *
    obtain ⟨hbefore, hfollows⟩ := journaled_concat.mp hj
    obtain ⟨hbefore', hfollows'⟩ := journaled_concat.mp hj'
    have hmem : hashedTexts x [e] ⊆
        hashedTexts x (before ++ [e]) ++ hashedTexts x (before' ++ [e']) := by
      rw [hashedTexts_concat]
      intro m hm
      exact List.mem_append_left _ (List.mem_append_right _ hm)
    have hmem' : hashedTexts x [e'] ⊆
        hashedTexts x (before ++ [e]) ++ hashedTexts x (before' ++ [e']) := by
      rw [hashedTexts_concat x before' e']
      intro m hm
      exact List.mem_append_right _ (List.mem_append_right _ hm)
    -- The heads are hashes of the last entries' texts.
    rw [headHash_concat, headHash_concat, Option.some.injEq, hfollows.entryHash_eq,
      hfollows'.entryHash_eq] at hhead
    have hmaterial := utf8_inj.mp (message_eq_of_sha256Hex hfree
      (hmem (by simp [hashedTexts])) (hmem' (by simp [hashedTexts])) hhead)
    obtain ⟨htext, hdebits, hcredits, hheads, htime⟩ :=
      entryMaterial_inj hhex hbefore hbefore' hfollows hfollows' hmaterial
    have hsame : before = before' := by
      refine ih hbefore hbefore' hheads hcuts.of_concat fun hc => hfree (hc.mono ?_)
      rw [hashedTexts_concat, hashedTexts_concat]
      intro m hm
      rcases List.mem_append.mp hm with hm | hm
      · exact List.mem_append_left _ (List.mem_append_left _ hm)
      · exact List.mem_append_right _ (List.mem_append_left _ hm)
    subst hsame
    have hlength : e.entryId.length = e'.entryId.length :=
      hcuts before.length e e' List.getElem?_concat_length List.getElem?_concat_length
    obtain ⟨hid, hsequence, hdescription⟩ := entryText_inj htext hlength
    have hdebits' := postings_inj (message_eq_of_sha256Hex hfree
      (hmem (by simp [hashedTexts])) (hmem' (by simp [hashedTexts])) hdebits)
    have hcredits' := postings_inj (message_eq_of_sha256Hex hfree
      (hmem (by simp [hashedTexts])) (hmem' (by simp [hashedTexts])) hcredits)
    have hhash : e.entryHash = e'.entryHash := by
      rw [hfollows.entryHash_eq, hfollows'.entryHash_eq, hmaterial]
    have hprevious : e.previousEntryHash = e'.previousEntryHash := by
      rw [hfollows.previous, hfollows'.previous]
    have hentry : e = e' := by
      cases e
      cases e'
      rw [JournalEntry.mk.injEq]
      exact ⟨hid, hsequence, hdescription, hdebits', hcredits', htime, hhash, hprevious⟩
    rw [hentry]

end Chain

/-- **What a head commits to.** Two ledgers with one head have the same entries, short of a
collision among the messages they hashed, exactly when the ids of their entries are cut
at the same places. (Hexadecimal text has no bars.) -/
theorem headHash_commits_iff {x : Crypto} (hhex : ∀ b, '|' ∉ (x.hexEncode b).toList)
    (order order' : HashOrder) (l l' : List JournalEntry)
    (hhead : headHash (run (postEntry x) l (new order)).entries =
      headHash (run (postEntry x) l' (new order')).entries) :
    let entries := (run (postEntry x) l (new order)).entries
    let entries' := (run (postEntry x) l' (new order')).entries
    let collision := Collision x.sha256 (hashedTexts x entries ++ hashedTexts x entries')
    entries = entries' ∨ collision ↔ SameCuts entries entries' ∨ collision := by
  intro entries entries' collision
  constructor
  · intro h
    refine h.imp_left fun hsame i e e' he he' => ?_
    rw [hsame, he'] at he
    cases he
    rfl
  · intro h
    by_cases hc : collision
    · exact .inr hc
    · exact .inl (entries_eq_of_headHash hhex (journaled_run x order l) (journaled_run x order' l')
        hhead (h.resolve_right hc) hc)

/-! ### Cuts at other places -/

theorem bar_not_mem_toHex (b : Bytes) : '|' ∉ (Lib.Digest.toHex b).toList := by
  have hdigit : ∀ n < 16, Lib.Digest.hexDigit n ≠ '|' := by decide
  rw [Lib.Digest.toHex, String.toList_ofList]
  induction b with
  | nil => exact List.not_mem_nil
  | cons v rest ih =>
    have hv : v.toNat < 256 := v.toNat_lt
    rw [Lib.Digest.hexChars, List.mem_cons, List.mem_cons, not_or, not_or]
    exact ⟨(hdigit _ (by omega)).symm, (hdigit _ (by omega)).symm, ih⟩

/-- A deposit on top of the first one. -/
def nextDeposit (x : Crypto) : JournalEntry :=
  { deposit x 500 with
    entryId := "next"
    sequence := 1
    entryHash := JournalEntry.computeEntryHash x "next" 1 "" (deposit x 500).debits
      (deposit x 500).credits 0 (some (deposit x 1000).entryHash)
    previousEntryHash := some (deposit x 1000).entryHash }

theorem entries_nextDeposit (x : Crypto) :
    (run (postEntry x) [deposit x 1000, nextDeposit x] (new declarationOrder)).entries =
      [deposit x 1000, nextDeposit x] := by
  have hfollows : Follows x (afterDeposit x).entries (nextDeposit x) := by
    rw [entries_afterDeposit]
    exact ⟨List.cons_ne_nil _ _, List.cons_ne_nil _ _, rfl, rfl, rfl, rfl⟩
  have hbalanced : (afterDeposit x).balances =
      book declarationOrder (journalTotal (afterDeposit x).entries) := by
    rw [afterDeposit_eq]
    rfl
  have hknown : (afterDeposit x).receipts.lookup "next" = none := by
    rw [afterDeposit_eq]
    rfl
  have hpost := postEntry_of_sides hbalanced hknown (validateEntry_ok.mpr hfollows) ?_ ?_
  · rw [commit_eq] at hpost
    show (after (postEntry x (nextDeposit x)) (afterDeposit x)).entries = _
    rw [after_ok hpost, appended, entries_afterDeposit]
    rfl
  · rw [entries_afterDeposit]
    intro side acc
    cases side <;> cases acc <;>
      simp [journalTotal, postings, deposit, nextDeposit, firstEntry, postedTo]
  · rw [entries_afterDeposit]
    intro acc
    cases acc <;>
      simp [OnSide, journalTotal, postings, deposit, nextDeposit, firstEntry, postedTo,
        StandardAccount.accountClass]

/-- Two deposits, and the same with the first of them posted again before the second. -/
theorem headHash_commits_deposit :
    let x := Crypto.recorded []
    let once := run (postEntry x) [deposit x 1000, nextDeposit x] (new declarationOrder)
    let twice := run (postEntry x) [deposit x 1000, deposit x 1000, nextDeposit x]
      (new declarationOrder)
    once.entries.length = 2 ∧ headHash once.entries = headHash twice.entries ∧
      (once.entries = twice.entries ∨
        Collision x.sha256 (hashedTexts x once.entries ++ hashedTexts x twice.entries)) := by
  have hhex : ∀ b, '|' ∉ ((Crypto.recorded []).hexEncode b).toList := bar_not_mem_toHex
  generalize Crypto.recorded [] = x at hhex ⊢
  have htwice : run (postEntry x) [deposit x 1000, deposit x 1000, nextDeposit x]
      (new declarationOrder) =
      run (postEntry x) [deposit x 1000, nextDeposit x] (new declarationOrder) :=
    congrArg (run (postEntry x) [nextDeposit x]) (after_ok (postEntry_afterDeposit x 1000))
  have hhead := congrArg (fun inner => headHash inner.entries) htwice.symm
  refine ⟨congrArg List.length (entries_nextDeposit x), hhead,
    (headHash_commits_iff hhex declarationOrder declarationOrder [deposit x 1000, nextDeposit x]
      [deposit x 1000, deposit x 1000, nextDeposit x] hhead).mpr (.inl fun i e e' he he' => ?_)⟩
  rw [htwice, he] at he'
  cases he'
  rfl

/-- A deposit under an id, with a description. -/
def depositAs (x : Crypto) (entryId description : String) : JournalEntry :=
  { deposit x 1000 with
    entryId
    description
    entryHash := JournalEntry.computeEntryHash x entryId 0 description (deposit x 1000).debits
      (deposit x 1000).credits 0 none }

theorem follows_depositAs (x : Crypto) (entryId description : String) :
    Follows x (new declarationOrder).entries (depositAs x entryId description) where
  debits := List.cons_ne_nil _ _
  credits := List.cons_ne_nil _ _
  balanced := rfl
  sequence := rfl
  entryHash := rfl
  previous := rfl

theorem replay_depositAs (x : Crypto) (entryId description : String) :
    ∃ inner, replay (postEntry x) [depositAs x entryId description] (new declarationOrder) =
      .ok () inner ∧ inner.entries = [depositAs x entryId description] := by
  have hpost := postEntry_of_sides (sound_new declarationOrder).balanced rfl
    (validateEntry_ok.mpr (follows_depositAs x entryId description))
    (inRange_firstEntry x "deposit" _ _) (onSide_firstEntry x "deposit" 1000)
  exact ⟨_, replay_cons_ok.mpr ⟨_, _, hpost, rfl⟩, rfl⟩

/-- Two ledgers with one head whose entries have different ids, without a collision. -/
theorem moved_bar_keeps_head :
    let x := Crypto.recorded []
    let entry := depositAs x "a" "0|x"
    let entry' := depositAs x "a|0" "x"
    ∃ inner inner', replay (postEntry x) [entry] (new declarationOrder) = .ok () inner ∧
      replay (postEntry x) [entry'] (new declarationOrder) = .ok () inner' ∧
      headHash inner.entries = headHash inner'.entries ∧ headHash inner.entries ≠ none ∧
      inner.entries ≠ inner'.entries ∧
      ¬ Collision x.sha256 (hashedTexts x inner.entries ++ hashedTexts x inner'.entries) := by
  intro x entry entry'
  obtain ⟨inner, hreplay, hentries⟩ := replay_depositAs x "a" "0|x"
  obtain ⟨inner', hreplay', hentries'⟩ := replay_depositAs x "a|0" "x"
  have htext : entryText entry = entryText entry' := by decide
  have hmaterial : entryMaterial x entry = entryMaterial x entry' := by
    rw [entryMaterial, entryMaterial, htext]
    rfl
  have hhash : entry.entryHash = entry'.entryHash := by
    rw [(follows_depositAs x "a" "0|x").entryHash_eq, (follows_depositAs x "a|0" "x").entryHash_eq,
      hmaterial]
  have hmessages : hashedTexts x [entry'] = hashedTexts x [entry] := by
    simp only [hashedTexts, List.flatMap_cons, List.flatMap_nil, hmaterial]
    rfl
  have hfirst : (hashedTexts x [entry]).map (fun m => (x.sha256 m).head) = [49, 59, 243] := by
    decide +kernel
  refine ⟨inner, inner', hreplay, hreplay', ?_, ?_, ?_, ?_⟩
  · rw [hentries, hentries']
    exact congrArg some hhash
  · rw [hentries]
    exact Option.some_ne_none _
  · rw [hentries, hentries']
    intro h
    have hids := congrArg (List.map JournalEntry.entryId) h
    exact absurd hids (by decide)
  · rw [hentries, hentries', hmessages]
    intro hc
    refine not_collision_of_nodup Vector.head ?_ hc.of_append_self
    rw [hfirst]
    decide

end Kerosene.Ledger.InMemoryLedger
