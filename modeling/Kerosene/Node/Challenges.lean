import Kerosene.Lib.Records
import Kerosene.Node.Readiness

/-! Challenges over whole runs (`kerosene-discovery`).

Any number of authenticators answer hellos against one store of challenges, at times that
the callers supply and that may go backwards. A hello that fails a check of its own
leaves the store alone; any other takes its challenge out, whatever comes of it
(`authenticate_cases`). So a challenge that is issued once is answered once, within its
time to live. -/
namespace Kerosene.Node

open Lib.Encode Lib.Inplace Lib.Records Lib.Tables Lib.Word Ledger

/-! ### What one call does -/

/-- The errors of the checks made before the challenge is looked up. -/
def DiscoveryError.beforeChallenge : DiscoveryError → Bool
  | .scopeMismatch | .clockSkew | .invalidEndpoint | .identity _ => true
  | _ => false

namespace ChallengeStore

/-- The challenges that have not expired. -/
def live (c : ChallengeStore) (now : UInt64) : Table String UInt64 :=
  retain (fun _ expiresAt => decide (now ≤ expiresAt)) c.pending

theorem lookup_live {c : ChallengeStore} {now expiresAt : UInt64} {challenge : String} :
    (c.live now).lookup challenge = some expiresAt ↔
      c.pending.lookup challenge = some expiresAt ∧ now ≤ expiresAt := by
  rw [live, lookup_retain, decide_eq_true_iff]

/-- The store after a challenge was taken out. -/
def without (c : ChallengeStore) (challenge : String) (now : UInt64) : ChallengeStore :=
  { c with pending := (c.live now).erase challenge }

theorem lookup_without_self (c : ChallengeStore) (challenge : String) (now : UInt64) :
    (c.without challenge now).pending.lookup challenge = none :=
  Finmap.lookup_erase _ _

/-- Nothing is added. -/
theorem lookup_without {c : ChallengeStore} {challenge other : String} {now expiresAt : UInt64}
    (h : (c.without challenge now).pending.lookup other = some expiresAt) :
    c.pending.lookup other = some expiresAt := by
  by_cases hother : other = challenge
  · rw [hother, lookup_without_self] at h
    cases h
  · have hlive : (c.live now).lookup other = some expiresAt := by
      rw [← h]
      exact (Finmap.lookup_erase_ne hother).symm
    exact (lookup_live.mp hlive).1

theorem consume_eq (challenge : String) (now : UInt64) (c : ChallengeStore) :
    consume challenge now c =
      match (c.live now).lookup challenge with
      | some _ => .ok () (c.without challenge now)
      | none => .error .challengeRejected (c.without challenge now) := by
  unfold consume
  simp only [bind_def, get_def, set_def]
  show (match (c.live now).lookup challenge with
    | some expiresAt => check (refuse (expiresAt < now) .challengeRejected)
    | none => throw .challengeRejected : EStateM DiscoveryError ChallengeStore Unit)
      (c.without challenge now) = _
  cases hlive : (c.live now).lookup challenge with
  | none => rfl
  | some expiresAt =>
    have hok : refuse (expiresAt < now) DiscoveryError.challengeRejected = .ok () :=
      refuse_ok.mpr (UInt64.not_lt.mpr (lookup_live.mp hlive).2)
    simp only [hok, check_ok]

end ChallengeStore

/-- Everything a call can do. -/
theorem authenticate_cases (x : Crates) (a : PeerAuthenticator) (membership : MembershipVerifier)
    (hello : PeerHelloV1) (now : UInt64) (c : ChallengeStore) :
    (∃ e, a.authenticate x membership hello now c = .error e c) ∨
      (∃ e, a.authenticate x membership hello now c =
        .error e (c.without hello.challenge now) ∧ e.beforeChallenge = false) ∨
      (∃ peer expiresAt, a.authenticate x membership hello now c =
          .ok peer (c.without hello.challenge now) ∧
        c.pending.lookup hello.challenge = some expiresAt ∧ now ≤ expiresAt) := by
  cases hexamine : a.examine x hello now with
  | error e =>
    refine .inl ⟨e, ?_⟩
    simp only [PeerAuthenticator.authenticate, bind_def, hexamine, check_error]
  | ok u =>
    have hconsume := ChallengeStore.consume_eq hello.challenge now c
    cases hlive : (c.live now).lookup hello.challenge with
    | none =>
      rw [hlive] at hconsume
      refine .inr (.inl ⟨.challengeRejected, ?_, rfl⟩)
      simp only [PeerAuthenticator.authenticate, bind_def, hexamine, check_ok, hconsume]
    | some expiresAt =>
      rw [hlive] at hconsume
      obtain ⟨hpending, hle⟩ := ChallengeStore.lookup_live.mp hlive
      cases hmember : membership.isMember hello.memberId hello.rootPublicKey with
      | false =>
        refine .inr (.inl ⟨.notMember, ?_, rfl⟩)
        simp only [PeerAuthenticator.authenticate, bind_def, hexamine, check_ok, hconsume, hmember,
          refuse, if_true, check_error]
      | true =>
        refine .inr (.inr ⟨⟨hello.memberId, hello.plane, hello.rootPublicKey, hello.endpoint, now⟩,
          expiresAt, ?_, hpending, hle⟩)
        simp only [PeerAuthenticator.authenticate, bind_def, hexamine, check_ok, hconsume, hmember,
          refuse, Bool.true_eq_false, if_false, pure_def]

/-! ### Runs -/

/-- A call on the store: a challenge is issued, or a hello answered by some authenticator
under the membership it finds. -/
inductive ChallengeCall where
  | issue (bytes : Vector UInt8 32) (now : UInt64)
  | authenticate (a : PeerAuthenticator) (membership : MembershipVerifier) (hello : PeerHelloV1)
    (now : UInt64)

namespace ChallengeCall

inductive Reply where
  | challenge (text : String)
  | peer (peer : AuthenticatedPeer)

variable (x : Crates)

def perform : ChallengeCall → EStateM DiscoveryError ChallengeStore Reply
  | .issue bytes now => modifyGet fun c =>
    let (challenge, c) := c.issue x bytes now
    (.challenge challenge, c)
  | .authenticate a membership hello now => .peer <$> a.authenticate x membership hello now

/-- The challenge a call issues. -/
def issues : ChallengeCall → Option String
  | .issue bytes _ => some (x.hexEncode bytes.toList)
  | .authenticate .. => none

/-- A call that answers a hello for the challenge. -/
def answers (challenge : String) : ChallengeCall → Bool
  | .issue .. => false
  | .authenticate _ _ hello _ => hello.challenge == challenge

/-- The challenges issued in a run. -/
def issued (l : List ChallengeCall) : List String := l.filterMap (issues x)

variable {x} {call : ChallengeCall} {c c' : ChallengeStore} {challenge : String}

theorem after_authenticate (a : PeerAuthenticator) (membership : MembershipVerifier)
    (hello : PeerHelloV1) (now : UInt64) (c : ChallengeStore) :
    after ((authenticate a membership hello now).perform x) c = c ∨
      after ((authenticate a membership hello now).perform x) c = c.without hello.challenge now := by
  rw [perform, Lib.Simulation.after_map]
  rcases authenticate_cases x a membership hello now c with
    ⟨e, h⟩ | ⟨e, h, _⟩ | ⟨peer, expiresAt, h, _⟩
  · exact .inl (after_error h)
  · exact .inr (after_error h)
  · exact .inr (after_ok h)

/-- What is pending was pending before, or has just been issued. -/
theorem pending_of_perform {expiresAt : UInt64}
    (h : (after (call.perform x) c).pending.lookup challenge = some expiresAt) :
    c.pending.lookup challenge = some expiresAt ∨
      ∃ bytes now, call = .issue bytes now ∧ x.hexEncode bytes.toList = challenge ∧
        expiresAt = saturatingAdd now c.ttlMs := by
  cases call with
  | issue bytes now =>
    change (c.pending.insert (x.hexEncode bytes.toList) (saturatingAdd now c.ttlMs)).lookup
      challenge = some expiresAt at h
    by_cases hsame : challenge = x.hexEncode bytes.toList
    · rw [hsame, Finmap.lookup_insert, Option.some.injEq] at h
      exact .inr ⟨bytes, now, rfl, hsame.symm, h.symm⟩
    · rw [Finmap.lookup_insert_of_ne _ hsame] at h
      exact .inl h
  | authenticate a membership hello now =>
    rcases after_authenticate (x := x) a membership hello now c with hsame | hwithout
    · rw [hsame] at h
      exact .inl h
    · rw [hwithout] at h
      exact .inl (ChallengeStore.lookup_without h)

theorem ttlMs_perform (call : ChallengeCall) (c : ChallengeStore) :
    (after (call.perform x) c).ttlMs = c.ttlMs := by
  cases call with
  | issue bytes now => rfl
  | authenticate a membership hello now =>
    rcases after_authenticate (x := x) a membership hello now c with h | h
    · rw [h]
    · rw [h]
      rfl

/-- A challenge that is gone comes back only when it is issued. -/
theorem gone_perform (h : c.pending.lookup challenge = none) (hno : call.issues x ≠ some challenge) :
    (after (call.perform x) c).pending.lookup challenge = none := by
  cases hlookup : (after (call.perform x) c).pending.lookup challenge with
  | none => rfl
  | some expiresAt =>
    rcases pending_of_perform hlookup with hold | ⟨bytes, now, rfl, hissued, _⟩
    · rw [h] at hold
      cases hold
    · exact absurd (congrArg some hissued) hno

/-- An answer that is accepted finds the challenge pending and takes it out. -/
theorem accepted_perform {r : Reply} (hanswers : call.answers challenge = true)
    (h : call.perform x c = .ok r c') :
    c.pending.lookup challenge ≠ none ∧ c'.pending.lookup challenge = none := by
  cases call with
  | issue bytes now => cases hanswers
  | authenticate a membership hello now =>
    have hchallenge : hello.challenge = challenge := beq_iff_eq.mp hanswers
    subst hchallenge
    rw [perform, ← bind_pure_comp, bind_ok] at h
    obtain ⟨peer, t, hauth, hpure⟩ := h
    cases hpure
    rcases authenticate_cases x a membership hello now c with
      ⟨e, herror⟩ | ⟨e, herror, _⟩ | ⟨peer', expiresAt, hok, hpending, _⟩
    · rw [hauth] at herror
      cases herror
    · rw [hauth] at herror
      cases herror
    · rw [hauth] at hok
      cases hok
      rw [hpending]
      exact ⟨Option.some_ne_none _, ChallengeStore.lookup_without_self c hello.challenge now⟩

/-! ### Accepted once -/

/-- While a challenge is not issued it is accepted at most once, and never when it is gone. -/
theorem countOk_of_not_issued {l : List ChallengeCall} (hl : challenge ∉ issued x l)
    (c : ChallengeStore) :
    countOk (perform x) (answers challenge) l c ≤ 1 ∧
      (c.pending.lookup challenge = none → countOk (perform x) (answers challenge) l c = 0) := by
  let level (c : ChallengeStore) : ℕ := if c.pending.lookup challenge = none then 1 else 0
  have hlevel {c : ChallengeStore} (hgone : c.pending.lookup challenge = none) : 0 < level c := by
    simp only [level, if_pos hgone, Nat.one_pos]
  have hrule : ∀ call ∈ l, call.issues x ≠ some challenge := fun call hcall hissues =>
    hl (List.mem_filterMap.mpr ⟨call, hcall, hissues⟩)
  have hmono : ∀ c (call : ChallengeCall), call.issues x ≠ some challenge →
      level c ≤ level (after (call.perform x) c) := by
    intro c call hno
    by_cases hgone : c.pending.lookup challenge = none
    · simp only [level, if_pos hgone, if_pos (gone_perform hgone hno), le_refl]
    · simp only [level, if_neg hgone, Nat.zero_le]
  have hcount := countOk_le_one level 0 hmono
    (fun c call r c' _ hanswers hok => by
      obtain ⟨hpending, hgone⟩ := accepted_perform hanswers hok
      exact ⟨if_neg hpending, hlevel hgone⟩)
    l c (admissible_of_forall hrule c)
  exact ⟨hcount.1, fun hgone => hcount.2 (hlevel hgone)⟩

/-- A challenge that is issued at most once is accepted at most once. -/
theorem countOk_le_one_of_nodup {l : List ChallengeCall} (hl : (issued x l).Nodup)
    {c : ChallengeStore} (hgone : c.pending.lookup challenge = none) :
    countOk (perform x) (answers challenge) l c ≤ 1 := by
  induction l generalizing c with
  | nil => exact Nat.zero_le 1
  | cons call rest ih =>
    have hrest : (issued x rest).Nodup :=
      hl.sublist (List.Sublist.filterMap _ (List.sublist_cons_self call rest))
    by_cases hissues : call.issues x = some challenge
    · -- Issuing is no answer, and the challenge is not issued again.
      have hnot : challenge ∉ issued x rest := by
        rw [issued, List.filterMap_cons_some hissues] at hl
        exact (List.nodup_cons.mp hl).1
      have hcall : call.answers challenge = false := by
        cases call with
        | issue bytes now => rfl
        | authenticate => cases hissues
      rw [countOk_cons_of_not fun _ _ _ => hcall]
      exact (countOk_of_not_issued hnot _).1
    · have hrefused : ∀ r c', call.perform x c = .ok r c' → call.answers challenge = false := by
        intro r c' hok
        by_contra hanswers
        exact (accepted_perform (Bool.not_eq_false _ ▸ hanswers) hok).1 hgone
      rw [countOk_cons_of_not hrefused]
      exact ih hrest (gone_perform hgone hissues)

/-! ### Accepted in time -/

/-- Every challenge pending was issued, and expires when its time to live has passed. -/
def Provenance (x : Crates) (ttlMs : UInt64) (history : List ChallengeCall) (c : ChallengeStore) :
    Prop :=
  c.ttlMs = ttlMs ∧ ∀ challenge expiresAt, c.pending.lookup challenge = some expiresAt →
    ∃ bytes t, .issue bytes t ∈ history ∧ x.hexEncode bytes.toList = challenge ∧
      expiresAt = saturatingAdd t ttlMs

theorem Provenance.perform {ttlMs : UInt64} {history : List ChallengeCall}
    (h : Provenance x ttlMs history c) (call : ChallengeCall) :
    Provenance x ttlMs (history ++ [call]) (after (call.perform x) c) := by
  refine ⟨(ttlMs_perform call c).trans h.1, fun challenge expiresAt hlookup => ?_⟩
  rcases pending_of_perform hlookup with hold | ⟨bytes, t, rfl, hbytes, hexpires⟩
  · obtain ⟨bytes, t, hmem, hrest⟩ := h.2 challenge expiresAt hold
    exact ⟨bytes, t, List.mem_append_left _ hmem, hrest⟩
  · rw [h.1] at hexpires
    exact ⟨bytes, t, List.mem_append_right _ List.mem_cons_self, hbytes, hexpires⟩

theorem provenance_run (x : Crates) (ttlMs : UInt64) (l : List ChallengeCall) :
    Provenance x (max ttlMs 1) l (run (ChallengeCall.perform x) l (.new ttlMs)) := by
  induction l using List.reverseRecOn with
  | nil => exact ⟨rfl, fun _ _ h => nomatch h⟩
  | append_singleton before call ih =>
    rw [run_append]
    exact ih.perform call

end ChallengeCall

open ChallengeCall

/-- **Challenges are single-use.** Over every run of calls on a new store in which no
challenge is issued twice: each is accepted at most once, and only within its time to live
after it was issued; and a hello refused for its scope, its time, its endpoint or its
signature leaves the store as it was. -/
theorem challenges_single_use (x : Crates) (ttlMs : UInt64) (l : List ChallengeCall)
    (hl : (issued x l).Nodup) :
    (∀ challenge, countOk (perform x) (answers challenge) l (.new ttlMs) ≤ 1) ∧
      (∀ before a membership hello now later peer,
        l = before ++ .authenticate a membership hello now :: later →
        outcome (a.authenticate x membership hello now) (run (perform x) before (.new ttlMs)) =
          .ok peer →
        ∃ bytes t, .issue bytes t ∈ before ∧ x.hexEncode bytes.toList = hello.challenge ∧
          now ≤ saturatingAdd t (ChallengeStore.new ttlMs).ttlMs) ∧
      ∀ (a : PeerAuthenticator) membership hello now c e,
        outcome (a.authenticate x membership hello now) c = .error e → e.beforeChallenge = true →
        after (a.authenticate x membership hello now) c = c := by
  refine ⟨fun challenge => countOk_le_one_of_nodup hl rfl, ?_, ?_⟩
  · intro before a membership hello now later peer _ hok
    rcases authenticate_cases x a membership hello now (run (perform x) before (.new ttlMs)) with
      ⟨e, h⟩ | ⟨e, h, _⟩ | ⟨_, expiresAt, _, hpending, hle⟩
    · rw [outcome_error h] at hok
      cases hok
    · rw [outcome_error h] at hok
      cases hok
    · obtain ⟨bytes, t, hmem, hbytes, hexpires⟩ :=
        (provenance_run x ttlMs before).2 hello.challenge expiresAt hpending
      exact ⟨bytes, t, hmem, hbytes, hexpires ▸ hle⟩
  · intro a membership hello now c e herror hbefore
    rcases authenticate_cases x a membership hello now c with
      ⟨e', h⟩ | ⟨e', h, hnot⟩ | ⟨_, expiresAt, h, _⟩
    · exact after_error h
    · rw [outcome_error h] at herror
      cases herror
      rw [hbefore] at hnot
      cases hnot
    · rw [outcome_ok h] at herror
      cases herror

/-- Alice's answer to Bob's challenge is accepted, and it is not accepted again. -/
theorem challenges_single_use_alice :
    let x := Crates.plain helloRecord
    let answer := ChallengeCall.authenticate bobService.authenticator networkVerifier aliceHello 1000
    let calls := [.issue bobChallenge 1000, answer, answer]
    (∃ peer, outcome (bobService.authenticator.authenticate x networkVerifier aliceHello 1000)
        (run (perform x) [.issue bobChallenge 1000] (.new 60000)) = .ok peer) ∧
      countOk (perform x) (answers aliceHello.challenge) calls (.new 60000) ≤ 1 := by
  intro x answer calls
  have hpending : (run (perform x) [.issue bobChallenge 1000] (.new 60000)).pending.lookup
      aliceHello.challenge = some 61000 := Finmap.lookup_insert _
  obtain ⟨c, hc⟩ := authenticate_of_member examine_aliceHello hpending (by decide) alice_isMember
  have hissued : (issued x calls).Nodup := List.nodup_singleton _
  exact ⟨⟨_, outcome_ok hc⟩, (challenges_single_use x 60000 calls hissued).1 _⟩

end Kerosene.Node
