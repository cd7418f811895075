import Kerosene.Lib.Parties
import Kerosene.Node.Recognition

/-! Nodes that talk to each other (`kerosene-discovery`, `kerosene-node`).

Any number of nodes hand out challenges, sign hellos for challenges they are given and
accept hellos, in any order. What is sent to whom is up to the network, which may delay,
repeat, redirect and make up what it likes, except that it can neither sign for a node
(`Network.Unforged`) nor guess a challenge (`Fresh`). What a node accepts, it accepts for a
challenge of its own (`Network.Accepts.issued`), which is then gone (`Network.Accepts.gone`). -/
namespace Kerosene.Node

open Lib.Encode Lib.Inplace Lib.Parties Lib.Tables Lib.Word Ledger

/-- A hello without its signature. -/
def PeerHelloV1.unsigned (hello : PeerHelloV1) : PeerHelloV1 := { hello with signature := "" }

theorem PeerHelloV1.of_unsigned_eq {hello hello' : PeerHelloV1}
    (h : hello.unsigned = hello'.unsigned) :
    hello.challenge = hello'.challenge ∧ hello.issuedAtEpochMs = hello'.issuedAtEpochMs := by
  simp only [unsigned, PeerHelloV1.mk.injEq] at h
  exact ⟨h.2.2.2.2.2.1, h.2.2.2.2.2.2.1⟩

inductive NetworkEvent (ι : Type) where
  | serve (node : ι) (call : Call)
  /-- A node has fetched a challenge and signs the hello it will send
  (`TorHandshakeClient::exchange`). -/
  | initiate (node : ι) (challenge : String) (now : UInt64)

namespace NetworkEvent

variable {ι : Type}

def input : NetworkEvent ι → Option (ι × Call)
  | .serve i call => some (i, call)
  | .initiate .. => none

/-- The challenge an event issues. -/
def issues (x : Crates) : NetworkEvent ι → Option String
  | .serve _ (.issueChallenge bytes _) => some (x.hexEncode bytes.toList)
  | _ => none

/-- The challenge a node is asked to sign for. -/
def answers : NetworkEvent ι → Option String
  | .initiate _ challenge _ => some challenge
  | .serve _ (.exchangeHello request _ _) => some request.responseChallenge
  | _ => none

theorem eq_serve_of_input {e : NetworkEvent ι} {i : ι} {call : Call}
    (h : e.input = some (i, call)) : e = .serve i call := by
  cases e with
  | serve j c =>
    cases h
    rfl
  | initiate => cases h

end NetworkEvent

/-! ### Challenges of one node -/

namespace NodeService

variable {x : Crates} {svc : NodeService x} {s : NodeState}

@[simp] theorem activateIfQuorum_challenges (now : UInt64) (s : NodeState) :
    (svc.activateIfQuorum now s).challenges = s.challenges := by
  unfold activateIfQuorum
  dsimp only
  split_ifs <;> rfl

theorem perform_exchangeHello (request : HelloExchangeRequest) (now : UInt64)
    (store : StoreResults) :
    svc.perform (.exchangeHello request now store) s =
      after (svc.admitPeer request.hello now store) s := by
  show after (svc.exchangeHello request now store) s = _
  rw [exchangeHello, after_bind_pure]

/-- Whatever becomes of the peer, its hello is checked against the challenges. -/
theorem admitPeer_challenges {hello : PeerHelloV1} (hother : hello.memberId ≠ svc.identity.memberId)
    (now : UInt64) (store : StoreResults) :
    (after (svc.admitPeer hello now store) s).challenges =
      after (svc.authenticator.authenticate x s.membership hello now) s.challenges := by
  have hself : refuse (hello.memberId = svc.identity.memberId) DiscoveryError.selfConnection =
      .ok () := refuse_ok.mpr hother
  rw [admitPeer, hself, after_check_bind]
  simp only [after, bind_def, authenticate]
  cases svc.authenticator.authenticate x s.membership hello now s.challenges with
  | error e c => rfl
  | ok peer c =>
    cases store.upserted with
    | error e => rfl
    | ok u =>
      simp only [check_ok]
      cases recordSuccess x peer.endpoint store.recorded with
      | error e => rfl
      | ok u => exact activateIfQuorum_challenges now _

/-- A call with a hello does to the challenges what the authenticator does. -/
theorem perform_hello {call : Call} {hello : PeerHelloV1} {now : UInt64}
    (hcall : call.hello? = some (hello, now)) (hother : hello.memberId ≠ svc.identity.memberId) :
    (svc.perform call s).challenges =
      after (svc.authenticator.authenticate x s.membership hello now) s.challenges := by
  cases call with
  | observePeer hello' now' store =>
    cases hcall
    exact admitPeer_challenges hother now store
  | exchangeHello request now' store =>
    cases hcall
    rw [perform_exchangeHello, admitPeer_challenges hother]
  | issueChallenge => cases hcall
  | acceptMembership => cases hcall
  | verifyStateSnapshot => cases hcall
  | readiness => cases hcall

theorem admitPeer_self {hello : PeerHelloV1} (hself : hello.memberId = svc.identity.memberId)
    (now : UInt64) (store : StoreResults) : after (svc.admitPeer hello now store) s = s := by
  have hrefused : refuse (hello.memberId = svc.identity.memberId) DiscoveryError.selfConnection =
      .error .selfConnection := if_pos hself
  rw [admitPeer, hrefused, after_check_bind]

variable (svc s) in
/-- A call leaves the challenges, issues one, or answers a hello. -/
theorem perform_challenges (call : Call) :
    (svc.perform call s).challenges = s.challenges ∨
      ∃ c : ChallengeCall, (svc.perform call s).challenges = after (c.perform x) s.challenges ∧
        ∀ bytes now, c = .issue bytes now → call = .issueChallenge bytes now := by
  have hadmit : ∀ (call : Call) (hello : PeerHelloV1) (now : UInt64) (store : StoreResults),
      (after (svc.admitPeer hello now store) s).challenges = s.challenges ∨
        ∃ c : ChallengeCall, (after (svc.admitPeer hello now store) s).challenges =
            after (c.perform x) s.challenges ∧
          ∀ bytes t, c = .issue bytes t → call = .issueChallenge bytes t := by
    intro call hello now store
    by_cases hself : hello.memberId = svc.identity.memberId
    · rw [admitPeer_self hself]
      exact .inl rfl
    · refine .inr ⟨.authenticate svc.authenticator s.membership hello now, ?_, ?_⟩
      · rw [admitPeer_challenges hself, ChallengeCall.perform, Lib.Simulation.after_map]
      · intro bytes t h
        cases h
  cases call with
  | issueChallenge bytes now =>
    refine .inr ⟨.issue bytes now, rfl, fun bytes' now' h => ?_⟩
    cases h
    rfl
  | observePeer hello now store =>
    exact hadmit _ hello now store
  | exchangeHello request now store =>
    rw [perform_exchangeHello]
    exact hadmit _ request.hello now store
  | acceptMembership manifest appended now =>
    left
    simp only [perform, after, acceptMembership, bind_def, get_def]
    split_ifs with hknown
    · rfl
    · simp only [acceptMembership.candidateOf, bind_def]
      cases MembershipVerifier.accept x manifest s.membership with
      | error e v => rfl
      | ok u candidate =>
        cases appended with
        | error e => rfl
        | ok u => exact activateIfQuorum_challenges now _
  | verifyStateSnapshot snapshot saved now =>
    left
    by_cases hpassed : snapshot.verify x.toCrypto = .ok () ∧ s.lifecycle.state = .syncing
    · obtain ⟨l, _, _, hcall⟩ := svc.verifyStateSnapshot_syncing hpassed.1 hpassed.2 saved now
      cases saved with
      | error e =>
        rw [perform, after_error hcall]
      | ok u =>
        rw [perform, after_ok hcall, activateIfQuorum_challenges]
    · obtain ⟨e, he⟩ := svc.verifyStateSnapshot_refused hpassed saved now
      rw [perform, after_error he]
  | readiness now => exact .inl rfl

variable (svc) in
theorem run_ttlMs (calls : List Call) (start : NodeState) :
    (svc.run calls start).challenges.ttlMs = start.challenges.ttlMs := by
  induction calls using List.reverseRecOn with
  | nil => rfl
  | append_singleton calls call ih =>
    rw [run_append_singleton, ← ih]
    rcases perform_challenges svc (svc.run calls start) call with hsame | ⟨c, hc, _⟩
    · rw [hsame]
    · rw [hc, ChallengeCall.ttlMs_perform]

/-- The calls of a run that issued what is pending after it. -/
theorem pending_of_run (calls : List Call) {start : NodeState} {challenge : String}
    {expiresAt : UInt64} (hstart : start.challenges.pending.lookup challenge = none)
    (h : (svc.run calls start).challenges.pending.lookup challenge = some expiresAt) :
    ∃ before bytes t later, calls = before ++ .issueChallenge bytes t :: later ∧
      x.hexEncode bytes.toList = challenge ∧
      expiresAt = saturatingAdd t start.challenges.ttlMs := by
  induction calls using List.reverseRecOn with
  | nil =>
    rw [run_nil, hstart] at h
    cases h
  | append_singleton calls call ih =>
    -- Pending before this call, or issued by it.
    have hcases : (svc.run calls start).challenges.pending.lookup challenge = some expiresAt ∨
        ∃ bytes t, call = .issueChallenge bytes t ∧ x.hexEncode bytes.toList = challenge ∧
          expiresAt = saturatingAdd t (svc.run calls start).challenges.ttlMs := by
      rw [run_append_singleton] at h
      rcases perform_challenges svc (svc.run calls start) call with
        hsame | ⟨c, hc, hissue⟩
      · rw [hsame] at h
        exact .inl h
      · rw [hc] at h
        refine (ChallengeCall.pending_of_perform h).imp_right fun hissued => ?_
        obtain ⟨bytes, t, rfl, hrest⟩ := hissued
        exact ⟨bytes, t, hissue bytes t rfl, hrest⟩
    rcases hcases with hold | ⟨bytes, t, rfl, hbytes, hexpires⟩
    · obtain ⟨before, bytes, t, later, rfl, hrest⟩ := ih hold
      exact ⟨before, bytes, t, later ++ [call], by simp, hrest⟩
    · rw [run_ttlMs] at hexpires
      exact ⟨calls, bytes, t, [], rfl, hbytes, hexpires⟩

end NodeService

/-! ### The network -/

/-- Nodes as they come out of `new`. -/
structure Network (x : Crates) (ι : Type) where
  service : ι → NodeService x
  start : ι → NodeState
  started : ∀ i, ∃ membership manifests file saved challengeTtlMs window,
    NodeService.new (service i).identity (service i).endpoint (service i).plane membership manifests
      file saved challengeTtlMs window = .ok (service i, start i)

namespace Network

variable {x : Crates} {ι : Type} [DecidableEq ι] (net : Network x ι)

def run (events : List (NetworkEvent ι)) : ι → NodeState :=
  Lib.Parties.run NetworkEvent.input (fun i => (net.service i).perform) events net.start

/-- A node sees no more than the calls made on it. -/
theorem run_apply (events : List (NetworkEvent ι)) (i : ι) :
    net.run events i = (net.service i).run (inputs NetworkEvent.input i events) (net.start i) :=
  Lib.Parties.run_apply events net.start i

theorem run_append (a b : List (NetworkEvent ι)) (i : ι) :
    net.run (a ++ b) i = (net.service i).run (inputs NetworkEvent.input i b) (net.run a i) := by
  rw [run_apply, run_apply, inputs, List.filterMap_append, NodeService.run, List.foldl_append]
  rfl

/-- The hello an event has a node sign. -/
def signs (c : ι → NodeState) : NetworkEvent ι → Option (ι × PeerHelloV1)
  | .initiate i challenge now =>
    some (i, (net.service i).identity.signHello challenge (net.service i).endpoint now)
  | .serve i (.exchangeHello request now store) =>
    match outcome ((net.service i).exchangeHello request now store) (c i) with
    | .ok hello => some (i, hello)
    | .error _ => none
  | _ => none

/-- The event is a call that presents a hello to a node, and the node accepts it. -/
def Accepts (c : ι → NodeState) (e : NetworkEvent ι) (i : ι) (hello : PeerHelloV1) (now : UInt64) :
    Prop :=
  ∃ call peer challenges, e = .serve i call ∧ call.hello? = some (hello, now) ∧
    hello.memberId ≠ (net.service i).identity.memberId ∧
    (net.service i).authenticator.authenticate x (c i).membership hello now (c i).challenges =
      .ok peer challenges

/-! ### What the network cannot do -/

/-- Whoever has a signature of the key on a hello has it from a node with that key
(Ed25519). -/
def Unforged (events : List (NetworkEvent ι)) (key : Vector UInt8 32) : Prop :=
  ∀ before i call later hello now signature, events = before ++ .serve i call :: later →
    call.hello? = some (hello, now) →
    decodeArray x.toCrypto 64 hello.signature = some signature →
    x.verify key (x.helloSigningBytes hello) signature = true →
    ∃ a e b j signed, before = a ++ e :: b ∧ net.signs (net.run a) e = some (j, signed) ∧
      (net.service j).identity.signingKey.verifyingKey = key ∧
      x.helloSigningBytes signed = x.helloSigningBytes hello

end Network

/-- Challenges are random: none was issued or signed for before. -/
def Fresh {ι : Type} (x : Crates) (events : List (NetworkEvent ι)) : Prop :=
  events.Pairwise fun e e' => ∀ challenge, e'.issues x = some challenge →
    e.issues x ≠ some challenge ∧ e.answers ≠ some challenge

/-- What is signed of a hello is all of it but the signature. -/
def SignsHello (x : Crates) : Prop :=
  ∀ hello hello', x.helloSigningBytes hello = x.helloSigningBytes hello' ↔
    hello.unsigned = hello'.unsigned

section Safety
variable {x : Crates} {ι : Type}

theorem Fresh.of_split {a b c : List (NetworkEvent ι)} {e e' : NetworkEvent ι} {challenge : String}
    (h : Fresh x (a ++ e :: b ++ e' :: c)) (hissues : e'.issues x = some challenge) :
    e.issues x ≠ some challenge ∧ e.answers ≠ some challenge := by
  rw [Fresh, List.append_assoc, List.cons_append, List.pairwise_append] at h
  have hlater := (List.pairwise_cons.mp h.2.1).1
  exact hlater e' (List.mem_append_right _ List.mem_cons_self) challenge hissues

namespace Network

variable {net : Network x ι}

variable (net) in
theorem start_empty (i : ι) :
    (net.start i).activePeers = ∅ ∧
      ∀ challenge, (net.start i).challenges.pending.lookup challenge = none := by
  obtain ⟨membership, manifests, file, saved, ttl, window, hnew⟩ := net.started i
  refine ⟨(NodeService.new_ok hnew).2.2.1, fun challenge => ?_⟩
  simp only [NodeService.new, except_bind_ok] at hnew
  obtain ⟨_, _, _, _, _, _, _, _, hstart⟩ := hnew
  rw [← (Prod.mk.inj (Except.ok.inj hstart)).2]
  rfl

theorem signs_eq_some {c : ι → NodeState} {e : NetworkEvent ι} {j : ι} {hello : PeerHelloV1}
    (h : net.signs c e = some (j, hello)) :
    e.answers = some hello.challenge ∧ e.issues x = none := by
  cases e with
  | initiate i challenge now =>
    cases h
    exact ⟨rfl, rfl⟩
  | serve i call =>
    cases call with
    | exchangeHello request now store =>
      simp only [signs] at h
      cases houtcome : outcome ((net.service i).exchangeHello request now store) (c i) with
      | error e =>
        rw [houtcome] at h
        cases h
      | ok signed =>
        rw [houtcome] at h
        cases h
        have hok := eq_ok_of_outcome houtcome
        rw [NodeService.exchangeHello, bind_ok] at hok
        obtain ⟨_, _, _, hpure⟩ := hok
        cases hpure
        exact ⟨rfl, rfl⟩
    | issueChallenge => cases h
    | observePeer => cases h
    | acceptMembership => cases h
    | verifyStateSnapshot => cases h
    | readiness => cases h

/-- A hello that is accepted under the id of a key is signed with it. -/
theorem Accepts.signed {e : NetworkEvent ι} {i : ι} {hello : PeerHelloV1} {now : UInt64}
    {c : ι → NodeState} (h : net.Accepts c e i hello now)
    (hinj : Function.Injective (x.memberId (net.service i).identity.networkId))
    {key : Vector UInt8 32}
    (hid : hello.memberId = x.memberId (net.service i).identity.networkId key) :
    absDiff hello.issuedAtEpochMs now ≤ (net.service i).authenticator.maxClockSkewMs ∧
      ∃ signature, decodeArray x.toCrypto 64 hello.signature = some signature ∧
        x.verify key (x.helloSigningBytes hello) signature = true := by
  obtain ⟨call, peer, challenges, _, _, _, hauth⟩ := h
  obtain ⟨hexamine, _, _⟩ := authenticate_ok hauth
  have hnetwork := (examine_ok hexamine).1.trans (net.service i).network_eq
  simp only [PeerAuthenticator.examine, except_then_ok, refuse_ok, mapError_eq_ok] at hexamine
  obtain ⟨_, hskew, _, hsigned⟩ := hexamine
  simp only [verifyHelloSignature, except_bind_ok, okOr_ok, refuse_ok] at hsigned
  obtain ⟨publicBytes, _, _, _, _, hmember, signature, hsignature, hverify⟩ := hsigned
  rw [not_not, hnetwork, hid] at hmember
  rw [hinj hmember] at hverify
  exact ⟨UInt64.not_lt.mp hskew, signature, hsignature, (Bool.not_eq_false _).mp hverify⟩

/-- A hello that is accepted finds its challenge pending. -/
theorem Accepts.pending {e : NetworkEvent ι} {i : ι} {hello : PeerHelloV1} {now : UInt64}
    {c : ι → NodeState} (h : net.Accepts c e i hello now) :
    ∃ expiresAt, (c i).challenges.pending.lookup hello.challenge = some expiresAt ∧
      now ≤ expiresAt := by
  obtain ⟨call, peer, challenges, _, _, _, hauth⟩ := h
  rcases authenticate_cases x (net.service i).authenticator (c i).membership hello now
    (c i).challenges with ⟨e, herror⟩ | ⟨e, herror, _⟩ | ⟨_, expiresAt, _, hpending⟩
  · rw [hauth] at herror
    cases herror
  · rw [hauth] at herror
    cases herror
  · exact ⟨expiresAt, hpending⟩

variable [DecidableEq ι] {events : List (NetworkEvent ι)}

/-- What is pending at a node was issued by it. -/
theorem issued_of_pending {i : ι} {challenge : String} {expiresAt : UInt64}
    (h : (net.run events i).challenges.pending.lookup challenge = some expiresAt) :
    ∃ a bytes t b, events = a ++ .serve i (.issueChallenge bytes t) :: b ∧
      x.hexEncode bytes.toList = challenge ∧
      expiresAt = saturatingAdd t (net.start i).challenges.ttlMs := by
  rw [run_apply] at h
  obtain ⟨before, bytes, t, later, hcalls, hbytes, hexpires⟩ :=
    NodeService.pending_of_run _ ((net.start_empty i).2 challenge) h
  obtain ⟨a, e, b, hevents, _, he, _⟩ := exists_event hcalls
  rw [NetworkEvent.eq_serve_of_input he] at hevents
  exact ⟨a, bytes, t, b, hevents, hbytes, hexpires⟩

/-- A hello that is accepted answers a challenge the node has issued. -/
theorem Accepts.issued {e : NetworkEvent ι} {i : ι} {hello : PeerHelloV1} {now : UInt64}
    (h : net.Accepts (net.run events) e i hello now) :
    ∃ a bytes t b, events = a ++ .serve i (.issueChallenge bytes t) :: b ∧
      x.hexEncode bytes.toList = hello.challenge ∧
      now ≤ saturatingAdd t (net.start i).challenges.ttlMs := by
  obtain ⟨expiresAt, hpending, hle⟩ := h.pending
  obtain ⟨a, bytes, t, b, hevents, hbytes, rfl⟩ := issued_of_pending hpending
  exact ⟨a, bytes, t, b, hevents, hbytes, hle⟩

/-- An active peer had a hello accepted. -/
theorem accepted_of_active {i : ι} {id : String} {t : UInt64}
    (h : (net.run events i).activePeers.lookup id = some t) :
    ∃ before call later hello, events = before ++ .serve i call :: later ∧ hello.memberId = id ∧
      net.Accepts (net.run before) (.serve i call) i hello t := by
  rw [run_apply] at h
  have hsound := (net.service i).run_sound (net.start_empty i).1
    (inputs NetworkEvent.input i events)
  obtain ⟨before, call, later, hello, peer, challenges, hcalls, hhello, hid, _, _, hauth⟩ :=
    hsound.seen id t h
  obtain ⟨a, e, b, hevents, ha, he, _⟩ := exists_event hcalls
  rw [NetworkEvent.eq_serve_of_input he] at hevents
  refine ⟨a, call, b, hello, hevents, hid, call, peer, challenges, rfl, hhello, ?_, ?_⟩
  · intro hself
    rw [← hid, hself, hsound.self] at h
    cases h
  · rw [run_apply, ha]
    exact hauth

end Network

/-- After a hello was accepted its challenge is gone. -/
theorem Network.Accepts.gone [DecidableEq ι] {net : Network x ι} {events : List (NetworkEvent ι)}
    {e : NetworkEvent ι} {i : ι} {hello : PeerHelloV1} {now : UInt64}
    (h : net.Accepts (net.run events) e i hello now) :
    (net.run (events ++ [e]) i).challenges.pending.lookup hello.challenge = none := by
  obtain ⟨call, peer, challenges, rfl, hhello, hother, hauth⟩ := h
  have hstep : net.run (events ++ [.serve i call]) i =
      (net.service i).perform call (net.run events i) := by
    rw [run, Lib.Parties.run, List.foldl_append]
    exact Function.update_self ..
  have hperform : ((net.service i).perform call (net.run events i)).challenges = challenges := by
    rw [(net.service i).perform_hello hhello hother, after_ok hauth]
  rw [hstep, hperform]
  rcases authenticate_cases x (net.service i).authenticator (net.run events i).membership hello now
    (net.run events i).challenges with ⟨e, herror⟩ | ⟨e, herror, _⟩ | ⟨_, expiresAt, hok, _⟩
  · rw [hauth] at herror
    cases herror
  · rw [hauth] at herror
    cases herror
  · rw [hauth] at hok
    cases hok
    exact ChallengeStore.lookup_without_self _ _ _

end Safety

end Kerosene.Node
