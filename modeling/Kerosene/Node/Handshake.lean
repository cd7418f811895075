import Kerosene.Node.Network

/-! Handshakes between nodes.

A node that lists another as active has had its challenge answered by that node, after it
was issued and before it expired (`peers_recently_alive`), and no hello is accepted twice,
not even by two nodes (`hello_accepted_once`). Left alone, two nodes that know each other
get through (`handshake_completes`). -/
namespace Kerosene.Node

open Lib.Encode Lib.Inplace Lib.Parties Lib.Tables Lib.Word Ledger

section Safety
variable {x : Crates} {ι : Type}

/-- **Peers are recently alive.** In every history of a network in which challenges are
fresh, a node that lists the holder of a key as active has issued a challenge, after that
a node with this key has signed a hello for it, and after that it accepted the hello, all
within the challenge's time to live and the clocks no further apart than is allowed. -/
theorem peers_recently_alive [DecidableEq ι] (net : Network x ι) (hsigns : SignsHello x)
    {events : List (NetworkEvent ι)} (hfresh : Fresh x events) {key : Vector UInt8 32}
    (hunforged : net.Unforged events key) {i : ι}
    (hinj : Function.Injective (x.memberId (net.service i).identity.networkId)) {t : UInt64}
    (hactive : (net.run events i).activePeers.lookup
      (x.memberId (net.service i).identity.networkId key) = some t) :
    ∃ (a b c d : List (NetworkEvent ι)) (bytes : Vector UInt8 32) (issuedAt : UInt64)
      (sign : NetworkEvent ι) (j : ι) (signed hello : PeerHelloV1) (call : Call),
      events = a ++ .serve i (.issueChallenge bytes issuedAt) :: b ++ sign :: c ++
        .serve i call :: d ∧
      net.signs (net.run (a ++ .serve i (.issueChallenge bytes issuedAt) :: b)) sign =
        some (j, signed) ∧
      (net.service j).identity.signingKey.verifyingKey = key ∧
      signed.challenge = x.hexEncode bytes.toList ∧
      net.Accepts (net.run (a ++ .serve i (.issueChallenge bytes issuedAt) :: b ++ sign :: c))
        (.serve i call) i hello t ∧
      hello.unsigned = signed.unsigned ∧
      t ≤ saturatingAdd issuedAt (net.start i).challenges.ttlMs ∧
      absDiff signed.issuedAtEpochMs t ≤ (net.service i).authenticator.maxClockSkewMs := by
  obtain ⟨before, call, later, hello, rfl, hid, haccepts⟩ := Network.accepted_of_active hactive
  obtain ⟨hskew, signature, hsignature, hverify⟩ := haccepts.signed hinj hid
  obtain ⟨a, bytes, issuedAt, b, hissue, hbytes, hle⟩ := haccepts.issued
  have ⟨_, _, _, hserve, hhello, _, _⟩ := haccepts
  cases hserve
  obtain ⟨p, sign, q, j, signed, hsign, hsigned, hkey, hsame⟩ :=
    hunforged before i call later hello t signature rfl hhello hsignature hverify
  have hunsigned := (hsigns signed hello).mp hsame
  obtain ⟨hchallenge, htime⟩ := PeerHelloV1.of_unsigned_eq hunsigned
  obtain ⟨hanswers, hnot⟩ := Network.signs_eq_some hsigned
  -- The hello is not signed before the challenge is there.
  rcases order_of_splits (hissue.symm.trans hsign) with ⟨_, rfl, _⟩ | ⟨m, rfl, _⟩ | ⟨m, rfl, hq⟩
  · cases hnot
  · rw [hsign] at haccepts
    refine ⟨a, m, q, later, bytes, issuedAt, sign, j, signed, hello, call, ?_, hsigned, hkey,
      hchallenge.trans hbytes.symm, haccepts, hunsigned.symm, hle, htime ▸ hskew⟩
    rw [hsign]
  · rw [hissue, List.append_assoc] at hfresh
    refine absurd ?_ (Fresh.of_split hfresh rfl).2
    rw [hanswers, hchallenge, hbytes]

/-- **No hello is accepted twice.** In every history of a network in which challenges are
fresh, two hellos that are accepted, by one node or by two, answer different challenges. -/
theorem hello_accepted_once [DecidableEq ι] (net : Network x ι) {a b c : List (NetworkEvent ι)}
    {e e' : NetworkEvent ι} (hfresh : Fresh x (a ++ e :: b ++ e' :: c)) {i i' : ι}
    {hello hello' : PeerHelloV1} {now now' : UInt64}
    (h : net.Accepts (net.run a) e i hello now)
    (h' : net.Accepts (net.run (a ++ e :: b)) e' i' hello' now') :
    hello.challenge ≠ hello'.challenge := by
  intro hsame
  obtain ⟨p, bytes, t, q, rfl, hbytes, _⟩ := h.issued
  by_cases hnode : i' = i
  · -- The challenge is gone and would have to be issued once more.
    subst hnode
    obtain ⟨expiresAt, hpending, _⟩ := h'.pending
    rw [← hsame, List.append_cons, net.run_append] at hpending
    obtain ⟨before, bytes', t', later, hcalls, hbytes', _⟩ :=
      NodeService.pending_of_run _ h.gone hpending
    obtain ⟨b₁, e₂, b₂, rfl, _, he₂, _⟩ := exists_event hcalls
    rw [NetworkEvent.eq_serve_of_input he₂] at hfresh
    have hsplit : Fresh x (p ++ .serve i' (.issueChallenge bytes t) :: (q ++ e :: b₁) ++
        .serve i' (.issueChallenge bytes' t') :: (b₂ ++ e' :: c)) := by
      simpa using hfresh
    refine absurd ?_ (hsplit.of_split rfl).1
    rw [NetworkEvent.issues, hbytes, hbytes']
  · -- Two nodes would have to issue it.
    obtain ⟨p', bytes', t', q', hissued, hbytes', _⟩ := h'.issued
    have hissues : x.hexEncode bytes.toList = x.hexEncode bytes'.toList := by
      rw [hbytes, hbytes', hsame]
    rw [hissued] at hfresh
    rw [List.append_assoc, List.cons_append] at hissued
    rcases order_of_splits hissued with ⟨_, heq, _⟩ | ⟨m, rfl, _⟩ | ⟨m, rfl, hq⟩
    · cases heq
      exact hnode rfl
    · have hsplit : Fresh x (p ++ .serve i (.issueChallenge bytes t) :: m ++
          .serve i' (.issueChallenge bytes' t') :: (q' ++ e' :: c)) := by
        simpa using hfresh
      exact absurd (congrArg some hissues) (hsplit.of_split rfl).1
    · have hsplit : Fresh x (p' ++ .serve i' (.issueChallenge bytes' t') :: m ++
          .serve i (.issueChallenge bytes t) :: (q ++ e :: b ++ e' :: c)) := by
        rw [hq] at hfresh
        simpa using hfresh
      exact absurd (congrArg some hissues.symm) (hsplit.of_split rfl).1

end Safety

/-! ### Left alone -/

/-- A key whose signatures verify. -/
structure SigningKey.Lawful (x : Crates) (key : SigningKey) : Prop where
  verifyingKey : x.verifyingKey key.verifyingKey = .ok ()
  verify : ∀ message, x.verify key.verifyingKey message (key.sign message) = true

section Completion
variable {x : Crates}

/-- A signed hello passes every check of an authenticator for its network and plane. -/
theorem examine_signHello (hsigns : SignsHello x) {identity : NodeIdentity x}
    (hlawful : identity.signingKey.Lawful x) {a : PeerAuthenticator} {endpoint : String}
    (hnetwork : identity.networkId = a.networkId) (hplane : identity.plane = a.plane)
    (hendpoint : validateOnionEndpoint x DiscoveryError.invalidEndpoint endpoint = .ok ())
    {issuedAt now : UInt64} (hskew : absDiff issuedAt now ≤ a.maxClockSkewMs) (challenge : String) :
    a.examine x (identity.signHello challenge endpoint issuedAt) now = .ok () := by
  have hunsigned : x.helloSigningBytes (identity.signHello challenge endpoint issuedAt) =
      x.helloSigningBytes (identity.signHello challenge endpoint issuedAt).unsigned :=
    (hsigns _ _).mpr rfl
  have hsigned : verifyHelloSignature x (identity.signHello challenge endpoint issuedAt) = .ok () := by
    simp only [verifyHelloSignature, except_bind_ok, okOr_ok, refuse_ok]
    refine ⟨identity.signingKey.verifyingKey, decodeArray_eq_some.mpr (x.hexDecode_hexEncode _), (),
      (mapError_eq_ok _).mpr hlawful.verifyingKey, (), fun hne => hne identity.memberId_eq.symm,
      identity.signingKey.sign _, decodeArray_eq_some.mpr (x.hexDecode_hexEncode _), ?_⟩
    rw [hunsigned, Bool.not_eq_false]
    exact hlawful.verify _
  simp only [PeerAuthenticator.examine, except_then_ok, refuse_ok, mapError_eq_ok]
  refine ⟨?_, UInt64.not_lt.mpr hskew, hendpoint, hsigned⟩
  simp only [NodeIdentity.signHello, hnetwork, hplane, ne_eq, not_true, or_self, not_false_iff]

namespace NodeService

variable {svc : NodeService x} {s : NodeState}

/-- The files have taken the peer. -/
def StoreResults.stored : StoreResults := ⟨.ok (), .ok ()⟩

/-- A hello for a pending challenge from a member goes through, and its sender is active. -/
theorem admitPeer_of_member {hello : PeerHelloV1} {now expiresAt : UInt64}
    (hother : hello.memberId ≠ svc.identity.memberId)
    (hexamine : svc.authenticator.examine x hello now = .ok ())
    (hpending : s.challenges.pending.lookup hello.challenge = some expiresAt)
    (hlive : now ≤ expiresAt)
    (hmember : s.membership.isMember hello.memberId hello.rootPublicKey = true) :
    ∃ s', svc.admitPeer hello now .stored s = .ok () s' ∧
      s'.activePeers.lookup hello.memberId = some now := by
  obtain ⟨c, hauth⟩ := authenticate_of_member hexamine hpending hlive hmember
  have hself : refuse (hello.memberId = svc.identity.memberId) DiscoveryError.selfConnection =
      .ok () := refuse_ok.mpr hother
  have hrecord : recordSuccess x hello.endpoint (.ok ()) = .ok () := by
    simp only [PeerAuthenticator.examine, except_then_ok] at hexamine
    exact except_then_ok.mpr ⟨hexamine.2.2.1, rfl⟩
  simp only [admitPeer, StoreResults.stored, bind_def, hself, check_ok, authenticate, hauth, hrecord,
    modify_def]
  refine ⟨_, rfl, activateIfQuorum_lookup _ now (Finmap.lookup_insert _) ?_⟩
  rw [isLive, saturatingSub_self, decide_eq_true_iff]
  exact UInt64.zero_le

/-- What a node asks of another before it takes its hello. -/
structure Trusts (svc : NodeService x) (s : NodeState) (peer : NodeService x) : Prop where
  lawful : peer.identity.signingKey.Lawful x
  other : peer.identity.memberId ≠ svc.identity.memberId
  network : peer.identity.networkId = svc.identity.networkId
  plane : peer.identity.plane = svc.plane
  member : s.membership.isMember peer.identity.memberId peer.identity.rootPublicKeyHex = true

theorem Trusts.examine {peer : NodeService x} (h : svc.Trusts s peer) (hsigns : SignsHello x)
    (hendpoint : validateOnionEndpoint x DiscoveryError.invalidEndpoint peer.endpoint = .ok ())
    {signedAt now : UInt64} (hskew : absDiff signedAt now ≤ svc.authenticator.maxClockSkewMs)
    (challenge : String) :
    svc.authenticator.examine x (peer.identity.signHello challenge peer.endpoint signedAt) now =
      .ok () :=
  examine_signHello hsigns h.lawful (h.network.trans svc.network_eq.symm)
    (h.plane.trans svc.plane_eq.symm) hendpoint hskew challenge

/-- The answer of a trusted peer to a challenge just issued goes through. -/
theorem Trusts.admitPeer {peer : NodeService x} (h : svc.Trusts s peer) (hsigns : SignsHello x)
    (hendpoint : validateOnionEndpoint x DiscoveryError.invalidEndpoint peer.endpoint = .ok ())
    (bytes : Vector UInt8 32) {issuedAt signedAt now : UInt64}
    (hskew : absDiff signedAt now ≤ svc.authenticator.maxClockSkewMs)
    (hlive : now ≤ saturatingAdd issuedAt s.challenges.ttlMs) :
    ∃ s', svc.admitPeer (peer.identity.signHello (x.hexEncode bytes.toList) peer.endpoint signedAt)
        now .stored (svc.perform (.issueChallenge bytes issuedAt) s) = .ok () s' ∧
      s'.activePeers.lookup peer.identity.memberId = some now := by
  have hexamine := h.examine hsigns hendpoint hskew (x.hexEncode bytes.toList)
  exact admitPeer_of_member (s := svc.perform (.issueChallenge bytes issuedAt) s) h.other hexamine
    (Finmap.lookup_insert _) hlive h.member

variable {start : NodeState} {before : List Call} {peer : NodeService x} {bytes : Vector UInt8 32}
  {issuedAt signedAt now : UInt64}

/-- The half of the node that is called. -/
theorem Trusts.exchangeHello (h : svc.Trusts (svc.run before start) peer) (hsigns : SignsHello x)
    (hendpoint : validateOnionEndpoint x DiscoveryError.invalidEndpoint peer.endpoint = .ok ())
    (hskew : absDiff signedAt now ≤ svc.authenticator.maxClockSkewMs)
    (hlive : now ≤ saturatingAdd issuedAt start.challenges.ttlMs) {request : HelloExchangeRequest}
    (hrequest : request.hello =
      peer.identity.signHello (x.hexEncode bytes.toList) peer.endpoint signedAt) :
    outcome (svc.exchangeHello request now .stored)
        (svc.run (before ++ [Call.issueChallenge bytes issuedAt]) start) =
          .ok (svc.identity.signHello request.responseChallenge svc.endpoint now) ∧
      (svc.run (before ++ [Call.issueChallenge bytes issuedAt, Call.exchangeHello request now .stored])
        start).activePeers.lookup peer.identity.memberId = some now := by
  rw [← run_ttlMs svc before start] at hlive
  obtain ⟨s', hadmit, hlookup⟩ := h.admitPeer hsigns hendpoint bytes hskew hlive
  rw [← run_append_singleton, ← hrequest] at hadmit
  constructor
  · simp only [outcome, NodeService.exchangeHello, bind_def, hadmit, pure_def]
  · rw [List.append_cons, run_append_singleton, perform_exchangeHello, after_ok hadmit]
    exact hlookup

/-- The half of the node that calls: it uses one time for all. -/
theorem Trusts.observePeer (h : svc.Trusts (svc.run before start) peer) (hsigns : SignsHello x)
    (hendpoint : validateOnionEndpoint x DiscoveryError.invalidEndpoint peer.endpoint = .ok ())
    (hskew : absDiff signedAt now ≤ svc.authenticator.maxClockSkewMs) {hello : PeerHelloV1}
    (hhello : hello = peer.identity.signHello (x.hexEncode bytes.toList) peer.endpoint signedAt) :
    outcome (svc.observePeer hello now .stored)
        (svc.run (before ++ [Call.issueChallenge bytes now]) start) = .ok () ∧
      (svc.run (before ++ [Call.issueChallenge bytes now, Call.observePeer hello now .stored])
        start).activePeers.lookup peer.identity.memberId = some now := by
  obtain ⟨s', hadmit, hlookup⟩ :=
    h.admitPeer hsigns hendpoint bytes hskew (le_saturatingAdd now _)
  rw [← run_append_singleton, ← hhello] at hadmit
  constructor
  · exact outcome_ok hadmit
  · rw [List.append_cons, run_append_singleton, perform, NodeService.observePeer, after_ok hadmit]
    exact hlookup

end NodeService

theorem Network.endpoint_valid {ι : Type} (net : Network x ι) (i : ι) :
    validateOnionEndpoint x DiscoveryError.invalidEndpoint (net.service i).endpoint = .ok () := by
  obtain ⟨membership, manifests, file, saved, ttl, window, hnew⟩ := net.started i
  simp only [NodeService.new, except_bind_ok] at hnew
  obtain ⟨_, hendpoint, _⟩ := hnew
  exact validateOnionEndpoint_ok _ hendpoint

/-- A node's hello for a challenge. -/
def Network.hello {ι : Type} (net : Network x ι) (i : ι) (challenge : Vector UInt8 32)
    (now : UInt64) : PeerHelloV1 :=
  (net.service i).identity.signHello (x.hexEncode challenge.toList) (net.service i).endpoint now

/-- The hello of a trusted peer for a challenge that is pending is accepted. -/
theorem Network.accepts_hello {ι : Type} {net : Network x ι} (hsigns : SignsHello x)
    {c : ι → NodeState} {i j : ι} (h : (net.service i).Trusts (c i) (net.service j))
    {bytes : Vector UInt8 32} {signedAt now expiresAt : UInt64}
    (hskew : absDiff signedAt now ≤ (net.service i).authenticator.maxClockSkewMs)
    (hpending : (c i).challenges.pending.lookup (x.hexEncode bytes.toList) = some expiresAt)
    (hlive : now ≤ expiresAt) {call : Call}
    (hcall : call.hello? = some (net.hello j bytes signedAt, now)) :
    net.Accepts c (.serve i call) i (net.hello j bytes signedAt) now := by
  obtain ⟨challenges, hauth⟩ :=
    authenticate_of_member (h.examine hsigns (net.endpoint_valid j) hskew _) hpending hlive h.member
  exact ⟨call, _, challenges, rfl, hcall, h.other, hauth⟩

/-- **A handshake completes.** Whatever the nodes of a network have been doing, when one
node is the other's trusted peer and the other way round, it fetches a challenge and sends
its hello, and each of the two handles nothing else in between, then the hello is accepted,
so is the answer, and each has the other among its active peers, provided the clocks are
no further apart than is allowed and the challenge has not expired. -/
theorem handshake_completes {ι : Type} [DecidableEq ι] (net : Network x ι) (hsigns : SignsHello x)
    {i j : ι} {events : List (NetworkEvent ι)} {before before' : List Call}
    {bytes bytes' : Vector UInt8 32} {now issuedAt now' : UInt64} {request : HelloExchangeRequest}
    (hi : (net.service i).Trusts ((net.service i).run before (net.start i)) (net.service j))
    (hj : (net.service j).Trusts ((net.service j).run before' (net.start j)) (net.service i))
    (hskew : absDiff now' now ≤ (net.service i).authenticator.maxClockSkewMs)
    (hskew' : absDiff now now' ≤ (net.service j).authenticator.maxClockSkewMs)
    (hlive : now' ≤ saturatingAdd issuedAt (net.start j).challenges.ttlMs)
    (hrequest : request = ⟨net.hello i bytes' now, x.hexEncode bytes.toList⟩)
    (hcalls : inputs NetworkEvent.input i events =
      before ++ [Call.issueChallenge bytes now, Call.observePeer (net.hello j bytes now') now .stored])
    (hcalls' : inputs NetworkEvent.input j events =
      before' ++ [Call.issueChallenge bytes' issuedAt, Call.exchangeHello request now' .stored]) :
    outcome ((net.service j).exchangeHello request now' .stored)
        ((net.service j).run (before' ++ [Call.issueChallenge bytes' issuedAt]) (net.start j)) =
          .ok (net.hello j bytes now') ∧
      outcome ((net.service i).observePeer (net.hello j bytes now') now .stored)
        ((net.service i).run (before ++ [Call.issueChallenge bytes now]) (net.start i)) = .ok () ∧
      (net.run events i).activePeers.lookup (net.service j).identity.memberId = some now ∧
      (net.run events j).activePeers.lookup (net.service i).identity.memberId = some now' := by
  have hresponder := hj.exchangeHello hsigns (net.endpoint_valid i) hskew' hlive
    (congrArg HelloExchangeRequest.hello hrequest)
  have hanswer : net.hello j bytes now' = (net.service j).identity.signHello
      (x.hexEncode bytes.toList) (net.service j).endpoint now' := rfl
  have hinitiator := hi.observePeer hsigns (net.endpoint_valid j) hskew hanswer
  rw [net.run_apply, net.run_apply, hcalls, hcalls']
  refine ⟨?_, hinitiator.1, hinitiator.2, hresponder.2⟩
  rw [hresponder.1, hrequest]
  rfl

end Completion

/-! ### Alice and Bob -/

/-- Bytes with a mark before each and another at the end. -/
def frame : Bytes → Bytes
  | [] => [0]
  | b :: rest => 1 :: b :: frame rest

theorem frame_append_inj {a b r r' : Bytes} (h : frame a ++ r = frame b ++ r') : a = b ∧ r = r' := by
  induction a generalizing b with
  | nil =>
    cases b with
    | nil => exact ⟨rfl, (List.cons.inj h).2⟩
    | cons => cases (List.cons.inj h).1
  | cons c rest ih =>
    cases b with
    | nil => cases (List.cons.inj h).1
    | cons c' rest' =>
      obtain ⟨hc, hrest⟩ := List.cons.inj (List.cons.inj h).2
      obtain ⟨hsame, hr⟩ := ih hrest
      exact ⟨by rw [hc, hsame], hr⟩

/-- The fields of a hello one after another, its signature left out. -/
def frameHello (hello : PeerHelloV1) : Bytes :=
  frame (utf8 hello.contractVersion) ++ (frame (utf8 hello.networkId) ++
    (frame (utf8 hello.memberId) ++ (frame (utf8 hello.rootPublicKey) ++
      (frame (utf8 hello.challenge) ++ (frame (utf8 hello.endpoint) ++
        (le64 hello.issuedAtEpochMs ++
          match hello.plane with
          | .bank => [0]
          | .vault => [1]))))))

theorem frameHello_eq_iff {hello hello' : PeerHelloV1} :
    frameHello hello = frameHello hello' ↔ hello.unsigned = hello'.unsigned := by
  constructor
  · intro h
    obtain ⟨hversion, h⟩ := frame_append_inj h
    obtain ⟨hnetwork, h⟩ := frame_append_inj h
    obtain ⟨hmember, h⟩ := frame_append_inj h
    obtain ⟨hkey, h⟩ := frame_append_inj h
    obtain ⟨hchallenge, h⟩ := frame_append_inj h
    obtain ⟨hendpoint, h⟩ := frame_append_inj h
    obtain ⟨htime, hplane⟩ := List.append_inj h (by rw [le64_length, le64_length])
    have hplane' : hello.plane = hello'.plane := by
      cases hp : hello.plane <;> cases hp' : hello'.plane <;> simp [hp, hp'] at hplane ⊢
    simp only [PeerHelloV1.unsigned, PeerHelloV1.mk.injEq]
    exact ⟨utf8_inj.mp hversion, utf8_inj.mp hnetwork, hplane', utf8_inj.mp hmember,
      utf8_inj.mp hkey, utf8_inj.mp hchallenge, le64_injective htime, utf8_inj.mp hendpoint, trivial⟩
  · intro h
    simp only [PeerHelloV1.unsigned, PeerHelloV1.mk.injEq] at h
    obtain ⟨hversion, hnetwork, hplane, hmember, hkey, hchallenge, htime, hendpoint, _⟩ := h
    rw [frameHello, hversion, hnetwork, hplane, hmember, hkey, hchallenge, htime, hendpoint,
      frameHello]

def aliceChallenge : Vector UInt8 32 := Vector.replicate 32 5

/-- Alice's signature of her hello to Bob, and Bob's of his answer. -/
def aliceSigned : Vector UInt8 64 := #v[
  0xa4, 0x5d, 0xa7, 0x9a, 0x2b, 0x68, 0x5a, 0xdd, 0x42, 0x8a, 0x08, 0xd9, 0x9c, 0xbf, 0x99, 0xab,
  0x7a, 0x46, 0x45, 0x84, 0x22, 0xc9, 0xd1, 0x44, 0xe2, 0xe1, 0xc8, 0x78, 0xed, 0x6c, 0x5c, 0xb1,
  0xe2, 0xe4, 0xce, 0x48, 0x88, 0x63, 0xb9, 0x75, 0xb5, 0x8f, 0x02, 0x91, 0xcd, 0x42, 0x74, 0x19,
  0xf7, 0x7e, 0x33, 0x33, 0x0d, 0x5d, 0x92, 0x75, 0x4a, 0xe9, 0xbe, 0x18, 0x7e, 0x3f, 0x66, 0x0b]

def bobSigned : Vector UInt8 64 := #v[
  0xd8, 0xb7, 0xda, 0x6a, 0x5b, 0xb3, 0x5c, 0x99, 0xca, 0xdf, 0x20, 0xb5, 0x72, 0x9b, 0x01, 0x9d,
  0xa6, 0xb2, 0xb4, 0x92, 0x65, 0x98, 0xe4, 0x09, 0xeb, 0xd1, 0x85, 0x7f, 0xa0, 0x3f, 0x5b, 0x68,
  0x3b, 0xe4, 0x39, 0x26, 0x7f, 0xc0, 0x93, 0xa0, 0x52, 0xd0, 0xa3, 0x52, 0x1f, 0xe2, 0xee, 0x1d,
  0x20, 0x57, 0x0a, 0xc5, 0x35, 0xf6, 0x4c, 0x21, 0xb2, 0x74, 0x8e, 0xad, 0xca, 0x77, 0x1b, 0x04]

/-- A hello of a key for a challenge, not signed yet. -/
def unsignedHello (key challenge : Vector UInt8 32) (endpoint : String) (now : UInt64) :
    PeerHelloV1 where
  contractVersion := "1"
  networkId := "kerosene-test"
  plane := .vault
  memberId := Crates.spelled.memberId "kerosene-test" key
  rootPublicKey := Lib.Digest.toHex key.toList
  challenge := Lib.Digest.toHex challenge.toList
  issuedAtEpochMs := now
  endpoint
  signature := ""

def pairRecord : List (Vector UInt8 32 × Bytes × Vector UInt8 64) := [
  (aliceKey, frameHello (unsignedHello aliceKey bobChallenge alice.endpoint 1000), aliceSigned),
  (bobKey, frameHello (unsignedHello bobKey aliceChallenge bob.endpoint 1500), bobSigned)]

/-- The crates with hellos signed field by field, and the signature of a message the one
that its key makes. -/
def Crates.framed : Crates :=
  { Crates.spelled with
    verifyingKey := fun _ => .ok ()
    verify := fun key message signature =>
      decide (signature = (SigningKey.recorded pairRecord key).sign message)
    helloSigningBytes := frameHello }

theorem signsHello_framed : SignsHello .framed := fun _ _ => frameHello_eq_iff

theorem verify_framed {key : Vector UInt8 32} {message : Bytes} {signature : Vector UInt8 64} :
    Crates.framed.verify key message signature = true ↔
      signature = (SigningKey.recorded pairRecord key).sign message := decide_eq_true_iff

theorem lawful_recorded (key : Vector UInt8 32) :
    (SigningKey.recorded pairRecord key).Lawful .framed :=
  ⟨rfl, fun _ => verify_framed.mpr rfl⟩

inductive Party where
  | alice
  | bob
  deriving DecidableEq

section

variable {x : Crates} (identity : NodeIdentity x) (plane : DiscoveryPlane)
  (challengeTtlMs : UInt64)

theorem NodeService.of_network :
    (⟨identity.networkId, plane, challengeTtlMs⟩ : PeerAuthenticator).networkId
      = identity.networkId := rfl

theorem NodeService.of_plane :
    (⟨identity.networkId, plane, challengeTtlMs⟩ : PeerAuthenticator).plane = plane := rfl

end

/-- The service that `new` makes. -/
def NodeService.of {x : Crates} (identity : NodeIdentity x) (endpoint : String)
    (plane : DiscoveryPlane) (challengeTtlMs peerLiveWindowMs : UInt64) : NodeService x where
  identity
  endpoint
  plane
  authenticator := ⟨identity.networkId, plane, challengeTtlMs⟩
  peerLiveWindowMs
  network_eq := of_network identity plane challengeTtlMs
  plane_eq := of_plane identity plane challengeTtlMs

namespace Party

def key : Party → Vector UInt8 32
  | .alice => aliceKey
  | .bob => bobKey

def endpoint : Party → String
  | .alice => Node.alice.endpoint
  | .bob => Node.bob.endpoint

def service (party : Party) : NodeService .framed :=
  .of (.fromSigningKey "kerosene-test" .vault (.recorded pairRecord party.key)) party.endpoint .vault
    60000 30000

/-- Both are roots of trust. -/
def verifier : MembershipVerifier :=
  let member (party : Party) : TrustMember :=
    ⟨party.service.identity.memberId, Lib.Digest.toHex party.key.toList⟩
  ⟨"kerosene-test", .vault, ⟨2, [member .alice, member .bob]⟩, none⟩

theorem key_ne : key .alice ≠ key .bob := by decide

theorem memberId_ne : (service .alice).identity.memberId ≠ (service .bob).identity.memberId :=
  fun h => key_ne (spelled_memberId_injective "kerosene-test" h)

theorem isMember (party : Party) :
    verifier.isMember party.service.identity.memberId (Lib.Digest.toHex party.key.toList) = true := by
  rw [MembershipVerifier.isMember, MembershipVerifier.authorizedKeys_eq, beq_iff_eq]
  show (Finmap.insert _ _ (Finmap.insert _ _ ∅)).lookup _ = _
  cases party with
  | alice => rw [Finmap.lookup_insert_of_ne _ memberId_ne, Finmap.lookup_insert]
  | bob => rw [Finmap.lookup_insert]

def start : NodeState where
  challenges := .new 60000
  membership := verifier
  manifests := []
  lifecycle := bobStart.lifecycle
  activePeers := ∅

theorem new_service (party : Party) :
    NodeService.new party.service.identity party.endpoint .vault verifier [] .absent (.ok ()) 60000
      30000 = .ok (party.service, start) := by
  have hendpoint : validateOnionEndpoint .framed DiscoveryError.invalidEndpoint.display
      party.endpoint = .ok () := by
    cases party with
    | alice => exact validateOnionEndpoint_ok _ alice_endpoint
    | bob => exact validateOnionEndpoint_ok _ bob_endpoint
  simp only [NodeService.new, except_bind_ok, mapError_eq_ok]
  exact ⟨(), hendpoint, .ofState .created, rfl, start.lifecycle, rfl, (), trivial, rfl⟩

theorem trusts {party other : Party} (h : other ≠ party) {s : NodeState}
    (hs : s.membership = verifier) : party.service.Trusts s other.service where
  lawful := lawful_recorded _
  other := by
    cases party with
    | alice =>
      cases other with
      | alice => exact absurd rfl h
      | bob => exact memberId_ne.symm
    | bob =>
      cases other with
      | alice => exact memberId_ne
      | bob => exact absurd rfl h
  network := rfl
  plane := rfl
  member := by
    rw [hs]
    exact isMember other

end Party

def pair : Network .framed Party where
  service := Party.service
  start := fun _ => Party.start
  started party := ⟨_, _, _, _, _, _, party.new_service⟩

/-- Alice's hello to Bob. -/
def pairRequest : HelloExchangeRequest :=
  ⟨pair.hello .alice bobChallenge 1000, Lib.Digest.toHex aliceChallenge.toList⟩

def pairEvents : List (NetworkEvent Party) := [
  .serve .alice (.issueChallenge aliceChallenge 1000),
  .serve .bob (.issueChallenge bobChallenge 1200),
  .initiate .alice (Lib.Digest.toHex bobChallenge.toList) 1000,
  .serve .bob (.exchangeHello pairRequest 1500 .stored),
  .serve .alice (.observePeer (pair.hello .bob aliceChallenge 1500) 1000 .stored)]

theorem fresh_pairEvents : Fresh .framed pairEvents := by
  have hissued : Crates.framed.hexEncode aliceChallenge.toList ≠
      Crates.framed.hexEncode bobChallenge.toList := by decide +kernel
  simp [Fresh, pairEvents, NetworkEvent.issues, NetworkEvent.answers, hissued]

theorem unsigned_hello (party : Party) (challenge : Vector UInt8 32) (now : UInt64) :
    (pair.hello party challenge now).unsigned =
      (unsignedHello party.key challenge party.endpoint now).unsigned := rfl

theorem signature_hello (party : Party) (challenge : Vector UInt8 32) (now : UInt64) :
    decodeArray Crates.framed.toCrypto 64 (pair.hello party challenge now).signature =
      some ((SigningKey.recorded pairRecord party.key).sign
        (frameHello (unsignedHello party.key challenge party.endpoint now))) :=
  decodeArray_eq_some.mpr (Lib.Digest.fromHex_toHex _)

/-- What Bob signs Alice signs otherwise. -/
theorem sign_frameHello_bob :
    (SigningKey.recorded pairRecord (Party.key .bob)).sign
        (frameHello (unsignedHello (Party.key .bob) aliceChallenge (Party.endpoint .bob) 1500)) ≠
      (SigningKey.recorded pairRecord aliceKey).sign
        (frameHello (unsignedHello (Party.key .bob) aliceChallenge (Party.endpoint .bob) 1500)) := by
  decide +kernel

/-- Two hellos are presented: Alice's, which she has signed, and Bob's, which does not
verify under her key. -/
theorem unforged_pairEvents : pair.Unforged pairEvents aliceKey := by
  intro before i call later hello now signature hevents hhello hsignature hverify
  rcases before with _ | ⟨e₀, _ | ⟨e₁, _ | ⟨e₂, _ | ⟨e₃, _ | ⟨e₄, rest⟩⟩⟩⟩⟩
  · cases hevents
    cases hhello
  · cases hevents
    cases hhello
  · cases hevents
  · cases hevents
    cases hhello
    exact ⟨pairEvents.take 2, .initiate .alice (Lib.Digest.toHex bobChallenge.toList) 1000, [],
      .alice, pair.hello .alice bobChallenge 1000, rfl, rfl, rfl, rfl⟩
  · cases hevents
    cases hhello
    have hsame := frameHello_eq_iff.mpr (unsigned_hello .bob aliceChallenge 1500)
    have hmine := verify_framed.mp hverify
    rw [signature_hello .bob aliceChallenge 1500, Option.some_inj] at hsignature
    subst hsignature
    exact absurd (hmine.trans (congrArg _ hsame)) sign_frameHello_bob
  · have hlength := congrArg List.length hevents
    simp [pairEvents] at hlength

theorem bob_knows_alice :
    (pair.run pairEvents .bob).activePeers.lookup
      (Crates.framed.memberId (pair.service .bob).identity.networkId aliceKey) = some 1500 := by
  have htrusts : (pair.service .bob).Trusts ((pair.service .bob).run [] (pair.start .bob))
      (pair.service .alice) := Party.trusts (by decide) rfl
  have hlive : (1500 : UInt64) ≤ saturatingAdd 1200 (pair.start .bob).challenges.ttlMs := by decide
  have hskew : absDiff 1000 1500 ≤ (pair.service .bob).authenticator.maxClockSkewMs := by decide
  have hrequest : pairRequest.hello = (pair.service .alice).identity.signHello
      (Crates.framed.hexEncode bobChallenge.toList) (pair.service .alice).endpoint 1000 := rfl
  rw [pair.run_apply]
  exact (htrusts.exchangeHello signsHello_framed (pair.endpoint_valid .alice) hskew hlive hrequest).2

/-- Alice is active at Bob's node: she has signed for a challenge that Bob issued. -/
theorem peers_recently_alive_pair :
    ∃ e ∈ pairEvents, ∃ bytes issuedAt, .serve .bob (.issueChallenge bytes issuedAt) ∈ pairEvents ∧
      e.answers = some (Lib.Digest.toHex bytes.toList) ∧ 1500 ≤ saturatingAdd issuedAt 60000 := by
  obtain ⟨a, b, c, d, bytes, issuedAt, sign, j, signed, hello, call, hevents, hsigned, _, hchallenge,
    _, _, hle, _⟩ := peers_recently_alive pair signsHello_framed fresh_pairEvents unforged_pairEvents
      (spelled_memberId_injective _) bob_knows_alice
  refine ⟨sign, ?_, bytes, issuedAt, ?_, ?_, hle⟩
  · rw [hevents]
    simp
  · rw [hevents]
    simp
  · rw [(Network.signs_eq_some hsigned).1, hchallenge]
    rfl

/-- Both hellos are accepted, each for its own challenge. -/
theorem hello_accepted_once_pair :
    pairRequest.hello.challenge ≠ (pair.hello .bob aliceChallenge 1500).challenge := by
  have hbob : pair.Accepts (pair.run (pairEvents.take 3))
      (.serve .bob (.exchangeHello pairRequest 1500 .stored)) .bob pairRequest.hello 1500 := by
    have hpending : (pair.run (pairEvents.take 3) .bob).challenges.pending.lookup
        (Crates.framed.hexEncode bobChallenge.toList) = some 61200 := by
      rw [pair.run_apply]
      exact Finmap.lookup_insert _
    exact Network.accepts_hello signsHello_framed (Party.trusts (by decide) rfl) (by decide) hpending
      (by decide) rfl
  have halice : pair.Accepts (pair.run (pairEvents.take 3 ++
        .serve .bob (.exchangeHello pairRequest 1500 .stored) :: []))
      (.serve .alice (.observePeer (pair.hello .bob aliceChallenge 1500) 1000 .stored)) .alice
      (pair.hello .bob aliceChallenge 1500) 1000 := by
    have hpending : (pair.run (pairEvents.take 4) .alice).challenges.pending.lookup
        (Crates.framed.hexEncode aliceChallenge.toList) = some 61000 := by
      rw [pair.run_apply]
      exact Finmap.lookup_insert _
    exact Network.accepts_hello signsHello_framed (Party.trusts (by decide) rfl) (by decide) hpending
      (by decide) rfl
  have hfresh : Fresh .framed (pairEvents.take 3 ++
      .serve .bob (.exchangeHello pairRequest 1500 .stored) :: [] ++
      .serve .alice (.observePeer (pair.hello .bob aliceChallenge 1500) 1000 .stored) :: []) :=
    fresh_pairEvents
  exact hello_accepted_once pair hfresh hbob halice

theorem handshake_completes_pair :
    (pair.run pairEvents .alice).activePeers.lookup (Party.service .bob).identity.memberId =
        some 1000 ∧
      (pair.run pairEvents .bob).activePeers.lookup (Party.service .alice).identity.memberId =
        some 1500 := by
  have halice : (pair.service .alice).Trusts ((pair.service .alice).run [] (pair.start .alice))
      (pair.service .bob) := Party.trusts (by decide) rfl
  have hbob : (pair.service .bob).Trusts ((pair.service .bob).run [] (pair.start .bob))
      (pair.service .alice) := Party.trusts (by decide) rfl
  have hlive : (1500 : UInt64) ≤ saturatingAdd 1200 (pair.start .bob).challenges.ttlMs := by decide
  exact (handshake_completes pair signsHello_framed halice hbob (by decide) (by decide) hlive rfl rfl
    rfl).2.2

end Kerosene.Node
