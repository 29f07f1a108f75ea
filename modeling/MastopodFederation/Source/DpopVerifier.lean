import MastopodFederation.Lib.WorkerPool
import Mathlib.Algebra.Order.Field.Rat

/-!
# DPoP proofs: verification, replay memory and nonces

at-adapter/oauth/DpopVerifier.ts (`verify`), the DPoP part of OAuthRedisStores.ts
(`mintNonce`, `verifyNonce`, `rememberProofJti`) and `verifyDpopWithNonce` of
OAuthRouteHandlers.ts, which the PAR and the token endpoint call first. What the `jose`
package reads from a proof is a parameter; whether a signature verifies is a reply, so it
may depend on the time. Redis keys live until their deadline, in milliseconds of the one
clock. `accepted` is the end of a call that returns its proof's key thumbprint.
-/
namespace MastopodFederation.Source.DpopVerifier
open Lib.Calls

/-- A public key, as its canonical JSON text. -/
abbrev Jwk := String

/-- The protected header: members that are missing or of another type are `none`. -/
structure ProtectedHeader where
  typ : Option String
  alg : Option String
  jwk : Option Jwk
  deriving DecidableEq, Repr

/-- The claims of a proof. Members that are missing or of another type are `none`. -/
structure ProofPayload where
  htm : Option String
  htu : Option String
  jti : Option String
  iat : Option Rat
  nonce : Option String
  ath : Option String
  deriving DecidableEq

/-- `jose`, the hash and the text functions of the runtime. -/
structure Runtime where
  decodeProtectedHeader : String → Except String ProtectedHeader
  payload : String → ProofPayload
  calculateJwkThumbprint : Jwk → String
  sha256base64url : String → String
  toUpperCase : String → String
  trim : String → String

structure VerifyInput where
  proofJwt : String
  htm : String
  htu : String
  nonce : Option String
  accessToken : Option String
  deriving DecidableEq, Repr

structure VerifyResult where
  jkt : String
  jti : String
  iat : Rat
  deriving DecidableEq

inductive Call where
  | now
  | importJWK (jwk : Jwk)
  | jwtVerify (proofJwt : String) (jwk : Jwk)
  | randomUUID
  | setNonce (nonce : String) (ttlSec : Nat)
  | nonceExists (nonce : String)
  /-- `SET key 1 EX ttl NX` -/
  | rememberProofJti (jkt jti : String) (ttlSec : Nat)
  | sendError (status : Nat) (error description : String) (dpopNonce : Option String)
  | accepted (jkt : String)
  deriving DecidableEq, Repr

/-- `Date.now()` in milliseconds; a key import or a signature check may fail. -/
def Reply : Call → Type
  | .now => Nat
  | .importJWK _ | .jwtVerify .. => Bool
  | .randomUUID => String
  | .setNonce .. => Unit
  | .nonceExists _ | .rememberProofJti .. => Bool
  | .sendError .. | .accepted _ => Unit

abbrev Run := Prog Call Reply String

def dateNow : Run Nat := .call .now pure

def importJWK (jwk : Jwk) : Run Bool := .call (.importJWK jwk) pure

def jwtVerify (proofJwt : String) (jwk : Jwk) : Run Bool := .call (.jwtVerify proofJwt jwk) pure

def randomUUID : Run String := .call .randomUUID pure

def setNonce (nonce : String) (ttlSec : Nat) : Run Unit := .call (.setNonce nonce ttlSec) pure

def verifyNonce (nonce : String) : Run Bool := .call (.nonceExists nonce) pure

def rememberProofJti (jkt jti : String) (ttlSec : Nat) : Run Bool :=
  .call (.rememberProofJti jkt jti ttlSec) pure

def sendError (status : Nat) (error description : String) (dpopNonce : Option String) : Run Unit :=
  .call (.sendError status error description dpopNonce) pure

def accepted (jkt : String) : Run Unit := .call (.accepted jkt) pure

def mintNonce (ttlSec : Nat) : Run String := do
  let nonce ← randomUUID
  let _ ← dateNow
  setNonce nonce ttlSec
  pure nonce

section Verify
variable (rt : Runtime) (maxSkewSec : Nat)

/-- The header checks before the key is imported. -/
def headerKey (proofJwt : String) : Except String Jwk :=
  match rt.decodeProtectedHeader proofJwt with
  | .error e => .error e
  | .ok header =>
    if header.typ ≠ some "dpop+jwt" then .error "invalid_dpop_typ"
    else if header.alg ≠ some "ES256" then .error "invalid_dpop_alg"
    else
      match header.jwk with
      | none => .error "missing_dpop_jwk"
      | some jwk => .ok jwk

/-- The claims every proof needs; an empty text and `iat` 0 count as missing. -/
def requiredClaims (payload : ProofPayload) : Except String (String × String × String × Rat) :=
  match payload.htm.getD "", payload.htu.getD "", payload.jti.getD "", payload.iat.getD 0 with
  | htm, htu, jti, iat =>
    if htm = "" ∨ htu = "" ∨ jti = "" ∨ iat = 0 then .error "invalid_dpop_payload"
    else .ok (htm, htu, jti, iat)

/-- `Math.floor(Date.now() / 1000)` -/
def epochSec (nowMs : Nat) : Nat := nowMs / 1000

def outOfRange (nowMs : Nat) (iat : Rat) : Bool := (maxSkewSec : Rat) < |(epochSec nowMs : Rat) - iat|

def verify (input : VerifyInput) : Run VerifyResult := do
  let jwk ← .done (headerKey rt input.proofJwt)
  let imported ← importJWK jwk
  if imported = false then Prog.fail "importJWK"
  else
    let verified ← jwtVerify input.proofJwt jwk
    if verified = false then Prog.fail "jwtVerify"
    else
      let payload := rt.payload input.proofJwt
      let (htm, htu, jti, iat) ← .done (requiredClaims payload)
      let now ← dateNow
      if outOfRange maxSkewSec now iat then Prog.fail "dpop_iat_out_of_range"
      else if rt.toUpperCase htm ≠ rt.toUpperCase input.htm then Prog.fail "dpop_htm_mismatch"
      else if htu ≠ input.htu then Prog.fail "dpop_htu_mismatch"
      else
        -- a missing or empty nonce of the input is not checked
        match input.nonce.filter (· ≠ "") with
        | none => finish payload jwk jti iat
        | some expected =>
          if payload.nonce ≠ some expected then Prog.fail "use_dpop_nonce"
          else
            let isValidNonce ← verifyNonce expected
            if isValidNonce = false then Prog.fail "use_dpop_nonce"
            else finish payload jwk jti iat
where
  finish (payload : ProofPayload) (jwk : Jwk) (jti : String) (iat : Rat) : Run VerifyResult := do
    let jkt := rt.calculateJwkThumbprint jwk
    let replayAccepted ← rememberProofJti jkt jti maxSkewSec
    if replayAccepted = false then Prog.fail "dpop_replay_detected"
    else
      match input.accessToken.filter (· ≠ "") with
      | none => pure ⟨jkt, jti, iat⟩
      | some accessToken =>
        let ath := payload.ath.getD ""
        if ath = "" ∨ ath ≠ rt.sha256base64url accessToken then Prog.fail "invalid_dpop_ath"
        else pure ⟨jkt, jti, iat⟩

/-- `verify` in a caller that goes on with the result. -/
def verifyAndAccept (input : VerifyInput) : Run Unit := do
  let result ← verify rt maxSkewSec input
  accepted result.jkt

/-- `writeOAuthError(reply, new OAuthError('use_dpop_nonce', 401, …), …, nonce)` -/
def challenge (description nonce : String) : Run (Option String) := do
  sendError 401 "use_dpop_nonce" description (some nonce)
  pure none

/-- The request as `verifyDpopWithNonce` is called for it: the header is `none` when it
is missing or sent more than once. -/
structure DpopRequest where
  dpopHeader : Option String
  method : String
  htu : String
  deriving DecidableEq, Repr

def mintDpopNonce : Run String := mintNonce 300

def verifyDpopWithNonce (req : DpopRequest) : Run (Option String) := do
  let nonce ← mintDpopNonce
  match req.dpopHeader.filter (rt.trim · ≠ "") with
  | none => challenge "DPoP proof is required" nonce
  | some dpopHeader =>
    let input : VerifyInput := ⟨dpopHeader, req.method, req.htu, some nonce, none⟩
    let verified ← Prog.attempt (verify rt maxSkewSec input)
    match verified with
    | .ok proof => pure (some proof.jkt)
    | .error _ => challenge "DPoP proof nonce mismatch or invalid proof" nonce

/-- `if (!dpopJkt) return;` of the PAR and the token endpoint -/
def authenticate (req : DpopRequest) : Run Unit := do
  match ← verifyDpopWithNonce rt maxSkewSec req with
  | none => pure ()
  | some jkt => accepted jkt

end Verify

/-- Redis as far as it is used here, keys with their deadlines, the latest first; the
clock; and what nothing reads: the random texts drawn, the nonces of responses and the
calls that were accepted. -/
structure Server (τ : Type) where
  clock : Nat
  nonces : List (String × Nat)
  proofs : List ((String × String) × Nat)
  drawn : List String
  answered : List String
  accepted : List τ
  deriving DecidableEq

namespace Server
variable {τ K : Type} [DecidableEq K]

def empty : Server τ := ⟨0, [], [], [], [], []⟩

def deadlineOf (entries : List (K × Nat)) (key : K) : Option Nat := entries.lookup key

/-- The key exists at this time. -/
def live (entries : List (K × Nat)) (key : K) (now : Nat) : Bool :=
  (deadlineOf entries key).any fun deadline => now < deadline

def deadline (s : Server τ) (ttlSec : Nat) : Nat := s.clock + ttlSec * 1000

theorem deadlineOf_cons (entries : List (K × Nat)) (key other : K) (deadline : Nat) :
    deadlineOf ((other, deadline) :: entries) key =
      if key = other then some deadline else deadlineOf entries key := by
  unfold deadlineOf
  rw [List.lookup_cons]
  by_cases same : key = other
  · simp [same]
  · rw [if_neg same, beq_false_of_ne same]

def remember (s : Server τ) (jkt jti : String) (ttlSec : Nat) : Server τ :=
  { s with proofs := ((jkt, jti), s.deadline ttlSec) :: s.proofs }

/-- What a call replies and changes. A random text is not empty and was not drawn before. -/
def Effect (tag : τ) : (c : Call) → Server τ → Reply c → Server τ → Prop
  | .now, s, reply, t => reply = s.clock ∧ t = s
  | .importJWK _, s, _, t | .jwtVerify .., s, _, t => t = s
  | .randomUUID, s, reply, t =>
    (reply ≠ "" ∧ reply ∉ s.drawn) ∧ t = { s with drawn := reply :: s.drawn }
  | .setNonce nonce ttlSec, s, _, t => t = { s with nonces := (nonce, s.deadline ttlSec) :: s.nonces }
  | .nonceExists nonce, s, reply, t => reply = live s.nonces nonce s.clock ∧ t = s
  | .rememberProofJti jkt jti ttlSec, s, reply, t =>
    reply = !live s.proofs (jkt, jti) s.clock ∧
      t = if live s.proofs (jkt, jti) s.clock then s else s.remember jkt jti ttlSec
  | .sendError _ _ _ dpopNonce, s, _, t => t = { s with answered := dpopNonce.toList ++ s.answered }
  | .accepted _, s, _, t => t = { s with accepted := tag :: s.accepted }

/-- One outcome of each call: signatures verify, and the random text is longer by one
letter every time. -/
def perform (tag : τ) : (c : Call) → Server τ → Option (Reply c × Server τ)
  | .now, s => some (s.clock, s)
  | .importJWK _, s | .jwtVerify .., s => some (true, s)
  | .randomUUID, s =>
    let text := String.ofList (List.replicate (s.drawn.length + 1) 'n')
    if text = "" ∨ text ∈ s.drawn then none else some (text, { s with drawn := text :: s.drawn })
  | .setNonce nonce ttlSec, s =>
    some ((), { s with nonces := (nonce, s.deadline ttlSec) :: s.nonces })
  | .nonceExists nonce, s => some (live s.nonces nonce s.clock, s)
  | .rememberProofJti jkt jti ttlSec, s =>
    some (!live s.proofs (jkt, jti) s.clock,
      if live s.proofs (jkt, jti) s.clock then s else s.remember jkt jti ttlSec)
  | .sendError _ _ _ dpopNonce, s => some ((), { s with answered := dpopNonce.toList ++ s.answered })
  | .accepted _, s => some ((), { s with accepted := tag :: s.accepted })

theorem effect_of_perform {tag : τ} {c : Call} {s t : Server τ} {reply : Reply c}
    (performed : perform tag c s = some (reply, t)) : Effect tag c s reply t := by
  cases c with
  | randomUUID =>
    simp only [perform, Option.ite_none_left_eq_some, not_or, Option.some.injEq] at performed
    obtain ⟨fresh, rfl, rfl⟩ := performed
    exact ⟨fresh, rfl⟩
  | now | nonceExists | rememberProofJti =>
    cases performed
    exact ⟨rfl, rfl⟩
  | _ =>
    cases performed
    rfl

end Server

/-- Any number of `verify` calls, with time passing between their steps. -/
def verifySystem (rt : Runtime) (maxSkewSec : Nat) :
    Lib.WorkerPool.System (Server VerifyInput) VerifyInput Nat Call Reply String Unit where
  effect := Server.Effect
  starts _ worker := worker.program = verifyAndAccept rt maxSkewSec worker.tag
  acts elapsed s t := t = { s with clock := s.clock + elapsed }

/-- A request with what nothing reads: the nonces of the responses sent before it came, and
whether its proof's key can be imported and its signature verifies. -/
structure Presented where
  req : DpopRequest
  answered : List String
  signed : Bool
  deriving DecidableEq, Repr

/-- How `jose` treats the proof of this request. -/
def Verifies (presented : Presented) : (c : Call) → Reply c → Prop
  | .importJWK _, reply | .jwtVerify .., reply => presented.signed = true → reply = true
  | _, _ => True

/-- Any number of requests to the endpoints, with time passing between their steps. -/
def handshakeSystem (rt : Runtime) (maxSkewSec : Nat) :
    Lib.WorkerPool.System (Server Presented) Presented Nat Call Reply String Unit where
  effect presented c s reply t := Server.Effect presented c s reply t ∧ Verifies presented c reply
  starts s worker :=
    worker.tag.answered = s.answered ∧
      worker.program = authenticate rt maxSkewSec worker.tag.req
  acts elapsed s t := t = { s with clock := s.clock + elapsed }

end MastopodFederation.Source.DpopVerifier
