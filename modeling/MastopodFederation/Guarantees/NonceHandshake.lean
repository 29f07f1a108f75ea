import MastopodFederation.Source.DpopVerifier
import MastopodFederation.Lib.PoolRuns

/-!
# The DPoP nonce handshake

A request first mints a nonce and then wants its proof to carry that very nonce. The text
is drawn after the request came, so it is none that a client can have read from a response.
-/
namespace MastopodFederation.Guarantees.NonceHandshake
open Lib.Calls Lib.GuardedRun Lib.WorkerPool Lib.PoolRuns Source.DpopVerifier

section Handshake
variable (rt : Runtime) (maxSkewSec : Nat)

def proofNonce (req : DpopRequest) : Option String :=
  req.dpopHeader.bind fun dpopHeader => (rt.payload dpopHeader).nonce

structure Minting where
  req : DpopRequest
  minted : Option String

def mintMonitor : Monitor Call Reply Minting where
  allows u
    | .sendError _ _ _ dpopNonce => dpopNonce = u.minted
    | .accepted _ =>
      ∃ nonce, u.minted = some nonce ∧ (nonce ≠ "" → proofNonce rt u.req = some nonce)
    | _ => True
  after u
    | .randomUUID, reply => { u with minted := some reply }
    | _, _ => u

variable {rt maxSkewSec} {input : VerifyInput} {req : DpopRequest} {u : Minting} {α : Type}
  {nonce : String}

def Verifying : Call → Prop
  | .randomUUID | .sendError .. | .accepted _ => False
  | _ => True

theorem verifying_bind {c : Call} {next : Reply c → Run α} {post : Minting → Except String α → Prop}
    (verifying : Verifying c) (met : ∀ reply, Meets (mintMonitor rt) (next reply) post u) :
    Meets (mintMonitor rt) ((.call c pure : Run (Reply c)) >>= next) post u := by
  cases c with
  | randomUUID | sendError | accepted => nomatch verifying
  | _ => exact meets_ignored trivial (fun _ => rfl) met

def Carries (rt : Runtime) (proofJwt nonce : String) (u : Minting) :
    Minting → Except String VerifyResult → Prop :=
  Ends (fun _ t => t = u) fun _ t =>
    t = u ∧ (nonce ≠ "" → (rt.payload proofJwt).nonce = some nonce)

theorem finish_carries {payload : ProofPayload} {jwk : Jwk} {jti : String} {iat : Rat}
    (carried : nonce ≠ "" → (rt.payload input.proofJwt).nonce = some nonce) :
    Meets (mintMonitor rt) (verify.finish rt maxSkewSec input payload jwk jti iat)
      (Carries rt input.proofJwt nonce u) u := by
  refine verifying_bind (c := .rememberProofJti ..) trivial fun reply => ?_
  cases reply with
  | false => exact rfl
  | true =>
    cases input.accessToken.filter (· ≠ "") with
    | none => exact ⟨rfl, carried⟩
    | some accessToken =>
      change Meets _ (if _ ∨ _ then Prog.fail _ else pure _) _ _
      split
      · exact rfl
      · exact ⟨rfl, carried⟩

theorem verify_carries (nonce : String) (wanted : input.nonce = some nonce) :
    Meets (mintMonitor rt) (verify rt maxSkewSec input) (Carries rt input.proofJwt nonce u) u := by
  unfold verify
  cases header : headerKey rt input.proofJwt with
  | error e => exact rfl
  | ok jwk =>
    refine verifying_bind (c := .importJWK jwk) trivial fun imported => ?_
    cases imported with
    | false => exact rfl
    | true =>
    refine verifying_bind (c := .jwtVerify input.proofJwt jwk) trivial fun verified => ?_
    cases verified with
    | false => exact rfl
    | true =>
    change Meets _ (Prog.done (requiredClaims (rt.payload input.proofJwt)) >>= _) _ _
    cases requiredClaims (rt.payload input.proofJwt) with
    | error e => exact rfl
    | ok claims =>
      refine verifying_bind (c := .now) trivial fun now => ?_
      split
      · exact rfl
      split
      · exact rfl
      split
      · exact rfl
      rw [wanted]
      by_cases filled : nonce = ""
      · -- an empty nonce would not be compared
        have absent : Option.filter (· ≠ "") (some nonce) = none := by simp [filled]
        rw [absent]
        exact finish_carries fun nonempty => absurd filled nonempty
      have expected : Option.filter (· ≠ "") (some nonce) = some nonce := by simp [filled]
      rw [expected]
      change Meets _ (if _ then _ else _) _ _
      split
      · exact rfl
      next same =>
        refine verifying_bind (c := .nonceExists nonce) trivial fun isValidNonce => ?_
        cases isValidNonce with
        | false => exact rfl
        | true => exact finish_carries fun _ => Decidable.not_not.mp same

theorem challenge_meets {description : String} (minted : u.minted = some nonce) :
    Meets (mintMonitor rt) (challenge description nonce)
      (fun t outcome => outcome = .ok none ∧ t = u) u := by
  refine ⟨minted.symm, fun reply => ?_⟩
  exact ⟨rfl, rfl⟩

def Admitted (rt : Runtime) (req : DpopRequest) (u : Minting) :
    Option String → Prop
  | none => True
  | some _ => u.req = req ∧
    ∃ nonce, u.minted = some nonce ∧ (nonce ≠ "" → proofNonce rt req = some nonce)

theorem verifyDpopWithNonce_meets :
    Meets (mintMonitor rt) (verifyDpopWithNonce rt maxSkewSec req)
      (Ends (fun _ _ => True) fun jkt u => Admitted rt req u jkt) ⟨req, none⟩ := by
  unfold verifyDpopWithNonce mintDpopNonce mintNonce
  refine ⟨trivial, fun nonce => ⟨trivial, fun _ => ⟨trivial, fun _ => ?_⟩⟩⟩
  change Meets _ (match req.dpopHeader.filter (rt.trim · ≠ "") with
    | none => challenge "DPoP proof is required" nonce
    | some dpopHeader => _) _ (⟨req, some nonce⟩ : Minting)
  split
  next => exact (challenge_meets rfl).imp fun t outcome ended => by rw [ended.1]; trivial
  next dpopHeader given =>
    have present : req.dpopHeader = some dpopHeader := (Option.filter_eq_some_iff.mp given).1
    rw [meets_bind, meets_attempt]
    refine (verify_carries nonce rfl).imp fun t outcome ended => ?_
    cases outcome with
    | error e =>
      rw [(ended : t = _)]
      exact (challenge_meets rfl).imp fun t outcome ended => by rw [ended.1]; trivial
    | ok proof =>
      obtain ⟨same, carried⟩ := ended
      rw [same]
      refine ⟨rfl, nonce, rfl, fun filled => ?_⟩
      rw [proofNonce, present]
      exact carried filled

theorem authenticate_obeys :
    Obeys (mintMonitor rt) (authenticate rt maxSkewSec req) ⟨req, none⟩ := by
  unfold Obeys authenticate
  rw [meets_bind]
  refine verifyDpopWithNonce_meets.imp fun u outcome ended => ?_
  cases outcome with
  | error e => trivial
  | ok jkt =>
    cases jkt with
    | none => trivial
    | some jkt =>
      obtain ⟨rfl, admitted⟩ := (ended : Admitted rt req u (some jkt))
      exact ⟨admitted, fun _ => trivial⟩

def Foretold (rt : Runtime) (drawn : List String) (presented : Presented) : Prop :=
  ∃ nonce, proofNonce rt presented.req = some nonce ∧ nonce ∈ drawn ∧
    nonce ∉ presented.answered

structure Mints (drawn : List String) (presented : Presented) (u : Minting) : Prop where
  own : u.req = presented.req
  answered : ∀ nonce ∈ presented.answered, nonce ∈ drawn
  minted : ∀ nonce, u.minted = some nonce →
    nonce ≠ "" ∧ nonce ∈ drawn ∧ nonce ∉ presented.answered

structure Draws (rt : Runtime) (s : Server Presented)
    (duties : Nat → Option (Presented × Minting)) : Prop where
  answered : ∀ nonce ∈ s.answered, nonce ∈ s.drawn
  mints : ∀ i presented u, duties i = some (presented, u) → Mints s.drawn presented u
  foretold : ∀ presented ∈ s.accepted, Foretold rt s.drawn presented

section Draws
variable {s t : Server Presented} {duties : Nat → Option (Presented × Minting)} {i : Nat}
  {presented : Presented} {drawn : List String}

theorem Foretold.more (foretold : Foretold rt drawn presented) :
    Foretold rt (nonce :: drawn) presented := by
  obtain ⟨carried, same, listed, unknown⟩ := foretold
  exact ⟨carried, same, List.mem_cons_of_mem _ listed, unknown⟩

theorem Mints.more (mints : Mints drawn presented u) : Mints (nonce :: drawn) presented u where
  own := mints.own
  answered known answered := List.mem_cons_of_mem _ (mints.answered known answered)
  minted known minted :=
    have before := mints.minted known minted
    ⟨before.1, List.mem_cons_of_mem _ before.2.1, before.2.2⟩

theorem Draws.worker (draws : Draws rt s duties) (drawn : t.drawn = s.drawn)
    (answered : ∀ nonce ∈ t.answered, nonce ∈ s.drawn)
    (foretold : ∀ other ∈ t.accepted, Foretold rt s.drawn other)
    {duty : Option (Presented × Minting)}
    (mints : ∀ presented u, duty = some (presented, u) → Mints s.drawn presented u) :
    Draws rt t (setDuty duties i duty) := by
  constructor
  · rw [drawn]
    exact answered
  · intro j presented u held
    rw [drawn]
    unfold setDuty at held
    split at held
    · exact mints presented u held
    · exact draws.mints j presented u held
  · rw [drawn]
    exact foretold

theorem Draws.frame (draws : Draws rt s duties) (drawn : t.drawn = s.drawn)
    (answered : t.answered = s.answered) (accepted : t.accepted = s.accepted)
    (duty : duties i = some (presented, u)) :
    Draws rt t (setDuty duties i (some (presented, u))) :=
  draws.worker drawn (answered ▸ draws.answered) (accepted ▸ draws.foretold)
    fun _ _ same => by cases same; exact draws.mints i _ _ duty

theorem Draws.draw (draws : Draws rt s duties) (duty : duties i = some (presented, u))
    (filled : nonce ≠ "") (fresh : nonce ∉ s.drawn) :
    Draws rt { s with drawn := nonce :: s.drawn }
      (setDuty duties i (some (presented, { u with minted := some nonce }))) := by
  have before := draws.mints i _ _ duty
  constructor
  · exact fun known answered => List.mem_cons_of_mem _ (draws.answered known answered)
  · intro j other v held
    unfold setDuty at held
    split at held
    · cases held
      refine ⟨before.own, before.more.answered, fun known minted => ?_⟩
      cases minted
      exact ⟨filled, List.mem_cons_self, fun listed => fresh (before.answered _ listed)⟩
    · exact (draws.mints j other v held).more
  · exact fun other accepted => (draws.foretold other accepted).more

theorem Draws.accept (draws : Draws rt s duties) (duty : duties i = some (presented, u))
    (admitted : ∃ nonce, u.minted = some nonce ∧
      (nonce ≠ "" → proofNonce rt u.req = some nonce)) :
    Draws rt { s with accepted := presented :: s.accepted }
      (setDuty duties i (some (presented, u))) := by
  have mints := draws.mints i _ _ duty
  obtain ⟨nonce, minted, carried⟩ := admitted
  obtain ⟨filled, drawn, unknown⟩ := mints.minted nonce minted
  have foretold : Foretold rt s.drawn presented := by
    refine ⟨nonce, ?_, drawn, unknown⟩
    rw [← mints.own]
    exact carried filled
  apply draws.worker
  · rfl
  · exact draws.answered
  · intro other listed
    rcases List.mem_cons.mp listed with rfl | before
    · exact foretold
    · exact draws.foretold other before
  · intro _ _ same
    cases same
    exact mints

end Draws

theorem draws_preserved :
    Preserves (handshakeSystem rt maxSkewSec) always (mintMonitor rt) (Draws rt) where
  call s duties i presented u c reply t draws duty allowed performed := by
    obtain ⟨performed, -⟩ := performed
    cases c with
    | randomUUID =>
      obtain ⟨⟨filled, fresh⟩, rfl⟩ := performed
      exact draws.draw duty filled fresh
    | sendError status error description dpopNonce =>
      cases (performed : t = _)
      have mints := draws.mints i _ _ duty
      apply draws.worker
      · rfl
      · intro nonce answered
        rcases List.mem_append.mp answered with sent | before
        · have minted : u.minted = some nonce := by
            rw [← (allowed : dpopNonce = u.minted)]
            exact Option.mem_toList.mp sent
          exact (mints.minted nonce minted).2.1
        · exact draws.answered nonce before
      · exact draws.foretold
      · intro _ _ same
        cases same
        exact mints
    | accepted jkt =>
      cases (performed : t = _)
      exact draws.accept duty allowed
    | now | nonceExists =>
      cases performed.2
      exact draws.frame rfl rfl rfl duty
    | rememberProofJti jkt jti ttlSec =>
      obtain ⟨-, rfl⟩ := performed
      split <;> exact draws.frame rfl rfl rfl duty
    | _ =>
      cases performed
      exact draws.frame rfl rfl rfl duty
  stop s duties i draws :=
    draws.worker rfl draws.answered draws.foretold fun _ _ gone => nomatch gone
  start pool duties i worker _ draws _ starts := by
    obtain ⟨known, program⟩ := starts
    refine ⟨⟨worker.tag.req, none⟩, ?_, ?_⟩
    · rw [program]
      exact authenticate_obeys
    · refine draws.worker rfl draws.answered draws.foretold fun _ _ same => ?_
      cases same
      exact ⟨rfl, known ▸ draws.answered, fun _ minted => nomatch minted⟩
  act pool duties elapsed after _ draws passed := by
    cases (passed : after = _)
    exact ⟨draws.answered, draws.mints, draws.foretold⟩

/-- The request of a client that keeps to the protocol, as it comes: the proof is signed, made
for the method and the URL, in range and new, and carries the live nonce of a response. -/
structure Honest (rt : Runtime) (maxSkewSec : Nat) (s : Server Presented)
    (presented : Presented) : Prop where
  signed : presented.signed = true
  answered : presented.answered = s.answered
  carries : ∃ nonce ∈ s.answered, proofNonce rt presented.req = some nonce ∧
    Server.live s.nonces nonce s.clock = true
  proof : ∃ proofJwt jwk htm jti iat, presented.req.dpopHeader = some proofJwt ∧
    rt.trim proofJwt ≠ "" ∧ headerKey rt proofJwt = .ok jwk ∧
    requiredClaims (rt.payload proofJwt) = .ok (htm, presented.req.htu, jti, iat) ∧
    rt.toUpperCase htm = rt.toUpperCase presented.req.method ∧
    outOfRange maxSkewSec s.clock iat = false ∧
    ∀ used ∈ s.proofs, used.1 ≠ (rt.calculateJwkThumbprint jwk, jti)

/-- In every run no honest request is accepted: an accepted proof carries a nonce of the
server that no response before the request carried. -/
theorem handshake_never_completes (rt : Runtime) (maxSkewSec clock : Nat)
    (pool : Pool (Server Presented) Presented Call Reply String Unit)
    (run : Reaches (Step (handshakeSystem rt maxSkewSec)) always
      (Pool.idle { Server.empty with clock := clock }) pool) :
    (∀ s presented, Honest rt maxSkewSec s presented → presented ∉ pool.shared.accepted) ∧
      ∀ presented ∈ pool.shared.accepted, ∃ nonce, proofNonce rt presented.req = some nonce ∧
        nonce ∈ pool.shared.drawn ∧ nonce ∉ presented.answered := by
  have start : Draws rt { (Server.empty : Server Presented) with clock := clock }
      fun _ => none := by
    refine ⟨?_, fun _ _ _ none => (nomatch none), ?_⟩ <;> intro _ listed <;> cases listed
  obtain ⟨duties, draws⟩ := invariant draws_preserved start run
  refine ⟨fun s presented honest accepted => ?_, draws.foretold⟩
  obtain ⟨nonce, carried, -, unknown⟩ := draws.foretold presented accepted
  obtain ⟨known, answered, same, -⟩ := honest.carries
  rw [carried] at same
  cases same
  rw [honest.answered] at unknown
  exact unknown answered

end Handshake

def carrying : Runtime where
  decodeProtectedHeader _ := .ok ⟨some "dpop+jwt", some "ES256", some "key"⟩
  payload proofJwt := ⟨some "POST", some "https://pds.example/oauth/par", some proofJwt,
    some 100, some "n", none⟩
  calculateJwkThumbprint jwk := jwk
  sha256base64url text := text
  toUpperCase text := text
  trim text := text

def firstRequest : Presented := ⟨⟨none, "POST", "https://pds.example/oauth/par"⟩, [], true⟩

def secondRequest : Presented :=
  ⟨⟨some "proof", "POST", "https://pds.example/oauth/par"⟩, ["n"], true⟩

def asked : Server Presented :=
  ⟨100000, [("n", 400000)], [], ["n"], ["n"], []⟩

def askedAgain : Server Presented :=
  ⟨100000, [("nn", 400000), ("n", 400000)], [], ["nn", "n"], ["nn", "n"], []⟩

theorem asked_honest : Honest carrying 300 asked secondRequest where
  signed := rfl
  answered := rfl
  carries := ⟨"n", by decide, rfl, by decide⟩
  proof := ⟨"proof", "key", "POST", "proof", 100, rfl, by decide, rfl, by decide +kernel, rfl,
    by decide +kernel, fun _ used => nomatch used⟩

theorem performs (presented : Presented) (c : Call)
    (s : Server Presented) (reply : Reply c) (t : Server Presented)
    (performed : Server.perform presented c s = some (reply, t)) :
    (handshakeSystem carrying 300).effect presented c s reply t := by
  refine ⟨Server.effect_of_perform performed, ?_⟩
  cases c with
  | importJWK | jwtVerify =>
    cases performed
    exact fun _ => rfl
  | _ => trivial

def early : Server Presented := { Server.empty with clock := 100000 }

theorem served_first (presented : Presented) (known : presented.answered = [])
    (after : Server Presented)
    (served : serve (Server.perform presented) (authenticate carrying 300 presented.req) early =
      some (.ok (), after)) :
    Reaches (Step (handshakeSystem carrying 300)) always (Pool.idle early)
      (Pool.single after presented (.done (.ok ()))) := by
  have started : Reaches (Step (handshakeSystem carrying 300)) always (Pool.idle early)
      (Pool.single early presented (authenticate carrying 300 presented.req)) :=
    reaches_start .refl trivial ⟨known, rfl⟩
  exact started.trans (reaches_served (performs presented) (fun _ => trivial) _ _ _ _ served)

def guessing : Presented := ⟨⟨some "proof", "POST", "https://pds.example/oauth/par"⟩, [], true⟩

def guessed : Server Presented :=
  ⟨100000, [("n", 400000)], [(("key", "proof"), 400000)], ["n"], [], [guessing]⟩

theorem handshake_never_completes_guessing :
    guessed.accepted = [guessing] ∧
      (∀ s presented, Honest carrying 300 s presented → presented ∉ guessed.accepted) ∧
      ∀ presented ∈ guessed.accepted, ∃ nonce, proofNonce carrying presented.req = some nonce ∧
        nonce ∈ guessed.drawn ∧ nonce ∉ presented.answered :=
  ⟨rfl, handshake_never_completes carrying 300 100000
    (Pool.single guessed guessing (.done (.ok ())))
    (served_first guessing rfl guessed (by decide +kernel))⟩

def atOnce (_ : Pool (Server Presented) Presented Call Reply String Unit)
    (label : Label Presented Nat Call Reply String Unit) : Prop := label = .call 0

theorem honest_refused :
    ¬ ∀ (rt : Runtime) (maxSkewSec clock : Nat) (s after : Server Presented)
      (presented : Presented) (outcome : Except String Unit), 0 < maxSkewSec →
      Reaches (Step (handshakeSystem rt maxSkewSec)) always
        (Pool.idle { Server.empty with clock := clock }) (Pool.idle s) →
      Honest rt maxSkewSec s presented →
      Reaches (Step (handshakeSystem rt maxSkewSec)) atOnce
        (Pool.single s presented (authenticate rt maxSkewSec presented.req))
        (Pool.single after presented (.done outcome)) →
      presented ∈ after.accepted := by
  intro completes
  have challenged := served_first firstRequest rfl asked (by decide +kernel)
  have idle : Reaches (Step (handshakeSystem carrying 300)) always (Pool.idle early)
      (Pool.idle asked) := reaches_stop challenged trivial
  have once : ∀ pool, atOnce pool (.call 0) := fun _ => rfl
  have refused : Reaches (Step (handshakeSystem carrying 300)) atOnce
      (Pool.single asked secondRequest (authenticate carrying 300 secondRequest.req))
      (Pool.single askedAgain secondRequest (.done (.ok ()))) :=
    reaches_served (performs secondRequest) once _ _ _ _ (by decide +kernel)
  have accepted := completes carrying 300 100000 asked askedAgain secondRequest (.ok ())
    (by decide) idle asked_honest refused
  exact absurd accepted (by decide)

end MastopodFederation.Guarantees.NonceHandshake
