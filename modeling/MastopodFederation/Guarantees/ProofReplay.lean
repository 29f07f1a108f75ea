import MastopodFederation.Source.DpopVerifier
import MastopodFederation.Lib.PoolRuns
import MastopodFederation.Lib.SingleUse

/-!
# How often a DPoP proof is accepted

A proof is in range from `maxSkewSec` before to `maxSkewSec` after its `iat`, and its
replay key lives for `maxSkewSec` from its first use. The key outlives the range exactly
as long as it is written in a later second than `iat`.
-/
namespace MastopodFederation.Guarantees.ProofReplay
open Lib.Calls Lib.GuardedRun Lib.WorkerPool Lib.PoolRuns Lib.SingleUse Source.DpopVerifier

section Replay
variable (rt : Runtime) (maxSkewSec : Nat)

def iatOf (proofJwt : String) : Rat := (rt.payload proofJwt).iat.getD 0

def keyOf (proofJwt : String) : String × String :=
  let jkt := match headerKey rt proofJwt with
    | .ok jwk => rt.calculateJwkThumbprint jwk
    | .error _ => ""
  (jkt, (rt.payload proofJwt).jti.getD "")

def Timely (proofJwt : String) (clock : Nat) : Prop :=
  iatOf rt proofJwt < epochSec clock ∧ (epochSec clock : Rat) ≤ iatOf rt proofJwt + maxSkewSec

instance (proofJwt : String) (clock : Nat) : Decidable (Timely rt maxSkewSec proofJwt clock) := by
  unfold Timely
  infer_instance

def RecordsInTime (pool : Pool (Server VerifyInput) VerifyInput Call Reply String Unit) :
    Label VerifyInput Nat Call Reply String Unit → Prop
  | .call i =>
    match pool.workers i with
    | some ⟨input, .call (.rememberProofJti ..) _⟩ =>
      Timely rt maxSkewSec input.proofJwt pool.shared.clock
    | _ => True
  | _ => True

instance (pool : Pool (Server VerifyInput) VerifyInput Call Reply String Unit)
    (label : Label VerifyInput Nat Call Reply String Unit) :
    Decidable (RecordsInTime rt maxSkewSec pool label) := by
  unfold RecordsInTime
  split
  · split <;> infer_instance
  · infer_instance

structure Use where
  proofJwt : String
  remembered : Bool
  deriving DecidableEq

def useMonitor : Monitor Call Reply Use where
  allows u
    | .rememberProofJti jkt jti ttlSec =>
      u.remembered = false ∧ (jkt, jti) = keyOf rt u.proofJwt ∧ ttlSec = maxSkewSec
    | .accepted _ => u.remembered = true
    | _ => True
  after u
    | .rememberProofJti .., reply => { u with remembered := reply }
    | .accepted _, _ => { u with remembered := false }
    | _, _ => u

variable {rt maxSkewSec} {input : VerifyInput} {α : Type} {u : Use}
  {post : Use → Except String α → Prop}

def Quiet : Call → Prop
  | .rememberProofJti .. | .accepted _ => False
  | _ => True

theorem quiet_bind {c : Call} {next : Reply c → Run α} (quiet : Quiet c)
    (met : ∀ reply, Meets (useMonitor rt maxSkewSec) (next reply) post u) :
    Meets (useMonitor rt maxSkewSec) ((.call c pure : Run (Reply c)) >>= next) post u := by
  cases c with
  | rememberProofJti | accepted => nomatch quiet
  | _ => exact meets_ignored trivial (fun _ => rfl) met

def Remembered (proofJwt : String) : Use → Except String VerifyResult → Prop :=
  Ends (fun _ _ => True) fun _ u => u = ⟨proofJwt, true⟩

variable {payload : ProofPayload}

theorem finish_meets {jwk : Jwk} {jti : String} {iat : Rat}
    (key : (rt.calculateJwkThumbprint jwk, jti) = keyOf rt input.proofJwt) :
    Meets (useMonitor rt maxSkewSec) (verify.finish rt maxSkewSec input payload jwk jti iat)
      (Remembered input.proofJwt) ⟨input.proofJwt, false⟩ := by
  refine ⟨⟨rfl, key, rfl⟩, fun reply => ?_⟩
  cases reply with
  | false => trivial
  | true =>
    cases input.accessToken.filter (· ≠ "") with
    | none => exact rfl
    | some accessToken =>
      change Meets _ (if _ ∨ _ then Prog.fail _ else pure _) _ _
      split
      · trivial
      · rfl

theorem requiredClaims_ok {htm htu jti : String} {iat : Rat}
    (read : requiredClaims payload = .ok (htm, htu, jti, iat)) :
    jti = payload.jti.getD "" ∧ iat = payload.iat.getD 0 := by
  unfold requiredClaims at read
  dsimp only at read
  split at read
  · nomatch read
  · cases read
    exact ⟨rfl, rfl⟩

theorem verify_meets : Meets (useMonitor rt maxSkewSec) (verify rt maxSkewSec input)
    (Remembered input.proofJwt) ⟨input.proofJwt, false⟩ := by
  unfold verify
  cases header : headerKey rt input.proofJwt with
  | error e => trivial
  | ok jwk =>
    refine quiet_bind (c := .importJWK jwk) trivial fun imported => ?_
    cases imported with
    | false => trivial
    | true =>
    refine quiet_bind (c := .jwtVerify input.proofJwt jwk) trivial fun verified => ?_
    cases verified with
    | false => trivial
    | true =>
    change Meets _ (Prog.done (requiredClaims (rt.payload input.proofJwt)) >>= _) _ _
    cases required : requiredClaims (rt.payload input.proofJwt) with
    | error e => trivial
    | ok claims =>
      obtain ⟨htm, htu, jti, iat⟩ := claims
      have key : (rt.calculateJwkThumbprint jwk, jti) = keyOf rt input.proofJwt := by
        simp only [keyOf, header, (requiredClaims_ok required).1]
      refine quiet_bind (c := .now) trivial fun now => ?_
      split
      · trivial
      split
      · trivial
      split
      · trivial
      split
      · exact finish_meets key
      split
      · trivial
      refine quiet_bind (c := .nonceExists _) trivial fun isValidNonce => ?_
      cases isValidNonce with
      | false => trivial
      | true => exact finish_meets key

theorem verifyAndAccept_obeys :
    Obeys (useMonitor rt maxSkewSec) (verifyAndAccept rt maxSkewSec input)
      ⟨input.proofJwt, false⟩ := by
  unfold Obeys verifyAndAccept
  rw [meets_bind]
  apply verify_meets.imp
  intro u outcome ended
  cases outcome with
  | error e => trivial
  | ok result =>
    have remembered : u = ⟨input.proofJwt, true⟩ := ended
    rw [remembered]
    exact ⟨rfl, fun _ => trivial⟩

def Outlives (rt : Runtime) (maxSkewSec : Nat) (s : Server VerifyInput) (proofJwt : String) :
    Prop :=
  ∃ deadline, Server.deadlineOf s.proofs (keyOf rt proofJwt) = some deadline ∧
    iatOf rt proofJwt + maxSkewSec < epochSec deadline

def proofRight (_ : VerifyInput) (u : Use) : Option String :=
  if u.remembered then some u.proofJwt else none

/-- Every call is about the proof of its input, a written replay key was not written twice,
and all of them outlive their proofs. -/
structure Guards (rt : Runtime) (maxSkewSec : Nat) (s : Server VerifyInput)
    (duties : Nat → Option (VerifyInput × Use)) : Prop where
  own : ∀ i input u, duties i = some (input, u) → u.proofJwt = input.proofJwt
  exclusive : Exclusive (rights proofRight duties) (s.accepted.map (·.proofJwt))
  outlives : ∀ proofJwt, proofJwt ∈ s.accepted.map (·.proofJwt) ∨
    (∃ i, rights proofRight duties i = some proofJwt) → Outlives rt maxSkewSec s proofJwt

section Guards
variable {s t : Server VerifyInput} {duties : Nat → Option (VerifyInput × Use)} {i : Nat}
  {reply : Bool} {jkt jti : String}

theorem Guards.frame (guards : Guards rt maxSkewSec s duties) (proofs : t.proofs = s.proofs)
    (accepted : t.accepted = s.accepted) : Guards rt maxSkewSec t duties where
  own := guards.own
  exclusive := accepted ▸ guards.exclusive
  outlives := by
    unfold Outlives
    rw [accepted, proofs]
    exact guards.outlives

theorem Guards.dropped (guards : Guards rt maxSkewSec s duties) {duty : Option (VerifyInput × Use)}
    (own : ∀ input u, duty = some (input, u) → u = ⟨input.proofJwt, false⟩) :
    Guards rt maxSkewSec s (setDuty duties i duty) := by
  have none : (duty.bind fun d => proofRight d.1 d.2) = none := by
    cases duty with
    | none => rfl
    | some d => rw [Option.bind_some, own d.1 d.2 rfl]; rfl
  have changed := rights_setDuty proofRight duties i duty
  rw [none] at changed
  constructor
  · intro j input u duty
    unfold setDuty at duty
    split at duty
    · rw [own input u duty]
    · exact guards.own j input u duty
  · rw [changed]
    exact guards.exclusive.drop
  · intro proofJwt spent
    apply guards.outlives
    refine spent.imp id ?_
    rintro ⟨j, held⟩
    rw [changed] at held
    rcases setRight_some held with ⟨-, ⟨⟩⟩ | ⟨-, before⟩
    exact ⟨j, before⟩

theorem Outlives.live (outlives : Outlives rt maxSkewSec s input.proofJwt)
    (timely : Timely rt maxSkewSec input.proofJwt s.clock) :
    Server.live s.proofs (keyOf rt input.proofJwt) s.clock = true := by
  obtain ⟨deadline, found, later⟩ := outlives
  have seconds : (epochSec s.clock : Rat) < epochSec deadline := by linarith [timely.2]
  have sooner : epochSec s.clock < epochSec deadline := by exact_mod_cast seconds
  simp only [epochSec] at sooner
  simp only [Server.live, found, Option.any_some, decide_eq_true_eq]
  omega

theorem outlives_remember {proofJwt : String}
    (gone : Server.live s.proofs (jkt, jti) s.clock = false)
    (outlives : Outlives rt maxSkewSec s proofJwt) :
    Outlives rt maxSkewSec (s.remember jkt jti maxSkewSec) proofJwt := by
  obtain ⟨deadline, found, later⟩ := outlives
  by_cases same : keyOf rt proofJwt = (jkt, jti)
  · refine ⟨s.deadline maxSkewSec, by simp [Server.remember, Server.deadlineOf_cons, same], ?_⟩
    rw [same] at found
    simp only [Server.live, found, Option.any_some, decide_eq_false_iff_not, Nat.not_lt] at gone
    have order : epochSec deadline ≤ epochSec (s.deadline maxSkewSec) := by
      simp only [epochSec, Server.deadline]
      omega
    have order' : (epochSec deadline : Rat) ≤ epochSec (s.deadline maxSkewSec) := by
      exact_mod_cast order
    linarith
  · refine ⟨deadline, ?_, later⟩
    rw [Server.remember, Server.deadlineOf_cons, if_neg same, found]

theorem Guards.remembered (guards : Guards rt maxSkewSec s duties)
    (duty : duties i = some (input, ⟨input.proofJwt, false⟩))
    (key : (jkt, jti) = keyOf rt input.proofJwt)
    (timely : Timely rt maxSkewSec input.proofJwt s.clock)
    (gone : Server.live s.proofs (jkt, jti) s.clock = false) :
    Guards rt maxSkewSec (s.remember jkt jti maxSkewSec)
      (setDuty duties i (some (input, ⟨input.proofJwt, true⟩))) := by
  have unused : ¬(input.proofJwt ∈ s.accepted.map (·.proofJwt) ∨
      ∃ j, rights proofRight duties j = some input.proofJwt) := by
    intro spent
    have alive := (guards.outlives _ spent).live timely
    rw [← key, gone] at alive
    nomatch alive
  rw [not_or] at unused
  have changed := rights_setDuty proofRight duties i (some (input, ⟨input.proofJwt, true⟩))
  constructor
  · intro j other u held
    unfold setDuty at held
    split at held
    · cases held
      rfl
    · exact guards.own j other u held
  · rw [changed]
    exact guards.exclusive.acquire unused.1 fun j held => unused.2 ⟨j, held⟩
  · intro proofJwt spent
    by_cases same : proofJwt = input.proofJwt
    · refine ⟨s.deadline maxSkewSec, ?_, ?_⟩
      · rw [same, ← key, Server.remember, Server.deadlineOf_cons, if_pos rfl]
      have written : epochSec (s.deadline maxSkewSec) = epochSec s.clock + maxSkewSec := by
        simp only [epochSec, Server.deadline]
        omega
      rw [same, written]
      push_cast
      linarith [timely.1]
    · apply outlives_remember gone
      apply guards.outlives
      refine spent.imp id ?_
      rintro ⟨j, held⟩
      rw [changed] at held
      rcases setRight_some held with ⟨-, made⟩ | ⟨-, before⟩
      · exact absurd (Option.some.inj made).symm same
      · exact ⟨j, before⟩

theorem Guards.accept (guards : Guards rt maxSkewSec s duties)
    (duty : duties i = some (input, ⟨input.proofJwt, true⟩)) :
    Guards rt maxSkewSec { s with accepted := input :: s.accepted }
      (setDuty duties i (some (input, ⟨input.proofJwt, false⟩))) := by
  have changed := rights_setDuty proofRight duties i (some (input, ⟨input.proofJwt, false⟩))
  have held : rights proofRight duties i = some input.proofJwt := by
    simp [rights, duty, proofRight]
  constructor
  · exact (guards.dropped fun other u same => by cases same; rfl).own
  · rw [changed]
    exact guards.exclusive.use held
  · intro proofJwt spent
    apply guards.outlives
    rcases spent with listed | ⟨j, later⟩
    · rcases List.mem_cons.mp listed with rfl | before
      · exact .inr ⟨i, held⟩
      · exact .inl before
    · rw [changed] at later
      rcases setRight_some later with ⟨-, ⟨⟩⟩ | ⟨-, before⟩
      exact .inr ⟨j, before⟩

theorem quiet_effect {c : Call} {tag : VerifyInput} {reply : Reply c} (quiet : Quiet c)
    (performed : Server.Effect tag c s reply t) :
    t.proofs = s.proofs ∧ t.accepted = s.accepted ∧ (useMonitor rt maxSkewSec).after u c reply = u := by
  cases c with
  | rememberProofJti | accepted => nomatch quiet
  | now | randomUUID | nonceExists =>
    cases performed.2
    exact ⟨rfl, rfl, rfl⟩
  | _ =>
    cases performed
    exact ⟨rfl, rfl, rfl⟩

theorem Guards.quiet (guards : Guards rt maxSkewSec s duties) {c : Call} {reply : Reply c}
    (quiet : Quiet c) (duty : duties i = some (input, u))
    (performed : Server.Effect input c s reply t) :
    Guards rt maxSkewSec t
      (setDuty duties i (some (input, (useMonitor rt maxSkewSec).after u c reply))) := by
  have unchanged : t.proofs = s.proofs ∧ t.accepted = s.accepted ∧
      (useMonitor rt maxSkewSec).after u c reply = u := quiet_effect quiet performed
  obtain ⟨proofs, accepted, same⟩ := unchanged
  rw [same, ← duty, setDuty_self]
  exact guards.frame proofs accepted

end Guards

theorem guards_preserved :
    PreservesAt (verifySystem rt maxSkewSec) (RecordsInTime rt maxSkewSec)
      (useMonitor rt maxSkewSec) (fun _ => True) (Guards rt maxSkewSec) where
  call pool duties i input u c next reply after admitted guards running duty allowed performed := by
    cases c with
    | rememberProofJti jkt jti ttlSec =>
      obtain ⟨unwritten, key, rfl⟩ := allowed
      obtain ⟨answer, written⟩ := performed
      have own : u = ⟨input.proofJwt, false⟩ := by
        cases u
        cases unwritten
        rw [← guards.own i input _ duty]
      rw [own] at key duty
      have timely : Timely rt ttlSec input.proofJwt pool.shared.clock := by
        have admits : RecordsInTime rt ttlSec pool (.call i) := admitted
        simpa only [RecordsInTime, running] using admits
      cases gone : Server.live pool.shared.proofs (jkt, jti) pool.shared.clock with
      | true =>
        rw [gone, if_pos rfl] at written
        rw [gone] at answer
        cases answer
        rw [own, written]
        exact guards.dropped fun _ _ same => by cases same; rfl
      | false =>
        rw [gone, if_neg Bool.false_ne_true] at written
        rw [gone] at answer
        cases answer
        rw [own, written]
        exact guards.remembered duty key timely gone
    | accepted jkt =>
      have own : u = ⟨input.proofJwt, true⟩ := by
        cases u
        cases (allowed : _ = true)
        rw [← guards.own i input _ duty]
      rw [own] at duty ⊢
      cases (performed : after = _)
      exact guards.accept duty
    | _ => exact guards.quiet trivial duty performed
  stop pool duties i _ guards _ := guards.dropped fun _ _ gone => nomatch gone
  start pool duties i worker _ guards _ starts := by
    refine ⟨⟨worker.tag.proofJwt, false⟩, ?_, ?_⟩
    · rw [(starts : worker.program = _)]
      exact verifyAndAccept_obeys
    · exact guards.dropped fun _ _ same => by cases same; rfl
  act pool duties elapsed after _ guards passed := by
    cases (passed : after = _)
    exact guards.frame rfl rfl

end Replay

def dated (iat : Rat) : Runtime where
  decodeProtectedHeader _ := .ok ⟨some "dpop+jwt", some "ES256", some "key"⟩
  payload proofJwt := ⟨some "POST", some "https://pds.example/oauth/token", some proofJwt,
    some iat, none, none⟩
  calculateJwkThumbprint jwk := jwk
  sha256base64url text := text
  toUpperCase text := text
  trim text := text

def trusting (rt : Runtime) (maxSkewSec : Nat) :
    Schedule (Server VerifyInput) VerifyInput Nat Call Reply String Unit where
  perform := Server.perform
  boot input := verifyAndAccept rt maxSkewSec input
  admits _ _ := true
  react elapsed s := some { s with clock := s.clock + elapsed }

theorem trusting_follows (rt : Runtime) (maxSkewSec : Nat) :
    (trusting rt maxSkewSec).Follows (verifySystem rt maxSkewSec) where
  perform _ _ _ _ _ performed := Server.effect_of_perform performed
  admits _ _ _ := rfl
  react _ _ _ picked := by
    cases picked
    rfl

def proofInput : VerifyInput :=
  ⟨"proof", "POST", "https://pds.example/oauth/token", none, none⟩

def useAt (elapsed i : Nat) : List (Turn VerifyInput Nat) :=
  [.act elapsed, .start i proofInput, .call i, .call i, .call i, .call i, .call i]

def onceServer : Server VerifyInput :=
  ⟨350000, [], [(("key", "proof"), 450000)], [], [], [proofInput]⟩

def twiceServer : Server VerifyInput :=
  ⟨400000, [], [(("key", "proof"), 700000), (("key", "proof"), 400000)], [], [],
    [proofInput, proofInput]⟩

end MastopodFederation.Guarantees.ProofReplay
