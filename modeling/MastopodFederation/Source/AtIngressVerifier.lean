import MastopodFederation.Lib.Logged
import MastopodFederation.Source.CommitEvent

/-!
# Ingress verifier: from a raw envelope to trusted events

at-adapter/ingress/AtIngressVerifier.ts (`DefaultAtIngressVerifier`) with
`decodeFull` of AtFirehoseDecoder.ts. The CBOR reader, base64, the classifier, the
commit verifier, the resolver, the rebuilder, the spam evaluator and both
publishers are services: each call is logged with its arguments and may answer
anything or throw.
-/
namespace MastopodFederation.Source.AtIngressVerifier
open Lib.Logged Lib.Logged.Logged Cbor CommitEvent

abbrev Frame := Bytes

section Decoder
variable (decodeCborFirst : Frame → Option (Cbor × Frame))

def decodeFirstValue (data : Frame) : Except String (Cbor × Frame) :=
  match decodeCborFirst data with
  | some decoded => .ok decoded
  | none => .error "Invalid DRISL-CBOR frame"

def requireMap (value : Cbor) (message : String) : Except String Cbor :=
  match value with
  | .map _ | .cid _ => .ok value
  | _ => .error message

def isInteger : Option Cbor → Option Int
  | some (.number value) => if value.den = 1 then some value.num else none
  | _ => none

def isText : Option Cbor → Bool
  | some (.text _) => true
  | _ => false

def validateHeaderMap (header : Cbor) : Except String Unit :=
  match isInteger (header.get "op") with
  | none => .error "Frame header is missing a valid op field"
  | some op =>
    if op = 1 ∧ ¬ isText (header.get "t") then
      .error "Message frame header is missing a valid t field"
    else if op = -1 ∧ (header.get "t").isSome ∧ ¬ isText (header.get "t") then
      .error "Error frame header contains an invalid t field"
    else .ok ()

/-- The header and body maps of a frame that consists of exactly these two. -/
def decodeFull (frame : Frame) : Except String (Cbor × Cbor) := do
  if frame.isEmpty then throw "Empty frame received"
  let (header, remaining) ← decodeFirstValue decodeCborFirst frame
  let headerMap ← requireMap header "Frame header is not a CBOR map"
  validateHeaderMap headerMap
  if remaining.isEmpty then throw "Frame payload is missing"
  let (body, trailing) ← decodeFirstValue decodeCborFirst remaining
  if ¬ trailing.isEmpty then throw "Frame contains trailing bytes after payload"
  let bodyMap ← requireMap body "Frame payload is not a CBOR map"
  return (headerMap, bodyMap)

end Decoder

inductive AtFirehoseEventType where
  | commit | identity | account | sync | info
  deriving DecidableEq, Repr

def AtFirehoseEventType.text : AtFirehoseEventType → String
  | .commit => "#commit"
  | .identity => "#identity"
  | .account => "#account"
  | .sync => "#sync"
  | .info => "#info"

structure AtFirehoseRawEnvelope where
  seq : Nat
  source : String
  eventType : AtFirehoseEventType
  did : Option String
  rawCborBase64 : String

inductive FailureReason where
  | decode_failed | unsupported_event | signature_invalid | repo_state_invalid
  | did_resolution_failed | handle_validation_failed | account_reconciliation_failed
  | sync_rebuild_failed | dedupe_rejected
  deriving DecidableEq, Repr

structure VerifiedOp where
  action : Action
  collection : String
  rkey : String
  cid : Option String
  record : Option Cbor

/-- What `verifyCommit` answers. -/
structure CommitResult where
  isValid : Bool
  requiresSync : Bool
  failureReason : Option FailureReason
  reason : Option String
  ops : Option (List VerifiedOp)

structure IdentityResult where
  success : Bool
  handle : Option String
  didDocument : Option Cbor
  reason : Option String

structure RebuildResult where
  success : Bool
  reason : Option String

inductive SpamAction where
  | accept | label | filter | reject
  deriving DecidableEq, Repr

inductive IngressPayload where
  | commit (rev : Option Cbor) (op : VerifiedOp) (signatureValid : Bool)
  | identity (handle : Option String) (didDocument : Cbor)
  | account (active : Bool) (status : Option Cbor)

/-- A trusted event; `eventType` is the kind of its payload. -/
structure AtIngressEvent where
  seq : Nat
  did : Cbor
  source : String
  payload : IngressPayload

def AtIngressEvent.eventType (event : AtIngressEvent) : AtFirehoseEventType :=
  match event.payload with
  | .commit .. => .commit
  | .identity .. => .identity
  | .account .. => .account

structure AtVerifyFailedEvent where
  seq : Nat
  did : Option String
  source : String
  eventType : AtFirehoseEventType
  reason : FailureReason
  details : List (String × Option Cbor)

/-- One awaited call and its arguments. -/
inductive Effect where
  | isDuplicate (source : String) (seq : Nat)
  | isRelevantDid (did : Cbor)
  | markProcessed (source : String) (seq : Nat)
  | verifyCommit (body : Cbor)
  | rebuildRepo (did : Cbor) (source : String)
  | resolveIdentity (did : Cbor)
  | evaluateAt (did : Cbor) (op : VerifiedOp)
  | publish (event : AtIngressEvent)
  | publishVerifyFailed (event : AtVerifyFailedEvent)

/-- The answers of the injected services; an error is a rejected call. -/
structure Services where
  decodeCborFirst : Frame → Option (Cbor × Frame)
  fromBase64 : String → Frame
  isDuplicate : String → Nat → Except String Bool
  isRelevantDid : Cbor → Except String Bool
  markProcessed : String → Nat → Except String Unit
  verifyCommit : Cbor → Except String CommitResult
  rebuildRepo : Cbor → String → Except String RebuildResult
  resolveIdentity : Cbor → Except String IdentityResult
  /-- `buildEnvelopeFromAT` and, where an evaluator is configured, its verdict:
  the outer failure escapes the handler, the inner one is caught by it -/
  buildEnvelopeFromAT : Cbor → VerifiedOp → Except String Bool
  spamEvaluator : Option (Cbor → VerifiedOp → Except String (Option SpamAction))
  publish : AtIngressEvent → Except String Unit
  publishVerifyFailed : AtVerifyFailedEvent → Except String Unit

abbrev Run := Logged Effect String

section Handlers
variable (services : Services) (envelope : AtFirehoseRawEnvelope)

def publishFailure (reason : FailureReason) (details : List (String × Option Cbor)) : Run Unit :=
  let event : AtVerifyFailedEvent :=
    { seq := envelope.seq, did := envelope.did, source := envelope.source
      eventType := envelope.eventType, reason := reason, details := details }
  reply (.publishVerifyFailed event) (services.publishVerifyFailed event)

def publish (did : Cbor) (payload : IngressPayload) : Run Unit :=
  let event : AtIngressEvent := ⟨envelope.seq, did, envelope.source, payload⟩
  reply (.publish event) (services.publish event)

/-- Only a created post is evaluated, and an error of the evaluator lets it pass. -/
def suppressedAsSpam (did : Cbor) (op : VerifiedOp) : Run Bool :=
  match services.spamEvaluator with
  | none => pure false
  | some evaluateAt =>
    if op.action = .create ∧ op.collection = "app.bsky.feed.post" ∧ truthy op.record then do
      let built ← ofExcept (services.buildEnvelopeFromAT did op)
      if built then
        match ← attempt (reply (.evaluateAt did op) (evaluateAt did op)) with
        | .ok (some .filter) | .ok (some .reject) => return true
        | .ok _ | .error _ => return false
      else return false
    else pure false

def publishOp (did body : Cbor) (op : VerifiedOp) : Run Unit := do
  let suppressed ← suppressedAsSpam services did op
  if suppressed then pure () else publish services envelope did (.commit (body.get "rev") op true)

def handleCommit (did : Option Cbor) (body : Cbor) : Run Unit :=
  match did with
  | some d => if truthy did then do
      let result ← reply (.verifyCommit body) (services.verifyCommit body)
      if ¬ result.isValid then
        publishFailure services envelope (result.failureReason.getD .signature_invalid)
          [("reason", result.reason.map .text)]
      else if result.requiresSync then
        let syncResult ← reply (.rebuildRepo d envelope.source) (services.rebuildRepo d envelope.source)
        if ¬ syncResult.success then
          publishFailure services envelope .sync_rebuild_failed
            [("reason", some (.text ((syncResult.reason.or result.reason).getD
              "commit verification requested repo rebuild")))]
        else pure ()
      else
        match result.ops with
        | none => pure ()
        | some ops => forM ops (publishOp services envelope d body)
    else missing
  | none => missing
where
  missing : Run Unit :=
    publishFailure services envelope .decode_failed
      [("reason", some (.text "missing DID in commit"))]

def handleIdentity (did : Option Cbor) : Run Unit :=
  match did with
  | some d => if truthy did then do
      let result ← reply (.resolveIdentity d) (services.resolveIdentity d)
      match result.success, result.didDocument with
      | true, some didDocument =>
        publish services envelope d (.identity result.handle didDocument)
      | _, _ =>
        publishFailure services envelope .did_resolution_failed
          [("reason", result.reason.map .text)]
    else missing
  | none => missing
where
  missing : Run Unit :=
    publishFailure services envelope .decode_failed
      [("reason", some (.text "missing DID in identity event"))]

def isTrue : Option Cbor → Bool
  | some (.bool true) => true
  | _ => false

def handleAccount (did : Option Cbor) (body : Cbor) : Run Unit :=
  match did with
  | some d => if truthy did then
      publish services envelope d (.account (isTrue (body.get "active")) (body.get "status"))
    else missing
  | none => missing
where
  missing : Run Unit :=
    publishFailure services envelope .decode_failed
      [("reason", some (.text "missing DID in account event"))]

def handleSync (did : Option Cbor) : Run Unit :=
  match did with
  | some d => if truthy did then do
      let result ← reply (.rebuildRepo d envelope.source) (services.rebuildRepo d envelope.source)
      if ¬ result.success then
        publishFailure services envelope .sync_rebuild_failed
          [("reason", result.reason.map .text)]
      else pure ()
    else missing
  | none => missing
where
  missing : Run Unit :=
    publishFailure services envelope .decode_failed
      [("reason", some (.text "missing DID in sync event"))]

/-- `header.did ?? body?.did ?? body?.repo ?? envelope.did` -/
def selectDid (header body : Cbor) : Option Cbor :=
  coalesce (header.get "did") (coalesce (body.get "did")
    (coalesce (body.get "repo") (envelope.did.map .text)))

/-- `header.t || envelope.eventType` -/
def eventTypeOf (header : Cbor) : Cbor :=
  match header.get "t" with
  | some t => if truthy (some t) then t else .text envelope.eventType.text
  | none => .text envelope.eventType.text

def markProcessed : Run Unit :=
  reply (.markProcessed envelope.source envelope.seq)
    (services.markProcessed envelope.source envelope.seq)

def route (did : Option Cbor) (body eventType : Cbor) : Run Unit :=
  match eventType with
  | .text "#commit" => handleCommit services envelope did body
  | .text "#identity" => handleIdentity services envelope did
  | .text "#account" => handleAccount services envelope did body
  | .text "#sync" => handleSync services envelope did
  | .text "#info" => pure ()
  | _ => publishFailure services envelope .unsupported_event [("eventType", some eventType)]

def isRelevant (did : Option Cbor) : Run Bool :=
  match did with
  | some d =>
    if truthy did then reply (.isRelevantDid d) (services.isRelevantDid d) else pure true
  | none => pure true

/-- Steps 3 to 6, for a frame that is new and decodes. -/
def handleDecoded (header body : Cbor) : Run Bool := do
  let did := selectDid envelope header body
  let relevant ← isRelevant services did
  if ¬ relevant then
    markProcessed services envelope
    return true
  else
    route services envelope did body (eventTypeOf envelope header)
    markProcessed services envelope
    return true

def decode : Except String (Cbor × Cbor) :=
  decodeFull services.decodeCborFirst (services.fromBase64 envelope.rawCborBase64)

/-- The body of the outer `try`. -/
def handleFrame : Run Bool := do
  let duplicate ← reply (.isDuplicate envelope.source envelope.seq)
    (services.isDuplicate envelope.source envelope.seq)
  if duplicate then
    publishFailure services envelope .dedupe_rejected [("reason", some (.text "already processed"))]
    return true
  else
    match decode services envelope with
    | .error message =>
      publishFailure services envelope .decode_failed [("error", some (.text message))]
      return true
    | .ok (header, body) => handleDecoded services envelope header body

/-- True when the frame is handled, false when it is to be retried. -/
def handleRawEvent : Run Bool := do
  match ← attempt (handleFrame services envelope) with
  | .ok handled => return handled
  | .error _ => return false

end Handlers

end MastopodFederation.Source.AtIngressVerifier
