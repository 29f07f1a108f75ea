import MastopodFederation.Source.OriginReconciliationWorker

/-!
# The four stream consumers

`consumeInbound`, `consumeOutbound`, `consumeOutboxIntents` and `consumeOriginReconciliation`
of queue/sidecar-redis-queue-core.ts with the deserializers and the normalization of Redis
replies. A run is a list of rounds of the endless loop; a round is given by what XAUTOCLAIM
and XREADGROUP answer. Waiting, logging and the creation of a missing consumer group are
left out.
-/
namespace MastopodFederation.Source.StreamConsumers
open Lib.LuaTable DelayedQueue InboundVerification
open OriginReconciliationWorker (OriginReconciliationJob)

/-- An entry of a reply: an array of two, an object, or anything else. -/
inductive ReplyEntry where
  | pair (messageId : String) (fields : Fields)
  | object (id : Option String) (message : Option Fields)
  | other

/-- A message id and the fields of its entry. -/
abbrev Entry := String × Fields

/-- `none` is a reply that is not an array. -/
def normalizeClaimedMessages (messages : Option (List ReplyEntry)) : List Entry :=
  (messages.getD []).filterMap fun
    | .pair messageId fields => some (messageId, fields)
    | .object (some id) (some message) => some (id, message)
    | .object _ _ | .other => none

inductive StreamReply where
  | pair (name : String) (messages : List Entry)
  | object (name : Option String) (messages : Option (List ReplyEntry))
  | other

def normalizeStreamRead (streams : Option (List StreamReply)) : List (String × List Entry) :=
  (streams.getD []).filterMap fun
    | .pair name messages => some (name, messages)
    | .object (some name) messages => some (name, normalizeClaimedMessages messages)
    | .object none _ | .other => none

/-- The entries of all streams of a reply, in order. -/
def newEntries (streams : Option (List StreamReply)) : List Entry :=
  (normalizeStreamRead streams).flatMap (·.2)

/-- An inbound envelope with its headers as JSON.parse returns them. -/
structure InboundEnvelope where
  envelopeId : String
  method : String
  path : String
  headers : Json
  body : String
  remoteIp : String
  receivedAt : Int
  attempt : Int
  notBeforeMs : Int
  verification : Option Verification

section
variable (rt : Runtime) (codec : PayloadCodec)

/-- `parseInt(fields[key] || "0", 10)` -/
def optionalInt (fields : Fields) (key : String) : Int :=
  rt.parseInt ((optionalText fields key).getD "0")

/-- Metadata that is no JSON is ignored like metadata of another shape. -/
def parseVerificationField (fields : Fields) : Option Verification :=
  (optionalText fields "verification").bind fun raw =>
    parseInboundVerification (rt.parse raw).toOption

def deserializeInboundEnvelope (messageId : String) (fields : Fields) :
    Except String InboundEnvelope := do
  let envelopeId ← requireField fields "envelopeId" messageId
  let method ← requireField fields "method" messageId
  let path ← requireField fields "path" messageId
  let headers ← rt.parse (← requireField fields "headers" messageId)
  let body ← requireField fields "body" messageId
  let remoteIp ← requireField fields "remoteIp" messageId
  let receivedAt ← requireInt rt fields "receivedAt" messageId
  return { envelopeId, method, path, headers, body, remoteIp, receivedAt
           attempt := optionalInt rt fields "attempt"
           notBeforeMs := optionalInt rt fields "notBeforeMs"
           verification := parseVerificationField rt fields }

def deserializeOriginReconciliationJob (messageId : String) (fields : Fields) :
    Except String OriginReconciliationJob := do
  let jobId ← requireField fields "jobId" messageId
  let originObjectUrl ← requireField fields "originObjectUrl" messageId
  let reason ← requireField fields "reason" messageId
  let createdAt ← requireInt rt fields "createdAt" messageId
  let attempt ← requireInt rt fields "attempt" messageId
  let maxAttempts ← requireInt rt fields "maxAttempts" messageId
  let notBeforeMs ← requireInt rt fields "notBeforeMs" messageId
  let windowExpiresAt ← requireInt rt fields "windowExpiresAt" messageId
  return { jobId, originObjectUrl, reason, createdAt, attempt, maxAttempts, notBeforeMs
           windowExpiresAt
           canonicalObjectId := optionalText fields "canonicalObjectId"
           actorUriHint := optionalText fields "actorUriHint"
           lastFingerprint := optionalText fields "lastFingerprint"
           unchangedSuccesses := optionalInt rt fields "unchangedSuccesses"
           notFoundCount := optionalInt rt fields "notFoundCount"
           lastError := optionalText fields "lastError" }

end

section
variable {α : Type} (deserialize : String → Fields → Except String α)

/-- A loop without error handling of its own: what it yields, and the error that leaves it. -/
def yieldAll : List Entry → List (String × α) × Option String
  | [] => ([], none)
  | (messageId, fields) :: rest =>
    match deserialize messageId fields with
    | .error error => ([], some error)
    | .ok value =>
      let (yielded, error) := yieldAll rest
      ((messageId, value) :: yielded, error)

/-- A loop that logs a malformed entry and goes on. -/
def yieldEach : List Entry → List (String × α) × Option String
  | [] => ([], none)
  | (messageId, fields) :: rest =>
    let (yielded, error) := yieldEach rest
    match deserialize messageId fields with
    | .error _ => (yielded, error)
    | .ok value => ((messageId, value) :: yielded, error)

end

/-- What Redis answers in one round. -/
structure Round where
  pending : Except String (Option (List ReplyEntry))
  messages : Except String (Option (List StreamReply))

/-- What one round yields of the claimed entries and, where it comes to them, of the new
ones. -/
structure Yields (α : Type) where
  claimed : List (String × α)
  new : Option (List (String × α))

/-- One round of the endless loop with this loop over both batches. -/
def pollRound {α : Type} (loop : List Entry → List (String × α) × Option String)
    (round : Round) : Yields α :=
  match round.pending with
  | .error _ => ⟨[], none⟩
  | .ok pending =>
    match loop (normalizeClaimedMessages pending) with
    | (claimed, some _) => ⟨claimed, none⟩
    | (claimed, none) =>
      match round.messages with
      | .error _ => ⟨claimed, none⟩
      | .ok messages => ⟨claimed, some (loop (newEntries messages)).1⟩

section
variable (rt : Runtime) (codec : PayloadCodec)

def consumeInbound (rounds : List Round) : List (Yields InboundEnvelope) :=
  rounds.map (pollRound (yieldAll (deserializeInboundEnvelope rt)))

def consumeOutbound (rounds : List Round) : List (Yields OutboundJob) :=
  rounds.map (pollRound (yieldEach (deserializeOutboundJob rt codec)))

def consumeOutboxIntents (rounds : List Round) : List (Yields OutboxIntent) :=
  rounds.map (pollRound (yieldEach (deserializeOutboxIntent rt codec)))

def consumeOriginReconciliation (rounds : List Round) : List (Yields OriginReconciliationJob) :=
  rounds.map (pollRound (yieldAll (deserializeOriginReconciliationJob rt)))

end
end MastopodFederation.Source.StreamConsumers
