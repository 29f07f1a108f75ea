import MastopodFederation.Source.Fep3ab2ReplayStore

/-!
# Media stream workers

queue/secureWorker.ts, queue/retryScheduler.ts, queue/producer.ts and queue/dlq.ts of the
media pipeline: one pass of the loop of `runSecureWorker` with `drainDueRetries`,
`processMessages`, `processMessage` and `scheduleRetry`. Redis commands, the handlers, the
clock and random numbers are calls. The sanitized payload of a dead letter is a parameter.
-/
namespace MastopodFederation.Source.SecureWorker
open Lib.Calls
open Fep3ab2ReplayStore (parseInt)

/-- A record of texts. `job` is a history variable no code reads: the enqueue that the copy
of a message stems from. -/
structure Message where
  job : Nat
  fields : List (String × String)
  deriving DecidableEq

namespace Message

def get (message : Message) (field : String) : Option String := message.fields.lookup field

/-- `{ ...message, [field]: value }` -/
def set (message : Message) (field value : String) : Message :=
  { message with fields := (field, value) :: message.fields.filter (·.1 ≠ field) }

end Message

/-- A thrown value: a `MediaPipelineError`, or anything else by its message. -/
inductive Thrown where
  | pipeline (code message : String) (retryable : Bool) (statusCode : Option Int)
  | other (message : String)
  deriving DecidableEq

def errorMessage : Thrown → String
  | .pipeline _ message _ _ | .other message => message

def errorCode : Thrown → String
  | .pipeline code .. => code
  | .other _ => "MEDIA_PIPELINE_UNEXPECTED"

def isRetryableError : Thrown → Bool
  | .pipeline _ _ retryable _ => retryable
  | .other _ => false

def errorStatusCode : Thrown → Option Int
  | .pipeline _ _ _ statusCode => statusCode
  | .other _ => none

structure ScheduledRetryMember where
  id : String
  message : Message
  deriving DecidableEq

/-- A member of the retry set: the JSON text of a scheduled retry, or a text that does not
parse as one. -/
inductive EntryValue where
  | scheduled (member : ScheduledRetryMember)
  | other (text : String)
  deriving DecidableEq

def parseScheduledRetryMember : EntryValue → Option ScheduledRetryMember
  | .scheduled member => some member
  | .other _ => none

/-- A member with its score; scores are times in whole milliseconds, so that the check of
`drainDueRetries` for numbers that are not finite always passes. -/
structure RetryEntry where
  score : Int
  value : EntryValue
  deriving DecidableEq

structure WorkerEnvelope where
  id : String
  message : Message
  deriving DecidableEq

/-- What a batch handler returns speaks about the messages it was given. -/
structure BatchHandlerResult (messages : List WorkerEnvelope) where
  handledMessageIds : Option (List String)
  failedMessages : Option (List WorkerEnvelope)
  handledGiven : ∀ ids, handledMessageIds = some ids →
    ∀ id ∈ ids, ∃ envelope ∈ messages, envelope.id = id
  failedGiven : ∀ failed, failedMessages = some failed → ∀ envelope ∈ failed, envelope ∈ messages

structure DlqPayload where
  job : Nat
  stream : String
  messageId : String
  error : String
  errorCode : String
  retryable : String
  retryAttempts : String
  retriesExhausted : String
  statusCode : String
  failedAt : String
  payload : String

inductive Call where
  | now
  | randomUUID
  /-- `Math.floor(Math.random() * bound)` -/
  | jitter (bound : Int)
  /-- ZPOPMIN, and the clock when its reply arrives -/
  | zPopMin
  /-- the ZADD that puts back a member which is not due -/
  | pushBack (entry : RetryEntry)
  /-- the XADD of a due retry -/
  | requeue (message : Message)
  /-- the ZADD of a new retry -/
  | schedule (entry : RetryEntry)
  | xAutoClaim (count : Int)
  | xReadGroup (count : Int)
  | handler (message : Message)
  | batchHandler (messages : List WorkerEnvelope)
  | pushToDlq (payload : DlqPayload)
  | xAck (messageIds : List String)

abbrev Reply : Call → Type
  | .now | .jitter _ => Int
  | .randomUUID => String
  | .zPopMin => Except String (Option (RetryEntry × Int))
  | .xAutoClaim _ | .xReadGroup _ => Except String (List WorkerEnvelope)
  | .pushBack _ | .requeue _ | .schedule _ | .pushToDlq _ | .xAck _ => Except String Unit
  | .handler _ => Except Thrown Unit
  | .batchHandler messages => Except Thrown (Option (BatchHandlerResult messages))

abbrev Program := Prog Call Reply Thrown

structure Environment where
  /-- `new Date(ms).toISOString()` -/
  isoString : Int → String
  /-- the JSON text of the sanitized message -/
  payload : Message → String

structure Config where
  workerMaxScheduledRetries : Nat
  workerRetryBaseDelayMs : Int
  workerRetryMaxDelayMs : Int
  pendingClaimBatchSize : Int

/-- The parameters of `runSecureWorker` that a pass reads. -/
structure Params where
  stream : String
  readCount : Int
  hasBatchHandler : Bool

def clock : Program Int := .call .now fun value => .done (.ok value)

def randomUUID : Program String := .call .randomUUID fun value => .done (.ok value)

def randomBelow (bound : Int) : Program Int := .call (.jitter bound) fun value => .done (.ok value)

/-- A failed command throws an error that is no `MediaPipelineError`. -/
def answered {α : Type} (reply : Except String α) : Program α := .done (reply.mapError .other)

def zPopMin : Program (Option (RetryEntry × Int)) := .call .zPopMin answered

def pushBack (entry : RetryEntry) : Program Unit := .call (.pushBack entry) answered

def requeue (message : Message) : Program Unit := .call (.requeue message) answered

def zAdd (entry : RetryEntry) : Program Unit := .call (.schedule entry) answered

def xAutoClaim (count : Int) : Program (List WorkerEnvelope) := .call (.xAutoClaim count) answered

def xReadGroup (count : Int) : Program (List WorkerEnvelope) := .call (.xReadGroup count) answered

def handler (message : Message) : Program Unit := .call (.handler message) .done

def batchHandler (messages : List WorkerEnvelope) :
    Program (Option (BatchHandlerResult messages)) := .call (.batchHandler messages) .done

def pushToDlq (payload : DlqPayload) : Program Unit := .call (.pushToDlq payload) answered

def retryAttemptField : String := "_retryAttempt"

def retryAtField : String := "_retryAt"

def retryFirstFailedAtField : String := "_retryFirstFailedAt"

def retryLastErrorCodeField : String := "_retryLastErrorCode"

def retryLastErrorMessageField : String := "_retryLastErrorMessage"

def maxRetryErrorMessageLength : Nat := 256

/-- `message[field] || otherwise` -/
def fieldOr (message : Message) (field otherwise : String) : String :=
  match message.get field with
  | none | some "" => otherwise
  | some text => text

def retryAttemptForMessage (message : Message) : Nat :=
  (parseInt (fieldOr message retryAttemptField "0").toList).getD 0

def canScheduleRetry (cfg : Config) (message : Message) : Bool :=
  retryAttemptForMessage message < cfg.workerMaxScheduledRetries

/-- Lengths are counted in characters, in JavaScript in UTF-16 units. -/
def truncateRetryErrorMessage (message : String) : String :=
  if message.length ≤ maxRetryErrorMessageLength then message
  else String.ofList (message.toList.take (maxRetryErrorMessageLength - 3)) ++ "..."

def calculateExponentialBackoffDelayMs (attempt : Nat) (baseDelayMs maxDelayMs : Int) : Program Int :=
  randomBelow (max 1 (min maxDelayMs (baseDelayMs * 2 ^ attempt) + 1))

def scheduledMessage (env : Environment) (message : Message) (dueAtMs firstFailedAtMs : Int)
    (error : Thrown) : Message :=
  let firstFailedAt := fieldOr message retryFirstFailedAtField (env.isoString firstFailedAtMs)
  ((((message.set retryAttemptField (retryAttemptForMessage message + 1).repr).set
    retryAtField (env.isoString dueAtMs)).set
    retryFirstFailedAtField firstFailedAt).set
    retryLastErrorCodeField (errorCode error)).set
    retryLastErrorMessageField (truncateRetryErrorMessage (errorMessage error))

def scheduleRetry (env : Environment) (cfg : Config) (message : Message) (error : Thrown) :
    Program Unit := do
  let delayMs ← calculateExponentialBackoffDelayMs (retryAttemptForMessage message)
    cfg.workerRetryBaseDelayMs cfg.workerRetryMaxDelayMs
  let startedAt ← clock
  let dueAtMs := startedAt + delayMs
  let firstFailedAtMs ← clock
  let id ← randomUUID
  zAdd ⟨dueAtMs, .scheduled ⟨id, scheduledMessage env message dueAtMs firstFailedAtMs error⟩⟩

/-- The loop of `drainDueRetries`; the fuel bounds how many members one drain pops. -/
def drainLoop (limit : Int) : Nat → Int → Program Int
  | 0, drained => pure drained
  | fuel + 1, drained =>
    if drained < limit then do
      match ← zPopMin with
      | none => pure drained
      | some (entry, now) =>
        if entry.score > now then do
          pushBack entry
          pure drained
        else
          match parseScheduledRetryMember entry.value with
          | none => drainLoop limit fuel drained
          | some parsed => do
            requeue parsed.message
            drainLoop limit fuel (drained + 1)
    else pure drained

def drainDueRetries (fuel : Nat) (limit : Int) : Program Int :=
  if limit ≤ 0 then pure 0 else drainLoop limit fuel 0

def ackMessageIds (messageIds : List String) : Program Unit :=
  if messageIds.isEmpty then pure () else .call (.xAck messageIds) answered

def boolText (value : Bool) : String := if value then "true" else "false"

/-- `String(statusCode || '')` -/
def statusText : Option Int → String
  | none => ""
  | some code => if code = 0 then "" else toString code

def dlqPayload (env : Environment) (cfg : Config) (stream : String) (envelope : WorkerEnvelope)
    (err : Thrown) (failedAtMs : Int) : DlqPayload where
  job := envelope.message.job
  stream := stream
  messageId := envelope.id
  error := errorMessage err
  errorCode := errorCode err
  retryable := boolText (isRetryableError err)
  retryAttempts := (retryAttemptForMessage envelope.message).repr
  retriesExhausted := boolText (isRetryableError err && !canScheduleRetry cfg envelope.message)
  statusCode := statusText (errorStatusCode err)
  failedAt := env.isoString failedAtMs
  payload := env.payload envelope.message

def deadLetter (env : Environment) (cfg : Config) (stream : String) (envelope : WorkerEnvelope)
    (err : Thrown) : Program Unit := do
  let failedAtMs ← clock
  pushToDlq (dlqPayload env cfg stream envelope err failedAtMs)
  ackMessageIds [envelope.id]

/-- The catch block of `processMessage`. -/
def handleFailure (env : Environment) (cfg : Config) (stream : String) (envelope : WorkerEnvelope)
    (err : Thrown) : Program Unit :=
  if isRetryableError err && canScheduleRetry cfg envelope.message then
    (do scheduleRetry env cfg envelope.message err
        ackMessageIds [envelope.id]).rescue fun _ => deadLetter env cfg stream envelope err
  else deadLetter env cfg stream envelope err

def processMessage (env : Environment) (cfg : Config) (stream : String)
    (envelope : WorkerEnvelope) : Program Unit :=
  (do handler envelope.message
      ackMessageIds [envelope.id]).rescue (handleFailure env cfg stream envelope)

def processEach (env : Environment) (cfg : Config) (stream : String) :
    List WorkerEnvelope → Program Unit
  | [] => pure ()
  | envelope :: rest => do
    processMessage env cfg stream envelope
    processEach env cfg stream rest

/-- `result?.handledMessageIds ?? messages.map((message) => message.id)` -/
def handledIds {messages : List WorkerEnvelope} (result : Option (BatchHandlerResult messages)) :
    List String :=
  (result.bind fun r => r.handledMessageIds).getD (messages.map (·.id))

def failedOf {messages : List WorkerEnvelope} (result : Option (BatchHandlerResult messages)) :
    List WorkerEnvelope :=
  (result.bind fun r => r.failedMessages).getD []

def processBatch (env : Environment) (cfg : Config) (stream : String)
    (messages : List WorkerEnvelope) : Program Unit := do
  let result ← batchHandler messages
  ackMessageIds (handledIds result)
  processEach env cfg stream (failedOf result)

def processMessages (env : Environment) (cfg : Config) (params : Params)
    (messages : List WorkerEnvelope) : Program Unit :=
  if params.hasBatchHandler && 1 < messages.length then
    (processBatch env cfg params.stream messages).rescue fun _ =>
      processEach env cfg params.stream messages
  else processEach env cfg params.stream messages

/-- One pass of the loop of `runSecureWorker`; an error ends the pass. -/
def pass (env : Environment) (cfg : Config) (params : Params) (fuel : Nat) : Program Unit := do
  let batchSize := max params.readCount cfg.pendingClaimBatchSize
  let _ ← drainDueRetries fuel batchSize
  let reclaimed ← xAutoClaim batchSize
  processMessages env cfg params reclaimed
  let messages ← xReadGroup params.readCount
  processMessages env cfg params messages

end MastopodFederation.Source.SecureWorker
