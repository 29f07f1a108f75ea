import MastopodFederation.Source.OutboundWorker

/-!
# The outbox intent worker

`processIntent` of delivery/outbox-intent-worker.ts with the functions it calls:
`normalizeAndDedupeOutboundTargets` of delivery/outbound-webhook.ts without the raw
webhook boundary, the intent state and fan-out of queue/sidecar-redis-queue-core.ts
and `persistReplacementAndAck` of delivery/outbox-intent-delay-scheduler.ts. Redis
commands, broker sends and the clock are calls. URL parsing and the link preview policy
are parameters.
-/
namespace MastopodFederation.Source.OutboxIntentWorker
open Lib.LuaTable Lib.Calls DelayedQueue ReplayHorizon

/-- A thrown error, as far as `isPermanentFailure` tells them apart. -/
inductive Failure where
  /-- OutboxIntentProcessingError -/
  | processing (message : String) (permanent : Bool)
  /-- OutboundWebhookValidationError -/
  | validation (code : String) (statusCode : Int) (message : String)
  | other (message : String)

def Failure.message : Failure → String
  | .processing message _ | .validation _ _ message | .other message => message

def isPermanentFailure : Failure → Bool
  | .processing _ permanent => permanent
  | .validation _ statusCode _ => 400 ≤ statusCode && statusCode < 500
  | .other _ => false

structure TombstoneEvent where
  activityId : String
  objectId : Option String
  actorUri : String
  deletedAt : Int
  outboxIntentId : String
  streamTimestamp : Int

structure ActivityEvent where
  activity : List (String × Json)
  actorUri : String
  publishedAt : Int
  origin : String
  metaJson : Option Json
  outboxIntentId : String
  streamTimestamp : Int

/-- The fields of a Redis hash. -/
abbrev Hash := String → Option String

inductive Call where
  | now
  | publishTombstone (event : TombstoneEvent)
  | publishToStream1 (event : ActivityEvent)
  /-- HGETALL, HSET and EXPIRE of the state key of an intent -/
  | hGetAll (intentId : String)
  | hSet (intentId : String) (values : Fields)
  | expire (intentId : String) (seconds : Int)
  /-- the fan-out script -/
  | fanOut (intentId outboundEnqueuedAt : String) (batch : List Fields)
  /-- the script of `persistReplacementAndAck` -/
  | persistAndAck (messageId : String) (intent : OutboxIntent)
  | moveToDlq (intent : OutboxIntent) (reason : String)
  | ack (messageId : String)

/-- A call that can throw replies an outcome, with the message of what it threw; a client
that is not connected throws as well. -/
abbrev Reply : Call → Type
  | .now => Int
  | .hGetAll _ => Except String Hash
  | .fanOut .. => Except String (String × String)
  | .publishTombstone _ | .publishToStream1 _ | .hSet .. | .expire .. | .persistAndAck ..
  | .moveToDlq .. | .ack _ => Except String Unit

abbrev Program := Prog Call Reply Failure

def clock : Program Int := .call .now fun value => .done (.ok value)

/-- The clients throw errors of their own classes. -/
def awaited {α : Type} (reply : Except String α) : Program α := .done (reply.mapError Failure.other)

def moveToDlq (intent : OutboxIntent) (reason : String) : Program Unit :=
  .call (.moveToDlq intent reason) awaited

def ack (messageId : String) : Program Unit := .call (.ack messageId) awaited

/-- What the URL parser reads; the text has no fragment. -/
structure Url where
  username : String
  password : String
  protocol : String
  hostname : String
  text : String

structure Environment where
  rt : Runtime
  codec : PayloadCodec
  trim : String → String
  parseUrl : String → Option Url
  isIPv4 : String → Bool
  toLowerCase : String → String
  /-- applyActivityPubOutboundDeliveryPolicy under the configured policy -/
  applyDeliveryPolicy : List (String × Json) → String → Option (List String) → Except String Json

structure Config where
  outboundJobMaxAttempts : Int
  /-- a RedPanda producer is there -/
  redpanda : Bool
  delayScheduler : Bool

structure OutboxIntentState where
  eventLogPublishedAt : Option Int
  outboundEnqueuedAt : Option Int
  completedAt : Option Int
  jobCount : Option Int

/-- A number that is there and not zero. -/
def truthy : Option Int → Bool
  | some value => value ≠ 0
  | none => false

section Queue
variable (env : Environment)

/-- `raw[field] ? Number.parseInt(raw[field], 10) : undefined` -/
def parsedField (raw : Hash) (field : String) : Option Int :=
  ((raw field).filter (· ≠ "")).map env.rt.parseInt

def parseState (raw : Hash) : OutboxIntentState where
  eventLogPublishedAt := parsedField env raw "eventLogPublishedAt"
  outboundEnqueuedAt := parsedField env raw "outboundEnqueuedAt"
  completedAt := parsedField env raw "completedAt"
  jobCount := parsedField env raw "jobCount"

def getOutboxIntentState (intentId : String) : Program OutboxIntentState := do
  let raw ← (.call (.hGetAll intentId) awaited : Program Hash)
  return parseState env raw

def stateRetentionSeconds : Int := 60 * 60 * 24 * 7

/-- HSET and EXPIRE are separate commands. -/
def setState (intentId : String) (values : Fields) : Program Unit := do
  .call (.hSet intentId values) awaited
  .call (.expire intentId stateRetentionSeconds) awaited

def markOutboxIntentEventLogPublished (intentId : String) : Program Unit := do
  let publishedAt ← clock
  setState intentId [("eventLogPublishedAt", env.rt.numberToString publishedAt)]

def markOutboxIntentCompleted (intentId : String) : Program Unit := do
  let completedAt ← clock
  setState intentId [("completedAt", env.rt.numberToString completedAt)]

structure EnqueueResult where
  enqueued : Bool
  jobCount : Int

def enqueueOutboundBatchForIntent (intentId : String) (jobs : List OutboundJob) :
    Program EnqueueResult := do
  if jobs.isEmpty then
    let nowMs ← clock
    setState intentId [("outboundEnqueuedAt", env.rt.numberToString nowMs), ("jobCount", "0")]
    return ⟨true, 0⟩
  else
    let nowMs ← clock
    let batch ← .done ((jobs.mapM (serializeOutboundJob env.rt env.codec)).mapError Failure.other)
    let result ← (.call (.fanOut intentId (env.rt.numberToString nowMs) batch) awaited :
      Program (String × String))
    return ⟨result.1 == "1", env.rt.parseInt result.2⟩

/-- A replacement is due later than now. -/
def persistReplacementAndAck (messageId : String) (intent : OutboxIntent) : Program Unit := do
  if intent.notBeforeMs ≤ (← clock) then
    .fail (.other "Delayed outbox intent must have a future notBeforeMs")
  else .call (.persistAndAck messageId intent) awaited

end Queue

structure NormalizedOutboundTarget where
  inboxUrl : String
  sharedInboxUrl : Option String
  deliveryUrl : String
  targetDomain : String

structure NormalizedOutboundTargetsResult where
  targets : List NormalizedOutboundTarget
  inputTargetCount : Nat
  duplicateTargetCount : Nat
  invalidTargetCount : Nat

section Targets
variable (env : Environment)

def isLoopbackHost (hostname : String) : Bool :=
  if hostname == "localhost" || hostname == "::1" then true
  else env.isIPv4 hostname && "127.".toList.isPrefixOf hostname.toList

def normalizeFederationTargetUrl : Option Json → Option String
  | some (.str value) =>
    if env.trim value = "" then none
    else
      match env.parseUrl (env.trim value) with
      | none => none
      | some parsed =>
        if parsed.username ≠ "" || parsed.password ≠ "" then none
        else
          let protocol := env.toLowerCase parsed.protocol
          let hostname := env.toLowerCase parsed.hostname
          if protocol != "https:" && !(protocol == "http:" && isLoopbackHost env hostname) then none
          else some parsed.text
  | _ => none

/-- `new URL(deliveryUrl)` throws where the text does not parse. -/
def normalizeOutboundTarget : Json → Except Failure (Option NormalizedOutboundTarget)
  | .obj target =>
    match normalizeFederationTargetUrl env (target.lookup "inboxUrl") with
    | none => .ok none
    | some inboxUrl =>
      let sharedInboxUrl := normalizeFederationTargetUrl env (target.lookup "sharedInboxUrl")
      let deliveryUrl := sharedInboxUrl.getD inboxUrl
      match env.parseUrl deliveryUrl with
      | none => .error (.other "Invalid URL")
      | some parsed =>
        let targetDomain := env.toLowerCase parsed.hostname
        .ok (some { inboxUrl, sharedInboxUrl, deliveryUrl, targetDomain })
  | _ => .ok none

/-- One turn of the loop over the raw targets. -/
def addTarget (result : NormalizedOutboundTargetsResult) (rawTarget : Json) :
    Except Failure NormalizedOutboundTargetsResult := do
  match ← normalizeOutboundTarget env rawTarget with
  | none => return { result with invalidTargetCount := result.invalidTargetCount + 1 }
  | some normalized =>
    if result.targets.any (·.deliveryUrl == normalized.deliveryUrl) then
      return { result with duplicateTargetCount := result.duplicateTargetCount + 1 }
    else return { result with targets := result.targets ++ [normalized] }

def normalizeAndDedupeOutboundTargets (remoteTargets : List Json) (maxTargetsPerRequest : Nat) :
    Except Failure NormalizedOutboundTargetsResult := do
  if maxTargetsPerRequest < remoteTargets.length then
    throw (.validation "OUTBOUND_TARGETS_TOO_LARGE" 413
      ("remoteTargets exceeds the configured maximum of " ++
        env.rt.numberToString maxTargetsPerRequest ++ "."))
  let result ← remoteTargets.foldlM (addTarget env) ⟨[], remoteTargets.length, 0, 0⟩
  if !remoteTargets.isEmpty && result.targets.isEmpty then
    throw (.validation "OUTBOUND_TARGETS_UNUSABLE" 400
      "remoteTargets did not contain any valid delivery targets.")
  return result

/-- The targets that an intent is fanned out to. -/
def intentTargets (intent : OutboxIntent) : Except Failure (List NormalizedOutboundTarget) := do
  let normalizedTargets ←
    normalizeAndDedupeOutboundTargets env intent.targets (max intent.targets.length 1)
  if normalizedTargets.targets.isEmpty then
    throw (.processing "Outbox intent does not contain any valid delivery targets" true)
  else return normalizedTargets.targets

end Targets

section Intent
variable (env : Environment) (cfg : Config)

def parseIntentActivity (intent : OutboxIntent) : Except Failure (List (String × Json)) :=
  match env.rt.parse intent.activity with
  | .error message =>
    .error (.processing ("Outbox intent activity is not valid JSON: " ++ message) true)
  | .ok (.obj entries) => .ok entries
  | .ok _ => .error (.processing "Outbox intent activity must be a JSON object" true)

/-- The preview URLs of the hints, where there are any. -/
def normalizeBridgeHints (bridgeHints : Option Json) : Option (List String) :=
  match bridgeHints with
  | some (.obj entries) =>
    match entries.lookup "noteLinkPreviewUrls" with
    | some (.arr items) =>
      let urls := items.filterMap fun
        | .str value => if env.trim value = "" then none else some value
        | _ => none
      if urls.isEmpty then none else some urls
    | _ => none
  | _ => none

def buildOutboundJob (intent : OutboxIntent) (activity : List (String × Json))
    (target : NormalizedOutboundTarget) : Except Failure OutboundJob := do
  let delivered ← (env.applyDeliveryPolicy activity target.targetDomain
    (normalizeBridgeHints env intent.bridgeHints)).mapError Failure.other
  return {
    jobId := intent.activityId ++ "::" ++ target.deliveryUrl
    activityId := intent.activityId
    actorUri := intent.actorUri
    activity := env.rt.stringify delivered
    targetInbox := target.deliveryUrl
    targetDomain := target.targetDomain
    attempt := 0
    maxAttempts := cfg.outboundJobMaxAttempts
    notBeforeMs := 0
    deferCount := none
    lastError := none
    metaJson := intent.metaJson }

def buildOutboundJobs (intent : OutboxIntent) (activity : List (String × Json))
    (normalizedTargets : List NormalizedOutboundTarget) : Except Failure (List OutboundJob) :=
  normalizedTargets.mapM (buildOutboundJob env cfg intent activity)

def metaField (intent : OutboxIntent) (field : String) : Option Json :=
  match intent.metaJson with
  | some (.obj entries) => entries.lookup field
  | _ => none

def isTrue : Option Json → Bool
  | some (.bool value) => value
  | _ => false

def isText (text : String) : Option Json → Bool
  | some (.str value) => value == text
  | _ => false

def isLifecycleRemoval (intent : OutboxIntent) (activity : List (String × Json)) : Bool :=
  let activityType := activity.lookup "type"
  isText "Delete" activityType || isText "Tombstone" activityType ||
    (isText "Undo" activityType && isTrue (metaField intent "isDeleteOrTombstone"))

def isPublicActivity (intent : OutboxIntent) : Bool :=
  isTrue (metaField intent "isPublicActivity") ||
    isText "public" (metaField intent "visibility") ||
    isText "unlisted" (metaField intent "visibility")

/-- The id of the activity's object. -/
def objectId (activity : List (String × Json)) : Option String :=
  match activity.lookup "object" with
  | some (.str value) => some value
  | some (.obj entries) =>
    match entries.lookup "id" with
    | some (.str id) => some id
    | _ => none
  | _ => none

def publishRemoval (intent : OutboxIntent) (activity : List (String × Json)) : Program Unit :=
  if isLifecycleRemoval intent activity then
    if cfg.redpanda then
      .call (.publishTombstone
        { activityId := intent.activityId, objectId := objectId activity
          actorUri := intent.actorUri, deletedAt := intent.createdAt
          outboxIntentId := intent.intentId, streamTimestamp := intent.createdAt }) awaited
    else .fail (.processing "RedPanda producer is unavailable for tombstone publication" false)
  else pure ()

/-- A removal gets a tombstone, a public activity a Stream1 record. -/
def publishEventLog (intent : OutboxIntent) (activity : List (String × Json)) :
    Program Unit := do
  publishRemoval cfg intent activity
  if !isPublicActivity intent then return ()
  else if cfg.redpanda then
    .call (.publishToStream1
      { activity, actorUri := intent.actorUri, publishedAt := intent.createdAt, origin := "local"
        metaJson := intent.metaJson, outboxIntentId := intent.intentId
        streamTimestamp := intent.createdAt }) awaited
  else
    .fail (.processing "RedPanda producer is unavailable for local public activity publication"
      false)

/-- `assertIntentWithinReplayHorizon` at a clock reading. -/
def withinReplayHorizon (intent : OutboxIntent) (boundary : String) (nowMs : Int) :
    Except Failure Unit :=
  match outboxIntentAgeMs intent.createdAt nowMs with
  | none =>
    .error (.processing ("Outbox intent has an invalid or implausibly future createdAt " ++
      "timestamp at " ++ boundary) true)
  | some intentAgeMs =>
    if outboxIntentMaxAgeMs < intentAgeMs then
      .error (.processing ("Outbox intent exceeded the " ++
        env.rt.numberToString outboxIntentMaxAgeMs ++ " ms APDM replay residence limit at " ++
        boundary) true)
    else .ok ()

def assertIntentWithinReplayHorizon (intent : OutboxIntent) (boundary : String) :
    Program Unit := do
  .done (withinReplayHorizon env intent boundary (← clock))

def persistDelayedReplacementAndAck (messageId : String) (intent : OutboxIntent) : Program Unit :=
  if cfg.delayScheduler then persistReplacementAndAck messageId intent
  else .fail (.other "Outbox intent delayed work requires a durable delay scheduler")

/-- `intent.notBeforeMs > 0 && Date.now() < intent.notBeforeMs` -/
def notYetDue (intent : OutboxIntent) : Program Bool :=
  if 0 < intent.notBeforeMs then do
    let nowMs ← clock
    return nowMs < intent.notBeforeMs
  else pure false

/-- Publish the event log and mark it, unless it is marked. -/
def observe (intent : OutboxIntent) (activity : List (String × Json))
    (state : OutboxIntentState) : Program Unit :=
  if truthy state.eventLogPublishedAt then pure ()
  else do
    publishEventLog cfg intent activity
    markOutboxIntentEventLogPublished env intent.intentId

def fanOutJobs (intent : OutboxIntent) (activity : List (String × Json)) :
    Program EnqueueResult := do
  let targets ← .done (intentTargets env intent)
  let outboundJobs ← .done (buildOutboundJobs env cfg intent activity targets)
  assertIntentWithinReplayHorizon env intent "outbound fan-out"
  enqueueOutboundBatchForIntent env intent.intentId outboundJobs

/-- An intent without targets is complete once it is observed. -/
def fanOut (intent : OutboxIntent) (activity : List (String × Json)) : Program EnqueueResult :=
  if intent.targets.isEmpty then enqueueOutboundBatchForIntent env intent.intentId []
  else fanOutJobs env cfg intent activity

/-- The statements of `processIntent` for an intent that is due. -/
def processDue (messageId : String) (intent : OutboxIntent) : Program Unit := do
  let state ← getOutboxIntentState env intent.intentId
  if truthy state.completedAt then ack messageId
  else
    let activity ← .done (parseIntentActivity env intent)
    observe env cfg intent activity state
    let _ ← fanOut env cfg intent activity
    markOutboxIntentCompleted env intent.intentId
    ack messageId

/-- A failure of the try block, and whether an intent that is not due is being parked. -/
structure Thrown where
  parkingAlreadyFutureIntent : Bool
  failure : Failure

abbrev Guarded := Prog Call Reply Thrown

/-- The statements that run while `parkingAlreadyFutureIntent` has this value. -/
def parking {α : Type} (parked : Bool) (body : Program α) : Guarded α :=
  body.mapError fun failure => ⟨parked, failure⟩

/-- The try block of `processIntent`. -/
def attemptIntent (messageId : String) (intent : OutboxIntent) : Guarded Unit := do
  parking false (assertIntentWithinReplayHorizon env intent "processing start")
  if ← parking false (notYetDue intent) then
    parking true (persistDelayedReplacementAndAck cfg messageId intent)
  else parking false (processDue env cfg messageId intent)

/-- The catch block of `processIntent`. -/
def recover (messageId : String) (intent : OutboxIntent) (thrown : Thrown) : Program Unit :=
  if thrown.parkingAlreadyFutureIntent then .fail thrown.failure
  else
    let message := thrown.failure.message
    let permanent := isPermanentFailure thrown.failure
    let nextAttempt := intent.attempt + 1
    if permanent || intent.maxAttempts ≤ nextAttempt then do
      moveToDlq { intent with attempt := nextAttempt, lastError := some message }
        (if permanent then message else "Max attempts exceeded")
      ack messageId
    else do
      let nowMs ← clock
      persistDelayedReplacementAndAck cfg messageId
        { intent with
          attempt := nextAttempt
          notBeforeMs := nowMs + OutboundWorker.backoffMs nextAttempt
          lastError := some message }

def processIntent (messageId : String) (intent : OutboxIntent) : Program Unit :=
  (attemptIntent env cfg messageId intent).rescue (recover cfg messageId intent)

end Intent

end MastopodFederation.Source.OutboxIntentWorker
