import MastopodFederation.Lib.Calls
import MastopodFederation.Source.DelayedQueue
import MastopodFederation.Source.ReplayHorizon

/-!
# The outbound worker and its queue

`processJob`, `deliver`, `assertExternalPostAllowed` and `deferOrParkJob` of
delivery/outbound-worker.ts; `enqueueOutboundBatch`, `consumeOutbound` and
`ensureFirstQueuedAt` of queue/sidecar-redis-queue.ts over the core queue;
`deliverOutbound` of federation/FedifyFederationAdapter.ts and
`secureActivityPubRequest` of security/activitypub-egress-policy.ts. Awaited
services, the clock and random numbers are calls. URL parsing, text sanitizing and the
follower digest are parameters.
-/
namespace MastopodFederation.Source.OutboundWorker
open Lib.LuaTable Lib.Calls DelayedQueue ReplayHorizon

/-- A thrown error, as far as the catch blocks tell them apart. -/
inductive Failure where
  | residenceExpired (message : String)
  | unsafeTarget (message : String)
  | other (message : String)

def Failure.message : Failure → String
  | .residenceExpired message | .unsafeTarget message | .other message => message

inductive DeliveryClaimResult where
  | claimed
  | completed
  | inFlight
  deriving DecidableEq

structure CapabilityGateResult where
  allowed : Bool
  reasonCode : Option String
  message : Option String

structure DeliveryResult where
  jobId : String
  success : Bool
  statusCode : Option Int := none
  error : Option String := none
  responseBody : Option String := none
  permanent : Bool := false
  retryAfterMs : Option Int := none

structure SignedHeaders where
  date : String
  digest : Option String
  signature : String

inductive SignResult where
  | ok (signedHeaders : SignedHeaders)
  | error (code message : String) (permanent : Bool)

structure HttpResponse where
  statusCode : Int
  retryAfter : Option String

/-- The awaited services. -/
inductive Call where
  | now
  | randomUUID
  /-- `Math.floor(Math.random() * bound)` -/
  | jitter (bound : Int)
  | sleep (ms : Int)
  | capabilityGate (capabilityId : String)
  | claim (jobId claimToken : String) (ttlMs : Int)
  | complete (jobId claimToken : String) (ttlMs : Int)
  | release (jobId claimToken : String)
  | isDomainBlocked (domain : String)
  | checkDomainRateLimit (domain : String)
  | acquireDomainSlot (domain : String) (maxConcurrent : Int)
  | releaseDomainSlot (domain : String)
  | signOne (actorUri targetUrl body : String)
  | localSign (actorUri identifier targetUrl body : String)
  | buildSyncHeader (actorUri activity targetInbox : String)
  | validateActivityPubTarget (url : String)
  /-- the POST; it starts at the clock reading that its assertion used -/
  | request (url : String) (headers : List (String × String)) (body : String) (startedAt : Int)
  | readBody
  /-- MULTI with one XADD for each entry -/
  | addReady (batch : List Fields)
  | storeDelayedOutbound (job : OutboundJob)
  | parkDelayedOutbound (messageId : String) (job : OutboundJob)
  | moveToDlq (job : OutboundJob) (reason : String)
  | ack (messageId : String)
  | onOutboundDelivered (job : OutboundJob) (statusCode : Option Int)
  | onOutboundPermanentFailure (job : OutboundJob) (result : DeliveryResult) (error : String)
      (attempt : Int)

/-- What a call replies; a call that can throw replies an outcome. -/
abbrev Reply : Call → Type
  | .now | .jitter _ => Int
  | .randomUUID => String
  | .sleep _ => Unit
  | .capabilityGate _ => Except Failure CapabilityGateResult
  | .claim .. => Except Failure DeliveryClaimResult
  | .isDomainBlocked _ | .checkDomainRateLimit _ | .acquireDomainSlot .. => Except Failure Bool
  | .signOne .. => Except Failure SignResult
  | .localSign .. => Except Failure SignedHeaders
  | .buildSyncHeader .. => Except Failure (Option String)
  | .request .. => Except Failure HttpResponse
  | .readBody => Except Failure (Option String)
  | .complete .. | .release .. | .releaseDomainSlot _ | .validateActivityPubTarget _
  | .addReady _ | .storeDelayedOutbound _ | .parkDelayedOutbound .. | .moveToDlq .. | .ack _
  | .onOutboundDelivered .. | .onOutboundPermanentFailure .. => Except Failure Unit

abbrev Program := Prog Call Reply Failure

/-- A call whose reply is the result. -/
def clock : Program Int := .call .now fun value => .done (.ok value)

def randomUUID : Program String := .call .randomUUID fun value => .done (.ok value)

def randomBelow (bound : Int) : Program Int := .call (.jitter bound) fun value => .done (.ok value)

def sleep (ms : Int) : Program Unit := .call (.sleep ms) fun _ => .done (.ok ())

def moveToDlq (job : OutboundJob) (reason : String) : Program Unit :=
  .call (.moveToDlq job reason) .done

def ack (messageId : String) : Program Unit := .call (.ack messageId) .done

/-- Configuration of the process and the parts of the platform that are not modelled. -/
structure Environment where
  rt : Runtime
  codec : PayloadCodec
  /-- NODE_ENV is "test" -/
  testMode : Bool
  isSafeTargetInboxUrl : String → Bool
  /-- host of a URL -/
  host : String → String
  sanitizeErrorText : String → String
  parseRetryAfterMs : Option String → Int → Option Int
  isFollowersAddressedActivity : String → String → Bool
  extractActorIdentifier : String → Option String
  /-- normalizeOutboundTargetUrl of the runtime adapter -/
  normalizeOutboundTargetUrl : String → Option String
  /-- identifier of an actor that the sidecar signs for -/
  sidecarOwnedActor : String → Option String

structure Config where
  maxConcurrentPerDomain : Int
  userAgent : String
  notReadyMaxRequeues : Int
  notReadyMinDelayMs : Int
  notReadyJitterMs : Int
  deliveryClaimTtlMs : Int
  deliveryCompletedTtlMs : Int
  capabilityGate : Bool
  /-- the runtime adapter is enabled and delivers -/
  adapterDelivers : Bool
  followersSyncService : Bool
  permanentFailureStatusCodes : List Int

def delayedOutboundMinDelayMs : Int := 2000
def delayedOutboundParkRetryMs : Int := 1000
def delayedOutboundParkMaxRetryMs : Int := 30000
def maxInlineNotBeforeWaitMs : Int := 2000
def chunkSize : Nat := 250

def limitText : String := "172800000"

def backoffMs (attempt : Int) : Int :=
  if attempt ≤ 2 then 60 * 1000
  else if attempt ≤ 4 then 5 * 60 * 1000
  else if attempt ≤ 6 then 30 * 60 * 1000
  else 2 * 60 * 60 * 1000

/-- `job.meta?.apdmFirstQueuedAtMs` where it is a number. -/
def apdmFirstQueuedAtMs (job : OutboundJob) : Option Rat :=
  match job.metaJson with
  | some (.obj entries) =>
    match entries.lookup "apdmFirstQueuedAtMs" with
    | some (.num value) => some value
    | _ => none
  | _ => none

/-- `job.meta?.apdmFirstQueuedAtMs == null` -/
def lacksFirstQueuedAtMs (job : OutboundJob) : Bool :=
  match job.metaJson with
  | some (.obj entries) =>
    match entries.lookup "apdmFirstQueuedAtMs" with
    | none | some .null => true
    | some _ => false
  | _ => true

/-- `{ ...entries, [key]: value }` -/
def setEntry (entries : List (String × Json)) (key : String) (value : Json) :
    List (String × Json) :=
  if (entries.lookup key).isSome then
    entries.map fun entry => if entry.1 = key then (key, value) else entry
  else entries ++ [(key, value)]

/-- `{ ...(meta ?? {}), apdmFirstQueuedAtMs: fallbackMs }`; every producer of a job
carries an object or nothing as its meta. -/
def stampedMeta (metaJson : Option Json) (fallbackMs : Int) : Json :=
  let entries := match metaJson with
    | some (.obj entries) => entries
    | _ => []
  .obj (setEntry entries "apdmFirstQueuedAtMs" (.num fallbackMs))

def ensureFirstQueuedAt (job : OutboundJob) (fallbackMs : Int) : OutboundJob :=
  match apdmFirstQueuedAtMs job with
  | some existing =>
    if 0 < existing then job
    else { job with metaJson := some (stampedMeta job.metaJson fallbackMs) }
  | none => { job with metaJson := some (stampedMeta job.metaJson fallbackMs) }

section Queue
variable (env : Environment)

/-- `super.enqueueOutboundBatch`: one MULTI for each chunk. -/
def addReadyChunks : List OutboundJob → Program Unit
  | [] => pure ()
  | job :: rest => do
    let fields ← .done
      ((((job :: rest).take chunkSize).mapM (serializeOutboundJob env.rt env.codec)).mapError
        Failure.other)
    .call (.addReady fields) .done
    addReadyChunks (rest.drop (chunkSize - 1))
termination_by jobs => jobs.length

def storeAll : List OutboundJob → Program Unit
  | [] => pure ()
  | job :: rest => do
    .call (.storeDelayedOutbound job) .done
    storeAll rest

/-- The job goes to the delayed store. -/
def isDelayed (nowMs : Int) (job : OutboundJob) : Bool :=
  !env.testMode && 0 < job.notBeforeMs && delayedOutboundMinDelayMs < job.notBeforeMs - nowMs

/-- `enqueueOutboundBatch` after its clock reading. -/
def enqueueStamped (nowMs : Int) (jobs : List OutboundJob) : Program Unit := do
  let stamped := jobs.map fun job => ensureFirstQueuedAt job nowMs
  addReadyChunks env (stamped.filter fun job => !isDelayed env nowMs job)
  storeAll (stamped.filter (isDelayed env nowMs))

def enqueueOutboundBatch (jobs : List OutboundJob) : Program Unit := do
  if jobs.isEmpty then return ()
  enqueueStamped env (← clock) jobs

def enqueueOutbound (job : OutboundJob) : Program Unit := enqueueOutboundBatch env [job]

end Queue

/-- The residence of a job at a clock reading; a job without a numeric timestamp is
admitted where the test exemption holds. -/
def queueResidenceMs (job : OutboundJob) (exempt : Bool) (nowMs : Int) : Option Rat :=
  match apdmFirstQueuedAtMs job with
  | some firstQueuedAtMs => outboxIntentAgeMs firstQueuedAtMs nowMs
  | none => if exempt then some 0 else none

/-- The message of a residence check that fails, at one of its boundaries. -/
def residenceError (boundary : String) : Option Rat → Option String
  | none =>
    some ("Outbound message is missing a valid preserved first-enqueue timestamp" ++ boundary)
  | some residenceMs =>
    if outboundMessageMaxResidenceMs < residenceMs then
      some ("Outbound message exceeded the " ++ limitText ++ " ms APDM queue residence limit" ++
        boundary)
    else none

section Delivery
variable (env : Environment) (cfg : Config)

def assertExternalPostAllowed (job : OutboundJob) (nowMs : Int) : Except Failure Unit :=
  match residenceError " at external POST boundary"
      (queueResidenceMs job (env.testMode && lacksFirstQueuedAtMs job) nowMs) with
  | some reason => .error (.residenceExpired reason)
  | none => .ok ()

/-- The assertion and the POST are one synchronous block, at one clock reading. -/
def secureActivityPubRequest (url : String) (headers : List (String × String)) (body : String)
    (allowed : Int → Except Failure Unit) : Program HttpResponse := do
  .call (.validateActivityPubTarget url) .done
  let startedAt ← clock
  .done (allowed startedAt)
  .call (.request url headers body startedAt) .done

def readBody : Program (Option String) := .call .readBody .done

def optionalHeader (name : String) (value : Option String) : List (String × String) :=
  value.toList.map fun text => (name, text)

def postHeaders (url : String) (signed : SignedHeaders) (sync : Option String) :
    List (String × String) :=
  [("content-type", "application/activity+json"),
   ("accept", "application/activity+json, application/ld+json"),
   ("user-agent", cfg.userAgent),
   ("date", signed.date),
   ("signature", signed.signature),
   ("host", env.host url)] ++
  optionalHeader "digest" (signed.digest.filter (· ≠ "")) ++
  optionalHeader "collection-synchronization" (sync.filter (· ≠ ""))

def httpError (statusCode : Int) : String := "HTTP " ++ env.rt.numberToString statusCode

/-- The catch block around the POST. -/
def networkFailure (job : OutboundJob) : Failure → DeliveryResult
  | .unsafeTarget message =>
    { jobId := job.jobId, success := false, permanent := true
      error := some ("Unsafe target: " ++ env.sanitizeErrorText message) }
  | .residenceExpired message | .other message =>
    { jobId := job.jobId, success := false
      error := some ("Network error: " ++ env.sanitizeErrorText message) }

/-- An attempt's result from the response to its POST. -/
def resultOfResponse (job : OutboundJob) (response : HttpResponse) (nowMs : Int)
    (responseBody : Option String) : DeliveryResult :=
  let statusCode := response.statusCode
  if 200 ≤ statusCode && statusCode < 300 then
    { jobId := job.jobId, success := true, statusCode }
  else if 400 ≤ statusCode && statusCode < 500 && statusCode != 408 && statusCode != 429 then
    { jobId := job.jobId, success := false, statusCode, error := some (httpError env statusCode)
      responseBody, permanent := true }
  else
    { jobId := job.jobId, success := false, statusCode, error := some (httpError env statusCode)
      responseBody, retryAfterMs := env.parseRetryAfterMs response.retryAfter nowMs }

def syncHeader (job : OutboundJob) : Program (Option String) :=
  if cfg.followersSyncService && env.isFollowersAddressedActivity job.activity job.actorUri &&
      (env.extractActorIdentifier job.actorUri).isSome then
    Prog.rescue (.call (.buildSyncHeader job.actorUri job.activity job.targetInbox) .done :
      Program (Option String)) fun _ => pure none
  else pure none

/-- The try block of a signed delivery without a runtime adapter. -/
def requestSigned (job : OutboundJob) (signed : SignedHeaders) : Program DeliveryResult := do
  let sync ← syncHeader env cfg job
  .done (assertExternalPostAllowed env job (← clock))
  let response ← secureActivityPubRequest job.targetInbox
    (postHeaders env cfg job.targetInbox signed sync) job.activity
    (assertExternalPostAllowed env job)
  let nowMs ← clock
  let responseBody ← readBody
  return resultOfResponse env job response nowMs responseBody

/-- An expired residence is thrown on; other failures are results. -/
def deliverSigned (job : OutboundJob) (signed : SignedHeaders) : Program DeliveryResult :=
  (requestSigned env cfg job signed).rescue fun
    | .residenceExpired message => .fail (.residenceExpired message)
    | error => pure (networkFailure env job error)

def sendErrorText (job : OutboundJob) (url : String) (response : HttpResponse)
    (responseBody : Option String) : String :=
  "Failed to send activity " ++ job.activityId ++ " to " ++ url ++ " (" ++
    env.rt.numberToString response.statusCode ++ "):" ++ responseBody.getD ""

def adapterResult (job : OutboundJob) (url : String) (response : HttpResponse) (nowMs : Int)
    (responseBody : Option String) : DeliveryResult :=
  if 200 ≤ response.statusCode && response.statusCode < 300 then
    { jobId := job.jobId, success := true, statusCode := response.statusCode }
  else
    let permanent := cfg.permanentFailureStatusCodes.contains response.statusCode
    { jobId := job.jobId, success := false, statusCode := response.statusCode
      error := some (sendErrorText env job url response responseBody), responseBody, permanent
      retryAfterMs :=
        if permanent then none else env.parseRetryAfterMs response.retryAfter nowMs }

/-- The try block of the runtime adapter's POST. -/
def adapterRequest (job : OutboundJob) (url : String) (signed : SignedHeaders)
    (sync : Option String) : Program DeliveryResult := do
  let response ← secureActivityPubRequest url (postHeaders env cfg url signed sync) job.activity
    (assertExternalPostAllowed env job)
  let responseBody ← readBody
  let nowMs ← clock
  return adapterResult env cfg job url response nowMs responseBody

/-- The POST of the runtime adapter: the first assertion is outside its try block,
the second one inside. -/
def adapterPost (job : OutboundJob) (url : String) (signed : SignedHeaders)
    (sync : Option String) : Program DeliveryResult := do
  .done (assertExternalPostAllowed env job (← clock))
  (adapterRequest env cfg job url signed sync).rescue fun error =>
    pure (networkFailure env job error)

def signingFailed (job : OutboundJob) (text : String) (permanent : Bool) : DeliveryResult :=
  { jobId := job.jobId, success := false, error := some ("Signing failed: " ++ text), permanent }

def deliverWithLocalSigning (job : OutboundJob) (url identifier : String) :
    Program DeliveryResult := do
  match ← Prog.attempt (.call (.localSign job.actorUri identifier url job.activity) .done :
      Program SignedHeaders) with
  | .error failure =>
    return { jobId := job.jobId, success := false
             error := some ("Local signing failed: " ++ failure.message) }
  | .ok signed => adapterPost env cfg job url signed none

def deliverWithSigningService (job : OutboundJob) (url : String) : Program DeliveryResult := do
  match ← Prog.attempt (.call (.signOne job.actorUri url job.activity) .done :
      Program SignResult) with
  | .error failure => return signingFailed job failure.message false
  | .ok (.error code message permanent) =>
    return signingFailed job (code ++ " - " ++ message) permanent
  | .ok (.ok signed) =>
    let sync ← syncHeader env cfg job
    adapterPost env cfg job url signed sync

def deliverOutbound (job : OutboundJob) : Program DeliveryResult :=
  match env.normalizeOutboundTargetUrl job.targetInbox with
  | none => pure
      { jobId := job.jobId, success := false, permanent := true
        error := some "Outbound target inbox failed safety validation" }
  | some url =>
    match env.sidecarOwnedActor job.actorUri with
    | some identifier => deliverWithLocalSigning env cfg job url identifier
    | none => deliverWithSigningService env cfg job url

def deliver (job : OutboundJob) : Program DeliveryResult :=
  if !env.isSafeTargetInboxUrl job.targetInbox then
    pure
      { jobId := job.jobId, success := false, permanent := true
        error := some ("Unsafe target inbox URL rejected: " ++ job.targetInbox) }
  else if cfg.adapterDelivers then deliverOutbound env cfg job
  else do
    match ← (.call (.signOne job.actorUri job.targetInbox job.activity) .done :
        Program SignResult) with
    | .error code message permanent =>
      return signingFailed job (code ++ " - " ++ message) permanent
    | .ok signed => deliverSigned env cfg job signed

end Delivery

section Process
variable (env : Environment) (cfg : Config)

def notReadyJitter : Program Int :=
  if 0 < cfg.notReadyJitterMs then randomBelow cfg.notReadyJitterMs else pure 0

def deferOrParkJob (job : OutboundJob) (reason : String) (baseDelayMs : Int) : Program Unit := do
  let nextDeferCount := job.deferCount.getD 0 + 1
  if cfg.notReadyMaxRequeues < nextDeferCount then
    moveToDlq
      { job with
        deferCount := some nextDeferCount
        lastError := some ("Deferred too many times (" ++ reason ++ ")") }
      ("Deferred requeue limit exceeded: " ++ reason)
  else
    let jitterMs ← notReadyJitter cfg
    let delayMs := max baseDelayMs cfg.notReadyMinDelayMs + jitterMs
    let nextNotBeforeMs := (← clock) + delayMs
    enqueueOutbound env
      { job with
        deferCount := some nextDeferCount
        notBeforeMs := nextNotBeforeMs
        lastError := some ("Deferred (" ++ reason ++ ")") }

/-- `^msg-\d+$` while testing. -/
def syntheticDirectTestMessage (messageId : String) : Bool :=
  env.testMode && "msg-".toList.isPrefixOf messageId.toList &&
    (decimal (messageId.toList.drop 4)).isSome

/-- A failure of the try block of `processJob`, and whether the claim is held then. -/
structure Thrown where
  claimHeld : Bool
  failure : Failure

abbrev Guarded := Prog Call Reply Thrown

/-- The statements that run while `claimHeld` has this value. -/
def claimHeld {α : Type} (held : Bool) (body : Program α) : Guarded α :=
  body.mapError fun failure => ⟨held, failure⟩

/-- `await this.callAdapter(hook, …)`: errors are swallowed. -/
def callAdapter (hook : Program Unit) : Program Unit := hook.rescue fun _ => pure ()

def release (jobId claimToken : String) : Program Unit := .call (.release jobId claimToken) .done

/-- Dead-letter and acknowledge. -/
def deadLetter (messageId : String) (job : OutboundJob) (reason : String) : Program Unit := do
  moveToDlq job reason
  ack messageId

/-- Defer and acknowledge. -/
def defer (messageId : String) (job : OutboundJob) (reason : String) (baseDelayMs : Int) :
    Program Unit := do
  deferOrParkJob env cfg job reason baseDelayMs
  ack messageId

/-- Returns whether the claim is still held. -/
def settleSuccess (messageId claimToken : String) (job : OutboundJob) (result : DeliveryResult) :
    Guarded Bool := do
  match ← Prog.attempt (.call (.complete job.jobId claimToken cfg.deliveryCompletedTtlMs) .done :
      Program Unit) with
  -- the marker could not be persisted: the entry stays pending
  | .error _ => return true
  | .ok () =>
    claimHeld false (ack messageId)
    claimHeld false (callAdapter (.call (.onOutboundDelivered job result.statusCode) .done))
    return false

def settleFailure (messageId claimToken : String) (job : OutboundJob) (result : DeliveryResult) :
    Guarded Unit := do
  claimHeld true (release job.jobId claimToken)
  claimHeld false <|
    if result.permanent then do
      let error := match result.error with
        | some text => if text = "" then "Permanent failure" else text
        | none => "Permanent failure"
      deadLetter messageId job error
      callAdapter (.call (.onOutboundPermanentFailure job result error (job.attempt + 1)) .done)
    else do
      let nextAttempt := job.attempt + 1
      if job.maxAttempts ≤ nextAttempt then
        deadLetter messageId { job with lastError := result.error } "Max attempts exceeded"
        callAdapter (.call (.onOutboundPermanentFailure job result
          (result.error.getD "Max attempts exceeded") nextAttempt) .done)
      else
        let delay := match result.retryAfterMs with
          | some retryAfterMs => max (backoffMs nextAttempt) retryAfterMs
          | none => backoffMs nextAttempt
        let notBeforeMs := (← clock) + delay
        enqueueOutbound env
          { job with attempt := nextAttempt, notBeforeMs, lastError := result.error }
        ack messageId

/-- The inner try block, while the domain slot is held; returns whether the claim is
still held. -/
def deliverInSlot (messageId claimToken : String) (job : OutboundJob) : Guarded Bool := do
  let nowMs ← claimHeld true clock
  match residenceError " immediately before delivery"
      (queueResidenceMs job (syntheticDirectTestMessage env messageId) nowMs) with
  | some reason =>
    claimHeld true (release job.jobId claimToken)
    claimHeld false (deadLetter messageId { job with lastError := some reason } reason)
    return false
  | none =>
    let result ← claimHeld true (deliver env cfg job)
    if result.success then settleSuccess cfg messageId claimToken job result
    else
      settleFailure env messageId claimToken job result
      return false

/-- The inner try block and its finally block. -/
def withDomainSlot (messageId claimToken : String) (job : OutboundJob) : Guarded Unit := do
  let outcome ← Prog.attempt (deliverInSlot env cfg messageId claimToken job)
  let held := match outcome with
    | .ok held => held
    | .error thrown => thrown.claimHeld
  claimHeld held (.call (.releaseDomainSlot job.targetDomain) .done)
  match outcome with
  | .ok _ => return ()
  | .error thrown => .fail thrown

/-- The statements after a successful claim. -/
def processClaimed (messageId claimToken : String) (job : OutboundJob) : Guarded Unit := do
  if ← claimHeld true (.call (.isDomainBlocked job.targetDomain) .done) then
    claimHeld true (release job.jobId claimToken)
    claimHeld false (deadLetter messageId job "Domain blocked")
  else if !(← claimHeld true (.call (.checkDomainRateLimit job.targetDomain) .done)) then
    claimHeld true (release job.jobId claimToken)
    claimHeld false (defer env cfg messageId job "domain_rate_limited" 5000)
  else if !(← claimHeld true
      (.call (.acquireDomainSlot job.targetDomain cfg.maxConcurrentPerDomain) .done)) then
    claimHeld true (release job.jobId claimToken)
    claimHeld false (defer env cfg messageId job "domain_concurrency_limit" 1000)
  else
    withDomainSlot env cfg messageId claimToken job

/-- Claim the job and go on with what the claim replies. -/
def claimAndProcess (messageId claimToken : String) (job : OutboundJob) : Guarded Unit := do
  match ← claimHeld false (.call (.claim job.jobId claimToken cfg.deliveryClaimTtlMs) .done) with
  | .completed => claimHeld false (ack messageId)
  | .inFlight =>
    claimHeld false
      (defer env cfg messageId job "delivery_claim_in_flight" cfg.deliveryClaimTtlMs)
  | .claimed => processClaimed env cfg messageId claimToken job

/-- The message of a denied capability. -/
def deniedText (gate : CapabilityGateResult) : String :=
  match gate.message.filter (· ≠ "") with
  | some message => message
  | none =>
    "Capability denied: " ++ ((gate.reasonCode.filter (· ≠ "")).getD "feature_disabled")

/-- Whether the entry stays pending until its deadline; short waits are slept. -/
def waitUntilReady (job : OutboundJob) : Program Bool :=
  if 0 < job.notBeforeMs then do
    let nowMs ← clock
    if nowMs < job.notBeforeMs then
      let laterMs ← clock
      let remainingDelayMs := max 0 (job.notBeforeMs - laterMs)
      if maxInlineNotBeforeWaitMs < remainingDelayMs then return true
      sleep remainingDelayMs
      return false
    else return false
  else pure false

/-- `this.config.capabilityGate("ap.federation.egress")` where it is configured. -/
def capabilityGate : Program (Option CapabilityGateResult) :=
  if cfg.capabilityGate then do
    let gate ← (.call (.capabilityGate "ap.federation.egress") .done :
      Program CapabilityGateResult)
    return some gate
  else pure none

/-- The try block of `processJob`. -/
def attemptJob (messageId claimToken : String) (deliveryStartedAt : Int) (job : OutboundJob) :
    Guarded Unit := do
  match residenceError "" (queueResidenceMs job (syntheticDirectTestMessage env messageId)
      deliveryStartedAt) with
  | some reason =>
    claimHeld false (deadLetter messageId { job with lastError := some reason } reason)
  | none =>
    let gate ← claimHeld false (capabilityGate cfg)
    match gate.filter (!·.allowed) with
    | some gate => claimHeld false (deadLetter messageId job (deniedText gate))
    | none =>
      if ← claimHeld false (waitUntilReady job) then return ()
      else claimAndProcess env cfg messageId claimToken job

/-- The catch block of `processJob`. -/
def recover (messageId claimToken : String) (job : OutboundJob) (thrown : Thrown) :
    Program Unit := do
  let sanitized := env.sanitizeErrorText thrown.failure.message
  if thrown.claimHeld then callAdapter (release job.jobId claimToken)
  moveToDlq { job with lastError := some sanitized } ("Worker processing error: " ++ sanitized)
  ack messageId

def processJob (messageId : String) (job : OutboundJob) : Program Unit := do
  let deliveryStartedAt ← clock
  let claimToken ← randomUUID
  (attemptJob env cfg messageId claimToken deliveryStartedAt job).rescue
    (recover env messageId claimToken job)

end Process

end MastopodFederation.Source.OutboundWorker
