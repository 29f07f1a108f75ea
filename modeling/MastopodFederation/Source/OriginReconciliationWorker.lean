import Mathlib
import MastopodFederation.Source.InboundVerification
import MastopodFederation.Source.OutboundWorker

/-!
# Origin reconciliation

`processJob` and what it calls in delivery/origin-reconciliation-worker.ts over the queue
operations of queue/sidecar-redis-queue-core.ts. Awaited services, the
clock and random numbers are calls; URL parsing, JSON.stringify and SHA-256 are parameters.
Metrics and log lines are left out, except the status that an acknowledgement is counted
under.
-/
namespace MastopodFederation.Source.RepliesBackfillService
open Lib.LuaTable HttpSignature InboundVerification

abbrev Entries := List (String × Json)

/-- A non-empty string, or the non-empty `id` of an object. -/
def textOrId : Option Json → Option String
  | some (.str text) => nonEmptyText (some (.str text))
  | some value => nonEmptyText ((recordOf value).lookup "id")
  | none => none

/-- Some servers use `actor` on the outer object instead. -/
def extractAttributedTo (obj : Entries) : Option String :=
  (textOrId (obj.lookup "attributedTo")).or (nonEmptyText (obj.lookup "actor"))

structure RemoteResponse where
  statusCode : Nat
  /-- content-length, where it is a number -/
  contentLength : Option Nat

structure Environment where
  isHttpUrl : String → Bool
  isAllowedRemoteFetchUrl : String → Bool
  /-- host of a URL -/
  host : String → String
  stringify : Json → String

def transientHttpStatusCodes : List Nat := [408, 425, 429, 500, 502, 503, 504]

def maxJsonResponseBytes : Nat := 2000000

end MastopodFederation.Source.RepliesBackfillService

namespace MastopodFederation.Source.OriginReconciliationWorker
open Lib.LuaTable Lib.Calls HttpSignature InboundVerification
open OutboundWorker (SignedHeaders SignResult)
open RepliesBackfillService (Entries RemoteResponse extractAttributedTo transientHttpStatusCodes
  maxJsonResponseBytes)

structure OriginReconciliationJob where
  jobId : String
  originObjectUrl : String
  canonicalObjectId : Option String
  actorUriHint : Option String
  reason : String
  createdAt : Int
  attempt : Int
  maxAttempts : Int
  notBeforeMs : Int
  windowExpiresAt : Int
  lastFingerprint : Option String
  unchangedSuccesses : Int
  notFoundCount : Int
  lastError : Option String

/-- An optional field that is empty in its stream entry is absent when it is read back. -/
def readBack (field : Option String) : Option String := field.filter (· ≠ "")

/-- The job that `deserializeOriginReconciliationJob` reads from the entry that
`serializeOriginReconciliationJob` writes. -/
def OriginReconciliationJob.throughStream (job : OriginReconciliationJob) :
    OriginReconciliationJob :=
  { job with
    canonicalObjectId := readBack job.canonicalObjectId
    actorUriHint := readBack job.actorUriHint
    lastFingerprint := readBack job.lastFingerprint
    lastError := readBack job.lastError }

/-- What `queueMessagesProcessed` counts the acknowledgement of an entry under. -/
inductive Status where
  | deferred | retry | expired | stable | notFound | gone | dlq
  deriving DecidableEq

inductive Call where
  | now
  | random
  | randomUUID
  | sleep (ms : Int)
  | ack (messageId : String) (status : Status)
  /-- XADD to the origin-reconcile stream -/
  | addJob (job : OriginReconciliationJob)
  | moveToDlq (job : OriginReconciliationJob) (reason : String)
  | checkDomainRateLimit (domain : String) (limit windowSeconds : Int)
  | acquireDomainSlot (domain : String) (maxConcurrent : Int)
  | releaseDomainSlot (domain : String)
  | signOne (actorUri targetUrl : String)
  | request (url : String) (headers : List (String × String))
  | dump
  /-- readJsonBodyWithLimit -/
  | readJson
  /-- SET NX of the claim key of an object URL -/
  | claimOriginReconciliation (originObjectUrl : String) (ttlSeconds : Int)
  /-- SET NX of the apply key of an object and a fingerprint -/
  | markOriginReconciliationApplied (objectKey fingerprint : String) (ttlSeconds : Int)
  /-- `this.queue.enqueueInbound` -/
  | enqueueInbound (envelope : InboundEnvelope)

abbrev Reply : Call → Type
  | .now => Int
  | .random => Rat
  | .randomUUID => String
  | .sleep _ => Unit
  | .checkDomainRateLimit .. | .acquireDomainSlot .. | .claimOriginReconciliation ..
  | .markOriginReconciliationApplied .. => Except String Bool
  | .signOne .. => Except String SignResult
  | .request .. => Except String RemoteResponse
  | .readJson => Except String (Option Entries)
  | .ack .. | .addJob _ | .moveToDlq .. | .releaseDomainSlot _ | .dump | .enqueueInbound _ =>
    Except String Unit

abbrev Program := Prog Call Reply String

structure Environment extends RepliesBackfillService.Environment where
  /-- `new URL(url).host`, where the URL parses -/
  urlHost : String → Option String
  /-- `new URL(url).hostname`, where the URL parses -/
  hostname : String → Option String
  /-- SHA-256 in hexadecimal digits -/
  sha256Hex : String → String

structure Config where
  signerActorUri : String
  requestRetries : Int
  requestRetryBaseDelayMs : Int
  requestRetryMaxDelayMs : Int
  userAgent : String
  perOriginConcurrency : Int
  perOriginBurstLimit : Int
  perOriginBurstWindowSeconds : Int
  maxUnchangedSuccesses : Int
  applyIdempotencyTtlSeconds : Int

def clock : Program Int := .call .now fun value => .done (.ok value)

def random : Program Rat := .call .random fun value => .done (.ok value)

def randomUUID : Program String := .call .randomUUID fun value => .done (.ok value)

def sleep (ms : Int) : Program Unit := .call (.sleep ms) fun _ => .done (.ok ())

def dump : Program Unit := .call .dump .done

def ack (messageId : String) (status : Status) : Program Unit := .call (.ack messageId status) .done

def enqueueOriginReconciliation (job : OriginReconciliationJob) : Program Unit :=
  .call (.addJob job.throughStream) .done

/-- The UTF-16 code units of a text, by which JavaScript orders strings. -/
def codeUnits (text : String) : List Nat :=
  text.toList.flatMap fun c =>
    if c.toNat < 0x10000 then [c.toNat]
    else [0xD800 + (c.toNat - 0x10000) / 0x400, 0xDC00 + (c.toNat - 0x10000) % 0x400]

section Fingerprint
variable (env : Environment)

/-- The entries of a record, each with its value already printed, in the order of their
keys. -/
def printRecord (printed : List (String × String)) : String :=
  let sorted := printed.mergeSort fun a b => decide (codeUnits a.1 ≤ codeUnits b.1)
  "\x7b" ++ ",".intercalate (sorted.map fun entry =>
    env.stringify (.str entry.1) ++ ":" ++ entry.2) ++ "\x7d"

mutual

def stableStringify : Json → String
  | .arr values => "[" ++ ",".intercalate (stableItems values) ++ "]"
  | .obj entries => printRecord env (stableEntries entries)
  | value => env.stringify value

def stableItems : List Json → List String
  | [] => []
  | value :: rest => stableStringify value :: stableItems rest

def stableEntries : List (String × Json) → List (String × String)
  | [] => []
  | (key, value) :: rest => (key, stableStringify value) :: stableEntries rest

end

def fingerprintJsonObject (input : Entries) : String :=
  env.sha256Hex (stableStringify env (.obj input))

end Fingerprint

def round (value : Rat) : Int := (value + 1 / 2).floor

def applyJitter (baseMs : Int) : Program Int := do
  let share ← random
  return max 1000 (round (baseMs * (1 / 2 + share * (1 / 2))))

def fullJitterDelayMs (baseMs maxMs : Int) (attempt : Nat) : Program Int := do
  let share ← random
  return max 500 (round (share * min maxMs (baseMs * 2 ^ attempt)))

def nextReconciliationDelayMs (nextAttempt : Int) : Program Int :=
  if nextAttempt ≤ 1 then applyJitter 30000
  else if nextAttempt = 2 then applyJitter (2 * 60000)
  else if nextAttempt = 3 then applyJitter (10 * 60000)
  else applyJitter (30 * 60000)

def nextTransientDelayMs (nextAttempt : Int) : Program Int :=
  fullJitterDelayMs 30000 (30 * 60000) (nextAttempt - 1).toNat

inductive Classification where
  | blocked | transient | notFound | gone | permanent
  deriving DecidableEq

def Classification.text : Classification → String
  | .blocked => "blocked"
  | .transient => "transient"
  | .notFound => "not_found"
  | .gone => "gone"
  | .permanent => "permanent"

inductive DetailedFetchResult where
  | ok (body : Entries) (fingerprint : String)
  | failed (classification : Classification) (error : Option String)

section Fetch
variable (env : Environment) (cfg : Config)

def fetchHeaders (url : String) (signed : SignedHeaders) : List (String × String) :=
  [("accept", "application/activity+json, application/ld+json"),
   ("date", signed.date),
   ("signature", signed.signature),
   ("host", env.host url),
   ("user-agent", cfg.userAgent)]

def failedStatus (statusCode : Nat) : DetailedFetchResult :=
  .failed (if transientHttpStatusCodes.contains statusCode then .transient else .permanent)
    (some ("HTTP " ++ toString statusCode))

/-- The statements after the response has come; none where the status is retried. -/
def readResponse (response : RemoteResponse) (lastAttempt : Bool) :
    Program (Option DetailedFetchResult) := do
  if response.contentLength.any (maxJsonResponseBytes < ·) then
    dump
    return some (.failed .permanent (some "response exceeds size limit"))
  else if response.statusCode = 404 then
    dump
    return some (.failed .notFound none)
  else if response.statusCode = 410 then
    dump
    return some (.failed .gone none)
  else if response.statusCode < 200 || 300 ≤ response.statusCode then
    dump
    if transientHttpStatusCodes.contains response.statusCode && !lastAttempt then return none
    else return some (failedStatus response.statusCode)
  else
    match ← (.call .readJson .done : Program (Option Entries)) with
    | none => return some (.failed .permanent (some "invalid JSON object payload"))
    | some body => return some (.ok body (fingerprintJsonObject env body))

/-- The try block of one attempt. -/
def fetchOnce (url : String) (lastAttempt : Bool) : Program (Option DetailedFetchResult) := do
  match ← (.call (.signOne cfg.signerActorUri url) .done : Program SignResult) with
  | .error _ message _ => return some (.failed .permanent (some message))
  | .ok signed =>
    let response ← (.call (.request url (fetchHeaders env cfg url signed)) .done :
      Program RemoteResponse)
    readResponse env response lastAttempt

def sleepBeforeRetry (attempt : Nat) : Program Unit := do
  sleep (← fullJitterDelayMs cfg.requestRetryBaseDelayMs cfg.requestRetryMaxDelayMs attempt)

/-- The attempts that remain; what an attempt throws is retried. -/
def fetchAttempts (url : String) : (remaining attempt : Nat) → Program DetailedFetchResult
  | 0, _ => pure (.failed .transient (some "exhausted retries"))
  | remaining + 1, attempt => do
    match ← Prog.attempt (fetchOnce env cfg url (remaining = 0)) with
    | .ok (some result) => return result
    | .ok none =>
      sleepBeforeRetry cfg attempt
      fetchAttempts url remaining (attempt + 1)
    | .error message =>
      if remaining = 0 then return .failed .transient (some message)
      else
        sleepBeforeRetry cfg attempt
        fetchAttempts url remaining (attempt + 1)

def fetchRemoteObject (url : String) : Program DetailedFetchResult :=
  if !env.isAllowedRemoteFetchUrl url then
    pure (.failed .blocked (some "blocked unsafe fetch URL"))
  else fetchAttempts env cfg url (max 1 (cfg.requestRetries + 1)).toNat 0

end Fetch

/-- Acknowledge and enqueue again. -/
def rescheduleJob (messageId : String) (job : OriginReconciliationJob) (status : Status) :
    Program Unit := do
  ack messageId status
  enqueueOriginReconciliation job

def deferJob (messageId : String) (job : OriginReconciliationJob) (delayMs : Int)
    (reason : String) : Program Unit := do
  let notBeforeMs := (← clock) + delayMs
  rescheduleJob messageId { job with notBeforeMs, lastError := some reason } .deferred

/-- Whether the object has been missing only once and the window is long enough for a
second look. -/
def confirmsLater (job : OriginReconciliationJob) : Program Bool := do
  if job.notFoundCount + 1 < 2 then return (← clock) + 120000 < job.windowExpiresAt
  else return false

def handleFailedFetch (messageId : String) (job : OriginReconciliationJob)
    (classification : Classification) (error : Option String) : Program Unit :=
  match classification with
  | .transient => do
    let nowMs ← clock
    let notBeforeMs := nowMs + (← nextTransientDelayMs (job.attempt + 1))
    rescheduleJob messageId
      { job with
        attempt := job.attempt + 1
        notBeforeMs
        lastError := some (error.getD classification.text) } .retry
  | .notFound => do
    if ← confirmsLater job then
      let notBeforeMs := (← clock) + 120000
      rescheduleJob messageId
        { job with
          attempt := job.attempt + 1
          notFoundCount := job.notFoundCount + 1
          notBeforeMs
          lastError := some "not_found" } .retry
    else ack messageId .notFound
  | .gone => ack messageId .gone
  | .blocked | .permanent => do
    ack messageId .dlq
    .call (.moveToDlq
      { job with
        attempt := job.attempt + 1
        lastError := some (error.getD classification.text) }
      (error.getD classification.text)) .done

section Process
variable (env : Environment) (cfg : Config)

def isTombstone (object : Entries) : Bool :=
  match object.lookup "type" with
  | some (.str type) => type = "Tombstone"
  | _ => false

def syntheticActivity (uuid actorUri originObjectUrl : String) (object : Entries) : Entries :=
  [("@context", .str "https://www.w3.org/ns/activitystreams"),
   ("type", .str (if isTombstone object then "Delete" else "Update")),
   ("id", .str ("urn:origin-reconcile:" ++ uuid)),
   ("actor", .str actorUri),
   ("object", if isTombstone object then .str originObjectUrl else .obj object)]

/-- The actor of a synthetic update; without one the update is skipped. -/
def updateActor (job : OriginReconciliationJob) (object : Entries) : Option String :=
  (job.actorUriHint.or (extractAttributedTo object)).filter (· ≠ "")

def enqueueSyntheticUpdate (job : OriginReconciliationJob) (object : Entries) : Program Unit :=
  match updateActor job object with
  | none => pure ()
  | some actorUri => do
    let uuid ← randomUUID
    let envelopeId ← randomUUID
    let nowMs ← clock
    .call (.enqueueInbound (createVerifiedInboundEnvelope envelopeId "/inbox"
      (env.stringify (.obj (syntheticActivity uuid actorUri job.originObjectUrl object)))
      "127.0.0.1" actorUri
      [("content-type", "application/activity+json"), ("x-origin-reconciliation", "true")]
      nowMs)) .done

/-- The fetched object has the fingerprint that the job carries. -/
def isUnchanged (job : OriginReconciliationJob) (fingerprint : String) : Bool :=
  readBack job.lastFingerprint = some fingerprint

def handleUnchanged (messageId : String) (job : OriginReconciliationJob) : Program Unit := do
  let unchangedSuccesses := job.unchangedSuccesses + 1
  if cfg.maxUnchangedSuccesses ≤ unchangedSuccesses then ack messageId .stable
  else
    let nowMs ← clock
    let notBeforeMs := nowMs + (← nextReconciliationDelayMs (job.attempt + 1))
    rescheduleJob messageId
      { job with unchangedSuccesses, attempt := job.attempt + 1, notBeforeMs
                 lastError := some "" } .retry

/-- `job.canonicalObjectId || job.originObjectUrl` -/
def applyKey (job : OriginReconciliationJob) : String :=
  (readBack job.canonicalObjectId).getD job.originObjectUrl

/-- The marker is set before the update is enqueued. -/
def handleChanged (messageId : String) (job : OriginReconciliationJob) (body : Entries)
    (fingerprint : String) : Program Unit := do
  let shouldApply ← (.call (.markOriginReconciliationApplied (applyKey job) fingerprint
    cfg.applyIdempotencyTtlSeconds) .done : Program Bool)
  if shouldApply then enqueueSyntheticUpdate env job body
  let nowMs ← clock
  let notBeforeMs := nowMs + (← nextReconciliationDelayMs (job.attempt + 1))
  rescheduleJob messageId
    { job with
      attempt := job.attempt + 1
      unchangedSuccesses := 0
      notFoundCount := 0
      lastFingerprint := some fingerprint
      notBeforeMs
      lastError := some "" } .retry

/-- The inner try block, while the slot of the origin is held. -/
def reconcile (messageId : String) (job : OriginReconciliationJob) : Program Unit := do
  match ← fetchRemoteObject env cfg job.originObjectUrl with
  | .failed classification error => handleFailedFetch messageId job classification error
  | .ok body fingerprint =>
    if isUnchanged job fingerprint then handleUnchanged cfg messageId job
    else handleChanged env cfg messageId job body fingerprint

/-- The finally block releases the slot. -/
def withDomainSlot (domain : String) (body : Program Unit) : Program Unit := do
  let outcome ← Prog.attempt body
  .call (.releaseDomainSlot domain) .done
  .done outcome

def isNotDue (job : OriginReconciliationJob) : Program Bool :=
  if 0 < job.notBeforeMs then do return (← clock) < job.notBeforeMs
  else pure false

def isExpired (job : OriginReconciliationJob) : Program Bool := do
  let nowMs ← clock
  return job.windowExpiresAt ≤ nowMs || job.maxAttempts ≤ job.attempt

def processJob (messageId : String) (job : OriginReconciliationJob) : Program Unit := do
  match env.urlHost job.originObjectUrl with
  | none => .fail "Invalid URL"
  | some originHost =>
    let domain := "origin-reconcile:" ++ originHost
    if ← isNotDue job then rescheduleJob messageId job .deferred
    else if ← isExpired job then ack messageId .expired
    else if !(← .call (.checkDomainRateLimit domain cfg.perOriginBurstLimit
        cfg.perOriginBurstWindowSeconds) .done) then
      deferJob messageId job 30000 "rate_limited"
    else if !(← .call (.acquireDomainSlot domain cfg.perOriginConcurrency) .done) then
      deferJob messageId job 15000 "concurrency_limited"
    else withDomainSlot domain (reconcile env cfg messageId job)

end Process

end MastopodFederation.Source.OriginReconciliationWorker
