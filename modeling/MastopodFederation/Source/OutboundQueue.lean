import MastopodFederation.Lib.WorkerPool
import MastopodFederation.Source.OutboundWorker

/-!
# The outbound queue in Redis

`consumeOutbound` and `promoteDueOutbound` of queue/sidecar-redis-queue.ts and the
Redis commands behind the calls of the outbound worker: the ready stream with its
acknowledgements, the delayed schedule and payload hash, the dead letters and the
completed markers of delivery/outbound-delivery-claims.ts. Every command and script
is one step; a call that fails may or may not have taken effect. The fan-out script
of `enqueueOutboundBatchForIntent` is an event of the environment.

Each copy of a job carries its origin, a history variable no code reads: the time of
the first ready-stream entry or first enqueue it descends from. A worker's tag is the
origin of what it enqueues.
-/
namespace MastopodFederation.Source.OutboundQueue
open Lib.Calls Lib.WorkerPool DelayedQueue ReplayHorizon OutboundWorker

section Consume
variable (env : Environment) (cfg : Config)

def expiredText (suffix : String) : String :=
  "Outbound message exceeded the " ++ limitText ++ " ms APDM queue residence limit" ++ suffix

def isExpired (job : OutboundJob) (nowMs : Int) : Bool :=
  match queueResidenceMs job false nowMs with
  | none => true
  | some residenceMs => outboundMessageMaxResidenceMs < residenceMs

/-- The retry loops run until they succeed; a run of at most `fuel` rounds that does not is
one that crashed. -/
def interrupted : Failure := .other "interrupted"

/-- `while (!dlqPersisted)` -/
def persistDeadLetter : Nat → OutboundJob → Int → Program Unit
  | 0, _, _ => .fail interrupted
  | fuel + 1, job, retryDelayMs => do
    let reason := expiredText " while retrying delayed parking"
    match ← Prog.attempt (moveToDlq { job with lastError := some reason } reason) with
    | .ok () => return ()
    | .error _ =>
      sleep retryDelayMs
      persistDeadLetter fuel job (min (retryDelayMs * 2) delayedOutboundParkMaxRetryMs)

/-- The loop that parks a job; returns whether the entry is settled. -/
def parkUntilSettled : Nat → String → OutboundJob → Int → Program Bool
  | 0, _, _, _ => .fail interrupted
  | fuel + 1, messageId, job, retryDelayMs => do
    match ← Prog.attempt (.call (.parkDelayedOutbound messageId job) .done : Program Unit) with
    | .ok () => return true
    | .error _ =>
      sleep retryDelayMs
      let nowMs ← clock
      if isExpired job nowMs then
        persistDeadLetter fuel job delayedOutboundParkRetryMs
        callAdapter (ack messageId)
        return true
      else
        let laterMs ← clock
        if delayedOutboundMinDelayMs < job.notBeforeMs - laterMs then
          parkUntilSettled fuel messageId job
            (min (retryDelayMs * 2) delayedOutboundParkMaxRetryMs)
        else return false

/-- One turn of `consumeOutbound`; the job that it yields. -/
def consumeEntry (fuel : Nat) (messageId : String) (job : OutboundJob) :
    Program (Option OutboundJob) :=
  match redisStreamMessageTimestampMs messageId with
  | none => pure (some job)
  | some streamTimestamp => do
    let job := ensureFirstQueuedAt job streamTimestamp
    let nowMs ← clock
    if isExpired job nowMs then
      let reason := expiredText ""
      callAdapter (deadLetter messageId { job with lastError := some reason } reason)
      return none
    else
      let laterMs ← clock
      if !env.testMode && 0 < job.notBeforeMs &&
          delayedOutboundMinDelayMs < job.notBeforeMs - laterMs then
        if ← parkUntilSettled fuel messageId job delayedOutboundParkRetryMs then return none
        else return some job
      else return some job

/-- Read an entry and process the job it yields; an entry that does not parse stays
pending. -/
def handleEntry (fuel : Nat) (messageId : String) (fields : Fields) : Program Unit :=
  match deserializeOutboundJob env.rt env.codec messageId fields with
  | .error _ => pure ()
  | .ok job => do
    match ← consumeEntry env fuel messageId job with
    | none => return ()
    | some job => processJob env cfg messageId job

end Consume

structure ReadyEntry where
  messageId : String
  fields : Fields
  acked : Bool
  origin : Int

structure Post where
  origin : Int
  startedAt : Int

structure Store where
  ready : List ReadyEntry
  schedule : String → Option Int
  payloads : PayloadHash
  /-- origins of the delayed copies -/
  delayedOrigin : String → Int
  deadLetters : List OutboundJob
  completed : List String
  legacyCompleted : List String
  posts : List Post

namespace Store

/-- A queue without entries; markers may be left from before. -/
def initial (completed legacyCompleted : List String) : Store where
  ready := []
  schedule _ := none
  payloads _ := none
  delayedOrigin _ := 0
  deadLetters := []
  completed := completed
  legacyCompleted := legacyCompleted
  posts := []

def ids (s : Store) : List String := s.ready.map (·.messageId)

def addEntries (s : Store) (origin : Int) (entries : List (String × Fields)) : Store :=
  { s with ready := s.ready ++ entries.map fun (messageId, fields) =>
      ⟨messageId, fields, false, origin⟩ }

/-- XACK -/
def acknowledge (s : Store) (messageId : String) : Store :=
  { s with ready := s.ready.map fun entry =>
      if entry.messageId = messageId then { entry with acked := true } else entry }

/-- The script of `storeDelayedOutbound`. -/
def storeDelayed (rt : Runtime) (origin : Int) (job : OutboundJob) (s : Store) : Store :=
  if keepsExisting rt (s.payloads job.jobId) job.attempt job.notBeforeMs then s
  else
    { s with
      payloads := parkDelayedOutbound rt s.payloads job
      schedule := fun id => if id = job.jobId then some job.notBeforeMs else s.schedule id
      delayedOrigin := fun id => if id = job.jobId then origin else s.delayedOrigin id }

def removeDelayed (s : Store) (id : String) : Store :=
  { s with
    schedule := fun key => if key = id then none else s.schedule key
    payloads := fun key => if key = id then none else s.payloads key }

def complete (s : Store) (jobId : String) : Store :=
  { s with
    completed := jobId :: s.completed
    legacyCompleted := s.legacyCompleted.filter (· ≠ jobId) }

end Store

/-- Ids that XADD can give to as many new entries. -/
def Fresh (s : Store) (messageIds : List String) : Prop :=
  messageIds.Nodup ∧ ∀ messageId ∈ messageIds, messageId ∉ s.ids

/-- A call that takes effect and what it replies. -/
inductive Applies (env : Environment) (origin : Int) :
    (c : Call) → Store → Reply c → Store → Prop where
  | claimCompleted {jobId claimToken : String} {ttlMs : Int} {s : Store}
      (marked : jobId ∈ s.completed) :
      Applies env origin (.claim jobId claimToken ttlMs) s (.ok .completed) s
  | claimLegacy {jobId claimToken : String} {ttlMs : Int} {s : Store}
      (marked : jobId ∈ s.legacyCompleted) :
      Applies env origin (.claim jobId claimToken ttlMs) s (.ok .completed) (s.complete jobId)
  -- the claim key and its expiry are left open
  | claim {jobId claimToken : String} {ttlMs : Int} {s : Store} {result : DeliveryClaimResult}
      (unmarked : jobId ∉ s.completed ∧ jobId ∉ s.legacyCompleted) (open' : result ≠ .completed) :
      Applies env origin (.claim jobId claimToken ttlMs) s (.ok result) s
  | complete {jobId claimToken : String} {ttlMs : Int} {s : Store} :
      Applies env origin (.complete jobId claimToken ttlMs) s (.ok ()) (s.complete jobId)
  | release {jobId claimToken : String} {s : Store} :
      Applies env origin (.release jobId claimToken) s (.ok ()) s
  | releaseDomainSlot {domain : String} {s : Store} :
      Applies env origin (.releaseDomainSlot domain) s (.ok ()) s
  | addReady {batch : List Fields} {s : Store} {messageIds : List String}
      (fresh : Fresh s messageIds) (each : messageIds.length = batch.length) :
      Applies env origin (.addReady batch) s (.ok ())
        (s.addEntries origin (messageIds.zip batch))
  | storeDelayedOutbound {job : OutboundJob} {s : Store} :
      Applies env origin (.storeDelayedOutbound job) s (.ok ()) (s.storeDelayed env.rt origin job)
  | parkDelayedOutbound {messageId : String} {job : OutboundJob} {s : Store} :
      Applies env origin (.parkDelayedOutbound messageId job) s (.ok ())
        ((s.storeDelayed env.rt origin job).acknowledge messageId)
  | moveToDlq {job : OutboundJob} {reason : String} {s : Store} :
      Applies env origin (.moveToDlq job reason) s (.ok ())
        { s with deadLetters := job :: s.deadLetters }
  | ack {messageId : String} {s : Store} :
      Applies env origin (.ack messageId) s (.ok ()) (s.acknowledge messageId)

/-- The calls that reach the stored state. -/
def reachesStore : Call → Bool
  | .claim .. | .complete .. | .release .. | .releaseDomainSlot _ | .addReady _
  | .storeDelayedOutbound _ | .parkDelayedOutbound .. | .moveToDlq .. | .ack _ => true
  | _ => false

def isError {α : Type} : Except Failure α → Bool
  | .ok _ => false
  | .error _ => true

/-- The reply is a thrown error. -/
def threw : (c : Call) → Reply c → Bool
  | .now, _ | .jitter _, _ | .randomUUID, _ | .sleep _, _ => false
  | .capabilityGate _, reply => isError reply
  | .claim .., reply => isError reply
  | .isDomainBlocked _, reply | .checkDomainRateLimit _, reply | .acquireDomainSlot .., reply =>
    isError reply
  | .signOne .., reply => isError reply
  | .localSign .., reply => isError reply
  | .buildSyncHeader .., reply | .readBody, reply => isError reply
  | .request .., reply => isError reply
  | .complete .., reply | .release .., reply | .releaseDomainSlot _, reply
  | .validateActivityPubTarget _, reply | .addReady _, reply | .storeDelayedOutbound _, reply
  | .parkDelayedOutbound .., reply | .moveToDlq .., reply | .ack _, reply
  | .onOutboundDelivered .., reply | .onOutboundPermanentFailure .., reply =>
    isError reply

/-- One call: it takes effect and replies, fails without effect, or takes effect and its
reply is lost; a call outside the queue may reply anything, and a POST is recorded. -/
inductive Effect (env : Environment) (origin : Int) :
    (c : Call) → Store → Reply c → Store → Prop where
  | applied {c : Call} {s after : Store} {reply : Reply c}
      (applies : Applies env origin c s reply after) : Effect env origin c s reply after
  | refused {c : Call} {s : Store} {reply : Reply c} (stored : reachesStore c = true)
      (failed : threw c reply = true) : Effect env origin c s reply s
  | replyLost {c : Call} {s after : Store} {reply lost : Reply c}
      (applies : Applies env origin c s lost after) (failed : threw c reply = true) :
      Effect env origin c s reply after
  | posted {url body : String} {headers : List (String × String)} {startedAt : Int} {s : Store}
      {reply : Except Failure HttpResponse} :
      Effect env origin (.request url headers body startedAt) s reply
        { s with posts := ⟨origin, startedAt⟩ :: s.posts }
  | elsewhere {c : Call} {s : Store} {reply : Reply c} (outside : reachesStore c = false)
      (unposted : c matches .request .. → False) : Effect env origin c s reply s

/-- The promotion script over the due ids, in any order; an error ends the script and
keeps what it did so far. -/
inductive Promotes (env : Environment) : List String → Store → Store → Prop where
  | done {s : Store} : Promotes env [] s s
  | failed {id : String} {rest : List String} {s : Store} {message : String}
      (error : promoteOutbound env.rt (s.payloads id) id = .error message) :
      Promotes env (id :: rest) s s
  | gone {id : String} {rest : List String} {s after : Store}
      (missing : promoteOutbound env.rt (s.payloads id) id = .ok none)
      (others : Promotes env rest (s.removeDelayed id) after) :
      Promotes env (id :: rest) s after
  | promoted {id messageId : String} {rest : List String} {s after : Store} {fields : Fields}
      (due : promoteOutbound env.rt (s.payloads id) id = .ok (some fields))
      (fresh : Fresh s [messageId])
      (others : Promotes env rest
        ((s.addEntries (s.delayedOrigin id) [(messageId, fields)]).removeDelayed id) after) :
      Promotes env (id :: rest) s after

/-- What happens to the queue outside the outbound workers. -/
inductive Event where
  /-- the fan-out script of an outbox intent, at a time of the Redis clock -/
  | fanOut (jobs : List OutboundJob) (nowMs : Int)
  | promoteDueOutbound (nowMs : Int)

inductive Acts (env : Environment) : Event → Store → Store → Prop where
  | fanOut {jobs : List OutboundJob} {nowMs : Int} {s : Store} {batch : List Fields}
      {messageIds : List String}
      (serialized : jobs.mapM (serializeOutboundJob env.rt env.codec) = .ok batch)
      (fresh : Fresh s messageIds) (each : messageIds.length = batch.length)
      (timed : ∀ messageId ∈ messageIds, redisStreamMessageTimestampMs messageId = some nowMs) :
      Acts env (.fanOut jobs nowMs) s (s.addEntries nowMs (messageIds.zip batch))
  | promote {nowMs : Int} {s after : Store} {due : List String}
      (dueIds : ∀ id ∈ due, ∃ score, s.schedule id = some score ∧ score ≤ nowMs)
      (promotes : Promotes env due s after) : Acts env (.promoteDueOutbound nowMs) s after

/-- The workers that can start: one for an entry of the ready stream, acknowledged or
not, since an entry of a batch may be settled elsewhere meanwhile; and a producer that
has read its clock. -/
inductive Starts (env : Environment) (cfg : Config) :
    Store → Worker Int Call Reply Failure Unit → Prop where
  | consume {s : Store} {entry : ReadyEntry} (fuel : Nat) (present : entry ∈ s.ready) :
      Starts env cfg s ⟨entry.origin, handleEntry env cfg fuel entry.messageId entry.fields⟩
  | produce {s : Store} (nowMs : Int) (jobs : List OutboundJob) :
      Starts env cfg s ⟨nowMs, enqueueStamped env nowMs jobs⟩

def queueSystem (env : Environment) (cfg : Config) :
    System Store Int Event Call Reply Failure Unit where
  effect origin := Effect env origin
  starts := Starts env cfg
  acts := Acts env

end MastopodFederation.Source.OutboundQueue
