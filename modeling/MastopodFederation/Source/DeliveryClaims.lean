import MastopodFederation.Lib.WorkerPool
import MastopodFederation.Source.OutboundWorker

/-!
# Delivery claims of one outbound job

`RedisOutboundDeliveryClaimStore` and `migrateLegacyCompletedDeliveryMarkers` of
delivery/outbound-delivery-claims.ts over the three keys of one job, and the
outbound workers that use them. A key with an expiry exists until that time of the
Redis clock. A cutover can run at any time.

`tokens`, `granted` and `deliveries` are history variables no code reads: the claim
tokens drawn, when the claims granted to them elapse, and the POSTs answered with
success. A worker's tag is the token it draws.
-/
namespace MastopodFederation.Source.DeliveryClaims
open Lib.Calls Lib.WorkerPool ReplayHorizon OutboundWorker

def minCompletedDeliveryTtlMs : Int := completedDeliveryMinRetentionMs

/-- An integer is finite and its own floor. -/
def normalizeCompletedDeliveryTtlMs (ttlMs : Int) : Int := max minCompletedDeliveryTtlMs ttlMs

/-- The keys of a job: the expiries of its markers, the owner and expiry of its claim. -/
structure ClaimKeys where
  completed : Option Int
  legacyCompleted : Option Int
  claim : Option (String × Int)

/-- EXISTS -/
def keyExists (nowMs : Int) : Option Int → Bool
  | some expiry => nowMs ≤ expiry
  | none => false

namespace ClaimKeys
variable (keys : ClaimKeys) (nowMs : Int)

/-- GET of the claim key -/
def owner : Option String :=
  match keys.claim with
  | some (token, expiry) => if nowMs ≤ expiry then some token else none
  | none => none

/-- Deletes the claim of this token. -/
def dropClaim (claimToken : String) : Option (String × Int) :=
  if keys.owner nowMs = some claimToken then none else keys.claim

/-- Turns the legacy marker into a marker, unless there is one. -/
def convertLegacy : ClaimKeys :=
  { keys with
    completed :=
      if keyExists nowMs keys.completed then keys.completed
      else some (nowMs + minCompletedDeliveryTtlMs)
    legacyCompleted := none }

/-- The script of `claim`. -/
def claimScript (claimToken : String) (ttlMs : Int) : DeliveryClaimResult × ClaimKeys :=
  if keyExists nowMs keys.completed then (.completed, keys)
  else if keyExists nowMs keys.legacyCompleted then (.completed, keys.convertLegacy nowMs)
  else if (keys.owner nowMs).isNone then
    (.claimed, { keys with claim := some (claimToken, nowMs + max 1000 ttlMs) })
  else if keyExists nowMs keys.completed || keyExists nowMs keys.legacyCompleted then
    (.completed, keys)
  else (.inFlight, keys)

/-- The script of `complete`. -/
def completeScript (claimToken : String) (ttlMs : Int) : ClaimKeys where
  completed := some (nowMs + normalizeCompletedDeliveryTtlMs ttlMs)
  legacyCompleted := none
  claim := keys.dropClaim nowMs claimToken

/-- The script of `release`. -/
def releaseScript (claimToken : String) : ClaimKeys :=
  { keys with claim := keys.dropClaim nowMs claimToken }

/-- The maintenance cutover, for one job. -/
def migrateLegacyCompletedDeliveryMarkers : ClaimKeys :=
  if keyExists nowMs keys.legacyCompleted then keys.convertLegacy nowMs else keys

end ClaimKeys

/-- A POST answered with success. -/
structure Delivery where
  token : String
  /-- when the claim it was made under elapses -/
  deadline : Int
  postedAt : Int
  completedAt : Option Int
  /-- its worker released the claim without a completed marker -/
  abandoned : Bool

structure Store where
  nowMs : Int
  keys : ClaimKeys
  tokens : List String
  granted : String → Option Int
  deliveries : List Delivery

namespace Store

/-- Nobody has claimed the job; markers may be left from before. -/
def initial (nowMs : Int) (completed legacyCompleted : Option Int) : Store :=
  ⟨nowMs, ⟨completed, legacyCompleted, none⟩, [], fun _ => none, []⟩

def draw (s : Store) (token : String) : Store := { s with tokens := token :: s.tokens }

def claim (s : Store) (claimToken : String) (ttlMs : Int) : Store :=
  let result := s.keys.claimScript s.nowMs claimToken ttlMs
  { s with
    keys := result.2
    granted := fun token =>
      if result.1 = .claimed ∧ token = claimToken then some (s.nowMs + max 1000 ttlMs)
      else s.granted token }

def complete (s : Store) (claimToken : String) (ttlMs : Int) : Store :=
  { s with
    keys := s.keys.completeScript s.nowMs claimToken ttlMs
    deliveries := s.deliveries.map fun d =>
      if d.token = claimToken ∧ d.completedAt = none then { d with completedAt := some s.nowMs }
      else d }

def release (s : Store) (claimToken : String) : Store :=
  { s with
    keys := s.keys.releaseScript s.nowMs claimToken
    deliveries := s.deliveries.map fun d =>
      if d.token = claimToken ∧ d.completedAt = none then { d with abandoned := true } else d }

def deliver (s : Store) (token : String) : Store :=
  { s with
    deliveries := ⟨token, (s.granted token).getD s.nowMs, s.nowMs, none, false⟩ :: s.deliveries }

end Store

/-- The remote server accepted the POST. -/
def accepted : Except Failure HttpResponse → Bool
  | .ok response => 200 ≤ response.statusCode && response.statusCode < 300
  | .error _ => false

/-- The calls that reach the keys or the history. -/
def tracked : Call → Bool
  | .randomUUID | .claim .. | .complete .. | .release .. | .request .. => true
  | _ => false

/-- One call of the worker that draws the token `tag`. A failing script call has taken
effect or not; other calls may reply anything. -/
inductive Effect (jobId tag : String) : (c : Call) → Store → Reply c → Store → Prop where
  | randomUUID {s : Store} (fresh : tag ∉ s.tokens) :
      Effect jobId tag .randomUUID s tag (s.draw tag)
  | claim {claimToken : String} {ttlMs : Int} {s : Store} :
      Effect jobId tag (.claim jobId claimToken ttlMs) s
        (.ok (s.keys.claimScript s.nowMs claimToken ttlMs).1) (s.claim claimToken ttlMs)
  | claimLost {claimToken : String} {ttlMs : Int} {s : Store} {e : Failure} :
      Effect jobId tag (.claim jobId claimToken ttlMs) s (.error e) (s.claim claimToken ttlMs)
  | claimRefused {claimToken : String} {ttlMs : Int} {s : Store} {e : Failure} :
      Effect jobId tag (.claim jobId claimToken ttlMs) s (.error e) s
  | complete {claimToken : String} {ttlMs : Int} {s : Store} {reply : Except Failure Unit} :
      Effect jobId tag (.complete jobId claimToken ttlMs) s reply (s.complete claimToken ttlMs)
  | completeRefused {claimToken : String} {ttlMs : Int} {s : Store} {e : Failure} :
      Effect jobId tag (.complete jobId claimToken ttlMs) s (.error e) s
  | release {claimToken : String} {s : Store} {reply : Except Failure Unit} :
      Effect jobId tag (.release jobId claimToken) s reply (s.release claimToken)
  | releaseRefused {claimToken : String} {s : Store} {e : Failure} :
      Effect jobId tag (.release jobId claimToken) s (.error e) s
  | delivered {url body : String} {headers : List (String × String)} {startedAt : Int} {s : Store}
      {reply : Except Failure HttpResponse} (success : accepted reply = true) :
      Effect jobId tag (.request url headers body startedAt) s reply (s.deliver tag)
  | rejected {url body : String} {headers : List (String × String)} {startedAt : Int} {s : Store}
      {reply : Except Failure HttpResponse} (failure : accepted reply = false) :
      Effect jobId tag (.request url headers body startedAt) s reply s
  | elsewhere {c : Call} {s : Store} {reply : Reply c} (outside : tracked c = false) :
      Effect jobId tag c s reply s

inductive Event where
  /-- the Redis clock goes on -/
  | tick
  | migrate

inductive Acts : Event → Store → Store → Prop where
  | tick {s : Store} {nowMs : Int} (later : s.nowMs ≤ nowMs) :
      Acts .tick s { s with nowMs := nowMs }
  | migrate {s : Store} :
      Acts .migrate s { s with keys := s.keys.migrateLegacyCompletedDeliveryMarkers s.nowMs }

/-- A worker for any stream entry of the job. -/
inductive Starts (env : Environment) (cfg : Config) (jobId : String) :
    Store → Worker String Call Reply Failure Unit → Prop where
  | process {s : Store} {job : DelayedQueue.OutboundJob} (tag messageId : String)
      (same : job.jobId = jobId) :
      Starts env cfg jobId s ⟨tag, processJob env cfg messageId job⟩

/-- Any number of workers process duplicates of one job. -/
def claimSystem (env : Environment) (cfg : Config) (jobId : String) :
    System Store String Event Call Reply Failure Unit where
  effect tag := Effect jobId tag
  starts := Starts env cfg jobId
  acts := Acts

end MastopodFederation.Source.DeliveryClaims
