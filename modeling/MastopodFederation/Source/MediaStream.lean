import MastopodFederation.Source.SecureWorker

/-!
# One media stream in Redis

The Redis commands behind the calls of the media workers: one stream with its consumer
group, its retry set and the dead-letter stream. Every command is one step. The connection
decides how a command ends: it is answered, it fails without effect, or it takes effect and
its reply is lost; the connection can change at any time. Which jobs
were handled, how often a handler failed and what was handed to a handler are history
variables no code reads.
-/
namespace MastopodFederation.Source.MediaStream
open Lib.Calls Lib.WorkerPool SecureWorker

/-- What becomes of the next command. -/
inductive Connection where
  | answers
  | refuses
  | losesReply
  deriving DecidableEq

/-- Where an entry stands in the consumer group. -/
inductive EntryStatus where
  | unread
  | pending
  | acked
  deriving DecidableEq

structure StreamEntry where
  id : String
  message : Message
  status : EntryStatus

/-- A message that was handed to a handler, and how often a handler had failed on its job. -/
structure Handing where
  message : Message
  failures : Nat

structure Store where
  connection : Connection
  stream : List StreamEntry
  retrySet : List RetryEntry
  dlq : List DlqPayload
  enqueued : Nat
  handled : List Nat
  failures : Nat → Nat
  handed : List Handing

namespace Store

def initial : Store where
  connection := .answers
  stream := []
  retrySet := []
  dlq := []
  enqueued := 0
  handled := []
  failures _ := 0
  handed := []

/-- XADD -/
def append (s : Store) (id : String) (message : Message) : Store :=
  { s with stream := s.stream ++ [⟨id, message, .unread⟩] }

/-- ZADD: a member that is there gets the new score. -/
def zAdd (s : Store) (entry : RetryEntry) : Store :=
  { s with retrySet := entry :: s.retrySet.filter (·.value ≠ entry.value) }

def zRem (s : Store) (entry : RetryEntry) : Store :=
  { s with retrySet := s.retrySet.filter (·.value ≠ entry.value) }

def setStatus (s : Store) (affected : StreamEntry → Bool) (status : EntryStatus) : Store :=
  { s with stream := s.stream.map fun entry =>
      if affected entry then { entry with status := status } else entry }

/-- XACK: only pending entries are acknowledged. -/
def acknowledge (s : Store) (messageIds : List String) : Store :=
  s.setStatus (fun entry => messageIds.contains entry.id && entry.status = .pending) .acked

/-- The entries with these ids become pending. -/
def deliver (s : Store) (messageIds : List String) : Store :=
  s.setStatus (fun entry => messageIds.contains entry.id) .pending

/-- XADD to the dead letters -/
def letter (s : Store) (payload : DlqPayload) : Store := { s with dlq := payload :: s.dlq }

def handOver (s : Store) (messages : List Message) : Store :=
  { s with handed := messages.map (fun m => ⟨m, s.failures m.job⟩) ++ s.handed }

def markHandled (s : Store) (jobs : List Nat) : Store := { s with handled := jobs ++ s.handled }

def countFailure (s : Store) (job : Nat) : Store :=
  { s with failures := fun j => if j = job then s.failures j + 1 else s.failures j }

end Store

/-- An id that XADD can give to a new entry. -/
def Fresh (s : Store) (id : String) : Prop := ∀ entry ∈ s.stream, entry.id ≠ id

/-- No member of the set has a lower score. -/
def Lowest (s : Store) (entry : RetryEntry) : Prop :=
  entry ∈ s.retrySet ∧ ∀ other ∈ s.retrySet, entry.score ≤ other.score

/-- Every envelope is an entry of the stream in this status. -/
def Reads (s : Store) (status : EntryStatus) (envelopes : List WorkerEnvelope) : Prop :=
  ∀ envelope ∈ envelopes, ⟨envelope.id, envelope.message, status⟩ ∈ s.stream

/-- What a handler did: it returned, or it threw and the failure counts for the job. -/
def afterHandler (s : Store) (message : Message) : Except Thrown Unit → Store
  | .ok _ => (s.handOver [message]).markHandled [message.job]
  | .error _ => (s.handOver [message]).countFailure message.job

/-- The jobs of the messages with these ids. -/
def jobsOf (messages : List WorkerEnvelope) (ids : List String) : List Nat :=
  (messages.filter fun envelope => ids.contains envelope.id).map (·.message.job)

/-- What a batch handler did; a failure of the whole batch counts for no job. -/
def afterBatch (s : Store) (messages : List WorkerEnvelope) :
    Except Thrown (Option (BatchHandlerResult messages)) → Store
  | .ok result => (s.handOver (messages.map (·.message))).markHandled
      (jobsOf messages (handledIds result))
  | .error _ => s.handOver (messages.map (·.message))

/-- A call that takes effect and what it replies. -/
inductive Applies : (c : Call) → Store → Reply c → Store → Prop where
  | now {s : Store} {reply : Int} : Applies .now s reply s
  | randomUUID {s : Store} {reply : String} : Applies .randomUUID s reply s
  | jitter {bound : Int} {s : Store} {reply : Int} : Applies (.jitter bound) s reply s
  | popNothing {s : Store} (empty : s.retrySet = []) : Applies .zPopMin s (.ok none) s
  | pop {s : Store} {entry : RetryEntry} {now : Int} (lowest : Lowest s entry) :
      Applies .zPopMin s (.ok (some (entry, now))) (s.zRem entry)
  | pushBack {entry : RetryEntry} {s : Store} :
      Applies (.pushBack entry) s (.ok ()) (s.zAdd entry)
  | requeue {message : Message} {s : Store} {id : String} (fresh : Fresh s id) :
      Applies (.requeue message) s (.ok ()) (s.append id message)
  | schedule {entry : RetryEntry} {s : Store} :
      Applies (.schedule entry) s (.ok ()) (s.zAdd entry)
  /-- any pending entries, since idle times depend on the clock -/
  | xAutoClaim {count : Int} {s : Store} {envelopes : List WorkerEnvelope}
      (reads : Reads s .pending envelopes) : Applies (.xAutoClaim count) s (.ok envelopes) s
  | xReadGroup {count : Int} {s : Store} {envelopes : List WorkerEnvelope}
      (reads : Reads s .unread envelopes) :
      Applies (.xReadGroup count) s (.ok envelopes) (s.deliver (envelopes.map (·.id)))
  | handler {message : Message} {s : Store} {reply : Except Thrown Unit} :
      Applies (.handler message) s reply (afterHandler s message reply)
  | batchHandler {messages : List WorkerEnvelope} {s : Store}
      {reply : Except Thrown (Option (BatchHandlerResult messages))} :
      Applies (.batchHandler messages) s reply (afterBatch s messages reply)
  | pushToDlq {payload : DlqPayload} {s : Store} :
      Applies (.pushToDlq payload) s (.ok ()) (s.letter payload)
  | xAck {messageIds : List String} {s : Store} :
      Applies (.xAck messageIds) s (.ok ()) (s.acknowledge messageIds)

/-- The call is a Redis command. -/
def isCommand : Call → Bool
  | .now | .randomUUID | .jitter _ | .handler _ | .batchHandler _ => false
  | _ => true

def isError {ε α : Type} : Except ε α → Bool
  | .ok _ => false
  | .error _ => true

/-- The reply is a thrown error. -/
def threw : (c : Call) → Reply c → Bool
  | .now, _ | .randomUUID, _ | .jitter _, _ => false
  | .zPopMin, reply => isError reply
  | .xAutoClaim _, reply | .xReadGroup _, reply => isError reply
  | .pushBack _, reply | .requeue _, reply | .schedule _, reply | .pushToDlq _, reply
  | .xAck _, reply => isError reply
  | .handler _, reply => isError reply
  | .batchHandler _, reply => isError reply

inductive Effect : (c : Call) → Store → Reply c → Store → Prop where
  | applied {c : Call} {s after : Store} {reply : Reply c}
      (up : isCommand c = true → s.connection = .answers) (applies : Applies c s reply after) :
      Effect c s reply after
  | refused {c : Call} {s : Store} {reply : Reply c} (command : isCommand c = true)
      (down : s.connection = .refuses) (failed : threw c reply = true) : Effect c s reply s
  | replyLost {c : Call} {s after : Store} {reply lost : Reply c} (command : isCommand c = true)
      (lossy : s.connection = .losesReply) (applies : Applies c s lost after)
      (failed : threw c reply = true) : Effect c s reply after

/-- What happens to the stream outside its workers. -/
inductive Event where
  /-- another worker or the ingress enqueues a message, which has no field of a retry -/
  | enqueue (id : String) (fields : List (String × String))
  | connection (becomes : Connection)

inductive Acts : Event → Store → Store → Prop where
  | enqueue {id : String} {fields : List (String × String)} {s : Store} (fresh : Fresh s id)
      (first : ∀ field ∈ fields, field.1 ≠ retryAttemptField) :
      Acts (.enqueue id fields) s
        { s.append id ⟨s.enqueued, fields⟩ with enqueued := s.enqueued + 1 }
  | connection {becomes : Connection} {s : Store} :
      Acts (.connection becomes) s { s with connection := becomes }

/-- A worker makes a pass. -/
inductive Starts (env : Environment) (cfg : Config) :
    Store → Worker Unit Call Reply Thrown Unit → Prop where
  | pass {s : Store} {params : Params} {fuel : Nat} :
      Starts env cfg s ⟨(), pass env cfg params fuel⟩

def mediaSystem (env : Environment) (cfg : Config) :
    System Store Unit Event Call Reply Thrown Unit where
  effect _ := Effect
  starts := Starts env cfg
  acts := Acts

abbrev MediaPool := Pool Store Unit Call Reply Thrown Unit

abbrev MediaLabel := Label Unit Event Call Reply Thrown Unit

end MastopodFederation.Source.MediaStream
