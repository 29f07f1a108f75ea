import MastopodFederation.Lib.WorkerPool
import MastopodFederation.Source.OutboxIntentWorker

/-!
# The outbox intent queue in Redis

The Redis commands and scripts behind the calls of the outbox intent worker, and
`consumeOutboxIntents` and `promoteDue` around it: the intent stream with its
acknowledgements, the state hashes, the batches that the fan-out script appends to
the outbound stream, the delayed store and the dead letters. Every command and
script is one step; a call that fails may or may not have taken effect.

`delayedIds` is a history variable no code reads: the ids of the delayed copies
that were ever written.
-/
namespace MastopodFederation.Source.OutboxIntentQueue
open Lib.Calls Lib.WorkerPool DelayedQueue OutboxIntentWorker

structure IntentEntry where
  messageId : String
  fields : Fields
  acked : Bool

/-- An entry of the dead-letter stream; a diagnostic carries no intent. -/
structure DeadLetter where
  id : String
  reason : String
  intent : Option OutboxIntent

/-- A batch that the fan-out script appended, and the intent it is for. -/
structure Appended where
  intentId : String
  batch : List Fields

structure Store where
  stream : List IntentEntry
  states : String → Hash
  outbound : List Appended
  schedule : String → Option Int
  payloads : PayloadHash
  delayedIds : List String
  deadLetters : List DeadLetter

namespace Store

def initial : Store where
  stream := []
  states _ _ := none
  outbound := []
  schedule _ := none
  payloads _ := none
  delayedIds := []
  deadLetters := []

def addEntry (s : Store) (messageId : String) (fields : Fields) : Store :=
  { s with stream := s.stream ++ [⟨messageId, fields, false⟩] }

/-- XACK -/
def acknowledge (s : Store) (messageId : String) : Store :=
  { s with stream := s.stream.map fun entry =>
      if entry.messageId = messageId then { entry with acked := true } else entry }

/-- HSET: later values of a field win. -/
def hSet (s : Store) (intentId : String) (values : Fields) : Store :=
  { s with states := fun id =>
      if id = intentId then fun field => (values.reverse.lookup field).or (s.states id field)
      else s.states id }

/-- The field of an intent's state hash is there. -/
def isSet (s : Store) (intentId field : String) : Bool := (s.states intentId field).isSome

/-- The script of `persistReplacementAndAck` before its XACK. -/
def persist (rt : Runtime) (intent : OutboxIntent) (s : Store) : Store :=
  if keepsExisting rt (s.payloads intent.intentId) intent.attempt intent.notBeforeMs then s
  else
    { s with
      payloads := persistReplacement rt s.payloads intent
      schedule := fun id =>
        if id = intent.intentId then some intent.notBeforeMs else s.schedule id
      delayedIds := intent.intentId :: s.delayedIds }

def removeDelayed (s : Store) (id : String) : Store :=
  { s with
    schedule := fun key => if key = id then none else s.schedule key
    payloads := fun key => if key = id then none else s.payloads key }

def letter (s : Store) (deadLetter : DeadLetter) : Store :=
  { s with deadLetters := deadLetter :: s.deadLetters }

/-- The script of `enqueueOutboundBatchForIntent` after its check. -/
def append (s : Store) (intentId outboundEnqueuedAt jobCount : String) (batch : List Fields) :
    Store :=
  { s with outbound := ⟨intentId, batch⟩ :: s.outbound }.hSet intentId
    [("outboundEnqueuedAt", outboundEnqueuedAt), ("jobCount", jobCount)]

end Store

def jobCountText (env : Environment) (batch : List Fields) : String :=
  env.rt.numberToString batch.length

/-- A call that takes effect and what it replies. -/
inductive Applies (env : Environment) : (c : Call) → Store → Reply c → Store → Prop where
  | hGetAll {intentId : String} {s : Store} :
      Applies env (.hGetAll intentId) s (.ok (s.states intentId)) s
  | hSet {intentId : String} {values : Fields} {s : Store} :
      Applies env (.hSet intentId values) s (.ok ()) (s.hSet intentId values)
  | expire {intentId : String} {seconds : Int} {s : Store} :
      Applies env (.expire intentId seconds) s (.ok ()) s
  | fannedOut {intentId outboundEnqueuedAt : String} {batch : List Fields} {s : Store}
      (enqueued : s.isSet intentId "outboundEnqueuedAt" = true) :
      Applies env (.fanOut intentId outboundEnqueuedAt batch) s
        (.ok ("0", (s.states intentId "jobCount").getD (jobCountText env batch))) s
  | fanOut {intentId outboundEnqueuedAt : String} {batch : List Fields} {s : Store}
      (unset : s.isSet intentId "outboundEnqueuedAt" = false) :
      Applies env (.fanOut intentId outboundEnqueuedAt batch) s
        (.ok ("1", jobCountText env batch))
        (s.append intentId outboundEnqueuedAt (jobCountText env batch) batch)
  | persistAndAck {messageId : String} {intent : OutboxIntent} {s : Store} :
      Applies env (.persistAndAck messageId intent) s (.ok ())
        ((s.persist env.rt intent).acknowledge messageId)
  | moveToDlq {intent : OutboxIntent} {reason : String} {s : Store} :
      Applies env (.moveToDlq intent reason) s (.ok ())
        (s.letter ⟨intent.intentId, reason, some intent⟩)
  | ack {messageId : String} {s : Store} :
      Applies env (.ack messageId) s (.ok ()) (s.acknowledge messageId)

def isError {α : Type} : Except String α → Bool
  | .ok _ => false
  | .error _ => true

/-- The reply is a thrown error. -/
def threw : (c : Call) → Reply c → Bool
  | .now, _ => false
  | .hGetAll _, reply => isError reply
  | .fanOut .., reply => isError reply
  | .publishTombstone _, reply | .publishToStream1 _, reply | .hSet .., reply
  | .expire .., reply | .persistAndAck .., reply | .moveToDlq .., reply | .ack _, reply =>
    isError reply

/-- The clock and the broker. -/
def outsideStore : Call → Bool
  | .now | .publishTombstone _ | .publishToStream1 _ => true
  | _ => false

/-- One call: it takes effect and replies, fails without effect, or takes effect and its
reply is lost; the clock and the broker may reply anything. -/
inductive Effect (env : Environment) : (c : Call) → Store → Reply c → Store → Prop where
  | applied {c : Call} {s after : Store} {reply : Reply c}
      (applies : Applies env c s reply after) : Effect env c s reply after
  | refused {c : Call} {s : Store} {reply : Reply c} (failed : threw c reply = true) :
      Effect env c s reply s
  | replyLost {c : Call} {s after : Store} {reply lost : Reply c}
      (applies : Applies env c s lost after) (failed : threw c reply = true) :
      Effect env c s reply after
  | elsewhere {c : Call} {s : Store} {reply : Reply c} (outside : outsideStore c = true) :
      Effect env c s reply s

/-- An id that XADD can give to a new entry. -/
def Fresh (s : Store) (messageId : String) : Prop :=
  ∀ entry ∈ s.stream, entry.messageId ≠ messageId

/-- The promotion script over the due ids, in any order; an error ends the script and
keeps what it did so far. -/
inductive Promotes (env : Environment) : List String → Store → Store → Prop where
  | done {s : Store} : Promotes env [] s s
  | failed {id : String} {rest : List String} {s : Store} {message : String}
      (error : promoteIntent env.rt (s.payloads id) id = .error message) :
      Promotes env (id :: rest) s s
  | dead {id reason : String} {rest : List String} {s after : Store}
      (invalid : promoteIntent env.rt (s.payloads id) id = .ok (.dead reason))
      (others : Promotes env rest ((s.letter ⟨id, reason, none⟩).removeDelayed id) after) :
      Promotes env (id :: rest) s after
  | promoted {id messageId : String} {rest : List String} {s after : Store} {fields : Fields}
      (due : promoteIntent env.rt (s.payloads id) id = .ok (.ready fields))
      (fresh : Fresh s messageId)
      (others : Promotes env rest ((s.addEntry messageId fields).removeDelayed id) after) :
      Promotes env (id :: rest) s after

/-- What happens to the queue outside the workers. -/
inductive Event where
  /-- a producer appends an entry, a duplicate or not -/
  | enqueue (messageId : String) (fields : Fields)
  | promoteDue (nowMs : Int)

inductive Acts (env : Environment) : Event → Store → Store → Prop where
  | enqueue {messageId : String} {fields : Fields} {s : Store} (fresh : Fresh s messageId) :
      Acts env (.enqueue messageId fields) s (s.addEntry messageId fields)
  | promoteDue {nowMs : Int} {s after : Store} {due : List String}
      (dueIds : ∀ id ∈ due, ∃ score, s.schedule id = some score ∧ score ≤ nowMs)
      (promotes : Promotes env due s after) : Acts env (.promoteDue nowMs) s after

/-- A worker starts on an entry of the stream, acknowledged or not, since an entry of a
batch may be settled elsewhere meanwhile; an entry that does not parse stays pending. -/
inductive Starts (env : Environment) (cfg : Config) :
    Store → Worker Unit Call Reply Failure Unit → Prop where
  | consume {s : Store} {entry : IntentEntry} {intent : OutboxIntent} (present : entry ∈ s.stream)
      (read : deserializeOutboxIntent env.rt env.codec entry.messageId entry.fields = .ok intent) :
      Starts env cfg s ⟨(), processIntent env cfg entry.messageId intent⟩

def intentSystem (env : Environment) (cfg : Config) :
    System Store Unit Event Call Reply Failure Unit where
  effect _ := Effect env
  starts := Starts env cfg
  acts := Acts env

end MastopodFederation.Source.OutboxIntentQueue
