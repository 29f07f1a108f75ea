import MastopodFederation.Lib.WorkerPool
import MastopodFederation.Source.ActivityDocuments

/-!
# The OpenSearch indexer

streams/opensearch-indexer.ts on KafkaJS and OpenSearch. KafkaJS hands over the messages of a
partition from the resolved offset on, one batch at a time, and resolves the last offset of a batch
when `eachBatch` returns, as it does unless `eachBatchAutoResolve` is false. OpenSearch carries out a
bulk call or a delete at once or not at all; a delete finds every document. JSON.parse and how
OpenSearch reads an id are parameters. Workers take turns at every call, which is oftener than the
event loop lets them.
-/
namespace MastopodFederation.Source.OpenSearchIndexer
open Lib.Calls Lib.WorkerPool
open Lib.LuaTable (Json)
open ActivityDocuments (Value ActivityDocument mapActivityToDocument normalizePublicSearchConsent)
open SigningService (property truthy)

structure Environment extends ActivityDocuments.Environment where
  parse : String → Option Json
  /-- the `_id` of a document with this activity id -/
  documentId : Json → String
  /-- a term query with the value matches a field with that value -/
  term : Value → Json → Bool

inductive Topic where
  | firehose
  | tombstone
  deriving DecidableEq

structure Partition where
  topic : Topic
  number : Nat
  deriving DecidableEq

/-- A message is its value, which may be missing. -/
abbrev Message := Option String

/-- A document in the batch, in a bulk call or in the index, with the message that it was made from
and how many events came before it. -/
structure Entry where
  document : ActivityDocument
  partition : Partition
  offset : Nat
  number : Nat

/-- The fields that a tombstone deletes by. -/
inductive Field where
  | activityId
  | objectId
  deriving DecidableEq

/-- Messages of a partition in a row, from an offset on. -/
structure Stretch where
  partition : Partition
  offset : Nat
  messages : List Message

inductive Call where
  /-- KafkaJS calls `eachBatch` -/
  | fetch
  /-- `isRunning() && !isStale()`, with the messages that are left -/
  | goesOn (left : Stretch)
  /-- `batch.push(doc)`, and where the batch is full what `flush` takes of it -/
  | push (document : ActivityDocument) (partition : Partition) (offset : Nat)
  /-- `flush` up to the bulk call -/
  | take
  | bulk (docs : List Entry)
  /-- `batch.unshift(...docs)` -/
  | unshift (docs : List Entry)
  | deleteByQuery (field : Field) (id : Json)
  /-- the line "Processed tombstone" -/
  | processedTombstone (activityId objectId : Value)
  | resolveOffset (partition : Partition) (offset : Nat)
  | heartbeat
  /-- `eachBatch` returned for these messages -/
  | returned (batch : Stretch)
  | clearInterval
  | disconnect

/-- A call that may throw replies `none` or `false` then. -/
def Reply : Call → Type
  | .fetch => Stretch
  | .goesOn _ => Bool
  | .push .. => List Entry
  | .take => List Entry
  | .bulk _ => Option (List Bool)
  | .deleteByQuery .. => Bool
  | .heartbeat => Bool
  | _ => Unit

abbrev Run := Prog Call Reply String

def fetch : Run Stretch := .call .fetch pure
def goesOn (left : Stretch) : Run Bool := .call (.goesOn left) pure
def push (document : ActivityDocument) (partition : Partition) (offset : Nat) : Run (List Entry) :=
  .call (.push document partition offset) pure
def take : Run (List Entry) := .call .take pure
def bulk (docs : List Entry) : Run (Option (List Bool)) := .call (.bulk docs) pure
def unshift (docs : List Entry) : Run Unit := .call (.unshift docs) pure
def processedTombstone (activityId objectId : Value) : Run Unit :=
  .call (.processedTombstone activityId objectId) pure
def resolveOffset (partition : Partition) (offset : Nat) : Run Unit :=
  .call (.resolveOffset partition offset) pure
def returned (batch : Stretch) : Run Unit := .call (.returned batch) pure
def clearInterval : Run Unit := .call .clearInterval pure
def disconnect : Run Unit := .call .disconnect pure

def deleteByQuery (field : Field) (id : Json) : Run Unit :=
  .call (.deleteByQuery field id) fun (succeeded : Bool) =>
    if succeeded then pure () else .fail "deleteByQuery failed"

def heartbeat : Run Unit :=
  .call .heartbeat fun (succeeded : Bool) =>
    if succeeded then pure () else .fail "heartbeat failed"

/-- `flush` from the bulk call on. Items that failed are only logged. -/
def send (docs : List Entry) : Run Unit := do
  if docs = [] then pure ()
  else
    match ← bulk docs with
    | some _ => pure ()
    | none => unshift docs

def flush : Run Unit := do
  let docs ← take
  send docs

/-- `if (id) await deleteByQuery(...)` -/
def deleteBy (field : Field) (id : Value) : Run Unit :=
  match id with
  | none => pure ()
  | some id => if truthy (some id) then deleteByQuery field id else pure ()

def handleTombstone (event : Json) : Run Unit := do
  let activityId := property (some event) "activityId"
  let objectId := property (some event) "objectId"
  deleteBy .activityId activityId
  deleteBy .objectId objectId
  processedTombstone activityId objectId

section
variable (env : Environment)

/-- The consent of the event says that it is not to be found. -/
def optsOut (event : Json) : Bool :=
  match normalizePublicSearchConsent (property (property (some event) "meta") "searchConsent") with
  | none => false
  | some consent => consent.isPublic = false

/-- The document that a message of the firehose is mapped to. -/
def documentOf (event : Json) : Except String (Option ActivityDocument) :=
  if optsOut event then .ok none else mapActivityToDocument env.toEnvironment event

/-- The event of a message, where it has a value. Reading a member of null throws. -/
def eventOf (message : Message) : Except String (Option Json) :=
  match message with
  | none | some "" => .ok none
  | some value =>
    match env.parse value with
    | none => .error "Unexpected token in JSON"
    | some .null => .error "Cannot read properties of null"
    | some event => .ok (some event)

/-- An event of the firehose. -/
def handleActivity (partition : Partition) (offset : Nat) (event : Json) : Run Unit := do
  match ← (.done (documentOf env event)) with
  | none => pure ()
  | some doc => do
    let docs ← push doc partition offset
    send docs

def handleEvent (partition : Partition) (offset : Nat) (event : Json) : Run Unit :=
  match partition.topic with
  | .tombstone => handleTombstone event
  | .firehose => handleActivity env partition offset event

/-- The body of `try` in `processBatch`. -/
def handleMessage (partition : Partition) (offset : Nat) (message : Message) : Run Unit := do
  match ← (.done (eventOf env message)) with
  | none => pure ()
  | some event => do
    handleEvent env partition offset event
    resolveOffset partition offset
    heartbeat

/-- An error is only logged. -/
def processMessage (partition : Partition) (offset : Nat) (message : Message) : Run Unit :=
  (handleMessage env partition offset message).rescue fun _ => pure ()

def processMessages (partition : Partition) : Nat → List Message → Run Unit
  | _, [] => pure ()
  | offset, message :: rest => do
    if ← goesOn ⟨partition, offset, message :: rest⟩ then do
      processMessage env partition offset message
      processMessages partition (offset + 1) rest
    else pure ()

def processBatch (batch : Stretch) : Run Unit :=
  processMessages env batch.partition batch.offset batch.messages

/-- A batch of KafkaJS. -/
def eachBatch : Run Unit := do
  let batch ← fetch
  processBatch env batch
  returned batch

def stop : Run Unit := do
  clearInterval
  flush
  disconnect

inductive Job where
  | eachBatch
  | timer
  | stop
  deriving DecidableEq

def Job.program : Job → Run Unit
  | .eachBatch => OpenSearchIndexer.eachBatch env
  | .timer => flush
  | .stop => OpenSearchIndexer.stop

inductive Event where
  | consumed (entry : Entry)
  | deleted (field : Field) (id : Json)
  | tombstone (activityId objectId : Value)

structure Indexer where
  /-- the offset that each partition is resolved up to -/
  position : Partition → Nat
  index : String → Option Entry
  batch : List Entry
  /-- a batch of KafkaJS is being processed -/
  fetched : Bool
  running : Bool
  stale : Bool
  timer : Bool
  /-- OpenSearch refuses calls -/
  down : Bool
  /-- OpenSearch refuses the document in a bulk call -/
  rejects : ActivityDocument → Bool
  /-- what happened to documents so far -/
  events : List Event

def Entry.id (entry : Entry) : String := env.documentId entry.document.activity_id

/-- The query of a tombstone finds the document. -/
def finds (field : Field) (id : Json) (document : ActivityDocument) : Bool :=
  match field with
  | .activityId => env.term (some document.activity_id) id
  | .objectId => env.term document.object_id id

/-- The index after the documents of a bulk call that are not refused. -/
def indexed (rejects : ActivityDocument → Bool) (index : String → Option Entry)
    (docs : List Entry) : String → Option Entry :=
  docs.foldl (fun index entry =>
    if rejects entry.document then index
    else fun id => if id = entry.id env then some entry else index id) index

variable (log : Partition → List Message) (batchSize : Nat)

namespace Indexer

/-- The entry of a document that is pushed now. -/
def entryOf (s : Indexer) (document : ActivityDocument) (partition : Partition) (offset : Nat) :
    Entry :=
  ⟨document, partition, offset, s.events.length⟩

/-- The batch with a document more, and what `flush` takes of it. -/
def pushed (s : Indexer) (entry : Entry) : List Entry × List Entry :=
  let batch := s.batch ++ [entry]
  if batchSize ≤ batch.length then ([], batch) else (batch, [])

def resolve (s : Indexer) (partition : Partition) (offset : Nat) : Indexer :=
  { s with position := fun p => if p = partition then offset + 1 else s.position p }

/-- The effects of the calls. -/
inductive Performs : Indexer → (c : Call) → Reply c → Indexer → Prop where
  | fetch {s : Indexer} {partition : Partition} {messages rest : List Message}
      (idle : s.fetched = false) (running : s.running = true) (some_ : messages ≠ [])
      (next : (log partition).drop (s.position partition) = messages ++ rest) :
      Performs s .fetch ⟨partition, s.position partition, messages⟩ { s with fetched := true }
  | goesOn {s : Indexer} {left : Stretch} : Performs s (.goesOn left) (s.running && !s.stale) s
  | push {s : Indexer} {document : ActivityDocument} {partition : Partition} {offset : Nat} :
      Performs s (.push document partition offset)
        (s.pushed batchSize (s.entryOf document partition offset)).2
        { s with
          batch := (s.pushed batchSize (s.entryOf document partition offset)).1
          events := s.events ++ [.consumed (s.entryOf document partition offset)] }
  | take {s : Indexer} : Performs s .take s.batch { s with batch := [] }
  | bulk {s : Indexer} {docs : List Entry} (up : s.down = false) :
      Performs s (.bulk docs) (some (docs.map fun entry => s.rejects entry.document))
        { s with index := indexed env s.rejects s.index docs }
  | bulkFailed {s : Indexer} {docs : List Entry} (down : s.down = true) :
      Performs s (.bulk docs) none s
  | unshift {s : Indexer} {docs : List Entry} :
      Performs s (.unshift docs) () { s with batch := docs ++ s.batch }
  | deleteByQuery {s : Indexer} {field : Field} {id : Json} (up : s.down = false) :
      Performs s (.deleteByQuery field id) true
        { s with
          index := fun key => (s.index key).filter fun entry => !finds env field id entry.document
          events := s.events ++ [.deleted field id] }
  | deleteFailed {s : Indexer} {field : Field} {id : Json} (down : s.down = true) :
      Performs s (.deleteByQuery field id) false s
  | processedTombstone {s : Indexer} {activityId objectId : Value} :
      Performs s (.processedTombstone activityId objectId) ()
        { s with events := s.events ++ [.tombstone activityId objectId] }
  | resolveOffset {s : Indexer} {partition : Partition} {offset : Nat} :
      Performs s (.resolveOffset partition offset) () (s.resolve partition offset)
  | heartbeat {s : Indexer} {succeeded : Bool} : Performs s .heartbeat succeeded s
  | returned {s : Indexer} {batch : Stretch} :
      Performs s (.returned batch) ()
        { s.resolve batch.partition (batch.offset + batch.messages.length - 1) with
          fetched := false }
  | clearInterval {s : Indexer} : Performs s .clearInterval () { s with timer := false }
  | disconnect {s : Indexer} : Performs s .disconnect () { s with running := false }

/-- A new process, which subscribes at the resolved offsets. -/
def restarted (s : Indexer) : Indexer :=
  { s with batch := [], fetched := false, running := true, stale := false, timer := true }

/-- Nothing is consumed yet. -/
def initial : Indexer where
  position _ := 0
  index _ := none
  batch := []
  fetched := false
  running := true
  stale := false
  timer := true
  down := false
  rejects _ := false
  events := []

end Indexer

/-- What happens outside of the process. -/
inductive Act where
  | stale (stale : Bool)
  | cluster (down : Bool) (rejects : ActivityDocument → Bool)

def indexerSystem : System Indexer Job Act Call Reply String Unit where
  effect _ c s reply after := s.Performs env log batchSize c reply after
  starts s worker := worker.program = worker.tag.program env ∧ (worker.tag = .timer → s.timer = true)
  acts act s after := match act with
    | .stale stale => after = { s with stale := stale }
    | .cluster down rejects => after = { s with down := down, rejects := rejects }

abbrev IndexerPool := Pool Indexer Job Call Reply String Unit
abbrev IndexerLabel := Label Job Act Call Reply String Unit

/-- A worker is forgotten when its program has ended. -/
def Ended (pool : IndexerPool) (i : Nat) : Prop :=
  ∀ worker, pool.workers i = some worker → ∃ outcome, worker.program = .done outcome

/-- A step of the process, or `none` where it crashes and is started again. -/
inductive IndexerStep : IndexerPool → Option IndexerLabel → IndexerPool → Prop where
  | process {pool after : IndexerPool} {label : IndexerLabel}
      (step : Step (indexerSystem env log batchSize) pool label after)
      (ended : ∀ i, label = .stop i → Ended pool i) : IndexerStep pool (some label) after
  | crash {pool : IndexerPool} : IndexerStep pool none (Pool.idle pool.shared.restarted)

end
end MastopodFederation.Source.OpenSearchIndexer
