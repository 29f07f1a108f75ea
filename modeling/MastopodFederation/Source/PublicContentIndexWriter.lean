import MastopodFederation.Lib.ServedCalls
import MastopodFederation.Source.ProtocolBridgeRuntime

/-!
# The search index writer

search/writer/PublicContentIndexWriter.ts with aliases/SearchDedupService.ts, and the store and
cache behind it: DefaultOpenSearchClient and the alias cache. Documents are JSON objects there:
an absent field is not sent, and an update merges objects field by field. The store refuses an
empty id, as OpenSearch does. `Date` is a parameter.
-/
namespace MastopodFederation.Source.PublicContentIndexWriter
open Lib.Calls Lib.ServedCalls
open ProtocolBridgeRuntime (trim)
open Retry (includes)

inductive Protocol where
  | ap | atproto
  deriving DecidableEq

inductive SourceKind where
  | localSource | remoteSource
  deriving DecidableEq

structure ApRef where
  objectUri : String
  activityUri : Option String
  deriving DecidableEq

structure AtRef where
  uri : String
  cid : Option String
  did : String
  deriving DecidableEq

structure Author where
  canonicalId : Option String
  apUri : Option String
  did : Option String
  handle : Option String
  deriving DecidableEq

structure Engagement where
  likeCount : Int
  repostCount : Int
  replyCount : Int
  deriving DecidableEq

structure PublicContentDocument where
  stableDocId : String
  canonicalContentId : Option String
  protocolPresence : List Protocol
  sourceKind : SourceKind
  apRef : Option ApRef
  atRef : Option AtRef
  author : Author
  text : String
  createdAt : String
  langs : Option (List String)
  tags : Option (List String)
  emojis : Option (List String)
  replyToStableId : Option String
  quoteOfStableId : Option String
  hasMedia : Bool
  mediaCount : Nat
  isDeleted : Bool
  engagement : Option Engagement
  deriving DecidableEq

inductive UpsertKind where
  | full | part
  deriving DecidableEq

structure Content where
  text : String
  createdAt : String
  langs : Option (List String)
  tags : Option (List String)
  emojis : Option (List String)
  deriving DecidableEq

structure Relations where
  replyToStableId : Option String
  quoteOfStableId : Option String
  deriving DecidableEq

structure Media where
  hasMedia : Bool
  mediaCount : Nat
  deriving DecidableEq

structure SearchPublicUpsertV1 where
  upsertKind : UpsertKind
  stableDocId : String
  canonicalContentId : Option String
  protocolSource : Protocol
  sourceKind : SourceKind
  apRef : Option ApRef
  atRef : Option AtRef
  author : Author
  content : Content
  relations : Option Relations
  media : Option Media
  deriving DecidableEq

/-- The text, unless it is absent or empty. -/
def filled (text : Option String) : Option String := text.filter (· ≠ "")

namespace SearchPublicUpsertV1

/-- The ids that the writer goes by: each where it is there and not empty. -/
def canonicalId (event : SearchPublicUpsertV1) : Option String := filled event.canonicalContentId

def apUri (event : SearchPublicUpsertV1) : Option String := filled (event.apRef.map (·.objectUri))

def atUri (event : SearchPublicUpsertV1) : Option String := filled (event.atRef.map (·.uri))

def replyTo (event : SearchPublicUpsertV1) : Option String :=
  event.relations.bind (·.replyToStableId)

def quoteOf (event : SearchPublicUpsertV1) : Option String :=
  event.relations.bind (·.quoteOfStableId)

end SearchPublicUpsertV1

/-- `{ ...old, ...new }`; the store keeps the old activity where the new one is absent. -/
def ApRef.over (old : Option ApRef) (new : ApRef) : ApRef :=
  { new with activityUri := new.activityUri <|> old.bind (·.activityUri) }

def AtRef.over (old : Option AtRef) (new : AtRef) : AtRef :=
  { new with cid := new.cid <|> old.bind (·.cid) }

inductive Call where
  | getByCanonicalId (canonicalId : String)
  | getByApUri (apUri : String)
  | getByAtUri (atUri : String)
  | setCanonicalId (canonicalId stableDocId : String)
  | setApUri (apUri stableDocId : String)
  | setAtUri (atUri stableDocId : String)
  | get (id : String)
  | getMany (ids : List String)
  | upsert (id : String) (doc : PublicContentDocument)
  /-- `upsert(id, { isDeleted: true })` -/
  | markDeleted (id : String)
  | upsertMany (entries : List (String × PublicContentDocument))
  | delete (id : String)

/-- `none` is a call that throws; a bulk write says of each entry whether it was done. -/
abbrev Reply : Call → Type
  | .getByCanonicalId _ | .getByApUri _ | .getByAtUri _ => Option (Option String)
  | .setCanonicalId .. | .setApUri .. | .setAtUri .. => Option Unit
  | .get _ => Option (Option PublicContentDocument)
  | .getMany _ => Option (String → Option PublicContentDocument)
  | .upsert .. | .markDeleted _ | .delete _ => Option Unit
  | .upsertMany _ => Option (List Bool)

inductive Failure where
  /-- a store or cache command threw -/
  | command
  /-- a PublicContentBatchError -/
  | batch (message : String) (failedIndex : Nat)
  deriving DecidableEq

abbrev Run := Prog Call Reply Failure

def replied {α : Type} : Option α → Run α
  | none => Prog.fail .command
  | some a => pure a

/-- An empty alias is none: `if (cached) return cached` -/
def lookup (asked : Run (Option String)) (otherwise : Run String) : Run String := do
  match filled (← asked) with
  | some cached => pure cached
  | none => otherwise

/-- The part of `resolveStableDocId` after the ActivityPub URI. -/
def resolveByAtUri (input : SearchPublicUpsertV1) : Run String :=
  match input.atUri with
  | some uri => lookup (.call (.getByAtUri uri) replied) (pure input.stableDocId)
  | none => pure input.stableDocId

def resolveStableDocId (input : SearchPublicUpsertV1) : Run String :=
  match input.canonicalId with
  | some canonicalId =>
    lookup (.call (.getByCanonicalId canonicalId) replied) (pure canonicalId)
  | none =>
    match input.apUri with
    | some uri => lookup (.call (.getByApUri uri) replied) (resolveByAtUri input)
    | none => resolveByAtUri input

/-- Both are there, neither is empty, and they are not the same. -/
def conflict (existing incoming : Option String) : Bool :=
  (filled existing).isSome && (filled incoming).isSome && existing ≠ incoming

/-- Both are there, neither is empty, and they are the same. -/
def shared (existing incoming : Option String) : Bool :=
  (filled existing).isSome && existing = incoming

/-- `Math.abs(d1 - d2) > 5 * 60 * 1000`; no comparison with an invalid date holds. -/
def farApart : Option Int → Option Int → Bool
  | some d1, some d2 => 5 * 60 * 1000 < (d1 - d2).natAbs
  | _, _ => false

section Writer
variable (time : String → Option Int)

def shouldMergeRemoteDuplicate (existing : PublicContentDocument)
    (incoming : SearchPublicUpsertV1) : Bool :=
  if shared existing.canonicalContentId incoming.canonicalContentId then true
  else if existing.sourceKind ≠ incoming.sourceKind then false
  else if ¬ shared existing.author.canonicalId incoming.author.canonicalId then false
  else
    let t1 := trim existing.text
    let t2 := trim incoming.content.text
    if t1 ≠ t2 ∧ ¬ includes t1 t2 ∧ ¬ includes t2 t1 then false
    else if farApart (time existing.createdAt) (time incoming.content.createdAt) then false
    else if conflict existing.replyToStableId incoming.replyTo then false
    else if conflict existing.quoteOfStableId incoming.quoteOf then false
    else true

/-- The fields of a document that did not exist. -/
def freshDocument (event : SearchPublicUpsertV1) (targetDocId : String) :
    PublicContentDocument where
  stableDocId := targetDocId
  canonicalContentId := event.canonicalContentId
  protocolPresence := []
  sourceKind := event.sourceKind
  apRef := none
  atRef := none
  author := event.author
  text := event.content.text
  createdAt := event.content.createdAt
  langs := event.content.langs
  tags := event.content.tags
  emojis := event.content.emojis
  replyToStableId := event.replyTo
  quoteOfStableId := event.quoteOf
  hasMedia := event.media.any (·.hasMedia)
  mediaCount := (event.media.map (·.mediaCount)).getD 0
  isDeleted := false
  engagement := some ⟨0, 0, 0⟩

def buildDocument (event : SearchPublicUpsertV1) (targetDocId : String)
    (existingDoc : Option PublicContentDocument) : PublicContentDocument :=
  let doc := existingDoc.getD (freshDocument event targetDocId)
  { doc with
    protocolPresence :=
      if event.protocolSource ∈ doc.protocolPresence then doc.protocolPresence
      else doc.protocolPresence ++ [event.protocolSource]
    apRef := event.apRef.map (ApRef.over doc.apRef) <|> doc.apRef
    atRef := event.atRef.map (AtRef.over doc.atRef) <|> doc.atRef }

/-- Publish an alias for an id that is there and not empty. -/
def publishAlias (id : Option String) (publish : String → Run Unit) : Run Unit :=
  match id with
  | some id => publish id
  | none => pure ()

def publishAliases (event : SearchPublicUpsertV1) (targetDocId : String) : Run Unit := do
  publishAlias event.canonicalId fun id => .call (.setCanonicalId id targetDocId) replied
  publishAlias event.apUri fun uri => .call (.setApUri uri targetDocId) replied
  publishAlias event.atUri fun uri => .call (.setAtUri uri targetDocId) replied

/-- A remote event that is not merged into the remote document it resolves to. -/
def skips (event : SearchPublicUpsertV1) : Option PublicContentDocument → Bool
  | none => false
  | some existing =>
    existing.sourceKind = .remoteSource && event.sourceKind = .remoteSource &&
      !shouldMergeRemoteDuplicate time existing event

def onUpsert (event : SearchPublicUpsertV1) : Run Unit :=
  if event.upsertKind = .part then pure ()
  else do
    let targetDocId ← resolveStableDocId event
    let existingDoc ← .call (.get targetDocId) replied
    if skips time event existingDoc then publishAliases event targetDocId
    else do
      .call (.upsert targetDocId (buildDocument event targetDocId existingDoc)) replied
      publishAliases event targetDocId

/-- `try { body } catch (error) { throw new PublicContentBatchError(message, failedIndex, error) }` -/
def orBatchError {α : Type} (message : String) (failedIndex : Nat) (body : Run α) : Run α :=
  body.rescue fun _ => Prog.fail (.batch message failedIndex)

/-- The events one by one, from this index on. -/
def upsertEach : Nat → List SearchPublicUpsertV1 → Run Unit
  | _, [] => pure ()
  | i, event :: rest => do
    orBatchError "Sequential upsert failed" i (onUpsert time event)
    upsertEach (i + 1) rest

def resolveEach : Nat → List SearchPublicUpsertV1 → Run (List String)
  | _, [] => pure []
  | i, event :: rest => do
    let id ← orBatchError "Stable document ID resolution failed" i (resolveStableDocId event)
    let ids ← resolveEach (i + 1) rest
    pure (id :: ids)

/-- Publish the aliases of an entry that was written. -/
def publishEntry (sourceIndex : Nat) (entry : SearchPublicUpsertV1 × String) (ok : Bool) :
    Run (Option Failure) :=
  if ok then do
    match ← (publishAliases entry.1 entry.2).attempt with
    | .ok () => pure none
    | .error _ => pure (some (.batch "Alias publication failed after bulk write" sourceIndex))
  else pure (some (.batch "OpenSearch bulk item failed" sourceIndex))

/-- The aliases of all entries, and the earliest failure. -/
def publishEach : Nat → List (SearchPublicUpsertV1 × String) → List Bool → Run (Option Failure)
  | sourceIndex, entry :: entries, ok :: results => do
    let failure ← publishEntry sourceIndex entry ok
    let later ← publishEach (sourceIndex + 1) entries results
    pure (failure <|> later)
  | _, _, _ => pure none

/-- One bulk request for the entries from this index on. -/
def writeBulk (start : Nat) (entries : List (SearchPublicUpsertV1 × String)) : Run Unit :=
  if entries = [] then pure ()
  else do
    let results ← orBatchError "OpenSearch bulk request failed" start
      (.call (.upsertMany (entries.map fun (event, id) => (id, buildDocument event id none)))
        replied)
    if results.length ≠ entries.length then
      Prog.fail (.batch "OpenSearch bulk result cardinality mismatch" start)
    else do
      match ← publishEach start entries results with
      | some earliestFailure => Prog.fail earliestFailure
      | none => pure ()

def mustStaySequential (counts : String → Nat) (existingById : String → Option PublicContentDocument)
    (entry : SearchPublicUpsertV1 × String) : Bool :=
  entry.1.upsertKind = .part || 1 < counts entry.2 || (existingById entry.2).isSome

/-- The loop over the batch; the pending entries are those of the inner loop. -/
def writeOrdered (sequential : SearchPublicUpsertV1 × String → Bool) :
    Nat → List (SearchPublicUpsertV1 × String) → List (SearchPublicUpsertV1 × String) → Run Unit
  | i, pending, [] => writeBulk (i - pending.length) pending
  | i, pending, entry :: rest =>
    if sequential entry then do
      writeBulk (i - pending.length) pending
      orBatchError "Ordered fallback upsert failed" i (onUpsert time entry.1)
      writeOrdered sequential (i + 1) [] rest
    else writeOrdered sequential (i + 1) (pending ++ [entry]) rest

/-- `bulk` says whether the store has `getMany` and `upsertMany`. -/
def onUpsertBatch (bulk : Bool) (events : List SearchPublicUpsertV1) : Run Unit :=
  if events.length ≤ 1 ∨ ¬ bulk then upsertEach time 0 events
  else do
    let targetIds ← resolveEach 0 events
    let counts := fun id => targetIds.count id
    let uniqueFreshCandidates := targetIds.filter fun id => counts id = 1
    let existingById ← orBatchError "Bulk existence lookup failed" 0
      (.call (.getMany uniqueFreshCandidates) replied)
    writeOrdered time (mustStaySequential counts existingById) 0 [] (events.zip targetIds)

end Writer

/-- The documents and the aliases. -/
structure Index where
  docs : String → Option PublicContentDocument
  byCanonicalId : String → Option String
  byApUri : String → Option String
  byAtUri : String → Option String

/-- A map with one more entry. -/
def bound {α : Type} (held : String → Option α) (key : String) (value : α) : String → Option α :=
  fun other => if other = key then some value else held other

/-- The stored document after an update with this one. -/
def overlay (old new : PublicContentDocument) : PublicContentDocument :=
  { new with
    canonicalContentId := new.canonicalContentId <|> old.canonicalContentId
    apRef := new.apRef.map (ApRef.over old.apRef) <|> old.apRef
    atRef := new.atRef.map (AtRef.over old.atRef) <|> old.atRef
    author :=
      { canonicalId := new.author.canonicalId <|> old.author.canonicalId
        apUri := new.author.apUri <|> old.author.apUri
        did := new.author.did <|> old.author.did
        handle := new.author.handle <|> old.author.handle }
    langs := new.langs <|> old.langs
    tags := new.tags <|> old.tags
    emojis := new.emojis <|> old.emojis
    replyToStableId := new.replyToStableId <|> old.replyToStableId
    quoteOfStableId := new.quoteOfStableId <|> old.quoteOfStableId
    engagement := new.engagement <|> old.engagement }

namespace Index

def empty : Index := ⟨fun _ => none, fun _ => none, fun _ => none, fun _ => none⟩

def setCanonicalId (x : Index) (canonicalId stableDocId : String) : Index :=
  { x with byCanonicalId := bound x.byCanonicalId canonicalId stableDocId }

def setApUri (x : Index) (apUri stableDocId : String) : Index :=
  { x with byApUri := bound x.byApUri apUri stableDocId }

def setAtUri (x : Index) (atUri stableDocId : String) : Index :=
  { x with byAtUri := bound x.byAtUri atUri stableDocId }

/-- `update` with `doc_as_upsert` -/
def upsert (x : Index) (id : String) (doc : PublicContentDocument) : Index :=
  { x with docs := bound x.docs id ((x.docs id).elim doc fun old => overlay old doc) }

/-- Comes right after the document was read, so it never creates one. -/
def markDeleted (x : Index) (id : String) : Index :=
  { x with docs := fun other =>
      if other = id then (x.docs id).map ({ · with isDeleted := true }) else x.docs other }

def delete (x : Index) (id : String) : Index :=
  { x with docs := fun other => if other = id then none else x.docs other }

/-- A command on documents; an empty id is refused. -/
def onIds {α : Type} (x : Index) (ids : List String) (done : Option α × Index) :
    Option α × Index :=
  if "" ∈ ids then (none, x) else done

/-- A call that has its effect and is answered. -/
def answer (x : Index) : (c : Call) → Reply c × Index
  | .getByCanonicalId canonicalId => (some (x.byCanonicalId canonicalId), x)
  | .getByApUri apUri => (some (x.byApUri apUri), x)
  | .getByAtUri atUri => (some (x.byAtUri atUri), x)
  | .setCanonicalId canonicalId stableDocId => (some (), x.setCanonicalId canonicalId stableDocId)
  | .setApUri apUri stableDocId => (some (), x.setApUri apUri stableDocId)
  | .setAtUri atUri stableDocId => (some (), x.setAtUri atUri stableDocId)
  | .get id => x.onIds [id] (some (x.docs id), x)
  | .getMany ids => x.onIds ids (some fun id => if id ∈ ids then x.docs id else none, x)
  | .upsert id doc => x.onIds [id] (some (), x.upsert id doc)
  | .markDeleted id => x.onIds [id] (some (), x.markDeleted id)
  | .upsertMany entries =>
    x.onIds (entries.map (·.1))
      (some (entries.map fun _ => true), entries.foldl (fun x entry => x.upsert entry.1 entry.2) x)
  | .delete id => x.onIds [id] (some (), x.delete id)

end Index

/-- The reply of a call that fails. -/
def refuse : (c : Call) → Reply c
  | .getByCanonicalId _ | .getByApUri _ | .getByAtUri _ => none
  | .setCanonicalId .. | .setApUri .. | .setAtUri .. => none
  | .get _ => none
  | .getMany _ => none
  | .upsert .. | .markDeleted _ | .delete _ => none
  | .upsertMany _ => none

def service : Service Call Reply Index := ⟨Index.answer, refuse⟩

end MastopodFederation.Source.PublicContentIndexWriter
