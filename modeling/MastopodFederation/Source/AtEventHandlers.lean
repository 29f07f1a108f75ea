import MastopodFederation.Source.AtToApProjectionWorker

/-!
# The bridge's handlers of AT events

`handleAtCommitEvent` and `handleAtVerifiedIngressEvent` of ProtocolBridgeRuntime.ts with
the inputs they build for the projection worker, and the events they read: what
`persist` of AtCommitPersistenceService.ts publishes about one operation, and what
AtIngressVerifier.ts publishes about a verified one. Fields of the events that the
handlers do not read are left out.
-/
namespace MastopodFederation.Source.AtEventHandlers
open Lib.LuaTable Lib.Schema ProtocolBridgeRuntime AtEnvelope BskyTranslators
open AtToApProjectionWorker Retry

/-- Where a template literal prints a value that is not a string, `printed` is its text. -/
def templateText (printed : Option Json → String) : Option Json → String
  | some (.str text) => text
  | value => printed value

def isObjectValue : Json → Bool
  | .obj _ | .arr _ => true
  | _ => false

def recordUri (did collection rkey : String) : String := s!"at://{did}/{collection}/{rkey}"

/-- The provenance of the metadata, whatever it is. -/
def provenanceOf : Option Json → Option Json
  | some (.obj bridge) => bridge.lookup "provenance"
  | _ => none

/-- The input for one operation of a commit. -/
def commitInput (printed : Option Json → String) (did : String) (op : Entries) : Json :=
  .obj (present
    [("repoDid", some (.str did)),
      ("uri", (defined (op.lookup "uri")).or (some (.str (recordUri did
        (templateText printed (op.lookup "collection"))
        (templateText printed (op.lookup "rkey")))))),
      ("cid", defined (op.lookup "cid")),
      ("rkey", op.lookup "rkey"),
      ("collection", op.lookup "collection"),
      ("canonicalRefId", op.lookup "canonicalRefId"),
      ("subjectDid", defined (op.lookup "subjectDid")),
      ("subjectUri", defined (op.lookup "subjectUri")),
      ("subjectCid", defined (op.lookup "subjectCid")),
      ("reactionContent", defined (op.lookup "reactionContent")),
      ("reactionEmoji", defined (op.lookup "reactionEmoji")),
      ("operation", op.lookup "action"),
      ("bridge", provenanceOf (op.lookup "bridge")),
      ("record", (op.lookup "record").filter isObjectValue)])

def asAtCommitEvent : Json → Option (String × List Json)
  | .obj candidate =>
    match candidate.lookup "did", candidate.lookup "ops" with
    | some (.str did), some (.arr ops) => some (did, ops)
    | _, _ => none
  | _ => none

structure VerifiedCommit where
  did : String
  operation : String
  collection : String
  rkey : String
  cid : Option String
  canonicalRefId : Option String
  record : Option Entries

def textOf : Option Json → Option String
  | some (.str text) => some text
  | _ => none

def asAtVerifiedIngressEvent : Json → Option VerifiedCommit
  | .obj candidate => do
    let did ← textOf (candidate.lookup "did")
    let commit ← plainObject (candidate.lookup "commit")
    let operation ← textOf (commit.lookup "operation")
    let collection ← textOf (commit.lookup "collection")
    let rkey ← textOf (commit.lookup "rkey")
    if isText "#commit" (candidate.lookup "eventType") &&
        (operation = "create" || operation = "update" || operation = "delete") &&
        collection ≠ "" && rkey ≠ "" then
      some { did, operation, collection, rkey, cid := textOf (commit.lookup "cid"),
             canonicalRefId := textOf (commit.lookup "canonicalRefId"),
             record := plainObject (commit.lookup "record") }
    else none
  | _ => none

/-- Neither the subject of a delete nor any metadata is passed on. -/
def ingressInput (commit : VerifiedCommit) : Json :=
  .obj (present
    [("repoDid", some (.str commit.did)),
      ("uri", some (.str (recordUri commit.did commit.collection commit.rkey))),
      ("cid", commit.cid.map .str),
      ("rkey", some (.str commit.rkey)),
      ("collection", some (.str commit.collection)),
      ("canonicalRefId", commit.canonicalRefId.map .str),
      ("operation", some (.str commit.operation)),
      ("record", commit.record.map .obj)])

section
variable (worker : Worker) (printed : Option Json → String)

/-- An operation that is null has no fields to read; any other that is no object has none. -/
def opEntries : Json → Except Thrown Entries
  | .null => .error (.object { name := some "TypeError" })
  | .obj entries => .ok entries
  | _ => .ok []

/-- The operations of a commit one after another; the first failure ends it. `answers` is what
the publish port answers, by the place of the operation. -/
def processOps (did : String) (answers : Nat → Nat → Except Thrown Unit) :
    List Json → World → World × Except Thrown Unit
  | [], w => (w, .ok ())
  | op :: rest, w =>
    match opEntries op with
    | .error e => (w, .error e)
    | .ok entries =>
      match process worker (answers 0) (commitInput printed did entries) w with
      | (w, .error e) => (w, .error e)
      | (w, .ok _) => processOps did (fun place => answers (place + 1)) rest w

def handleAtCommitEvent (answers : Nat → Nat → Except Thrown Unit) (event : Json) (w : World) :
    World × Except Thrown Unit :=
  match asAtCommitEvent event with
  | none => (w, .ok ())
  | some (did, ops) => processOps worker printed did answers ops w

def handleAtVerifiedIngressEvent (answer : Nat → Except Thrown Unit) (event : Json) (w : World) :
    World × Except Thrown Unit :=
  match asAtVerifiedIngressEvent event with
  | none => (w, .ok ())
  | some commit =>
    match process worker answer (ingressInput commit) w with
    | (w, .ok _) => (w, .ok ())
    | (w, .error e) => (w, .error e)

end

def Operation.text : Operation → String
  | .create => "create"
  | .update => "update"
  | .delete => "delete"

/-- An operation on one record of a repository (`AtRepoOpV1`). -/
structure RepoOp where
  did : String
  opType : Operation
  collection : String
  rkey : String
  canonicalRefId : String
  record : Option Json
  bridge : Option Json

/-- What the alias of a record keeps about its subject. -/
structure AliasSubject where
  subjectDid : Option String := none
  subjectUri : Option String := none
  subjectCid : Option String := none
  reactionContent : Option String := none
  reactionEmoji : Option Json := none

/-- An operation as `persist` writes it into the event; the CID is a mock. -/
def persistedOp (op : RepoOp) (subject : AliasSubject) (cid : String) : Entries :=
  present
    [("action", some (.str (Operation.text op.opType))),
      ("collection", some (.str op.collection)),
      ("rkey", some (.str op.rkey)),
      ("canonicalRefId", some (.str op.canonicalRefId)),
      ("uri", some (.str (recordUri op.did op.collection op.rkey))),
      ("cid", some (.str cid)),
      ("subjectDid", subject.subjectDid.map .str),
      ("subjectUri", subject.subjectUri.map .str),
      ("subjectCid", subject.subjectCid.map .str),
      ("reactionContent", subject.reactionContent.map .str),
      ("reactionEmoji", subject.reactionEmoji.filter DelayedQueue.jsTruthy),
      ("record", op.record),
      ("bridge", op.bridge.filter DelayedQueue.jsTruthy)]

/-- The event of a commit of several operations. -/
def atCommitEvent (did : String) (ops : List Entries) : Json :=
  .obj [("did", .str did), ("ops", .arr (ops.map .obj))]

/-- The event of one verified operation. -/
def atIngressEvent (op : RepoOp) (cid : Option String) : Json :=
  .obj
    [("did", .str op.did),
      ("eventType", .str "#commit"),
      ("commit", .obj (present
        [("operation", some (.str (Operation.text op.opType))),
          ("collection", some (.str op.collection)),
          ("rkey", some (.str op.rkey)),
          ("cid", some ((cid.map .str).getD .null)),
          ("record", op.record)]))]

end MastopodFederation.Source.AtEventHandlers
