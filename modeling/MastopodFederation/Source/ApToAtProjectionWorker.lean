import MastopodFederation.Source.AtToApProjectionWorker

/-!
# The worker that projects ActivityPub activities to AT

workers/ApToAtProjectionWorker.ts, with the metadata that the projectors of both
directions give their commands and with `asBridgeMetadata` of
DefaultCanonicalClientWriteService.ts, through which the metadata of a command becomes
that of the commit. The translators, policy and projectors are parameters over any type of intents
and commands. The world is the ledger and every call of the write port; the copy for
canonical.v1 is left out.
-/
namespace MastopodFederation.Source.ApToAtProjectionWorker
open Lib.LuaTable CanonicalIntent ProtocolBridgeRuntime BskyTranslators Retry
open AtToApProjectionWorker (PolicyResult retryFrom)

/-- What the workers and the metadata of commands read of an intent. -/
structure Envelope where
  canonicalIntentId : String
  sourceProtocol : Protocol
  provenance : Provenance

def Protocol.text : Protocol → String
  | .activitypub => "activitypub"
  | .atproto => "atproto"
  | .activitypods => "activitypods"

def ProjectionMode.text : ProjectionMode → String
  | .native => "native"
  | .mirrored => "mirrored"

def textOrNull (value : Option String) : Json := (value.map Json.str).getD .null

/-- The provenance is that of the intent, its mode included. -/
def provenanceJson (p : Provenance) : Json := .obj
  [("originProtocol", .str (Protocol.text p.originProtocol)),
    ("originEventId", .str p.originEventId),
    ("originAccountId", textOrNull p.originAccountId),
    ("mirroredFromCanonicalIntentId", textOrNull p.mirroredFromCanonicalIntentId),
    ("projectionMode", .str (ProjectionMode.text p.projectionMode))]

def commandMetadata (e : Envelope) : Entries :=
  [("canonicalIntentId", .str e.canonicalIntentId),
    ("sourceProtocol", .str (Protocol.text e.sourceProtocol)),
    ("provenance", provenanceJson e.provenance)]

def isBridged (value : Option Json) : Bool := isText "activitypub" value || isText "atproto" value

def isMode (value : Option Json) : Bool := isText "native" value || isText "mirrored" value

/-- The text of a string, or null. -/
def stringOrNull : Option Json → Json
  | some (.str text) => .str text
  | _ => .null

def asBridgeMetadata (value : Option Json) : Option Json := do
  let candidate ← plainObject value
  let provenance ← plainObject (candidate.lookup "provenance")
  if isString (candidate.lookup "canonicalIntentId") &&
      isBridged (candidate.lookup "sourceProtocol") &&
      isBridged (provenance.lookup "originProtocol") &&
      isString (provenance.lookup "originEventId") &&
      isMode (provenance.lookup "projectionMode") then
    return .obj
      [("canonicalIntentId", stringOrNull (candidate.lookup "canonicalIntentId")),
        ("sourceProtocol", stringOrNull (candidate.lookup "sourceProtocol")),
        ("provenance", .obj
          [("originProtocol", stringOrNull (provenance.lookup "originProtocol")),
            ("originEventId", stringOrNull (provenance.lookup "originEventId")),
            ("originAccountId", stringOrNull (provenance.lookup "originAccountId")),
            ("mirroredFromCanonicalIntentId",
              stringOrNull (provenance.lookup "mirroredFromCanonicalIntentId")),
            ("projectionMode", stringOrNull (provenance.lookup "projectionMode"))])]
  else none

inductive Projection (C : Type) where
  | success (commands : List C)
  | unsupported
  | error (code message : String)

structure Worker (I C : Type) where
  translate : Json → Option I
  envelope : I → Envelope
  policy : I → PolicyResult
  mergePolicyWarnings : I → List Warning → I
  project : I → Projection C
  maxAttempts : Nat

structure World (I C : Type) where
  projectedToAtproto : String → Bool
  applied : List (I × List C)

section
variable {I C : Type}

def World.initial : World I C := ⟨fun _ => false, []⟩

def World.markProjected (w : World I C) (id : String) : World I C :=
  { w with projectedToAtproto := fun other => other = id || w.projectedToAtproto other }

/-- So many calls of the write port. -/
def World.apply (w : World I C) (calls : Nat) (intent : I) (commands : List C) : World I C :=
  { w with applied := w.applied ++ List.replicate calls (intent, commands) }

/-- A mirror of an AT record. -/
def isLoopback (p : Provenance) : Bool :=
  p.projectionMode = .mirrored && p.originProtocol = .atproto

variable (worker : Worker I C)

/-- The rest of `process` for an intent that is neither a mirror nor in the ledger; `answer` is
what the write port answers to each attempt. -/
def projectIntent (answer : Nat → Except Thrown Unit) (intent : I) (w : World I C) :
    World I C × Except Thrown (Option I) :=
  let verdict := worker.policy intent
  if !verdict.allowed then (w, .ok intent)
  else
    let effectiveIntent := worker.mergePolicyWarnings intent verdict.warnings
    match worker.project effectiveIntent with
    | .unsupported => (w, .ok effectiveIntent)
    | .error code message =>
      (w, .error (.object { name := some "Error", message := some s!"{code}: {message}" }))
    | .success commands =>
      match retryFrom answer (worker.maxAttempts - 1) 1 with
      | (calls, .ok ()) =>
        ((w.apply calls intent commands).markProjected (worker.envelope intent).canonicalIntentId,
          .ok effectiveIntent)
      | (calls, .error e) => (w.apply calls intent commands, .error e)

def process (answer : Nat → Except Thrown Unit) (event : Json) (w : World I C) :
    World I C × Except Thrown (Option I) :=
  match worker.translate event with
  | none => (w, .ok none)
  | some intent =>
    if isLoopback (worker.envelope intent).provenance then (w, .ok intent)
    else if w.projectedToAtproto (worker.envelope intent).canonicalIntentId then (w, .ok intent)
    else projectIntent worker answer intent w

/-- `handleApSourceEvent` with this worker. -/
def handleSource (rt : Runtime) (answer : Nat → Except Thrown Unit) (clock : Readings)
    (event : Json) (memory : Memory) (w : World I C) : Memory × World I C :=
  let (handled, memory) := handleApSourceEvent rt memory ⟨event, clock, .ok ()⟩
  match handled.called with
  | none => (memory, w)
  | some activity => (memory, (process worker answer (.obj activity) w).1)

end

end MastopodFederation.Source.ApToAtProjectionWorker
