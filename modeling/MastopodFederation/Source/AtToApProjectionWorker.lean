import MastopodFederation.Source.SocialTranslators

/-!
# The worker that projects AT events to ActivityPub

workers/AtToApProjectionWorker.ts, with the projector registry, the ledger and
`withRetry` around the publish port. The ledger is what it says of each id about
ActivityPub, and its records do not expire. The world also keeps every call of the
publish port with the intent the call was made for. Metrics, identity observations and
the copy for canonical.v1 are left out.
-/
namespace MastopodFederation.Source.AtToApProjectionWorker
open Lib.LuaTable CanonicalIntent AtEnvelope SocialTranslators Retry

structure Command where
  activity : Json
  targetTopic : String
  canonicalIntentId : String
  sourceProtocol : Protocol
  provenance : Provenance
  noteLinkPreviewUrls : List String := []

inductive Projection where
  | success (commands : List Command) (lossiness : Lossiness) (warnings : List Warning)
  | unsupported (reason : String)
  | error (code message : String)

structure Projector where
  supports : Intent → Bool
  project : Intent → Projection

def Kind.text : Kind → String
  | .postCreate => "PostCreate"
  | .postEdit => "PostEdit"
  | .postDelete => "PostDelete"
  | .interactionPolicyUpdate => "PostInteractionPolicyUpdate"
  | .reactionAdd => "ReactionAdd"
  | .reactionRemove => "ReactionRemove"
  | .shareAdd => "ShareAdd"
  | .shareRemove => "ShareRemove"
  | .followAdd => "FollowAdd"
  | .followRemove => "FollowRemove"
  | .profileUpdate => "ProfileUpdate"

/-- The projector that supports the intent first. -/
def projectWith (projectors : List Projector) (intent : Intent) : Projection :=
  match projectors.find? fun projector => projector.supports intent with
  | some projector => projector.project intent
  | none =>
    .unsupported s!"No canonical projector registered for intent kind {Kind.text intent.body.kind}"

structure PolicyResult where
  allowed : Bool
  warnings : List Warning

def mergePolicyWarnings (intent : Intent) (warnings : List Warning) : Intent :=
  { intent with warnings := intent.warnings ++ warnings }

def isUnboundActorProjectionError (code : String) : Bool :=
  "ACTOR_URI_MISSING".toList.isSuffixOf code.toList

/-- A mirror of an ActivityPub object. -/
def isLoopback (intent : Intent) : Bool :=
  intent.provenance.projectionMode = .mirrored && intent.provenance.originProtocol = .activitypub

structure World where
  projectedToActivityPub : String → Bool
  published : List (Intent × List Command)

def World.initial : World := ⟨fun _ => false, []⟩

def World.markProjected (w : World) (id : String) : World :=
  { w with projectedToActivityPub := fun other => other = id || w.projectedToActivityPub other }

/-- So many calls of the publish port. -/
def World.publish (w : World) (calls : Nat) (intent : Intent) (commands : List Command) : World :=
  { w with published := w.published ++ List.replicate calls (intent, commands) }

/-- `withRetry` from an attempt on, with so many attempts left after it: the number of the last
attempt and how it ended. -/
def retryFrom (answer : Nat → Except Thrown Unit) : Nat → Nat → Nat × Except Thrown Unit
  | 0, attempt => (attempt, answer attempt)
  | left + 1, attempt =>
    match answer attempt with
    | .ok () => (attempt, .ok ())
    | .error e =>
      if isTransient e then retryFrom answer left (attempt + 1) else (attempt, .error e)

structure Worker where
  digests : Digests
  context : Context
  projectors : List Projector
  policy : Intent → PolicyResult
  maxAttempts : Nat

section
variable (worker : Worker)

/-- The rest of `process` for an intent that is neither a mirror nor in the ledger; `answer` is
what the publish port answers to each attempt. -/
def projectIntent (answer : Nat → Except Thrown Unit) (intent : Intent) (w : World) :
    World × Except Thrown (Option Intent) :=
  let verdict := worker.policy intent
  if !verdict.allowed then (w, .ok intent)
  else
    let effectiveIntent := mergePolicyWarnings intent verdict.warnings
    match projectWith worker.projectors effectiveIntent with
    | .unsupported _ => (w, .ok effectiveIntent)
    | .error code message =>
      if isUnboundActorProjectionError code then (w, .ok effectiveIntent)
      else (w, .error (.object { name := some "Error", message := some s!"{code}: {message}" }))
    | .success commands _ _ =>
      match retryFrom answer (worker.maxAttempts - 1) 1 with
      | (calls, .ok ()) =>
        ((w.publish calls intent commands).markProjected intent.canonicalIntentId,
          .ok effectiveIntent)
      | (calls, .error e) => (w.publish calls intent commands, .error e)

def processIntent (answer : Nat → Except Thrown Unit) (intent : Intent) (w : World) :
    World × Except Thrown (Option Intent) :=
  if isLoopback intent then (w, .ok intent)
  else if w.projectedToActivityPub intent.canonicalIntentId then (w, .ok intent)
  else projectIntent worker answer intent w

def process (answer : Nat → Except Thrown Unit) (event : Json) (w : World) :
    World × Except Thrown (Option Intent) :=
  match translate worker.digests worker.context event with
  | none => (w, .ok none)
  | some intent => processIntent worker answer intent w

end

end MastopodFederation.Source.AtToApProjectionWorker
