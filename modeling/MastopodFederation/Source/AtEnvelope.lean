import Mathlib
import MastopodFederation.Lib.Schema
import MastopodFederation.Source.CanonicalIntent
import MastopodFederation.Source.ProtocolBridgeRuntime

/-!
# What the AT translators share

The translation context of ports/ProtocolBridgePorts.ts, the schemas and helpers that
the files of atproto/translators repeat, and the emoji schemas of
at-adapter/lexicon/ActivityPodsEmojiLexicon.ts. The resolvers answer every question
they are asked; one that throws ends the processing of the event before anything is
published. The clock of a context stands still. Markdown, facets, emoji fields, reaction
texts, fetched pages and the check for URLs are functions of the context.
-/
namespace MastopodFederation.Source.AtEnvelope
open Lib.LuaTable Lib.Schema CanonicalIntent ProtocolBridgeRuntime

structure EmojiIcon where
  uri : String
  mediaType : Option String

structure EmojiDefinition where
  shortcode : String
  emojiId : Option String
  icon : Option EmojiIcon
  updatedAt : Option String
  alternateName : Option String
  domain : Option String

structure Context where
  now : String
  resolveActorRef : ActorRef → ActorRef
  resolveObjectRef : ObjectRef → ObjectRef
  resolveBlobUrl : String → String → Option String
  isUrl : String → Bool
  looksLikeMarkdown : String → Bool
  renderMarkdownToHtml : String → String
  htmlToCanonicalBlocks : String → List Block
  atFacetsToCanonicalFacets : String → List Json → List Facet
  parseCustomEmojiField : Option (List EmojiDefinition) → List CustomEmoji
  normalizeReactionContent : String → Option String
  /-- `fetchOpenGraph`, as the link preview made of it -/
  fetchLinkPreview : String → Option Json

/-- `length` of a JavaScript string -/
def unitLength (text : String) : Nat :=
  (text.toList.map fun c => if c.toNat < 0x10000 then 1 else 2).sum

def hasPrefix (start text : String) : Bool := start.toList.isPrefixOf text.toList

/-- The three parts of `at://repo/collection/rkey`. -/
def atUriParts (uri : String) : Option (String × String × String) :=
  match uri.splitOn "/" with
  | ["at:", "", repo, collection, rkey] =>
    if repo ≠ "" && collection ≠ "" && rkey ≠ "" then some (repo, collection, rkey) else none
  | _ => none

def deriveUri (repoDid collection : String) (rkey : Option String) : String :=
  let rkey := rkey.getD "unknown"
  s!"at://{repoDid}/{collection}/{rkey}"

def bskyUrl (repo rkey : String) : String := s!"https://bsky.app/profile/{repo}/post/{rkey}"

inductive Operation where
  | create | update | delete
  deriving DecidableEq

def writeOperation : SchemaOf Operation := enumeration [("create", .create), ("update", .update)]

def operation : SchemaOf Operation :=
  enumeration [("create", .create), ("update", .update), ("delete", .delete)]

structure Bridge where
  originProtocol : Protocol
  originEventId : String
  originAccountId : Option String
  mirroredFromCanonicalIntentId : Option String
  projectionMode : Option ProjectionMode
  deriving DecidableEq

def bridgedProtocol : SchemaOf Protocol :=
  enumeration [("activitypub", .activitypub), ("atproto", .atproto)]

def projectionMode : SchemaOf ProjectionMode :=
  enumeration [("native", .native), ("mirrored", .mirrored)]

/-- `originAccountId` may be absent but not null. -/
def bridgeObject : SchemaOf Bridge := object fun field => do
  let originProtocol ← bridgedProtocol (field "originProtocol")
  let originEventId ← nonempty (field "originEventId")
  let originAccountId ← optional string (field "originAccountId")
  let mirroredFromCanonicalIntentId ← nullish string (field "mirroredFromCanonicalIntentId")
  let projectionMode ← optional projectionMode (field "projectionMode")
  return { originProtocol, originEventId, originAccountId, mirroredFromCanonicalIntentId,
           projectionMode }

def bridgeSchema : SchemaOf (Option Bridge) := optional bridgeObject

def toProvenance (bridge : Option Bridge) (fallbackEventId : String)
    (originAccountId : Option String) : Provenance where
  originProtocol := (bridge.map (·.originProtocol)).getD .atproto
  originEventId := (bridge.map (·.originEventId)).getD fallbackEventId
  originAccountId := (bridge.bind (·.originAccountId)).or originAccountId
  mirroredFromCanonicalIntentId := bridge.bind (·.mirroredFromCanonicalIntentId)
  projectionMode := (bridge.bind (·.projectionMode)).getD .native

def atMost (bound : Nat) : SchemaOf String := refine string fun text => unitLength text ≤ bound

section
variable (ctx : Context)

def url : SchemaOf String := refine string ctx.isUrl

def emojiIconSchema : SchemaOf EmojiIcon := object fun field => do
  let uri ← url ctx (field "uri")
  let mediaType ← nullish string (field "mediaType")
  return { uri, mediaType }

def emojiDefinitionSchema : SchemaOf EmojiDefinition := object fun field => do
  let shortcode ← refine (atMost 66) (fun text => 3 ≤ unitLength text) (field "shortcode")
  let emojiId ← nullish (url ctx) (field "emojiId")
  let icon ← nullish (emojiIconSchema ctx) (field "icon")
  let updatedAt ← nullish string (field "updatedAt")
  let alternateName ← nullish (atMost 300) (field "alternateName")
  let domain ← nullish (atMost 255) (field "domain")
  return { shortcode, emojiId, icon, updatedAt, alternateName, domain }

def customEmojiFieldSchema : SchemaOf (List EmojiDefinition) :=
  refine (array (emojiDefinitionSchema ctx)) fun emojis => emojis.length ≤ 128

end

/-- `z.number().int().nonnegative()` -/
def sequenceNumber : SchemaOf Unit
  | some (.num value) => if value.den = 1 && 0 ≤ value.num then some () else none
  | _ => none

/-- What an envelope of the firehose gives beside the record; `extra` is what only some
collections read. -/
structure Commit (R E : Type) where
  did : String
  bridge : Option Bridge
  operation : Operation
  rkey : String
  cid : Option String
  record : Option R
  extra : E

/-- An `ingressEnvelopeSchema`; `sourced` are those that also check where the event came from. -/
def commitEnvelope {R E : Type} (sourced : Bool) (operations : SchemaOf Operation)
    (collection : String) (record : SchemaOf R) (extra : Fields → Option E) :
    SchemaOf (Commit R E) := object fun field => do
  let _ ← optional sequenceNumber (field "seq")
  let _ ← literal "#commit" (field "eventType")
  let did ← startsWith "did:" (field "did")
  let _ ← optional string (if sourced then field "source" else none)
  let _ ← optional string (if sourced then field "verifiedAt" else none)
  let bridge ← bridgeSchema (field "bridge")
  object (fun inner => do
    let operation ← operations (inner "operation")
    let _ ← literal collection (inner "collection")
    let rkey ← string (inner "rkey")
    let cid ← nullish string (inner "cid")
    let record ← nullish record (inner "record")
    let extra ← extra inner
    return { did, bridge, operation, rkey, cid, record, extra }) (field "commit")

/-- `replace(/\r\n/g, "\n")` -/
def withoutCarriageReturns : List Char → List Char
  | '\r' :: '\n' :: rest => '\n' :: withoutCarriageReturns rest
  | c :: rest => c :: withoutCarriageReturns rest
  | [] => []

/-- The parts around runs of two or more line feeds; the part read so far is held in reverse,
with the number of line feeds after it. -/
def splitParagraphs (part : List Char) (lineFeeds : Nat) : List Char → List (List Char)
  | [] => [part.reverse]
  | '\n' :: rest => splitParagraphs part (lineFeeds + 1) rest
  | c :: rest =>
    if 2 ≤ lineFeeds then part.reverse :: splitParagraphs [c] 0 rest
    else splitParagraphs (c :: (List.replicate lineFeeds '\n' ++ part)) 0 rest

def createParagraphBlocks (text : String) : List Block :=
  let normalized := trim (String.ofList (withoutCarriageReturns text.toList))
  if normalized = "" then []
  else
    let parts := (splitParagraphs [] 0 normalized.toList).map fun part =>
      trim (String.ofList part)
    (parts.filter (· ≠ "")).map .paragraph

end MastopodFederation.Source.AtEnvelope
