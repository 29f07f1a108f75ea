import Mathlib
import MastopodFederation.Source.DeliveryPlanContract

/-!
# Topics of the streaming service

fep3ab2/topics.ts, Fep3ab2TopicRouter.ts and the choice of connections in `publish` of
Fep3ab2EventHub.ts. URL parsing, percent-decoding, lower case and the order of `sort()` are
parameters. A payload comes from JSON, so no object is met twice; its entries stand in the
order of `Object.entries`.
-/
namespace MastopodFederation.Source.Fep3ab2Topics
open Lib.LuaTable
open DeliveryPlanContract (isUnsafeChar)

structure Url where
  protocol : String
  host : String
  pathname : String
  hash : String
  deriving DecidableEq

structure Environment where
  parseUrl : String → Option Url
  /-- nothing where it throws -/
  decodeURIComponent : String → Option String
  toLowerCase : String → String
  codeUnitLe : String → String → Bool

def notificationsTopic : String := "notifications"
def personalFeedTopic : String := "feeds/personal"
def localFeedTopic : String := "feeds/local"
def globalFeedTopic : String := "feeds/global"

def phase1StaticTopics : List String :=
  ["feeds/public/local", "feeds/public/remote", "feeds/public/unified", "feeds/public/canonical",
    notificationsTopic, personalFeedTopic, localFeedTopic, globalFeedTopic]

def replayableStaticTopics : List String :=
  ["feeds/public/local", "feeds/public/remote", "feeds/public/unified", "feeds/public/canonical",
    localFeedTopic, globalFeedTopic]

def maxTopicLength : Nat := 4096
def maxSegments : Nat := 64

def uriFieldKeys : List String :=
  ["activity", "actor", "attributedto", "context", "conversation", "id", "inreplyto", "object",
    "payload", "subject", "target", "url"]

abbrev Segment := List Char

/-- `\s`, which is also what `trim` removes. -/
def isSpace (c : Char) : Bool :=
  (0x09 ≤ c.toNat && c.toNat ≤ 0x0d) || c = ' ' || (isUnsafeChar c && 0x80 ≤ c.toNat)

def trim (text : List Char) : List Char :=
  ((text.dropWhile isSpace).reverse.dropWhile isSpace).reverse

/-- `length`, in UTF-16 units -/
def utf16Length (text : List Char) : Nat :=
  (text.map fun c => if c.toNat < 0x10000 then 1 else 2).sum

def splitTopicSegments (topic : String) : Option (List Segment) :=
  let trimmed := trim topic.toList
  if trimmed.isEmpty || utf16Length trimmed > maxTopicLength then none
  else
    let segments := trimmed.splitOn '/'
    if segments.length > maxSegments || segments.any (·.isEmpty) then none else some segments

/-- The two segment checks of the source come to the same. -/
def isValidSegment (segment : Segment) : Bool :=
  !segment.isEmpty && utf16Length segment ≤ 255 && !segment.contains '+' && !segment.contains '#' &&
    !segment.any isUnsafeChar

def isWildcard (segment : Segment) : Bool := segment = ['+'] || segment = ['#']

def isPhase1StaticTopic (topic : String) : Bool := phase1StaticTopics.contains topic

def isValidPublishedTopic (topic : String) : Bool :=
  isPhase1StaticTopic topic ||
    match splitTopicSegments topic with
    | some segments => segments.all isValidSegment
    | none => false

def hasWildcardSegments (topic : String) : Bool :=
  match splitTopicSegments topic with
  | some segments => segments.any isWildcard
  | none => false

def isUriDerivedTopic (topic : String) : Bool :=
  if topic = "" || isPhase1StaticTopic topic || hasWildcardSegments topic then false
  else
    match splitTopicSegments topic with
    | some segments => segments.all isValidSegment
    | none => false

def isReplayableTopic (topic : String) : Bool :=
  replayableStaticTopics.contains topic || isUriDerivedTopic topic

def isBoundedWildcardSubscription (topic : String) : Bool :=
  match splitTopicSegments topic with
  | some (first :: rest) =>
    !isWildcard first && !((first :: rest).dropLast).contains ['#'] &&
      0 < (first :: rest).countP isWildcard && (first :: rest).countP isWildcard ≤ 4
  | _ => false

def isValidSubscriptionTopic (topic : String) : Bool :=
  isValidPublishedTopic topic || isBoundedWildcardSubscription topic

def segmentsMatch : List Segment → List Segment → Bool
  | subscription :: subscriptions, published :: rest =>
    if subscription = ['#'] then true
    else if subscription = ['+'] then segmentsMatch subscriptions rest
    else if subscription ≠ published then false
    else segmentsMatch subscriptions rest
  | [], [] => true
  | subscriptions, _ => subscriptions = [['#']]

def topicMatches (subscription published : String) : Bool :=
  if !isValidSubscriptionTopic subscription || !isValidPublishedTopic published then false
  else if subscription = published then true
  else
    match splitTopicSegments subscription, splitTopicSegments published with
    | some subscriptionSegments, some publishedSegments =>
      segmentsMatch subscriptionSegments publishedSegments
    | _, _ => false

section Payload
variable (env : Environment)

def escapeWildcardCharacters (value : String) : String :=
  String.ofList (value.toList.flatMap fun
    | '+' => ['%', '2', 'B']
    | '#' => ['%', '2', '3']
    | c => [c])

def safeDecodeURIComponent (value : String) : String := (env.decodeURIComponent value).getD value

/-- The host, the decoded segments of the path and the decoded fragment. -/
def topicOf (parsed : Url) : String :=
  let decode (text : String) := escapeWildcardCharacters (safeDecodeURIComponent env text)
  let pathSegments := ((parsed.pathname.toList.splitOn '/').map String.ofList).filter (· ≠ "")
  let fragment :=
    if parsed.hash = "" then [] else [decode (String.ofList (parsed.hash.toList.drop 1))]
  "/".intercalate
    (parsed.host :: (pathSegments.map decode).filter (· ≠ "") ++ fragment.filter (· ≠ ""))

def uriToTopic (uri : String) : Option String :=
  match env.parseUrl uri with
  | none => none
  | some parsed =>
    if parsed.protocol ≠ "http:" && parsed.protocol ≠ "https:" then none
    else if parsed.host = "" then none
    else
      let topic := topicOf env parsed
      if isValidPublishedTopic topic then some topic else none

/-- What follows the last `#`, `/` or `:`, in lower case. -/
def normalizeFieldKey (rawKey : String) : String :=
  let isEnd (c : Char) : Bool := c = '#' || c = '/' || c = ':'
  String.ofList ((env.toLowerCase rawKey).toList.reverse.takeWhile (!isEnd ·)).reverse

/-- `!keyHint || URI_FIELD_KEYS.has(keyHint)` -/
def mayHoldUri : Option String → Bool
  | none => true
  | some keyHint => keyHint = "" || uriFieldKeys.contains keyHint

def addTopic (topics : List String) : Option String → List String
  | none => topics
  | some topic => if topic ∈ topics then topics else topics ++ [topic]

/-- The `id` of an object, where it is a text. -/
def objectId (entries : List (String × Json)) : Option String :=
  match entries.lookup "id" with
  | some (.str id) => some id
  | _ => none

mutual
def visit (topics : List String) (depth : Nat) (keyHint : Option String) : Json → List String
  | .str text =>
    if depth > 5 || topics.length ≥ 32 then topics
    else if mayHoldUri keyHint then addTopic topics (uriToTopic env text)
    else topics
  | .arr items =>
    if depth > 5 || topics.length ≥ 32 then topics
    else visitItems topics (depth + 1) keyHint 16 items
  | .obj entries =>
    if depth > 5 || topics.length ≥ 32 then topics
    else
      visitEntries (addTopic topics ((objectId entries).bind (uriToTopic env))) depth 40 entries
  | _ => topics

/-- The first items of an array. -/
def visitItems (topics : List String) (depth : Nat) (keyHint : Option String) :
    Nat → List Json → List String
  | 0, _ | _, [] => topics
  | count + 1, item :: rest =>
    visitItems (visit topics depth keyHint item) depth keyHint count rest

/-- The first entries of an object. -/
def visitEntries (topics : List String) (depth : Nat) : Nat → List (String × Json) → List String
  | 0, _ | _, [] => topics
  | count + 1, (rawKey, child) :: rest =>
    let key := normalizeFieldKey env rawKey
    let visited :=
      if uriFieldKeys.contains key || depth < 2 then visit topics (depth + 1) (some key) child
      else topics
    visitEntries visited depth count rest
end

def collectUriDerivedTopicsFromPayload (payload : Json) : List String :=
  (visit env [] 0 none payload).mergeSort env.codeUnitLe

end Payload

inductive DurableStreamName where
  | stream1 | stream2 | canonical | firehose | unified
  deriving DecidableEq, Repr

def DurableStreamName.text : DurableStreamName → String
  | .stream1 => "stream1"
  | .stream2 => "stream2"
  | .canonical => "canonical"
  | .firehose => "firehose"
  | .unified => "unified"

structure StreamEnvelope where
  stream : DurableStreamName
  eventId : String
  occurredAt : String
  schema : String
  payload : Json

structure FepDispatchEvent where
  topic : String
  event : String
  data : List (String × Json)
  id : Option String
  principal : Option String

def publicFeedTopicByStream : DurableStreamName → Option String
  | .stream1 => some "feeds/public/local"
  | .stream2 => some "feeds/public/remote"
  | .canonical => some "feeds/public/canonical"
  | .unified => some "feeds/public/unified"
  | .firehose => none

section Router
variable (env : Environment)

def payloadEvent (envelope : StreamEnvelope) (topic : String) : FepDispatchEvent where
  topic := topic
  event :=
    if "canonical.".toList.isPrefixOf envelope.schema.toList then "canonical" else "activitypub"
  id := some envelope.eventId
  principal := none
  data := [("topic", .str topic), ("stream", .str envelope.stream.text),
    ("schema", .str envelope.schema), ("occurredAt", .str envelope.occurredAt),
    ("payload", envelope.payload)]

def refreshEvent (envelope : StreamEnvelope) (topic : String) : FepDispatchEvent where
  topic := topic
  event := "feed"
  id := some envelope.eventId
  principal := none
  data := [("topic", .str topic), ("reason", .str "refresh_required"),
    ("sourceStream", .str envelope.stream.text), ("occurredAt", .str envelope.occurredAt)]

/-- The events it publishes, in order. -/
def handleStreamEnvelope (envelope : StreamEnvelope) : List FepDispatchEvent :=
  (publicFeedTopicByStream envelope.stream).toList.map (payloadEvent envelope) ++
    (collectUriDerivedTopicsFromPayload env envelope.payload).map (payloadEvent envelope) ++
    (if envelope.stream = .stream1 then [refreshEvent envelope localFeedTopic] else []) ++
    (if envelope.stream = .unified then [refreshEvent envelope globalFeedTopic] else [])

end Router

/-- Whether `publish` delivers the event to a connection of this principal and these topics. -/
def isRecipient (principal : String) (topics : List String) (event : FepDispatchEvent) : Bool :=
  ((event.principal.filter (· ≠ "")).all (· = principal)) &&
    topics.any fun subscription => topicMatches subscription event.topic

end MastopodFederation.Source.Fep3ab2Topics
