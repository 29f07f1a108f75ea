import MastopodFederation.Source.Fep3ab2Topics

/-!
# Authorization of stream topics

activitypods-integration/backend/services/streaming-topic-authorization.service.js:
authorizeTopic, normalizeTopics and the action authorizeTopics for an accepted principal. Its
reserved topics, splitTopicSegments, hasWildcardSegments and isValidExactTopicSegment are
those of fep3ab2/topics.ts, whose definitions are used. Topics that are no strings are left out.
-/
namespace MastopodFederation.Source.StreamingTopicAuthorization
open Fep3ab2Topics

structure Denied where
  topic : String
  reasonCode : String
  message : String
  deriving DecidableEq

/-- `none` where the topic is allowed. -/
abbrev Decision := Option Denied

def isHostChar (c : Char) : Bool := c.isAlphanum || c = '.' || c = '-'

/-- `^(localhost|(\d{1,3}\.){3}\d{1,3}|[a-z0-9.-]+)(:\d{1,5})?$`, whose last alternative covers
the others -/
def isHost (segment : Segment) : Bool :=
  let port := segment.dropWhile isHostChar
  segment.takeWhile isHostChar ≠ [] &&
    (port = [] || (port.head? = some ':' && 2 ≤ port.length && port.length ≤ 6 &&
      (port.drop 1).all Char.isDigit))

def looksLikeAuthoritySegment (segment : Segment) : Bool := isValidSegment segment && isHost segment

def isExactUriTopic (topic : String) : Bool :=
  if topic = "" || isPhase1StaticTopic topic || hasWildcardSegments topic then false
  else
    match splitTopicSegments topic with
    | some (authority :: rest) => looksLikeAuthoritySegment authority && rest.all isValidSegment
    | _ => false

def isBoundedWildcardTopic (topic : String) : Bool :=
  if topic = "" || !hasWildcardSegments topic then false
  else
    match splitTopicSegments topic with
    | some (first :: rest) =>
      !isWildcard first && !((first :: rest).dropLast).contains ['#'] &&
        (first :: rest).all (fun segment => isWildcard segment || isValidSegment segment) &&
        0 < (first :: rest).countP isWildcard && (first :: rest).countP isWildcard ≤ 4
    | _ => false

def authorizeTopic (topic : String) : Decision :=
  if isPhase1StaticTopic topic then none
  else if isExactUriTopic topic then none
  else if isBoundedWildcardTopic topic then
    let segments := (splitTopicSegments topic).getD []
    if !segments.head?.any looksLikeAuthoritySegment then
      some ⟨topic, "wildcard_namespace_forbidden",
        "Wildcard subscriptions are limited to URI-derived ActivityPub topics"⟩
    else if segments.findIdx isWildcard < 2 then
      some ⟨topic, "wildcard_scope_too_broad",
        "Wildcard subscriptions must include at least one exact path segment after the authority"⟩
    else none
  else
    some ⟨topic, "unsupported_topic",
      "The requested topic is not part of the supported streaming surface"⟩

/-- The trimmed topics with something in them. -/
def trimmedTopics (value : List String) : List String :=
  (value.map fun item => String.ofList (trim item.toList)).filter (· ≠ "")

/-- The topics are sorted, so it does not matter which of two equal ones is kept. -/
def normalizeTopics (env : Environment) (value : List String) : List String :=
  ((trimmedTopics value).take 32).dedup.mergeSort env.codeUnitLe

structure Response where
  allowedTopics : List String
  deniedTopics : List Denied

/-- `none` where no topic is left, which is an error. -/
def authorizeTopics (env : Environment) (topics : List String) : Option Response :=
  let requestedTopics := normalizeTopics env topics
  if requestedTopics = [] then none
  else some
    { allowedTopics := requestedTopics.filter fun topic => authorizeTopic topic = none
      deniedTopics := requestedTopics.filterMap authorizeTopic }

end MastopodFederation.Source.StreamingTopicAuthorization
