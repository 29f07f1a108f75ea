import MastopodFederation.Lib.LuaTable

/-!
# Canonical intents and their ids

protocol-bridge/canonical and idempotency/CanonicalIntentIdBuilder.ts, for the kinds of
intent the AT translators build. A field that is null and one that is absent are the
same here. A digest is a function of the fields it is taken of: `stableStringify` and
SHA-256 together are one parameter for each of the two digests. The interaction policy
and the context owner of a post are set from ActivityPub only and left out, as are the
id's branches for polls, reports, account states and direct messages.
-/
namespace MastopodFederation.Source.CanonicalIntent
open Lib.LuaTable

structure ActorRef where
  canonicalAccountId : Option String := none
  did : Option String := none
  webId : Option String := none
  activityPubActorUri : Option String := none
  handle : Option String := none
  deriving DecidableEq

def canonicalActorIdentityKey (ref : ActorRef) : String :=
  ((((ref.canonicalAccountId.or ref.did).or ref.activityPubActorUri).or ref.webId).or
    ref.handle).getD "unknown-actor"

structure ObjectRef where
  canonicalObjectId : String
  atUri : Option String := none
  cid : Option String := none
  activityPubObjectId : Option String := none
  canonicalUrl : Option String := none
  deriving DecidableEq

def canonicalObjectIdentityKey (ref : ObjectRef) : String :=
  ((ref.atUri.or ref.activityPubObjectId).or ref.canonicalUrl).getD ref.canonicalObjectId

inductive ContentKind where
  | note | article | profile
  deriving DecidableEq

inductive Block where
  | paragraph (text : String)
  | heading (level : Nat) (text : String)
  | blockquote (text : String)
  | list (ordered : Bool) (items : List String)
  | code (language : Option String) (text : String)
  | media (attachmentId : String)
  | embed (url : String)
  deriving DecidableEq

inductive Facet where
  | mention (label : String) (target : ActorRef) (start stop : Nat)
  | tag (tag : String) (start stop : Nat)
  | link (url : String) (start stop : Nat)
  deriving DecidableEq

structure CustomEmoji where
  shortcode : String
  emojiId : Option String := none
  iconUrl : Option String := none
  mediaType : Option String := none
  updatedAt : Option String := none
  alternateName : Option String := none
  domain : Option String := none
  deriving DecidableEq

inductive AttachmentRole where
  | avatar | banner
  deriving DecidableEq

structure Attachment where
  attachmentId : String
  mediaType : String
  url : Option String := none
  cid : Option String := none
  byteSize : Option Int := none
  role : Option AttachmentRole := none
  alt : Option String := none
  width : Option Int := none
  height : Option Int := none
  deriving DecidableEq

/-- The link preview is the fetched page data as it is. -/
structure Content where
  kind : ContentKind
  title : Option String
  summary : Option String
  plaintext : String
  html : Option String
  language : Option String
  blocks : List Block
  facets : List Facet
  customEmojis : List CustomEmoji
  attachments : List Attachment
  externalUrl : Option String
  linkPreview : Option Json

inductive Protocol where
  | activitypub | atproto | activitypods
  deriving DecidableEq

inductive ProjectionMode where
  | native | mirrored
  deriving DecidableEq

structure Provenance where
  originProtocol : Protocol
  originEventId : String
  originAccountId : Option String
  mirroredFromCanonicalIntentId : Option String
  projectionMode : ProjectionMode
  deriving DecidableEq

inductive Lossiness where
  | none | minor | major
  deriving DecidableEq

structure Warning where
  code : String
  message : String
  lossiness : Lossiness
  deriving DecidableEq

inductive Audience where
  | everyone | unlisted | followers | direct | unknown
  deriving DecidableEq

inductive ReplyPolicy where
  | everyone | followers | mentioned | nobody
  deriving DecidableEq

inductive QuotePolicy where
  | everyone | nobody
  deriving DecidableEq

structure Post where
  object : ObjectRef
  content : Content
  inReplyTo : Option ObjectRef
  replyRoot : Option ObjectRef
  quoteOf : Option ObjectRef

inductive Reaction where
  | like
  | emoji (content : Option String) (definition : Option CustomEmoji)
  deriving DecidableEq

inductive Body where
  | postCreate (post : Post)
  | postEdit (post : Post)
  | postDelete (object : ObjectRef)
  | interactionPolicyUpdate (object : ObjectRef) (canReply : Option ReplyPolicy)
      (canQuote : Option QuotePolicy)
  | reactionAdd (object : ObjectRef) (reaction : Reaction)
  | reactionRemove (object : ObjectRef) (reaction : Reaction)
  | shareAdd (object : ObjectRef)
  | shareRemove (object : ObjectRef)
  | followAdd (subject : ActorRef)
  | followRemove (subject : ActorRef)
  | profileUpdate (content : Content)

inductive Kind where
  | postCreate | postEdit | postDelete | interactionPolicyUpdate | reactionAdd | reactionRemove
  | shareAdd | shareRemove | followAdd | followRemove | profileUpdate
  deriving DecidableEq

def Body.kind : Body → Kind
  | .postCreate _ => .postCreate
  | .postEdit _ => .postEdit
  | .postDelete _ => .postDelete
  | .interactionPolicyUpdate .. => .interactionPolicyUpdate
  | .reactionAdd .. => .reactionAdd
  | .reactionRemove .. => .reactionRemove
  | .shareAdd _ => .shareAdd
  | .shareRemove _ => .shareRemove
  | .followAdd _ => .followAdd
  | .followRemove _ => .followRemove
  | .profileUpdate _ => .profileUpdate

/-- An intent before it has an id. -/
structure Draft where
  sourceProtocol : Protocol
  sourceEventId : String
  sourceAccountRef : ActorRef
  createdAt : String
  observedAt : String
  visibility : Audience
  provenance : Provenance
  warnings : List Warning
  body : Body

structure Intent extends Draft where
  canonicalIntentId : String

/-- The fields a content digest is taken of; `key` is used as it is. -/
inductive ContentFields where
  | key (text : String)
  | post (kind : ContentKind) (title summary : Option String) (plaintext : String)
      (language : Option String) (facets : List Facet) (customEmojis : List CustomEmoji)
      (attachments : List Attachment) (externalUrl quoteOf : Option String)
  | profile (plaintext : String) (title summary : Option String)
      (customEmojis : List CustomEmoji)
  | reaction (isLike : Bool) (identity : String)
  | interactionPolicy (canReply : Option ReplyPolicy) (canQuote : Option QuotePolicy)
  deriving DecidableEq

structure IdPayload where
  sourceProtocol : Protocol
  sourceEventId : String
  actor : String
  kind : Kind
  target : String
  contentDigest : String
  deriving DecidableEq

structure Digests where
  content : ContentFields → String
  payload : IdPayload → String
  toLowerCase : String → String

def normalizedTarget (draft : Draft) : String :=
  match draft.body with
  | .postCreate post | .postEdit post => canonicalObjectIdentityKey post.object
  | .postDelete object | .interactionPolicyUpdate object .. | .reactionAdd object _
  | .reactionRemove object _ | .shareAdd object | .shareRemove object =>
    canonicalObjectIdentityKey object
  | .followAdd subject | .followRemove subject => canonicalActorIdentityKey subject
  | .profileUpdate _ => canonicalActorIdentityKey draft.sourceAccountRef

section
variable (digests : Digests)

def canonicalReactionIdentityKey : Reaction → String
  | .like => "like"
  | .emoji content definition =>
    let customEmoji := match definition with
      | some emoji => "|".intercalate [digests.toLowerCase emoji.shortcode, emoji.domain.getD "",
          emoji.emojiId.getD "", emoji.iconUrl.getD ""]
      | none => ""
    ":".intercalate ["emoji", content.getD "", customEmoji]

def postFields (post : Post) : ContentFields :=
  .post post.content.kind post.content.title post.content.summary post.content.plaintext
    post.content.language post.content.facets post.content.customEmojis post.content.attachments
    post.content.externalUrl (post.quoteOf.map canonicalObjectIdentityKey)

def reactionFields (reaction : Reaction) : ContentFields :=
  .reaction (reaction = .like) (canonicalReactionIdentityKey digests reaction)

def contentFields (draft : Draft) : ContentFields :=
  match draft.body with
  | .postCreate post | .postEdit post => postFields post
  | .reactionAdd _ reaction | .reactionRemove _ reaction => reactionFields digests reaction
  | .profileUpdate content =>
    .profile content.plaintext content.title content.summary content.customEmojis
  | .interactionPolicyUpdate _ canReply canQuote => .interactionPolicy canReply canQuote
  | .postDelete object | .shareAdd object | .shareRemove object =>
    .key (canonicalObjectIdentityKey object)
  | .followAdd subject | .followRemove subject => .key (canonicalActorIdentityKey subject)

def normalizedContentDigest (draft : Draft) : String :=
  match contentFields digests draft with
  | .key text => text
  | fields => digests.content fields

def buildCanonicalIntentId (draft : Draft) : String :=
  digests.payload
    { sourceProtocol := draft.sourceProtocol
      sourceEventId := draft.sourceEventId
      actor := canonicalActorIdentityKey draft.sourceAccountRef
      kind := draft.body.kind
      target := normalizedTarget draft
      contentDigest := normalizedContentDigest digests draft }

def Draft.finish (draft : Draft) : Intent :=
  { draft with canonicalIntentId := buildCanonicalIntentId digests draft }

end

end MastopodFederation.Source.CanonicalIntent
