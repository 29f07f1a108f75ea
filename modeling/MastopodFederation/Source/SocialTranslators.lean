import MastopodFederation.Source.BskyTranslators

/-!
# The translators of likes, reposts, follows and emoji reactions

atproto/translators/social.ts, and the registry of AtprotoToCanonicalTranslator.ts.
The four translators read one envelope; with a record it is an addition, or a removal
where the operation is a delete, and without one it can only be a removal, whose subject
the envelope itself has to name.
-/
namespace MastopodFederation.Source.SocialTranslators
open Lib.LuaTable Lib.Schema CanonicalIntent AtEnvelope BskyTranslators

structure BaseEnvelope where
  repoDid : String
  uri : Option String
  rkey : Option String
  collection : Option String
  subjectDid : Option String
  subjectUri : Option String
  subjectCid : Option String
  reactionContent : Option String
  reactionEmoji : Option EmojiDefinition
  operation : Option Operation
  bridge : Option Bridge

section
variable (ctx : Context)

def baseEnvelopeSchema : SchemaOf BaseEnvelope := object fun field => do
  let repoDid ← startsWith "did:" (field "repoDid")
  let uri ← optional (startsWith "at://") (field "uri")
  let _ ← optional string (field "cid")
  let rkey ← optional string (field "rkey")
  let collection ← optional string (field "collection")
  let _ ← optional string (field "canonicalRefId")
  let subjectDid ← optional (startsWith "did:") (field "subjectDid")
  let subjectUri ← optional (startsWith "at://") (field "subjectUri")
  let subjectCid ← optional string (field "subjectCid")
  let reactionContent ← optional nonempty (field "reactionContent")
  let reactionEmoji ← nullish (emojiDefinitionSchema ctx) (field "reactionEmoji")
  let operation ← optional operation (field "operation")
  let bridge ← bridgeSchema (field "bridge")
  return { repoDid, uri, rkey, collection, subjectDid, subjectUri, subjectCid, reactionContent,
           reactionEmoji, operation, bridge }

/-- `baseEnvelopeSchema.extend({ record })` -/
def recordEnvelope {R : Type} (record : SchemaOf R) (input : Json) : Option (BaseEnvelope × R) := do
  let envelope ← baseEnvelopeSchema ctx (some input)
  let record ← object (fun field => record (field "record")) (some input)
  return (envelope, record)

def parseDeleteEnvelope (collection : String) (input : Json) : Option BaseEnvelope :=
  (baseEnvelopeSchema ctx (some input)).filter fun envelope =>
    envelope.operation = some .delete && envelope.collection = some collection

structure Subject where
  uri : String
  cid : Option String

def strongRefSchema : SchemaOf Subject := object fun field => do
  let uri ← startsWith "at://" (field "uri")
  let cid ← nonempty (field "cid")
  return ⟨uri, some cid⟩

structure SocialRecord (S : Type) where
  subject : S
  createdAt : Option String

/-- `likeRecordSchema`, `repostRecordSchema` and `followRecordSchema` -/
def socialRecordSchema {S : Type} (collection : String) (subject : SchemaOf S) :
    SchemaOf (SocialRecord S) := object fun field => do
  let _ ← literal collection (field "$type")
  let subject ← subject (field "subject")
  let createdAt ← optional string (field "createdAt")
  return { subject, createdAt }

/-- `CID_RE` -/
def isCid (text : String) : Bool :=
  match text.toList with
  | first :: rest => first.isAlphanum && 10 ≤ rest.length && rest.all fun c =>
      c.isAlphanum || c = '.' || c = '_' || c = ':' || c = '-'
  | [] => false

def recordRefSchema : SchemaOf Subject := object fun field => do
  let uri ← refine string (fun uri => (atUriParts uri).isSome) (field "uri")
  let cid ← nullish (refine string isCid) (field "cid")
  return ⟨uri, cid⟩

structure EmojiReactionRecord where
  subject : Subject
  reaction : String
  emoji : Option EmojiDefinition
  createdAt : Option String

def emojiReactionRecordSchema : SchemaOf EmojiReactionRecord := object fun field => do
  let _ ← literal "org.activitypods.emojiReaction" (field "$type")
  let subject ← recordRefSchema (field "subject")
  let reaction ← nonempty (field "reaction")
  let emoji ← nullish (emojiDefinitionSchema ctx) (field "emoji")
  let createdAt ← optional string (field "createdAt")
  return { subject, reaction, emoji, createdAt }

end

/-- The link is made for a record of any collection. -/
def toBskyUrl (atUri : String) : Option String :=
  (atUriParts atUri).map fun (repo, _, rkey) => bskyUrl repo rkey

def fromEmojiDefinition (emoji : EmojiDefinition) : CustomEmoji where
  shortcode := emoji.shortcode
  emojiId := emoji.emojiId
  iconUrl := emoji.icon.map (·.uri)
  mediaType := emoji.icon.bind (·.mediaType)
  updatedAt := emoji.updatedAt
  alternateName := emoji.alternateName
  domain := emoji.domain

section
variable (digests : Digests) (ctx : Context)

def resolveSubject (subject : Subject) : ObjectRef := ctx.resolveObjectRef
  { canonicalObjectId := subject.uri, atUri := some subject.uri, cid := subject.cid,
    canonicalUrl := toBskyUrl subject.uri }

/-- The draft that every intent of these collections starts from. -/
def socialIntent (collection : String) (visibility : Audience) (envelope : BaseEnvelope)
    (createdAt : Option String) (body : Body) : Intent :=
  let sourceAccountRef := ctx.resolveActorRef { did := envelope.repoDid }
  let sourceEventId := envelope.uri.getD (deriveUri envelope.repoDid collection envelope.rkey)
  Draft.finish digests
    { sourceProtocol := .atproto
      sourceEventId
      sourceAccountRef
      createdAt := createdAt.getD ctx.now
      observedAt := ctx.now
      visibility
      provenance := toProvenance envelope.bridge sourceEventId sourceAccountRef.canonicalAccountId
      warnings := []
      body }

def isDelete (envelope : BaseEnvelope) : Bool := envelope.operation = some .delete

def reactionBody (remove : Bool) (object : ObjectRef) (reaction : Reaction) : Body :=
  if remove then .reactionRemove object reaction else .reactionAdd object reaction

def shareBody (remove : Bool) (object : ObjectRef) : Body :=
  if remove then .shareRemove object else .shareAdd object

def followBody (remove : Bool) (subject : ActorRef) : Body :=
  if remove then .followRemove subject else .followAdd subject

/-- `subjectUri` of a delete, with its CID; an empty URI does not name a subject. -/
def deletedSubject (envelope : BaseEnvelope) : Option Subject :=
  (envelope.subjectUri.filter (· ≠ "")).map fun uri => ⟨uri, envelope.subjectCid⟩

/-- The four translators: an envelope with a record first, then a delete without one. -/
def translateEnvelope {R : Type} (collection : String)
    (read : Json → Option (BaseEnvelope × R)) (build : BaseEnvelope × R → Option Intent)
    (buildDelete : BaseEnvelope → Option Intent) (input : Json) : Option Intent :=
  match read input with
  | some envelope => build envelope
  | none => (parseDeleteEnvelope ctx collection input).bind buildDelete

def socialTranslator {R : Type} (collection : String)
    (read : Json → Option (BaseEnvelope × R)) (build : BaseEnvelope × R → Option Intent)
    (buildDelete : BaseEnvelope → Option Intent) : Translator where
  supports input := (read input).isSome || (parseDeleteEnvelope ctx collection input).isSome
  translate := translateEnvelope ctx collection read build buildDelete

def buildReactionIntent (envelope : BaseEnvelope) (record : SocialRecord Subject) : Intent :=
  socialIntent digests ctx "app.bsky.feed.like" .everyone envelope record.createdAt
    (reactionBody (isDelete envelope) (resolveSubject ctx record.subject) .like)

def buildReactionDeleteIntent (envelope : BaseEnvelope) : Option Intent :=
  (deletedSubject envelope).map fun subject =>
    socialIntent digests ctx "app.bsky.feed.like" .everyone envelope none
      (reactionBody true (resolveSubject ctx subject) .like)

def likeEnvelope (input : Json) : Option (BaseEnvelope × SocialRecord Subject) :=
  recordEnvelope ctx (socialRecordSchema "app.bsky.feed.like" strongRefSchema) input

def translateLikeEnvelope (input : Json) : Option Intent :=
  translateEnvelope ctx "app.bsky.feed.like" (likeEnvelope ctx)
    (fun (envelope, record) => some (buildReactionIntent digests ctx envelope record))
    (buildReactionDeleteIntent digests ctx) input

def bskyLikeTranslator : Translator :=
  socialTranslator ctx "app.bsky.feed.like" (likeEnvelope ctx)
    (fun (envelope, record) => some (buildReactionIntent digests ctx envelope record))
    (buildReactionDeleteIntent digests ctx)

def buildShareIntent (envelope : BaseEnvelope) (record : SocialRecord Subject) : Intent :=
  socialIntent digests ctx "app.bsky.feed.repost" .everyone envelope record.createdAt
    (shareBody (isDelete envelope) (resolveSubject ctx record.subject))

def buildShareDeleteIntent (envelope : BaseEnvelope) : Option Intent :=
  (deletedSubject envelope).map fun subject =>
    socialIntent digests ctx "app.bsky.feed.repost" .everyone envelope none
      (shareBody true (resolveSubject ctx subject))

def repostEnvelope (input : Json) : Option (BaseEnvelope × SocialRecord Subject) :=
  recordEnvelope ctx (socialRecordSchema "app.bsky.feed.repost" strongRefSchema) input

def translateRepostEnvelope (input : Json) : Option Intent :=
  translateEnvelope ctx "app.bsky.feed.repost" (repostEnvelope ctx)
    (fun (envelope, record) => some (buildShareIntent digests ctx envelope record))
    (buildShareDeleteIntent digests ctx) input

def bskyRepostTranslator : Translator :=
  socialTranslator ctx "app.bsky.feed.repost" (repostEnvelope ctx)
    (fun (envelope, record) => some (buildShareIntent digests ctx envelope record))
    (buildShareDeleteIntent digests ctx)

def buildFollowIntent (envelope : BaseEnvelope) (record : SocialRecord String) : Intent :=
  socialIntent digests ctx "app.bsky.graph.follow" .direct envelope record.createdAt
    (followBody (isDelete envelope) (ctx.resolveActorRef { did := record.subject }))

def buildFollowDeleteIntent (envelope : BaseEnvelope) : Option Intent :=
  (envelope.subjectDid.filter (· ≠ "")).map fun did =>
    socialIntent digests ctx "app.bsky.graph.follow" .direct envelope none
      (followBody true (ctx.resolveActorRef { did }))

def followEnvelope (input : Json) : Option (BaseEnvelope × SocialRecord String) :=
  recordEnvelope ctx (socialRecordSchema "app.bsky.graph.follow" (startsWith "did:")) input

def translateFollowEnvelope (input : Json) : Option Intent :=
  translateEnvelope ctx "app.bsky.graph.follow" (followEnvelope ctx)
    (fun (envelope, record) => some (buildFollowIntent digests ctx envelope record))
    (buildFollowDeleteIntent digests ctx) input

def bskyFollowTranslator : Translator :=
  socialTranslator ctx "app.bsky.graph.follow" (followEnvelope ctx)
    (fun (envelope, record) => some (buildFollowIntent digests ctx envelope record))
    (buildFollowDeleteIntent digests ctx)

/-- A reaction that is neither a shortcode nor one emoji is not translated. -/
def buildEmojiReactionIntent (envelope : BaseEnvelope) (record : EmojiReactionRecord) :
    Option Intent :=
  ((ctx.normalizeReactionContent record.reaction).filter (· ≠ "")).map fun reactionContent =>
    socialIntent digests ctx "org.activitypods.emojiReaction" .everyone envelope record.createdAt
      (reactionBody (isDelete envelope) (resolveSubject ctx record.subject)
        (.emoji (some reactionContent) (record.emoji.map fromEmojiDefinition)))

def buildEmojiReactionDeleteIntent (envelope : BaseEnvelope) : Option Intent :=
  (deletedSubject envelope).map fun subject =>
    socialIntent digests ctx "org.activitypods.emojiReaction" .everyone envelope none
      (reactionBody true (resolveSubject ctx subject)
        (.emoji (envelope.reactionContent.bind ctx.normalizeReactionContent)
          (envelope.reactionEmoji.map fromEmojiDefinition)))

def emojiReactionEnvelope (input : Json) : Option (BaseEnvelope × EmojiReactionRecord) :=
  recordEnvelope ctx (emojiReactionRecordSchema ctx) input

def translateEmojiReactionEnvelope (input : Json) : Option Intent :=
  translateEnvelope ctx "org.activitypods.emojiReaction" (emojiReactionEnvelope ctx)
    (fun (envelope, record) => buildEmojiReactionIntent digests ctx envelope record)
    (buildEmojiReactionDeleteIntent digests ctx) input

def activityPodsEmojiReactionTranslator : Translator :=
  socialTranslator ctx "org.activitypods.emojiReaction" (emojiReactionEnvelope ctx)
    (fun (envelope, record) => buildEmojiReactionIntent digests ctx envelope record)
    (buildEmojiReactionDeleteIntent digests ctx)

/-- The first translator that supports the input and translates it. -/
def translateWith (translators : List Translator) (input : Json) : Option Intent :=
  translators.findSome? fun translator =>
    if translator.supports input then translator.translate input else none

def atprotoToCanonicalTranslators : List Translator :=
  [bskyPostTranslator digests ctx, bskyPostDeleteTranslator digests ctx,
    bskyThreadgateTranslator digests ctx, bskyPostgateTranslator digests ctx,
    bskyProfileTranslator digests ctx, activityPodsEmojiReactionTranslator digests ctx,
    bskyLikeTranslator digests ctx, bskyRepostTranslator digests ctx,
    bskyFollowTranslator digests ctx, standardSiteDocumentTranslator digests ctx,
    standardSiteDocumentDeleteTranslator digests ctx]

def translate (input : Json) : Option Intent :=
  translateWith (atprotoToCanonicalTranslators digests ctx) input

end

end MastopodFederation.Source.SocialTranslators
