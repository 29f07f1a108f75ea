import MastopodFederation.Source.AtToApProjectionWorker

/-!
# The projector of profiles

projectors/activitypub/ProfileUpdateToApProjector.ts with what it uses of
PostCreateToApProjector.ts, post-shared.ts, text/CanonicalBlocksToHtml.ts and
profile/BridgeProfileMedia.ts. The href of a link tag, which is a normalized URL, is a
parameter.
-/
namespace MastopodFederation.Source.ProfileUpdateToApProjector
open Lib.LuaTable CanonicalIntent AtEnvelope ProtocolBridgeRuntime AtToApProjectionWorker

def escapeChar : Char → List Char
  | '&' => "&amp;".toList
  | '<' => "&lt;".toList
  | '>' => "&gt;".toList
  | '\x22' => "&quot;".toList
  | '\x27' => "&#39;".toList
  | c => [c]

def escapeHtml (value : String) : String := String.ofList (value.toList.flatMap escapeChar)

/-- `replace(/\n/g, "<br>")` -/
def withBreaks (html : String) : String :=
  String.ofList (html.toList.flatMap fun c => if c = '\n' then "<br>".toList else [c])

def blockHtml : Block → String
  | .paragraph text => s!"<p>{withBreaks (escapeHtml text)}</p>"
  | .heading level text => s!"<h{level}>{escapeHtml text}</h{level}>"
  | .blockquote text => s!"<blockquote>{withBreaks (escapeHtml text)}</blockquote>"
  | .list ordered items =>
    let tag := if ordered then "ol" else "ul"
    let listed := String.join (items.map fun item => s!"<li>{escapeHtml item}</li>")
    s!"<{tag}>{listed}</{tag}>"
  | .code language text =>
    let className := match language.filter (· ≠ "") with
      | some language => " class=\"language-" ++ escapeHtml language ++ "\""
      | none => ""
    s!"<pre><code{className}>{escapeHtml text}</code></pre>"
  | .media _ => ""
  | .embed url => "<p><a href=\"" ++ escapeHtml url ++ "\">" ++ escapeHtml url ++ "</a></p>"

def canonicalBlocksToHtml (blocks : List Block) : String := String.join (blocks.map blockHtml)

def publicAudience : String := "https://www.w3.org/ns/activitystreams#Public"

def texts (values : List String) : Json := .arr (values.map .str)

/-- An entry for a text that is there and not empty. -/
def textEntry (key : String) (value : Option String) : Entries :=
  match value.filter (· ≠ "") with
  | some text => [(key, .str text)]
  | none => []

structure Addressing where
  primary : List String
  copies : List String

def uniqueTexts (values : List String) : List String := (values.filter (· ≠ "")).eraseDups

/-- `buildAudience` without context owners. -/
def buildAudience (actorId : String) (visibility : Audience) (mentionRecipients : List String) :
    Addressing :=
  let followers := s!"{actorId}/followers"
  match visibility with
  | .everyone => ⟨[publicAudience], uniqueTexts (followers :: mentionRecipients)⟩
  | .unlisted => ⟨[followers], uniqueTexts (publicAudience :: mentionRecipients)⟩
  | .followers => ⟨[followers], uniqueTexts mentionRecipients⟩
  | .direct | .unknown => ⟨uniqueTexts mentionRecipients, []⟩

def idTerm (id : String) : Json := .obj [("@id", .str id), ("@type", .str "@id")]

def attachmentContext : Json := .obj
  [("digestMultibase", .str "https://w3id.org/security#digestMultibase"),
    ("focalPoint",
      .obj [("@id", .str "https://joinmastodon.org/ns#focalPoint"), ("@container", .str "@list")]),
    ("blurhash", .str "http://joinmastodon.org/ns#blurhash")]

def contextHistoryContext : Json := .obj
  [("contextHistory", idTerm "https://w3id.org/fep/f228#contextHistory")]

def quoteContext : Json := .obj
  [("quote", idTerm "https://w3id.org/fep/044f#quote"),
    ("quoteAuthorization", idTerm "https://w3id.org/fep/044f#quoteAuthorization"),
    ("QuoteAuthorization", .str "https://w3id.org/fep/044f#QuoteAuthorization"),
    ("QuoteRequest", .str "https://w3id.org/fep/044f#QuoteRequest"),
    ("quoteUri", .str "http://fedibird.com/ns#quoteUri"),
    ("_misskey_quote", .str "https://misskey-hub.net/ns/#_misskey_quote"),
    ("gts", .str "https://gotosocial.org/ns#"),
    ("interactionPolicy", idTerm "https://gotosocial.org/ns#interactionPolicy"),
    ("canReply", idTerm "https://gotosocial.org/ns#canReply"),
    ("canQuote", idTerm "https://gotosocial.org/ns#canQuote"),
    ("automaticApproval", idTerm "https://gotosocial.org/ns#automaticApproval"),
    ("manualApproval", idTerm "https://gotosocial.org/ns#manualApproval"),
    ("interactingObject", idTerm "https://gotosocial.org/ns#interactingObject"),
    ("interactionTarget", idTerm "https://gotosocial.org/ns#interactionTarget")]

def customEmojiContext : Json := .obj
  [("toot", .str "http://joinmastodon.org/ns#"), ("Emoji", .str "toot:Emoji")]

def buildApActivityContext (includeCustomEmojis : Bool) : Json := .arr
  ([.str "https://www.w3.org/ns/activitystreams", attachmentContext, contextHistoryContext,
    quoteContext] ++ if includeCustomEmojis then [customEmojiContext] else [])

def linkMediaType : String :=
  "application/ld+json; profile=\"https://www.w3.org/ns/activitystreams\""

def emojiTag (emoji : CustomEmoji) (iconUrl : String) : Json := .obj
  ([("type", .str "Emoji"), ("name", .str emoji.shortcode)] ++
    textEntry "id" emoji.emojiId ++ textEntry "updated" emoji.updatedAt ++
    textEntry "alternateName" emoji.alternateName ++
    [("icon", .obj ([("type", .str "Image"), ("url", .str iconUrl)] ++
      textEntry "mediaType" emoji.mediaType))])

/-- Only an emoji with an icon is tagged. -/
def emojiTags (emojis : List CustomEmoji) : List Json :=
  emojis.filterMap fun emoji =>
    (emoji.iconUrl.filter fun iconUrl => trim iconUrl ≠ "").map (emojiTag emoji)

/-- `canonicalFacetsToApTags` without the origin of an actor. -/
def canonicalFacetsToApTags (linkHref : String → Option String) (facets : List Facet)
    (customEmojis : List CustomEmoji) : List Json :=
  let structural := facets.filterMap fun
    | .mention label target _ _ => (target.activityPubActorUri.filter (· ≠ "")).map fun href =>
        .obj [("type", .str "Mention"), ("href", .str href), ("name", .str label)]
    | .tag tag _ _ => some (.obj
        [("type", .str "Hashtag"), ("name", .str (if hasPrefix "#" tag then tag else "#" ++ tag))])
    | .link url _ _ => (linkHref url).map fun href => .obj
        [("type", .str "Link"), ("mediaType", .str linkMediaType), ("href", .str href)]
  structural ++ emojiTags customEmojis

def pickProfileAttachment (attachments : List Attachment) (role : AttachmentRole) :
    Option Attachment :=
  attachments.find? fun attachment => attachment.role = some role

def sizeEntry (key : String) (size : Option Int) : Entries :=
  match size.filter (· ≠ 0) with
  | some size => [(key, .num size)]
  | none => []

def maxLossiness (warnings : List Warning) : Lossiness :=
  if warnings.any (·.lossiness = .major) then .major
  else if warnings.any (·.lossiness = .minor) then .minor
  else .none

def unresolvedAvatar : Warning :=
  ⟨"AT_PROFILE_AVATAR_URL_UNRESOLVED",
    "ATProto avatar blob could not be mapped to a fetchable ActivityPub icon URL.", .minor⟩

def unresolvedBanner : Warning :=
  ⟨"AT_PROFILE_BANNER_URL_UNRESOLVED",
    "ATProto banner blob could not be mapped to a fetchable ActivityPub image URL.", .minor⟩

section
variable (ctx : Context) (linkHref : String → Option String)

def toActivityPubImage (did : Option String) (attachment : Attachment) : Option Json :=
  let url := attachment.url.or do
    ctx.resolveBlobUrl (← did.filter (· ≠ "")) (← attachment.cid.filter (· ≠ ""))
  (url.filter (· ≠ "")).map fun url => .obj
    ([("type", .str "Image"), ("url", .str url)] ++
      textEntry "mediaType" attachment.mediaType ++ textEntry "name" attachment.alt ++
      sizeEntry "width" attachment.width ++ sizeEntry "height" attachment.height)

/-- The entry of a picture, with the warning where it has no URL. -/
def profileImage (content : Content) (did : Option String) (role : AttachmentRole) (key : String)
    (unresolved : Warning) : Entries × List Warning :=
  match pickProfileAttachment content.attachments role with
  | none => ([], [])
  | some attachment =>
    match toActivityPubImage ctx did attachment with
    | some image => ([(key, image)], [])
    | none => ([], [unresolved])

def summaryHtml (content : Content) : Option String :=
  if !content.blocks.isEmpty then some (canonicalBlocksToHtml content.blocks)
  else if content.plaintext ≠ "" then
    some s!"<p>{withBreaks (escapeHtml content.plaintext)}</p>"
  else none

def tagEntry (content : Content) : Entries :=
  match canonicalFacetsToApTags linkHref content.facets content.customEmojis with
  | [] => []
  | tags => [("tag", .arr tags)]

/-- `Person` as it is now. -/
def profileObject (intent : Intent) (content : Content) (actorId : String)
    (audience : Addressing) (images : Entries) : Json := .obj
  ([("id", .str actorId), ("type", .str "Person"), ("updated", .str intent.createdAt),
      ("to", texts audience.primary), ("cc", texts audience.copies)] ++
    textEntry "name" content.title ++ textEntry "summary" (summaryHtml content) ++
    textEntry "url" content.externalUrl ++ tagEntry linkHref content ++ images)

def withoutTrailingSlashes (text : String) : String :=
  String.ofList (text.toList.reverse.dropWhile (· = '/')).reverse

def profileActivity (intent : Intent) (content : Content) (actorId : String) (images : Entries) :
    Json :=
  let audience := buildAudience actorId .everyone []
  let digits := String.ofList (intent.canonicalIntentId.toList.take 12)
  .obj
    [("@context", buildApActivityContext (!content.customEmojis.isEmpty)),
      ("id", .str s!"{withoutTrailingSlashes actorId}/#profile-update-{digits}"),
      ("type", .str "Update"),
      ("actor", .str actorId),
      ("object", profileObject linkHref intent content actorId audience images),
      ("published", .str intent.createdAt),
      ("to", texts audience.primary),
      ("cc", texts audience.copies)]

/-- `ap.atproto-ingress.v1` for what comes from AT. -/
def apTargetTopic (intent : Intent) : String :=
  if intent.provenance.originProtocol = .atproto then "ap.atproto-ingress.v1"
  else "ap.outbound.v1"

def projectProfile (intent : Intent) (content : Content) : Projection :=
  let actor := ctx.resolveActorRef intent.sourceAccountRef
  match actor.activityPubActorUri.filter (· ≠ "") with
  | none => .error "AP_ACTOR_URI_MISSING"
      s!"Cannot project {canonicalActorIdentityKey actor} to ActivityPub without an actor URI."
  | some actorId =>
    let avatar := profileImage ctx content actor.did .avatar "icon" unresolvedAvatar
    let banner := profileImage ctx content actor.did .banner "image" unresolvedBanner
    let warnings := intent.warnings ++ avatar.2 ++ banner.2
    .success
      [{ activity := profileActivity linkHref intent content actorId (avatar.1 ++ banner.1)
         targetTopic := apTargetTopic intent
         canonicalIntentId := intent.canonicalIntentId
         sourceProtocol := intent.sourceProtocol
         provenance := intent.provenance }]
      (maxLossiness warnings) warnings

def profileUpdateToApProjector : Projector where
  supports intent := intent.body.kind = .profileUpdate
  project intent :=
    match intent.body with
    | .profileUpdate content => projectProfile ctx linkHref intent content
    | _ => .unsupported "not a profile update"

end

end MastopodFederation.Source.ProfileUpdateToApProjector
