import MastopodFederation.Source.AtEnvelope

/-!
# The translators of posts, gates, profiles and documents

atproto/translators: BskyPostTranslator, BskyPostDeleteTranslator,
BskyThreadgateTranslator, BskyPostgateTranslator, BskyProfileTranslator,
StandardSiteDocumentTranslator and StandardSiteDocumentDeleteTranslator. A text that is
cut inside a surrogate pair loses the whole pair.
-/
namespace MastopodFederation.Source.BskyTranslators
open Lib.LuaTable Lib.Schema CanonicalIntent ProtocolBridgeRuntime AtEnvelope

/-- `supports` and `translate` of one translator. -/
structure Translator where
  supports : Json → Bool
  translate : Json → Option Intent

def plainObject : Option Json → Option Entries
  | some (.obj entries) => some entries
  | _ => none

/-- A trimmed string, where there is one. -/
def trimmedText : Option Json → Option String
  | some (.str text) => some (trim text)
  | _ => none

structure StrongRef where
  uri : String
  cid : Option String

def parseRecordStrongRef (value : Option Json) : Option StrongRef := do
  let ref ← plainObject value
  let uri := (trimmedText (ref.lookup "uri")).getD ""
  if !hasPrefix "at://" uri then none
  else return ⟨uri, (trimmedText (ref.lookup "cid")).filter (· ≠ "")⟩

def extractQuotedRecordStrongRef (embed : Option Json) : Option StrongRef := do
  let entries ← plainObject embed
  if isText "app.bsky.embed.record" (entries.lookup "$type") ||
      isText "app.bsky.embed.recordWithMedia" (entries.lookup "$type") then
    parseRecordStrongRef (entries.lookup "record")
  else none

structure MediaEmbed where
  blob : Option Entries
  defaultMediaType : String
  alt : Option Json
  aspectRatio : Option Entries

def imageEmbed (entry : Entries) : MediaEmbed :=
  ⟨plainObject (entry.lookup "image"), "image/*", entry.lookup "alt",
    plainObject (entry.lookup "aspectRatio")⟩

def objectArray : Option Json → List Entries
  | some (.arr values) => values.filterMap fun value => plainObject (some value)
  | _ => []

mutual
def collectMediaEmbeds : Json → List MediaEmbed
  | .obj entries =>
    if isText "app.bsky.embed.images" (entries.lookup "$type") then
      (objectArray (entries.lookup "images")).map imageEmbed
    else if isText "app.bsky.embed.video" (entries.lookup "$type") then
      [⟨plainObject (entries.lookup "video"), "video/*", entries.lookup "alt",
        plainObject (entries.lookup "aspectRatio")⟩]
    else if isText "app.bsky.embed.recordWithMedia" (entries.lookup "$type") then
      mediaOfEntries entries
    else []
  | _ => []

/-- The embeds of the `media` of an embed with a record. -/
def mediaOfEntries : Entries → List MediaEmbed
  | [] => []
  | (key, value) :: rest => if key = "media" then collectMediaEmbeds value else mediaOfEntries rest
end

def extractCid (blob : Option Entries) : Option String := do
  let ref ← plainObject ((← blob).lookup "ref")
  (trimmedText (ref.lookup "$link")).filter (· ≠ "")

def toPositiveInteger : Option Json → Option Int
  | some (.num value) => if 0 < value then some value.floor else none
  | _ => none

/-- The characters of a text that fit into so many code units. -/
def takeUnits : Nat → List Char → List Char
  | _, [] => []
  | units, c :: rest =>
    let width := if c.toNat < 0x10000 then 1 else 2
    if width ≤ units then c :: takeUnits (units - width) rest else []

def normalizeAlt (value : Option Json) : Option String :=
  ((trimmedText value).filter (· ≠ "")).map fun normalized =>
    if 1000 < unitLength normalized then String.ofList (takeUnits 999 normalized.toList) ++ "…"
    else normalized

def byteSize (blob : Option Entries) : Option Int :=
  match blob.bind (·.lookup "size") with
  | some (.num size) => some (max 0 size.floor)
  | _ => none

section
variable (digests : Digests) (ctx : Context)

def toAttachment (repoDid objectUri : String) (index : Nat) (entry : MediaEmbed) : Attachment :=
  let cid := extractCid entry.blob
  { attachmentId := s!"{objectUri}#attachment-{index + 1}"
    mediaType := (trimmedText (entry.blob.bind (·.lookup "mimeType"))).getD entry.defaultMediaType
    url := (cid.bind (ctx.resolveBlobUrl repoDid)).filter (· ≠ "")
    cid
    byteSize := byteSize entry.blob
    alt := normalizeAlt entry.alt
    width := toPositiveInteger (entry.aspectRatio.bind (·.lookup "width"))
    height := toPositiveInteger (entry.aspectRatio.bind (·.lookup "height")) }

def parseEmbedAttachments (embed : Option Json) (repoDid objectUri : String) : List Attachment :=
  ((embed.map collectMediaEmbeds).getD []).mapIdx (toAttachment ctx repoDid objectUri)

def replyRef : SchemaOf ObjectRef := object fun field => do
  let uri ← startsWith "at://" (field "uri")
  let cid ← optional string (field "cid")
  return { canonicalObjectId := uri, atUri := some uri, cid }

structure Reply where
  root : Option ObjectRef
  parent : ObjectRef

def replySchema : SchemaOf Reply := object fun field => do
  let root ← optional replyRef (field "root")
  let parent ← replyRef (field "parent")
  return { root, parent }

structure PostRecord where
  text : String
  createdAt : Option String
  langs : List String
  facets : List Json
  reply : Option Reply
  embed : Option Json
  customEmojis : Option (List EmojiDefinition)

def postRecordSchema : SchemaOf PostRecord := object fun field => do
  let _ ← literal "app.bsky.feed.post" (field "$type")
  let text ← atMost 3000 (field "text")
  let createdAt ← optional string (field "createdAt")
  let langs ← optional (array string) (field "langs")
  let facets ← optional (array anything) (field "facets")
  let reply ← optional replySchema (field "reply")
  let customEmojis ← optional (customEmojiFieldSchema ctx) (field "activitypodsCustomEmojis")
  return { text, createdAt, langs := langs.getD [], facets := facets.getD [], reply,
           embed := field "embed", customEmojis }

/-- A direct envelope of a record that can be created and updated. -/
structure Envelope (R : Type) where
  repoDid : String
  uri : Option String
  cid : Option String
  rkey : Option String
  canonicalRefId : Option String
  operation : Option Operation
  bridge : Option Bridge
  record : R

/-- `directEnvelopeSchema` of the translators of posts and documents. -/
def envelopeSchema {R : Type} (record : SchemaOf R) : SchemaOf (Envelope R) :=
  object fun field => do
    let repoDid ← startsWith "did:" (field "repoDid")
    let uri ← optional (startsWith "at://") (field "uri")
    let cid ← optional string (field "cid")
    let rkey ← optional string (field "rkey")
    let canonicalRefId ← optional string (field "canonicalRefId")
    let operation ← optional writeOperation (field "operation")
    let bridge ← bridgeSchema (field "bridge")
    let record ← record (field "record")
    return { repoDid, uri, cid, rkey, canonicalRefId, operation, bridge, record }

/-- The direct envelope of a commit that carries its record. -/
def directEnvelope {R E : Type} (commit : Commit R E) (collection : String)
    (canonicalRefId : Option String) : Option (Envelope R) :=
  commit.record.map fun record =>
    { repoDid := commit.did
      uri := some s!"at://{commit.did}/{collection}/{commit.rkey}"
      cid := commit.cid
      rkey := some commit.rkey
      canonicalRefId
      operation := some commit.operation
      bridge := commit.bridge
      record }

/-- Only a link to a post of bsky.app is made. -/
def toBskyUrlFromAtUri (uri : String) : Option String :=
  match atUriParts uri with
  | some (repo, collection, rkey) =>
    if collection = "app.bsky.feed.post" then some (bskyUrl repo rkey) else none
  | none => none

def resolveQuoteRef (embed : Option Json) : Option ObjectRef :=
  (extractQuotedRecordStrongRef embed).map fun strongRef => ctx.resolveObjectRef
    { canonicalObjectId := strongRef.uri, atUri := some strongRef.uri, cid := strongRef.cid,
      canonicalUrl := toBskyUrlFromAtUri strongRef.uri }

/-- A root that is the parent is not resolved again. -/
def resolvedReplyRoot (reply : Reply) : Option ObjectRef :=
  reply.root.map fun root =>
    if root.canonicalObjectId = reply.parent.canonicalObjectId then
      ctx.resolveObjectRef reply.parent
    else ctx.resolveObjectRef root

def firstLinkUrl (facets : List Facet) : Option String :=
  facets.findSome? fun
    | .link url _ _ => some url
    | _ => none

/-- Text that renders to nothing is laid out as plain paragraphs. -/
def renderedBlocks (html : Option String) (plaintext : String) : List Block :=
  match html with
  | some html =>
    if html = "" then createParagraphBlocks plaintext else ctx.htmlToCanonicalBlocks html
  | none => createParagraphBlocks plaintext

def postContent (envelope : Envelope PostRecord) (objectUri : String) : Content :=
  let record := envelope.record
  let facets := ctx.atFacetsToCanonicalFacets record.text record.facets
  let html := if ctx.looksLikeMarkdown record.text then some (ctx.renderMarkdownToHtml record.text)
    else none
  { kind := .note
    title := none
    summary := none
    plaintext := record.text
    html
    language := record.langs.head?
    blocks := renderedBlocks ctx html record.text
    facets
    customEmojis := ctx.parseCustomEmojiField record.customEmojis
    attachments := parseEmbedAttachments ctx record.embed envelope.repoDid objectUri
    externalUrl := none
    linkPreview := ((firstLinkUrl facets).filter (· ≠ "")).bind ctx.fetchLinkPreview }

/-- Only an envelope that says so is an edit. -/
def postBody (operation : Option Operation) (post : Post) : Body :=
  if operation = some .update then .postEdit post else .postCreate post

def translatePostEnvelope (envelope : Envelope PostRecord) : Intent :=
  let sourceAccountRef := ctx.resolveActorRef { did := envelope.repoDid }
  let objectUri := envelope.uri.getD
    (deriveUri envelope.repoDid "app.bsky.feed.post" (envelope.rkey.or envelope.cid))
  let object := ctx.resolveObjectRef
    { canonicalObjectId := envelope.canonicalRefId.getD objectUri, atUri := some objectUri,
      cid := envelope.cid,
      canonicalUrl := (envelope.rkey.filter (· ≠ "")).map (bskyUrl envelope.repoDid) }
  let reply := envelope.record.reply
  Draft.finish digests
    { sourceProtocol := .atproto
      sourceEventId := objectUri
      sourceAccountRef
      createdAt := envelope.record.createdAt.getD ctx.now
      observedAt := ctx.now
      visibility := .everyone
      provenance := toProvenance envelope.bridge objectUri sourceAccountRef.canonicalAccountId
      warnings := []
      body := postBody envelope.operation
        { object
          content := postContent ctx envelope objectUri
          inReplyTo := reply.map fun reply => ctx.resolveObjectRef reply.parent
          replyRoot := reply.bind (resolvedReplyRoot ctx)
          quoteOf := resolveQuoteRef ctx envelope.record.embed } }

def canonicalRefIdField (field : Fields) : Option (Option String) :=
  optional string (field "canonicalRefId")

/-- The direct envelope an input is, or stands for. -/
def postEnvelope (input : Json) : Option (Envelope PostRecord) :=
  (envelopeSchema (postRecordSchema ctx) (some input)).or
    ((commitEnvelope true writeOperation "app.bsky.feed.post" (postRecordSchema ctx)
      canonicalRefIdField (some input)).bind fun commit =>
        directEnvelope commit "app.bsky.feed.post" commit.extra)

/-- An input without an envelope is not translated, whether it is supported or not. -/
def bskyPostTranslator : Translator where
  supports input := (envelopeSchema (postRecordSchema ctx) (some input)).isSome ||
    (commitEnvelope true writeOperation "app.bsky.feed.post" (postRecordSchema ctx)
      canonicalRefIdField (some input)).isSome
  translate input := (postEnvelope ctx input).map (translatePostEnvelope digests ctx)

structure DeleteEnvelope where
  repoDid : String
  uri : Option String
  rkey : Option String
  canonicalRefId : Option String
  bridge : Option Bridge

def deleteEnvelopeSchema (collection : String) : SchemaOf DeleteEnvelope := object fun field => do
  let repoDid ← startsWith "did:" (field "repoDid")
  let uri ← optional (startsWith "at://") (field "uri")
  let rkey ← optional string (field "rkey")
  let _ ← optional (literal collection) (field "collection")
  let canonicalRefId ← optional string (field "canonicalRefId")
  let _ ← literal "delete" (field "operation")
  let bridge ← bridgeSchema (field "bridge")
  return { repoDid, uri, rkey, canonicalRefId, bridge }

/-- The two translators differ in the page the object links to. -/
def translateDeleteEnvelope (collection : String) (canonicalUrl : DeleteEnvelope → Option String)
    (envelope : DeleteEnvelope) : Intent :=
  let sourceAccountRef := ctx.resolveActorRef { did := envelope.repoDid }
  let uri := envelope.uri.getD (deriveUri envelope.repoDid collection envelope.rkey)
  let object := ctx.resolveObjectRef
    { canonicalObjectId := envelope.canonicalRefId.getD uri, atUri := some uri,
      canonicalUrl := canonicalUrl envelope }
  Draft.finish digests
    { sourceProtocol := .atproto
      sourceEventId := uri
      sourceAccountRef
      createdAt := ctx.now
      observedAt := ctx.now
      visibility := .everyone
      provenance := toProvenance envelope.bridge uri sourceAccountRef.canonicalAccountId
      warnings := []
      body := .postDelete object }

def matchesPostDeleteEnvelope (envelope : DeleteEnvelope) : Bool :=
  (envelope.uri.filter (· ≠ "")).all fun uri => Retry.includes uri "/app.bsky.feed.post/"

def postDeleteEnvelope (input : Json) : Option DeleteEnvelope :=
  (deleteEnvelopeSchema "app.bsky.feed.post" (some input)).filter matchesPostDeleteEnvelope

def bskyPostDeleteTranslator : Translator where
  supports input := (postDeleteEnvelope input).isSome
  translate input := (postDeleteEnvelope input).map
    (translateDeleteEnvelope digests ctx "app.bsky.feed.post" fun envelope =>
      (envelope.rkey.filter (· ≠ "")).map (bskyUrl envelope.repoDid))

def documentDeleteEnvelope (input : Json) : Option DeleteEnvelope :=
  deleteEnvelopeSchema "site.standard.document" (some input)

def standardSiteDocumentDeleteTranslator : Translator where
  supports input := (documentDeleteEnvelope input).isSome
  translate input := (documentDeleteEnvelope input).map
    (translateDeleteEnvelope digests ctx "site.standard.document" fun _ => none)

end

structure GateRecord where
  rules : List Json
  createdAt : Option String

/-- Threadgates list their rules under `allow`, postgates under `embeddingRules`. -/
def gateRecordSchema (collection rules : String) : SchemaOf GateRecord := object fun field => do
  let _ ← literal collection (field "$type")
  let _ ← startsWith "at://" (field "post")
  let rules ← optional (array anything) (field rules)
  let createdAt ← optional string (field "createdAt")
  return { rules := rules.getD [], createdAt }

structure GateEnvelope where
  repoDid : String
  uri : Option String
  rkey : Option String
  operation : Option Operation
  bridge : Option Bridge
  record : Option GateRecord

def gateEnvelopeSchema (collection rules : String) : SchemaOf GateEnvelope :=
  object fun field => do
    let repoDid ← startsWith "did:" (field "repoDid")
    let uri ← optional (startsWith "at://") (field "uri")
    let rkey ← optional string (field "rkey")
    let _ ← optional string (field "cid")
    let operation ← optional operation (field "operation")
    let bridge ← bridgeSchema (field "bridge")
    let record ← nullish (gateRecordSchema collection rules) (field "record")
    return { repoDid, uri, rkey, operation, bridge, record }

def gateCommit (collection rules : String) (input : Json) : Option GateEnvelope :=
  (commitEnvelope true operation collection (gateRecordSchema collection rules)
    (fun _ => some ()) (some input)).map fun commit =>
      { repoDid := commit.did
        uri := some s!"at://{commit.did}/{collection}/{commit.rkey}"
        rkey := some commit.rkey
        operation := some commit.operation
        bridge := commit.bridge
        record := commit.record }

/-- A value that is neither absent nor null. -/
def defined (value : Option Json) : Option Json :=
  match value with
  | some .null => none
  | value => value

/-- The collection decides first, then the type of the record, then the URI. -/
def isDirectEnvelope (collection : String) : Json → Bool
  | .obj entries =>
    match entries.lookup "repoDid" with
    | some (.str repoDid) =>
      if !hasPrefix "did:" repoDid then false
      else
        match defined (entries.lookup "collection"), defined (entries.lookup "record") with
        | some named, _ => isText collection (some named)
        | none, some (.obj record) => isText collection (record.lookup "$type")
        | none, some _ => false
        | none, none =>
          match entries.lookup "uri" with
          | some (.str uri) => Retry.includes uri s!"/{collection}/"
          | _ => false
    | _ => false
  | _ => false

def isIngressEnvelope (collection : String) : Json → Bool
  | .obj entries =>
    isText "#commit" (entries.lookup "eventType") &&
      (match entries.lookup "did" with
        | some (.str did) => hasPrefix "did:" did
        | _ => false) &&
      match entries.lookup "commit" with
      | some (.obj commit) => isText collection (commit.lookup "collection")
      | _ => false
  | _ => false

def deriveRkey (uri : Option String) : Option String :=
  (uri.bind atUriParts).map (·.2.2)

def hasRule (type : String) (record : GateRecord) : Bool :=
  record.rules.any fun
    | .obj rule => isText type (rule.lookup "$type")
    | _ => false

def parseReplyPolicyFromRecord : Option GateRecord → ReplyPolicy
  | none => .nobody
  | some record =>
    if hasRule "app.bsky.feed.threadgate#followingRule" record then .followers
    else if hasRule "app.bsky.feed.threadgate#mentionRule" record then .mentioned
    else .nobody

def parseQuotePolicyFromRecord : Option GateRecord → QuotePolicy
  | none => .everyone
  | some record =>
    if hasRule "app.bsky.feed.postgate#disableRule" record then .nobody else .everyone

section
variable (digests : Digests) (ctx : Context)

/-- An update for the post that has the rkey of the gate; a deleted gate lets everyone in. -/
def translateGateEnvelope (collection : String)
    (policies : Bool → Option GateRecord → Option ReplyPolicy × Option QuotePolicy)
    (envelope : GateEnvelope) : Option Intent :=
  ((envelope.rkey.or (deriveRkey envelope.uri)).filter (· ≠ "")).map fun rkey =>
    let sourceAccountRef := ctx.resolveActorRef { did := envelope.repoDid }
    let postAtUri := s!"at://{envelope.repoDid}/app.bsky.feed.post/{rkey}"
    let object := ctx.resolveObjectRef { canonicalObjectId := postAtUri, atUri := some postAtUri }
    let sourceEventId := envelope.uri.getD s!"at://{envelope.repoDid}/{collection}/{rkey}"
    let (canReply, canQuote) := policies (envelope.operation = some .delete) envelope.record
    Draft.finish digests
      { sourceProtocol := .atproto
        sourceEventId
        sourceAccountRef
        createdAt := (envelope.record.bind (·.createdAt)).getD ctx.now
        observedAt := ctx.now
        visibility := .everyone
        provenance := toProvenance envelope.bridge sourceEventId
          sourceAccountRef.canonicalAccountId
        warnings := []
        body := .interactionPolicyUpdate object canReply canQuote }

/-- The commit of the firehose is tried first. -/
def gateTranslator (collection rules : String)
    (policies : Bool → Option GateRecord → Option ReplyPolicy × Option QuotePolicy) :
    Translator where
  supports input := isDirectEnvelope collection input || isIngressEnvelope collection input
  translate input :=
    ((gateCommit collection rules input).or
      (gateEnvelopeSchema collection rules (some input))).bind
        (translateGateEnvelope digests ctx collection policies)

def bskyThreadgateTranslator : Translator :=
  gateTranslator digests ctx "app.bsky.feed.threadgate" "allow" fun isDelete record =>
    (some (if isDelete then .everyone else parseReplyPolicyFromRecord record), none)

def bskyPostgateTranslator : Translator :=
  gateTranslator digests ctx "app.bsky.feed.postgate" "embeddingRules" fun isDelete record =>
    (none, some (if isDelete then .everyone else parseQuotePolicyFromRecord record))

structure ProfileRecord where
  displayName : Option String
  description : Option String
  avatar : Option Json
  banner : Option Json
  customEmojis : Option (List EmojiDefinition)

def profileRecordSchema : SchemaOf ProfileRecord := object fun field => do
  let _ ← literal "app.bsky.actor.profile" (field "$type")
  let displayName ← optional string (field "displayName")
  let description ← optional string (field "description")
  let customEmojis ← optional (customEmojiFieldSchema ctx) (field "activitypodsCustomEmojis")
  return { displayName, description, avatar := field "avatar", banner := field "banner",
           customEmojis }

structure ProfileEnvelope where
  repoDid : String
  uri : Option String
  rkey : Option String
  bridge : Option Bridge
  record : ProfileRecord

/-- The operation is checked and then not read. -/
def profileEnvelopeSchema : SchemaOf ProfileEnvelope := object fun field => do
  let repoDid ← startsWith "did:" (field "repoDid")
  let uri ← optional (startsWith "at://") (field "uri")
  let rkey ← optional string (field "rkey")
  let _ ← optional writeOperation (field "operation")
  let bridge ← bridgeSchema (field "bridge")
  let record ← profileRecordSchema ctx (field "record")
  return { repoDid, uri, rkey, bridge, record }

structure BlobRef where
  link : String
  mimeType : Option String

def blobRefSchema : SchemaOf BlobRef := object fun field => do
  let _ ← optional (literal "blob") (field "$type")
  let link ← object (fun ref => nonempty (ref "$link")) (field "ref")
  let mimeType ← optional string (field "mimeType")
  let _ ← optional sequenceNumber (field "size")
  return { link, mimeType }

def AttachmentRole.text : AttachmentRole → String
  | .avatar => "avatar"
  | .banner => "banner"

def invalidMedia (role : AttachmentRole) : Warning :=
  ⟨"AT_PROFILE_MEDIA_INVALID",
    s!"AT profile {AttachmentRole.text role} field did not match the expected blob reference shape.",
    .minor⟩

def unresolvedMedia (role : AttachmentRole) : Warning :=
  ⟨"AT_PROFILE_MEDIA_URL_UNRESOLVED",
    s!"AT profile {AttachmentRole.text role} blob could not be mapped to a fetchable URL for " ++
      "ActivityPub projection.", .minor⟩

/-- The attachment of a role, with the warnings it adds. -/
def translateBlobAttachment (repoDid : String) (blob : Option Json) (role : AttachmentRole) :
    List Attachment × List Warning :=
  if !blob.any DelayedQueue.jsTruthy then ([], [])
  else
    match blobRefSchema blob with
    | none => ([], [invalidMedia role])
    | some parsed =>
      let url := ctx.resolveBlobUrl repoDid parsed.link
      ([{ attachmentId := s!"{repoDid}:{AttachmentRole.text role}:{parsed.link}"
          mediaType := parsed.mimeType.getD "image/*"
          cid := parsed.link
          url
          role := role }],
        if (url.filter (· ≠ "")).isSome then [] else [unresolvedMedia role])

def translateProfileEnvelope (envelope : ProfileEnvelope) : Intent :=
  let record := envelope.record
  let sourceAccountRef := ctx.resolveActorRef { did := envelope.repoDid }
  let avatar := translateBlobAttachment ctx envelope.repoDid record.avatar .avatar
  let banner := translateBlobAttachment ctx envelope.repoDid record.banner .banner
  let rkey := envelope.rkey.getD "self"
  let sourceEventId := envelope.uri.getD s!"at://{envelope.repoDid}/app.bsky.actor.profile/{rkey}"
  Draft.finish digests
    { sourceProtocol := .atproto
      sourceEventId
      sourceAccountRef
      createdAt := ctx.now
      observedAt := ctx.now
      visibility := .everyone
      provenance := toProvenance envelope.bridge sourceEventId sourceAccountRef.canonicalAccountId
      warnings := avatar.2 ++ banner.2
      body := .profileUpdate
        { kind := .profile
          title := record.displayName
          summary := none
          plaintext := record.description.getD ""
          html := none
          language := none
          blocks := createParagraphBlocks (record.description.getD "")
          facets := []
          customEmojis := ctx.parseCustomEmojiField record.customEmojis
          attachments := avatar.1 ++ banner.1
          externalUrl := sourceAccountRef.activityPubActorUri
          linkPreview := none } }

def profileCommit (input : Json) : Option (Commit ProfileRecord Unit) :=
  commitEnvelope false writeOperation "app.bsky.actor.profile" (profileRecordSchema ctx)
    (fun _ => some ()) (some input)

def profileEnvelope (input : Json) : Option ProfileEnvelope :=
  (profileEnvelopeSchema ctx (some input)).or
    ((profileCommit ctx input).bind fun commit => commit.record.map fun record =>
      { repoDid := commit.did
        uri := some s!"at://{commit.did}/app.bsky.actor.profile/{commit.rkey}"
        rkey := some commit.rkey
        bridge := commit.bridge
        record })

def bskyProfileTranslator : Translator where
  supports input :=
    (profileEnvelopeSchema ctx (some input)).isSome || (profileCommit ctx input).isSome
  translate input := (profileEnvelope ctx input).map (translateProfileEnvelope digests ctx)

structure DocumentRecord where
  title : Option String
  summary : Option String
  text : String
  publishedAt : Option String
  url : Option String
  customEmojis : Option (List EmojiDefinition)

def documentRecordSchema : SchemaOf DocumentRecord := object fun field => do
  let _ ← literal "site.standard.document" (field "$type")
  let title ← nullish string (field "title")
  let summary ← nullish string (field "summary")
  let text ← atMost 100000 (field "text")
  let publishedAt ← optional string (field "publishedAt")
  let url ← nullish (url ctx) (field "url")
  let customEmojis ← optional (customEmojiFieldSchema ctx) (field "activitypodsCustomEmojis")
  return { title, summary, text, publishedAt, url, customEmojis }

/-- Text that renders to blanks is laid out as plain paragraphs. -/
def documentContent (record : DocumentRecord) : Content :=
  let html := ctx.renderMarkdownToHtml record.text
  { kind := .article
    title := record.title
    summary := record.summary
    plaintext := record.text
    html := some html |>.filter (· ≠ "")
    language := none
    blocks := if trim html = "" then createParagraphBlocks record.text
      else ctx.htmlToCanonicalBlocks html
    facets := []
    customEmojis := ctx.parseCustomEmojiField record.customEmojis
    attachments := []
    externalUrl := record.url
    linkPreview := (record.url.filter (· ≠ "")).bind ctx.fetchLinkPreview }

def translateDocumentEnvelope (envelope : Envelope DocumentRecord) : Intent :=
  let record := envelope.record
  let sourceAccountRef := ctx.resolveActorRef { did := envelope.repoDid }
  let objectUri := envelope.uri.getD
    (deriveUri envelope.repoDid "site.standard.document" (envelope.rkey.or envelope.cid))
  let object := ctx.resolveObjectRef
    { canonicalObjectId := envelope.canonicalRefId.getD objectUri, atUri := some objectUri,
      cid := envelope.cid, canonicalUrl := record.url }
  Draft.finish digests
    { sourceProtocol := .atproto
      sourceEventId := objectUri
      sourceAccountRef
      createdAt := record.publishedAt.getD ctx.now
      observedAt := ctx.now
      visibility := .everyone
      provenance := toProvenance envelope.bridge objectUri sourceAccountRef.canonicalAccountId
      warnings := []
      body := postBody envelope.operation
        { object, content := documentContent ctx record, inReplyTo := none, replyRoot := none,
          quoteOf := none } }

/-- The metadata that a commit of a document may carry itself: its origin account may be null. -/
def commitBridgeSchema : SchemaOf Bridge := object fun field => do
  let _ ← string (field "canonicalIntentId")
  let _ ← bridgedProtocol (field "sourceProtocol")
  object (fun inner => do
    let originProtocol ← bridgedProtocol (inner "originProtocol")
    let originEventId ← string (inner "originEventId")
    let originAccountId ← nullish string (inner "originAccountId")
    let mirroredFromCanonicalIntentId ← nullish string (inner "mirroredFromCanonicalIntentId")
    let mode ← projectionMode (inner "projectionMode")
    return { originProtocol, originEventId, originAccountId, mirroredFromCanonicalIntentId,
             projectionMode := some mode }) (field "provenance")

structure DocumentExtra where
  canonicalRefId : Option String
  bridge : Option Bridge

def documentExtra (field : Fields) : Option DocumentExtra := do
  let canonicalRefId ← optional string (field "canonicalRefId")
  let bridge ← optional commitBridgeSchema (field "bridge")
  return { canonicalRefId, bridge }

def documentCommit (input : Json) : Option (Commit DocumentRecord DocumentExtra) :=
  commitEnvelope true writeOperation "site.standard.document" (documentRecordSchema ctx)
    documentExtra (some input)

/-- The metadata of the commit comes before that of the envelope. -/
def documentEnvelope (input : Json) : Option (Envelope DocumentRecord) :=
  (envelopeSchema (documentRecordSchema ctx) (some input)).or
    ((documentCommit ctx input).bind fun commit =>
      (directEnvelope commit "site.standard.document" commit.extra.canonicalRefId).map
        fun envelope => { envelope with bridge := commit.extra.bridge.or commit.bridge })

def standardSiteDocumentTranslator : Translator where
  supports input := (envelopeSchema (documentRecordSchema ctx) (some input)).isSome ||
    (documentCommit ctx input).isSome
  translate input := (documentEnvelope ctx input).map (translateDocumentEnvelope digests ctx)

end

end MastopodFederation.Source.BskyTranslators
