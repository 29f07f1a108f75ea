import MastopodFederation.Source.ProtocolBridgeRuntime
import MastopodFederation.Source.SigningService

/-!
# Documents of activities

mapActivityToDocument of streams/opensearch-indexer.ts with normalizePublicSearchConsent of
utils/searchConsent.ts. A value is a JSON value, or missing. Lower case and the printing of a date are
parameters; the time of indexing is left out.
-/
namespace MastopodFederation.Source.ActivityDocuments
open Lib.LuaTable (Json)
open DelayedQueue (orElse)
open ProtocolBridgeRuntime (trim)
open SigningService (property truthy)

/-- A JSON value, or `undefined`. -/
abbrev Value := Option Json

structure Environment where
  toLowerCase : String → String
  /-- `new Date(value).toISOString()`, which throws where the value is no date -/
  toISOString : Value → Option String

/-- The value, if it is a text. -/
def text : Value → Option String
  | some (.str text) => some text
  | _ => none

/-- `value || other` -/
def orFalsy (value other : Value) : Value := if truthy value then value else other

/-- The items of an array; any other value that counts is the only item. -/
def listed (value : Value) : List Json :=
  match value with
  | some (.arr items) => items
  | some item => if truthy (some item) then [item] else []
  | none => []

def asPublic : String := "https://www.w3.org/ns/activitystreams#Public"

inductive PublicSearchConsentSource where
  | objectSearchableBy
  | actorSearchableBy
  | actorIndexable
  | none
  deriving DecidableEq

structure PublicSearchConsentSignal where
  raw : List String
  isPublic : Bool
  explicitlySet : Bool
  source : PublicSearchConsentSource
  objectSearchableBy : List String
  actorSearchableBy : List String
  actorIndexable : Option Bool
  actorIndexableExplicit : Bool

def normalizeIri (value : Value) : Option String :=
  match text value with
  | none => none
  | some text =>
    let trimmed := trim text
    if trimmed = "" then none
    else if trimmed ∈ [asPublic, "as:Public", "Public"] then some asPublic
    else some trimmed

def extractUriFromNode (value : Value) : Option String :=
  (normalizeIri value).or
    (normalizeIri (orElse (property value "id") (orElse (property value "@id") (property value "href"))))

def resolveSearchableBy (rawValue : Value) : List String :=
  let entries := match rawValue with
    | none | some .null => []
    | some (.arr items) => items
    | some item => [item]
  (entries.filterMap fun entry => extractUriFromNode (some entry)).eraseDups

/-- `getIndexableValue` of an actor with this value under `indexable`. -/
def getIndexableValue : Value → Option Bool
  | some (.bool value) => some value
  | some (.str "true") => some true
  | some (.str "false") => some false
  | _ => none

/-- The value, if it is a Boolean. -/
def flag : Value → Option Bool
  | some (.bool value) => some value
  | _ => none

def includesPublic (searchableBy : List String) : Bool := searchableBy.contains asPublic

def normalizePublicSearchConsent (value : Value) : Option PublicSearchConsentSignal :=
  match value with
  | some (.obj record) =>
    let objectSearchableBy := resolveSearchableBy (record.lookup "objectSearchableBy")
    let actorSearchableBy := resolveSearchableBy (record.lookup "actorSearchableBy")
    let raw := resolveSearchableBy (record.lookup "raw")
    let actorIndexable := getIndexableValue (record.lookup "actorIndexable")
    let actorIndexableExplicit :=
      (flag (record.lookup "actorIndexableExplicit")).getD actorIndexable.isSome
    let source : PublicSearchConsentSource := match record.lookup "source" with
      | some (.str "object_searchableBy") => .objectSearchableBy
      | some (.str "actor_searchableBy") => .actorSearchableBy
      | some (.str "actor_indexable") => .actorIndexable
      | some (.str "none") => .none
      | _ =>
        if objectSearchableBy.length > 0 then .objectSearchableBy
        else if actorSearchableBy.length > 0 then .actorSearchableBy
        else if actorIndexableExplicit then .actorIndexable
        else .none
    let derivedRaw := match source with
      | .objectSearchableBy => objectSearchableBy
      | .actorSearchableBy => actorSearchableBy
      | _ => raw
    let derivedIsPublic := match source with
      | .objectSearchableBy => includesPublic objectSearchableBy
      | .actorSearchableBy => includesPublic actorSearchableBy
      | .actorIndexable => actorIndexable = some true
      | .none => false
    some {
      raw := derivedRaw
      isPublic := (flag (record.lookup "isPublic")).getD derivedIsPublic
      explicitlySet := (flag (record.lookup "explicitlySet")).getD (source ≠ .none)
      source, objectSearchableBy, actorSearchableBy, actorIndexable, actorIndexableExplicit }
  | _ => none

structure ActivityDocument where
  activity_id : Json
  activity_type : Value
  actor_uri : Value
  object_id : Value
  object_type : Value
  object_name : Option String
  object_url : Option String
  object_published_at : Option String
  object_updated_at : Option String
  is_long_form : Bool
  has_preview : Bool
  published_at : Value
  received_at : String
  origin : Value
  is_searchable : Bool
  search_consent_explicit : Bool
  /-- `to` -/
  addressed : Option (List Json)
  cc : Option (List Json)
  in_reply_to : Value
  content : Value
  summary : Value
  preview_content : Value
  attachment_urls : Option (List String)
  tag_names : Option (List String)
  hashtags : Value
  activity : Value

/-- Whether `typeof value === 'object'` for a value that counts. -/
def isObject : Value → Bool
  | some (.arr _) | some (.obj _) => true
  | _ => false

def isArticle : Value → Bool
  | some (.str type) => type = "Article"
  | some (.arr types) => types.any fun
    | .str type => type = "Article"
    | _ => false
  | _ => false

/-- A text, or the text under `href`. -/
def urlOf (value : Value) : Option String := (text value).or (text (property value "href"))

def objectUrl (urlValue : Value) : Option String :=
  match urlValue with
  | some (.arr urls) => urls.findSome? fun url => urlOf (some url)
  | value => urlOf value

/-- The texts among the items, with this member of an item that is none. -/
def textsOf (member : Value → Value) (items : List Json) : List String :=
  items.filterMap fun
    | .str text => some text
    | item => text (member (some item))

def normalizeAddressing (field : Value) : Option (List Json) :=
  if truthy field then some (listed field) else none

/-- A tag without the `#` that it starts with. -/
def withoutHash (tag : String) : String :=
  match tag.toList with
  | '#' :: rest => String.ofList rest
  | _ => tag

/-- `value.length > 0` -/
def hasLength : Value → Bool
  | some (.arr items) => items.length > 0
  | some (.str text) => text.length > 0
  | some (.obj entries) => match entries.lookup "length" with
    | some (.num length) => length > 0
    | _ => false
  | _ => false

section
variable (env : Environment)

/-- `none` where no document is made, an error where a date is none. -/
def mapActivityToDocument (event : Json) : Except String (Option ActivityDocument) :=
  let activity := property (some event) "activity"
  match property activity "id" with
  | none => .ok none
  | some id =>
    if !truthy (some id) then .ok none
    else
      let object := property activity "object"
      let embedded := if isObject object then object else none
      let urlValue := property embedded "url"
      let preview := property embedded "preview"
      let tagNames := embedded.map fun _ =>
        ((textsOf (property · "name") (listed (property embedded "tag"))).map trim).filter (· ≠ "")
      let info := property (some event) "meta"
      let consent := normalizePublicSearchConsent (property info "searchConsent")
      let hashtags := property info "hashtags"
      match env.toISOString
          (orFalsy (property (some event) "receivedAt") (property (some event) "streamTimestamp")) with
      | none => .error "Invalid time value"
      | some receivedAt => .ok (some {
          activity_id := id
          activity_type := property activity "type"
          actor_uri := orFalsy (property (some event) "actorUri") (property activity "actor")
          object_id := if (text object).isSome then (if truthy object then object else none)
            else property embedded "id"
          object_type := property embedded "type"
          object_name := text (property embedded "name")
          object_url := objectUrl urlValue
          object_published_at := text (property embedded "published")
          object_updated_at := text (property embedded "updated")
          is_long_form := isArticle (property embedded "type")
          has_preview := truthy preview
          published_at := property activity "published"
          received_at := receivedAt
          origin := orFalsy (property (some event) "origin") (some (.str "unknown"))
          is_searchable := (consent.map (·.isPublic)).getD true
          search_consent_explicit := (consent.map (·.explicitlySet)).getD false
          addressed := normalizeAddressing (property activity "to")
          cc := normalizeAddressing (property activity "cc")
          in_reply_to :=
            let inReplyTo := property embedded "inReplyTo"
            if (text inReplyTo).isSome then (if truthy inReplyTo then inReplyTo else none)
            else property inReplyTo "id"
          content := property embedded "content"
          summary := property embedded "summary"
          preview_content := property preview "content"
          attachment_urls := embedded.map fun _ =>
            textsOf (fun item => orFalsy (property item "href") (property item "id"))
              (listed (property embedded "attachment"))
          tag_names := tagNames
          hashtags :=
            if truthy hashtags && hasLength hashtags then hashtags
            else tagNames.map fun tags =>
              .arr (((tags.map fun tag => env.toLowerCase (withoutHash tag)).filter (· ≠ "")).map .str)
          activity := activity })

end
end MastopodFederation.Source.ActivityDocuments
