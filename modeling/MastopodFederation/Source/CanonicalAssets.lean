import MastopodFederation.Lib.Assignments
import MastopodFederation.Lib.LuaTable
import Mathlib.Data.Rat.Defs

/-!
# Canonical assets

contracts/CanonicalAsset.ts, utils/playbackVariants.ts and `mergeCanonicalAsset` of
storage/assetStore.ts. A list field that is absent is the empty list, and a missing
`isSensitive` is false: every reader of the fields takes them so. How texts are compared for
sorting is a parameter, and so is `JSON.parse`.
-/
namespace MastopodFederation.Source.CanonicalAssets
open Lib.Assignments
open Lib.LuaTable (Json)

/-- A number field as JSON keeps it: what is not finite is written as `null`. -/
inductive JsNumber where
  | finite (value : Rat)
  | null
  deriving DecidableEq

inductive Duration where
  | text (value : String)
  | seconds (value : Rat)
  deriving DecidableEq

structure VideoPlaybackVariant where
  label : String
  url : String
  mimeType : String
  width : Option Rat
  height : Option Rat
  bitrateKbps : Option Rat
  deriving DecidableEq

abbrev VideoStreamingVariant := VideoPlaybackVariant

inductive Protocol where
  | hls
  | dash
  deriving DecidableEq

def Protocol.name : Protocol → String
  | .hls => "hls"
  | .dash => "dash"

structure VideoStreamingManifest where
  protocol : Protocol
  url : String
  mimeType : String
  defaultVariantLabel : Option String
  variants : List VideoStreamingVariant
  deriving DecidableEq

structure AssetVariant where
  original : String
  thumbnail : Option String
  preview : Option String
  playback : List VideoPlaybackVariant
  streaming : List VideoStreamingManifest
  deriving DecidableEq

structure CanonicalAsset where
  assetId : String
  ownerId : String
  ownerIds : List String
  sha256 : String
  cid : Option String
  digestMultibase : Option String
  mimeType : String
  size : JsNumber
  duration : Option Duration
  width : Option JsNumber
  height : Option JsNumber
  focalPoint : Option (Rat × Rat)
  canonicalUrl : String
  gatewayUrl : Option String
  sourceUrls : List String
  variants : AssetVariant
  alt : Option String
  blurhash : Option String
  contentWarning : Option String
  isSensitive : Bool
  createdAt : String
  firstSeenAt : Option String
  lastSeenAt : Option String
  ingestCount : Option Nat
  deriving DecidableEq

def playbackVariantKey (variant : VideoPlaybackVariant) : String :=
  s!"{variant.label}:{variant.mimeType}"

def streamingManifestKey (manifest : VideoStreamingManifest) : String :=
  s!"{manifest.protocol.name}:{manifest.url}"

def maxSafeInteger : Rat := 9007199254740991

section Merge
variable (localeCompare : String → String → Ordering)

/-- By width, variants without one last, and by label where the widths agree. -/
def variantBefore (left right : VideoPlaybackVariant) : Bool :=
  let leftWidth := left.width.getD maxSafeInteger
  let rightWidth := right.width.getD maxSafeInteger
  leftWidth < rightWidth ||
    (leftWidth = rightWidth && localeCompare left.label right.label != .gt)

def manifestBefore (left right : VideoStreamingManifest) : Bool :=
  match localeCompare left.protocol.name right.protocol.name with
  | .lt => true
  | .gt => false
  | .eq => localeCompare left.url right.url != .gt

/-- The values of `new Map(...)` filled in order: a key keeps its first place and its last
value. -/
def mapValues {V : Type} (key : V → String) (values : List V) : List V :=
  let merged := (⟨[], fun _ => none⟩ : OrderedMap String (Option V)).putAll
    (values.map fun value => (key value, some value))
  merged.order.filterMap merged.entry

def mergePlaybackVariants (existing incoming : List VideoPlaybackVariant) :
    List VideoPlaybackVariant :=
  (mapValues playbackVariantKey (existing ++ incoming)).mergeSort (variantBefore localeCompare)

def normalizeStreamingManifest (manifest : VideoStreamingManifest) : VideoStreamingManifest :=
  { manifest with variants := manifest.variants.mergeSort (variantBefore localeCompare) }

def mergeStreamingManifests (existing incoming : List VideoStreamingManifest) :
    List VideoStreamingManifest :=
  (mapValues streamingManifestKey
    ((existing ++ incoming).map (normalizeStreamingManifest localeCompare))).mergeSort
      (manifestBefore localeCompare)

/-- The empty text counts as no text. -/
def filled (text : Option String) : Option String := text.filter (· ≠ "")

def mergeOptionalString (primary secondary : Option String) : Option String :=
  filled primary <|> filled secondary

/-- `typeof primary === 'number' ? primary : secondary`, with a primary value from the store. -/
def mergeOptionalNumber : Option JsNumber → Option JsNumber → Option JsNumber
  | some (.finite value), _ => some (.finite value)
  | _, secondary => secondary

/-- `[...new Set(values.filter(Boolean))]` -/
def distinctTexts (values : List String) : List String := (values.filter (· ≠ "")).eraseDups

/-- `a || b` where a text is always there in the end. -/
def textOr (first : Option String) (otherwise : String) : String := (filled first).getD otherwise

def mergeCanonicalAsset (existing incoming : CanonicalAsset) : CanonicalAsset :=
  { existing with
    ownerIds := distinctTexts
      (existing.ownerIds ++ [existing.ownerId] ++ incoming.ownerIds ++ [incoming.ownerId])
    sourceUrls := distinctTexts (existing.sourceUrls ++ incoming.sourceUrls)
    cid := mergeOptionalString existing.cid incoming.cid
    digestMultibase := mergeOptionalString existing.digestMultibase incoming.digestMultibase
    duration := existing.duration <|> incoming.duration
    width := mergeOptionalNumber existing.width incoming.width
    height := mergeOptionalNumber existing.height incoming.height
    focalPoint := existing.focalPoint <|> incoming.focalPoint
    gatewayUrl := mergeOptionalString existing.gatewayUrl incoming.gatewayUrl
    variants :=
      { original := textOr (some existing.variants.original) incoming.variants.original
        preview := mergeOptionalString existing.variants.preview incoming.variants.preview
        thumbnail := mergeOptionalString existing.variants.thumbnail incoming.variants.thumbnail
        playback := mergePlaybackVariants localeCompare existing.variants.playback
          incoming.variants.playback
        streaming := mergeStreamingManifests localeCompare existing.variants.streaming
          incoming.variants.streaming }
    alt := mergeOptionalString existing.alt incoming.alt
    blurhash := mergeOptionalString existing.blurhash incoming.blurhash
    contentWarning := mergeOptionalString existing.contentWarning incoming.contentWarning
    isSensitive := existing.isSensitive || incoming.isSensitive
    firstSeenAt := some (textOr existing.firstSeenAt (textOr (some existing.createdAt)
      (textOr incoming.firstSeenAt incoming.createdAt)))
    lastSeenAt := some (textOr incoming.lastSeenAt incoming.createdAt)
    ingestCount := some (existing.ingestCount.getD 1 + 1) }

end Merge

/-- `candidate[field]` where it is a text -/
def textField (entries : List (String × Json)) (field : String) : Option String :=
  match entries.lookup field with
  | some (.str value) => some value
  | _ => none

def normalizeOptionalNumber : Option Json → Option Rat
  | some (.num value) => some value
  | _ => none

/-- The entries of an array that are objects with a label, a URL and a mime type. -/
def parseVariant : Json → Option VideoPlaybackVariant
  | .obj entries => do
    let label ← textField entries "label"
    let url ← textField entries "url"
    let mimeType ← textField entries "mimeType"
    return ⟨label, url, mimeType, normalizeOptionalNumber (entries.lookup "width"),
      normalizeOptionalNumber (entries.lookup "height"),
      normalizeOptionalNumber (entries.lookup "bitrateKbps")⟩
  | _ => none

def parseVariants : Option Json → List VideoPlaybackVariant
  | some (.arr items) => items.filterMap parseVariant
  | _ => []

def parseProtocol (entries : List (String × Json)) : Option Protocol :=
  match textField entries "protocol" with
  | some "hls" => some .hls
  | some "dash" => some .dash
  | _ => none

def parseManifest : Json → Option VideoStreamingManifest
  | .obj entries => do
    let protocol ← parseProtocol entries
    let url ← textField entries "url"
    let mimeType ← textField entries "mimeType"
    return ⟨protocol, url, mimeType, textField entries "defaultVariantLabel",
      parseVariants (entries.lookup "variants")⟩
  | _ => none

section Parse
variable (parseJson : String → Option Json)

def parsePlaybackVariants (value : Option String) : List VideoPlaybackVariant :=
  parseVariants (value.bind parseJson)

def parseStreamingManifests (value : Option String) : List VideoStreamingManifest :=
  match value.bind parseJson with
  | some (.arr items) => items.filterMap parseManifest
  | _ => []

end Parse

end MastopodFederation.Source.CanonicalAssets
