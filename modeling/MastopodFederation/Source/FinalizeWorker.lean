import MastopodFederation.Source.AssetStore

/-!
# The finalize worker

workers/finalizeWorker.ts with `buildIndexDocument` and `indexMediaAssets` of
indexing/openSearchMediaIndexer.ts. The bulk request with its retries, `saveAsset` and
`publishMediaEvent` are calls; each works, or fails with or without effect. `Number`,
`JSON.parse`, hashes and what signals and focal points texts stand for are parameters. A text
that a message lacks is read as the empty text where the asset needs one. The ActivityPub
binding of the event is computed from its asset and left out.
-/
namespace MastopodFederation.Source.FinalizeWorker
open Lib.Calls CanonicalAssets SecureWorker
open MediaProcessing (textOf)
open Lib.LuaTable (Json)

variable {Signal : Type}

structure Environment (Signal : Type) where
  localeCompare : String → String → Ordering
  /-- `Number(text)` -/
  number : String → JsNumber
  parseJson : String → Option Json
  parseFocalPoint : Option String → Option (Rat × Rat)
  sha256HexToDigestMultibase : String → Option String
  parseSafetySignals : Option String → List Signal
  labels : Signal → List String
  /-- `new Date().toISOString()` at each reading of the clock -/
  clock : Nat → String

structure MediaAssetIndexRequest (Signal : Type) where
  asset : CanonicalAsset
  signals : List Signal

structure IndexDocument where
  assetId : String
  mimeType : String
  width : Option JsNumber
  height : Option JsNumber
  createdAt : String
  lastSeenAt : String
  ingestCount : Nat
  playbackVariantCount : Nat
  playbackVariantWidths : List Rat
  streamingManifestCount : Nat
  streamingProtocols : List Protocol
  streamingVariantCount : Nat
  labels : List String
  deriving DecidableEq

section Build
variable (env : Environment Signal)

def buildIndexDocument (asset : CanonicalAsset) (signals : List Signal) : IndexDocument where
  assetId := asset.assetId
  mimeType := asset.mimeType
  width := asset.width
  height := asset.height
  createdAt := asset.createdAt
  lastSeenAt := textOr asset.lastSeenAt asset.createdAt
  ingestCount := asset.ingestCount.getD 1
  playbackVariantCount := asset.variants.playback.length
  playbackVariantWidths := asset.variants.playback.filterMap (·.width)
  streamingManifestCount := asset.variants.streaming.length
  streamingProtocols := asset.variants.streaming.map (·.protocol)
  streamingVariantCount := (asset.variants.streaming.map (·.variants.length)).sum
  labels := (signals.flatMap env.labels).eraseDups

/-- The asset of one message, built at this time. -/
def buildAsset (message : Message) (createdAt : String) : CanonicalAsset :=
  let text := fun field => textOf (message.get field)
  let optional := fun field => filled (message.get field)
  { assetId := text "sha256"
    ownerId := text "ownerId"
    ownerIds := [text "ownerId"]
    sha256 := text "sha256"
    cid := optional "cid"
    digestMultibase := optional "digestMultibase" <|> env.sha256HexToDigestMultibase (text "sha256")
    mimeType := text "mimeType"
    size := (message.get "size").elim .null env.number
    duration := (optional "duration").map .text
    width := (optional "width").map env.number
    height := (optional "height").map env.number
    focalPoint := env.parseFocalPoint (message.get "focalPoint")
    canonicalUrl := text "canonicalUrl"
    gatewayUrl := optional "gatewayUrl"
    sourceUrls := (optional "sourceUrl").toList
    variants :=
      { original := text "canonicalUrl"
        preview := optional "previewUrl"
        thumbnail := optional "thumbnailUrl"
        playback := parsePlaybackVariants env.parseJson (message.get "playbackVariants")
        streaming := parseStreamingManifests env.parseJson (message.get "streamingManifests") }
    alt := optional "alt"
    blurhash := optional "blurhash"
    contentWarning := optional "contentWarning"
    isSensitive := message.get "isSensitive" = some "true"
    createdAt := createdAt
    firstSeenAt := some createdAt
    lastSeenAt := some createdAt
    ingestCount := some 1 }

/-- One entry of `buildAssets`. -/
def buildRequest (message : Message) (createdAt : String) : MediaAssetIndexRequest Signal where
  asset := buildAsset env message createdAt
  signals := env.parseSafetySignals (message.get "signals")

end Build

inductive Call (Signal : Type) where
  | now
  /-- the bulk request -/
  | indexMediaAssets (items : List (MediaAssetIndexRequest Signal))
  | saveAsset (asset : CanonicalAsset)
  | publishMediaEvent (asset : CanonicalAsset) (signals : List Signal)

abbrev Reply : Call Signal → Type
  | .now => String
  | .indexMediaAssets _ | .publishMediaEvent .. => Except Thrown Unit
  | .saveAsset _ => Except Thrown CanonicalAsset

abbrev Program (Signal : Type) := Prog (Call Signal) Reply Thrown

structure HandlerResult where
  handledMessageIds : List String
  failedMessages : List WorkerEnvelope

section Handlers
variable (env : Environment Signal)

def buildAssets : List Message → Program Signal (List (MediaAssetIndexRequest Signal))
  | [] => pure []
  | message :: rest => do
    let createdAt ← .call .now fun time => .done (.ok time)
    let later ← buildAssets rest
    pure (buildRequest env message createdAt :: later)

def indexMediaAssets (items : List (MediaAssetIndexRequest Signal)) : Program Signal Unit :=
  if items.isEmpty then pure () else .call (.indexMediaAssets items) .done

def persistAsset (item : MediaAssetIndexRequest Signal) : Program Signal Unit := do
  let persistedAsset ← .call (.saveAsset item.asset) .done
  .call (.publishMediaEvent persistedAsset item.signals) .done

def persistAll : List (MediaAssetIndexRequest Signal) → Program Signal Unit
  | [] => pure ()
  | item :: rest => do
    persistAsset item
    persistAll rest

def persistAndPublish (messages : List Message) : Program Signal Unit := do
  let indexedAssets ← buildAssets env messages
  indexMediaAssets indexedAssets
  persistAll indexedAssets

/-- The loop of the batch handler. -/
def persistEach :
    List (WorkerEnvelope × MediaAssetIndexRequest Signal) → Program Signal HandlerResult
  | [] => pure ⟨[], []⟩
  | (envelope, item) :: rest => do
    let outcome ← Prog.attempt (persistAsset item)
    let later ← persistEach rest
    match outcome with
    | .ok () => pure ⟨envelope.id :: later.handledMessageIds, later.failedMessages⟩
    | .error _ => pure ⟨later.handledMessageIds, envelope :: later.failedMessages⟩

def batchHandler (messages : List WorkerEnvelope) : Program Signal HandlerResult := do
  let indexedAssets ← buildAssets env (messages.map (·.message))
  indexMediaAssets indexedAssets
  persistEach (messages.zip indexedAssets)

def handler (message : Message) : Program Signal Unit := persistAndPublish env [message]

end Handlers

/-- What becomes of a bulk request: when it fails, some of its items may have been indexed. -/
inductive IndexFate where
  | works
  | fails (indexed : Nat → Bool)

/-- What becomes of a save or a publication. -/
inductive StepFate where
  | works
  | fails
  /-- it has its effect and fails all the same -/
  | failsAfter
  deriving DecidableEq

structure ItemFates where
  save : StepFate
  publish : StepFate

/-- How the steps of one attempt end; every save takes the next item. -/
structure Script where
  index : IndexFate
  items : List ItemFates
  publish : StepFate

structure World (Signal : Type) where
  ticks : Nat
  docs : String → Option IndexDocument
  assets : String → Option CanonicalAsset
  /-- the jobs with an attempt and no success since; a history variable -/
  unhandled : List Nat
  /-- the signals of the message that was handled last for an asset; a history variable -/
  lastSignals : String → Option (List Signal)

namespace World

def initial : World Signal where
  ticks := 0
  docs _ := none
  assets _ := none
  unhandled := []
  lastSignals _ := none

def tick (w : World Signal) : World Signal := { w with ticks := w.ticks + 1 }

end World

section Perform
variable (env : Environment Signal)

/-- An index operation overwrites the document. -/
def putDoc (docs : String → Option IndexDocument) (item : MediaAssetIndexRequest Signal) :
    String → Option IndexDocument :=
  fun id => if id = item.asset.assetId then some (buildIndexDocument env item.asset item.signals)
    else docs id

/-- The items of the bulk request that took effect. -/
def indexedItems (items : List (MediaAssetIndexRequest Signal)) :
    IndexFate → List (MediaAssetIndexRequest Signal)
  | .works => items
  | .fails indexed => (items.zipIdx.filter fun entry => indexed entry.2).map (·.1)

/-- What a save that nothing disturbs stores. -/
def savedAsset (assets : String → Option CanonicalAsset) (asset : CanonicalAsset) : CanonicalAsset :=
  match assets asset.assetId with
  | none => asset
  | some existing => mergeCanonicalAsset env.localeCompare existing asset

def saved (w : World Signal) (asset : CanonicalAsset) : World Signal :=
  { w with assets := fun id =>
      if id = asset.assetId then some (savedAsset env w.assets asset) else w.assets id }

def failure : Thrown := .other "failed"

/-- Run a handler along a script; what is left of the script is part of the result. -/
def run {α : Type} :
    Program Signal α → Script → World Signal → Except Thrown α × Script × World Signal
  | .done outcome, script, w => (outcome, script, w)
  | .call .now next, script, w => run (next (env.clock w.ticks)) script w.tick
  | .call (.indexMediaAssets items) next, script, w =>
    let after := { w with docs := (indexedItems items script.index).foldl (putDoc env) w.docs }
    match script.index with
    | .works => run (next (.ok ())) script after
    | .fails _ => run (next (.error failure)) script after
  | .call (.saveAsset asset) next, script, w =>
    let fates := script.items.headD ⟨.works, .works⟩
    let script := { script with items := script.items.tail, publish := fates.publish }
    match fates.save with
    | .works => run (next (.ok (savedAsset env w.assets asset))) script (saved env w asset)
    | .fails => run (next (.error failure)) script w
    | .failsAfter => run (next (.error failure)) script (saved env w asset)
  | .call (.publishMediaEvent _ _) next, script, w =>
    match script.publish with
    | .works => run (next (.ok ())) script w
    | .fails | .failsAfter => run (next (.error failure)) script w

end Perform

/-- An attempt on one message, or on a batch of messages with different ids. -/
inductive Attempt where
  | single (envelope : WorkerEnvelope) (index : IndexFate) (fates : ItemFates)
  | batch (index : IndexFate) (items : List (WorkerEnvelope × ItemFates))
      (distinct : (items.map (·.1.id)).Nodup)

namespace Attempt

def index : Attempt → IndexFate
  | .single _ index _ | .batch index _ _ => index

def items : Attempt → List (WorkerEnvelope × ItemFates)
  | .single envelope _ fates => [(envelope, fates)]
  | .batch _ items _ => items

def script (a : Attempt) : Script := ⟨a.index, a.items.map (·.2), .works⟩

end Attempt

section Attempts
variable (env : Environment Signal)

/-- These messages were handled, in this order, and those failed. -/
def account (w : World Signal) (handled failed : List Message) : World Signal :=
  { w with
    unhandled := failed.map (·.job) ++ w.unhandled.filter (· ∉ handled.map (·.job))
    lastSignals := handled.foldl (fun last message id =>
      if id = textOf (message.get "sha256") then
        some (env.parseSafetySignals (message.get "signals")) else last id) w.lastSignals }

/-- What the worker makes of an attempt, and what it leaves. -/
def attempt (w : World Signal) (a : Attempt) : World Signal :=
  match a with
  | .single envelope _ _ =>
    match run env (handler env envelope.message) a.script w with
    | (.ok (), _, after) => account env after [envelope.message] []
    | (.error _, _, after) => account env after [] [envelope.message]
  | .batch _ items _ =>
    let envelopes := items.map (·.1)
    match run env (batchHandler env envelopes) a.script w with
    | (.ok result, _, after) =>
      account env after
        ((envelopes.filter fun e => e.id ∈ result.handledMessageIds).map (·.message))
        (result.failedMessages.map (·.message))
    | (.error _, _, after) => account env after [] (envelopes.map (·.message))

def attempts (w : World Signal) (made : List Attempt) : World Signal := made.foldl (attempt env) w

end Attempts

end MastopodFederation.Source.FinalizeWorker
