import MastopodFederation.Source.CanonicalAssets
import MastopodFederation.Source.MediaProcessing

/-!
# Asset store and repair

The Redis backend of storage/assetStore.ts and repair/reconcileCanonicalAssets.ts. The version
that WATCH saw of a key is kept by the connection: here it is the reply to WATCH and goes back
with EXEC. A SET names the stored asset that its value was made from (`basis`), a history
argument no code reads. The replies of the scan iterator are taken together; downloaded files
are their content. The file backend is left out.
-/
namespace MastopodFederation.Source.AssetStore
open Lib.Calls CanonicalAssets
open SecureWorker (Thrown)
open MediaProcessing (ProcessedImage Upload)

variable {Blob : Type}

structure VideoRenditionResult (Blob : Type) where
  duration : Option String
  width : Option Nat
  height : Option Nat
  /-- the preview, the thumbnail and the generated variants -/
  artifacts : Blob

structure PersistedRenditions where
  previewUrl : Option String
  thumbnailUrl : Option String
  playbackVariants : List VideoPlaybackVariant
  streamingManifests : List VideoStreamingManifest

inductive Call (Blob : Type) where
  /-- SET NX under the key of the asset -/
  | setNx (asset : CanonicalAsset)
  /-- SADD to the index -/
  | sAdd (assetId : String)
  | watch (assetId : String)
  | get (assetId : String)
  | unwatch
  /-- MULTI, SET, SADD to the index, EXEC -/
  | exec (assetId : String) (asset : CanonicalAsset) (watched : Nat)
  | set (assetId : String) (asset basis : CanonicalAsset)
  | sScanIterator
  | mGet (assetIds : List String)
  /-- the script `pruneStaleIndexLua` -/
  | prune (assetIds : List String)
  | headFilebaseObject (key : String)
  | createWorkerScratchDir
  | downloadFromFilebaseToPath (key : String)
  | processImageFile (input : Blob)
  | generateBlurPreview (buffer : Blob)
  | uploadToFilebase (upload : Upload Blob)
  | renderVideoRenditions (input : Blob) (mimeType : String)
  | persistVideoRenditions (sha256 : String) (renditions : VideoRenditionResult Blob)
  | cleanupWorkerScratchDir

abbrev Reply : Call Blob → Type
  | .setNx _ | .exec .. => Bool
  | .sAdd _ | .unwatch | .set .. | .prune _ => Unit
  | .watch _ => Nat
  | .get _ => Option CanonicalAsset
  | .sScanIterator => List String
  | .mGet _ => List (Option CanonicalAsset)
  | .headFilebaseObject _ => Except Thrown Bool
  | .createWorkerScratchDir | .cleanupWorkerScratchDir => Except Thrown Unit
  | .downloadFromFilebaseToPath _ | .generateBlurPreview _ => Except Thrown Blob
  | .processImageFile _ => Except Thrown (ProcessedImage Blob)
  -- the key of the uploaded object
  | .uploadToFilebase _ => Except Thrown String
  | .renderVideoRenditions .. => Except Thrown (VideoRenditionResult Blob)
  | .persistVideoRenditions .. => Except Thrown PersistedRenditions

abbrev Program (Blob : Type) := Prog (Call Blob) Reply Thrown

def setNx (asset : CanonicalAsset) : Program Blob Bool := .call (.setNx asset) fun r => .done (.ok r)

def sAdd (assetId : String) : Program Blob Unit := .call (.sAdd assetId) fun r => .done (.ok r)

def watch (assetId : String) : Program Blob Nat := .call (.watch assetId) fun r => .done (.ok r)

def get (assetId : String) : Program Blob (Option CanonicalAsset) :=
  .call (.get assetId) fun r => .done (.ok r)

def unwatch : Program Blob Unit := .call .unwatch fun r => .done (.ok r)

def exec (assetId : String) (asset : CanonicalAsset) (watched : Nat) : Program Blob Bool :=
  .call (.exec assetId asset watched) fun r => .done (.ok r)

def set (assetId : String) (asset basis : CanonicalAsset) : Program Blob Unit :=
  .call (.set assetId asset basis) fun r => .done (.ok r)

def sScanIterator : Program Blob (List String) := .call .sScanIterator fun r => .done (.ok r)

def mGet (assetIds : List String) : Program Blob (List (Option CanonicalAsset)) :=
  .call (.mGet assetIds) fun r => .done (.ok r)

section Save
variable (localeCompare : String → String → Ordering)

/-- The attempts that `saveRedisAsset` has left, and its last resort. -/
def saveAttempts (asset : CanonicalAsset) : Nat → Program Blob CanonicalAsset
  | 0 => do
    match ← get asset.assetId with
    | none => pure asset
    | some existing => do
      let merged := mergeCanonicalAsset localeCompare existing asset
      set asset.assetId merged existing
      pure merged
  | attempts + 1 => do
    let watched ← watch asset.assetId
    match ← get asset.assetId with
    | none => do
      unwatch
      if ← setNx asset then do
        sAdd asset.assetId
        pure asset
      else saveAttempts asset attempts
    | some existing => do
      let merged := mergeCanonicalAsset localeCompare existing asset
      if ← exec asset.assetId merged watched then pure merged
      else saveAttempts asset attempts

def saveRedisAsset (asset : CanonicalAsset) : Program Blob CanonicalAsset := do
  if ← setNx asset then do
    sAdd asset.assetId
    pure asset
  else saveAttempts localeCompare asset 3

end Save

def replaceRedisAsset (asset basis : CanonicalAsset) : Program Blob CanonicalAsset := do
  set asset.assetId asset basis
  sAdd asset.assetId
  pure asset

def loadAsset (assetId : String) : Program Blob (Option CanonicalAsset) := get assetId

def redisReadBatchSize : Nat := 128

def pruneStaleRedisAssetIds (assetIds : List String) : Program Blob Unit :=
  if assetIds.isEmpty then pure () else .call (.prune assetIds) fun r => .done (.ok r)

/-- The ids without a row. -/
def staleIds (ids : List String) (rows : List (Option CanonicalAsset)) : List String :=
  (ids.zipIdx.filter fun entry => (rows[entry.2]?.join).isNone).map (·.1)

def flushBatch (batch : List String) (assets : List CanonicalAsset) :
    Program Blob (List CanonicalAsset) :=
  if batch.isEmpty then pure assets
  else do
    let rows ← mGet batch
    pruneStaleRedisAssetIds (staleIds batch rows)
    pure (assets ++ (rows.take batch.length).filterMap id)

/-- The loop over the ids of the index, with the ids seen, the batch and the assets so far. -/
def loadLoop (seen batch : List String) (assets : List CanonicalAsset) :
    List String → Program Blob (List CanonicalAsset)
  | [] => flushBatch batch assets
  | assetId :: rest =>
    if assetId ∈ seen then loadLoop seen batch assets rest
    else if redisReadBatchSize ≤ (batch ++ [assetId]).length then do
      let assets ← flushBatch (batch ++ [assetId]) assets
      loadLoop (assetId :: seen) [] assets rest
    else loadLoop (assetId :: seen) (batch ++ [assetId]) assets rest

def loadAllAssets : Program Blob (List CanonicalAsset) := do
  let ids ← sScanIterator
  loadLoop [] [] [] ids

inductive ReconcileStatus where
  | unchanged
  | needsRepair
  | repaired
  | unrecoverable
  deriving DecidableEq

structure AssetReconcileResult where
  assetId : String
  status : ReconcileStatus
  repairs : List String
  reason : Option String

structure ReconcileOptions where
  auditOnly : Bool
  assetId : Option String
  deriving DecidableEq

structure Environment where
  localeCompare : String → String → Ordering
  objectKeyFromCanonicalMediaUrl : String → Option String
  buildCanonicalMediaUrl : String → String

def headFilebaseObject (key : String) : Program Blob Bool := .call (.headFilebaseObject key) .done

section Repair
variable (env : Environment)

def objectExistsForUrl (url : Option String) : Program Blob Bool :=
  match (filled url).bind env.objectKeyFromCanonicalMediaUrl with
  | none => pure false
  | some key => headFilebaseObject key

def allUrlsExist : List String → Program Blob Bool
  | [] => pure true
  | url :: rest => do
    if ← objectExistsForUrl env (some url) then allUrlsExist rest else pure false

/-- `try { body } finally { cleanup }` after the scratch directory was made. -/
def withScratchDir {α : Type} (body : Program Blob α) : Program Blob α :=
  Prog.bind
    (Prog.attempt (do
      .call .createWorkerScratchDir .done
      body) : Program Blob (Except Thrown α)) fun outcome =>
    Prog.bind (.call .cleanupWorkerScratchDir .done) fun _ => .done outcome

def widthText (width : Option Nat) : Option JsNumber := width.map fun n => .finite n

def repairedPreview (asset : CanonicalAsset) (previewMissing : Bool)
    (processed : ProcessedImage Blob) : Program Blob (Option String) :=
  if previewMissing then do
    let previewBuffer ← .call (.generateBlurPreview processed.buffer) .done
    let key ← .call (.uploadToFilebase
      ⟨s!"{asset.sha256}-preview.webp", previewBuffer, "image/webp", false, "image-preview"⟩) .done
    pure (some (env.buildCanonicalMediaUrl key))
  else pure asset.variants.preview

def repairedThumbnail (asset : CanonicalAsset) (thumbnailMissing : Bool)
    (processed : ProcessedImage Blob) : Program Blob (Option String) :=
  match thumbnailMissing, processed.thumbnail with
  | true, some thumbnail => do
    let key ← .call (.uploadToFilebase
      ⟨s!"{asset.sha256}-thumb.webp", thumbnail, "image/webp", false, "image-thumbnail"⟩) .done
    pure (some (env.buildCanonicalMediaUrl key))
  | _, _ => pure asset.variants.thumbnail

/-- `asset.width ?? width`, where the asset comes from the store. -/
def withSize (asset : CanonicalAsset) (width height : Option Nat) : CanonicalAsset :=
  { asset with
    width := mergeOptionalNumber asset.width (widthText width)
    height := mergeOptionalNumber asset.height (widthText height) }

def repairImage (asset : CanonicalAsset) (originalKey : String)
    (previewMissing thumbnailMissing : Bool) : Program Blob Unit :=
  withScratchDir do
    let input ← .call (.downloadFromFilebaseToPath originalKey) .done
    let processed ← .call (.processImageFile input) .done
    let preview ← repairedPreview env asset previewMissing processed
    let thumbnail ← repairedThumbnail env asset thumbnailMissing processed
    let sized := withSize asset processed.width processed.height
    let _ ← replaceRedisAsset { sized with
      variants := { asset.variants with preview := preview, thumbnail := thumbnail } } asset

def reconcileImageAsset (asset : CanonicalAsset) (originalKey : String)
    (options : ReconcileOptions) : Program Blob AssetReconcileResult := do
  let previewExists ← objectExistsForUrl env asset.variants.preview
  let thumbnailExists ← objectExistsForUrl env asset.variants.thumbnail
  let repairs := (if previewExists then [] else ["preview"]) ++
    (if thumbnailExists then [] else ["thumbnail"])
  if repairs.isEmpty then pure ⟨asset.assetId, .unchanged, [], none⟩
  else if options.auditOnly then pure ⟨asset.assetId, .needsRepair, repairs, none⟩
  else do
    repairImage env asset originalKey (!previewExists) (!thumbnailExists)
    pure ⟨asset.assetId, .repaired, repairs, none⟩

structure MissingVideoArtifacts where
  preview : Bool
  thumbnail : Bool
  playback : Bool
  streaming : Bool

def manifestUrls (manifests : List VideoStreamingManifest) : List String :=
  manifests.map (·.url) ++ manifests.flatMap fun manifest => manifest.variants.map (·.url)

def playbackExists (variants : List VideoPlaybackVariant) : Program Blob Bool :=
  if variants.isEmpty then pure false else allUrlsExist env (variants.map (·.url))

def streamingExists (manifests : List VideoStreamingManifest) : Program Blob Bool :=
  if manifests.length < 2 then pure false else allUrlsExist env (manifestUrls manifests)

def identifyMissingVideoArtifacts (asset : CanonicalAsset) : Program Blob MissingVideoArtifacts := do
  let playback ← playbackExists env asset.variants.playback
  let streaming ← streamingExists env asset.variants.streaming
  let preview ← objectExistsForUrl env asset.variants.preview
  let thumbnail ← objectExistsForUrl env asset.variants.thumbnail
  pure ⟨!preview, !thumbnail, !playback, !streaming⟩

/-- A list of variants that were rendered anew, or the old one if there are none. -/
def renewed {V : Type} (fresh old : List V) : List V := if fresh.isEmpty then old else fresh

def repairVideo (asset : CanonicalAsset) (originalKey : String) : Program Blob Unit :=
  withScratchDir do
    let input ← .call (.downloadFromFilebaseToPath originalKey) .done
    let renditions ← .call (.renderVideoRenditions input asset.mimeType) .done
    let persisted ← .call (.persistVideoRenditions asset.sha256 renditions) .done
    let sized := withSize asset renditions.width renditions.height
    let _ ← replaceRedisAsset { sized with
      duration := asset.duration <|> renditions.duration.map .text
      variants := { asset.variants with
        preview := filled persisted.previewUrl <|> asset.variants.preview
        thumbnail := filled persisted.thumbnailUrl <|> asset.variants.thumbnail
        playback := renewed persisted.playbackVariants asset.variants.playback
        streaming := renewed persisted.streamingManifests asset.variants.streaming } } asset

def reconcileVideoAsset (asset : CanonicalAsset) (originalKey : String)
    (options : ReconcileOptions) : Program Blob AssetReconcileResult := do
  let missing ← identifyMissingVideoArtifacts env asset
  let repairs := (if missing.preview then ["preview"] else []) ++
    (if missing.thumbnail then ["thumbnail"] else []) ++
    (if missing.playback then ["playback"] else []) ++
    (if missing.streaming then ["streaming"] else [])
  if repairs.isEmpty then pure ⟨asset.assetId, .unchanged, [], none⟩
  else if options.auditOnly then pure ⟨asset.assetId, .needsRepair, repairs, none⟩
  else do
    repairVideo asset originalKey
    pure ⟨asset.assetId, .repaired, repairs, none⟩

def reconcileAsset (asset : CanonicalAsset) (options : ReconcileOptions) :
    Program Blob AssetReconcileResult :=
  match env.objectKeyFromCanonicalMediaUrl asset.canonicalUrl with
  | none => pure ⟨asset.assetId, .unrecoverable, [],
      some "canonical original URL cannot be mapped back to an object key"⟩
  | some originalKey => do
    if ← headFilebaseObject originalKey then
      if asset.mimeType.startsWith "video/" then reconcileVideoAsset env asset originalKey options
      else if asset.mimeType.startsWith "image/" then
        reconcileImageAsset env asset originalKey options
      else pure ⟨asset.assetId, .unchanged, [], none⟩
    else pure ⟨asset.assetId, .unrecoverable, [], some "canonical original object is missing"⟩

def reconcileEach (options : ReconcileOptions) :
    List CanonicalAsset → Program Blob (List AssetReconcileResult)
  | [] => pure []
  | asset :: rest => do
    let result ← reconcileAsset env asset options
    let results ← reconcileEach options rest
    pure (result :: results)

def selectedAssets (options : ReconcileOptions) : Program Blob (List CanonicalAsset) :=
  match filled options.assetId with
  | none => loadAllAssets
  | some assetId => do
    match ← loadAsset assetId with
    | none => Prog.fail (.other s!"Asset {assetId} not found in canonical store")
    | some asset => pure [asset]

/-- The results; the summary only counts them by status. -/
def reconcileCanonicalAssets (options : ReconcileOptions) :
    Program Blob (List AssetReconcileResult) := do
  let assets ← selectedAssets options
  reconcileEach env options assets

end Repair

end MastopodFederation.Source.AssetStore
