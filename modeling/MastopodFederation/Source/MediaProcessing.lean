import MastopodFederation.Source.SecureWorker

/-!
# Image and video processing

The handlers of workers/processImageWorker.ts and workers/processVideoWorker.ts, with the
object store and the queue they work on. Every awaited step is a call that works, fails with
or without its effect, or crashes the worker; the uploads under one `Promise.all` are one
call. What the image and video tools compute, hashes and URLs are parameters; file paths
are left out, so that a downloaded file is its content.
-/
namespace MastopodFederation.Source.MediaProcessing
open Lib.Calls SecureWorker

variable {Blob Signal : Type}

abbrev Fields := List (String × String)

structure ProcessedImage (Blob : Type) where
  buffer : Blob
  width : Option Nat
  height : Option Nat
  thumbnail : Option Blob

structure VideoProcessingResult where
  mimeType : String
  size : Nat
  sha256 : String

structure Upload (Blob : Type) where
  key : String
  body : Blob
  contentType : String
  resolveCid : Bool
  objectClass : String

structure Uploaded where
  key : String
  cid : Option String

structure Environment (Blob Signal : Type) where
  processImageFile : Blob → Except Thrown (ProcessedImage Blob)
  generateBlurPreview : Blob → Blob
  sha256 : Blob → String
  /-- a hash is printed in hexadecimal digits -/
  sha256_plain : ∀ input, '/' ∉ (sha256 input).toList
  byteLength : Blob → Nat
  fromBase64 : String → Blob
  /-- the content id that the object store gives an object -/
  cidOf : Blob → Option String
  buildCanonicalMediaUrl : String → String
  buildGatewayUrl : Option String → Option String
  parseSafetySignals : Option String → List Signal
  serializeSafetySignals : List Signal → String
  /-- what the adapters that do not fail report -/
  adapterSignals : String → Blob → String → List Signal

def supportedVideoMimeTypes : List String := ["video/mp4", "video/webm", "video/quicktime"]

def videoExtensionForMime (mimeType : String) : String :=
  if mimeType = "video/webm" then "webm" else if mimeType = "video/quicktime" then "mov" else "mp4"

/-- A message without a mime type has none that is supported. -/
def processVideoFile (env : Environment Blob Signal) (input : Blob) (mimeType : Option String) :
    Except Thrown VideoProcessingResult :=
  let mimeType := mimeType.getD "undefined"
  if mimeType ∉ supportedVideoMimeTypes then
    .error (.pipeline "VIDEO_MIME_UNSUPPORTED" s!"Unsupported video mime type: {mimeType}" false none)
  else if env.byteLength input = 0 then
    .error (.pipeline "VIDEO_PAYLOAD_EMPTY" "Missing video payload for processing" false none)
  else .ok ⟨mimeType, env.byteLength input, env.sha256 input⟩

inductive Call (Blob : Type) where
  | createWorkerScratchDir
  | downloadFromFilebaseToPath (key : String)
  | processImage (input : Blob)
  | processVideoFile (input : Blob) (mimeType : Option String)
  | generateBlurPreview (buffer : Blob)
  | upload (uploads : List (Upload Blob))
  /-- the adapters settle, each with a signal or a failure that is only logged -/
  | runSafetyAdapters (url : String) (buffer : Blob) (mimeType : String)
  | enqueue (stream : String) (payload : Fields)
  | deleteFromFilebase (key : String)
  | cleanupWorkerScratchDir

abbrev Reply (Signal : Type) : Call Blob → Type
  | .createWorkerScratchDir | .enqueue .. | .deleteFromFilebase _ | .cleanupWorkerScratchDir =>
    Except Thrown Unit
  | .downloadFromFilebaseToPath _ | .generateBlurPreview _ => Except Thrown Blob
  | .processImage _ => Except Thrown (ProcessedImage Blob)
  | .processVideoFile .. => Except Thrown VideoProcessingResult
  | .upload _ => Except Thrown (List Uploaded)
  | .runSafetyAdapters .. => List Signal

abbrev Program (Blob Signal : Type) := Prog (Call Blob) (Reply Signal) Thrown

/-- `try { body } finally { cleanup }`; the cleanup sees whether the body returned. -/
def finallyDo (body : Program Blob Signal Unit) (cleanup : Bool → Program Blob Signal Unit) :
    Program Blob Signal Unit :=
  body.attempt.bind fun outcome => (cleanup outcome.isOk).bind fun _ => .done outcome

def deleteTransientObject (key : String) : Program Blob Signal Unit :=
  Prog.rescue (.call (.deleteFromFilebase key) .done) fun _ => pure ()

def renditionVideoStream : String := "media:rendition:video"

def finalizeStream : String := "media:finalize"

section Handlers
variable (env : Environment Blob Signal) (message : Message)

def textOf (field : Option String) : String := field.getD ""

def countText : Option Nat → String
  | none | some 0 => ""
  | some n => toString n

def imageUploads (processed : ProcessedImage Blob) (blurPreview : Blob) : List (Upload Blob) :=
  let fileHash := env.sha256 processed.buffer
  [⟨s!"{fileHash}.webp", processed.buffer, "image/webp", true, "canonical-original"⟩,
    ⟨s!"{fileHash}-preview.webp", blurPreview, "image/webp", false, "image-preview"⟩] ++
  (processed.thumbnail.toList.map fun thumbnail =>
    ⟨s!"{fileHash}-thumb.webp", thumbnail, "image/webp", false, "image-thumbnail"⟩)

/-- The URL of the upload at this place, where there is one. -/
def uploadedUrl (uploaded : List Uploaded) (index : Nat) : String :=
  (uploaded[index]?.map fun u => env.buildCanonicalMediaUrl u.key).getD ""

def imagePayload (processed : ProcessedImage Blob) (uploaded : List Uploaded)
    (contentSignals : List Signal) : Fields :=
  let cid := uploaded.head?.bind (·.cid)
  [("traceId", fieldOr message "traceId" ""), ("ownerId", fieldOr message "ownerId" ""),
    ("sourceUrl", fieldOr message "sourceUrl" ""), ("alt", fieldOr message "alt" ""),
    ("contentWarning", fieldOr message "contentWarning" ""),
    ("isSensitive", fieldOr message "isSensitive" "false"),
    ("sha256", env.sha256 processed.buffer), ("cid", textOf cid),
    ("canonicalUrl", uploadedUrl env uploaded 0),
    ("gatewayUrl", textOf (env.buildGatewayUrl cid)),
    ("previewUrl", uploadedUrl env uploaded 1), ("thumbnailUrl", uploadedUrl env uploaded 2),
    ("mimeType", "image/webp"), ("size", toString (env.byteLength processed.buffer)),
    ("width", countText processed.width), ("height", countText processed.height),
    ("signals", env.serializeSafetySignals
      (env.parseSafetySignals (message.get "signals") ++ contentSignals))]

/-- The part of the image handler after the input was read. -/
def finishImage (processed : ProcessedImage Blob) : Program Blob Signal Unit := do
  let blurPreview ← .call (.generateBlurPreview processed.buffer) .done
  let uploaded ← .call (.upload (imageUploads env processed blurPreview)) .done
  let contentSignals ← .call (.runSafetyAdapters (uploadedUrl env uploaded 0) processed.buffer
    "image/webp") fun signals => .done (.ok signals)
  .call (.enqueue finalizeStream (imagePayload env message processed uploaded contentSignals)) .done

/-- `processTransientImage` after its directory was made, and what follows it. -/
def transientImage (transientKey : String) : Program Blob Signal Unit := do
  let input ← .call (.downloadFromFilebaseToPath transientKey) .done
  let processed ← .call (.processImage input) .done
  finishImage env message processed

def inlineImage : Program Blob Signal Unit :=
  let input := env.fromBase64 (fieldOr message "bytesBase64" "")
  if env.byteLength input = 0 then Prog.fail (.other "Missing image payload for processing")
  else do
    let processed ← .call (.processImage input) .done
    finishImage env message processed

/-- The handler of the image worker: the cleanup runs however the body ended. -/
def processImageHandler : Program Blob Signal Unit :=
  let transientKey := fieldOr message "sourceObjectKey" ""
  if transientKey = "" then inlineImage env message
  else do
    let made ← Prog.attempt (.call .createWorkerScratchDir .done)
    match made with
    | .error e => do
      deleteTransientObject transientKey
      Prog.fail e
    | .ok () =>
      finallyDo (transientImage env message transientKey) fun _ => do
        deleteTransientObject transientKey
        .call .cleanupWorkerScratchDir .done

def videoPayload (processed : VideoProcessingResult) (original : Option Uploaded) : Fields :=
  let cid := original.bind (·.cid)
  let key := textOf (original.map (·.key))
  [("traceId", fieldOr message "traceId" ""), ("ownerId", fieldOr message "ownerId" ""),
    ("sourceUrl", fieldOr message "sourceUrl" ""), ("alt", fieldOr message "alt" ""),
    ("contentWarning", fieldOr message "contentWarning" ""),
    ("isSensitive", fieldOr message "isSensitive" "false"),
    ("sha256", processed.sha256), ("cid", textOf cid), ("originalObjectKey", key),
    ("canonicalUrl", env.buildCanonicalMediaUrl key),
    ("gatewayUrl", textOf (env.buildGatewayUrl cid)), ("mimeType", processed.mimeType),
    ("size", toString processed.size), ("signals", fieldOr message "signals" "[]")]

def videoUpload (processed : VideoProcessingResult) (input : Blob) : List (Upload Blob) :=
  [⟨s!"{processed.sha256}.{videoExtensionForMime processed.mimeType}", input,
    processed.mimeType, true, "canonical-original"⟩]

def transientVideo (transientKey : String) : Program Blob Signal Unit := do
  let input ← .call (.downloadFromFilebaseToPath transientKey) .done
  let processed ← .call (.processVideoFile input (message.get "mimeType")) .done
  let uploaded ← .call (.upload (videoUpload processed input)) .done
  .call (.enqueue renditionVideoStream (videoPayload env message processed uploaded.head?)) .done

/-- The handler of the video worker: the object is deleted only where the body returned. -/
def processVideoHandler : Program Blob Signal Unit :=
  let transientKey := fieldOr message "sourceObjectKey" ""
  if transientKey = "" then Prog.fail (.other "Missing transient video object reference")
  else do
    .call .createWorkerScratchDir .done
    finallyDo (transientVideo env message transientKey) fun deleteTransientOnExit => do
      if deleteTransientOnExit then deleteTransientObject transientKey
      .call .cleanupWorkerScratchDir .done

end Handlers

/-- What becomes of a step. -/
inductive Fate where
  | works
  | fails
  /-- it has its effect and fails all the same -/
  | failsAfter
  /-- the worker crashes before it -/
  | crashes
  deriving DecidableEq

/-- The steps of a handler, each of which is made at most once. -/
inductive StepName where
  | scratch | download | process | blurPreview | upload | adapters | enqueue | delete | cleanup
  deriving DecidableEq

def Call.step : Call Blob → StepName
  | .createWorkerScratchDir => .scratch
  | .downloadFromFilebaseToPath _ => .download
  | .processImage _ | .processVideoFile .. => .process
  | .generateBlurPreview _ => .blurPreview
  | .upload _ => .upload
  | .runSafetyAdapters .. => .adapters
  | .enqueue .. => .enqueue
  | .deleteFromFilebase _ => .delete
  | .cleanupWorkerScratchDir => .cleanup

/-- What took effect and a reader of the queue and the store can see, in order. -/
inductive Logged where
  | found (key : String)
  | enqueued (stream : String) (payload : Fields)
  | deleted (key : String)
  deriving DecidableEq

structure World (Blob : Type) where
  objects : String → Option Blob
  log : List Logged

namespace World

def put (w : World Blob) (upload : Upload Blob) : World Blob :=
  { w with objects := fun key => if key = upload.key then some upload.body else w.objects key }

def delete (w : World Blob) (key : String) : World Blob :=
  { objects := fun k => if k = key then none else w.objects k, log := w.log ++ [.deleted key] }

def note (w : World Blob) (entry : Logged) : World Blob := { w with log := w.log ++ [entry] }

end World

section Perform
variable (env : Environment Blob Signal)

/-- A step that works. -/
def answer (w : World Blob) : (c : Call Blob) → Reply Signal c × World Blob
  | .createWorkerScratchDir => (.ok (), w)
  | .downloadFromFilebaseToPath key =>
    match w.objects key with
    | none => (.error (.other "NoSuchKey"), w)
    | some body => (.ok body, w.note (.found key))
  | .processImage input => (env.processImageFile input, w)
  | .processVideoFile input mimeType => (processVideoFile env input mimeType, w)
  | .generateBlurPreview buffer => (.ok (env.generateBlurPreview buffer), w)
  | .upload uploads =>
    (.ok (uploads.map fun u => ⟨u.key, if u.resolveCid then env.cidOf u.body else none⟩),
      uploads.foldl World.put w)
  | .runSafetyAdapters url buffer mimeType => (env.adapterSignals url buffer mimeType, w)
  | .enqueue stream payload => (.ok (), w.note (.enqueued stream payload))
  | .deleteFromFilebase key => (.ok (), w.delete key)
  | .cleanupWorkerScratchDir => (.ok (), w)

/-- The reply to a step that fails; adapters that fail report nothing. -/
def refuse : (c : Call Blob) → Reply Signal c
  | .createWorkerScratchDir | .enqueue .. | .deleteFromFilebase _ | .cleanupWorkerScratchDir =>
    .error (.other "failed")
  | .downloadFromFilebaseToPath _ | .generateBlurPreview _ => .error (.other "failed")
  | .processImage _ => .error (.other "failed")
  | .processVideoFile .. => .error (.other "failed")
  | .upload _ => .error (.other "failed")
  | .runSafetyAdapters .. => []

/-- Run a handler where each step has its fate; a crash leaves no outcome. -/
def run (fates : StepName → Fate) {α : Type} :
    Prog (Call Blob) (Reply Signal) Thrown α → World Blob → Option (Except Thrown α) × World Blob
  | .done outcome, w => (some outcome, w)
  | .call c next, w =>
    match fates c.step with
    | .works => run fates (next (answer env w c).1) (answer env w c).2
    | .fails => run fates (next (refuse c)) w
    | .failsAfter => run fates (next (refuse c)) (answer env w c).2
    | .crashes => (none, w)

end Perform

/-- The two processing stages. -/
inductive Stage where
  | image
  | video
  deriving DecidableEq

def Stage.handler (env : Environment Blob Signal) : Stage → Message → Program Blob Signal Unit
  | .image => processImageHandler env
  | .video => processVideoHandler env

/-- The input can be processed at all. -/
def Stage.processable (env : Environment Blob Signal) (message : Message) (input : Blob) :
    Stage → Bool
  | .image => (env.processImageFile input).isOk
  | .video => (processVideoFile env input (message.get "mimeType")).isOk

def Stage.next : Stage → String
  | .image => finalizeStream
  | .video => renditionVideoStream

end MastopodFederation.Source.MediaProcessing
