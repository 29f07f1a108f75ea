import MastopodFederation.Lib.Base64
import MastopodFederation.Lib.BudgetCache

/-!
# The payload codec of the Redis streams

queue/redis-stream-payload-codec.ts, and `encodeActivityCached` of
queue/sidecar-redis-queue-core.ts. Strings are lists of code points, of which some may be
lone surrogates. Brotli and SHA-256 are parameters with what is known of them; the replacement
of bytes that are no UTF-8 and the texts of Brotli's errors are parameters, too. What the
decompressor writes is bounded by the limit that it is given.
-/
namespace MastopodFederation.Source.RedisStreamPayloadCodec
open Lib.BudgetCache

inductive CodePoint where
  | scalar (char : Char)
  | loneSurrogate (unit : Nat)
  deriving DecidableEq

abbrev JsString := List CodePoint

abbrev Bytes := List UInt8

def ofChars (chars : List Char) : JsString := chars.map .scalar

def ofString (text : String) : JsString := ofChars text.toList

/-- `Buffer.from(value)`: a lone surrogate becomes the replacement character. -/
def utf8 (value : JsString) : Bytes :=
  value.flatMap fun
    | .scalar char => String.utf8EncodeChar char
    | .loneSurrogate _ => [239, 191, 189]

/-- `buffer.toString("base64url")` -/
def toBase64url (bytes : Bytes) : JsString := ofChars (Lib.Base64.encodeUrl bytes)

def CodePoint.char? : CodePoint → Option Char
  | .scalar char => some char
  | .loneSurrogate _ => none

/-- `Buffer.from(text, "base64url")` -/
def fromBase64url (text : JsString) : Bytes := Lib.Base64.decode (text.filterMap CodePoint.char?)

def isHexDigit : CodePoint → Bool
  | .scalar char => ('a' ≤ char ∧ char ≤ 'f') ∨ ('0' ≤ char ∧ char ≤ '9')
  | .loneSurrogate _ => false

def isBase64urlDigit : CodePoint → Bool
  | .scalar char => ('A' ≤ char ∧ char ≤ 'Z') ∨ ('a' ≤ char ∧ char ≤ 'z') ∨
      ('0' ≤ char ∧ char ≤ '9') ∨ char = '_' ∨ char = '-'
  | .loneSurrogate _ => false

/-- Brotli, SHA-256 and the decoding of bytes that are no UTF-8. -/
structure Platform where
  /-- at a quality -/
  compress : Nat → Bytes → Bytes
  decompress : Bytes → Except String Bytes
  /-- the error of an output that is larger than this limit -/
  outputTooLarge : Nat → String
  sha256Hex : Bytes → JsString
  replaceInvalid : Bytes → List Char
  decompress_compress : ∀ quality bytes, decompress (compress quality bytes) = .ok bytes
  compress_ne_nil : ∀ quality bytes, compress quality bytes ≠ []
  sha256Hex_length : ∀ bytes, (sha256Hex bytes).length = 64
  sha256Hex_digits : ∀ bytes, (sha256Hex bytes).all isHexDigit

/-- An option that should be a number. -/
inductive NumberOption where
  | absent
  | notFinite
  | finite (value : Rat)

def finitePositiveInteger : NumberOption → Nat → Nat
  | .absent, fallback | .notFinite, fallback => fallback
  | .finite value, fallback => if value ≤ 0 then fallback else ⌊value⌋.toNat

def boundedBrotliQuality : NumberOption → Nat
  | .absent | .notFinite => 0
  | .finite value => (max 0 (min 11 ⌊value⌋)).toNat

structure CodecOptions where
  writeEnabled : Option Bool
  minBytes : NumberOption
  maxCompressedBytes : NumberOption
  maxDecompressedBytes : NumberOption
  brotliQuality : NumberOption
  decodeCacheMaxBytes : NumberOption

structure CodecConfig where
  writeEnabled : Bool
  minBytes : Nat
  maxCompressedBytes : Nat
  maxDecompressedBytes : Nat
  brotliQuality : Nat
  decodeCacheMaxBytes : Nat

def codecConfig (options : CodecOptions) : CodecConfig where
  writeEnabled := options.writeEnabled = some true
  minBytes := finitePositiveInteger options.minBytes (4 * 1024)
  maxCompressedBytes := finitePositiveInteger options.maxCompressedBytes (16 * 1024 * 1024)
  maxDecompressedBytes := finitePositiveInteger options.maxDecompressedBytes (32 * 1024 * 1024)
  brotliQuality := boundedBrotliQuality options.brotliQuality
  decodeCacheMaxBytes := finitePositiveInteger options.decodeCacheMaxBytes (8 * 1024 * 1024)

structure EncodedPayload where
  value : JsString
  compressed : Bool
  sourceBytes : Nat
  storedBytes : Nat

def envelopeMarker : JsString := ofString "apq1:br:"

def unknownMarker : JsString := ofString "apq1:"

def colon : CodePoint := .scalar ':'

section
variable (platform : Platform) (config : CodecConfig)

def tooLargeCompressed : String :=
  "Redis Stream compressed payload exceeds maximum size of " ++ toString config.maxCompressedBytes
    ++ " bytes"

/-- The envelope of compressed bytes. -/
def envelope (source compressed : Bytes) : JsString :=
  envelopeMarker ++ platform.sha256Hex source ++ [colon] ++ toBase64url compressed

def encode (value : JsString) : Except String EncodedPayload :=
  let source := utf8 value
  let sourceBytes := source.length
  let plain : EncodedPayload := ⟨value, false, sourceBytes, sourceBytes⟩
  if !config.writeEnabled || sourceBytes < config.minBytes then .ok plain
  else if sourceBytes > config.maxDecompressedBytes then
    .error ("Redis Stream payload exceeds maximum uncompressed size of " ++
      toString config.maxDecompressedBytes ++ " bytes")
  else
    let compressed := platform.compress config.brotliQuality source
    if compressed.length > config.maxCompressedBytes then .error (tooLargeCompressed config)
    else
      let encoded := envelope platform source compressed
      let storedBytes := (utf8 encoded).length
      if storedBytes ≥ sourceBytes then .ok plain
      else .ok ⟨encoded, true, sourceBytes, storedBytes⟩

/-- The value that is queued for an activity, encoded once for a batch. -/
def encodeActivityCached (activity : JsString) (cache : List (JsString × JsString)) :
    List (JsString × JsString) × Except String JsString :=
  match cache.lookup activity with
  | some existing => (cache, .ok existing)
  | none =>
    match encode platform config activity with
    | .error error => (cache, .error error)
    | .ok payload => (cache ++ [(activity, payload.value)], .ok payload.value)

/-- `buffer.toString("utf8")` -/
def toUtf8String (bytes : Bytes) : JsString :=
  match bytes.toByteArray.utf8Decode? with
  | some chars => ofChars chars.toList
  | none => ofChars (platform.replaceInvalid bytes)

/-- The parts of an envelope that is well-formed as a text, or `none` for a plain value. -/
def openEnvelope (value : JsString) : Except String (Option (JsString × JsString)) :=
  if !unknownMarker.isPrefixOf value then .ok none
  else if !envelopeMarker.isPrefixOf value then
    .error "Redis Stream payload uses an unknown compression envelope"
  else
    let parts := value.drop envelopeMarker.length
    let separator := parts.idxOf colon
    -- idxOf is the length where indexOf is -1
    if separator = 0 || separator = parts.length || separator = parts.length - 1 then
      .error "Redis Stream Brotli payload envelope is malformed"
    else
      let expectedDigest := parts.take separator
      let encoded := parts.drop (separator + 1)
      if expectedDigest.length ≠ 64 || !expectedDigest.all isHexDigit then
        .error "Redis Stream Brotli payload digest is malformed"
      else if encoded = [] || !encoded.all isBase64urlDigit then
        .error "Redis Stream Brotli payload is not valid base64url"
      else
        let maxEncodedLength := (config.maxCompressedBytes * 4 + 2) / 3 + 2
        if encoded.length > maxEncodedLength then .error (tooLargeCompressed config)
        else .ok (some (expectedDigest, encoded))

/-- `brotliDecompressSync` with `maxOutputLength` -/
def brotliDecompress (maxOutputLength : Nat) (bytes : Bytes) : Except String Bytes :=
  match platform.decompress bytes with
  | .error error => .error error
  | .ok output =>
    if output.length > maxOutputLength then .error (platform.outputTooLarge maxOutputLength)
    else .ok output

/-- What is checked of an envelope that is not in the cache: the decoded value, and the bytes
that the cache counts for it. -/
def validate (value expectedDigest encoded : JsString) : Except String (JsString × Nat) :=
  let compressed := fromBase64url encoded
  if compressed.length = 0 || toBase64url compressed ≠ encoded then
    .error "Redis Stream Brotli payload is not canonical base64url"
  else if compressed.length > config.maxCompressedBytes then .error (tooLargeCompressed config)
  else
    match brotliDecompress platform config.maxDecompressedBytes compressed with
    | .error message =>
      .error ("Redis Stream Brotli payload could not be decompressed: " ++ message)
    | .ok decompressed =>
      if decompressed.length > config.maxDecompressedBytes then
        .error ("Redis Stream decompressed payload exceeds maximum size of " ++
          toString config.maxDecompressedBytes ++ " bytes")
      else if platform.sha256Hex decompressed ≠ expectedDigest then
        .error "Redis Stream Brotli payload failed SHA-256 integrity verification"
      else .ok (toUtf8String platform decompressed, decompressed.length + (utf8 value).length)

abbrev DecodeCache := Cache JsString JsString

def decode (cache : DecodeCache) (value : JsString) : DecodeCache × Except String JsString :=
  match openEnvelope config value with
  | .error error => (cache, .error error)
  | .ok none => (cache, .ok value)
  | .ok (some (expectedDigest, encoded)) =>
    memo config.decodeCacheMaxBytes cache value
      (validate platform config value expectedDigest encoded)

/-- The cache after these calls, and what they returned. -/
def decodeAll : DecodeCache → List JsString → DecodeCache × List (Except String JsString)
  | cache, [] => (cache, [])
  | cache, value :: rest =>
    let (next, result) := decode platform config cache value
    let (final, results) := decodeAll next rest
    (final, result :: results)

/-- What a codec without a cache returns. -/
def decodeUncached (value : JsString) : Except String JsString :=
  match openEnvelope config value with
  | .error error => .error error
  | .ok none => .ok value
  | .ok (some (expectedDigest, encoded)) =>
    (validate platform config value expectedDigest encoded).map Prod.fst

end
end MastopodFederation.Source.RedisStreamPayloadCodec
