import MastopodFederation.Source.RedisStreamPayloadCodec

/-!
# Queued payloads come back, and the decode cache is never seen

A well-formed text that does not look like an envelope comes back from every decoder whose
limits are at least those of the encoder, and every call of a codec returns what a codec
without a cache returns, while the bytes counted for the cache are those of its entries and
within their limit.
-/
namespace MastopodFederation.Guarantees.PayloadRoundTrip
open Lib.BudgetCache Source.RedisStreamPayloadCodec

theorem utf8_ofChars (chars : List Char) :
    (utf8 (ofChars chars)).toByteArray = chars.utf8Encode := by
  simp [utf8, ofChars, List.flatMap_map, List.utf8Encode]

theorem toUtf8String_utf8 (platform : Platform) (text : String) :
    toUtf8String platform (utf8 (ofString text)) = ofString text := by
  simp only [toUtf8String, ofString, utf8_ofChars, List.utf8Decode?_utf8Encode]

@[simp] theorem filterMap_ofChars (chars : List Char) :
    (ofChars chars).filterMap CodePoint.char? = chars := by
  induction chars with
  | nil => rfl
  | cons char rest ih => simpa [ofChars, CodePoint.char?] using ih

@[simp] theorem fromBase64url_toBase64url (bytes : Bytes) :
    fromBase64url (toBase64url bytes) = bytes := by
  simp [fromBase64url, toBase64url]

theorem length_toBase64url (bytes : Bytes) :
    (toBase64url bytes).length = (bytes.length * 4 + 2) / 3 := by
  simp [toBase64url, ofChars, Lib.Base64.encodeUrl, Lib.Base64.length_sextets]

theorem urlDigit_listed : ∀ value : Fin 64,
    isBase64urlDigit (.scalar (Lib.Base64.urlDigit value)) = true := by
  have chars : Lib.Base64.alphabet = _ := String.toList_ofList
  simp only [Lib.Base64.urlDigit, Lib.Base64.digit, chars]
  decide +kernel

theorem toBase64url_digits (bytes : Bytes) : (toBase64url bytes).all isBase64urlDigit := by
  refine List.all_eq_true.mpr fun point mem => ?_
  obtain ⟨char, inside, rfl⟩ := List.mem_map.mp mem
  obtain ⟨value, made, rfl⟩ := List.mem_map.mp inside
  exact urlDigit_listed ⟨value, Lib.Base64.sextets_lt bytes value made⟩

theorem toBase64url_ne_nil {bytes : Bytes} (some : bytes ≠ []) : toBase64url bytes ≠ [] := by
  have size : 0 < bytes.length := List.length_pos_iff.mpr some
  refine List.length_pos_iff.mp ?_
  rw [length_toBase64url]
  omega

theorem colon_not_hex {digest : JsString} (digits : digest.all isHexDigit) : colon ∉ digest := by
  intro mem
  have hex := List.all_eq_true.mp digits colon mem
  revert hex
  decide +kernel

theorem marker_of_envelope (platform : Platform) (source compressed : Bytes) :
    unknownMarker.isPrefixOf (envelope platform source compressed) = true ∧
      envelopeMarker.isPrefixOf (envelope platform source compressed) = true := by
  have whole : envelopeMarker <+: envelope platform source compressed := by
    simp only [envelope, List.append_assoc]
    exact List.prefix_append _ _
  have short : unknownMarker <+: envelopeMarker := by decide +kernel
  exact ⟨List.isPrefixOf_iff_prefix.mpr (short.trans whole), List.isPrefixOf_iff_prefix.mpr whole⟩

theorem openEnvelope_envelope (platform : Platform) (config : CodecConfig) (source : Bytes)
    {compressed : Bytes} (some : compressed ≠ [])
    (small : compressed.length ≤ config.maxCompressedBytes) :
    openEnvelope config (envelope platform source compressed) =
      .ok (.some (platform.sha256Hex source, toBase64url compressed)) := by
  obtain ⟨unknown, known⟩ := marker_of_envelope platform source compressed
  have digits := platform.sha256Hex_digits source
  have size := platform.sha256Hex_length source
  have text : toBase64url compressed ≠ [] := toBase64url_ne_nil some
  have textDigits := toBase64url_digits compressed
  have textSize : 0 < (toBase64url compressed).length := List.length_pos_iff.mpr text
  have parts : (envelope platform source compressed).drop envelopeMarker.length =
      platform.sha256Hex source ++ colon :: toBase64url compressed := by
    simp [envelope]
  have separator : (platform.sha256Hex source ++ colon :: toBase64url compressed).idxOf colon =
      64 := by
    rw [List.idxOf_append_of_notMem (colon_not_hex digits), List.idxOf_cons_self, size]
  have bound : ¬ (toBase64url compressed).length > (config.maxCompressedBytes * 4 + 2) / 3 + 2 := by
    rw [length_toBase64url]
    omega
  have digest : (platform.sha256Hex source ++ colon :: toBase64url compressed).take 64 =
      platform.sha256Hex source := by
    rw [← size, List.take_left]
  have encoded : (platform.sha256Hex source ++ colon :: toBase64url compressed).drop 65 =
      toBase64url compressed := by
    rw [List.drop_append, List.drop_eq_nil_of_le (by omega), size]
    rfl
  simp [openEnvelope, unknown, known, parts, separator, digest, encoded, digits, size, text,
    textDigits, bound]

theorem validate_envelope (platform : Platform) (config : CodecConfig) (quality : Nat)
    (text : String) (value : JsString)
    (small : (platform.compress quality (utf8 (ofString text))).length ≤ config.maxCompressedBytes)
    (short : (utf8 (ofString text)).length ≤ config.maxDecompressedBytes) :
    (validate platform config value (platform.sha256Hex (utf8 (ofString text)))
      (toBase64url (platform.compress quality (utf8 (ofString text))))).map Prod.fst =
      .ok (ofString text) := by
  have some : (platform.compress quality (utf8 (ofString text))).length ≠ 0 :=
    fun empty => platform.compress_ne_nil _ _ (List.length_eq_zero_iff.mp empty)
  have output : brotliDecompress platform config.maxDecompressedBytes
      (platform.compress quality (utf8 (ofString text))) = .ok (utf8 (ofString text)) := by
    simp [brotliDecompress, platform.decompress_compress, Nat.not_lt.mpr short]
  simp only [validate, fromBase64url_toBase64url, some, ne_eq, not_true_eq_false, decide_false,
    Bool.or_self, Bool.false_eq_true, if_false, Nat.not_lt.mpr small, output,
    Nat.not_lt.mpr short, toUtf8String_utf8]
  rfl

variable {platform : Platform} {payload : EncodedPayload}

theorem encode_cases {config : CodecConfig} {value : JsString}
    (encoded : encode platform config value = .ok payload) : payload.value = value ∨
      payload.value = envelope platform (utf8 value)
          (platform.compress config.brotliQuality (utf8 value)) ∧
        (utf8 value).length ≤ config.maxDecompressedBytes ∧
        (platform.compress config.brotliQuality (utf8 value)).length ≤
          config.maxCompressedBytes := by
  unfold encode at encoded
  simp only at encoded
  split at encoded
  · cases encoded
    exact .inl rfl
  · split at encoded
    · cases encoded
    · rename_i short
      split at encoded
      · cases encoded
      · rename_i small
        split at encoded
        · cases encoded
          exact .inl rfl
        · cases encoded
          exact .inr ⟨rfl, Nat.not_lt.mp short, Nat.not_lt.mp small⟩

theorem decodeUncached_encode {encoder decoder : CodecConfig} {text : String}
    (plain : unknownMarker.isPrefixOf (ofString text) = false)
    (encoded : encode platform encoder (ofString text) = .ok payload)
    (compressed : encoder.maxCompressedBytes ≤ decoder.maxCompressedBytes)
    (decompressed : encoder.maxDecompressedBytes ≤ decoder.maxDecompressedBytes) :
    decodeUncached platform decoder payload.value = .ok (ofString text) := by
  rcases encode_cases encoded with same | ⟨same, short, small⟩
  · simp [decodeUncached, openEnvelope, same, plain]
  · rw [decodeUncached, same, openEnvelope_envelope platform decoder _
      (platform.compress_ne_nil _ _) (small.trans compressed)]
    exact validate_envelope platform decoder _ text _ (small.trans compressed)
      (short.trans decompressed)

section Runs
variable (platform : Platform) (config : CodecConfig)

abbrev SoundCache (cache : DecodeCache) : Prop :=
  Sound (fun value decoded => decodeUncached platform config value = .ok decoded)
    config.decodeCacheMaxBytes cache

variable {platform config} {cache : DecodeCache}

theorem decode_spec (sound : SoundCache platform config cache) (value : JsString) :
    SoundCache platform config (decode platform config cache value).1 ∧
      (decode platform config cache value).2 = decodeUncached platform config value := by
  cases opened : openEnvelope config value with
  | error error => simp [decode, decodeUncached, opened, sound]
  | ok parts =>
    cases parts with
    | none => simp [decode, decodeUncached, opened, sound]
    | some parts =>
      simp only [decode, opened]
      have own : decodeUncached platform config value =
          (validate platform config value parts.1 parts.2).map Prod.fst := by
        simp [decodeUncached, opened]
      rw [own]
      exact memo_spec sound fun decoded => by rw [own]

theorem soundCache_empty : SoundCache platform config empty := sound_empty

theorem decodeAll_spec (sound : SoundCache platform config cache) (values : List JsString) :
    SoundCache platform config (decodeAll platform config cache values).1 ∧
      (decodeAll platform config cache values).2 = values.map (decodeUncached platform config) := by
  induction values generalizing cache with
  | nil => exact ⟨sound, rfl⟩
  | cons value rest ih =>
    obtain ⟨next, result⟩ := decode_spec sound value
    obtain ⟨final, results⟩ := ih next
    refine ⟨final, ?_⟩
    rw [List.map_cons, ← result, ← results]
    rfl

end Runs

/-- A text that does not look like an envelope comes back from every codec whose limits are at
least those of the encoder, whatever it decoded before; and in every run of a codec the calls
return what they return without a cache, and the bytes of the cache are counted and
bounded. -/
theorem payload_codec_correct (platform : Platform) :
    (∀ (encoderOptions decoderOptions : CodecOptions) (earlier : List JsString) (text : String)
        (payload : EncodedPayload),
      unknownMarker.isPrefixOf (ofString text) = false →
      encode platform (codecConfig encoderOptions) (ofString text) = .ok payload →
      (codecConfig encoderOptions).maxCompressedBytes ≤
        (codecConfig decoderOptions).maxCompressedBytes →
      (codecConfig encoderOptions).maxDecompressedBytes ≤
        (codecConfig decoderOptions).maxDecompressedBytes →
      (decode platform (codecConfig decoderOptions)
        (decodeAll platform (codecConfig decoderOptions) empty earlier).1 payload.value).2 =
        .ok (ofString text)) ∧
    ∀ (options : CodecOptions) (values : List JsString),
      (decodeAll platform (codecConfig options) empty values).2 =
        values.map (decodeUncached platform (codecConfig options)) ∧
      (decodeAll platform (codecConfig options) empty values).1.total =
        bytesOf (decodeAll platform (codecConfig options) empty values).1.entries ∧
      (decodeAll platform (codecConfig options) empty values).1.total ≤
        (codecConfig options).decodeCacheMaxBytes := by
  constructor
  · intro encoderOptions decoderOptions earlier text payload plain encoded compressed decompressed
    have reached : SoundCache platform (codecConfig decoderOptions) _ :=
      (decodeAll_spec soundCache_empty earlier).1
    rw [(decode_spec reached payload.value).2]
    exact decodeUncached_encode plain encoded compressed decompressed
  · intro options values
    obtain ⟨sound, results⟩ : SoundCache platform (codecConfig options) _ ∧ _ :=
      decodeAll_spec soundCache_empty values
    exact ⟨results, sound.counted, sound.within⟩

def marking : Platform where
  compress _ bytes := 0 :: bytes
  decompress
    | [] => .error "unexpected end of file"
    | _ :: bytes => .ok bytes
  outputTooLarge _ := "output too large"
  sha256Hex _ := List.replicate 64 (.scalar '0')
  replaceInvalid _ := []
  decompress_compress _ _ := rfl
  compress_ne_nil _ _ := List.cons_ne_nil _ _
  sha256Hex_length _ := List.length_replicate
  sha256Hex_digits _ := by decide +kernel

def defaults : CodecOptions := ⟨none, .absent, .absent, .absent, .absent, .absent⟩

theorem payload_codec_correct_short :
    (decode marking (codecConfig defaults)
      (decodeAll marking (codecConfig defaults) empty [ofString "apq1:zip"]).1
      (ofString "hi")).2 = .ok (ofString "hi") :=
  (payload_codec_correct marking).1 defaults defaults [ofString "apq1:zip"] "hi"
    ⟨ofString "hi", false, 2, 2⟩ (by decide +kernel) rfl (Nat.le_refl _) (Nat.le_refl _)

end MastopodFederation.Guarantees.PayloadRoundTrip
