import MastopodFederation.Lib.Logged
import MastopodFederation.Lib.TextLines
import MastopodFederation.Source.InboundVerification
import Mathlib

/-!
# What an HTTP signature binds

With a signature that is good for one message and a hash without collisions, two accepted
requests with the same signature have the same signing string, whichever of the four verifiers
accepts them. It determines the names it lists and their values, and the body where the list
names the digest that is sent. What the list leaves out is not bound.
-/
namespace MastopodFederation.Guarantees.SignatureBinding
open Lib.LuaTable Lib.Logged Lib.TextLines Source.DelayedQueue Source.HttpSignature
open Source.InboundVerification (Answers InboundEnvelope fetchActorDocument signatureParams
  extractPublicKeyPemFromVerificationDocument resolveActorUriFromVerificationDocument
  verifySignature verifyWithDocument)

structure Secure (crypto : Crypto) : Prop where
  unforgeable : ∀ publicKeyPem signature message other,
    crypto.verify publicKeyPem message signature = .ok true →
      crypto.verify publicKeyPem other signature = .ok true → message = other
  collisionFree : ∀ body other, crypto.sha256 body = crypto.sha256 other → body = other

inductive Submission where
  | inbound (answers : Answers) (envelope : InboundEnvelope)
  | owner (env : Environment) (req : Request) (identifier domain : String) (rawBody : Option Bytes)
  | anyActor (env : Environment) (req : Request) (rawBody : Bytes)
  | followersSync (env : Environment) (identifier : String) (req : Request)

namespace Submission

def method : Submission → String
  | .inbound _ envelope => envelope.method
  | .owner _ req _ _ _ => req.method
  | .anyActor _ _ _ => "POST"
  | .followersSync _ _ _ => "GET"

def path : Submission → String
  | .inbound _ envelope => envelope.path
  | .owner _ req _ _ _ | .anyActor _ req _ | .followersSync _ _ req => req.url

def header : Submission → String → Option HeaderValue
  | .inbound _ envelope, name => (envelope.header name).map HeaderValue.one
  | .owner _ req _ _ _, name | .anyActor _ req _, name | .followersSync _ _ req, name =>
    req.headers name

def body : Submission → Bytes
  | .inbound _ envelope => envelope.body.toUTF8.toList
  | .owner _ _ _ _ rawBody => rawBody.getD []
  | .anyActor _ _ rawBody => rawBody
  | .followersSync _ _ _ => []

def value : Submission → String → Option String
  | .inbound _ envelope => Source.InboundVerification.signedValue envelope
  | .owner _ req _ _ _ => signedValue req.method req.url req.headers
  | .anyActor _ req _ => signedValue "POST" req.url req.headers
  | .followersSync _ _ req => signedValue "GET" req.url req.headers

def params : Submission → Option SignatureParams
  | .inbound _ envelope => (envelope.setHeader "signature").bind signatureParams
  | .owner _ req _ _ _ | .anyActor _ req _ => (readSignature anySize anySize req.headers).toOption
  | .followersSync _ _ req => (readSignature (fun raw => raw.utf8ByteSize ≤ maxSignatureHeaderBytes)
      (fun params => params.signature.utf8ByteSize ≤ maxSignatureValueBytes &&
        params.headers.utf8ByteSize ≤ maxSignedHeadersBytes) req.headers).toOption

def publicKeyPem (keyId : String) : Submission → Option String
  | .inbound answers _ =>
    match (fetchActorDocument answers keyId).1 with
    | .ok fetched => (fetched.filter jsTruthy).bind extractPublicKeyPemFromVerificationDocument
    | .error _ => none
  | .owner env _ _ _ _ | .anyActor env _ _ => (fetchKey env keyId).toOption
  | .followersSync env _ _ => env.fetchRemoteKeyDocument keyId

def Accepted (crypto : Crypto) : Submission → Prop
  | .inbound answers envelope => ∃ actorUri, verifySignature crypto answers envelope = .valid actorUri
  | .owner env req identifier domain rawBody =>
    verifyOwnerHttpSignature crypto env req identifier domain rawBody = .ok ()
  | .anyActor env req rawBody => ∃ senderUri,
      verifyAnyActorHttpSignature crypto env req rawBody = .ok senderUri
  | .followersSync env identifier req => ∃ requestingBaseUri,
      followersSynchronization crypto env identifier req = .ok requestingBaseUri

end Submission

def listed (params : SignatureParams) : List String := params.names.map toLowerCase

namespace Submission

/-- What HTTP lets through: lines without breaks, a method without blanks and at most one
Digest header. -/
structure OnWire (s : Submission) : Prop where
  method : ' ' ∉ s.method.toList ∧ '\n' ∉ s.method.toList
  path : '\n' ∉ s.path.toList
  header : ∀ name value, s.header name = some value → '\n' ∉ value.text.toList
  digest : ∀ texts, s.header "digest" ≠ some (.many texts)

def signingText (s : Submission) (params : SignatureParams) : String :=
  "\n".intercalate (signingLines s.value params.names)

def Signs (s : Submission) (params : SignatureParams) (name value : String) : Prop :=
  name ∈ listed params ∧ s.value name = some value

structure Passed (crypto : Crypto) (s : Submission) (params : SignatureParams) (pem : String) :
    Prop where
  read : s.params = some params
  key : s.publicKeyPem params.keyId = some pem
  digest : ∀ text, s.header "digest" = some (.one text) → text ≠ "" →
    text = expectedDigest crypto s.body
  verified : crypto.verify pem (s.signingText params) params.signature = .ok true

end Submission

structure Bound (s t : Submission) (params params' : SignatureParams) : Prop where
  values : ∀ name value, s.Signs params name value ↔ t.Signs params' name value
  target : "(request-target)" ∈ listed params → "(request-target)" ∈ listed params' ∧
    toLowerCase s.method = toLowerCase t.method ∧ s.path = t.path
  body : "digest" ∈ listed params → (∃ text, s.header "digest" = some (.one text) ∧ text ≠ "") →
    s.body = t.body

section
variable {crypto : Crypto}

variable {params : SignatureParams}

theorem checkSignature_ok {method : String} {req : Request} {body : Bytes} {pem : String}
    (passed : checkSignature crypto method req body pem params = .ok ()) :
    (∀ text, req.headers "digest" = some (.one text) → text = expectedDigest crypto body) ∧
      crypto.verify pem (buildSigningString method req.url req.headers params.names)
        params.signature = .ok true := by
  simp only [checkSignature] at passed
  split at passed
  case isTrue => simp at passed
  case isFalse matching =>
    constructor
    · intro text sent
      simpa [sent, digestMatches] using matching
    · split at passed
      case h_1 verified => exact verified
      case h_2 => simp at passed
      case h_3 => simp at passed

theorem verifyWithDocument_valid {envelope : InboundEnvelope}
    {document : Json} {actorUri : String}
    (valid : verifyWithDocument crypto envelope params document =
      .valid actorUri) :
    ∃ pem, extractPublicKeyPemFromVerificationDocument document = some pem ∧
      (∀ text, envelope.setHeader "digest" = some text →
        text = expectedDigest crypto envelope.body.toUTF8.toList) ∧
      crypto.verify pem (Source.InboundVerification.buildSigningString envelope params.names)
        params.signature = .ok true := by
  simp only [verifyWithDocument] at valid
  split at valid
  case h_1 => simp at valid
  case h_2 pem key =>
    split at valid
    case isTrue => simp at valid
    case isFalse matching =>
      refine ⟨pem, key, ?_, ?_⟩
      · intro text sent
        simpa [sent, digestMatches] using matching
      · split at valid
        case h_1 => simp at valid
        case h_2 => simp at valid
        case h_3 verified => exact verified

variable {s : Submission}

theorem passed_of_accepted (accepted : s.Accepted crypto) :
    ∃ params pem, s.Passed crypto params pem := by
  cases s with
  | inbound answers envelope =>
    obtain ⟨actorUri, valid⟩ := accepted
    simp only [verifySignature] at valid
    split at valid
    case h_1 => simp at valid
    case h_2 header sent =>
      split at valid
      case h_1 => simp at valid
      case h_2 params parsed =>
        split at valid
        case h_1 => simp at valid
        case h_2 fetched answered =>
          split at valid
          case h_1 => simp at valid
          case h_2 document present =>
            obtain ⟨pem, key, digest, verified⟩ := verifyWithDocument_valid valid
            refine ⟨params, pem, ?_⟩
            constructor
            case read => simp [Submission.params, sent, parsed]
            case key => simp [Submission.publicKeyPem, answered, present, key]
            case digest =>
              intro text read nonempty
              apply digest
              have header : envelope.header "digest" = some text := by
                simpa [Submission.header] using read
              simp [InboundEnvelope.setHeader, header, nonempty]
            case verified => exact verified
  | owner env req identifier domain rawBody =>
    obtain ⟨params, read, later⟩ := except_bind_ok.mp accepted
    dsimp only at later
    split at later
    case isTrue => simp at later
    case isFalse =>
      obtain ⟨pem, key, checked⟩ := except_bind_ok.mp later
      obtain ⟨digest, verified⟩ := checkSignature_ok checked
      refine ⟨params, pem, ?_⟩
      constructor
      case read => simp [Submission.params, read, Except.toOption]
      case key => simp [Submission.publicKeyPem, key, Except.toOption]
      case digest => exact fun text sent _ => digest text sent
      case verified => exact verified
  | anyActor env req rawBody =>
    obtain ⟨senderUri, accepted⟩ := accepted
    obtain ⟨params, read, later⟩ := except_bind_ok.mp accepted
    obtain ⟨pem, key, later⟩ := except_bind_ok.mp later
    obtain ⟨_, checked, _⟩ := except_bind_ok.mp later
    obtain ⟨digest, verified⟩ := checkSignature_ok checked
    refine ⟨params, pem, ?_⟩
    constructor
    case read => simp [Submission.params, read, Except.toOption]
    case key => simp [Submission.publicKeyPem, key, Except.toOption]
    case digest => exact fun text sent _ => digest text sent
    case verified => exact verified
  | followersSync env identifier req =>
    obtain ⟨requestingBaseUri, accepted⟩ := accepted
    simp only [followersSynchronization] at accepted
    split at accepted
    case isTrue => simp at accepted
    case isFalse =>
      obtain ⟨params, read, later⟩ := except_bind_ok.mp accepted
      split at later
      case h_1 => simp at later
      case h_2 pem key =>
        obtain ⟨_, checked, _⟩ := except_bind_ok.mp later
        obtain ⟨digest, verified⟩ := checkSignature_ok checked
        refine ⟨params, pem, ?_⟩
        constructor
        case read => simp [Submission.params, read, Except.toOption]
        case key => exact key
        case digest => exact fun text sent _ => digest text sent
        case verified => exact verified

theorem lowerChar_separator {c separator : Char} (small : separator.toNat < 0x41)
    (lowered : lowerChar c = separator) : c = separator := by
  simp only [lowerChar] at lowered
  split at lowered
  case isTrue upper =>
    have bound : c.toNat + 32 < 0xD800 := by
      rcases upper with ⟨_, above⟩ | ⟨_, above, _⟩
      · have : c.toNat ≤ 'Z'.toNat := above
        have : 'Z'.toNat = 0x5A := rfl
        omega
      · omega
    have shifted : (Char.ofNat (c.toNat + 32)).toNat = c.toNat + 32 := by
      rw [Char.ofNat, dif_pos (.inl bound)]
      rfl
    have same := congrArg Char.toNat lowered
    rw [shifted] at same
    rcases upper with ⟨below, _⟩ | ⟨below, _⟩
    · have : 'A'.toNat ≤ c.toNat := below
      have : 'A'.toNat = 0x41 := rfl
      omega
    · omega
  case isFalse => exact lowered

def begun : Scan → List Char
  | .quoted _ value => value
  | .outside _ | .equals _ => []

variable {allowEmpty : Bool}

theorem mem_scanStep {state : Scan} {c : Char} :
    (∀ d ∈ begun (scanStep allowEmpty state c).1, d ∈ begun state ∨ d = c) ∧
      ∀ key value, (scanStep allowEmpty state c).2 = some (key, value) →
        ∀ d ∈ value.toList, d ∈ begun state := by
  cases state with
  | outside word => simp only [scanStep]; split <;> (try split) <;> simp [begun]
  | equals word => simp only [scanStep]; split <;> (try split) <;> simp [begun]
  | quoted word value =>
    simp only [scanStep]
    split
    · simp [begun]
    · split
      · simp [begun]
      · constructor
        · simp [begun]
        · rintro key found same d listed
          obtain ⟨-, rfl⟩ := Prod.mk.inj (Option.some.inj same)
          simpa [begun] using listed

variable {value : String}

theorem mem_scan {state : Scan} {text : List Char} {key : String}
    (found : (key, value) ∈ scan allowEmpty state text) :
    ∀ c ∈ value.toList, c ∈ begun state ∨ c ∈ text := by
  induction text generalizing state with
  | nil => simp [scan] at found
  | cons first rest ih =>
    obtain ⟨grows, yields⟩ := @mem_scanStep allowEmpty state first
    intro c listed
    rcases List.mem_append.mp found with now | later
    · exact .inl (yields key value (Option.mem_toList.mp now) c listed)
    · rcases ih later c listed with before | after
      · rcases grows c before with held | same
        · exact .inl held
        · exact .inr (by simp [same])
      · exact .inr (List.mem_cons_of_mem first after)

theorem mem_parseSignatureHeader {raw key : String}
    (found : (parseSignatureHeader allowEmpty raw).lookup key = some value) :
    ∀ c ∈ value.toList, c ∈ raw.toList := by
  intro c listed
  rcases mem_scan (List.mem_reverse.mp (mem_of_lookup found)) c listed with held | inText
  · simp [begun] at held
  · exact inText

theorem readSignature_ok {headerFits : String → Bool} {paramsFit : SignatureParams → Bool}
    {headers : String → Option HeaderValue}
    (read : readSignature headerFits paramsFit headers = .ok params) :
    ∃ raw, headers "signature" = some (.one raw) ∧
      (parseSignatureHeader true raw).lookup "headers" = some params.headers := by
  simp only [readSignature] at read
  split at read
  case h_1 raw sent =>
    refine ⟨raw, sent, ?_⟩
    split at read
    case isTrue => simp at read
    case isFalse =>
      split at read
      case h_1 keyId signature names keyIdRead signatureRead namesRead =>
        split at read
        case isTrue => simp at read
        case isFalse =>
          obtain rfl := Except.ok.inj read
          exact namesRead
      case h_2 => simp at read
  case h_2 => simp at read

theorem params_headers (read : s.params = some params) :
    ∃ raw allowEmpty, s.header "signature" = some (.one raw) ∧
      (parseSignatureHeader allowEmpty raw).lookup "headers" = some params.headers := by
  have fastify : ∀ headerFits paramsFit headers,
      (readSignature headerFits paramsFit headers).toOption = some params →
        ∃ raw allowEmpty, headers "signature" = some (.one raw) ∧
          (parseSignatureHeader allowEmpty raw).lookup "headers" = some params.headers := by
    intro headerFits paramsFit headers same
    cases result : readSignature headerFits paramsFit headers with
    | error refusal => simp [result, Except.toOption] at same
    | ok found =>
      obtain rfl : found = params := by simpa [result, Except.toOption] using same
      obtain ⟨raw, sent, names⟩ := readSignature_ok result
      exact ⟨raw, true, sent, names⟩
  cases s with
  | inbound answers envelope =>
    obtain ⟨raw, sent, parsed⟩ := Option.bind_eq_some_iff.mp read
    refine ⟨raw, false, ?_, ?_⟩
    · have := (Option.filter_eq_some_iff.mp sent).1
      simp [Submission.header, this]
    · simp only [signatureParams] at parsed
      split at parsed
      case h_1 keyId signature names keyIdRead signatureRead namesRead =>
        obtain rfl := Option.some.inj parsed
        exact namesRead
      case h_2 => simp at parsed
  | owner env req identifier domain rawBody => exact fastify _ _ _ read
  | anyActor env req rawBody => exact fastify _ _ _ read
  | followersSync env identifier req => exact fastify _ _ _ read

variable {name : String}

theorem value_cases (signed : s.value name = some value) :
    (name = "(request-target)" ∧ value = requestTarget s.method s.path) ∨
      (∃ header, s.header name = some header ∧ value = header.text) ∨ value = "undefined" := by
  have fastify : ∀ method path headers, signedValue method path headers name = some value →
      (name = "(request-target)" ∧ value = requestTarget method path) ∨
        ∃ header, headers name = some header ∧ value = header.text := by
    intro method path headers same
    simp only [signedValue] at same
    split at same
    case isTrue isTarget => exact .inl ⟨isTarget, (Option.some.inj same).symm⟩
    case isFalse =>
      obtain ⟨header, sent, rfl⟩ := Option.map_eq_some_iff.mp same
      exact .inr ⟨header, sent, rfl⟩
  cases s with
  | inbound answers envelope =>
    simp only [Submission.value, Source.InboundVerification.signedValue] at signed
    split at signed
    case isTrue isTarget => exact .inl ⟨isTarget, (Option.some.inj signed).symm⟩
    case isFalse =>
      refine .inr ?_
      split at signed
      case isTrue =>
        cases sent : envelope.header name with
        | none => simp_all
        | some text => exact .inl ⟨.one text, by simp [Submission.header, sent], by simp_all [HeaderValue.text]⟩
      case isFalse =>
        have sent := (Option.filter_eq_some_iff.mp signed).1
        exact .inl ⟨.one value, by simp [Submission.header, sent], rfl⟩
  | owner env req identifier domain rawBody => exact (fastify _ _ _ signed).imp_right .inl
  | anyActor env req rawBody => exact (fastify _ _ _ signed).imp_right .inl
  | followersSync env identifier req => exact (fastify _ _ _ signed).imp_right .inl

theorem value_target (s : Submission) :
    s.value "(request-target)" = some (requestTarget s.method s.path) := by
  cases s <;> rfl

theorem listed_spec (names : name ∈ listed params) :
    ' ' ∉ name.toList ∧ ('\n' ∉ params.headers.toList → '\n' ∉ name.toList) := by
  obtain ⟨token, inList, rfl⟩ := List.mem_map.mp names
  obtain ⟨piece, cut, rfl⟩ := List.mem_map.mp inList
  have lowered : ∀ separator : Char, separator.toNat < 0x41 →
      separator ∈ (toLowerCase (String.ofList piece)).toList → separator ∈ piece := by
    intro separator small found
    simp only [toLowerCase, String.toList_ofList, List.mem_map] at found
    obtain ⟨c, inPiece, same⟩ := found
    exact lowerChar_separator small same ▸ inPiece
  constructor
  · intro found
    exact (mem_piece cut ' ' (lowered ' ' (by decide) found)).2 rfl
  · intro oneLine found
    exact oneLine (mem_piece cut '\n' (lowered '\n' (by decide) found)).1

theorem mem_signingLines {line : String} :
    line ∈ signingLines s.value params.names ↔
      ∃ name value, s.Signs params name value ∧ line = name ++ ": " ++ value := by
  simp only [signingLines, List.mem_filterMap, Option.map_eq_some_iff]
  constructor
  · rintro ⟨token, inList, value, signed, rfl⟩
    exact ⟨toLowerCase token, value, ⟨List.mem_map_of_mem inList, signed⟩, rfl⟩
  · rintro ⟨name, value, ⟨names, signed⟩, rfl⟩
    obtain ⟨token, inList, rfl⟩ := List.mem_map.mp names
    exact ⟨token, inList, value, signed, rfl⟩

theorem line_oneLine (wire : s.OnWire)
    (read : s.params = some params) {line : String}
    (inText : line ∈ signingLines s.value params.names) :
    line.toList ≠ [] ∧ '\n' ∉ line.toList := by
  obtain ⟨name, value, ⟨names, signed⟩, rfl⟩ := mem_signingLines.mp inText
  have oneLine : '\n' ∉ params.headers.toList := by
    obtain ⟨raw, allowEmpty, sent, found⟩ := params_headers read
    exact fun inHeaders => wire.header _ _ sent (mem_parseSignatureHeader found _ inHeaders)
  have inName := (listed_spec names).2 oneLine
  have inValue : '\n' ∉ value.toList := by
    rcases value_cases signed with ⟨-, rfl⟩ | ⟨header, sent, rfl⟩ | rfl
    · have inMethod : '\n' ∉ (toLowerCase s.method).toList := by
        intro found
        simp only [toLowerCase, String.toList_ofList, List.mem_map] at found
        obtain ⟨c, inMethod, same⟩ := found
        exact wire.method.2 (lowerChar_separator (by decide) same ▸ inMethod)
      simp [requestTarget, inMethod, wire.path]
    · exact wire.header name header sent
    · decide
  constructor
  · simp
  · simp [inName, inValue]

variable {params' : SignatureParams}

theorem signingLines_eq {t : Submission} (wire : s.OnWire)
    (wire' : t.OnWire) (read : s.params = some params) (read' : t.params = some params')
    (same : s.signingText params = t.signingText params') :
    signingLines s.value params.names = signingLines t.value params'.names := by
  have joined := congrArg String.toList same
  simp only [Submission.signingText, String.toList_intercalate] at joined
  have lines := intercalate_inj ?_ ?_ joined
  · exact List.map_injective_iff.mpr (fun _ _ => String.toList_inj.mp) lines
  · intro piece found
    obtain ⟨line, inText, rfl⟩ := List.mem_map.mp found
    exact line_oneLine wire read inText
  · intro piece found
    obtain ⟨line, inText, rfl⟩ := List.mem_map.mp found
    exact line_oneLine wire' read' inText

theorem signs_of_lines {t : Submission}
    (same : signingLines s.value params.names = signingLines t.value params'.names)
    (signs : s.Signs params name value) : t.Signs params' name value := by
  have inText := mem_signingLines.mpr ⟨name, value, signs, rfl⟩
  rw [same] at inText
  obtain ⟨name', value', signs', line⟩ := mem_signingLines.mp inText
  have entry : (name.toList ++ [':']) ++ ' ' :: value.toList =
      (name'.toList ++ [':']) ++ ' ' :: value'.toList := by
    have := congrArg String.toList line
    simpa using this
  have left : ' ' ∉ name.toList ++ [':'] := by simp [(listed_spec signs.1).1]
  have right : ' ' ∉ name'.toList ++ [':'] := by simp [(listed_spec signs'.1).1]
  obtain ⟨names, values⟩ := entry_inj left right entry
  obtain rfl := String.toList_inj.mp (List.append_cancel_right names)
  obtain rfl := String.toList_inj.mp values
  exact signs'

theorem value_of_header {text : String} (other : name ≠ "(request-target)")
    (sent : s.header name = some (.one text)) (nonempty : text ≠ "") : s.value name = some text := by
  have fastify : ∀ method path headers, headers name = some (.one text) →
      signedValue method path headers name = some text := by
    intro method path headers same
    simp [signedValue, other, same, HeaderValue.text]
  cases s with
  | inbound answers envelope =>
    have header : envelope.header name = some text := by simpa [Submission.header] using sent
    simp only [Submission.value, Source.InboundVerification.signedValue, if_neg other]
    split
    · simp [header]
    · simp [InboundEnvelope.setHeader, header, nonempty]
  | owner env req identifier domain rawBody => exact fastify _ _ _ sent
  | anyActor env req rawBody => exact fastify _ _ _ sent
  | followersSync env identifier req => exact fastify _ _ _ sent

theorem requestTarget_inj {method method' path path' : String} (token : ' ' ∉ method.toList)
    (token' : ' ' ∉ method'.toList)
    (same : requestTarget method path = requestTarget method' path') :
    toLowerCase method = toLowerCase method' ∧ path = path' := by
  have blank : ∀ {text : String}, ' ' ∉ text.toList → ' ' ∉ (toLowerCase text).toList := by
    intro text none found
    simp only [toLowerCase, String.toList_ofList, List.mem_map] at found
    obtain ⟨c, inText, lowered⟩ := found
    exact none (lowerChar_separator (by decide) lowered ▸ inText)
  have entry : (toLowerCase method).toList ++ ' ' :: path.toList =
      (toLowerCase method').toList ++ ' ' :: path'.toList := by
    have := congrArg String.toList same
    simpa [requestTarget] using this
  obtain ⟨methods, paths⟩ := entry_inj (blank token) (blank token') entry
  exact ⟨String.toList_inj.mp methods, String.toList_inj.mp paths⟩

theorem digest_of_signed {pem digest : String}
    {body : Bytes} (wire : s.OnWire) (passed : s.Passed crypto params pem)
    (signed : s.value "digest" = some digest) (of : digest = expectedDigest crypto body) :
    expectedDigest crypto s.body = digest := by
  have start : ∀ text, digest = "SHA-256=" ++ text → digest ≠ "undefined" ∧ digest ≠ "" := by
    rintro text rfl
    constructor
    · intro same
      have := congrArg String.toList same
      simp at this
    · simp
  have known := start _ of
  rcases value_cases signed with ⟨target, -⟩ | ⟨header, sent, text⟩ | absent
  · exact absurd target (by decide)
  · cases header with
    | one sentText =>
      obtain rfl : digest = sentText := text
      exact (passed.digest digest sent known.2).symm
    | many texts => exact absurd sent (wire.digest texts)
  · exact absurd absent known.1

end

def onOneLine (message : String) : String :=
  String.ofList (message.toList.map (Equiv.swap '\n' '_'))

def spelled : Crypto where
  sha256 body := String.ofList (body.map fun byte => Char.ofNat byte.toNat)
  verify publicKeyPem message signature := .ok (signature = publicKeyPem ++ onOneLine message)

theorem onOneLine_inj {message other : String} (same : onOneLine message = onOneLine other) :
    message = other := by
  have swapped := String.ofList_injective same
  exact String.toList_inj.mp (List.map_injective_iff.mpr (Equiv.injective _) swapped)

theorem spelled_secure : Secure spelled where
  unforgeable := by
    intro publicKeyPem signature message other fits fitsOther
    have first : signature = publicKeyPem ++ onOneLine message := by simpa [spelled] using fits
    have second : signature = publicKeyPem ++ onOneLine other := by simpa [spelled] using fitsOther
    exact onOneLine_inj ((String.append_right_inj publicKeyPem).mp (first.symm.trans second))
  collisionFree := by
    intro body other same
    have chars := String.ofList_injective same
    refine List.map_injective_iff.mpr (fun byte byte' equal => ?_) chars
    have shown : ∀ byte : UInt8, (Char.ofNat byte.toNat).toNat = byte.toNat := by
      intro byte
      have small : byte.toNat < 0xD800 := Nat.lt_trans byte.toNat_lt (by decide)
      rw [Char.ofNat, dif_pos (.inl small)]
      rfl
    have numbers := congrArg Char.toNat equal
    rw [shown, shown] at numbers
    exact UInt8.toNat_inj.mp numbers

def aliceKey : Json := .obj [("id", .str "https://a.example/alice"), ("type", .str "Person"),
  ("publicKey", .obj [("owner", .str "https://a.example/alice"), ("publicKeyPem", .str "PEM")])]

def served : Answers where
  getCachedActorDoc _ := .ok none
  request url :=
    if url = "https://a.example/users/alice" then .ok ⟨200, .ok aliceKey⟩ else .error "getaddrinfo"
  cacheActorDoc := .ok ()

def served' : Environment where
  encodeURIComponent text := text
  parseUrl _ := some ⟨"https:", "", "", "a.example", "https://a.example", "/users/alice", "", "#key"⟩
  fetchDocument url := if url = "https://a.example/users/alice" then some aliceKey else none
  fetchRemoteKeyDocument _ := some "PEM"

def envelopeOf (path body : String) (headers : List (String × String)) : InboundEnvelope where
  envelopeId := "1"
  method := "POST"
  path := path
  headers := headers
  body := body
  remoteIp := "192.0.2.1"
  receivedAt := 0
  attempt := 0
  notBeforeMs := 0
  verification := none

def delivered (path body : String) (headers : List (String × String)) : Submission :=
  .inbound served (envelopeOf path body headers)

def posted (path : String) (headers : List (String × String)) : Request where
  method := "POST"
  url := path
  headers name := (headers.lookup name).map HeaderValue.one

def dated : SignatureParams where
  keyId := "https://a.example/users/alice#key"
  signature := "PEMdate: D"
  headers := "date"

def datedSignature : String :=
  "keyId=\x22https://a.example/users/alice#key\x22,headers=\x22date\x22,signature=\x22PEMdate: D\x22"

theorem parse_dated (allowEmpty : Bool) : parseSignatureHeader allowEmpty datedSignature =
    [("signature", dated.signature), ("headers", dated.headers), ("keyId", dated.keyId)] := by
  have chars : datedSignature.toList = _ := String.toList_ofList
  rw [parseSignatureHeader, chars]
  cases allowEmpty <;> rfl

variable {params : SignatureParams}

theorem signatureParams_of_parse {raw : String}
    (parsed : parseSignatureHeader false raw = [("signature", params.signature),
      ("headers", params.headers), ("keyId", params.keyId)]) : signatureParams raw = some params := by
  unfold signatureParams
  rw [parsed]
  rfl

def datedHeaders (host : String) : List (String × String) :=
  [("host", host), ("date", "D"), ("signature", datedSignature)]

def inboundAt (path host body : String) : Submission := delivered path body (datedHeaders host)

def ownerAt (path host : String) (body : Bytes) : Submission :=
  .owner served' (posted path (datedHeaders host)) "alice" "a.example" (some body)

def anyActorAt (path host : String) (body : Bytes) : Submission :=
  .anyActor served' (posted path (datedHeaders host)) body

def followersAt (path host : String) : Submission :=
  .followersSync served' "bob" (posted path (datedHeaders host))

theorem signingLines_dated {signed : String → Option String} (date : signed "date" = some "D") :
    "\n".intercalate (signingLines signed dated.names) = "date: D" := by
  have names : dated.names = ["date"] := by decide
  have lower : toLowerCase "date" = "date" := by decide
  simp only [names, signingLines, List.filterMap_cons, List.filterMap_nil, lower, date,
    Option.map_some, String.intercalate_singleton]
  rfl

theorem verify_dated : spelled.verify "PEM" "date: D" dated.signature = .ok true := by
  decide +kernel

theorem readSignature_dated (headerFits : String → Bool) (paramsFit : SignatureParams → Bool)
    (fits : headerFits datedSignature = true) (fit : paramsFit dated = true) (path host : String) :
    readSignature headerFits paramsFit (posted path (datedHeaders host)).headers = .ok dated := by
  have sent : (posted path (datedHeaders host)).headers "signature" =
      some (.one datedSignature) := rfl
  have nonempty : datedSignature ≠ "" := by decide
  have keyed : dated.keyId ≠ "" := by decide
  have params : (⟨dated.keyId, dated.signature, dated.headers⟩ : SignatureParams) = dated := rfl
  simp [readSignature, sent, parse_dated, nonempty, fits, List.lookup, params, keyed, fit]

theorem checkSignature_dated (method path host : String) (body : Bytes) :
    checkSignature spelled method (posted path (datedHeaders host)) body "PEM" dated = .ok () := by
  have undigested : (posted path (datedHeaders host)).headers "digest" = none := rfl
  have text : buildSigningString method (posted path (datedHeaders host)).url
      (posted path (datedHeaders host)).headers dated.names = "date: D" := signingLines_dated rfl
  simp [checkSignature, digestMatches, undigested, text, verify_dated]

theorem fetchKey_dated : fetchKey served' dated.keyId = .ok "PEM" := by decide +kernel

theorem owner_accepted (path host : String) (body : Bytes) :
    (ownerAt path host body).Accepted spelled := by
  have owner : beforeHash dated.keyId = "https://" ++ "a.example" ++ "/users/" ++
      served'.encodeURIComponent "alice" := by decide +kernel
  refine except_bind_ok.mpr ⟨dated, readSignature_dated anySize anySize rfl rfl path host, ?_⟩
  dsimp only
  rw [if_neg (not_not_intro owner)]
  exact except_bind_ok.mpr ⟨"PEM", fetchKey_dated, checkSignature_dated "POST" path host body⟩

theorem anyActor_accepted (path host : String) (body : Bytes) :
    (anyActorAt path host body).Accepted spelled := by
  refine ⟨beforeHash dated.keyId, ?_⟩
  refine except_bind_ok.mpr ⟨dated, readSignature_dated anySize anySize rfl rfl path host, ?_⟩
  refine except_bind_ok.mpr ⟨"PEM", fetchKey_dated, ?_⟩
  exact except_bind_ok.mpr ⟨(), checkSignature_dated "POST" path host body, rfl⟩

theorem followers_accepted (path host : String) : (followersAt path host).Accepted spelled := by
  refine ⟨"https://a.example/", ?_⟩
  have identifier : isIdentifier "bob" = true := by decide
  rw [followersSynchronization, identifier, Bool.not_true, if_neg Bool.false_ne_true]
  have base : extractServerBaseUriFromKeyId served' dated.keyId = some "https://a.example/" := by
    decide
  refine except_bind_ok.mpr ⟨dated, readSignature_dated _ _ (by decide) (by decide) path host, ?_⟩
  refine except_bind_ok.mpr ⟨(), checkSignature_dated "GET" path host [], ?_⟩
  rw [base]

theorem fetchActorDocument_dated :
    (fetchActorDocument served dated.keyId).1 = .ok (some aliceKey) := by
  have url : beforeHash dated.keyId = "https://a.example/users/alice" := by decide +kernel
  simp [fetchActorDocument, url, served]

theorem delivered_accepted {path body raw : String} {headers : List (String × String)}
    (sent : (envelopeOf path body headers).setHeader "signature" = some raw)
    (parsed : signatureParams raw = some params) (keyId : params.keyId = dated.keyId)
    (digest : digestMatches spelled
      (((envelopeOf path body headers).setHeader "digest").map HeaderValue.one)
        body.toUTF8.toList = true)
    (verified : spelled.verify "PEM" ((delivered path body headers).signingText params)
      params.signature = .ok true) : (delivered path body headers).Accepted spelled := by
  refine ⟨"https://a.example/alice", ?_⟩
  have truthy : jsTruthy aliceKey = true := rfl
  have pem : extractPublicKeyPemFromVerificationDocument aliceKey = some "PEM" := by decide
  have owner : resolveActorUriFromVerificationDocument dated.keyId aliceKey =
      some "https://a.example/alice" := by decide
  have fits : spelled.verify "PEM" (Source.InboundVerification.buildSigningString
      (envelopeOf path body headers) params.names) params.signature = .ok true := verified
  have compared : digestMatches spelled
      (((envelopeOf path body headers).setHeader "digest").map HeaderValue.one)
        (envelopeOf path body headers).body.toUTF8.toList = true := digest
  simp only [verifySignature, sent, parsed, keyId, fetchActorDocument_dated,
    Option.filter_some_pos truthy, verifyWithDocument, pem, compared, fits, owner]
  simp

theorem inbound_accepted (path host body : String) : (inboundAt path host body).Accepted spelled := by
  have nonempty : datedSignature ≠ "" := by decide
  have parsed : signatureParams datedSignature = some dated :=
    signatureParams_of_parse (parse_dated false)
  refine delivered_accepted ?_ parsed rfl rfl ?_
  · simp [InboundEnvelope.setHeader, InboundEnvelope.header, envelopeOf, datedHeaders, List.lookup,
      nonempty]
  · rw [Submission.signingText, signingLines_dated rfl, verify_dated]

structure Replayed (crypto : Crypto) (s t : Submission) : Prop where
  accepted : s.Accepted crypto
  replayed : t.Accepted crypto
  params : s.params = t.params
  key : ∀ keyId, s.publicKeyPem keyId = t.publicKeyPem keyId
  path : s.path ≠ t.path
  host : s.header "host" ≠ t.header "host"

def full : SignatureParams where
  keyId := dated.keyId
  signature := "PEM(request-target): post /inbox_digest: SHA-256=x"
  headers := "(request-target) digest"

def fullSignature : String :=
  "keyId=\x22https://a.example/users/alice#key\x22,headers=\x22(request-target) digest\x22," ++
    "signature=\x22PEM(request-target): post /inbox_digest: SHA-256=x\x22"

def fullyAt (date : String) : Submission :=
  delivered "/inbox" "x"
    [("host", "b.example"), ("date", date), ("digest", "SHA-256=x"), ("signature", fullSignature)]

theorem parse_full : parseSignatureHeader false fullSignature =
    [("signature", full.signature), ("headers", full.headers), ("keyId", full.keyId)] := by
  have chars : fullSignature.toList = _ :=
    String.toList_append.trans (congrArg₂ _ String.toList_ofList String.toList_ofList)
  rw [parseSignatureHeader, chars]
  rfl

theorem fullyAt_onWire {date : String} (oneLine : '\n' ∉ date.toList) : (fullyAt date).OnWire where
  method := by change ' ' ∉ "POST".toList ∧ '\n' ∉ "POST".toList; decide
  path := by change '\n' ∉ "/inbox".toList; decide
  header := by
    intro name value sent
    obtain ⟨text, found, rfl⟩ := Option.map_eq_some_iff.mp sent
    have listed := mem_of_lookup found
    simp only [envelopeOf, List.mem_cons, Prod.mk.injEq, List.not_mem_nil, or_false] at listed
    rcases listed with ⟨-, rfl⟩ | ⟨-, rfl⟩ | ⟨-, rfl⟩ | ⟨-, rfl⟩
    · decide
    · exact oneLine
    · decide
    · have chars : fullSignature.toList = _ :=
        String.toList_append.trans (congrArg₂ _ String.toList_ofList String.toList_ofList)
      change '\n' ∉ fullSignature.toList
      rw [chars]
      simp
  digest := by
    intro texts
    simp [fullyAt, delivered, Submission.header]

theorem signatureParams_full : signatureParams fullSignature = some full :=
  signatureParams_of_parse parse_full

theorem fullyAt_signature (date : String) : (envelopeOf "/inbox" "x" [("host", "b.example"),
    ("date", date), ("digest", "SHA-256=x"), ("signature", fullSignature)]).setHeader
      "signature" = some fullSignature := by
  have nonempty : fullSignature ≠ "" := by decide
  have sent : (envelopeOf "/inbox" "x" [("host", "b.example"), ("date", date),
      ("digest", "SHA-256=x"), ("signature", fullSignature)]).header "signature" =
        some fullSignature := rfl
  rw [InboundEnvelope.setHeader, sent]
  exact Option.filter_some_pos (by simpa using nonempty)

theorem fullyAt_accepted (date : String) : (fullyAt date).Accepted spelled := by
  have names : full.names = ["(request-target)", "digest"] := by decide +kernel
  have lines : signingLines (fullyAt date).value full.names =
      ["(request-target): post /inbox", "digest: SHA-256=x"] := by
    have target : toLowerCase "(request-target)" = "(request-target)" := by decide
    have digest : toLowerCase "digest" = "digest" := by decide
    have first : (fullyAt date).value "(request-target)" = some "post /inbox" := by
      rw [value_target]
      change some (requestTarget "POST" "/inbox") = _
      decide
    have second : (fullyAt date).value "digest" = some "SHA-256=x" :=
      value_of_header (by decide) rfl (by decide)
    simp only [names, signingLines, List.filterMap_cons, List.filterMap_nil, target, digest, first,
      second, Option.map_some]
    decide
  refine delivered_accepted (fullyAt_signature date) signatureParams_full rfl ?_ ?_
  · have sent : (envelopeOf "/inbox" "x" [("host", "b.example"), ("date", date),
        ("digest", "SHA-256=x"), ("signature", fullSignature)]).setHeader "digest" =
          some "SHA-256=x" := by
      simp [InboundEnvelope.setHeader, InboundEnvelope.header, envelopeOf, List.lookup]
    rw [sent]
    decide +kernel
  · change spelled.verify "PEM" ("\n".intercalate (signingLines (fullyAt date).value full.names))
      full.signature = .ok true
    rw [lines]
    decide +kernel

end MastopodFederation.Guarantees.SignatureBinding
