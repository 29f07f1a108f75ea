import MastopodFederation.Source.HttpSignature

/-!
# Verification of inbound envelopes

The envelope of queue/sidecar-redis-queue-core.ts with `createVerifiedInboundEnvelope` and
`parseInboundVerification`, and of delivery/inbound-worker.ts `verifySignature` with what it
reads of a key document and `fetchActorDocument`. Documents and the cache are read through
functions of the URL; the expiry of a cached document is left out.
-/
namespace MastopodFederation.Source.InboundVerification
open Lib.LuaTable DelayedQueue HttpSignature

structure Verification where
  source : String
  actorUri : String
  verifiedAt : Rat

structure InboundEnvelope where
  envelopeId : String
  method : String
  path : String
  headers : List (String × String)
  body : String
  remoteIp : String
  receivedAt : Int
  attempt : Int
  notBeforeMs : Int
  verification : Option Verification

def InboundEnvelope.header (envelope : InboundEnvelope) (name : String) : Option String :=
  envelope.headers.lookup name

/-- `envelope.headers[name]` where it counts as true. -/
def InboundEnvelope.setHeader (envelope : InboundEnvelope) (name : String) : Option String :=
  (envelope.header name).filter (· ≠ "")

def createVerifiedInboundEnvelope (envelopeId path body remoteIp verifiedActorUri : String)
    (headers : List (String × String)) (nowMs : Int) : InboundEnvelope where
  envelopeId := envelopeId
  method := "POST"
  path := path
  headers := headers
  body := body
  remoteIp := remoteIp
  receivedAt := nowMs
  attempt := 0
  notBeforeMs := 0
  verification := some ⟨"fedify-v2", verifiedActorUri, nowMs⟩

/-- Metadata that was read back from the stream. -/
def parseInboundVerification (metadata : Option Json) : Option Verification :=
  match metadata with
  | some (.obj entries) =>
    match entries.lookup "source", entries.lookup "actorUri", entries.lookup "verifiedAt" with
    | some (.str source), some (.str actorUri), some (.num verifiedAt) =>
      if source = "fedify-v2" then some ⟨source, actorUri, verifiedAt⟩ else none
    | _, _, _ => none
  | _ => none

def actorTypes : List String := ["Application", "Group", "Organization", "Person", "Service"]

def looksLikeActorType : Option Json → Bool
  | some (.str type) => actorTypes.contains type
  | some (.arr types) => types.any fun
    | .str type => actorTypes.contains type
    | _ => false
  | _ => false

def looksLikeActorDocument (document : List (String × Json)) : Bool :=
  looksLikeActorType (document.lookup "type") ||
    (nonEmptyText (document.lookup "inbox")).isSome ||
    (nonEmptyText (document.lookup "preferredUsername")).isSome ||
    (nonEmptyText (document.lookup "followers")).isSome ||
    (nonEmptyText (document.lookup "following")).isSome

/-- The record under `publicKey`. -/
def publicKeyOf (document : List (String × Json)) : List (String × Json) :=
  match document.lookup "publicKey" with
  | some (.obj publicKey) => publicKey
  | _ => []

def extractPublicKeyPemFromVerificationDocument : Json → Option String
  | .obj document =>
    (nonEmptyText (document.lookup "publicKeyPem")).or
      (nonEmptyText ((publicKeyOf document).lookup "publicKeyPem"))
  | _ => none

def ownerCandidate (document : List (String × Json)) : Option Json :=
  orElse (orElse (orElse (document.lookup "owner") (document.lookup "controller"))
    ((publicKeyOf document).lookup "owner")) ((publicKeyOf document).lookup "controller")

/-- The actor that a document names, if it is a record. -/
def namedActor (document : List (String × Json)) : Option String :=
  match nonEmptyText (ownerCandidate document) with
  | some owner => some owner
  | none =>
    match nonEmptyText (document.lookup "id") with
    | some id => if looksLikeActorDocument document then some id else none
    | none => none

def resolveActorUriFromVerificationDocument (keyId : String) (document : Json) : Option String :=
  match namedActor (recordOf document) with
  | some actorUri => some actorUri
  | none => if keyId.toList.contains '#' then some (beforeHash keyId) else none

structure HttpAnswer where
  statusCode : Nat
  /-- the body as JSON, or what reading it throws -/
  json : Except String Json

/-- What the cache and the network answer during one verification. -/
structure Answers where
  getCachedActorDoc : String → Except String (Option Json)
  request : String → Except String HttpAnswer
  cacheActorDoc : Except String Unit

/-- The document, and the one that was written to the cache. -/
def fetchActorDocument (answers : Answers) (keyId : String) :
    Except String (Option Json) × Option Json :=
  let fetchUrl := beforeHash keyId
  if fetchUrl = "" then (.ok none, none)
  else
    match answers.getCachedActorDoc fetchUrl with
    | .error message => (.error message, none)
    | .ok cached =>
      match cached.filter jsTruthy with
      | some document => (.ok (some document), none)
      | none =>
        match answers.request fetchUrl with
        | .error _ => (.ok none, none)
        | .ok answer =>
          match answer.statusCode, answer.json with
          | 200, .ok document =>
            match answers.cacheActorDoc with
            | .ok () => (.ok (some document), some document)
            | .error _ => (.ok none, none)
          | _, _ => (.ok none, none)

inductive VerificationResult where
  | valid (actorUri : String)
  | invalid (error : String)
  deriving DecidableEq

/-- A header that the signing string has even where it is absent. -/
def isAlwaysSigned (lower : String) : Bool := ["host", "date", "digest", "content-type"].contains lower

def signedValue (envelope : InboundEnvelope) (lower : String) : Option String :=
  if lower = "(request-target)" then some (requestTarget envelope.method envelope.path)
  else if isAlwaysSigned lower then some ((envelope.header lower).getD "undefined")
  else envelope.setHeader lower

def buildSigningString (envelope : InboundEnvelope) (signedHeaders : List String) : String :=
  "\n".intercalate (signingLines (signedValue envelope) signedHeaders)

/-- The checks after the document was fetched. -/
def verifyWithDocument (crypto : Crypto) (envelope : InboundEnvelope) (params : SignatureParams)
    (document : Json) : VerificationResult :=
  match extractPublicKeyPemFromVerificationDocument document with
  | none => .invalid "Actor has no public key"
  | some publicKeyPem =>
    let digestHeader := (envelope.setHeader "digest").map HeaderValue.one
    if !digestMatches crypto digestHeader envelope.body.toUTF8.toList then .invalid "Digest mismatch"
    else
      match crypto.verify publicKeyPem (buildSigningString envelope params.names)
          params.signature with
      | .error message => .invalid ("Verification error: " ++ message)
      | .ok false => .invalid "Signature verification failed"
      | .ok true =>
        match resolveActorUriFromVerificationDocument params.keyId document with
        | none => .invalid "Could not resolve actor owner for keyId"
        | some actorUri =>
          if actorUri = "" then .invalid "Could not resolve actor owner for keyId"
          else .valid actorUri

def signatureParams (signatureHeader : String) : Option SignatureParams :=
  let params := parseSignatureHeader false signatureHeader
  match params.lookup "keyId", params.lookup "signature", params.lookup "headers" with
  | some keyId, some signature, some headers => some ⟨keyId, signature, headers⟩
  | _, _, _ => none

def verifySignature (crypto : Crypto) (answers : Answers) (envelope : InboundEnvelope) :
    VerificationResult :=
  match envelope.setHeader "signature" with
  | none => .invalid "Missing Signature header"
  | some signatureHeader =>
    match signatureParams signatureHeader with
    | none => .invalid "Invalid Signature header format"
    | some params =>
      match (fetchActorDocument answers params.keyId).1 with
      | .error message => .invalid ("Verification error: " ++ message)
      | .ok fetched =>
        match fetched.filter jsTruthy with
        | none => .invalid "Could not fetch actor or key document"
        | some document => verifyWithDocument crypto envelope params document

end MastopodFederation.Source.InboundVerification
