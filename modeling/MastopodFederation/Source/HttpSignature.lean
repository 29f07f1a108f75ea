import MastopodFederation.Source.DelayedQueue
import MastopodFederation.Source.DeliveryPlanContract

/-!
# HTTP signatures

`parseSignatureHeader`, `buildSigningString`, `verifyOwnerHttpSignature` and
`verifyAnyActorHttpSignature` of federation/OwnerScopedCollectionUtils.ts, and the
followers_synchronization route of fep8fcf/FollowersSyncFastifyBridge.ts up to the
requesting server. The signature scheme, the hash, fetching a key document, URL parsing
and percent-encoding are parameters; a key document that cannot be fetched is absent.
The text of a header is Latin-1, as Node decodes it.
-/
namespace MastopodFederation.Source.HttpSignature
open Lib.LuaTable DelayedQueue DeliveryPlanContract

abbrev Bytes := List UInt8

/-- What node:crypto provides. -/
structure Crypto where
  /-- SHA-256 as base64 -/
  sha256 : Bytes → String
  /-- RSA-SHA256; the signature is base64 -/
  verify : (publicKeyPem message signature : String) → Except String Bool

def lowerChar (c : Char) : Char :=
  if ('A' ≤ c ∧ c ≤ 'Z') ∨ (0xC0 ≤ c.toNat ∧ c.toNat ≤ 0xDE ∧ c.toNat ≠ 0xD7) then
    Char.ofNat (c.toNat + 32)
  else c

def toLowerCase (text : String) : String := String.ofList (text.toList.map lowerChar)

def split (separator : Char) (text : String) : List String :=
  (text.toList.splitOn separator).map String.ofList

/-- `keyId.includes("#") ? keyId.split("#")[0] : keyId` -/
def beforeHash (keyId : String) : String := String.ofList (keyId.toList.takeWhile (· ≠ '#'))

/-- `\w` -/
def isWordChar (c : Char) : Bool := c.isAlphanum || c = '_'

/-- Where the scan of `(\w+)="([^"]*)"` stands. -/
inductive Scan where
  | outside (word : List Char)
  | equals (word : List Char)
  | quoted (word value : List Char)

/-- One character; a quoted value that never ends matches nothing. -/
def scanStep (allowEmpty : Bool) : Scan → Char → Scan × Option (String × String)
  | .outside word, c =>
    if isWordChar c then (.outside (word ++ [c]), none)
    else if c = '=' && !word.isEmpty then (.equals word, none)
    else (.outside [], none)
  | .equals word, c =>
    if c = '\x22' then (.quoted word [], none)
    else if isWordChar c then (.outside [c], none)
    else (.outside [], none)
  | .quoted word value, c =>
    if c ≠ '\x22' then (.quoted word (value ++ [c]), none)
    else if value.isEmpty && !allowEmpty then (.outside [], none)
    else (.outside [], some (String.ofList word, String.ofList value))

def scan (allowEmpty : Bool) : Scan → List Char → List (String × String)
  | _, [] => []
  | state, c :: rest =>
    let (next, found) := scanStep allowEmpty state c
    found.toList ++ scan allowEmpty next rest

/-- The parameters with the last one first, so that it overrides the earlier ones. The
inbound worker's expression has `+` for `*`. -/
def parseSignatureHeader (allowEmpty : Bool) (raw : String) : List (String × String) :=
  (scan allowEmpty (.outside []) raw.toList).reverse

/-- A line for each name that has a value. -/
def signingLines (signed : String → Option String) (names : List String) : List String :=
  names.filterMap fun name =>
    (signed (toLowerCase name)).map fun value => toLowerCase name ++ ": " ++ value

def requestTarget (method path : String) : String := toLowerCase method ++ " " ++ path

inductive HeaderValue where
  | one (text : String)
  | many (texts : List String)
  deriving DecidableEq

/-- `Array.isArray(value) ? value[0] : value` in a template -/
def HeaderValue.text : HeaderValue → String
  | .one text => text
  | .many texts => texts.headD "undefined"

/-- The request as Fastify hands it over; `headers` reads a property of the headers object. -/
structure Request where
  method : String
  url : String
  headers : String → Option HeaderValue

def signedValue (method path : String) (headers : String → Option HeaderValue) (lower : String) :
    Option String :=
  if lower = "(request-target)" then some (requestTarget method path)
  else (headers lower).map HeaderValue.text

def buildSigningString (method path : String) (headers : String → Option HeaderValue)
    (signedHeaderNames : List String) : String :=
  "\n".intercalate (signingLines (signedValue method path headers) signedHeaderNames)

structure Refusal where
  status : Nat
  error : String
  deriving DecidableEq

structure SignatureParams where
  keyId : String
  signature : String
  headers : String
  deriving DecidableEq

def SignatureParams.names (params : SignatureParams) : List String := split ' ' params.headers

def readSignature (headerFits : String → Bool) (paramsFit : SignatureParams → Bool)
    (headers : String → Option HeaderValue) : Except Refusal SignatureParams :=
  match headers "signature" with
  | some (.one raw) =>
    if raw = "" || !headerFits raw then .error ⟨401, "HTTP Signature required"⟩
    else
      let params := parseSignatureHeader true raw
      match params.lookup "keyId", params.lookup "signature", params.lookup "headers" with
      | some keyId, some signature, some headers =>
        if keyId = "" || !paramsFit ⟨keyId, signature, headers⟩ then
          .error ⟨401, "Malformed HTTP Signature"⟩
        else .ok ⟨keyId, signature, headers⟩
      | _, _, _ => .error ⟨401, "Malformed HTTP Signature"⟩
  | _ => .error ⟨401, "HTTP Signature required"⟩

def expectedDigest (crypto : Crypto) (body : Bytes) : String := "SHA-256=" ++ crypto.sha256 body

/-- A Digest header is compared where it is a string. -/
def digestMatches (crypto : Crypto) (digestHeader : Option HeaderValue) (body : Bytes) : Bool :=
  match digestHeader with
  | some (.one digest) => digest = expectedDigest crypto body
  | _ => true

def checkSignature (crypto : Crypto) (method : String) (req : Request) (body : Bytes)
    (publicKeyPem : String) (params : SignatureParams) : Except Refusal Unit :=
  if !digestMatches crypto (req.headers "digest") body then .error ⟨401, "Digest mismatch"⟩
  else
    match crypto.verify publicKeyPem (buildSigningString method req.url req.headers params.names)
        params.signature with
    | .ok true => .ok ()
    | .ok false => .error ⟨401, "Signature verification failed"⟩
    | .error _ => .error ⟨401, "Signature verification error"⟩

def nonEmptyText : Option Json → Option String
  | some (.str text) => if text = "" then none else some text
  | _ => none

def recordOf : Json → List (String × Json)
  | .obj entries => entries
  | _ => []

/-- The key of an actor document, where it is not empty; a key that is no string is passed
over. -/
def extractPublicKeyPem (doc : Json) : Option String :=
  let direct := (recordOf doc).lookup "publicKeyPem"
  match (recordOf doc).lookup "publicKey" with
  | some (.obj publicKey) =>
    match publicKey.lookup "publicKeyPem" with
    | some (.str pem) => nonEmptyText (some (.str pem))
    | _ => nonEmptyText direct
  | _ => nonEmptyText direct

structure Environment where
  encodeURIComponent : String → String
  parseUrl : String → Option Url
  /-- what `request` returns for the URL of a key, if it is JSON with a status of 2xx -/
  fetchDocument : String → Option Json
  /-- publicKeyPem of `fetchRemoteKeyDocument` -/
  fetchRemoteKeyDocument : String → Option String

section Verifiers
variable (crypto : Crypto) (env : Environment)

def fetchActorDocumentForKey (keyId : String) : Option Json :=
  (env.fetchDocument (beforeHash keyId)).filter jsTruthy

def fetchKey (keyId : String) : Except Refusal String :=
  match fetchActorDocumentForKey env keyId with
  | none => .error ⟨401, "Could not fetch signing key document"⟩
  | some actorDoc =>
    match extractPublicKeyPem actorDoc with
    | none => .error ⟨401, "No public key in key document"⟩
    | some publicKeyPem => .ok publicKeyPem

def anySize {α : Type} (_ : α) : Bool := true

/-- A missing body counts as no bytes. -/
def verifyOwnerHttpSignature (req : Request) (identifier domain : String)
    (rawBody : Option Bytes) : Except Refusal Unit := do
  let params ← readSignature anySize anySize req.headers
  let expectedActorUri := "https://" ++ domain ++ "/users/" ++ env.encodeURIComponent identifier
  if beforeHash params.keyId ≠ expectedActorUri then
    .error ⟨403, "Access denied: not the collection owner"⟩
  else
    let publicKeyPem ← fetchKey env params.keyId
    checkSignature crypto req.method req (rawBody.getD []) publicKeyPem params

/-- The sender's base actor URI. -/
def verifyAnyActorHttpSignature (req : Request) (rawBody : Bytes) : Except Refusal String := do
  let params ← readSignature anySize anySize req.headers
  let publicKeyPem ← fetchKey env params.keyId
  checkSignature crypto "POST" req rawBody publicKeyPem params
  return beforeHash params.keyId

def maxSignatureHeaderBytes : Nat := 32 * 1024
def maxSignatureValueBytes : Nat := 16 * 1024
def maxSignedHeadersBytes : Nat := 1024

/-- `^[a-zA-Z0-9._-]{1,128}$` -/
def isIdentifier (identifier : String) : Bool :=
  1 ≤ identifier.length && identifier.length ≤ 128 &&
    identifier.toList.all fun c => c.isAlphanum || c = '.' || c = '_' || c = '-'

def extractServerBaseUriFromKeyId (keyId : String) : Option String :=
  match env.parseUrl keyId with
  | none => none
  | some parsed =>
    if (parsed.protocol ≠ "http:" && parsed.protocol ≠ "https:") || parsed.username ≠ "" ||
        parsed.password ≠ "" then none
    else some (parsed.origin ++ "/")

/-- The requesting server's base URI. -/
def followersSynchronization (identifier : String) (req : Request) : Except Refusal String := do
  if !isIdentifier identifier then .error ⟨400, "Invalid actor identifier"⟩
  else
    let params ← readSignature (fun raw => raw.utf8ByteSize ≤ maxSignatureHeaderBytes)
      (fun params => params.signature.utf8ByteSize ≤ maxSignatureValueBytes &&
        params.headers.utf8ByteSize ≤ maxSignedHeadersBytes) req.headers
    match env.fetchRemoteKeyDocument params.keyId with
    | none => .error ⟨401, "Could not fetch signing key document"⟩
    | some publicKeyPem =>
      checkSignature crypto "GET" req [] publicKeyPem params
      match extractServerBaseUriFromKeyId env params.keyId with
      | none => .error ⟨400, "Cannot determine requesting server base URI from keyId"⟩
      | some requestingBaseUri => .ok requestingBaseUri

end Verifiers

end MastopodFederation.Source.HttpSignature
