import MastopodFederation.Lib.LuaTable
import MastopodFederation.Lib.FixedDigits

/-!
# The signing service

activitypods-integration/signing.service.js, `signHttpRequestsBatch` and what it calls. Requests
are any JSON values; a read through `?.` gives nothing where the value is no object. The other
services, the hash and the signature are parameters, and so are the parts of the language that
depend on the host: `Date.parse`, `toUTCString`, case tables and the text of a number. A signed
result keeps the text that `signRsaSha256` got, which the response does not have.
-/
namespace MastopodFederation.Source.SigningService
open Lib.LuaTable (Json)

/-- `value?.key` -/
def property (value : Option Json) (key : String) : Option Json :=
  match value with
  | some (.obj entries) => entries.lookup key
  | _ => none

def truthy : Option Json → Bool
  | none | some .null | some (.bool false) => false
  | some (.num value) => value ≠ 0
  | some (.str text) => text ≠ ""
  | some _ => true

/-- `value || other` -/
def orElse (value : Option Json) (other : Json) : Json :=
  match value with
  | some given => if truthy value then given else other
  | none => other

/-- Why signing a request threw. -/
abbrev Throws := Except String

def notPrimitive : String := "Cannot convert object to primitive value"

section Text
variable (numberText : Rat → String)

mutual
/-- `String(value)`; an object with a `toString` of its own, which cannot be called, throws. -/
def toText : Json → Throws String
  | .null => .ok "null"
  | .bool value => .ok (if value then "true" else "false")
  | .num value => .ok (numberText value)
  | .str text => .ok text
  | .arr items => do
    let texts ← itemTexts items
    pure (",".intercalate texts)
  | .obj entries =>
    if (entries.lookup "toString").isSome then .error notPrimitive else .ok "[object Object]"

/-- The items as `join` writes them, null as nothing. -/
def itemTexts : List Json → Throws (List String)
  | [] => .ok []
  | .null :: rest => do
    let texts ← itemTexts rest
    pure ("" :: texts)
  | item :: rest => do
    let text ← toText item
    let texts ← itemTexts rest
    pure (text :: texts)
end

/-- `String(value)` of a value that may be undefined. -/
def textOf : Option Json → Throws String
  | none => .ok "undefined"
  | some value => toText numberText value

end Text

structure Profile where
  algorithm : String
  /-- absent in what the table inherits -/
  signedHeaders : Option (List String)
  requireDigest : Bool

structure Limits where
  maxBatch : Nat
  maxBodyBytes : Nat
  maxClockSkewSeconds : Nat

structure Settings where
  bearerToken : String
  limits : Limits

def profiles : List (String × Profile) :=
  [("ap_get_v1", ⟨"rsa-sha256", some ["(request-target)", "host", "date"], false⟩),
    ("ap_post_v1", ⟨"rsa-sha256", some ["(request-target)", "host", "date", "digest"], true⟩),
    ("ap_post_v1_ct",
      ⟨"rsa-sha256", some ["(request-target)", "host", "date", "digest", "content-type"], true⟩)]

/-- The names that every object inherits. -/
def inherited : List String :=
  ["constructor", "__defineGetter__", "__defineSetter__", "hasOwnProperty", "__lookupGetter__",
    "__lookupSetter__", "isPrototypeOf", "propertyIsEnumerable", "toString", "valueOf",
    "__proto__", "toLocaleString"]

/-- `settings.profiles[name]` -/
def profileNamed (name : String) : Option Profile :=
  match profiles.lookup name with
  | some profile => some profile
  | none => if name ∈ inherited then some ⟨"undefined", none, false⟩ else none

/-- The times at which the date of a request is made up and checked, in milliseconds. -/
structure Moment where
  generated : Int
  checked : Int

structure Environment where
  numberText : Rat → String
  toUpperCase : String → String
  /-- nothing for NaN -/
  dateParse : String → Option Int
  toUTCString : Int → String
  sha256Base64 : ByteArray → String
  /-- `signRsaSha256(privateKeyPem, signingString)` -/
  signRsaSha256 : String → String → Throws String
  /-- `new URL(text)` succeeds -/
  isUrl : String → Bool
  /-- the calls `activitypub.actor.isLocal`, `actors.resolveWebIdForActor`,
  `keys.getOrCreateWebIdKeys` and `actors.getPublicKeyId` -/
  isLocal : String → Throws Bool
  resolveWebId : String → Throws String
  privateKey : String → Throws (Option String)
  publicKeyId : String → Throws String
  /-- when the request at this place of the batch is signed -/
  moment : Nat → Moment
  settings : Settings

inductive ErrorCode where
  | invalidInput
  | actorNotLocal
  | keyUnavailable
  | profileNotAllowed
  | bodyTooLarge
  | digestMismatch
  | internalError
  deriving DecidableEq

structure SigningError where
  code : ErrorCode
  message : String
  retryable : Bool
  deriving DecidableEq

structure Signed where
  actorUri : String
  profile : Option Json
  method : String
  path : String
  host : String
  date : Json
  signature : String
  digest : Option String
  keyId : String
  algorithm : String
  signedHeaders : List String
  bodySha256Base64 : Option String
  /-- what was signed -/
  signingString : String

structure SigningResult where
  requestId : Option Json
  outcome : Except SigningError Signed

/-- The characters of `\s`. -/
def whitespace : List Char :=
  ['\t', '\n', '\x0b', '\x0c', '\r', ' ', '\u00a0', '\u1680', '\u2000', '\u2001', '\u2002',
    '\u2003', '\u2004', '\u2005', '\u2006', '\u2007', '\u2008', '\u2009', '\u200a', '\u2028',
    '\u2029', '\u202f', '\u205f', '\u3000', '\ufeff']

/-- A host text that passes; `://` has a slash in it. -/
def assertHost : Option Json → Option String
  | some (.str host) =>
    if host = "" || '/' ∈ host.toList || host.toList.any (· ∈ whitespace) then none else some host
  | _ => none

def assertPath : Option Json → Option String
  | some (.str path) => if path.toList.head? = some '/' then some path else none
  | _ => none

def methods : List String := ["GET", "POST", "PUT", "DELETE", "PATCH"]

/-- The query with its question mark. -/
def queryPart (query : String) : String :=
  if query = "" then ""
  else if query.toList.head? = some '?' then query
  else "?" ++ query

def buildRequestTarget (method path query : String) : String :=
  method.toLower ++ " " ++ path ++ queryPart query

structure Covered where
  requestTarget : String
  host : String
  date : String
  digest : Option String
  contentType : String

/-- The value of a header; a digest that was not computed is written as null. -/
def headerValue (covered : Covered) (header : String) : Option String :=
  match header with
  | "(request-target)" => some covered.requestTarget
  | "host" => some covered.host
  | "date" => some covered.date
  | "digest" => some (covered.digest.getD "null")
  | "content-type" => some covered.contentType
  | _ => none

def headerLine (covered : Covered) (header : String) : Throws String :=
  match headerValue covered header with
  | some value => .ok (header ++ ": " ++ value)
  | none => .error s!"PROFILE_INVALID: unsupported signed header: {header}"

def buildSigningString (covered : Covered) (signedHeaders : List String) : Throws String := do
  let lines ← signedHeaders.mapM (headerLine covered)
  pure ("\n".intercalate lines)

/-- The exact bytes of the body; any encoding is read as UTF-8. -/
def parseBodyBytes (r : Json) : Option ByteArray :=
  match property (property r "body") "bytes" with
  | some (.str text) => some text.toUTF8
  | _ => none

def refuse {α : Type} (code : ErrorCode) (message : String) : Except SigningError α :=
  .error ⟨code, message, false⟩

/-- What `catch` makes of a failure. -/
def caught {α : Type} : Throws α → Except SigningError α
  | .ok value => .ok value
  | .error message => .error ⟨.internalError, if message = "" then "signing failed" else message, true⟩

def required {α : Type} (value : Option α) (message : String) : Except SigningError α :=
  match value with
  | some given => .ok given
  | none => refuse .invalidInput message

/-- `value === text` -/
def isText (value : Option Json) (text : String) : Bool :=
  match value with
  | some (.str given) => given = text
  | _ => false

section Sign
variable (env : Environment)

def text (value : Option Json) : Except SigningError String := caught (textOf env.numberText value)

def validateDateSkew (moment : Moment) (dateStr : String) : Bool :=
  match env.dateParse dateStr with
  | none => true
  | some t => (moment.checked - t).natAbs ≤ env.settings.limits.maxClockSkewSeconds * 1000

/-- The hash of the body, for a digest that the service computes. -/
def computedDigest (r : Json) : Except SigningError String :=
  match parseBodyBytes r with
  | none => refuse .invalidInput "body.bytes required for POST profile"
  | some body =>
    if env.settings.limits.maxBodyBytes < body.size then
      refuse .bodyTooLarge s!"body exceeds {env.settings.limits.maxBodyBytes} bytes"
    else .ok (env.sha256Base64 body)

/-- The hash of the body, for a digest that the caller provides. -/
def verifiedDigest (r : Json) : Except SigningError String :=
  let providedDigest := property (property r "digest") "value"
  let providedBodyHash := property (property r "digest") "bodyHashSha256Base64"
  match parseBodyBytes r with
  | none =>
    refuse .invalidInput "digest.value and body.bytes required for caller_provided_strict"
  | some body =>
    if ¬ truthy providedDigest then
      refuse .invalidInput "digest.value and body.bytes required for caller_provided_strict"
    else
      let computedHash := env.sha256Base64 body
      if truthy providedBodyHash ∧ ¬ isText providedBodyHash computedHash then
        refuse .digestMismatch "provided bodyHashSha256Base64 does not match body"
      else if ¬ isText providedDigest ("SHA-256=" ++ computedHash) then
        refuse .digestMismatch "provided digest does not match computed digest"
      else .ok computedHash

/-- The hash of the body where the profile wants a digest. -/
def bodyHash (profile : Profile) (r : Json) : Except SigningError (Option String) :=
  if profile.requireDigest then
    let digestMode := orElse (property (property r "digest") "mode") (.str "server_compute")
    if isText digestMode "server_compute" then (computedDigest env r).map some
    else if isText digestMode "caller_provided_strict" then (verifiedDigest env r).map some
    else do
      let shown ← text env digestMode
      refuse .invalidInput s!"unknown digest.mode: {shown}"
  else .ok none

def dateOf (moment : Moment) (r : Json) : Json :=
  orElse (property (property r "headers") "date") (.str (env.toUTCString moment.generated))

def queryText (r : Json) : Except SigningError String :=
  let query := property (property r "target") "query"
  if truthy query then text env query else .ok ""

/-- The text of the content type, which is written only where it is signed. -/
def contentTypeText (signedHeaders : List String) (r : Json) : Except SigningError String :=
  if "content-type" ∈ signedHeaders then
    text env (orElse (property (property r "headers") "contentType")
      (.str "application/activity+json"))
  else .ok ""

def signatureHeader (keyId algorithm : String) (signedHeaders : List String) (signature : String) :
    String :=
  ",".intercalate ["keyId=\x22" ++ keyId ++ "\x22", "algorithm=\x22" ++ algorithm ++ "\x22",
    "headers=\x22" ++ " ".intercalate signedHeaders ++ "\x22",
    "signature=\x22" ++ signature ++ "\x22"]

/-- The checks of `_signOne` after the profile was found, and the signature. -/
def signWith (moment : Moment) (actorUri keyId privateKeyPem : String) (r : Json) (method : String)
    (profile : Profile) : Except SigningError Signed := do
  let host ← required (assertHost (property (property r "target") "host")) "target.host invalid"
  let path ← required (assertPath (property (property r "target") "path")) "target.path invalid"
  if method ∉ methods then refuse .invalidInput "method invalid"
  else do
    let date ← text env (dateOf env moment r)
    if ¬ validateDateSkew env moment date then refuse .invalidInput "date skew too large"
    else do
      let hash ← bodyHash env profile r
      let query ← queryText env r
      let signedHeaders ←
        caught (profile.signedHeaders.elim (.error "signedHeaders is not iterable") .ok)
      let contentType ← contentTypeText env signedHeaders r
      let digest := hash.map fun computed => "SHA-256=" ++ computed
      let requestTarget := buildRequestTarget method path query
      let signingString ←
        caught (buildSigningString ⟨requestTarget, host, date, digest, contentType⟩ signedHeaders)
      let signature ← caught (env.signRsaSha256 privateKeyPem signingString)
      pure
        { actorUri, profile := property r "profile", method, path, host
          date := dateOf env moment r
          signature := signatureHeader keyId profile.algorithm signedHeaders signature
          digest, keyId, algorithm := profile.algorithm, signedHeaders
          bodySha256Base64 := hash
          signingString }

def signOne (moment : Moment) (actorUri keyId privateKeyPem : String) (r : Json) :
    SigningResult where
  requestId := property r "requestId"
  outcome := do
    let given ← text env (orElse (property r "method") (.str ""))
    let profileName ← text env (property r "profile")
    match profileNamed profileName with
    | none => refuse .profileNotAllowed s!"unknown profile: {profileName}"
    | some profile =>
      signWith env moment actorUri keyId privateKeyPem r (env.toUpperCase given) profile

/-- `_err(r, code, message, retryable)` -/
def err (r : Json) (code : ErrorCode) (message : String) (retryable : Bool) : SigningResult where
  requestId := property r "requestId"
  outcome := .error ⟨code, message, retryable⟩

/-- `Bearer` and a token, which has to be the configured one. -/
def auth (authorization : Option String) : Except (Nat × String) Unit :=
  match authorization with
  | none => .error (401, "Missing bearer token")
  | some header =>
    if ¬ "Bearer ".toList.isPrefixOf header.toList then .error (401, "Missing bearer token")
    else if env.settings.bearerToken = "" ∨
        String.ofList (header.toList.drop 7) ≠ env.settings.bearerToken then
      .error (403, "Invalid bearer token")
    else .ok ()

def validateLocalActor (actorUri : Json) : Except SigningError String :=
  match actorUri with
  | .str uri =>
    if uri = "" then refuse .invalidInput "actorUri missing"
    else if ¬ env.isUrl uri then refuse .invalidInput "actorUri not a URL"
    else match env.isLocal uri with
      | .ok true => .ok uri
      | .ok false => refuse .actorNotLocal "actorUri not local"
      | .error _ => refuse .actorNotLocal "locality verification unavailable"
  | _ => refuse .invalidInput "actorUri missing"

/-- A failed call, with its message where it has one. -/
def keyCall {α : Type} (failed : String) : Throws α → Except SigningError α
  | .ok value => .ok value
  | .error message => .error ⟨.keyUnavailable, if message = "" then failed else message, true⟩

/-- The actor, its key id and its private key. -/
def signer (actorUri : Json) : Except SigningError (String × String × String) := do
  let uri ← validateLocalActor env actorUri
  let webId ← keyCall "key lookup failed" (env.resolveWebId uri)
  let found ← keyCall "key lookup failed" (env.privateKey webId)
  let key ← keyCall "privateKey missing" ((found.filter (· ≠ "")).elim (.error "") .ok)
  let keyId ← keyCall "keyId lookup failed" (env.publicKeyId uri)
  pure (uri, keyId, key)

/-- The results for the requests of one actor, each with its place in the batch. -/
def signGroup (actorUri : Json) (items : List (Json × Nat)) : List SigningResult :=
  match signer env actorUri with
  | .error e => items.map fun item => err item.1 e.code e.message e.retryable
  | .ok (uri, keyId, key) => items.map fun item => signOne env (env.moment item.2) uri keyId key item.1

/-- What a map tells actors apart by: an object or an array is only the same as itself. -/
inductive ActorKey where
  | text (value : String)
  | number (value : Rat)
  | boolean (value : Bool)
  | object (place : Nat)
  deriving DecidableEq

def actorKey (actorUri : Json) (place : Nat) : ActorKey :=
  match actorUri with
  | .str value => .text value
  | .num value => .number value
  | .bool value => .boolean value
  | _ => .object place

structure Group where
  key : ActorKey
  actorUri : Json
  items : List (Json × Nat)

/-- `byActor.get(a).push(r)`, with a new group at the end for a new actor. -/
def addToGroup (key : ActorKey) (actorUri : Json) (item : Json × Nat) : List Group → List Group
  | [] => [⟨key, actorUri, [item]⟩]
  | group :: rest =>
    if group.key = key then { group with items := group.items ++ [item] } :: rest
    else group :: addToGroup key actorUri item rest

def byActor (items : List (Json × Nat)) : List Group :=
  items.foldl
    (fun groups item =>
      let actorUri := orElse (property item.1 "actorUri") (.str "")
      addToGroup (actorKey actorUri item.2) actorUri item groups) []

def signHttpRequestsBatch (authorization : Option String) (requests : List Json) :
    Except (Nat × String) (List SigningResult) := do
  auth env authorization
  if env.settings.limits.maxBatch < requests.length then
    pure (requests.map fun r =>
      err r .invalidInput s!"maxBatch={env.settings.limits.maxBatch} exceeded" false)
  else pure ((byActor requests.zipIdx).flatMap fun group => signGroup env group.actorUri group.items)

end Sign

end MastopodFederation.Source.SigningService

/-!
# Compact signatures

activitypods-integration/signing.service.js: derToCompact, which follows the signature of
signSecp256k1. Buffers are lists of bytes.
-/
namespace MastopodFederation.Source.CompactSignature
open Lib.FixedDigits

/-- SECP256K1_N -/
def secp256k1N : Nat := 0xFFFFFFFFFFFFFFFFFFFFFFFFFFFFFFFEBAAEDCE6AF48A03BBFD25E8CD0364141

/-- The errors of the two checks, and that of `copy` with a negative target start. -/
inductive DerError where
  | expectedR
  | expectedS
  | outOfRange
  deriving DecidableEq

/-- A number in big-endian order. -/
def toBytes (width n : Nat) : List UInt8 := numeral 256 UInt8.ofNat width n

def toInt (bytes : List UInt8) : Nat := value 256 UInt8.toNat bytes

/-- `Buffer.alloc(32)` after `bytes.copy(target, 32 - bytes.length)` -/
def padded (bytes : List UInt8) : Except DerError (List UInt8) :=
  if 32 < bytes.length then .error .outOfRange
  else .ok (List.replicate (32 - bytes.length) 0 ++ bytes)

/-- Low-S normalization of a component `s`. The hexadecimal digits of a negative number end at
its sign, and `Buffer.from` with them. -/
def finalS (s : List UInt8) : List UInt8 :=
  let sInt := toInt s
  if sInt > secp256k1N / 2 then
    if sInt ≤ secp256k1N then toBytes 32 (secp256k1N - sInt)
    else List.replicate ((63 - (Nat.digits 16 (sInt - secp256k1N)).length) / 2) 0
  else s

/-- What follows the length of `r`; a length that is missing cuts an empty slice. -/
def compactTail (rBytes after : List UInt8) : Except DerError (List UInt8) :=
  match after with
  | 0x02 :: component => do
    let sBytes := match component with
      | sLen :: bytes => bytes.take sLen.toNat
      | [] => []
    let r ← padded rBytes
    let s ← padded sBytes
    .ok (r ++ finalS s)
  | _ => .error .expectedS

def derToCompact (derBuf : List UInt8) : Except DerError (List UInt8) :=
  match derBuf.drop 2 with
  | 0x02 :: rLen :: bytes => compactTail (bytes.take rLen.toNat) (bytes.drop rLen.toNat)
  | [0x02] => .error .expectedS
  | _ => .error .expectedR

end MastopodFederation.Source.CompactSignature
