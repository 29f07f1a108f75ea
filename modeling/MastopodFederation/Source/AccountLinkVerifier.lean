import MastopodFederation.Lib.LuaTable
import MastopodFederation.Lib.UriComponent
import MastopodFederation.Source.IdentityBindings
import MastopodFederation.Source.Retry

/-!
# Account-link verification

core-domain/services/AccountLinkVerifier.ts: verifyAccountLink with its three document checks.
A document is fetched as the decoded body or the text of what failed; a call is `none` where the
source throws (a `null` body, a DID without a document URL). isLinkStale and formatResult are
left out.
-/
namespace MastopodFederation.Source.AccountLinkVerifier
open Lib.LuaTable Lib.UriComponent IdentityBindings Retry

inductive AccountLinkVerificationStatus where
  | freshVerified
  | unverified
  | conflict
  | error
  deriving DecidableEq

structure LinkVerificationResult where
  status : AccountLinkVerificationStatus
  actorDocumentVerified : Bool
  didDocumentVerified : Bool
  webIdDocumentVerified : Bool
  errors : List String
  verifiedAt : String

structure LinkCheckResult where
  matched : Bool
  contradictory : Bool
  error : Option String := none

/-- The answer to a GET of a URL with an Accept header. -/
abbrev Fetch := String → String → Except String Json

def fetchJsonDocument (fetch : Fetch) (url accept : String) : Except String Json :=
  (fetch url accept).mapError fun failure => "Failed to fetch " ++ url ++ ": " ++ failure

/-- A property of a decoded body; of two entries with one key JSON.parse keeps the last. -/
def property (body : Json) (key : String) : Option Json :=
  match body with
  | .obj entries => entries.reverse.lookup key
  | _ => none

def extractDidDocumentBody (body : Json) : Json :=
  match property body "operation" with
  | some (.obj entries) => .obj entries
  | some (.arr items) => .arr items
  | _ => body

/-- `none` where the source throws. -/
def resolveDidDocumentUrl (did : String) : Option String :=
  if did.startsWith "did:plc:" then some ("https://plc.directory/" ++ did)
  else if did.startsWith "did:web:" then
    match ((did.drop 8).toString.splitOn ":").mapM decodeURIComponent with
    | none | some [] => none
    | some (host :: pathSegments) =>
      if host = "" then none
      else if pathSegments = [] then some ("https://" ++ host ++ "/.well-known/did.json")
      else some ("https://" ++ host ++ "/" ++ "/".intercalate pathSegments ++ "/did.json")
  else none

def asString : Json → Option String
  | .str text => some text
  | _ => none

def toStringArray : Option Json → List String
  | some (.str text) => [text]
  | some (.arr items) => items.filterMap asString
  | _ => []

def matchesDidAlias (link : String) : Option String → Bool
  | none => false
  | some did =>
    did ≠ "" && (link = did || link = "at://" ++ did ||
      link = "https://bsky.app/profile/" ++ did || includes link did)

def hasExplicitDidReference (aliases : List String) : Bool :=
  aliases.any fun link => link.startsWith "did:plc:" || link.startsWith "did:web:" ||
    link.startsWith "at://did:" || link.startsWith "https://bsky.app/profile/did:"

def looksLikeHttpUrl (value : String) : Bool :=
  value.startsWith "http://" || value.startsWith "https://"

def contradiction (contradictory : Bool) (text : String) : Option String :=
  if contradictory then some text else none

/-- The aliases of the actor document. -/
def actorAliases (body : Json) : List String := toStringArray (property body "alsoKnownAs")

/-- The aliases of the DID document. -/
def didAliases (body : Json) : List String :=
  toStringArray (property (extractDidDocumentBody body) "alsoKnownAs")

/-- The links of the WebID document: `sameAs ?? schema:sameAs`. -/
def webIdLinks (body : Json) : List String :=
  toStringArray (match property body "sameAs" with
    | none | some .null => property body "schema:sameAs"
    | some links => some links)

def actorCheck (binding : IdentityBinding) (aliases : List String) : LinkCheckResult :=
  let matched := aliases.any fun link => matchesDidAlias link binding.atprotoDid
  let contradictory := hasExplicitDidReference aliases && !matched
  ⟨matched, contradictory,
    contradiction contradictory "ActivityPub actor links to a different ATProto identity"⟩

def didCheck (binding : IdentityBinding) (aliases : List String) : LinkCheckResult :=
  let matched := aliases.any fun link => link = binding.activityPubActorUri
  let contradictory := (aliases.any fun link =>
    looksLikeHttpUrl link && link ≠ binding.activityPubActorUri) && !matched
  ⟨matched, contradictory,
    contradiction contradictory "ATProto DID document links to a different ActivityPub actor"⟩

def webIdCheck (binding : IdentityBinding) (sameAs : List String) : LinkCheckResult :=
  let hasActivityPubLink := sameAs.any fun link => link = binding.activityPubActorUri
  let hasDidLink := sameAs.any fun link => matchesDidAlias link binding.atprotoDid
  let contradictory := hasExplicitDidReference sameAs && !hasDidLink
  ⟨hasActivityPubLink && hasDidLink, contradictory,
    contradiction contradictory "WebID document links to a different ATProto identity"⟩

/-- A check of a fetched document; reading a property of `null` throws. -/
def checkDocument (document : Except String Json) (check : Json → LinkCheckResult) :
    Option LinkCheckResult :=
  match document with
  | .error text => some ⟨false, false, some text⟩
  | .ok .null => none
  | .ok body => some (check body)

section
variable (fetch : Fetch) (binding : IdentityBinding)

def verifyActorDocument : Option LinkCheckResult :=
  checkDocument (fetchJsonDocument fetch binding.activityPubActorUri
    "application/activity+json, application/ld+json") fun body =>
      actorCheck binding (actorAliases body)

def verifyDidDocument : Option LinkCheckResult :=
  match binding.atprotoDid with
  | none | some "" => some ⟨false, false, none⟩
  | some did => (resolveDidDocumentUrl did).bind fun url =>
      checkDocument (fetchJsonDocument fetch url "application/json") fun body =>
        didCheck binding (didAliases body)

def verifyWebIdDocument : Option LinkCheckResult :=
  checkDocument (fetchJsonDocument fetch binding.webId
    "application/ld+json, application/json") fun body => webIdCheck binding (webIdLinks body)

def resolveStatus (actor did webId : LinkCheckResult) (errors : List String) :
    AccountLinkVerificationStatus :=
  if actor.contradictory || did.contradictory || webId.contradictory then .conflict
  else if 0 < errors.length then .error
  else if actor.matched && did.matched && webId.matched then .freshVerified
  else .unverified

def report (now : String) (actor did webId : LinkCheckResult) : LinkVerificationResult :=
  let errors := ([actor.error, did.error, webId.error].filterMap id).filter (· ≠ "")
  { status := resolveStatus actor did webId errors
    actorDocumentVerified := actor.matched
    didDocumentVerified := did.matched
    webIdDocumentVerified := webId.matched
    errors := errors
    verifiedAt := now }

def verifyAccountLink (now : String) : Option LinkVerificationResult :=
  (verifyActorDocument fetch binding).bind fun actor =>
    (verifyDidDocument fetch binding).bind fun did =>
      (verifyWebIdDocument fetch binding).map fun webId => report now actor did webId

end

end MastopodFederation.Source.AccountLinkVerifier
