import MastopodFederation.Lib.LuaTable

/-!
# The delivery plan contract

delivery/ActivityPubDeliveryPlanContract.ts: inline contexts and addressing terms,
`containsBlindAudienceFields`, and `safeParseActivityPubDeliveryPlanV1` with its
schema and refinement. A value is one that JSON.parse can return, so that no object
occurs twice in it. URL parsing, SHA-256, the quoting of a string and JavaScript's order of
strings are parameters.
-/
namespace MastopodFederation.Source.DeliveryPlanContract
open Lib.LuaTable

def activityStreamsNamespace : String := "https://www.w3.org/ns/activitystreams#"

def addressingTerms : List String := ["to", "bto", "cc", "bcc", "audience"]

def publicAddresses : List String :=
  [activityStreamsNamespace ++ "Public", "as:Public", "Public"]

/-- The rest of a text that starts with the namespace. -/
def afterNamespace (text : String) : Option String :=
  if activityStreamsNamespace.toList.isPrefixOf text.toList then
    some (String.ofList (text.toList.drop activityStreamsNamespace.toList.length))
  else none

/-- The parts around the first colon, unless it comes first. -/
def splitCompact (text : String) : Option (String × String) :=
  let before := text.toList.takeWhile (· ≠ ':')
  match text.toList.dropWhile (· ≠ ':') with
  | _ :: after =>
    if before.isEmpty then none else some (String.ofList before, String.ofList after)
  | [] => none

structure ContextState where
  prefixes : String → Option String
  aliases : String → Option String

def setKey (table : String → Option String) (key value : String) : String → Option String :=
  fun other => if other = key then some value else table other

/-- A string definition, or a string under @id. -/
def rawDefinition : Json → Option String
  | .str raw => some raw
  | .obj entries =>
    match entries.lookup "@id" with
    | some (.str raw) => some raw
    | _ => none
  | _ => none

def addressingTerm (text : String) : Option String :=
  if addressingTerms.contains text then some text else none

/-- `prefix:suffix` with a prefix of the namespace and an addressing term as suffix. -/
def compactTerm (prefixes : String → Option String) (text : String) : Option String :=
  match splitCompact text with
  | some (before, after) =>
    if prefixes before = some activityStreamsNamespace then addressingTerm after else none
  | none => none

def resolveAddressingDefinition (definition : Json) (prefixes : String → Option String) :
    Option String :=
  match rawDefinition definition with
  | none => none
  | some raw =>
    match afterNamespace raw with
    | some term => addressingTerm term
    | none => (compactTerm prefixes raw).or (addressingTerm raw)

/-- First the prefixes of an entry, then its aliases. -/
def addContextEntry (state : ContextState) : Json → ContextState
  | .obj record =>
    let prefixes := record.foldl (fun prefixes (key, definition) =>
      if rawDefinition definition = some activityStreamsNamespace then
        setKey prefixes key activityStreamsNamespace
      else prefixes) state.prefixes
    let aliases := record.foldl (fun aliases (key, definition) =>
      match resolveAddressingDefinition definition prefixes with
      | some term => setKey aliases key term
      | none => aliases) state.aliases
    ⟨prefixes, aliases⟩
  | _ => state

def contextEntries : Option Json → List Json
  | none => []
  | some (.arr entries) => entries
  | some context => [context]

/-- What is inherited where nothing is. -/
def initialContext : ContextState where
  prefixes := setKey (fun _ => none) "as" activityStreamsNamespace
  aliases _ := none

def buildContextState (context : Option Json) (inherited : ContextState) : ContextState :=
  (contextEntries context).foldl addContextEntry inherited

def canonicalAddressingTerm (key : String) (state : ContextState) : Option String :=
  if addressingTerms.contains key then some key
  else
    match afterNamespace key with
    | some term => addressingTerm term
    | none => (compactTerm state.prefixes key).or (state.aliases key)

def isBlind (term : Option String) : Bool := term = some "bto" || term = some "bcc"

mutual
def containsBlindAudienceFields (inherited : ContextState) : Json → Bool
  | .arr items => blindItems inherited items
  | .obj record =>
    let state := buildContextState (record.lookup "@context") inherited
    record.any (fun entry => isBlind (canonicalAddressingTerm entry.1 state)) ||
      blindValues state record
  | _ => false

def blindItems (inherited : ContextState) : List Json → Bool
  | [] => false
  | item :: rest => containsBlindAudienceFields inherited item || blindItems inherited rest

def blindValues (state : ContextState) : List (String × Json) → Bool
  | [] => false
  | (_, value) :: rest => containsBlindAudienceFields state value || blindValues state rest
end

structure Url where
  protocol : String
  username : String
  password : String
  hostname : String
  origin : String
  pathname : String
  search : String
  hash : String

structure Environment where
  parseUrl : String → Option Url
  toLowerCase : String → String
  sha256Hex : String → String
  /-- JSON.stringify of a string -/
  quote : String → String
  /-- the order of `sort()` -/
  codeUnitLe : String → String → Bool

structure LocalDeliveryTarget where
  actorUri : String
  dataset : String
  inboxUri : String

structure RemoteDeliveryTarget where
  actorUri : String
  inboxUrl : String
  sharedInboxUrl : Option String
  targetDomain : String

structure PlanMeta where
  visibility : String
  isPublicActivity : Bool
  isPublicIndexable : Option Bool
  searchConsent : Option Json

structure Plan where
  intentId : String
  activityId : String
  actorUri : String
  activity : List (String × Json)
  localRecipients : List LocalDeliveryTarget
  remoteRecipients : List RemoteDeliveryTarget
  planMeta : PlanMeta

structure Issue where
  path : List String
  message : String

/-- `[\s\u0000-\u001f\u007f]` -/
def isUnsafeChar (c : Char) : Bool :=
  c.toNat ≤ 0x20 || c.toNat = 0x7f || c.toNat = 0xa0 || c.toNat = 0x1680 ||
    (0x2000 ≤ c.toNat && c.toNat ≤ 0x200a) || c.toNat = 0x2028 || c.toNat = 0x2029 ||
    c.toNat = 0x202f || c.toNat = 0x205f || c.toNat = 0x3000 || c.toNat = 0xfeff

def isCleanString (value : String) : Bool := value ≠ "" && !value.toList.any isUnsafeChar

section Schema
variable (env : Environment)

def parseSafeHttpUrl (value : String) : Option Url :=
  if !isCleanString value then none
  else
    match env.parseUrl value with
    | none => none
    | some parsed =>
      if (parsed.protocol ≠ "http:" && parsed.protocol ≠ "https:") || parsed.username ≠ "" ||
          parsed.password ≠ "" then none
      else some parsed

def normalizeDeliveryTargetDomain (value : String) : Option String :=
  if !isCleanString value then none
  else
    let chars := (env.toLowerCase value).toList.reverse.dropWhile (· = '.')
    if chars.isEmpty then none else some (String.ofList chars.reverse)

def parseDeliveryEndpointUrl (value : String) : Option Url :=
  match parseSafeHttpUrl env value with
  | none => none
  | some parsed =>
    if value.toList.contains '#' then none
    else if (normalizeDeliveryTargetDomain env parsed.hostname).isSome then some parsed else none

/-- A string field that passes its check. -/
def textField (check : String → Bool) (record : List (String × Json)) (key : String) :
    Option String :=
  match record.lookup key with
  | some (.str value) => if check value then some value else none
  | _ => none

def httpUrl (value : String) : Bool := (parseSafeHttpUrl env value).isSome

def deliveryEndpointUrl (value : String) : Bool := (parseDeliveryEndpointUrl env value).isSome

def strict (keys : List String) (record : List (String × Json)) : Bool :=
  record.all fun entry => keys.contains entry.1

def localDeliveryTarget : Json → Option LocalDeliveryTarget
  | .obj record => do
    if !strict ["actorUri", "dataset", "inboxUri"] record then none
    let actorUri ← textField (httpUrl env) record "actorUri"
    let dataset ← textField isCleanString record "dataset"
    let inboxUri ← textField (deliveryEndpointUrl env) record "inboxUri"
    return { actorUri, dataset, inboxUri }
  | _ => none

/-- An optional field: `none` fails, `some none` is absent. -/
def optionalText (check : String → Bool) (record : List (String × Json)) (key : String) :
    Option (Option String) :=
  match record.lookup key with
  | none => some none
  | some _ => (textField check record key).map some

/-- The domain has to be the canonical one of the delivery URL. -/
def domainMatches (target : RemoteDeliveryTarget) : Bool :=
  match parseDeliveryEndpointUrl env (target.sharedInboxUrl.getD target.inboxUrl) with
  | none => true
  | some parsed => normalizeDeliveryTargetDomain env parsed.hostname = some target.targetDomain

def remoteDeliveryTarget : Json → Option RemoteDeliveryTarget
  | .obj record => do
    if !strict ["actorUri", "inboxUrl", "sharedInboxUrl", "targetDomain"] record then none
    let actorUri ← textField (httpUrl env) record "actorUri"
    let inboxUrl ← textField (deliveryEndpointUrl env) record "inboxUrl"
    let sharedInboxUrl ← optionalText (deliveryEndpointUrl env) record "sharedInboxUrl"
    let targetDomain ← textField isCleanString record "targetDomain"
    let target : RemoteDeliveryTarget := { actorUri, inboxUrl, sharedInboxUrl, targetDomain }
    if domainMatches env target then some target else none
  | _ => none

def boolField (record : List (String × Json)) (key : String) : Option Bool :=
  match record.lookup key with
  | some (.bool value) => some value
  | _ => none

def planMeta : Json → Option PlanMeta
  | .obj record => do
    if !strict ["visibility", "isPublicActivity", "isPublicIndexable", "searchConsent"] record then
      none
    let visibility ←
      textField (["public", "unlisted", "followers", "direct"].contains ·) record "visibility"
    let isPublicActivity ← boolField record "isPublicActivity"
    let isPublicIndexable ← match record.lookup "isPublicIndexable" with
      | none => some none
      | some _ => (boolField record "isPublicIndexable").map some
    let searchConsent ← match record.lookup "searchConsent" with
      | none => some none
      | some .null => some (some .null)
      | some (.obj consent) => some (some (.obj consent))
      | some _ => none
    return { visibility, isPublicActivity, isPublicIndexable, searchConsent }
  | _ => none

/-- `^apdm-v1-[a-f0-9]{64}$` -/
def isIntentId (value : String) : Bool :=
  "apdm-v1-".toList.isPrefixOf value.toList &&
    (value.toList.drop 8).length = 64 &&
    (value.toList.drop 8).all fun c => c.isDigit || ('a' ≤ c && c ≤ 'f')

def listField {α : Type} (item : Json → Option α) (record : List (String × Json)) (key : String) :
    Option (List α) :=
  match record.lookup key with
  | some (.arr items) => items.mapM item
  | _ => none

/-- The object schema before its refinement. -/
def planShape : Json → Option Plan
  | .obj record => do
    if !strict ["schema", "intentId", "activityId", "actorUri", "activity", "localRecipients",
        "remoteRecipients", "meta"] record then none
    let _ ← textField (· = "ap.delivery-plan.v1") record "schema"
    let intentId ← textField isIntentId record "intentId"
    let activityId ← textField (httpUrl env) record "activityId"
    let actorUri ← textField (httpUrl env) record "actorUri"
    let activity ← match record.lookup "activity" with
      | some (.obj activity) => some activity
      | _ => none
    let localRecipients ← listField (localDeliveryTarget env) record "localRecipients"
    let remoteRecipients ← listField (remoteDeliveryTarget env) record "remoteRecipients"
    let planMeta ← (record.lookup "meta").bind planMeta
    return { intentId, activityId, actorUri, activity, localRecipients, remoteRecipients, planMeta }
  | _ => none

end Schema

def normalizeId : Option Json → Option String
  | some (.str value) => some value
  | some (.obj record) =>
    let id := match record.lookup "id" with
      | none | some .null => record.lookup "@id"
      | some id => some id
    match id with
    | some (.str value) => some value
    | _ => none
  | _ => none

def normalizedAddresses : Json → List String
  | .arr values => values.filterMap fun value => normalizeId (some value)
  | value => (normalizeId (some value)).toList

def addressingValues (activity : List (String × Json)) (term : String) : List String :=
  let state := buildContextState (activity.lookup "@context") initialContext
  activity.flatMap fun (key, value) =>
    if canonicalAddressingTerm key state = some term then normalizedAddresses value else []

section Refinement
variable (env : Environment)

def withoutTrailingSlashes (path : String) : String :=
  String.ofList (path.toList.reverse.dropWhile (· = '/')).reverse

def isActorFollowersAddress (value actorUri : String) : Bool :=
  match env.parseUrl value, env.parseUrl actorUri with
  | some address, some actor =>
    if actor.search ≠ "" || actor.hash ≠ "" || address.search ≠ "" || address.hash ≠ "" then false
    else if address.origin ≠ actor.origin then false
    else withoutTrailingSlashes address.pathname =
      withoutTrailingSlashes actor.pathname ++ "/followers"
  | _, _ => false

/-- The actor of the activity, where its id is not empty. -/
def activityActor (activity : List (String × Json)) : Option String :=
  (normalizeId (activity.lookup "actor")).filter (· ≠ "")

def isOwnFollowers (activity : List (String × Json)) (value : String) : Bool :=
  match activityActor activity with
  | some actorUri => isActorFollowersAddress env value actorUri
  | none => false

def determineActivityVisibility (activity : List (String × Json)) : String :=
  let primary := addressingValues activity "to"
  let cc := addressingValues activity "cc"
  if primary.any publicAddresses.contains then "public"
  else if cc.any publicAddresses.contains then "unlisted"
  else if primary.any (isOwnFollowers env activity) then "followers"
  else "direct"

def hasSenderFollowersAudience (activity : List (String × Json)) : Bool :=
  (addressingValues activity "audience").any (isOwnFollowers env activity)

def getExplicitConcreteRecipientUris (activity : List (String × Json)) : List String :=
  ((addressingTerms.flatMap (addressingValues activity)).filter fun value =>
    !publicAddresses.contains value && !isOwnFollowers env activity value).eraseDups

/-- The canonical text that names a plan: sorted keys, no blanks. -/
def intentMaterial (activityId actorUri : String) (localUris remoteUris : List String) : String :=
  let uris (values : List String) :=
    "[" ++ String.intercalate "," ((values.eraseDups.mergeSort env.codeUnitLe).map env.quote) ++ "]"
  let entry (key text : String) := env.quote key ++ ":" ++ text
  "\x7b" ++ String.intercalate ","
    [entry "activityId" (env.quote activityId), entry "actorUri" (env.quote actorUri),
     entry "localRecipientUris" (uris localUris), entry "remoteRecipientUris" (uris remoteUris),
     entry "schema" (env.quote "ap.delivery-plan.v1")] ++ "\x7d"

def computeExpectedIntentId (activityId actorUri : String) (localUris remoteUris : List String) :
    String :=
  "apdm-v1-" ++ env.sha256Hex (intentMaterial env activityId actorUri localUris remoteUris)

/-- An issue where the condition holds. -/
def issueIf (condition : Bool) (path : List String) (message : String) : List Issue :=
  if condition then [⟨path, message⟩] else []

/-- `activity["id"] ?? activity["@id"]` -/
def embeddedId (activity : List (String × Json)) : Option Json :=
  match activity.lookup "id" with
  | none | some .null => activity.lookup "@id"
  | some id => some id

def visibilityIssues (plan : Plan) : List Issue :=
  let expectedVisibility := determineActivityVisibility env plan.activity
  let expectedPublic := expectedVisibility = "public" || expectedVisibility = "unlisted"
  issueIf (plan.planMeta.visibility ≠ expectedVisibility) ["meta", "visibility"]
      ("visibility must agree with embedded Activity addressing (" ++ expectedVisibility ++ ")") ++
    issueIf (plan.planMeta.isPublicActivity != expectedPublic) ["meta", "isPublicActivity"]
      "isPublicActivity must agree with visibility" ++
    issueIf (plan.planMeta.isPublicIndexable = some true && !expectedPublic)
      ["meta", "isPublicIndexable"]
      "private/followers/direct Activities cannot be public-indexable"

def recipientIssues (plan : Plan) : List Issue :=
  let localUris := plan.localRecipients.map (·.actorUri)
  let remoteUris := plan.remoteRecipients.map (·.actorUri)
  let omitted := (getExplicitConcreteRecipientUris env plan.activity).find? fun uri =>
    !(localUris ++ remoteUris).contains uri
  issueIf (localUris.eraseDups.length ≠ localUris.length) ["localRecipients"]
      "local recipient actorUri values must be unique" ++
    issueIf (remoteUris.eraseDups.length ≠ remoteUris.length) ["remoteRecipients"]
      "remote recipient actorUri values must be unique" ++
    issueIf (remoteUris.any localUris.contains) ["remoteRecipients"]
      "an actor cannot be both a local and remote recipient" ++
    issueIf ((omitted.filter (· ≠ "")).isSome) ["remoteRecipients"]
      ("Delivery Plan omits explicitly addressed recipient " ++ omitted.getD "") ++
    issueIf (plan.intentId ≠
        computeExpectedIntentId env plan.activityId plan.actorUri localUris remoteUris)
      ["intentId"] "intentId does not match the canonical Activity/recipient identity"

/-- The `superRefine` of the plan. -/
def refinePlan (plan : Plan) : List Issue :=
  issueIf (normalizeId (embeddedId plan.activity) ≠ some plan.activityId) ["activity"]
      "embedded Activity id must match activityId" ++
    issueIf (normalizeId (plan.activity.lookup "actor") ≠ some plan.actorUri) ["activity"]
      "embedded Activity actor must match actorUri" ++
    issueIf (containsBlindAudienceFields initialContext (.obj plan.activity)) ["activity"]
      "outbound Activity payload must not disclose bto/bcc blind addressing" ++
    issueIf (hasSenderFollowersAudience env plan.activity) ["activity", "audience"]
      "sender followers in audience require authoritative expansion before external delivery" ++
    visibilityIssues env plan ++ recipientIssues env plan

/-- The plan, where the parse succeeds. -/
def safeParseActivityPubDeliveryPlanV1 (value : Json) : Option Plan :=
  match planShape env value with
  | none => none
  | some plan => if (refinePlan env plan).isEmpty then some plan else none

end Refinement

end MastopodFederation.Source.DeliveryPlanContract
