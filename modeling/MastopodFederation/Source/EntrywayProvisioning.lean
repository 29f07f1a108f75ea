import MastopodFederation.Lib.WorkerPool
import MastopodFederation.Source.AccountRoutes

/-!
# Provisioning of accounts

`createAccount` and `recoverStaleProvisioning` of entryway/EntrywayProvisioningService.ts.
Awaited reads and writes of the store, the clock, the provider router, the preflight, the
provider, the verifier and the bootstrapper are calls. Digests, the order of check names and
lower case are parameters. An error that is not an EntrywayError is its sanitized message.
`release` has no counterpart: it marks the end of the work on an account.
-/
namespace MastopodFederation.Source.EntrywayProvisioning
open Lib.LuaTable Lib.Calls Lib.WorkerPool AccountRoutes
open RecipientResolution (trim)

structure ProtocolSet where
  solid : Bool
  activitypub : Bool
  atproto : Bool
  deriving DecidableEq

/-- `protocols.atproto`, a boolean or an object. -/
inductive AtprotoOption where
  | flag (value : Bool)
  | object (enabled : Option Bool) (handle didMethod : Option String)

structure ProtocolOptions where
  solid : Option Bool
  activitypub : Option Bool
  atproto : Option AtprotoOption

structure CreateInput where
  username : String
  email : Option String
  password : String
  displayName : String
  summary : Option String
  protocols : Option ProtocolOptions
  providerId : Option String
  appClientId : Option String
  redirectUri : Option String
  verification : Option Json
  idempotencyKey : String

structure ProviderDefinition where
  providerId : String
  baseUrl : String
  appClientId : String
  enabled : Option Bool
  appBootstrapEnabled : Option Bool
  deriving DecidableEq

structure EntrywayError where
  code : String
  message : String
  retryable : Bool
  deriving DecidableEq

inductive Thrown where
  | entryway (error : EntrywayError)
  | other (sanitizedMessage : String)
  deriving DecidableEq

def Thrown.code (fallback : String) : Thrown → String
  | .entryway error => error.code
  | .other _ => fallback

/-- `sanitizeErrorMessage` -/
def Thrown.sanitized : Thrown → String
  | .entryway error => error.message
  | .other sanitizedMessage => sanitizedMessage

structure Environment where
  toLowerCase : String → String
  fingerprintRequest : CreateInput → ProtocolSet → String
  hashIdempotencyKey : String → String
  /-- the first 24 digits of the SHA-256 digest -/
  keyDigest : String → String
  /-- `left.localeCompare(right) <= 0` -/
  localeLe : String → String → Bool
  hasPreflight : Bool
  hasBootstrapper : Bool
  staleProvisioningAfterMs : Nat

/-- What `AccountBundleVerifier.verifyActor` reads of an actor. -/
structure ActorUpdates where
  inbox : String
  outbox : String
  followers : String
  following : String
  publicKeyOwner : Option String

structure Verification where
  passed : Bool
  checks : List BundleCheck
  routeUpdates : Option ActorUpdates

structure SessionHandoff where
  redirect : Bool
  url : Option String
  handoffId : Option String
  expiresAt : Option String

structure BootstrapResult where
  snapshot : AppBootstrapSnapshot
  sessionHandoff : Option SessionHandoff

inductive Call where
  | now
  | randomUUID
  /-- RESERVE_ROUTE_LUA -/
  | reserve (input : ReservationInput)
  /-- the read of the route of a replayed request, and Date.now() when it is judged -/
  | getReplayed (accountId : String)
  | getByAccountId (accountId : String)
  | save (route : AccountRoute)
  | zrangebyscore (beforeMs count : Nat)
  /-- the read of some listed routes, of which the stale ones are looked for -/
  | mget (accountIds : List String) (beforeMs : Nat)
  | getProvider (providerId : String)
  | listProviders (providerId : Option String) (username : String) (protocols : ProtocolSet)
  | assertProviderReady (provider : ProviderDefinition) (protocols : ProtocolSet)
  /-- the provider's account request for this account -/
  | createProviderAccount (accountId : String) (provider : ProviderDefinition)
      (idempotencyKey : String) (account : CreateInput) (protocols : ProtocolSet)
  | verify (route : AccountRoute)
  | bootstrap (provider : ProviderDefinition) (route : AccountRoute)
  /-- the work on the account is over -/
  | release (accountId : String)

abbrev Reply : Call → Type
  | .now => Nat
  | .randomUUID => String
  | .reserve _ => Reservation
  | .getReplayed _ => Option AccountRoute × Nat
  | .getByAccountId _ => Option AccountRoute
  | .save _ => Unit
  | .zrangebyscore _ _ => List String
  | .mget _ _ => List (Option AccountRoute)
  | .getProvider _ => Option ProviderDefinition
  | .listProviders _ _ _ => Except Thrown (List ProviderDefinition)
  | .assertProviderReady _ _ => Except Thrown (List BundleCheck)
  | .createProviderAccount _ _ _ _ _ => Except Thrown Json
  | .verify _ => Verification
  | .bootstrap _ _ => Except Thrown BootstrapResult
  | .release _ => Unit

/-- A program of the service. -/
abbrev Run (α : Type) := Prog Call Reply Thrown α

def ask (c : Call) : Run (Reply c) := .call c fun reply => .done (.ok reply)

/-- A call whose reply may be an error. -/
def tryAsk {α : Type} (c : Call) (reply : Reply c → Except Thrown α) : Run α :=
  .call c fun given => .done (reply given)

def failWith {α : Type} (code message : String) (retryable : Bool) : Run α :=
  .fail (.entryway ⟨code, message, retryable⟩)

section
variable (env : Environment)

def isUsernameEdge (c : Char) : Bool := ('a' ≤ c ∧ c ≤ 'z') ∨ ('0' ≤ c ∧ c ≤ '9')

/-- `/^[a-z0-9][a-z0-9_-]{1,62}[a-z0-9]$/` -/
def isUsername (username : String) : Bool :=
  let chars := username.toList
  3 ≤ chars.length && chars.length ≤ 64 &&
    chars.all (fun c => isUsernameEdge c || c = '_' || c = '-') &&
    (chars.head?.any isUsernameEdge) && (chars.getLast?.any isUsernameEdge)

def normalizeUsername (value : String) : Run String :=
  let username := env.toLowerCase (trim value)
  if isUsername username then pure username
  else failWith "invalid_username"
    "Username must be 3-64 lowercase letters, numbers, underscores, or hyphens" false

def isKeyChar (c : Char) : Bool :=
  ('A' ≤ c ∧ c ≤ 'Z') ∨ ('a' ≤ c ∧ c ≤ 'z') ∨ ('0' ≤ c ∧ c ≤ '9') ∨
    c = '.' ∨ c = '_' ∨ c = ':' ∨ c = '-'

/-- `/^[A-Za-z0-9._:-]{8,200}$/` -/
@[irreducible] def isIdempotencyKey (key : String) : Bool :=
  8 ≤ key.length && key.length ≤ 200 && key.toList.all isKeyChar

def normalizeIdempotencyKey (value : String) : Run String :=
  let trimmed := trim value
  if isIdempotencyKey trimmed then pure trimmed
  else failWith "invalid_idempotency_key" "Idempotency key is invalid" false

/-- `value?.trim() || undefined` -/
def optionalText (value : Option String) : Option String := (value.map trim).filter (· ≠ "")

def normalizeCreateInput (input : CreateInput) : Run CreateInput := do
  let username ← normalizeUsername env input.username
  let idempotencyKey ← normalizeIdempotencyKey input.idempotencyKey
  return { input with
    username, idempotencyKey
    email := (input.email.map fun email => env.toLowerCase (trim email)).filter (· ≠ "")
    displayName := trim input.displayName
    summary := optionalText input.summary
    providerId := optionalText input.providerId
    appClientId := optionalText input.appClientId
    redirectUri := optionalText input.redirectUri }

/-- `value !== false` -/
def notFalse (value : Option Bool) : Bool := value ≠ some false

def normalizeProtocols (protocols : Option ProtocolOptions) : ProtocolSet where
  solid := notFalse (protocols.bind (·.solid))
  activitypub := notFalse (protocols.bind (·.activitypub))
  atproto :=
    match protocols.bind (·.atproto) with
    | some (.object enabled _ _) => notFalse enabled
    | some (.flag value) => value
    | none => true

def buildInitialRoute (accountId username idempotencyKeyHash requestFingerprint : String)
    (now : Nat) : AccountRoute where
  accountId := accountId
  canonicalAccountId := none
  username := username
  handle := ""
  webId := ""
  actorId := ""
  inbox := none
  outbox := none
  followers := none
  following := none
  publicKeyOwner := none
  podStorageUrl := ""
  providerId := ""
  providerBaseUrl := ""
  oidcIssuer := ""
  atprotoDid := none
  atprotoHandle := none
  appBootstrap := none
  status := .provisioning
  provisioning := ⟨.usernameReserved, 0, idempotencyKeyHash, requestFingerprint, [], none, none,
    none, none⟩
  createdAt := now
  updatedAt := now

/-- `typeof value === "string" && value.trim() ? value.trim() : undefined` -/
def getString : Option Json → Option String
  | some (.str value) => if trim value = "" then none else some (trim value)
  | _ => none

/-- The field of a value that is an object, else undefined. -/
def getField (value : Option Json) (key : String) : Option Json :=
  match value with
  | some (.obj entries) => entries.lookup key
  | _ => none

def mapProviderResultToRoute (provider : ProviderDefinition) (result : Json) :
    Except Thrown (AccountRoute → AccountRoute) :=
  let activitypub := getField (some result) "activitypub"
  let solid := getField (some result) "solid"
  let atproto := getField (some result) "atproto"
  let canonicalAccountId := getString (getField (some result) "canonicalAccountId")
  let webId := (getString (getField (some result) "webId")).orElse fun _ =>
    getString (getField solid "webId")
  let actorId := getString (getField activitypub "actorId")
  let podStorageUrl := (getString (getField solid "podBaseUrl")).orElse fun _ =>
    getString (getField solid "storageUrl")
  match canonicalAccountId, webId, actorId, podStorageUrl with
  | some canonicalAccountId, some webId, some actorId, some podStorageUrl =>
    let atprotoHandle := getString (getField atproto "handle")
    .ok fun current => { current with
      canonicalAccountId := some canonicalAccountId
      webId := webId
      actorId := actorId
      handle := ((getString (getField activitypub "handle")).orElse fun _ => atprotoHandle).getD ""
      inbox := getString (getField activitypub "inbox")
      outbox := getString (getField activitypub "outbox")
      podStorageUrl := podStorageUrl
      providerId := provider.providerId
      providerBaseUrl := provider.baseUrl
      oidcIssuer := provider.baseUrl
      atprotoDid := getString (getField atproto "did")
      atprotoHandle := atprotoHandle }
  | _, _, _, _ => .error (.entryway
      ⟨"provider_incomplete_account", "Provider account response was incomplete", false⟩)

def buildProviderIdempotencyKey (route : AccountRoute) : String :=
  "entryway:" ++ route.accountId ++ ":" ++ env.keyDigest route.provisioning.idempotencyKeyHash

/-- `byName.set(check.name, check)` -/
def setCheck (checks : List BundleCheck) (check : BundleCheck) : List BundleCheck :=
  if checks.any (·.name = check.name) then
    checks.map fun other => if other.name = check.name then check else other
  else checks ++ [check]

def mergeChecks (existing next : List BundleCheck) : List BundleCheck :=
  ((existing ++ next).foldl setCheck []).mergeSort fun left right =>
    env.localeLe left.name right.name

/-- Read the route, change it and write it back. -/
def updateRoute (accountId : String) (patch : AccountRoute → AccountRoute) : Run AccountRoute := do
  match ← ask (.getByAccountId accountId) with
  | none => failWith "route_not_found" "Entryway account route was not found" false
  | some current =>
    let now ← ask .now
    let updated := { patch current with updatedAt := now }
    ask (.save updated)
    return updated

def markFailed (accountId : String) (error : Thrown) : Run (Option AccountRoute) := do
  match ← ask (.getByAccountId accountId) with
  | none => return none
  | some route =>
    let now ← ask .now
    let updated := { route with
      status := .failed
      provisioning := { route.provisioning with
        phase := .failed
        lastErrorCode := some (error.code "entryway_provisioning_failed")
        lastErrorMessage := some error.sanitized }
      updatedAt := now }
    ask (.save updated)
    return some updated

/-- `instanceof EntrywayError`, else the preflight's own error. -/
def preflightError : Thrown → EntrywayError
  | .entryway error => error
  | .other _ => ⟨"provider_preflight_failed", "Provider preflight failed", true⟩

def summarizeProviderSelectionFailure (errors : List EntrywayError) : Thrown :=
  if errors.isEmpty then .entryway
    ⟨"provider_not_available", "No Entryway provider is currently available", true⟩
  else if errors.all (·.code = "unauthorized_app") then .entryway
    ⟨"unauthorized_app", "Entryway app client is not allowed for any configured provider", false⟩
  else .entryway ⟨"provider_not_available",
    "No configured Entryway provider can satisfy the requested account bundle",
    errors.all (·.retryable)⟩

def preflight (provider : ProviderDefinition) (protocols : ProtocolSet) : Run (List BundleCheck) :=
  if env.hasPreflight then tryAsk (.assertProviderReady provider protocols) id else pure []

/-- Check one provider and note it in the route. -/
def selectProvider (route : AccountRoute) (provider : ProviderDefinition)
    (protocols : ProtocolSet) : Run ProviderDefinition := do
  let preflightChecks ← preflight env provider protocols
  let latest ← ask (.getByAccountId route.accountId)
  let provisioning := (latest.map (·.provisioning)).getD route.provisioning
  let _ ← updateRoute route.accountId fun current => { current with
    providerId := provider.providerId
    providerBaseUrl := provider.baseUrl
    oidcIssuer := provider.baseUrl
    provisioning := { provisioning with
      phase := .providerSelected
      checks := mergeChecks env provisioning.checks preflightChecks } }
  return provider

/-- The first provider that is enabled, allowed and ready; only one candidate where it was asked
for or chosen before. -/
def tryProviders (route : AccountRoute) (input : CreateInput) (protocols : ProtocolSet)
    (single : Bool) : List EntrywayError → List ProviderDefinition → Run ProviderDefinition
  | errors, [] => .fail (summarizeProviderSelectionFailure errors)
  | errors, provider :: rest =>
    if provider.enabled = some false then tryProviders route input protocols single errors rest
    else if input.appClientId.any (· ≠ provider.appClientId) then
      let error : EntrywayError := ⟨"unauthorized_app",
        "Entryway app client is not allowed for the selected provider", false⟩
      if single then .fail (.entryway error)
      else tryProviders route input protocols single (errors ++ [error]) rest
    else
      (selectProvider env route provider protocols).rescue fun thrown =>
        let error := preflightError thrown
        if single then .fail (.entryway error)
        else tryProviders route input protocols single (errors ++ [error]) rest

/-- The provider that is noted in the route. -/
def existingProvider (route : AccountRoute) : Run (Option ProviderDefinition) :=
  if route.providerId = "" then pure none else ask (.getProvider route.providerId)

def candidateProviders (route : AccountRoute) (input : CreateInput) (protocols : ProtocolSet) :
    Option ProviderDefinition → Run (List ProviderDefinition)
  | some provider => pure [provider]
  | none => tryAsk (.listProviders input.providerId route.username protocols) id

def resolveProvider (route : AccountRoute) (input : CreateInput) (protocols : ProtocolSet) :
    Run ProviderDefinition := do
  let existing ← existingProvider route
  let candidates ← candidateProviders route input protocols existing
  if candidates.isEmpty then
    failWith "provider_not_configured" "No Entryway provider is configured" true
  else
    tryProviders env route input protocols (input.providerId.isSome || existing.isSome) []
      candidates

def hasProviderData (route : AccountRoute) : Bool :=
  route.webId ≠ "" && route.actorId ≠ "" && route.podStorageUrl ≠ ""

def ensureProviderAccount (route : AccountRoute) (provider : ProviderDefinition)
    (input : CreateInput) (protocols : ProtocolSet) : Run AccountRoute := do
  let latest ← ask (.getByAccountId route.accountId)
  match latest.filter hasProviderData with
  | some latest => return latest
  | none =>
    let providerResult ← tryAsk (.createProviderAccount route.accountId provider
      (buildProviderIdempotencyKey env route) input protocols) id
    let routeUpdates ← .done (mapProviderResultToRoute provider providerResult)
    let provisioning := (latest.map (·.provisioning)).getD route.provisioning
    updateRoute route.accountId fun current =>
      { routeUpdates current with
        provisioning := { provisioning with phase := .podAccountCreated } }

/-- `...verification.routeUpdates` -/
def applyUpdates (route : AccountRoute) : Option ActorUpdates → AccountRoute
  | none => route
  | some updates => { route with
      inbox := some updates.inbox
      outbox := some updates.outbox
      followers := some updates.followers
      following := some updates.following
      publicKeyOwner := updates.publicKeyOwner }

def verifyAccountBundle (route : AccountRoute) : Run AccountRoute := do
  let discovered ← updateRoute route.accountId fun current =>
    { current with provisioning := { route.provisioning with phase := .webIdDiscovered } }
  let verification ← ask (.verify discovered)
  let checked ← updateRoute discovered.accountId fun current =>
    { applyUpdates current verification.routeUpdates with
      provisioning := { discovered.provisioning with
        phase := if verification.passed then .actorValidated else .failed
        checks := mergeChecks env discovered.provisioning.checks verification.checks
        lastErrorCode := if verification.passed then none else some "bundle_verification_failed"
        lastErrorMessage :=
          if verification.passed then none else some "Account bundle verification failed" } }
  if verification.passed then return checked
  else failWith "bundle_verification_failed" "Account bundle verification failed" true

/-- The bootstrap itself. -/
def bootstrapApp (route : AccountRoute) (provider : ProviderDefinition) :
    Run (AccountRoute × Option SessionHandoff) := do
  let result ← tryAsk (.bootstrap provider route) id
  let updated ← updateRoute route.accountId fun current =>
    { current with
      appBootstrap := some result.snapshot
      provisioning := { route.provisioning with
        phase := if result.sessionHandoff.isSome then .sessionReady else .appBootstrapReady } }
  return (updated, result.sessionHandoff)

/-- Note a failed bootstrap in the route. -/
def noteBootstrapFailure (route : AccountRoute) (provider : ProviderDefinition) (thrown : Thrown) :
    Run AccountRoute :=
  let code := thrown.code "app_bootstrap_failed"
  updateRoute route.accountId fun current =>
    { current with
      appBootstrap := some {
        status := .failed
        appClientId := provider.appClientId
        accessGrantUris := (route.appBootstrap.map AppBootstrapSnapshot.accessGrantUris).getD []
        appRegistrationUri := route.appBootstrap.bind (·.appRegistrationUri)
        bootstrappedAt := none
        lastErrorCode := some code
        lastErrorMessage := some thrown.sanitized }
      provisioning := { route.provisioning with
        phase := .failed
        lastErrorCode := some code
        lastErrorMessage := some thrown.sanitized } }

def bootstrapAppIfConfigured (route : AccountRoute) (provider : ProviderDefinition) :
    Run (AccountRoute × Option SessionHandoff) :=
  if !env.hasBootstrapper || provider.appBootstrapEnabled ≠ some true then return (route, none)
  else if route.appBootstrap.any (·.status = .ready) then return (route, none)
  else
    (bootstrapApp route provider).rescue fun thrown => do
      let _ ← noteBootstrapFailure route provider thrown
      .fail thrown

def activateRoute (route : AccountRoute) : Run AccountRoute := do
  let now ← ask .now
  updateRoute route.accountId fun current =>
    { current with
      status := .active
      provisioning := { route.provisioning with phase := .active, completedAt := some now } }

structure ProvisioningResult where
  route : AccountRoute
  replayed : Bool
  sessionHandoff : Option SessionHandoff

def isStaleProvisioning (nowMs : Nat) (route : AccountRoute) : Bool :=
  route.updatedAt + env.staleProvisioningAfterMs < nowMs

/-- A replayed request goes on with this route. -/
def resumes (nowMs : Nat) (route : AccountRoute) : Bool :=
  route.status ≠ .active && !(route.status = .provisioning && !isStaleProvisioning env nowMs route)

/-- The route as an attempt first saves it. -/
def startAttempt (reserved : AccountRoute) (now : Nat) : AccountRoute :=
  { reserved with
    status := .provisioning
    provisioning := { reserved.provisioning with
      attempts := reserved.provisioning.attempts + 1
      lastAttemptAt := some now
      lastErrorCode := none
      lastErrorMessage := none }
    updatedAt := now }

/-- The first save of an attempt, and the attempt. -/
def provision (reserved : AccountRoute) (normalized : CreateInput) (protocols : ProtocolSet)
    (now : Nat) (replayed : Bool) : Run ProvisioningResult := do
  let route := startAttempt reserved now
  ask (.save route)
  (do
    let provider ← resolveProvider env route normalized protocols
    let providerBackedRoute ← ensureProviderAccount env route provider normalized protocols
    let verifiedRoute ← verifyAccountBundle env providerBackedRoute
    let (bootstrapped, sessionHandoff) ← bootstrapAppIfConfigured env verifiedRoute provider
    let activeRoute ← activateRoute bootstrapped
    ask (.release route.accountId)
    return (⟨activeRoute, replayed, sessionHandoff⟩ : ProvisioningResult)).rescue fun thrown => do
    let _ ← markFailed route.accountId thrown
    ask (.release route.accountId)
    match thrown with
    | .entryway error => .fail (.entryway error)
    | .other _ => failWith "entryway_provisioning_failed" "Account provisioning failed" false

def idempotencyConflict {α : Type} : Run α :=
  failWith "idempotency_key_conflict" "Idempotency key was already used for a different request"
    false

def createAccount (input : CreateInput) : Run ProvisioningResult := do
  let normalized ← normalizeCreateInput env input
  let protocols := normalizeProtocols normalized.protocols
  let requestFingerprint := env.fingerprintRequest normalized protocols
  let idempotencyKeyHash := env.hashIdempotencyKey normalized.idempotencyKey
  let now ← ask .now
  let accountId := "acct_" ++ (← ask .randomUUID)
  let reservedRoute :=
    buildInitialRoute accountId normalized.username idempotencyKeyHash requestFingerprint now
  match ← ask (.reserve
      ⟨accountId, normalized.username, idempotencyKeyHash, requestFingerprint, reservedRoute⟩) with
  | .created => provision env reservedRoute normalized protocols now false
  | .replayed existingAccountId =>
    let (existing, nowMs) ← ask (.getReplayed existingAccountId)
    match existing with
    | none => idempotencyConflict
    | some route =>
      if resumes env nowMs route then provision env route normalized protocols now true
      else if route.status = .active then return ⟨route, true, none⟩
      else failWith "provisioning_in_progress" "Account provisioning is already in progress" true
  | .usernameTaken existingAccountId =>
    match ← ask (.getByAccountId existingAccountId) with
    | none => idempotencyConflict
    | some _ => failWith "username_unavailable" "Username is already reserved" false
  | .idempotencyConflict existingAccountId =>
    let _ ← ask (.getByAccountId existingAccountId)
    idempotencyConflict

def staleRouteMgetBatchSize : Nat := 256

/-- Lists of at most this many ids. -/
def batches (size : Nat) : Nat → List String → List (List String)
  | 0, _ => []
  | _ + 1, [] => []
  | fuel + 1, ids => ids.take size :: batches size fuel (ids.drop size)

theorem flatten_batches {size : Nat} (room : 0 < size) :
    ∀ (fuel : Nat) (accountIds : List String), accountIds.length ≤ fuel →
      (batches size fuel accountIds).flatten = accountIds
  | 0, accountIds, short => by
    rw [List.eq_nil_of_length_eq_zero (by omega : accountIds.length = 0)]
    rfl
  | _ + 1, [], _ => rfl
  | fuel + 1, accountId :: accountIds, short => by
    have shorter : ((accountId :: accountIds).drop size).length ≤ fuel := by
      rw [List.length_drop]
      rw [List.length_cons] at short ⊢
      omega
    rw [batches, List.flatten_cons, flatten_batches room fuel _ shorter, List.take_append_drop]
    exact List.cons_ne_nil _ _

def loadRoutesByAccountIds (beforeMs : Nat) : List (List String) → Run (List (Option AccountRoute))
  | [] => return []
  | batch :: rest => do
    let routes ← ask (.mget batch beforeMs)
    return routes ++ (← loadRoutesByAccountIds beforeMs rest)

/-- The work on these accounts is over. -/
def releaseAll : List AccountRoute → Run Unit
  | [] => return ()
  | route :: rest => do
    ask (.release route.accountId)
    releaseAll rest

def listStaleProvisioning (beforeMs : Nat) (limit : Option Int) : Run (List AccountRoute) := do
  let boundedLimit := clampLimit limit
  let accountIds ← ask (.zrangebyscore beforeMs (boundedLimit * 3))
  let routes ← loadRoutesByAccountIds beforeMs
    (batches staleRouteMgetBatchSize accountIds.length accountIds)
  let stale := staleRoutes beforeMs (routes.filterMap id)
  releaseAll (stale.drop boundedLimit)
  return stale.take boundedLimit

def bootstrapWith (verifiedRoute : AccountRoute) :
    Option ProviderDefinition → Run (AccountRoute × Option SessionHandoff)
  | some provider => bootstrapAppIfConfigured env verifiedRoute provider
  | none => pure (verifiedRoute, none)

/-- One attempt of a recovery run. -/
def recoverRoute (route : AccountRoute) : Run AccountRoute := do
  let provider ← existingProvider route
  let verifiedRoute ← verifyAccountBundle env route
  let bootstrapped ← bootstrapWith env verifiedRoute provider
  activateRoute bootstrapped.1

structure RecoveryCounts where
  recovered : Nat
  failed : Nat
  skipped : Nat

def recoverAll : RecoveryCounts → List AccountRoute → Run RecoveryCounts
  | counts, [] => return counts
  | counts, route :: rest => do
    if !hasProviderData route then
      ask (.release route.accountId)
      recoverAll { counts with skipped := counts.skipped + 1 } rest
    else
      match ← (recoverRoute env route).attempt with
      | .ok _ =>
        ask (.release route.accountId)
        recoverAll { counts with recovered := counts.recovered + 1 } rest
      | .error thrown =>
        let _ ← markFailed route.accountId thrown
        ask (.release route.accountId)
        recoverAll { counts with failed := counts.failed + 1 } rest

def recoverStaleProvisioning (limit : Option Int) : Run RecoveryCounts := do
  let now ← ask .now
  let staleRoutes ← listStaleProvisioning (now - env.staleProvisioningAfterMs) limit
  recoverAll env ⟨0, 0, 0⟩ staleRoutes

end

/-- The store, the clock, the account ids that were drawn, the idempotency keys under which
providers were asked for an account, and which process is at work on an account. -/
structure World where
  store : RedisAccountRouteStore
  nowMs : Nat
  issued : List String
  requests : List (String × String)
  marks : List (String × Nat)

def World.working (w : World) (accountId : String) : Option Nat := w.marks.lookup accountId

/-- The process is at work on these accounts from here on. -/
def World.begin (w : World) (process : Nat) (accountIds : List String) : World :=
  { w with marks := accountIds.map (·, process) ++ w.marks }

/-- Nobody is at work on the account. -/
def World.release (w : World) (accountId : String) : World :=
  { w with marks := w.marks.filter (·.1 ≠ accountId) }

theorem World.working_begin (w : World) (process : Nat) (accountIds : List String)
    (accountId : String) : (w.begin process accountIds).working accountId =
      if accountId ∈ accountIds then some process else w.working accountId := by
  unfold World.working World.begin
  induction accountIds with
  | nil => rfl
  | cons first rest ih =>
    simp only [List.map_cons, List.cons_append, List.lookup_cons, List.mem_cons]
    by_cases same : accountId = first
    · simp [same]
    · rw [beq_false_of_ne same]
      simpa [same] using ih

theorem World.working_release (w : World) (accountId other : String) :
    (w.release accountId).working other =
      if other = accountId then none else w.working other := by
  unfold World.working World.release
  dsimp only
  induction w.marks with
  | nil => simp
  | cons mark rest ih =>
    by_cases own : mark.1 = accountId
    · rw [List.filter_cons_of_neg (by simpa using own), ih]
      split
      next => rfl
      next same =>
        have apart : (other == mark.1) = false := beq_false_of_ne (own ▸ same)
        rw [List.lookup_cons, apart]
    · rw [List.filter_cons_of_pos (by simpa using own), List.lookup_cons, List.lookup_cons, ih]
      split
      next here =>
        have apart : other ≠ accountId := eq_of_beq here ▸ own
        rw [if_neg apart]
      next => rfl

/-- A read after which a process goes on to work on accounts. -/
def takesUp (env : Environment) (w : World) : Call → List String
  | .getReplayed accountId =>
    if (w.store.routes accountId).any (resumes env w.nowMs) then [accountId] else []
  | .mget accountIds beforeMs =>
    ((accountIds.filterMap w.store.routes).filter (isStale beforeMs)).map (·.accountId)
  | _ => []

/-- What a call of a process does. Services outside the store may answer anything. -/
def effect (env : Environment) (process : Nat) : (c : Call) → World → Reply c → World → Prop
  | .now, w, reply, after => reply = w.nowMs ∧ after = w
  | .randomUUID, w, reply, after =>
    "acct_" ++ reply ∉ w.issued ∧
      after = { w.begin process ["acct_" ++ reply] with issued := ("acct_" ++ reply) :: w.issued }
  | .reserve input, w, reply, after =>
    let (answer, store) := w.store.reserveScript env.toLowerCase input w.nowMs
    reply = answer ∧ after = { w with store := store }
  | .getReplayed accountId, w, reply, after =>
    reply = (w.store.routes accountId, w.nowMs) ∧
      after = w.begin process (takesUp env w (.getReplayed accountId))
  | .getByAccountId accountId, w, reply, after => reply = w.store.routes accountId ∧ after = w
  | .save route, w, _, after =>
    after = { w with store := w.store.save env.toLowerCase route w.nowMs }
  | .zrangebyscore beforeMs count, w, reply, after =>
    reply = w.store.index.due beforeMs count ∧ after = w
  | .mget accountIds beforeMs, w, reply, after =>
    reply = accountIds.map w.store.routes ∧
      after = w.begin process (takesUp env w (.mget accountIds beforeMs))
  | .createProviderAccount accountId _ idempotencyKey _ _, w, _, after =>
    after = { w with requests := (accountId, idempotencyKey) :: w.requests }
  | .release accountId, w, _, after =>
    after = w.release accountId
  | .getProvider _, w, _, after | .listProviders _ _ _, w, _, after
  | .assertProviderReady _ _, w, _, after | .verify _, w, _, after
  | .bootstrap _ _, w, _, after => after = w

def World.empty (nowMs : Nat) : World := ⟨.empty, nowMs, [], [], []⟩

/-- What a process is called for. -/
inductive Task where
  | create (input : CreateInput)
  | recover (limit : Option Int)

def Task.program (env : Environment) : Task → Run Unit
  | .create input => do
    let _ ← createAccount env input
    return ()
  | .recover limit => do
    let _ ← recoverStaleProvisioning env limit
    return ()

/-- The clock shows this time. -/
inductive ClockEvent where
  | tick (nowMs : Nat)

/-- Any number of processes over one store. The number of a process marks no account when it
starts. -/
def provisioningSystem (env : Environment) :
    System World Nat ClockEvent Call Reply Thrown Unit where
  effect := effect env
  starts w worker :=
    (∀ mark ∈ w.marks, mark.2 ≠ worker.tag) ∧
      ∃ task : Task, worker.program = task.program env
  acts event w after :=
    match event with
    | .tick nowMs => after = { w with nowMs := nowMs }

end MastopodFederation.Source.EntrywayProvisioning
