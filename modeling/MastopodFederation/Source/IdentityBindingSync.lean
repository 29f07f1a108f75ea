import MastopodFederation.Source.IdentityBindings

/-!
# Identity sync

applyIdentityProjectionLocally of at-adapter/identity/IdentityBindingSyncService.ts with the calls of
core-domain/services/IdentityBindingService.ts that write a binding, over
core-domain/identity/RedisIdentityBindingRepository.ts. Bindings are whole here, and calls follow
each other. A Redis command, or a MULTI, either succeeds or changes nothing and makes the call
throw. JSON is the identity, the clock and the references of generated keys are arguments.
-/
namespace MastopodFederation.Source.IdentityBindingSync
open Lib.Calls
open IdentityBindings (Index indexes AtprotoSource CanonicalDidMethod RepositoryErrorCode
  IdentityBindingServiceErrorCode Environment truthy indexKey ProvisionAtprotoIdentityRequest)

inductive PlcUpdateState where
  | pendingSubmission
  | submitted
  | confirmed
  | failed
  | stale
  deriving DecidableEq

structure Plc where
  opCid : Option String
  rotationKeyRef : Option String
  plcUpdateState : Option PlcUpdateState
  lastSubmittedAt : Option String
  lastConfirmedAt : Option String
  lastError : Option String
  deriving DecidableEq

structure DidWeb where
  hostname : Option String
  documentPath : Option String
  lastRenderedAt : Option String
  deriving DecidableEq

inductive AccountLinkVerificationStatus where
  | freshVerified
  | staleVerified
  | unverified
  | conflict
  | error
  deriving DecidableEq

structure AccountLinkVerificationRecord where
  subjectKey : String
  status : AccountLinkVerificationStatus
  checkedAt : String
  expiresAt : String
  sourceEtag : Option String
  sourceLastModified : Option String
  apLinkedToAt : Option Bool
  atLinkedToAp : Option Bool
  webLinkedToAp : Option Bool
  webLinkedToAt : Option Bool
  handleValidated : Option Bool
  errorMessage : Option String
  deriving DecidableEq

structure AccountLinks where
  apAlsoKnownAs : List String
  atAlsoKnownAs : List String
  relMe : List String
  webIdSameAs : List String
  webIdAccounts : List String
  verificationRecords : Option (List AccountLinkVerificationRecord)
  deriving DecidableEq

def AccountLinks.empty : AccountLinks := ⟨[], [], [], [], [], none⟩

inductive AccountStatus where
  | active
  | suspended
  | deactivated
  deriving DecidableEq

structure IdentityBinding where
  canonicalAccountId : String
  contextId : String
  webId : String
  activityPubActorUri : String
  atprotoDid : Option String
  atprotoHandle : Option String
  canonicalDidMethod : Option CanonicalDidMethod
  atprotoPdsEndpoint : Option String
  atprotoSource : Option AtprotoSource
  atprotoManaged : Option Bool
  apSigningKeyRef : String
  atSigningKeyRef : Option String
  atRotationKeyRef : Option String
  plc : Option Plc
  didWeb : Option DidWeb
  accountLinks : AccountLinks
  status : AccountStatus
  createdAt : String
  updatedAt : String
  deriving DecidableEq

/-- The binding of Source/IdentityBindings. -/
def IdentityBinding.core (binding : IdentityBinding) : IdentityBindings.IdentityBinding where
  canonicalAccountId := binding.canonicalAccountId
  contextId := binding.contextId
  webId := binding.webId
  activityPubActorUri := binding.activityPubActorUri
  atprotoDid := binding.atprotoDid
  atprotoHandle := binding.atprotoHandle
  canonicalDidMethod := binding.canonicalDidMethod
  atprotoPdsEndpoint := binding.atprotoPdsEndpoint
  atprotoSource := binding.atprotoSource
  atprotoManaged := binding.atprotoManaged
  apSigningKeyRef := binding.apSigningKeyRef
  atSigningKeyRef := binding.atSigningKeyRef
  atRotationKeyRef := binding.atRotationKeyRef
  plc := binding.plc.map (·.rotationKeyRef)
  didWeb := binding.didWeb.map (·.hostname)

inductive Failure where
  | redis
  | invalidUrl
  | repository (code : RepositoryErrorCode) (message : String)
  | service (code : IdentityBindingServiceErrorCode) (message : String)
  | sync (message : String)
  | registry (message : String)
  deriving DecidableEq

/-- The commands of a MULTI. -/
inductive Command where
  | set (binding : IdentityBinding)
  | sadd (accountId : String)
  | setIndex (index : Index) (key accountId : String)
  | delIndex (index : Index) (key : String)

inductive Call where
  | get (accountId : String)
  | existsBinding (accountId : String)
  | getIndex (index : Index) (key : String)
  | exec (commands : List Command)

/-- `none` where the command failed. -/
def Reply : Call → Type
  | .get _ => Option (Option IdentityBinding)
  | .existsBinding _ => Option Bool
  | .getIndex .. => Option (Option String)
  | .exec _ => Option Unit

structure Redis where
  bindings : String → Option IdentityBinding
  index : Index → String → Option String
  all : List String

namespace Redis

def empty : Redis := ⟨fun _ => none, fun _ _ => none, []⟩

def apply (s : Redis) : Command → Redis
  | .set binding =>
    { s with bindings := fun id =>
        if id = binding.canonicalAccountId then some binding else s.bindings id }
  | .sadd accountId => { s with all := s.all.insert accountId }
  | .setIndex index key accountId =>
    { s with index := fun i k => if i = index ∧ k = key then some accountId else s.index i k }
  | .delIndex index key =>
    { s with index := fun i k => if i = index ∧ k = key then none else s.index i k }

def applyAll (s : Redis) (commands : List Command) : Redis := commands.foldl apply s

def refuse : (c : Call) → Reply c
  | .get _ => none
  | .existsBinding _ => none
  | .getIndex .. => none
  | .exec _ => none

def answer (s : Redis) : (c : Call) → Reply c × Redis
  | .get accountId => (some (s.bindings accountId), s)
  | .existsBinding accountId => (some (s.bindings accountId).isSome, s)
  | .getIndex index key => (some (s.index index key), s)
  | .exec commands => (some (), s.applyAll commands)

/-- Run a program where each command fails as listed; those that are not listed succeed. -/
def run {α : Type} : Prog Call Reply Failure α → List Bool → Redis → Except Failure α × Redis
  | .done outcome, _, s => (outcome, s)
  | .call c next, faults, s =>
    if faults.headD false then run (next (refuse c)) faults.tail s
    else run (next (s.answer c).1) faults.tail (s.answer c).2

end Redis

abbrev Run := Prog Call Reply Failure

/-- A reply, or the error of the command. -/
def orThrow {α : Type} : Option α → Run α
  | some value => pure value
  | none => .fail .redis

def get (accountId : String) : Run (Option IdentityBinding) := .call (.get accountId) orThrow
def existsBinding (accountId : String) : Run Bool := .call (.existsBinding accountId) orThrow
def getIndex (index : Index) (key : String) : Run (Option String) :=
  .call (.getIndex index key) orThrow

def execMultiOrThrow (commands : List Command) (operation : String) : Run Unit :=
  .call (.exec commands) fun
    | some () => pure ()
    | none => .fail (.repository .persistenceError s!"{operation} failed")

section Repository
variable (env : Environment)

def getByCanonicalAccountId (accountId : String) : Run (Option IdentityBinding) := get accountId

/-- What `getByAtprotoHandle`, `getByActivityPubActorUri` and `getByWebId` share. -/
def getByIndex (index : Index) (identifier : String) : Run (Option IdentityBinding) := do
  match ← getIndex index (indexKey env index identifier) with
  | none => pure none
  | some accountId =>
    if accountId = "" then pure none else getByCanonicalAccountId accountId

def getByAtprotoHandle (handle : String) : Run (Option IdentityBinding) :=
  getByIndex env .handle handle
def getByActivityPubActorUri (actorUri : String) : Run (Option IdentityBinding) :=
  getByIndex env .actor actorUri
def getByWebId (webId : String) : Run (Option IdentityBinding) := getByIndex env .webId webId

/-- The index entries of a binding, made by a command for each. -/
def indexCommands (binding : IdentityBinding) (command : Index → String → Command) : List Command :=
  indexes.filterMap fun index =>
    (truthy (binding.core.identifier index)).map fun identifier =>
      command index (indexKey env index identifier)

def writeCommands (binding : IdentityBinding) : List Command :=
  .set binding :: .sadd binding.canonicalAccountId ::
    indexCommands env binding fun index key => .setIndex index key binding.canonicalAccountId

def write (binding : IdentityBinding) : Run Unit :=
  execMultiOrThrow (writeCommands env binding) "Identity binding write"

def removeIndexes (binding : IdentityBinding) : Run Unit :=
  execMultiOrThrow (indexCommands env binding .delIndex) "Identity index cleanup"

def create (binding : IdentityBinding) : Run Unit := do
  if ← existsBinding binding.canonicalAccountId then
    .fail (.repository .duplicate s!"Identity binding already exists: {binding.canonicalAccountId}")
  else write env binding

def update (binding : IdentityBinding) : Run Unit := do
  match ← get binding.canonicalAccountId with
  | none =>
    .fail (.repository .notFound s!"Identity binding not found: {binding.canonicalAccountId}")
  | some old => do
    removeIndexes env old
    write env binding

/-- What `upsert` stores at `now`. The fallbacks of `createdAt` are never needed: a binding has one. -/
def normalize (binding : IdentityBinding) (existing : Option IdentityBinding) (now : String) :
    IdentityBinding :=
  let atprotoSource :=
    (binding.atprotoSource.or (existing.bind (·.atprotoSource))).getD .local_
  let atprotoManaged := (binding.atprotoManaged.or (existing.bind (·.atprotoManaged))).getD
    (atprotoSource ≠ .external)
  { binding with
    atprotoSource := some atprotoSource
    atprotoManaged := some atprotoManaged
    atprotoPdsEndpoint := binding.atprotoPdsEndpoint.or (existing.bind (·.atprotoPdsEndpoint))
    updatedAt := now }

/-- The index entries that `upsert` deletes. -/
def replacedCommands (existing normalized : IdentityBinding) : List Command :=
  indexes.filterMap fun index =>
    if existing.core.identifier index = normalized.core.identifier index then none
    else (truthy (existing.core.identifier index)).map fun identifier =>
      .delIndex index (indexKey env index identifier)

def upsert (binding : IdentityBinding) (now : String) : Run Unit := do
  let existing ← getByCanonicalAccountId binding.canonicalAccountId
  let normalized := normalize binding existing now
  let replaced := match existing with
    | none => []
    | some existing => replacedCommands env existing normalized
  execMultiOrThrow (replaced ++ writeCommands env normalized) "Identity binding upsert"

end Repository

structure BackendRepoProjection where
  initialized : Bool
  rootCid : Option String
  rev : Option String
  deriving DecidableEq

/-- A projection of the backend. A value that is null and one that is absent are the same to the
service, and an empty text stands for a required text that is missing. -/
structure BackendIdentityProjection where
  canonicalAccountId : String
  webId : String
  activityPubActorId : Option String
  atprotoDid : String
  atprotoHandle : String
  atprotoSource : Option AtprotoSource
  atprotoManaged : Option Bool
  atprotoPdsUrl : Option String
  atSigningKeyRef : Option String
  atRotationKeyRef : Option String
  status : String
  repo : Option BackendRepoProjection
  createdAt : Option String
  deriving DecidableEq

/-- Whether the account is hosted elsewhere. -/
def BackendIdentityProjection.isExternal (payload : BackendIdentityProjection) : Bool :=
  payload.atprotoSource = some .external || payload.atprotoManaged = some false

def isBackendIdentityProjection (payload : BackendIdentityProjection) : Bool :=
  let hasLocalKeyRefs :=
    (truthy payload.atSigningKeyRef).isSome && (truthy payload.atRotationKeyRef).isSome
  payload.canonicalAccountId ≠ "" && payload.webId ≠ "" && payload.atprotoDid ≠ "" &&
    payload.atprotoHandle ≠ "" && payload.status ≠ "" &&
    ((payload.isExternal && (truthy payload.atprotoPdsUrl).isSome) || hasLocalKeyRefs)

def toLocalStatus (status : String) : AccountStatus :=
  if status = "active" then .active
  else if status = "disabled" then .suspended
  else .suspended

/-- The reference of the ActivityPub key that `toIdentityBinding` fills in. -/
def apSigningKeyRefOf (payload : BackendIdentityProjection) : String :=
  ((truthy payload.atSigningKeyRef).or (truthy payload.atRotationKeyRef)).getD
    (payload.canonicalAccountId ++ "#ap-signing")

/-- `updatedAt` is overwritten by `upsert`. -/
def toIdentityBinding (payload : BackendIdentityProjection) (now : String) : IdentityBinding :=
  let atprotoSource := payload.atprotoSource.getD .local_
  { canonicalAccountId := payload.canonicalAccountId
    contextId := "default"
    webId := payload.webId
    activityPubActorUri := payload.activityPubActorId.getD payload.webId
    atprotoDid := some payload.atprotoDid
    atprotoHandle := some payload.atprotoHandle
    canonicalDidMethod := none
    atprotoPdsEndpoint := payload.atprotoPdsUrl
    atprotoSource := some atprotoSource
    atprotoManaged := some (payload.atprotoManaged.getD (atprotoSource ≠ .external))
    apSigningKeyRef := apSigningKeyRefOf payload
    atSigningKeyRef := payload.atSigningKeyRef
    atRotationKeyRef := payload.atRotationKeyRef
    plc := some ⟨none, payload.atRotationKeyRef, none, none, none, none⟩
    didWeb := none
    accountLinks := .empty
    status := toLocalStatus payload.status
    createdAt := payload.createdAt.getD now
    updatedAt := now }

/-- What the registry says to `register`. -/
inductive Registration where
  | registered
  | alreadyExists
  | failed (message : String)
  deriving DecidableEq

/-- The methods that a registry has, with what they reply: whether the repository is known, or the
error of the call. -/
structure Registry where
  getRepoState : Option (Except String Bool)
  register : Option Registration

/-- The registry knows the repository. -/
def Registry.existing (registry : Registry) : Except Failure Bool :=
  match registry.getRepoState with
  | none => .ok false
  | some (.ok existing) => .ok existing
  | some (.error message) => .error (.registry message)

/-- `maybeWarmRepoRegistry`, with the root and the revision that it registers. -/
def maybeWarmRepoRegistry (payload : BackendIdentityProjection) (registry : Option Registry) :
    Except Failure (Option (String × String)) :=
  match registry with
  | none => .ok none
  | some registry =>
    if payload.isExternal then .ok none
    else
      match payload.repo with
      | none => .ok none
      | some repo =>
        if !repo.initialized then .ok none
        else
          match truthy repo.rootCid, truthy repo.rev with
          | some rootCid, some rev => do
            if ← registry.existing then pure none
            else
              match registry.register with
              | none => pure none
              | some .registered => pure (some (rootCid, rev))
              | some .alreadyExists => pure none
              | some (.failed message) => .error (.registry message)
          | _, _ => .ok none

/-- The clock is read when the binding is built and again when it is stored. -/
structure Clock where
  built : String
  stored : String
  deriving DecidableEq

def applyIdentityProjectionLocally (env : Environment) (payload : BackendIdentityProjection)
    (registry : Option Registry) (clock : Clock) : Run Unit :=
  if !isBackendIdentityProjection payload then
    .fail (.sync "Identity sync received invalid payload")
  else do
    upsert env (toIdentityBinding payload clock.built) clock.stored
    let _ ← Prog.done (maybeWarmRepoRegistry payload registry)
    pure ()

structure CreateIdentityBindingRequest extends IdentityBindings.CreateIdentityBindingRequest where
  apSigningKeyRef : Option String
  deriving DecidableEq

section Service
variable (env : Environment)

def bindingOf (request : CreateIdentityBindingRequest) (apSigningKeyRef now : String) :
    IdentityBinding where
  canonicalAccountId := request.canonicalAccountId
  contextId := request.contextId
  webId := request.webId
  activityPubActorUri := request.activityPubActorUri
  atprotoDid := none
  atprotoHandle := none
  canonicalDidMethod := none
  atprotoPdsEndpoint := none
  atprotoSource := none
  atprotoManaged := none
  apSigningKeyRef := apSigningKeyRef
  atSigningKeyRef := none
  atRotationKeyRef := none
  plc := none
  didWeb := none
  accountLinks := .empty
  status := .active
  createdAt := now
  updatedAt := now

/-- A repository error becomes one of the service. -/
def persistFailure (text : String) : Failure → Failure
  | .repository _ message => .service .repositoryError s!"{text}: {message}"
  | failure => failure

def createIdentityBinding (request : CreateIdentityBindingRequest) (generatedKeyRef now : String) :
    Run IdentityBinding := do
  match ← getByCanonicalAccountId request.canonicalAccountId with
  | some _ =>
    .fail (.service .accountAlreadyExists s!"Account {request.canonicalAccountId} already exists")
  | none => do
    match ← getByActivityPubActorUri env request.activityPubActorUri with
    | some _ =>
      .fail (.service .actorUriAlreadyBound
        s!"Actor URI {request.activityPubActorUri} is already bound")
    | none => do
      match ← getByWebId env request.webId with
      | some _ => .fail (.service .actorUriAlreadyBound s!"WebID {request.webId} is already bound")
      | none => do
        let apSigningKeyRef := (truthy request.apSigningKeyRef).getD generatedKeyRef
        let binding := bindingOf request apSigningKeyRef now
        if binding.core.validate ≠ [] then
          .fail (.service .validationFailed
            ("Binding validation failed: " ++ String.intercalate ", " binding.core.validate))
        else do
          (create env binding).mapError (persistFailure "Failed to persist binding")
          pure binding

/-- The binding with the identity of the request, unless the endpoint is no URL. -/
def provisioned (binding : IdentityBinding) (request : ProvisionAtprotoIdentityRequest)
    (commitKeyRef rotationKeyRef now : String) : Option IdentityBinding :=
  let updated : IdentityBinding := { binding with
    atprotoDid := truthy request.atprotoDid
    atprotoHandle := some request.atprotoHandle
    canonicalDidMethod := some request.canonicalDidMethod
    atprotoPdsEndpoint := some request.atprotoPdsEndpoint
    atSigningKeyRef := some commitKeyRef
    atRotationKeyRef := some rotationKeyRef
    updatedAt := now }
  match request.canonicalDidMethod with
  | .didPlc => some { updated with plc := some ⟨none, some rotationKeyRef, none, none, none, none⟩ }
  | .didWeb => (env.hostname request.atprotoPdsEndpoint).map fun hostname =>
      { updated with didWeb := some ⟨some hostname, some "/.well-known/did.json", none⟩ }

/-- Whether another account has the handle. -/
def handleTaken (request : ProvisionAtprotoIdentityRequest) : Run Bool :=
  if request.atprotoHandle = "" then pure false
  else do
    match ← getByAtprotoHandle env request.atprotoHandle with
    | none => pure false
    | some existing => pure (existing.canonicalAccountId ≠ request.canonicalAccountId)

/-- `getIdentityBinding`, where a binding that is missing is an error. -/
def requireBinding (accountId : String) : Run IdentityBinding := do
  match ← getByCanonicalAccountId accountId with
  | none => .fail (.service .bindingNotFound s!"Binding not found for account {accountId}")
  | some binding => pure binding

def provisionAtprotoIdentity (request : ProvisionAtprotoIdentityRequest)
    (commitKeyRef rotationKeyRef now : String) : Run IdentityBinding := do
  let binding ← requireBinding request.canonicalAccountId
  if (truthy binding.atprotoDid).isSome && binding.canonicalDidMethod.isSome then
    .fail (.service .invalidStateTransition
      s!"ATProto identity already provisioned for account {request.canonicalAccountId}")
  else do
    if ← handleTaken env request then
      .fail (.service .handleAlreadyBound
        s!"Handle {request.atprotoHandle} is already bound to another account")
    else
      match provisioned env binding request commitKeyRef rotationKeyRef now with
      | none => .fail .invalidUrl
      | some updated =>
        if updated.core.validate ≠ [] then
          .fail (.service .validationFailed
            ("Updated binding validation failed: " ++ String.intercalate ", " updated.core.validate))
        else do
          update env updated
          pure updated

/-- What `suspendAccount` and `reactivateAccount` share. -/
def setStatus (accountId : String) (status : AccountStatus) (text now : String) :
    Run IdentityBinding := do
  let binding ← requireBinding accountId
  let updated := { binding with status := status, updatedAt := now }
  (update env updated).mapError (persistFailure text)
  pure updated

def suspendAccount (accountId now : String) : Run IdentityBinding :=
  setStatus env accountId .suspended "Failed to suspend account" now

def reactivateAccount (accountId now : String) : Run IdentityBinding :=
  setStatus env accountId .active "Failed to reactivate account" now

end Service

/-- A call that writes a binding. -/
inductive Step where
  | create (request : CreateIdentityBindingRequest) (generatedKeyRef now : String)
  | provision (request : ProvisionAtprotoIdentityRequest)
      (commitKeyRef rotationKeyRef now : String)
  | suspend (accountId now : String)
  | reactivate (accountId now : String)
  | project (payload : BackendIdentityProjection) (registry : Option Registry) (clock : Clock)

def Step.program (env : Environment) : Step → Run Unit
  | .create request generatedKeyRef now => do
    let _ ← createIdentityBinding env request generatedKeyRef now
    pure ()
  | .provision request commitKeyRef rotationKeyRef now => do
    let _ ← provisionAtprotoIdentity env request commitKeyRef rotationKeyRef now
    pure ()
  | .suspend accountId now => do
    let _ ← suspendAccount env accountId now
    pure ()
  | .reactivate accountId now => do
    let _ ← reactivateAccount env accountId now
    pure ()
  | .project payload registry clock => applyIdentityProjectionLocally env payload registry clock

/-- A call and the commands that fail in it. -/
abbrev FaultyStep := Step × List Bool

def perform (env : Environment) (s : Redis) (step : FaultyStep) : Except Failure Unit × Redis :=
  Redis.run (step.1.program env) step.2 s

/-- What is stored after the calls, whatever their outcomes. -/
def performAll (env : Environment) (s : Redis) (steps : List FaultyStep) : Redis :=
  steps.foldl (fun s step => (perform env s step).2) s

end MastopodFederation.Source.IdentityBindingSync
