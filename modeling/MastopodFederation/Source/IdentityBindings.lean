import MastopodFederation.Lib.WorkerPool

/-!
# Identity bindings

core-domain/identity/RedisIdentityBindingRepository.ts over Redis, with createIdentityBinding and
provisionAtprotoIdentity of core-domain/services/IdentityBindingService.ts. A Redis command, or a
MULTI, either succeeds or changes nothing and makes the call throw. JSON is the identity, the
references of generated keys are arguments and published events change no binding.
-/
namespace MastopodFederation.Source.IdentityBindings
open Lib.Calls Lib.WorkerPool

inductive CanonicalDidMethod where
  | didPlc
  | didWeb
  deriving DecidableEq

inductive AtprotoSource where
  | local_
  | external
  deriving DecidableEq

structure IdentityBinding where
  canonicalAccountId : String
  contextId : String
  webId : String
  activityPubActorUri : String
  atprotoDid : Option String
  atprotoHandle : Option String
  canonicalDidMethod : Option CanonicalDidMethod
  atprotoPdsEndpoint : Option String
  atprotoSource : Option AtprotoSource
  atprotoManaged : Option Bool
  apSigningKeyRef : String
  atSigningKeyRef : Option String
  atRotationKeyRef : Option String
  /-- the rotation key of the PLC state -/
  plc : Option (Option String)
  /-- the hostname of the did:web state -/
  didWeb : Option (Option String)
  deriving DecidableEq

/-- The families of index keys. -/
inductive Index where
  | did
  | handle
  | actor
  | webId
  deriving DecidableEq

def indexes : List Index := [.did, .handle, .actor, .webId]

def IdentityBinding.identifier (binding : IdentityBinding) : Index → Option String
  | .did => binding.atprotoDid
  | .handle => binding.atprotoHandle
  | .actor => some binding.activityPubActorUri
  | .webId => some binding.webId

structure Environment where
  toLowerCase : String → String
  /-- `new URL(endpoint).hostname`, which throws where the endpoint is no URL -/
  hostname : String → Option String

inductive RepositoryErrorCode where
  | duplicate
  | notFound
  | persistenceError
  deriving DecidableEq

inductive IdentityBindingServiceErrorCode where
  | bindingNotFound
  | accountAlreadyExists
  | handleAlreadyBound
  | actorUriAlreadyBound
  | validationFailed
  | repositoryError
  | invalidStateTransition
  deriving DecidableEq

inductive Failure where
  | redis
  | invalidUrl
  | repository (code : RepositoryErrorCode) (message : String)
  | service (code : IdentityBindingServiceErrorCode) (message : String)
  deriving DecidableEq

/-- The commands of a MULTI. -/
inductive Command where
  | set (binding : IdentityBinding)
  | sadd (accountId : String)
  | setIndex (index : Index) (key accountId : String)
  | delIndex (index : Index) (key : String)

inductive Call where
  | get (accountId : String)
  | existsBinding (accountId : String)
  | getIndex (index : Index) (key : String)
  | exec (commands : List Command)
  | del (accountId : String)
  | srem (accountId : String)

/-- `none` where the command failed. -/
def Reply : Call → Type
  | .get _ => Option (Option IdentityBinding)
  | .existsBinding _ => Option Bool
  | .getIndex .. => Option (Option String)
  | _ => Option Unit

structure Redis where
  bindings : String → Option IdentityBinding
  index : Index → String → Option String
  all : List String

namespace Redis

def empty : Redis := ⟨fun _ => none, fun _ _ => none, []⟩

def apply (s : Redis) : Command → Redis
  | .set binding =>
    { s with bindings := fun id =>
        if id = binding.canonicalAccountId then some binding else s.bindings id }
  | .sadd accountId => { s with all := s.all.insert accountId }
  | .setIndex index key accountId =>
    { s with index := fun i k => if i = index ∧ k = key then some accountId else s.index i k }
  | .delIndex index key =>
    { s with index := fun i k => if i = index ∧ k = key then none else s.index i k }

def applyAll (s : Redis) (commands : List Command) : Redis := commands.foldl apply s

def refuse : (c : Call) → Reply c
  | .get _ => none
  | .existsBinding _ => none
  | .getIndex .. => none
  | .exec _ => none
  | .del _ => none
  | .srem _ => none

def answer (s : Redis) : (c : Call) → Reply c × Redis
  | .get accountId => (some (s.bindings accountId), s)
  | .existsBinding accountId => (some (s.bindings accountId).isSome, s)
  | .getIndex index key => (some (s.index index key), s)
  | .exec commands => (some (), s.applyAll commands)
  | .del accountId =>
    (some (), { s with bindings := fun id => if id = accountId then none else s.bindings id })
  | .srem accountId => (some (), { s with all := s.all.erase accountId })

end Redis

abbrev Run := Prog Call Reply Failure

/-- A reply, or the error of the command. -/
def orThrow {α : Type} : Option α → Run α
  | some value => pure value
  | none => .fail .redis

def get (accountId : String) : Run (Option IdentityBinding) := .call (.get accountId) orThrow
def existsBinding (accountId : String) : Run Bool := .call (.existsBinding accountId) orThrow
def getIndex (index : Index) (key : String) : Run (Option String) :=
  .call (.getIndex index key) orThrow
def del (accountId : String) : Run Unit := .call (.del accountId) orThrow
def srem (accountId : String) : Run Unit := .call (.srem accountId) orThrow

def execMultiOrThrow (commands : List Command) (operation : String) : Run Unit :=
  .call (.exec commands) fun
    | some () => pure ()
    | none => .fail (.repository .persistenceError s!"{operation} failed")

section Repository
variable (env : Environment)

/-- The key of an identifier in its index. -/
def indexKey : Index → String → String
  | .handle, handle => env.toLowerCase handle
  | _, identifier => identifier

def getByCanonicalAccountId (accountId : String) : Run (Option IdentityBinding) := get accountId

/-- What `getByAtprotoDid`, `getByAtprotoHandle`, `getByActivityPubActorUri` and `getByWebId` share. -/
def getByIndex (index : Index) (identifier : String) : Run (Option IdentityBinding) := do
  match ← getIndex index (indexKey env index identifier) with
  | none => pure none
  | some accountId =>
    if accountId = "" then pure none else getByCanonicalAccountId accountId

def getByAtprotoDid (did : String) : Run (Option IdentityBinding) := getByIndex env .did did
def getByAtprotoHandle (handle : String) : Run (Option IdentityBinding) :=
  getByIndex env .handle handle
def getByActivityPubActorUri (actorUri : String) : Run (Option IdentityBinding) :=
  getByIndex env .actor actorUri
def getByWebId (webId : String) : Run (Option IdentityBinding) := getByIndex env .webId webId

/-- The identifier, unless it is missing or empty. -/
def truthy (identifier : Option String) : Option String := identifier.filter (· ≠ "")

/-- The index entries of a binding, made by a command for each. -/
def indexCommands (binding : IdentityBinding) (command : Index → String → Command) : List Command :=
  indexes.filterMap fun index =>
    (truthy (binding.identifier index)).map fun identifier =>
      command index (indexKey env index identifier)

def writeCommands (binding : IdentityBinding) : List Command :=
  .set binding :: .sadd binding.canonicalAccountId ::
    indexCommands env binding fun index key => .setIndex index key binding.canonicalAccountId

def write (binding : IdentityBinding) : Run Unit :=
  execMultiOrThrow (writeCommands env binding) "Identity binding write"

def removeIndexes (binding : IdentityBinding) : Run Unit :=
  execMultiOrThrow (indexCommands env binding .delIndex) "Identity index cleanup"

def create (binding : IdentityBinding) : Run Unit := do
  if ← existsBinding binding.canonicalAccountId then
    .fail (.repository .duplicate s!"Identity binding already exists: {binding.canonicalAccountId}")
  else write env binding

def update (binding : IdentityBinding) : Run Unit := do
  match ← get binding.canonicalAccountId with
  | none =>
    .fail (.repository .notFound s!"Identity binding not found: {binding.canonicalAccountId}")
  | some old => do
    removeIndexes env old
    write env binding

/-- What `upsert` stores. -/
def normalize (binding : IdentityBinding) (existing : Option IdentityBinding) : IdentityBinding :=
  let atprotoSource :=
    (binding.atprotoSource.or (existing.bind (·.atprotoSource))).getD .local_
  let atprotoManaged := (binding.atprotoManaged.or (existing.bind (·.atprotoManaged))).getD
    (atprotoSource ≠ .external)
  { binding with
    atprotoSource := some atprotoSource
    atprotoManaged := some atprotoManaged
    atprotoPdsEndpoint := binding.atprotoPdsEndpoint.or (existing.bind (·.atprotoPdsEndpoint)) }

/-- The index entries that `upsert` deletes. -/
def replacedCommands (existing normalized : IdentityBinding) : List Command :=
  indexes.filterMap fun index =>
    if existing.identifier index = normalized.identifier index then none
    else (truthy (existing.identifier index)).map fun identifier =>
      .delIndex index (indexKey env index identifier)

def upsert (binding : IdentityBinding) : Run Unit := do
  let existing ← getByCanonicalAccountId binding.canonicalAccountId
  let normalized := normalize binding existing
  let replaced := match existing with
    | none => []
    | some existing => replacedCommands env existing normalized
  execMultiOrThrow (replaced ++ writeCommands env normalized) "Identity binding upsert"

def delete (accountId : String) : Run Bool := do
  match ← get accountId with
  | none => pure false
  | some binding => do
    removeIndexes env binding
    del accountId
    srem accountId
    pure true

end Repository

/-- Run a program where each command fails as listed; those that are not listed succeed. -/
def Redis.run {α : Type} : Prog Call Reply Failure α → List Bool → Redis → Except Failure α × Redis
  | .done outcome, _, s => (outcome, s)
  | .call c next, faults, s =>
    if faults.headD false then run (next (Redis.refuse c)) faults.tail s
    else run (next (s.answer c).1) faults.tail (s.answer c).2

inductive RepositoryCall where
  | create (binding : IdentityBinding)
  | update (binding : IdentityBinding)
  | upsert (binding : IdentityBinding)
  | delete (accountId : String)

def RepositoryCall.program (env : Environment) : RepositoryCall → Run Unit
  | .create binding => IdentityBindings.create env binding
  | .update binding => IdentityBindings.update env binding
  | .upsert binding => IdentityBindings.upsert env binding
  | .delete accountId => do
    let _ ← IdentityBindings.delete env accountId
    pure ()

/-- A call of the repository and the commands that fail in it. -/
abbrev FaultyCall := RepositoryCall × List Bool

def perform (env : Environment) (s : Redis) (call : FaultyCall) : Except Failure Unit × Redis :=
  Redis.run (call.1.program env) call.2 s

structure CreateIdentityBindingRequest where
  canonicalAccountId : String
  contextId : String
  webId : String
  activityPubActorUri : String
  deriving DecidableEq

structure ProvisionAtprotoIdentityRequest where
  canonicalAccountId : String
  atprotoDid : Option String
  atprotoHandle : String
  canonicalDidMethod : CanonicalDidMethod
  atprotoPdsEndpoint : String
  deriving DecidableEq

namespace IdentityBinding

def validateKeyDistinctness (binding : IdentityBinding) : Bool :=
  match truthy binding.atRotationKeyRef, truthy binding.atSigningKeyRef with
  | some rotation, some signing => rotation ≠ signing
  | _, _ => true

def validatePlcKeyMirror (binding : IdentityBinding) : Bool :=
  match binding.plc with
  | none => true
  | some rotationKeyRef =>
    match truthy binding.atRotationKeyRef with
    | none => rotationKeyRef = none
    | some rotation => rotationKeyRef = some rotation

def validateDidMethodConsistency (binding : IdentityBinding) : Bool :=
  match binding.canonicalDidMethod with
  | none => binding.plc.isNone && binding.didWeb.isNone
  | some .didPlc => binding.plc.isSome && binding.didWeb.isNone
  | some .didWeb => binding.plc.isNone && binding.didWeb.isSome

/-- The errors that `validate` lists. -/
def validate (binding : IdentityBinding) : List String :=
  (if binding.validateKeyDistinctness then [] else ["AT rotation key must differ from signing key"]) ++
  (if binding.validatePlcKeyMirror then [] else ["PLC rotation key must mirror AT rotation key"]) ++
  (if binding.validateDidMethodConsistency then [] else ["DID method state is inconsistent"])

end IdentityBinding

section Service
variable (env : Environment)

def bindingOf (request : CreateIdentityBindingRequest) (apSigningKeyRef : String) : IdentityBinding where
  canonicalAccountId := request.canonicalAccountId
  contextId := request.contextId
  webId := request.webId
  activityPubActorUri := request.activityPubActorUri
  atprotoDid := none
  atprotoHandle := none
  canonicalDidMethod := none
  atprotoPdsEndpoint := none
  atprotoSource := none
  atprotoManaged := none
  apSigningKeyRef := apSigningKeyRef
  atSigningKeyRef := none
  atRotationKeyRef := none
  plc := none
  didWeb := none

/-- A repository error becomes one of the service. -/
def persistFailure : Failure → Failure
  | .repository _ message => .service .repositoryError s!"Failed to persist binding: {message}"
  | failure => failure

def createIdentityBinding (request : CreateIdentityBindingRequest) (apSigningKeyRef : String) :
    Run IdentityBinding := do
  match ← getByCanonicalAccountId request.canonicalAccountId with
  | some _ =>
    .fail (.service .accountAlreadyExists s!"Account {request.canonicalAccountId} already exists")
  | none => do
    match ← getByActivityPubActorUri env request.activityPubActorUri with
    | some _ =>
      .fail (.service .actorUriAlreadyBound
        s!"Actor URI {request.activityPubActorUri} is already bound")
    | none => do
      match ← getByWebId env request.webId with
      | some _ => .fail (.service .actorUriAlreadyBound s!"WebID {request.webId} is already bound")
      | none => do
        let binding := bindingOf request apSigningKeyRef
        if binding.validate ≠ [] then
          .fail (.service .validationFailed
            ("Binding validation failed: " ++ String.intercalate ", " binding.validate))
        else do
          (create env binding).mapError persistFailure
          pure binding

/-- The binding with the identity of the request, unless the endpoint is no URL. -/
def provisioned (binding : IdentityBinding) (request : ProvisionAtprotoIdentityRequest)
    (commitKeyRef rotationKeyRef : String) : Option IdentityBinding :=
  let updated : IdentityBinding := { binding with
    atprotoDid := truthy request.atprotoDid
    atprotoHandle := some request.atprotoHandle
    canonicalDidMethod := some request.canonicalDidMethod
    atprotoPdsEndpoint := some request.atprotoPdsEndpoint
    atSigningKeyRef := some commitKeyRef
    atRotationKeyRef := some rotationKeyRef }
  match request.canonicalDidMethod with
  | .didPlc => some { updated with plc := some (some rotationKeyRef) }
  | .didWeb => (env.hostname request.atprotoPdsEndpoint).map fun hostname =>
      { updated with didWeb := some (some hostname) }

/-- Whether another account has the handle. -/
def handleTaken (request : ProvisionAtprotoIdentityRequest) : Run Bool :=
  if request.atprotoHandle = "" then pure false
  else do
    match ← getByAtprotoHandle env request.atprotoHandle with
    | none => pure false
    | some existing => pure (existing.canonicalAccountId ≠ request.canonicalAccountId)

def provisionAtprotoIdentity (request : ProvisionAtprotoIdentityRequest)
    (commitKeyRef rotationKeyRef : String) : Run IdentityBinding := do
  match ← getByCanonicalAccountId request.canonicalAccountId with
  | none =>
    .fail (.service .bindingNotFound s!"Binding not found for account {request.canonicalAccountId}")
  | some binding =>
    if (truthy binding.atprotoDid).isSome && binding.canonicalDidMethod.isSome then
      .fail (.service .invalidStateTransition
        s!"ATProto identity already provisioned for account {request.canonicalAccountId}")
    else do
      if ← handleTaken env request then
        .fail (.service .handleAlreadyBound
          s!"Handle {request.atprotoHandle} is already bound to another account")
      else
        match provisioned env binding request commitKeyRef rotationKeyRef with
        | none => .fail .invalidUrl
        | some updated =>
          if updated.validate ≠ [] then
            .fail (.service .validationFailed
              ("Updated binding validation failed: " ++ String.intercalate ", " updated.validate))
          else do
            update env updated
            pure updated

end Service

/-- A call of the service, with the references of the keys that are generated for it. -/
inductive ServiceCall where
  | create (request : CreateIdentityBindingRequest) (apSigningKeyRef : String)
  | provision (request : ProvisionAtprotoIdentityRequest) (commitKeyRef rotationKeyRef : String)
  deriving DecidableEq

def ServiceCall.program (env : Environment) : ServiceCall → Run IdentityBinding
  | .create request apSigningKeyRef => createIdentityBinding env request apSigningKeyRef
  | .provision request commitKeyRef rotationKeyRef =>
    provisionAtprotoIdentity env request commitKeyRef rotationKeyRef

structure Accounts where
  redis : Redis
  /-- the accounts that had a binding when one was created for them -/
  overwritten : List String

namespace Accounts

def empty : Accounts := ⟨.empty, []⟩

/-- What a call that creates overwrites. -/
def overwrites (s : Accounts) : ServiceCall → Call → List String
  | .create request _, .exec _ =>
    if (s.redis.bindings request.canonicalAccountId).isSome then [request.canonicalAccountId] else []
  | _, _ => []

def answer (s : Accounts) (call : ServiceCall) (c : Call) : Reply c × Accounts :=
  ((s.redis.answer c).1, ⟨(s.redis.answer c).2, s.overwritten ++ s.overwrites call c⟩)

end Accounts

/-- Calls of the service, each Redis command and MULTI of which is atomic. -/
def identitySystem (env : Environment) :
    System Accounts ServiceCall Empty Call Reply Failure IdentityBinding where
  effect call c s reply after := s.answer call c = (reply, after)
  starts _ worker := worker.program = worker.tag.program env
  acts event _ _ := event.elim

end MastopodFederation.Source.IdentityBindings
