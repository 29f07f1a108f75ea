import MastopodFederation.Lib.DueBatches
import MastopodFederation.Source.RecipientResolution

/-!
# Account routes and their stores

entryway/types.ts and entryway/AccountRouteStore.ts. Times are milliseconds since the epoch,
of which the texts are the ISO form, so that texts compare as times do. A stored idempotency
entry is the pair of its fingerprint, which is hexadecimal, and its account id; key names and
the JSON text of a route are left out.
-/
namespace MastopodFederation.Source.AccountRoutes
open Lib.DueBatches
open RecipientResolution (trim)

inductive AccountStatus where
  | provisioning | active | migrating | suspended | failed
  deriving DecidableEq

inductive ProvisioningPhase where
  | pending | usernameReserved | providerSelected | podAccountCreated | webIdDiscovered
  | actorValidated | appBootstrapReady | sessionReady | active | failed
  deriving DecidableEq

inductive CheckStatus where
  | passed | failed | warning
  deriving DecidableEq

structure BundleCheck where
  name : String
  status : CheckStatus
  checkedAt : Nat
  message : Option String
  retryable : Option Bool
  deriving DecidableEq

structure ProvisioningSnapshot where
  phase : ProvisioningPhase
  attempts : Nat
  idempotencyKeyHash : String
  requestFingerprint : String
  checks : List BundleCheck
  lastErrorCode : Option String
  lastErrorMessage : Option String
  lastAttemptAt : Option Nat
  completedAt : Option Nat
  deriving DecidableEq

inductive AppBootstrapStatus where
  | notConfigured | ready | failed
  deriving DecidableEq

structure AppBootstrapSnapshot where
  status : AppBootstrapStatus
  appClientId : String
  appRegistrationUri : Option String
  accessGrantUris : List String
  bootstrappedAt : Option Nat
  lastErrorCode : Option String
  lastErrorMessage : Option String
  deriving DecidableEq

structure AccountRoute where
  accountId : String
  canonicalAccountId : Option String
  username : String
  handle : String
  webId : String
  actorId : String
  inbox : Option String
  outbox : Option String
  followers : Option String
  following : Option String
  publicKeyOwner : Option String
  podStorageUrl : String
  providerId : String
  providerBaseUrl : String
  oidcIssuer : String
  atprotoDid : Option String
  atprotoHandle : Option String
  appBootstrap : Option AppBootstrapSnapshot
  status : AccountStatus
  provisioning : ProvisioningSnapshot
  createdAt : Nat
  updatedAt : Nat
  deriving DecidableEq

structure ReservationInput where
  accountId : String
  username : String
  idempotencyKeyHash : String
  requestFingerprint : String
  route : AccountRoute
  deriving DecidableEq

/-- `value` is `none` where it is not finite. -/
def clampLimit : Option Int → Nat
  | none => 50
  | some value => (max 1 (min 500 value)).toNat

/-- The route is being provisioned and was last changed before this time. -/
def isStale (beforeMs : Nat) (route : AccountRoute) : Bool :=
  route.status = .provisioning ∧ route.updatedAt < beforeMs

/-- `sort` by `updatedAt`, which is stable. -/
def stalestFirst (routes : List AccountRoute) : List AccountRoute :=
  routes.mergeSort fun left right => decide (left.updatedAt ≤ right.updatedAt)

/-- The stale ones among these routes, stalest first. -/
def staleRoutes (beforeMs : Nat) (routes : List AccountRoute) : List AccountRoute :=
  stalestFirst (routes.filter (isStale beforeMs))

/-- The routes of a Map, in the order in which they were added. -/
abbrev InMemoryRoutes := List AccountRoute

def InMemoryRoutes.listStaleProvisioning (routes : InMemoryRoutes) (beforeMs : Nat)
    (limit : Option Int) : List AccountRoute :=
  (staleRoutes beforeMs routes).take (clampLimit limit)

structure RedisAccountRouteStore where
  routes : String → Option AccountRoute
  usernames : String → Option String
  idempotency : String → Option (String × String)
  index : Schedule Nat String

/-- The reply of RESERVE_ROUTE_LUA. -/
inductive Reservation where
  | created
  | replayed (accountId : String)
  | usernameTaken (accountId : String)
  | idempotencyConflict (accountId : String)
  deriving DecidableEq

namespace RedisAccountRouteStore

def empty : RedisAccountRouteStore where
  routes _ := none
  usernames _ := none
  idempotency _ := none
  index := ⟨[], .nil, .nil⟩

/-- `Date.parse(route.createdAt) || Date.now()` -/
def indexScore (createdAt nowMs : Nat) : Nat := if createdAt = 0 then nowMs else createdAt

section
variable (toLowerCase : String → String)

def normalizeUsernameKey (username : String) : String := toLowerCase (trim username)

/-- RESERVE_ROUTE_LUA -/
def reserveScript (store : RedisAccountRouteStore) (input : ReservationInput) (nowMs : Nat) :
    Reservation × RedisAccountRouteStore :=
  match store.idempotency input.idempotencyKeyHash with
  | some (fingerprint, accountId) =>
    if fingerprint = input.requestFingerprint then (.replayed accountId, store)
    else (.idempotencyConflict accountId, store)
  | none =>
    let usernameKey := normalizeUsernameKey toLowerCase input.username
    match store.usernames usernameKey with
    | some accountId => (.usernameTaken accountId, store)
    | none => (.created, {
        routes := fun key => if key = input.accountId then some input.route else store.routes key
        usernames := fun key =>
          if key = usernameKey then some input.accountId else store.usernames key
        idempotency := fun key =>
          if key = input.idempotencyKeyHash then some (input.requestFingerprint, input.accountId)
          else store.idempotency key
        index := store.index.add (indexScore input.route.createdAt nowMs) input.accountId })

def save (store : RedisAccountRouteStore) (route : AccountRoute) (nowMs : Nat) :
    RedisAccountRouteStore where
  routes key := if key = route.accountId then some route else store.routes key
  usernames key :=
    if key = normalizeUsernameKey toLowerCase route.username then some route.accountId
    else store.usernames key
  idempotency := store.idempotency
  index := store.index.add (indexScore route.createdAt nowMs) route.accountId

end

/-- The accounts that `listStaleProvisioning` looks at: the first by creation time, three times
as many as it may return. -/
def staleWindow (store : RedisAccountRouteStore) (beforeMs : Nat) (limit : Option Int) :
    List String :=
  store.index.due beforeMs (clampLimit limit * 3)

def listStaleProvisioning (store : RedisAccountRouteStore) (beforeMs : Nat) (limit : Option Int) :
    List AccountRoute :=
  (staleRoutes beforeMs ((store.staleWindow beforeMs limit).filterMap store.routes)).take
    (clampLimit limit)

end RedisAccountRouteStore
end MastopodFederation.Source.AccountRoutes
