import MastopodFederation.Lib.XorDigest
import MastopodFederation.Source.HttpSignature

/-!
# Followers collection synchronization

The receiving side of fep8fcf/FollowersSyncService.ts with what it calls in
CollectionSyncHeader.ts, PartialFollowersDigest.ts and FollowersSyncActivityPodsClient.ts.
URL parsing, SHA-256, `trim` and the two requests are parameters. What
`removeLocalFollow` and the stale-entry callback return decides nothing, so a run is the
list of their calls; the callbacks are started by concurrent runners. A limit is what
the constructor clamps it to.
-/
namespace MastopodFederation.Source.FollowersSync
open Lib.LuaTable Lib.XorDigest DelayedQueue HttpSignature

abbrev Entries := List (String × Json)

structure Url where
  href : String
  protocol : String
  origin : String
  username : String
  password : String
  deriving DecidableEq

structure Response where
  statusCode : Nat
  byteLength : Nat
  /-- JSON.parse of the body -/
  parsed : Option Json

structure Environment where
  parseUrl : String → Option Url
  sha256 : String → BitVec 256
  trim : String → String
  /-- GET local-followers-of-remote; nothing where the request fails -/
  localFollowersOfRemote : (remoteActorUri : String) → Option Response
  /-- the signed GET; nothing where signing or the request fails -/
  signedGet : (url signerActorUri : String) → Option Response

structure Config where
  domain : String
  maxRemoteCollectionBytes : Nat
  maxRemoteCollectionItems : Nat
  maxRemoteFollowerUriBytes : Nat
  staleCleanupConcurrency : Nat
  /-- `onStaleRemoteEntry` is given -/
  cleansStaleEntries : Bool

structure CollectionSyncParams where
  collectionId : String
  url : String
  digest : String
  deriving DecidableEq

def parseCollectionSyncHeader (headerValue : String) : Option CollectionSyncParams := do
  let params := parseSignatureHeader true headerValue
  let collectionId ← params.lookup "collectionId"
  let url ← params.lookup "url"
  let digest ← params.lookup "digest"
  if collectionId = "" || url = "" || digest = "" then none else some ⟨collectionId, url, digest⟩

def extractFollowersUri (actorDocument : Entries) (actorUri : String) : String :=
  let conventional := actorUri ++ "/followers"
  match actorDocument.lookup "followers" with
  | some (.str followers) => if followers = "" then conventional else followers
  | some (.obj followers) =>
    match followers.lookup "id" with
    | some (.str id) => id
    | _ => conventional
  | _ => conventional

section Service
variable (env : Environment)

def validateCollectionSyncHeader (params : CollectionSyncParams) (senderFollowersUri : String) :
    Except String Unit :=
  if params.collectionId ≠ senderFollowersUri then
    .error (s!"collectionId \x22{params.collectionId}\x22 does not match sender followers " ++
      s!"collection \x22{senderFollowersUri}\x22")
  else
    match env.parseUrl params.collectionId, env.parseUrl params.url with
    | some collection, some sync =>
      if collection.origin ≠ sync.origin then
        .error (s!"url origin \x22{sync.origin}\x22 does not match collectionId origin " ++
          s!"\x22{collection.origin}\x22")
      else .ok ()
    | _, _ => .error "collectionId or url is not a valid URL"

/-- `acc.toString("hex")` -/
def hexDigest (acc : BitVec 256) : String := hex (n := 64) acc

def computePartialFollowersDigest (followerIds : List String) : String :=
  hexDigest (digest env.sha256 followerIds)

def maxResponseBytes : Nat := 2 * 1024 * 1024
def maxCollectionItems : Nat := 10000
def maxUriBytes : Nat := 4096
def maxIdentifierBytes : Nat := 512

structure LocalActorFollowerRecord where
  actorUri : String
  identifier : String
  deriving DecidableEq

/-- A body of JSON within its limit that is an object, of a response with a status of 2xx. -/
def readBoundedJson (maxBytes : Nat) (response : Response) : Option Entries :=
  if response.statusCode < 200 || response.statusCode ≥ 300 || response.byteLength > maxBytes then
    none
  else
    match response.parsed with
    | some (.obj entries) => some entries
    | _ => none

def normalizeHttpUri : Option Json → Option String
  | some (.str value) =>
    if value = "" || value.utf8ByteSize > maxUriBytes then none
    else
      match env.parseUrl value with
      | none => none
      | some parsed =>
        if (parsed.protocol ≠ "http:" && parsed.protocol ≠ "https:") || parsed.username ≠ "" ||
            parsed.password ≠ "" then none
        else some parsed.href
  | _ => none

def normalizeIdentifier : Option Json → Option String
  | some (.str value) =>
    let trimmed := env.trim value
    if trimmed = "" || trimmed.utf8ByteSize > maxIdentifierBytes then none else some trimmed
  | _ => none

def readLocalActor (value : Json) : Option LocalActorFollowerRecord := do
  let actorUri ← normalizeHttpUri env ((recordOf value).lookup "actorUri")
  let identifier ← normalizeIdentifier env ((recordOf value).lookup "identifier")
  some ⟨actorUri, identifier⟩

/-- Nothing where it throws: an answer that is not authoritative is no empty list. -/
def getLocalFollowersOfRemote (remoteActorUri : String) :
    Option (List LocalActorFollowerRecord) := do
  let response ← env.localFollowersOfRemote remoteActorUri
  let body ← readBoundedJson maxResponseBytes response
  match body.lookup "localActors" with
  | some (.arr localActors) =>
    if localActors.length > maxCollectionItems then none
    else localActors.mapM (readLocalActor env)
  | _ => none

/-- The URI that an item gives. -/
def itemUri : Json → Option String
  | .str uri => some uri
  | .obj item =>
    match item.lookup "id" with
    | some (.str id) => some id
    | _ => none
  | _ => none

/-- A follower URI that is kept: not empty, within its limit and of HTTP. -/
def isFollowerUri (maxUriBytes : Nat) (uri : String) : Bool :=
  uri ≠ "" && uri.utf8ByteSize ≤ maxUriBytes &&
    match env.parseUrl uri with
    | some parsed => parsed.protocol = "http:" || parsed.protocol = "https:"
    | none => false

def parseCompleteRemoteFollowersCollection (body : Entries) (maxItems maxUriBytes : Nat) :
    Option (List String) :=
  match orElse (body.lookup "orderedItems") (body.lookup "items") with
  | some (.arr items) =>
    if items.length > maxItems then none
    else items.mapM fun item => (itemUri item).filter (isFollowerUri env maxUriBytes)
  | _ => none

variable (config : Config)

def fetchRemotePartialCollection (url signerActorUri : String) : Option (List String) := do
  let response ← env.signedGet url signerActorUri
  let body ← readBoundedJson config.maxRemoteCollectionBytes response
  parseCompleteRemoteFollowersCollection env body config.maxRemoteCollectionItems
    config.maxRemoteFollowerUriBytes

/-- `Map.set`: a key that is there keeps its place. -/
def setRecord (record : LocalActorFollowerRecord) :
    List LocalActorFollowerRecord → List LocalActorFollowerRecord
  | [] => [record]
  | first :: rest =>
    if first.actorUri = record.actorUri then record :: rest else first :: setRecord record rest

/-- `new Map(localFollowers.map((f) => [f.actorUri, f]))` -/
def localMap (localFollowers : List LocalActorFollowerRecord) : List LocalActorFollowerRecord :=
  localFollowers.foldl (fun map record => setRecord record map) []

def isLocal (uri : String) : Bool :=
  match env.parseUrl uri with
  | some parsed => parsed.origin = "https://" ++ config.domain
  | none => false

/-- The calls of a reconciliation: the identifiers to remove, and the entries to clean up. -/
structure Reconciliation where
  removed : List String
  staleRemoteUris : List String
  deriving DecidableEq

/-- `[...new Set(uris)]` -/
def distinct (uris : List String) : List String :=
  uris.foldl (fun kept uri => if uri ∈ kept then kept else kept ++ [uri]) []

def reconcile (localFollowers : List LocalActorFollowerRecord)
    (remotePartialFollowers : List String) : Reconciliation :=
  let remoteLocalUris := distinct (remotePartialFollowers.filter (isLocal env config))
  let followers := localMap localFollowers
  { removed := (followers.filter fun record => record.actorUri ∉ remoteLocalUris).map
      (·.identifier)
    staleRemoteUris :=
      if config.cleansStaleEntries then
        remoteLocalUris.filter fun uri => uri ∉ followers.map (·.actorUri)
      else [] }

structure Inbound where
  headerValue : String
  senderActorUri : String
  senderActorDoc : Entries
  localActorUri : String

def processInboundSyncHeader (inbound : Inbound) : Reconciliation :=
  match parseCollectionSyncHeader inbound.headerValue with
  | none => ⟨[], []⟩
  | some params =>
    let senderFollowersUri := extractFollowersUri inbound.senderActorDoc inbound.senderActorUri
    match validateCollectionSyncHeader env params senderFollowersUri with
    | .error _ => ⟨[], []⟩
    | .ok _ =>
      match getLocalFollowersOfRemote env inbound.senderActorUri with
      | none => ⟨[], []⟩
      | some localFollowers =>
        if computePartialFollowersDigest env (localFollowers.map (·.actorUri)) = params.digest then
          ⟨[], []⟩
        else
          match fetchRemotePartialCollection env config params.url inbound.localActorUri with
          | none => ⟨[], []⟩
          | some remoteFollowers => reconcile env config localFollowers remoteFollowers

end Service

section Concurrency
variable {α : Type}

/-- A runner that takes its next item, one whose worker is under way, and one that returned. -/
inductive Runner where
  | ready | working | returned
  deriving DecidableEq

structure Pool where
  nextIndex : Nat
  runners : List Runner
  deriving DecidableEq

def startPool (items : List α) (concurrency : Nat) : Pool :=
  ⟨0, List.replicate (min items.length (max 1 concurrency)) .ready⟩

/-- A runner's turn, and the item it calls the worker with. -/
def takeTurn (items : List α) (pool : Pool) (runner : Nat) : Pool × List α :=
  match pool.runners[runner]? with
  | some .ready =>
    match items[pool.nextIndex]? with
    | some item => (⟨pool.nextIndex + 1, pool.runners.set runner .working⟩, [item])
    | none => (⟨pool.nextIndex + 1, pool.runners.set runner .returned⟩, [])
  | some .working => (⟨pool.nextIndex, pool.runners.set runner .ready⟩, [])
  | _ => (pool, [])

def takeTurns (items : List α) (pool : Pool) : List Nat → Pool × List α
  | [] => (pool, [])
  | runner :: turns =>
    let (next, called) := takeTurn items pool runner
    let (last, later) := takeTurns items next turns
    (last, called ++ later)

/-- Every runner has returned, so `Promise.all` has. -/
def Pool.finished (pool : Pool) : Bool := pool.runners.all (· = .returned)

end Concurrency

inductive Outgoing where
  | removeLocalFollow (localActorIdentifier remoteActorUri : String)
  | onStaleRemoteEntry (localActorUri remoteActorUri : String)
  deriving DecidableEq

/-- The cleanup runners after these turns, and the entries they called back for. -/
def cleanUp (config : Config) (plan : Reconciliation) (turns : List Nat) : Pool × List String :=
  takeTurns plan.staleRemoteUris (startPool plan.staleRemoteUris config.staleCleanupConcurrency)
    turns

/-- The calls of a reconciliation whose cleanup runners take these turns. -/
def outgoing (config : Config) (senderActorUri : String) (plan : Reconciliation)
    (turns : List Nat) : List Outgoing :=
  plan.removed.map (Outgoing.removeLocalFollow · senderActorUri) ++
    (cleanUp config plan turns).2.map (Outgoing.onStaleRemoteEntry · senderActorUri)

end MastopodFederation.Source.FollowersSync
