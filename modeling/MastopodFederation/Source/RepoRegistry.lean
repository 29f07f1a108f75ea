import MastopodFederation.Lib.GuardedRun
import MastopodFederation.Source.RepoState

/-!
# Redis repository registry: states, collection index, interleaved calls

atproto/repo/AtprotoRepoRegistry.ts, class `RedisAtprotoRepoRegistry`: `register`,
`update`, `delete`, `getByCollection` with `backfillCollectionIndex` and
`loadCollectionIndex`. Every single command and every MULTI is atomic, so a call
is a worker that advances by one awaited command at a time and any number of
workers interleave. Commands succeed, so `execIndexMutation` never invalidates
markers; the stored JSON is taken as the state it encodes; `list` and its scan
sessions touch none of these keys.
-/
namespace MastopodFederation.Source.RepoRegistry
open RepoState

abbrev Did := String
abbrev Nsid := String

def repoMgetBatch : Nat := 128

/-- The keys the registry owns. Sets are lists read up to order. -/
structure Redis where
  /-- atproto:repo:DID -/
  repo : Did → Option RepositoryState
  /-- atproto:repos -/
  repos : List Did
  /-- atproto:repos:collection:NSID -/
  collection : Nsid → List Did
  /-- atproto:repos:collection-complete:NSID -/
  complete : Nsid → Bool

/-- `state.collections.some((collection) => collection.nsid === nsid)` -/
def lists (state : RepositoryState) (nsid : Nsid) : Bool :=
  state.collections.any (·.nsid == nsid)

def collectionNsids (state : RepositoryState) : List Nsid :=
  ((state.collections.map (·.nsid)).filter (· ≠ "")).eraseDups

def sadd (members : List Did) (did : Did) : List Did :=
  if did ∈ members then members else did :: members

def srem (members : List Did) (did : Did) : List Did := members.filter (· ≠ did)

/-- MULTI of `register`. -/
def Redis.execRegister (r : Redis) (state : RepositoryState) : Redis :=
  { r with
    repo := Function.update r.repo state.did (some state)
    repos := sadd r.repos state.did
    collection := fun nsid =>
      if nsid ∈ collectionNsids state then sadd (r.collection nsid) state.did
      else r.collection nsid }

/-- MULTI of `update`; `previous` is the state its GET returned. -/
def Redis.execUpdate (r : Redis) (state previous : RepositoryState) : Redis :=
  { r with
    repo := Function.update r.repo state.did (some state)
    collection := fun nsid =>
      if nsid ∈ collectionNsids state then sadd (r.collection nsid) state.did
      else if nsid ∈ collectionNsids previous then srem (r.collection nsid) state.did
      else r.collection nsid }

/-- MULTI of `delete`; `previous` is the state its GET returned, if any. -/
def Redis.execDelete (r : Redis) (did : Did) (previous : Option RepositoryState) : Redis :=
  { r with
    repo := Function.update r.repo did none
    repos := srem r.repos did
    collection := fun nsid =>
      if previous.any (nsid ∈ collectionNsids ·) then srem (r.collection nsid) did
      else r.collection nsid }

def Redis.saddCollection (r : Redis) (nsid : Nsid) (dids : List Did) : Redis :=
  { r with collection :=
      Function.update r.collection nsid (dids.foldl sadd (r.collection nsid)) }

def Redis.sremCollection (r : Redis) (nsid : Nsid) (dids : List Did) : Redis :=
  { r with collection := Function.update r.collection nsid (dids.foldl srem (r.collection nsid)) }

def Redis.markComplete (r : Redis) (nsid : Nsid) : Redis :=
  { r with complete := Function.update r.complete nsid true }

/-- MGET of a batch of repository states. -/
def Redis.mget (r : Redis) (dids : List Did) : List (Did × Option RepositoryState) :=
  dids.map fun did => (did, r.repo did)

/-- DIDs of a batch whose state lists the NSID. -/
def matchingDids (nsid : Nsid) (batch : List (Did × Option RepositoryState)) : List Did :=
  (batch.filter fun entry => entry.2.any (lists · nsid)).map (·.1)

/-- States of a batch that list the NSID. -/
def matchingStates (nsid : Nsid) (batch : List (Did × Option RepositoryState)) :
    List RepositoryState :=
  batch.filterMap fun entry => entry.2.filter (lists · nsid)

/-- DIDs of a batch without a state or whose state does not list the NSID. -/
def staleDids (nsid : Nsid) (batch : List (Did × Option RepositoryState)) : List Did :=
  (batch.filter fun entry => !entry.2.any (lists · nsid)).map (·.1)

/-- A worker and the command it awaits. -/
inductive Worker where
  | idle
  | registerExists (state : RepositoryState)
  | registerExec (state : RepositoryState)
  | updateGet (state : RepositoryState)
  | updateExec (state previous : RepositoryState)
  | deleteGet (did : Did)
  | deleteExec (did : Did) (previous : Option RepositoryState)
  | collectionGet (nsid : Nsid)
  /-- SSCAN; `unseen` are the members present since the scan began and not yet
  returned by it, `none` before its first page -/
  | backfillScan (nsid : Nsid) (unseen : Option (List Did))
  /-- MGET of the next chunk of a page -/
  | backfillRead (nsid : Nsid) (unseen chunks : List Did) (last : Bool)
  /-- SADD of the matching DIDs of a chunk -/
  | backfillAdd (nsid : Nsid) (unseen matching chunks : List Did) (last : Bool)
  | backfillMark (nsid : Nsid)
  | loadMembers (nsid : Nsid)
  /-- MGET of the next batch of index members -/
  | loadRead (nsid : Nsid) (members : List Did) (results : List RepositoryState)
      (stale : List Did)
  /-- SREM of the next batch of stale members -/
  | loadPrune (nsid : Nsid) (stale : List Did) (results : List RepositoryState)
  | loaded (nsid : Nsid) (results : List RepositoryState)
  | failed

inductive Call where
  | register (state : RepositoryState)
  | update (state : RepositoryState)
  | delete (did : Did)
  | getByCollection (nsid : Nsid)

def Call.start : Call → Worker
  | .register state => .registerExists state
  | .update state => .updateGet state
  | .delete did => .deleteGet did
  | .getByCollection nsid => .collectionGet nsid

/-- One SSCAN reply: DIDs, and whether the next cursor is 0. -/
structure ScanPage where
  dids : List Did
  last : Bool

structure System where
  redis : Redis
  workers : Nat → Worker

/-- What follows a processed chunk: the next chunk, the next page or the marker. -/
def afterChunk (nsid : Nsid) (unseen chunks : List Did) (last : Bool) : Worker :=
  match chunks with
  | _ :: _ => .backfillRead nsid unseen chunks last
  | [] => if last then .backfillMark nsid else .backfillScan nsid (some unseen)

/-- What follows a batch of members or of stale members. -/
def afterLoad (nsid : Nsid) (members : List Did) (results : List RepositoryState)
    (stale : List Did) : Worker :=
  match members, stale with
  | _ :: _, _ => .loadRead nsid members results stale
  | [], _ :: _ => .loadPrune nsid stale results
  | [], [] => .loaded nsid results

/-- A DID that left atproto:repos is no longer owed by a scan in progress. -/
def Worker.leave (did : Did) : Worker → Worker
  | .backfillScan nsid (some unseen) => .backfillScan nsid (some (srem unseen did))
  | .backfillRead nsid unseen chunks last => .backfillRead nsid (srem unseen did) chunks last
  | .backfillAdd nsid unseen matching chunks last =>
    .backfillAdd nsid (srem unseen did) matching chunks last
  | w => w

/-- The command a worker awaits completes. `page` is read by an SSCAN only; a
last page has returned every member that was present for the whole scan. -/
def Worker.advance (r : Redis) (page : ScanPage) : Worker → Option (Redis × Worker)
  | .registerExists state =>
    match r.repo state.did with
    | some _ => some (r, .failed)
    | none => some (r, .registerExec state)
  | .registerExec state => some (r.execRegister state, .idle)
  | .updateGet state =>
    match r.repo state.did with
    | none => some (r, .failed)
    | some previous => some (r, .updateExec state previous)
  | .updateExec state previous => some (r.execUpdate state previous, .idle)
  | .deleteGet did => some (r, .deleteExec did (r.repo did))
  | .deleteExec did previous => some (r.execDelete did previous, .idle)
  | .collectionGet nsid =>
    if r.complete nsid then some (r, .loadMembers nsid) else some (r, .backfillScan nsid none)
  | .backfillScan nsid unseen =>
    let remaining := (unseen.getD r.repos).filter (· ∉ page.dids)
    if page.last && !remaining.isEmpty then none
    else some (r, afterChunk nsid remaining (page.dids.filter (· ≠ "")) page.last)
  | .backfillRead nsid unseen chunks last =>
    match matchingDids nsid (r.mget (chunks.take repoMgetBatch)) with
    | [] => some (r, afterChunk nsid unseen (chunks.drop repoMgetBatch) last)
    | matching => some (r, .backfillAdd nsid unseen matching (chunks.drop repoMgetBatch) last)
  | .backfillAdd nsid unseen matching chunks last =>
    some (r.saddCollection nsid matching, afterChunk nsid unseen chunks last)
  | .backfillMark nsid => some (r.markComplete nsid, .loadMembers nsid)
  | .loadMembers nsid => some (r, afterLoad nsid (r.collection nsid) [] [])
  | .loadRead nsid members results stale =>
    let batch := r.mget (members.take repoMgetBatch)
    some (r, afterLoad nsid (members.drop repoMgetBatch) (results ++ matchingStates nsid batch)
      (stale ++ staleDids nsid batch))
  | .loadPrune nsid stale results =>
    some (r.sremCollection nsid (stale.take repoMgetBatch),
      afterLoad nsid [] results (stale.drop repoMgetBatch))
  | .idle | .loaded _ _ | .failed => none

inductive Event where
  /-- a client starts a call on a worker that has none running -/
  | call (worker : Nat) (call : Call)
  | advance (worker : Nat) (page : ScanPage)

def Worker.free : Worker → Bool
  | .idle | .loaded _ _ | .failed => true
  | _ => false

/-- The DID that a completing MULTI removes from atproto:repos. -/
def Worker.leaves : Worker → Option Did
  | .deleteExec did _ => some did
  | _ => none

def step (s : System) : Event → Option System
  | .call i call =>
    if (s.workers i).free then
      some { s with workers := Function.update s.workers i call.start }
    else none
  | .advance i page =>
    ((s.workers i).advance s.redis page).map fun (redis, worker) =>
      { redis := redis
        workers := Function.update
          (fun j => match (s.workers i).leaves with
            | some did => (s.workers j).leave did
            | none => s.workers j) i worker }

/-- A registry that holds any states, all of them listed in atproto:repos, and
no completeness marker; no call is running. -/
structure Fresh (s : System) : Prop where
  listed : ∀ did state, s.redis.repo did = some state → did ∈ s.redis.repos
  named : ∀ did ∈ s.redis.repos, did ≠ ""
  unmarked : ∀ nsid, s.redis.complete nsid = false
  quiet : ∀ i, s.workers i = .idle

end MastopodFederation.Source.RepoRegistry
