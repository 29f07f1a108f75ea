import MastopodFederation.Source.CommitEvent
import MastopodFederation.Source.RepoRegistry

/-!
# The two writers of a repository head and its reader

`checkContinuity`, `persistVerifiedHead` and `buildVerifiedRepoState` of
at-adapter/ingress/ProductionAtCommitVerifier.ts; `rebuildRepoInner`,
`persistRepoState` and `buildRebuiltRepoState` of HttpAtSyncRebuilder.ts. The
HTTP requests, the CAR root and the base64url codec are parameters; the failure
caches and the sharing of rebuilds in flight only drop calls. A stored state does
not expire.
-/
namespace MastopodFederation.Source.RepoHead
open Cbor CommitEvent RepoState RepoRegistry

def maxCommitsToKeep : Nat := 100

section Builders

def buildVerifiedRepoState (base64url : Bytes → String) (existing : Option RepositoryState)
    (parsed : ParsedCommitEventBody) (commit : CommitBlock) (now : String) : RepositoryState :=
  match existing with
  | some existing =>
    { existing with
      rootCid := some commit.data.text
      rev := parsed.rev
      status := .active
      lastCommitAt := now
      snapshotAt := now
      updatedAt := now
      commits :=
        { cid := parsed.commitCid.text, rootCid := commit.data.text, rev := parsed.rev
          timestamp := now, signature := base64url commit.sig
          prevCid := existing.commits.head?.map (·.cid) } ::
        (existing.commits.filter (·.rev ≠ parsed.rev)).take (maxCommitsToKeep - 1) }
  | none =>
    { did := parsed.repo
      rootCid := some commit.data.text
      rev := parsed.rev
      commits :=
        [{ cid := parsed.commitCid.text, rootCid := commit.data.text, rev := parsed.rev
           timestamp := now, signature := base64url commit.sig, prevCid := none }]
      collections := []
      totalRecords := 0
      sizeBytes := parsed.blocks.length
      status := .active
      lastCommitAt := now, snapshotAt := now, createdAt := now, updatedAt := now }

def buildRebuiltRepoState (existing : Option RepositoryState) (did rootCid rev now : String) :
    RepositoryState :=
  let latest : RepositoryCommit :=
    { cid := rootCid, rootCid := rootCid, rev := rev, timestamp := now, signature := ""
      prevCid := none }
  match existing with
  | none =>
    { did := did
      rootCid := some rootCid
      rev := rev
      commits := [latest]
      collections := []
      totalRecords := 0
      sizeBytes := 0
      status := .active
      lastCommitAt := now, snapshotAt := now, createdAt := now, updatedAt := now }
  | some existing =>
    { existing with
      rootCid := some rootCid
      rev := rev
      status := .active
      lastCommitAt := now
      snapshotAt := now
      updatedAt := now
      commits := latest :: (existing.commits.filter (·.rev ≠ rev)).take 99 }

@[simp] theorem buildVerified_head (base64url : Bytes → String)
    (existing : Option RepositoryState) (parsed : ParsedCommitEventBody) (commit : CommitBlock)
    (now : String) :
    (buildVerifiedRepoState base64url existing parsed commit now).head =
      (some commit.data.text, parsed.rev) := by
  cases existing <;> rfl

@[simp] theorem buildRebuilt_head (existing : Option RepositoryState)
    (did rootCid rev now : String) :
    (buildRebuiltRepoState existing did rootCid rev now).head = (some rootCid, rev) := by
  cases existing <;> rfl

end Builders

section Continuity
variable {Tid : Type} [LinearOrder Tid] (fromStr : String → Option Tid)

/-- The stored revision comes before the one of the commit. -/
def behind (existing : RepositoryState) (parsed : ParsedCommitEventBody) : Bool :=
  compareRevisionStrings fromStr existing.rev parsed.rev == .lt

def sinceMismatch (existing : RepositoryState) (parsed : ParsedCommitEventBody) : Option String :=
  match parsed.since with
  | none => none
  | some since =>
    if since ≠ "" ∧ existing.rev ≠ "" ∧ behind fromStr existing parsed ∧ existing.rev ≠ since then
      some ("Stored repo revision " ++ existing.rev ++ " did not match commit since " ++ since ++
        "; authoritative sync rebuild required")
    else none

def rootMismatch (existing : RepositoryState) (parsed : ParsedCommitEventBody) : Option String :=
  match parsed.prevDataCid, existing.rootCid with
  | some prevData, some rootCid =>
    if rootCid ≠ "" ∧ behind fromStr existing parsed ∧ rootCid ≠ prevData.text then
      some ("Stored repo root " ++ rootCid ++ " did not match commit prevData " ++ prevData.text ++
        "; authoritative sync rebuild required")
    else none
  | _, _ => none

/-- Null when the commit continues the stored head, else why a rebuild is needed. -/
def checkContinuity (stored : Option RepositoryState) (parsed : ParsedCommitEventBody) :
    Option String :=
  match stored with
  | none => none
  | some existing => (sinceMismatch fromStr existing parsed).or (rootMismatch fromStr existing parsed)

end Continuity

/-- What a rebuild fetches: an error is a thrown one. -/
structure SyncSources where
  resolveDocument : String → Except String (Option String)
  fetchRepoCar : String → Except String Bytes
  fetchLatestCommit : String → String → Except String (String × String)
  readCarRootCid : Bytes → Except String String

/-- The state a rebuild stores over `stored`, or the reason it reports. -/
def rebuildRepoInner (sources : SyncSources) (stored : Option RepositoryState) (did now : String) :
    Except String RepositoryState := do
  match ← sources.resolveDocument did with
  | none =>
    throw ("DID document for " ++ did ++
      " did not contain a valid AtprotoPersonalDataServer endpoint")
  | some pdsEndpoint =>
    let repoBytes ← sources.fetchRepoCar did
    let (cid, rev) ← sources.fetchLatestCommit pdsEndpoint did
    let rootCid ← sources.readCarRootCid repoBytes
    if rootCid ≠ cid then
      throw ("Repo CAR root " ++ rootCid ++ " did not match latest commit " ++ cid)
    else
      return buildRebuiltRepoState stored did rootCid rev now

/-- A head to be written: by `persistVerifiedHead` or by `persistRepoState`. -/
inductive HeadWrite where
  | verified (parsed : ParsedCommitEventBody) (commit : CommitBlock)
  | rebuilt (did rootCid rev : String)

def HeadWrite.did : HeadWrite → String
  | .verified parsed _ => parsed.repo
  | .rebuilt did _ _ => did

/-- The root and the revision that the write puts in place. -/
def HeadWrite.head : HeadWrite → String × String
  | .verified parsed commit => (commit.data.text, parsed.rev)
  | .rebuilt _ rootCid rev => (rootCid, rev)

section Machine
variable {Tid : Type} [LinearOrder Tid] (fromStr : String → Option Tid)
  (base64url : Bytes → String)

/-- The state to store over the one just read; a verified head yields to a
revision at or past its own, a rebuilt one never does. -/
def HeadWrite.next (write : HeadWrite) (existing : Option RepositoryState) (now : String) :
    Option RepositoryState :=
  match write with
  | .verified parsed commit =>
    if existing.any (fun state => atOrPast fromStr state.rev parsed.rev) then none
    else some (buildVerifiedRepoState base64url existing parsed commit now)
  | .rebuilt did rootCid rev => some (buildRebuiltRepoState existing did rootCid rev now)

/-- A write that nothing interleaves with. -/
def HeadWrite.alone (write : HeadWrite) (stored : Option RepositoryState) (now : String) :
    Option RepositoryState :=
  (write.next fromStr base64url stored now).or stored

/-- A writer and the command it awaits; `existing` is what its last read of the
head returned. -/
inductive HeadWriter where
  | idle
  | read (write : HeadWrite) (retried : Bool)
  /-- GET of `update` or EXISTS of `register` -/
  | check (write : HeadWrite) (existing : Option RepositoryState) (next : RepositoryState)
      (retried : Bool)
  /-- MULTI over the state that GET returned, or over none -/
  | exec (write : HeadWrite) (existing : Option RepositoryState) (next : RepositoryState)
      (previous : Option RepositoryState)
  | failed

structure HeadSystem where
  redis : Redis
  writers : Nat → HeadWriter

/-- A lost registry race is retried once and thrown the second time. -/
def afterRace (write : HeadWrite) (retried : Bool) : HeadWriter :=
  if retried then .failed else .read write true

def HeadWriter.advance (r : Redis) (now : String) : HeadWriter → Option (Redis × HeadWriter)
  | .read write retried =>
    let existing := r.repo write.did
    match write.next fromStr base64url existing now with
    | none => some (r, .idle)
    | some next => some (r, .check write existing next retried)
  | .check write existing next retried =>
    match existing, r.repo next.did with
    | some _, some previous => some (r, .exec write existing next (some previous))
    | some _, none => some (r, afterRace write retried)
    | none, some _ => some (r, afterRace write retried)
    | none, none => some (r, .exec write existing next none)
  | .exec _ _ next (some previous) => some (r.execUpdate next previous, .idle)
  | .exec _ _ next none => some (r.execRegister next, .idle)
  | .idle | .failed => none

inductive HeadEvent where
  | start (writer : Nat) (write : HeadWrite)
  | advance (writer : Nat) (now : String)

def HeadWriter.free : HeadWriter → Bool
  | .idle | .failed => true
  | _ => false

def headStep (s : HeadSystem) : HeadEvent → Option HeadSystem
  | .start i write =>
    if (s.writers i).free then
      some { s with writers := Function.update s.writers i (.read write false) }
    else none
  | .advance i now =>
    ((s.writers i).advance fromStr base64url s.redis now).map fun (redis, writer) =>
      { redis := redis, writers := Function.update s.writers i writer }

end Machine

end MastopodFederation.Source.RepoHead
