import Mathlib
import MastopodFederation.Lib.Calls
import MastopodFederation.Lib.RecordStore

/-!
# The AT projection worker

at-adapter/projection/AtProjectionWorker.ts with repo/AtCommitBuilder.ts,
repo/AtCommitPersistenceService.ts, the Redis alias store, the Redis repo registry,
AtTargetAliasResolver, AtSubjectResolver and AtProjectionPolicy. Every await of the source is
a call, which may fail with or without having had its effect. A time that marks a deletion
is never empty. A DID that a binding lacks is the empty one.
-/
namespace MastopodFederation.Source.AtProjectionWorker
open Lib.Calls

inductive Collection where
  | profile
  | post
  | document
  | follow
  | like
  | repost
  | emojiReaction
  deriving DecidableEq

def Collection.nsid : Collection → String
  | .profile => "app.bsky.actor.profile"
  | .post => "app.bsky.feed.post"
  | .document => "site.standard.document"
  | .follow => "app.bsky.graph.follow"
  | .like => "app.bsky.feed.like"
  | .repost => "app.bsky.feed.repost"
  | .emojiReaction => "org.activitypods.emojiReaction"

inductive CanonicalType where
  | profile
  | post
  | article
  | follow
  | like
  | repost
  | emojiReaction
  deriving DecidableEq

/-- The subject fields of an alias. -/
structure Subject where
  subjectDid : Option String
  subjectUri : Option String
  subjectCid : Option String
  reactionContent : Option String
  deriving DecidableEq

def Subject.none : Subject := ⟨.none, .none, .none, .none⟩

structure AtAliasRecord where
  canonicalRefId : String
  canonicalType : CanonicalType
  did : String
  collection : Collection
  rkey : String
  cid : Option String
  lastRev : Option Nat
  /-- whether `deletedAt` is set -/
  deleted : Bool
  subject : Subject
  deriving DecidableEq

def atUri (did : String) (collection : Collection) (rkey : String) : String :=
  s!"at://{did}/{collection.nsid}/{rkey}"

/-- The stored `atUri`, which every writer computes from these fields. -/
def AtAliasRecord.atUri (a : AtAliasRecord) : String :=
  AtProjectionWorker.atUri a.did a.collection a.rkey

structure AtRecordLocator where
  collection : Collection
  rkey : String
  deriving DecidableEq

inductive OpType where
  | create
  | update
  | delete
  deriving DecidableEq

structure AtRepoOp where
  did : String
  canonicalAccountId : String
  opType : OpType
  collection : Collection
  rkey : String
  canonicalRefId : String
  deriving DecidableEq

structure RepositoryState where
  did : String
  rev : Nat
  rootCid : Option Nat
  deriving DecidableEq

structure BuildCommitResult where
  did : String
  rev : Nat
  commitCid : Nat
  prevCommitCid : Option Nat
  ops : List AtRepoOp
  deriving DecidableEq

/-- An op of at.commit.v1, with the subject fields of the alias. -/
structure CommitOp where
  op : AtRepoOp
  subject : Subject
  deriving DecidableEq

/-- at.commit.v1 -/
structure AtCommit where
  did : String
  canonicalAccountId : String
  rev : Nat
  commitCid : Nat
  prevCommitCid : Option Nat
  ops : List CommitOp
  deriving DecidableEq

/-- The fields of an identity binding that the worker reads. -/
structure IdentityBinding where
  canonicalAccountId : String
  atprotoDid : Option String
  atprotoHandle : Option String
  /-- whether `status` is "active" -/
  active : Bool
  /-- accounts have a name -/
  named : canonicalAccountId ≠ ""
  deriving DecidableEq

def IdentityBinding.did (binding : IdentityBinding) : String := binding.atprotoDid.getD ""

/-- The Redis keys of a repo that `persist` writes. -/
inductive HeadField where
  | head
  | rev
  | status
  | lastCommitCid
  | lastProjectionAt
  deriving DecidableEq

/-- Where the alias store is read or written. -/
inductive AliasSite where
  | target
  | profile
  | created
  | locator
  | teaser
  | teaserStored
  | updated
  | cidAndRev
  | persistedDelete
  | commitOp
  | finalDelete
  deriving DecidableEq

inductive Call where
  | getBinding (accountId : String)
  | getRepoState (registered : Bool) (did : String)
  | repoExists (did : String)
  | setRepo (state : RepositoryState)
  | previousRepo (did : String)
  | serialize (canonicalRefId : String)
  | getAlias (site : AliasSite) (canonicalRefId : String)
  | putAlias (site : AliasSite) (record : AtAliasRecord)
  | publishOp (op : AtRepoOp)
  /-- the reply names the commit that is signed -/
  | signAtprotoCommit (canonicalAccountId did : String) (rev : Nat)
  | setHead (field : HeadField) (did : String)
  | publishCommit (commit : AtCommit)
  | publishEgress (op : AtRepoOp)
  deriving DecidableEq

/-- `none` where the call failed. -/
def Reply : Call → Type
  | .getBinding _ => Option (Option IdentityBinding)
  | .getRepoState .. => Option (Option RepositoryState)
  | .repoExists _ => Option Bool
  | .previousRepo _ => Option Bool
  | .getAlias .. => Option (Option AtAliasRecord)
  | .signAtprotoCommit .. => Option Nat
  | _ => Option Unit

inductive Failure where
  | unavailable
  | error (message : String)
  deriving DecidableEq

abbrev Run := Prog Call Reply Failure

/-- A reply, or the error of the call. -/
def orThrow {α : Type} : Option α → Run α
  | some value => pure value
  | none => .fail .unavailable

def getByCanonicalAccountId (accountId : String) : Run (Option IdentityBinding) :=
  .call (.getBinding accountId) orThrow
def getRepoState (registered : Bool) (did : String) : Run (Option RepositoryState) :=
  .call (.getRepoState registered did) orThrow
def repoExists (did : String) : Run Bool := .call (.repoExists did) orThrow
def setRepo (state : RepositoryState) : Run Unit := .call (.setRepo state) orThrow
def previousRepo (did : String) : Run Bool := .call (.previousRepo did) orThrow
def serialize (canonicalRefId : String) : Run Unit := .call (.serialize canonicalRefId) orThrow
def getByCanonicalRefId (site : AliasSite) (canonicalRefId : String) : Run (Option AtAliasRecord) :=
  .call (.getAlias site canonicalRefId) orThrow
def putAlias (site : AliasSite) (record : AtAliasRecord) : Run Unit :=
  .call (.putAlias site record) orThrow
def publishOp (op : AtRepoOp) : Run Unit := .call (.publishOp op) orThrow
def signAtprotoCommit (canonicalAccountId did : String) (rev : Nat) : Run Nat :=
  .call (.signAtprotoCommit canonicalAccountId did rev) orThrow
def setHead (did : String) (field : HeadField) : Run Unit := .call (.setHead field did) orThrow
def publishCommit (commit : AtCommit) : Run Unit := .call (.publishCommit commit) orThrow
def publishEgress (op : AtRepoOp) : Run Unit := .call (.publishEgress op) orThrow

/-- `for (const item of items) await body(item)` -/
def forEach {α : Type} (body : α → Run Unit) : List α → Run Unit
  | [] => pure ()
  | item :: items => do
    body item
    forEach body items

def markDeleted (site : AliasSite) (canonicalRefId : String) : Run Unit := do
  match ← getByCanonicalRefId site canonicalRefId with
  | none => pure ()
  | some record => putAlias site { record with deleted := true }

/-- The text before the time in a mock CID. -/
def mockRecordCid : String := "bafyreimockrecordcid"

def updateCidAndRev (canonicalRefId cid : String) (rev : Nat) : Run Unit := do
  match ← getByCanonicalRefId .cidAndRev canonicalRefId with
  | none => pure ()
  | some record => putAlias .cidAndRev { record with cid := some cid, lastRev := some rev }

def register (state : RepositoryState) : Run Unit := do
  if ← repoExists state.did then .fail (.error s!"Repository already exists: {state.did}")
  else setRepo state

/-- `RedisAtprotoRepoRegistry.update` -/
def updateRepo (state : RepositoryState) : Run Unit := do
  if ← previousRepo state.did then setRepo state
  else .fail (.error s!"Repository not found: {state.did}")

structure StrongRef where
  uri : String
  cid : Option String
  deriving DecidableEq

def strongRef (record : AtAliasRecord) : Option StrongRef :=
  if record.canonicalType ≠ .post then none
  else if record.deleted then none
  else match record.cid with
    | none => none
    | some cid => if cid = "" then none else some ⟨record.atUri, some cid⟩

def resolvePostStrongRef (canonicalPostId : String) : Run (Option StrongRef) := do
  match ← getByCanonicalRefId .target canonicalPostId with
  | none => pure none
  | some record => pure (strongRef record)

structure CanonicalIdentity where
  id : String
  atprotoDid : Option String
  deriving DecidableEq

/-- The text, unless it is missing or empty. -/
def truthy (text : Option String) : Option String := text.filter (· ≠ "")

def resolveDidForCanonicalAccount (canonicalAccountId : String) : Run (Option String) := do
  match ← getByCanonicalAccountId canonicalAccountId with
  | none => pure none
  | some binding => pure (if binding.active then truthy binding.atprotoDid else none)

def resolveDidForIdentity (identity : CanonicalIdentity) : Run (Option String) := do
  match ← resolveDidForCanonicalAccount identity.id with
  | some did => pure (some did)
  | none => pure (truthy identity.atprotoDid)

/-- `canProjectProfile` and `canProjectSocialAction` -/
def canProject (binding : IdentityBinding) : Bool :=
  (truthy binding.atprotoDid).isSome && (truthy binding.atprotoHandle).isSome && binding.active

inductive Visibility where
  | public_
  | unlisted
  | private_
  | direct
  deriving DecidableEq

structure CanonicalPost where
  id : String
  authorId : String
  /-- whether `kind` is "article" -/
  isArticle : Bool
  visibility : Visibility
  deriving DecidableEq

def canProjectPost (post : CanonicalPost) (binding : IdentityBinding) : Bool :=
  canProject binding && post.visibility = .public_

/-- The sum of a JavaScript number and one; revs are counted from zero. -/
def nextRev (rev : Nat) : Nat := if rev < 2 ^ 53 then rev + 1 else rev

def buildCommit (state : RepositoryState) (ops : List AtRepoOp) : Run BuildCommitResult :=
  match ops with
  | [] => .fail (.error "Cannot build commit with no ops")
  | first :: _ =>
    if state.did = "" then .fail (.error "Repository state missing DID")
    else if first.canonicalAccountId = "" then
      .fail (.error "Cannot sign commit without canonicalAccountId")
    else do
      let newRev := nextRev state.rev
      let commitCid ← signAtprotoCommit first.canonicalAccountId state.did newRev
      pure ⟨state.did, newRev, commitCid, state.rootCid, ops⟩

/-- The alias of one op after its commit. -/
def persistAlias (rev : Nat) (op : AtRepoOp) : Run Unit :=
  match op.opType with
  | .create | .update => updateCidAndRev op.canonicalRefId mockRecordCid rev
  | .delete => markDeleted .persistedDelete op.canonicalRefId

def commitOp (op : AtRepoOp) : Run CommitOp := do
  let record ← getByCanonicalRefId .commitOp op.canonicalRefId
  pure ⟨op, (record.map (·.subject)).getD .none⟩

def commitOps : List AtRepoOp → Run (List CommitOp)
  | [] => pure []
  | op :: ops => do
    let first ← commitOp op
    let rest ← commitOps ops
    pure (first :: rest)

/-- `result.ops[0]?.canonicalAccountId || 'unknown'` -/
def commitAccount (ops : List AtRepoOp) : String :=
  (truthy (ops.head?.map (·.canonicalAccountId))).getD "unknown"

def headFields : List HeadField := [.head, .rev, .status, .lastCommitCid, .lastProjectionAt]

def persist (result : BuildCommitResult) : Run Unit := do
  forEach (setHead result.did) headFields
  forEach (persistAlias result.rev) result.ops
  let ops ← commitOps result.ops
  publishCommit ⟨result.did, commitAccount result.ops, result.rev, result.commitCid,
    result.prevCommitCid, ops⟩
  forEach publishEgress result.ops

structure Environment where
  /-- the first digits of the hash of an article's key -/
  teaserRkey : String → String

/-- An empty repository. -/
def bootstrapState (did : String) : RepositoryState := ⟨did, 0, none⟩

def getOrCreateRepoState (did : String) : Run (Option RepositoryState) := do
  match ← getRepoState false did with
  | some existing => pure (some existing)
  | none => do
    (register (bootstrapState did)).rescue fun _ => pure ()
    getRepoState true did

def persistAndUpdateRepoState (repoState : RepositoryState) (commitResult : BuildCommitResult) :
    Run Unit := do
  persist commitResult
  (updateRepo { repoState with rev := commitResult.rev, rootCid := some commitResult.commitCid }).rescue
    fun _ => pure ()

def getRequestedRkey (atRecord : Option AtRecordLocator) (expectedCollection : Collection) :
    Option String :=
  match atRecord with
  | none => none
  | some locator => if locator.collection = expectedCollection then some locator.rkey else none

def canonicalTypeForCollection : Collection → CanonicalType
  | .profile => .profile
  | .document => .article
  | .follow => .follow
  | .like => .like
  | .repost => .repost
  | .emojiReaction => .emojiReaction
  | .post => .post

/-- The record that `ensureAliasForLocator` stores where there is no active one. -/
def placeholder (canonicalRefId : String) (canonicalType : CanonicalType) (did : String)
    (collection : Collection) (rkey : String) (existing : Option AtAliasRecord) : AtAliasRecord where
  canonicalRefId := canonicalRefId
  canonicalType := canonicalType
  did := did
  collection := collection
  rkey := rkey
  cid := existing.bind (·.cid)
  lastRev := existing.bind (·.lastRev)
  deleted := false
  subject := (existing.map (·.subject)).getD .none

/-- The stored record, unless it is marked deleted. -/
def active (existing : Option AtAliasRecord) : Option AtAliasRecord :=
  existing.filter fun record => !record.deleted

/-- The record to store for the locator, unless the locator is of another collection. -/
def located (canonicalRefId : String) (expected : Option (Collection × CanonicalType))
    (did : String) (atRecord : Option AtRecordLocator) (existing : Option AtAliasRecord) :
    Option AtAliasRecord :=
  match expected, atRecord with
  | some (collection, canonicalType), some locator =>
    if locator.collection = collection then
      some (placeholder canonicalRefId canonicalType did collection locator.rkey existing)
    else none
  | _, _ => none

def ensureAliasForLocator (canonicalRefId : String)
    (expected : Option (Collection × CanonicalType)) (did : String)
    (atRecord : Option AtRecordLocator) : Run (Option AtAliasRecord) := do
  let existing ← getByCanonicalRefId .locator canonicalRefId
  match active existing with
  | some record => pure (some record)
  | none =>
    match located canonicalRefId expected did atRecord existing with
    | none => pure none
    | some record => do
      putAlias .locator record
      pure (some record)

def teaserRefId (articleCanonicalRefId : String) : String := s!"{articleCanonicalRefId}::teaser"

/-- The record of a new alias. -/
def newAlias (canonicalRefId : String) (canonicalType : CanonicalType) (did : String)
    (collection : Collection) (rkey : String) (subject : Subject) : AtAliasRecord where
  canonicalRefId := canonicalRefId
  canonicalType := canonicalType
  did := did
  collection := collection
  rkey := rkey
  cid := none
  lastRev := none
  deleted := false
  subject := subject

section Worker
variable (env : Environment)

/-- The alias of an article's teaser, made by `buildArticleTeaserAlias`. -/
def teaserPlaceholder (articleCanonicalRefId did articleRkey : String)
    (existing : Option AtAliasRecord) : AtAliasRecord :=
  placeholder (teaserRefId articleCanonicalRefId) .post did .post (env.teaserRkey articleRkey)
    existing

def ensureArticleTeaserAlias (articleCanonicalRefId did articleRkey : String) :
    Run (Option AtAliasRecord) := do
  let existing ← getByCanonicalRefId .teaser (teaserRefId articleCanonicalRefId)
  match active existing with
  | some record => pure (some record)
  | none => do
    putAlias .teaser (teaserPlaceholder env articleCanonicalRefId did articleRkey existing)
    getByCanonicalRefId .teaserStored (teaserRefId articleCanonicalRefId)

def opOf (binding : IdentityBinding) (opType : OpType) (collection : Collection)
    (rkey canonicalRefId : String) : AtRepoOp :=
  ⟨binding.did, binding.canonicalAccountId, opType, collection, rkey, canonicalRefId⟩

/-- What all handlers end with: publish the ops, build the commit, store the aliases and
persist. -/
def commitAll (repoState : RepositoryState) (ops : List AtRepoOp)
    (aliases : List (AliasSite × AtAliasRecord)) : Run Unit := do
  forEach publishOp ops
  let commitResult ← buildCommit repoState ops
  forEach (fun stored => putAlias stored.1 stored.2) aliases
  persistAndUpdateRepoState repoState commitResult

def onProfileUpserted (profileId : String) : Run Unit := do
  match ← getByCanonicalAccountId profileId with
  | none => pure ()
  | some binding =>
    if canProject binding then do
      match ← getOrCreateRepoState binding.did with
      | none => pure ()
      | some repoState => do
        serialize profileId
        let existing ← getByCanonicalRefId .profile profileId
        let opType := if existing.isSome then .update else .create
        commitAll repoState [opOf binding opType .profile "self" profileId]
          [(.profile, { newAlias profileId .profile binding.did .profile "self" .none with
            cid := existing.bind (·.cid), lastRev := existing.bind (·.lastRev) })]
    else pure ()

def postCollection (post : CanonicalPost) : Collection :=
  if post.isArticle then .document else .post

def postType (post : CanonicalPost) : CanonicalType :=
  if post.isArticle then .article else .post

/-- The teaser that comes with a new article, as an op and as an alias. -/
def newTeaser (binding : IdentityBinding) (canonicalRefId rkey : String) :
    AtRepoOp × AtAliasRecord :=
  (opOf binding .create .post (env.teaserRkey rkey) (teaserRefId canonicalRefId),
    newAlias (teaserRefId canonicalRefId) .post binding.did .post (env.teaserRkey rkey) .none)

/-- `tid` is the key that the rkey service makes for the time of the post. -/
def onPostCreated (canonicalPost : CanonicalPost) (atRecord : Option AtRecordLocator)
    (generateTeaserCompanion : Bool) (tid : String) : Run Unit := do
  match ← getByCanonicalAccountId canonicalPost.authorId with
  | none => pure ()
  | some binding =>
    if canProjectPost canonicalPost binding then do
      match ← getOrCreateRepoState binding.did with
      | none => pure ()
      | some repoState => do
        serialize canonicalPost.id
        let collection := postCollection canonicalPost
        let rkey := (getRequestedRkey atRecord collection).getD tid
        let op := opOf binding .create collection rkey canonicalPost.id
        let record :=
          newAlias canonicalPost.id (postType canonicalPost) binding.did collection rkey .none
        if canonicalPost.isArticle && generateTeaserCompanion then do
          let teaser := newTeaser env binding canonicalPost.id rkey
          serialize (teaserRefId canonicalPost.id)
          commitAll repoState [op, teaser.1] [(.created, record), (.created, teaser.2)]
        else commitAll repoState [op] [(.created, record)]
    else pure ()

/-- The alias of the teaser where the record is an article's and a teaser is asked for. -/
def teaserFor (record : AtAliasRecord) (generateTeaserCompanion : Bool) (canonicalRefId did : String) :
    Run (Option AtAliasRecord) :=
  if record.collection = .document && generateTeaserCompanion then
    ensureArticleTeaserAlias env canonicalRefId did record.rkey
  else pure none

/-- An op on a record and one on its teaser. -/
def opsOn (binding : IdentityBinding) (opType : OpType) (canonicalRefId : String)
    (record : AtAliasRecord) (teaser : Option AtAliasRecord) : List AtRepoOp :=
  opOf binding opType record.collection record.rkey canonicalRefId ::
    (teaser.map fun t => opOf binding opType .post t.rkey (teaserRefId canonicalRefId)).toList

def onPostUpdated (canonicalPost : CanonicalPost) (atRecord : Option AtRecordLocator)
    (generateTeaserCompanion : Bool) : Run Unit := do
  match ← getByCanonicalAccountId canonicalPost.authorId with
  | none => pure ()
  | some binding =>
    if canProjectPost canonicalPost binding then do
      match ← getOrCreateRepoState binding.did with
      | none => pure ()
      | some repoState => do
        match ← ensureAliasForLocator canonicalPost.id
            (some (postCollection canonicalPost, postType canonicalPost)) binding.did atRecord with
        | none => pure ()
        | some record => do
          serialize canonicalPost.id
          let teaser ← teaserFor env record generateTeaserCompanion canonicalPost.id binding.did
          if teaser.isSome then serialize (teaserRefId canonicalPost.id) else pure ()
          commitAll repoState (opsOn binding .update canonicalPost.id record teaser)
            ((.updated, record) :: (teaser.map fun t => (.updated, t)).toList)
    else pure ()

def onPostDeleted (canonicalPostId canonicalAuthorId : String) (atRecord : Option AtRecordLocator)
    (generateTeaserCompanion : Bool) : Run Unit := do
  match ← getByCanonicalAccountId canonicalAuthorId with
  | none => pure ()
  | some binding => do
    match ← getOrCreateRepoState binding.did with
    | none => pure ()
    | some repoState => do
      let expected := atRecord.map fun locator =>
        (locator.collection, canonicalTypeForCollection locator.collection)
      match ← ensureAliasForLocator canonicalPostId expected binding.did atRecord with
      | none => pure ()
      | some record => do
        let teaser ← teaserFor env record generateTeaserCompanion canonicalPostId binding.did
        commitAll repoState (opsOn binding .delete canonicalPostId record teaser) []
        markDeleted .finalDelete canonicalPostId
        match teaser with
        | none => pure ()
        | some t => markDeleted .finalDelete t.canonicalRefId

/-- A new follow, like, repost or reaction. -/
structure SocialAction where
  canonicalRefId : String
  actorId : String
  atRecord : Option AtRecordLocator
  deriving DecidableEq

/-- The end of the handlers of new social actions. -/
def commitSocial (action : SocialAction) (collection : Collection) (canonicalType : CanonicalType)
    (binding : IdentityBinding) (repoState : RepositoryState) (subject : Subject) (tid : String) :
    Run Unit :=
  let rkey := (getRequestedRkey action.atRecord collection).getD tid
  commitAll repoState [opOf binding .create collection rkey action.canonicalRefId]
    [(.created, newAlias action.canonicalRefId canonicalType binding.did collection rkey subject)]

/-- What `onFollowCreated`, `onLikeCreated` and `onRepostCreated` share. -/
def onSocialCreated (action : SocialAction) (collection : Collection)
    (canonicalType : CanonicalType) (subject : Run (Option Subject)) (tid : String) :
    Run Unit := do
  match ← getByCanonicalAccountId action.actorId with
  | none => pure ()
  | some binding =>
    if canProject binding then do
      match ← subject with
      | none => pure ()
      | some subject => do
        match ← getOrCreateRepoState binding.did with
        | none => pure ()
        | some repoState => commitSocial action collection canonicalType binding repoState subject tid
    else pure ()

def followSubject (followed : CanonicalIdentity) : Run (Option Subject) := do
  match ← resolveDidForIdentity followed with
  | none => pure none
  | some subjectDid => pure (some { Subject.none with subjectDid := some subjectDid })

/-- The subject fields of a target. -/
def targetSubject (target : StrongRef) : Subject :=
  { Subject.none with subjectUri := some target.uri, subjectCid := truthy target.cid }

def postSubject (targetPostId : String) : Run (Option Subject) := do
  match ← resolvePostStrongRef targetPostId with
  | none => pure none
  | some target => pure (some (targetSubject target))

def onFollowCreated (action : SocialAction) (followed : CanonicalIdentity) (tid : String) : Run Unit :=
  onSocialCreated action .follow .follow (followSubject followed) tid

def onLikeCreated (action : SocialAction) (targetPostId tid : String) : Run Unit :=
  onSocialCreated action .like .like (postSubject targetPostId) tid

def onRepostCreated (action : SocialAction) (targetPostId tid : String) : Run Unit :=
  onSocialCreated action .repost .repost (postSubject targetPostId) tid

/-- The subject of the reaction's own record, else the target post. -/
def reactionTarget (nativeSubject : Option StrongRef) (targetPostId : String) :
    Run (Option StrongRef) :=
  match nativeSubject with
  | some target => if target.uri = "" then resolvePostStrongRef targetPostId else pure (some target)
  | none => resolvePostStrongRef targetPostId

/-- Unlike the other social actions, this one looks for its target after the repo state. -/
def onEmojiReactionCreated (action : SocialAction) (nativeSubject : Option StrongRef)
    (targetPostId content tid : String) : Run Unit := do
  match ← getByCanonicalAccountId action.actorId with
  | none => pure ()
  | some binding =>
    if canProject binding then do
      match ← getOrCreateRepoState binding.did with
      | none => pure ()
      | some repoState => do
        match ← reactionTarget nativeSubject targetPostId with
        | none => pure ()
        | some target =>
          commitSocial action .emojiReaction .emojiReaction binding repoState
            { targetSubject target with reactionContent := some content } tid
    else pure ()

/-- What the handlers of deleted social actions share. -/
def onSocialDeleted (action : SocialAction) (collection : Collection)
    (canonicalType : CanonicalType) : Run Unit := do
  match ← getByCanonicalAccountId action.actorId with
  | none => pure ()
  | some binding => do
    match ← getOrCreateRepoState binding.did with
    | none => pure ()
    | some repoState => do
      match ← ensureAliasForLocator action.canonicalRefId (some (collection, canonicalType))
          binding.did action.atRecord with
      | none => pure ()
      | some record => do
        commitAll repoState [opOf binding .delete record.collection record.rkey action.canonicalRefId]
          []
        markDeleted .finalDelete action.canonicalRefId

def onFollowDeleted (action : SocialAction) : Run Unit := onSocialDeleted action .follow .follow
def onLikeDeleted (action : SocialAction) : Run Unit := onSocialDeleted action .like .like
def onRepostDeleted (action : SocialAction) : Run Unit := onSocialDeleted action .repost .repost
def onEmojiReactionDeleted (action : SocialAction) : Run Unit :=
  onSocialDeleted action .emojiReaction .emojiReaction

inductive Event where
  | profileUpserted (profileId : String)
  | postCreated (post : CanonicalPost) (atRecord : Option AtRecordLocator)
      (generateTeaserCompanion : Bool)
  | postUpdated (post : CanonicalPost) (atRecord : Option AtRecordLocator)
      (generateTeaserCompanion : Bool)
  | postDeleted (canonicalPostId canonicalAuthorId : String) (atRecord : Option AtRecordLocator)
      (generateTeaserCompanion : Bool)
  | followCreated (action : SocialAction) (followed : CanonicalIdentity)
  | followDeleted (action : SocialAction)
  | likeCreated (action : SocialAction) (targetPostId : String)
  | likeDeleted (action : SocialAction)
  | repostCreated (action : SocialAction) (targetPostId : String)
  | repostDeleted (action : SocialAction)
  | emojiReactionCreated (action : SocialAction) (nativeSubject : Option StrongRef)
      (targetPostId content : String)
  | emojiReactionDeleted (action : SocialAction)
  deriving DecidableEq

/-- An event on its way through the worker, with the key that the rkey service would make for
a record it creates. -/
structure Delivery where
  event : Event
  tid : String
  deriving DecidableEq

def Delivery.program (delivery : Delivery) : Run Unit :=
  match delivery.event with
  | .profileUpserted profileId => onProfileUpserted profileId
  | .postCreated post atRecord generateTeaserCompanion =>
    onPostCreated env post atRecord generateTeaserCompanion delivery.tid
  | .postUpdated post atRecord generateTeaserCompanion =>
    onPostUpdated env post atRecord generateTeaserCompanion
  | .postDeleted canonicalPostId canonicalAuthorId atRecord generateTeaserCompanion =>
    onPostDeleted env canonicalPostId canonicalAuthorId atRecord generateTeaserCompanion
  | .followCreated action followed => onFollowCreated action followed delivery.tid
  | .followDeleted action => onFollowDeleted action
  | .likeCreated action targetPostId => onLikeCreated action targetPostId delivery.tid
  | .likeDeleted action => onLikeDeleted action
  | .repostCreated action targetPostId => onRepostCreated action targetPostId delivery.tid
  | .repostDeleted action => onRepostDeleted action
  | .emojiReactionCreated action nativeSubject targetPostId content =>
    onEmojiReactionCreated action nativeSubject targetPostId content delivery.tid
  | .emojiReactionDeleted action => onEmojiReactionDeleted action

end Worker

structure Server where
  bindings : String → Option IdentityBinding
  repos : String → Option (Nat × Option Nat)
  aliases : List AtAliasRecord
  /-- the commits published on at.commit.v1, the latest first -/
  commits : List AtCommit
  /-- the name of the next commit -/
  nextCid : Nat

namespace Server

def empty (bindings : String → Option IdentityBinding) : Server :=
  ⟨bindings, fun _ => none, [], [], 0⟩

def repoState (s : Server) (did : String) : Option RepositoryState :=
  (s.repos did).map fun held => ⟨did, held.1, held.2⟩

def setRepo (s : Server) (state : RepositoryState) : Server :=
  { s with repos := fun did => if did = state.did then some (state.rev, state.rootCid) else s.repos did }

/-- The alias under `at:alias:canonical:` and this id. -/
def aliasOf (s : Server) (id : String) : Option AtAliasRecord :=
  Lib.RecordStore.find (·.canonicalRefId) s.aliases id

def putAlias (s : Server) (record : AtAliasRecord) : Server :=
  { s with aliases := Lib.RecordStore.put (·.canonicalRefId) s.aliases record }

def publish (s : Server) (commit : AtCommit) : Server := { s with commits := commit :: s.commits }

def sign (s : Server) : Server := { s with nextCid := s.nextCid + 1 }

/-- A call that has its effect and is answered. -/
def answer (s : Server) : (c : Call) → Reply c × Server
  | .getBinding accountId => (some (s.bindings accountId), s)
  | .getRepoState _ did => (some (s.repoState did), s)
  | .repoExists did => (some (s.repos did).isSome, s)
  | .setRepo state => (some (), s.setRepo state)
  | .previousRepo did => (some (s.repos did).isSome, s)
  | .serialize _ => (some (), s)
  | .getAlias _ id => (some (s.aliasOf id), s)
  | .putAlias _ record => (some (), s.putAlias record)
  | .publishOp _ => (some (), s)
  | .signAtprotoCommit .. => (some s.nextCid, s.sign)
  | .setHead .. => (some (), s)
  | .publishCommit commit => (some (), s.publish commit)
  | .publishEgress _ => (some (), s)

/-- The reply of a call that fails. -/
def refuse : (c : Call) → Reply c
  | .getBinding _ => none
  | .getRepoState .. => none
  | .repoExists _ => none
  | .setRepo _ => none
  | .previousRepo _ => none
  | .serialize _ => none
  | .getAlias .. => none
  | .putAlias .. => none
  | .publishOp _ => none
  | .signAtprotoCommit .. => none
  | .setHead .. => none
  | .publishCommit _ => none
  | .publishEgress _ => none

end Server

/-- What becomes of a call. -/
inductive Fate where
  | answered
  /-- it fails and has no effect -/
  | refused
  /-- it has its effect, and fails all the same -/
  | unanswered
  deriving DecidableEq

namespace Server

def suffer (s : Server) (c : Call) : Fate → Reply c × Server
  | .answered => s.answer c
  | .refused => (refuse c, s)
  | .unanswered => (refuse c, (s.answer c).2)

/-- Run a program alone, where each call has its fate. -/
def run {α : Type} (fates : Call → Fate) :
    Prog Call Reply Failure α → Server → Except Failure α × Server
  | .done outcome, s => (outcome, s)
  | .call c next, s => run fates (next (s.suffer c (fates c)).1) (s.suffer c (fates c)).2

/-- No call fails. -/
def undisturbed : Call → Fate := fun _ => .answered

/-- The worker handles an event. -/
def deliver (env : Environment) (fates : Call → Fate) (s : Server) (delivery : Delivery) :
    Except Failure Unit × Server :=
  run fates (delivery.program env) s

end Server

end MastopodFederation.Source.AtProjectionWorker
