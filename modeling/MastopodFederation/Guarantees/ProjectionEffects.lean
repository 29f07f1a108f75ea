import MastopodFederation.Source.AtProjectionWorker

/-!
# What an undisturbed event does

An event that no failure disturbs publishes the ops that its plan lists, in one commit, and leaves
every alias it addresses where its op says. The plan is a function of the stores before the event.
-/
namespace MastopodFederation.Guarantees.ProjectionEffects
open Lib Lib.Calls Source.AtProjectionWorker Source.AtProjectionWorker.Server

structure Location where
  did : String
  collection : Collection
  rkey : String
  deriving DecidableEq

def locationOf (op : AtRepoOp) : Location := ⟨op.did, op.collection, op.rkey⟩

def placeOf (record : AtAliasRecord) : Location := ⟨record.did, record.collection, record.rkey⟩

def activeAt (s : Server) (id : String) : Option Location := (active (s.aliasOf id)).map placeOf

def settle (named : String → Option Location) (op : AtRepoOp) : String → Option Location :=
  fun id => if id = op.canonicalRefId then
    if op.opType = .delete then none else some (locationOf op)
  else named id

def apply (records : Location → Option String) (op : AtRepoOp) : Location → Option String :=
  fun place => if place = locationOf op then
    if op.opType = .delete then none else some op.canonicalRefId
  else records place

def live : List AtCommit → Location → Option String
  | [] => fun _ => none
  | commit :: earlier => (commit.ops.map (·.op)).foldl apply (live earlier)

def Fits (s : Server) (op : AtRepoOp) : Prop :=
  (∀ place, activeAt s op.canonicalRefId = some place → place = locationOf op) ∧
    ∀ id, activeAt s id = some (locationOf op) → id = op.canonicalRefId

section Plan
variable (env : Environment) (s : Server)

def reached (id : String) (expected : Option (Collection × CanonicalType)) (did : String)
    (atRecord : Option AtRecordLocator) : Option AtAliasRecord :=
  (active (s.aliasOf id)).or (located id expected did atRecord (s.aliasOf id))

def teaserOf (record : AtAliasRecord) (asked : Bool) (id did : String) : Option AtAliasRecord :=
  if record.collection = .document && asked then
    some ((active (s.aliasOf (teaserRefId id))).getD
      (teaserPlaceholder env id did record.rkey (s.aliasOf (teaserRefId id))))
  else none

def planOn (binding : IdentityBinding) (opType : OpType) (id : String) (asked : Bool)
    (record : Option AtAliasRecord) : List AtRepoOp :=
  match record with
  | none => []
  | some record => opsOn binding opType id record (teaserOf env s record asked id binding.did)

def planCreated (binding : IdentityBinding) (post : CanonicalPost)
    (atRecord : Option AtRecordLocator) (asked : Bool) (tid : String) : List AtRepoOp :=
  let rkey := (getRequestedRkey atRecord (postCollection post)).getD tid
  opOf binding .create (postCollection post) rkey post.id ::
    if post.isArticle && asked then [(newTeaser env binding post.id rkey).1] else []

def followed (identity : CanonicalIdentity) : Bool :=
  (((s.bindings identity.id).bind fun binding =>
    if binding.active then truthy binding.atprotoDid else none).or
      (truthy identity.atprotoDid)).isSome

def targeted (targetPostId : String) : Bool := ((s.aliasOf targetPostId).bind strongRef).isSome

def reacted (nativeSubject : Option StrongRef) (targetPostId : String) : Bool :=
  (nativeSubject.any fun target => target.uri ≠ "") || targeted s targetPostId

def planSocial (binding : IdentityBinding) (found : Bool) (action : SocialAction)
    (collection : Collection) (tid : String) : List AtRepoOp :=
  if canProject binding && found then
    [opOf binding .create collection ((getRequestedRkey action.atRecord collection).getD tid)
      action.canonicalRefId]
  else []

def planGone (binding : IdentityBinding) (action : SocialAction) (collection : Collection)
    (canonicalType : CanonicalType) : List AtRepoOp :=
  match reached s action.canonicalRefId (some (collection, canonicalType)) binding.did
      action.atRecord with
  | none => []
  | some record => [opOf binding .delete record.collection record.rkey action.canonicalRefId]

def accountOf : Event → String
  | .profileUpserted profileId => profileId
  | .postCreated post .. => post.authorId
  | .postUpdated post .. => post.authorId
  | .postDeleted _ canonicalAuthorId .. => canonicalAuthorId
  | .followCreated action _ => action.actorId
  | .followDeleted action => action.actorId
  | .likeCreated action _ => action.actorId
  | .likeDeleted action => action.actorId
  | .repostCreated action _ => action.actorId
  | .repostDeleted action => action.actorId
  | .emojiReactionCreated action .. => action.actorId
  | .emojiReactionDeleted action => action.actorId

def planFor (binding : IdentityBinding) (delivery : Delivery) : List AtRepoOp :=
  match delivery.event with
  | .profileUpserted profileId =>
    if canProject binding then
      [opOf binding (if (s.aliasOf profileId).isSome then .update else .create) .profile "self"
        profileId]
    else []
  | .postCreated post atRecord asked =>
    if canProjectPost post binding then planCreated env binding post atRecord asked delivery.tid
    else []
  | .postUpdated post atRecord asked =>
    if canProjectPost post binding then
      planOn env s binding .update post.id asked
        (reached s post.id (some (postCollection post, postType post)) binding.did atRecord)
    else []
  | .postDeleted id _ atRecord asked =>
    planOn env s binding .delete id asked
      (reached s id (atRecord.map fun locator =>
        (locator.collection, canonicalTypeForCollection locator.collection)) binding.did atRecord)
  | .followCreated action identity =>
    planSocial binding (followed s identity) action .follow delivery.tid
  | .likeCreated action target => planSocial binding (targeted s target) action .like delivery.tid
  | .repostCreated action target =>
    planSocial binding (targeted s target) action .repost delivery.tid
  | .emojiReactionCreated action native target _ =>
    planSocial binding (reacted s native target) action .emojiReaction delivery.tid
  | .followDeleted action => planGone s binding action .follow .follow
  | .likeDeleted action => planGone s binding action .like .like
  | .repostDeleted action => planGone s binding action .repost .repost
  | .emojiReactionDeleted action => planGone s binding action .emojiReaction .emojiReaction

def plan (delivery : Delivery) : List AtRepoOp :=
  match s.bindings (accountOf delivery.event) with
  | none => []
  | some binding => planFor env s binding delivery

end Plan

section Run
variable {α β : Type} {s t : Server} {a : α} {fates : Call → Fate}

theorem run_bind (x : Run α) (f : α → Run β) (s : Server) :
    run fates (x >>= f) s = match run fates x s with
      | (.ok a, t) => run fates (f a) t
      | (.error e, t) => (.error e, t) := by
  change run fates (x.bind f) s = _
  induction x generalizing s with
  | done outcome => cases outcome <;> rfl
  | call c next ih => exact ih _ _

def Gives (x : Run α) (s : Server) (a : α) (t : Server) : Prop :=
  run undisturbed x s = (.ok a, t)

theorem Gives.bind {x : Run α} {f : α → Run β} {b : β} {r : Server} (first : Gives x s a t)
    (second : Gives (f a) t b r) : Gives (x >>= f) s b r := by
  unfold Gives at first ⊢
  rw [run_bind, first]
  exact second

theorem gives_pure : Gives (pure a : Run α) s a s := rfl

theorem run_attempt (x : Run α) (s : Server) :
    run fates (x.attempt : Run (Except Failure α)) s = (.ok (run fates x s).1, (run fates x s).2) := by
  induction x generalizing s with
  | done outcome => rfl
  | call c next ih => exact ih _ _

theorem gives_rescue {x : Run α} {handler : Failure → Run α} (first : Gives x s a t) :
    Gives (x.rescue handler) s a t := by
  have tried : Gives (x.attempt : Run (Except Failure α)) s (.ok a) t := by
    unfold Gives at first ⊢
    rw [run_attempt, first]
  exact tried.bind rfl

variable {body : α → Run Unit}

theorem gives_forEach (each : ∀ item, Gives (body item) s () s) :
    ∀ items : List α, Gives (forEach body items) s () s
  | [] => rfl
  | item :: items => (each item).bind (gives_forEach each items)

theorem gives_forEach_aliases {effect : List AtAliasRecord → α → List AtAliasRecord}
    (each : ∀ item s, Gives (body item) s () { s with aliases := effect s.aliases item }) :
    ∀ (items : List α) (s : Server),
      Gives (forEach body items) s () { s with aliases := items.foldl effect s.aliases }
  | [], _ => rfl
  | item :: items, s => (each item s).bind (gives_forEach_aliases each items _)

end Run

structure Unseen (s t : Server) : Prop where
  aliases : t.aliases = s.aliases
  commits : t.commits = s.commits
  bindings : t.bindings = s.bindings

theorem Unseen.refl (s : Server) : Unseen s s := ⟨rfl, rfl, rfl⟩

theorem Unseen.setRepo (s : Server) (state : RepositoryState) : Unseen s (s.setRepo state) :=
  ⟨rfl, rfl, rfl⟩

section Parts
variable {s : Server}

theorem repoState_setRepo (state : RepositoryState) :
    (s.setRepo state).repoState state.did = some state := by
  simp [repoState, Server.setRepo]

theorem repos_of_repoState {did : String} (absent : s.repoState did = none) : s.repos did = none := by
  simpa [repoState] using absent

theorem gives_getOrCreateRepoState (did : String) :
    ∃ state t, Gives (getOrCreateRepoState did) s (some state) t ∧ state.did = did ∧ Unseen s t := by
  cases stored : s.repoState did with
  | some state =>
    refine ⟨state, s, ?_, ?_, .refl s⟩
    · have read : Gives (getRepoState false did) s (some state) s := by
        rw [← stored]
        rfl
      exact read.bind rfl
    · obtain ⟨_, -, rfl⟩ := Option.map_eq_some_iff.mp stored
      rfl
  | none =>
    refine ⟨bootstrapState did, s.setRepo (bootstrapState did), ?_, rfl, .setRepo s _⟩
    have read : Gives (getRepoState false did) s none s := by
      rw [← stored]
      rfl
    have registers : Gives (register (bootstrapState did)) s () (s.setRepo (bootstrapState did)) := by
      have free : Gives (repoExists (bootstrapState did).did) s false s := by
        change (_, _) = _
        rw [show (bootstrapState did).did = did from rfl, repos_of_repoState stored]
        rfl
      exact free.bind rfl
    have again : Gives (getRepoState true did) (s.setRepo (bootstrapState did))
        (some (bootstrapState did)) (s.setRepo (bootstrapState did)) := by
      rw [← repoState_setRepo (bootstrapState did)]
      rfl
    exact read.bind ((gives_rescue registers).bind again)

theorem gives_updateRepo (state : RepositoryState) :
    ∃ t, Gives ((updateRepo state).rescue fun _ => pure ()) s () t ∧ Unseen s t := by
  have tried : ∃ outcome t, run undisturbed (updateRepo state) s = (outcome, t) ∧ Unseen s t := by
    have asked : Gives (previousRepo state.did) s (s.repos state.did).isSome s := rfl
    unfold updateRepo
    rw [run_bind, asked]
    cases (s.repos state.did).isSome with
    | true => exact ⟨_, _, rfl, .setRepo s state⟩
    | false => exact ⟨_, _, rfl, .refl s⟩
  obtain ⟨outcome, t, ran, unseen⟩ := tried
  refine ⟨t, ?_, unseen⟩
  have attempted : Gives ((updateRepo state).attempt : Run (Except Failure Unit)) s outcome t := by
    unfold Gives
    rw [run_attempt, ran]
  cases outcome with
  | ok value => exact attempted.bind rfl
  | error e => exact attempted.bind rfl

abbrev Aliases := List AtAliasRecord

def stored (aliases : Aliases) (record : AtAliasRecord) : Aliases :=
  RecordStore.put (·.canonicalRefId) aliases record

def found (aliases : Aliases) (id : String) : Option AtAliasRecord :=
  RecordStore.find (·.canonicalRefId) aliases id

def marked (aliases : Aliases) (id : String) : Aliases :=
  match found aliases id with
  | none => aliases
  | some record => stored aliases { record with deleted := true }

def persisted (rev : Nat) (aliases : Aliases) (op : AtRepoOp) : Aliases :=
  if op.opType = .delete then marked aliases op.canonicalRefId
  else match found aliases op.canonicalRefId with
    | none => aliases
    | some record => stored aliases { record with cid := some mockRecordCid, lastRev := some rev }

theorem gives_getAlias (site : AliasSite) (id : String) :
    Gives (getByCanonicalRefId site id) s (s.aliasOf id) s := rfl

theorem gives_putAlias (site : AliasSite) (record : AtAliasRecord) (s : Server) :
    Gives (putAlias site record) s () { s with aliases := stored s.aliases record } := rfl

theorem gives_setHead (did : String) (field : HeadField) : Gives (setHead did field) s () s := rfl

theorem gives_publishOp (op : AtRepoOp) : Gives (publishOp op) s () s := rfl

theorem gives_publishEgress (op : AtRepoOp) : Gives (publishEgress op) s () s := rfl

theorem gives_serialize (id : String) : Gives (serialize id) s () s := rfl

theorem gives_markDeleted (site : AliasSite) (id : String) (s : Server) :
    Gives (markDeleted site id) s () { s with aliases := marked s.aliases id } := by
  apply (gives_getAlias site id).bind
  unfold marked
  change Gives (match found s.aliases id with | none => _ | some _ => _) _ _ _
  cases found s.aliases id <;> rfl

theorem gives_persistAlias (rev : Nat) (op : AtRepoOp) (s : Server) :
    Gives (persistAlias rev op) s () { s with aliases := persisted rev s.aliases op } := by
  have update : op.opType ≠ .delete → Gives (updateCidAndRev op.canonicalRefId mockRecordCid rev) s ()
      { s with aliases := persisted rev s.aliases op } := by
    intro kind
    apply (gives_getAlias .cidAndRev op.canonicalRefId).bind
    unfold persisted
    rw [if_neg kind]
    change Gives (match found s.aliases op.canonicalRefId with | none => _ | some _ => _) _ _ _
    cases found s.aliases op.canonicalRefId <;> rfl
  unfold persistAlias
  cases kind : op.opType with
  | create => exact update (by rw [kind]; decide)
  | update => exact update (by rw [kind]; decide)
  | delete =>
    unfold persisted
    rw [if_pos kind]
    exact gives_markDeleted .persistedDelete op.canonicalRefId s

theorem gives_commitOps : ∀ (ops : List AtRepoOp),
    Gives (commitOps ops) s
      (ops.map fun op => ⟨op, ((s.aliasOf op.canonicalRefId).map (·.subject)).getD .none⟩) s
  | [] => rfl
  | op :: ops => by
    have first : Gives (commitOp op) s
        ⟨op, ((s.aliasOf op.canonicalRefId).map (·.subject)).getD .none⟩ s := rfl
    exact first.bind ((gives_commitOps ops).bind rfl)

structure Committed (s : Server) (did : String) (ops : List AtRepoOp) (records : Aliases)
    (t : Server) : Prop where
  aliases : ∃ rev, t.aliases = ops.foldl (persisted rev) (records.foldl stored s.aliases)
  commits : ∃ commit, t.commits = commit :: s.commits ∧ commit.ops.map (·.op) = ops ∧ commit.did = did
  bindings : t.bindings = s.bindings

theorem gives_persist (result : BuildCommitResult) :
    ∃ commit : AtCommit, Gives (persist result) s ()
        { s with
          aliases := result.ops.foldl (persisted result.rev) s.aliases
          commits := commit :: s.commits } ∧
      commit.ops.map (·.op) = result.ops ∧ commit.did = result.did := by
  have heads : Gives (forEach (setHead result.did) headFields) s () s :=
    gives_forEach (gives_setHead result.did) headFields
  have aliases := gives_forEach_aliases (gives_persistAlias result.rev) result.ops s
  have egress : ∀ t, Gives (forEach publishEgress result.ops) t () t :=
    fun t => gives_forEach gives_publishEgress result.ops
  refine ⟨_, heads.bind (aliases.bind ((gives_commitOps result.ops).bind (Gives.bind rfl (egress _)))),
    ?_, rfl⟩
  rw [List.map_map]
  exact List.map_id _

theorem gives_commitAll {state : RepositoryState} {op : AtRepoOp} {ops : List AtRepoOp}
    (aliases : List (AliasSite × AtAliasRecord)) (named : state.did ≠ "")
    (account : op.canonicalAccountId ≠ "") :
    ∃ t, Gives (commitAll state (op :: ops) aliases) s () t ∧
      Committed s state.did (op :: ops) (aliases.map (·.2)) t := by
  let result : BuildCommitResult :=
    ⟨state.did, nextRev state.rev, s.nextCid, state.rootCid, op :: ops⟩
  have builds : Gives (buildCommit state (op :: ops)) s result s.sign := by
    unfold buildCommit
    dsimp only
    rw [if_neg named, if_neg account]
    rfl
  have puts : Gives (forEach (fun stored => putAlias stored.1 stored.2) aliases) s.sign ()
      { s.sign with aliases := (aliases.map (·.2)).foldl stored s.aliases } := by
    rw [List.foldl_map]
    exact gives_forEach_aliases (fun item t => gives_putAlias item.1 item.2 t) aliases s.sign
  obtain ⟨commit, persists, carried, own⟩ :=
    @gives_persist { s.sign with aliases := (aliases.map (·.2)).foldl stored s.aliases } result
  obtain ⟨t, updates, unseen⟩ := @gives_updateRepo
    { s.sign with
      aliases := result.ops.foldl (persisted result.rev) ((aliases.map (·.2)).foldl stored s.aliases)
      commits := commit :: s.commits }
    { state with rev := result.rev, rootCid := some result.commitCid }
  refine ⟨t, ?_, ⟨_, unseen.aliases⟩, ⟨commit, unseen.commits, carried, own⟩, unseen.bindings⟩
  have announces : Gives (forEach publishOp (op :: ops)) s () s :=
    gives_forEach gives_publishOp _
  exact announces.bind (builds.bind (puts.bind (persists.bind updates)))

end Parts

def activeIn (aliases : Aliases) (id : String) : Option Location :=
  (active (found aliases id)).map placeOf

section Aliases
variable {aliases : Aliases} {rev : Nat} {op : AtRepoOp} {id : String}

theorem found_stored (record : AtAliasRecord) :
    found (stored aliases record) id =
      if id = record.canonicalRefId then some record else found aliases id :=
  RecordStore.find_put

variable {record : AtAliasRecord}

theorem name_of_found (there : found aliases id = some record) : record.canonicalRefId = id :=
  RecordStore.name_of_find there

theorem active_some (record : AtAliasRecord) :
    active (some record) = if record.deleted then none else some record := by
  unfold active
  cases gone : record.deleted <;> simp [Option.filter, gone]

theorem activeIn_of_some (there : found aliases id = some record) :
    activeIn aliases id = if record.deleted then none else some (placeOf record) := by
  unfold activeIn
  rw [there, active_some]
  split <;> rfl

theorem activeIn_of_none (absent : found aliases id = none) : activeIn aliases id = none := by
  unfold activeIn
  rw [absent]
  rfl

theorem activeIn_stored (record : AtAliasRecord) :
    activeIn (stored aliases record) id = if id = record.canonicalRefId then
      if record.deleted then none else some (placeOf record)
    else activeIn aliases id := by
  split
  next same =>
    have there : found (stored aliases record) id = some record := by rw [found_stored, if_pos same]
    exact activeIn_of_some there
  next other =>
    unfold activeIn
    rw [found_stored, if_neg other]

@[simp] theorem activeIn_marked (gone : String) :
    activeIn (marked aliases gone) id = if id = gone then none else activeIn aliases id := by
  unfold marked
  cases there : found aliases gone with
  | none =>
    dsimp only
    split
    next same => rw [same, activeIn_of_none there]
    next => rfl
  | some record =>
    dsimp only
    rw [activeIn_stored]
    dsimp only
    rw [name_of_found there, if_pos rfl]

theorem activeIn_kept (kept : op.opType ≠ .delete) :
    activeIn (persisted rev aliases op) id = activeIn aliases id := by
  unfold persisted
  rw [if_neg kept]
  cases there : found aliases op.canonicalRefId with
  | none => rfl
  | some record =>
    rw [activeIn_stored]
    dsimp only
    split
    next same =>
      rw [same, name_of_found there, activeIn_of_some there]
      rfl
    next => rfl

def Ready (aliases : Aliases) (op : AtRepoOp) : Prop :=
  op.opType ≠ .delete → activeIn aliases op.canonicalRefId = some (locationOf op)

theorem activeIn_persisted (ready : Ready aliases op) :
    activeIn (persisted rev aliases op) = settle (activeIn aliases) op := by
  funext id
  unfold settle
  by_cases kind : op.opType = .delete
  · unfold persisted
    rw [if_pos kind, if_pos kind, activeIn_marked]
  · rw [activeIn_kept kind, if_neg kind]
    split
    next same => rw [same, ready kind]
    next => rfl

def Apart (ops : List AtRepoOp) : Prop :=
  ops.Pairwise fun op other => op.canonicalRefId ≠ other.canonicalRefId

theorem activeIn_foldl : ∀ (ops : List AtRepoOp) (aliases : Aliases), Apart ops →
    (∀ op ∈ ops, Ready aliases op) →
      activeIn (ops.foldl (persisted rev) aliases) = ops.foldl settle (activeIn aliases)
  | [], _, _, _ => rfl
  | op :: ops, aliases, apart, ready => by
    have others := List.pairwise_cons.mp apart
    have first := @activeIn_persisted aliases rev op (ready op List.mem_cons_self)
    have rest : ∀ other ∈ ops, Ready (persisted rev aliases op) other := by
      intro other listed kind
      rw [first]
      unfold settle
      rw [if_neg (Ne.symm (others.1 other listed))]
      exact ready other (List.mem_cons_of_mem _ listed) kind
    rw [List.foldl_cons, activeIn_foldl ops _ others.2 rest, first, List.foldl_cons]

theorem settle_congr {named other : String → Option Location} :
    ∀ (ops : List AtRepoOp), (∀ id, (∀ op ∈ ops, op.canonicalRefId ≠ id) → named id = other id) →
      ops.foldl settle named = ops.foldl settle other
  | [], same => funext fun id => same id fun _ none => nomatch none
  | op :: ops, same => by
    rw [List.foldl_cons, List.foldl_cons]
    apply settle_congr ops
    intro id elsewhere
    unfold settle
    split
    · rfl
    next apart =>
      apply same id
      intro op' listed
      rcases List.mem_cons.mp listed with rfl | listed
      · exact Ne.symm apart
      · exact elsewhere op' listed

end Aliases

structure Projects (s : Server) (ops : List AtRepoOp) (t : Server) : Prop where
  active : activeAt t = ops.foldl settle (activeAt s)
  commits : ops = [] ∧ t.commits = s.commits ∨
    ∃ commit, t.commits = commit :: s.commits ∧ commit.ops.map (·.op) = ops
  bindings : t.bindings = s.bindings

theorem Projects.live {s t : Server} {ops : List AtRepoOp} (projects : Projects s ops t) :
    live t.commits = ops.foldl apply (live s.commits) := by
  rcases projects.commits with ⟨rfl, same⟩ | ⟨commit, more, carried⟩
  · rw [same]
    rfl
  · rw [more, ← carried]
    rfl

theorem Unseen.projects {s t : Server} (unseen : Unseen s t) : Projects s [] t where
  active := by
    funext id
    change activeIn t.aliases id = activeIn s.aliases id
    rw [unseen.aliases]
  commits := .inl ⟨rfl, unseen.commits⟩
  bindings := unseen.bindings

section Committed
variable {s mid t : Server} {did : String} {ops : List AtRepoOp} {records : Aliases}

theorem Committed.projects (committed : Committed mid did ops records t)
    (commits : mid.commits = s.commits) (bindings : mid.bindings = s.bindings) (apart : Apart ops)
    (ready : ∀ op ∈ ops, Ready (records.foldl stored mid.aliases) op)
    (same : ∀ id, (∀ op ∈ ops, op.canonicalRefId ≠ id) →
      activeIn (records.foldl stored mid.aliases) id = activeAt s id) : Projects s ops t where
  active := by
    obtain ⟨rev, left⟩ := committed.aliases
    have settled : activeAt t = activeIn t.aliases := rfl
    rw [settled, left, activeIn_foldl ops _ apart ready]
    exact settle_congr ops same
  commits := by
    obtain ⟨commit, more, carried, -⟩ := committed.commits
    exact .inr ⟨commit, commits ▸ more, carried⟩
  bindings := committed.bindings.trans bindings

end Committed

end MastopodFederation.Guarantees.ProjectionEffects
