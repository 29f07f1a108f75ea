import MastopodFederation.Guarantees.ProjectionEffects

/-!
# Events follow their plans

Handler by handler: an event that nothing disturbs publishes exactly the ops of its plan, provided
its account has a DID and the ids of the ops name no other records.
-/
namespace MastopodFederation.Guarantees.ProjectionPlans
open Source.AtProjectionWorker Source.AtProjectionWorker.Server ProjectionEffects

def Completes (s : Server) (ops : List AtRepoOp) (x : Run Unit) (r : Server) : Prop :=
  ∃ t, Gives x r () t ∧ Projects s ops t

section Parts
variable {s r : Server}

theorem completes_nothing : Completes s [] (pure ()) s := ⟨s, rfl, (Unseen.refl s).projects⟩

variable {ops : List AtRepoOp}

theorem completes_after {α : Type} {x : Run α} {f : α → Run Unit} {a : α}
    {t : Server} (first : Gives x r a t) (rest : Completes s ops (f a) t) :
    Completes s ops (x >>= f) r := by
  obtain ⟨u, given, projects⟩ := rest
  exact ⟨u, first.bind given, projects⟩

theorem completes_bound {accountId : String} {f : Option IdentityBinding → Run Unit}
    {ops : IdentityBinding → List AtRepoOp} (absent : f none = pure ())
    (present : ∀ binding, s.bindings accountId = some binding →
      Completes s (ops binding) (f (some binding)) s) :
    Completes s
      (match s.bindings accountId with
        | none => []
        | some binding => ops binding)
      (getByCanonicalAccountId accountId >>= f) s := by
  have read : Gives (getByCanonicalAccountId accountId) s (s.bindings accountId) s := rfl
  apply completes_after read
  cases stored : s.bindings accountId with
  | none =>
    rw [absent]
    exact completes_nothing
  | some binding => exact present binding stored

theorem completes_repo {did : String} {f : Option RepositoryState → Run Unit}
    (next : ∀ state r, state.did = did → Unseen s r → Completes s ops (f (some state)) r) :
    Completes s ops (getOrCreateRepoState did >>= f) s := by
  obtain ⟨state, r, given, own, unseen⟩ := @gives_getOrCreateRepoState s did
  exact completes_after given (next state r own unseen)

theorem found_of_unseen (unseen : Unseen s r) (id : String) : found r.aliases id = s.aliasOf id :=
  congrArg (fun aliases => ProjectionEffects.found aliases id) unseen.aliases

structure Puts (s : Server) (id : String) (t : Server) : Prop where
  others : ∀ other, other ≠ id → found t.aliases other = s.aliasOf other
  commits : t.commits = s.commits
  bindings : t.bindings = s.bindings

theorem Puts.refl (s : Server) (id : String) : Puts s id s := ⟨fun _ _ => rfl, rfl, rfl⟩

theorem puts_stored (record : AtAliasRecord) :
    Puts s record.canonicalRefId { s with aliases := stored s.aliases record } where
  others other apart := by
    rw [found_stored, if_neg apart]
    rfl
  commits := rfl
  bindings := rfl

variable {record : AtAliasRecord} {id : String}

theorem aliasOf_stored (name : id = record.canonicalRefId) :
    aliasOf { s with aliases := stored s.aliases record } id = some record := by
  have there : found (stored s.aliases record) id = some record := by rw [found_stored, if_pos name]
  exact there

theorem gives_stored (site : AliasSite)
    (name : id = record.canonicalRefId) :
    Gives (getByCanonicalRefId site id) { s with aliases := stored s.aliases record } (some record)
      { s with aliases := stored s.aliases record } := by
  rw [← aliasOf_stored name]
  rfl

variable {existing : Option AtAliasRecord}

theorem active_eq_some
    (there : active existing = some record) : existing = some record ∧ record.deleted = false := by
  unfold active at there
  rw [Option.filter_eq_some_iff] at there
  exact ⟨there.1, by simpa using there.2⟩

theorem located_eq_some {did : String} {expected : Option (Collection × CanonicalType)}
    {atRecord : Option AtRecordLocator}
    (there : located id expected did atRecord existing = some record) :
    record.canonicalRefId = id ∧ record.did = did ∧ record.deleted = false := by
  unfold located at there
  split at there
  · split at there
    · cases there
      exact ⟨rfl, rfl, rfl⟩
    · nomatch there
  · nomatch there

structure Stands (t : Server) (id : String) (record : AtAliasRecord) : Prop where
  name : record.canonicalRefId = id
  active : record.deleted = false
  there : activeAt t id = some (placeOf record)

theorem stands_stored (kept : record.deleted = false) :
    Stands { s with aliases := stored s.aliases record } record.canonicalRefId record where
  name := rfl
  active := kept
  there := by
    change activeIn (stored s.aliases record) record.canonicalRefId = _
    rw [activeIn_stored, if_pos rfl, kept]
    rfl

theorem stands_active
    (there : active (s.aliasOf id) = some record) : Stands s id record where
  name := name_of_found (active_eq_some there).1
  active := (active_eq_some there).2
  there := by
    unfold activeAt
    rw [there]
    rfl

theorem gives_ensureAlias (id did : String) (expected : Option (Collection × CanonicalType))
    (atRecord : Option AtRecordLocator) :
    ∃ t, Gives (ensureAliasForLocator id expected did atRecord) s
        (reached s id expected did atRecord) t ∧ Puts s id t ∧
      (reached s id expected did atRecord = none → t = s) ∧
      ∀ record, reached s id expected did atRecord = some record → Stands t id record := by
  have read := @gives_getAlias s .locator id
  unfold reached
  cases here : active (s.aliasOf id) with
  | some record =>
    refine ⟨s, read.bind ?_, .refl s id, fun _ => rfl, ?_⟩
    · rw [here]
      rfl
    · rintro _ ⟨⟩
      exact stands_active here
  | none =>
    cases placed : located id expected did atRecord (s.aliasOf id) with
    | none =>
      refine ⟨s, read.bind ?_, .refl s id, fun _ => rfl, fun _ none => nomatch none⟩
      rw [here]
      dsimp only
      rw [placed]
      rfl
    | some record =>
      obtain ⟨rfl, -, kept⟩ := located_eq_some placed
      refine ⟨{ s with aliases := stored s.aliases record }, read.bind ?_, puts_stored record,
        fun none => (nomatch none), ?_⟩
      · rw [here]
        dsimp only
        rw [placed]
        rfl
      · rintro _ ⟨⟩
        exact stands_stored kept

theorem gives_teaserFor (env : Environment) (record : AtAliasRecord) (asked : Bool) (id did : String) :
    ∃ t, Gives (teaserFor env record asked id did) s (teaserOf env s record asked id did) t ∧
      Puts s (teaserRefId id) t ∧ (teaserOf env s record asked id did = none → t = s) ∧
      ∀ teaser, teaserOf env s record asked id did = some teaser →
        Stands t (teaserRefId id) teaser := by
  unfold teaserFor teaserOf
  split
  next =>
    have read := @gives_getAlias s .teaser (teaserRefId id)
    unfold ensureArticleTeaserAlias
    cases here : active (s.aliasOf (teaserRefId id)) with
    | some teaser =>
      refine ⟨s, read.bind ?_, .refl s _, fun _ => rfl, ?_⟩
      · rw [here]
        rfl
      · rintro _ ⟨⟩
        exact stands_active here
    | none =>
      have kept : (teaserPlaceholder env id did record.rkey (s.aliasOf (teaserRefId id))).deleted =
        false := rfl
      refine ⟨_, read.bind ?_, puts_stored
        (teaserPlaceholder env id did record.rkey (s.aliasOf (teaserRefId id))),
        fun none => (nomatch none), ?_⟩
      · rw [here]
        refine (gives_putAlias .teaser _ s).bind ?_
        exact gives_stored .teaserStored rfl
      · rintro _ ⟨⟩
        exact stands_stored kept
  next => exact ⟨s, rfl, .refl s _, fun _ => rfl, fun _ none => nomatch none⟩

end Parts

section Handlers
variable {s : Server} {binding : IdentityBinding}

def Bound (binding : IdentityBinding) : Prop := binding.did ≠ ""

variable {state : RepositoryState}

theorem Bound.repo (bound : Bound binding) (own : state.did = binding.did) :
    state.did ≠ "" := fun none => bound (own.symm.trans none)

theorem bound_of_canProject (allowed : canProject binding = true) : Bound binding := by
  unfold canProject at allowed
  simp only [Bool.and_eq_true] at allowed
  unfold Bound IdentityBinding.did
  cases own : binding.atprotoDid with
  | none => simp [truthy, own] at allowed
  | some did =>
    rw [own] at allowed
    rintro rfl
    simp [truthy] at allowed

theorem teaserRefId_ne (id : String) : id ≠ teaserRefId id := by
  intro same
  have longer := congrArg String.length same
  simp only [teaserRefId, String.length_append] at longer
  change id.length = id.length + 8 at longer
  omega

structure Fresh (records : Aliases) : Prop where
  apart : records.Pairwise fun record other => record.canonicalRefId ≠ other.canonicalRefId
  kept : ∀ record ∈ records, record.deleted = false

theorem activeIn_storeAll_other {id : String} : ∀ (records : Aliases) (aliases : Aliases),
    (∀ record ∈ records, record.canonicalRefId ≠ id) →
      activeIn (records.foldl stored aliases) id = activeIn aliases id
  | [], _, _ => rfl
  | record :: records, aliases, other => by
    rw [List.foldl_cons, activeIn_storeAll_other records _ fun later listed =>
      other later (List.mem_cons_of_mem _ listed), activeIn_stored,
      if_neg (Ne.symm (other record List.mem_cons_self))]

variable {record : AtAliasRecord}

theorem activeIn_storeAll : ∀ (records : Aliases) (aliases : Aliases),
    Fresh records → record ∈ records →
      activeIn (records.foldl stored aliases) record.canonicalRefId = some (placeOf record)
  | [], _, _, listed => nomatch listed
  | first :: records, aliases, fresh, listed => by
    have others := List.pairwise_cons.mp fresh.apart
    rcases List.mem_cons.mp listed with rfl | later
    · rw [List.foldl_cons, activeIn_storeAll_other records _ fun other there =>
        Ne.symm (others.1 other there), activeIn_stored, if_pos rfl,
        fresh.kept record List.mem_cons_self]
      rfl
    · exact activeIn_storeAll records _
        ⟨others.2, fun other there => fresh.kept other (List.mem_cons_of_mem _ there)⟩ later

structure Carries (ops : List AtRepoOp) (records : Aliases) : Prop where
  apart : Apart ops
  fresh : Fresh records
  ready : ∀ op ∈ ops, op.opType ≠ .delete → ∃ record ∈ records,
    record.canonicalRefId = op.canonicalRefId ∧ placeOf record = locationOf op
  own : ∀ record ∈ records, ∃ op ∈ ops, op.canonicalRefId = record.canonicalRefId

variable {op : AtRepoOp} {ops : List AtRepoOp}

theorem commitAll_projects {mid : Server}
    {aliases : List (AliasSite × AtAliasRecord)} (named : state.did ≠ "")
    (account : op.canonicalAccountId ≠ "") (carries : Carries (op :: ops) (aliases.map (·.2)))
    (others : ∀ id, (∀ other ∈ op :: ops, other.canonicalRefId ≠ id) →
      activeIn mid.aliases id = activeAt s id)
    (commits : mid.commits = s.commits) (bindings : mid.bindings = s.bindings) :
    Completes s (op :: ops) (commitAll state (op :: ops) aliases) mid := by
  obtain ⟨t, given, committed⟩ := @gives_commitAll mid state op ops aliases named account
  refine ⟨t, given, committed.projects commits bindings carries.apart ?_ ?_⟩
  · intro other listed kind
    obtain ⟨record, held, name, place⟩ := carries.ready other listed kind
    rw [← name, activeIn_storeAll _ _ carries.fresh held, place]
  · intro id elsewhere
    rw [activeIn_storeAll_other]
    · exact others id elsewhere
    · intro record held same
      obtain ⟨other, listed, name⟩ := carries.own record held
      exact elsewhere other listed (name.trans same)

theorem carries_nil : Carries [] [] where
  apart := .nil
  fresh := ⟨.nil, fun _ none => nomatch none⟩
  ready _ none := nomatch none
  own _ none := nomatch none

theorem Carries.cons {records : Aliases} (carries : Carries ops records)
    (name : record.canonicalRefId = op.canonicalRefId) (place : placeOf record = locationOf op)
    (kept : record.deleted = false)
    (other : ∀ later ∈ ops, op.canonicalRefId ≠ later.canonicalRefId) :
    Carries (op :: ops) (record :: records) where
  apart := List.pairwise_cons.mpr ⟨other, carries.apart⟩
  fresh := by
    refine ⟨List.pairwise_cons.mpr ⟨fun later held same => ?_, carries.fresh.apart⟩, fun r held => ?_⟩
    · obtain ⟨owner, listed, own⟩ := carries.own later held
      exact other owner listed (name.symm.trans (same.trans own.symm))
    · rcases List.mem_cons.mp held with rfl | held
      · exact kept
      · exact carries.fresh.kept r held
  ready later listed kind := by
    rcases List.mem_cons.mp listed with rfl | listed
    · exact ⟨record, List.mem_cons_self, name, place⟩
    · obtain ⟨r, held, same⟩ := carries.ready later listed kind
      exact ⟨r, List.mem_cons_of_mem _ held, same⟩
  own r held := by
    rcases List.mem_cons.mp held with rfl | held
    · exact ⟨op, List.mem_cons_self, name.symm⟩
    · obtain ⟨later, listed, same⟩ := carries.own r held
      exact ⟨later, List.mem_cons_of_mem _ listed, same⟩

theorem carries_one
    (name : record.canonicalRefId = op.canonicalRefId) (place : placeOf record = locationOf op)
    (kept : record.deleted = false) : Carries [op] [record] :=
  carries_nil.cons name place kept fun _ none => nomatch none

theorem carries_deletes (apart : Apart ops)
    (deletes : ∀ op ∈ ops, op.opType = .delete) : Carries ops [] where
  apart := apart
  fresh := ⟨.nil, fun _ none => nomatch none⟩
  ready op listed kind := absurd (deletes op listed) kind
  own _ none := nomatch none

theorem others_of_unseen {r : Server} (unseen : Unseen s r) (id : String)
    (_ : ∀ other ∈ ops, other.canonicalRefId ≠ id) : activeIn r.aliases id = activeAt s id := by
  rw [unseen.aliases]
  rfl

theorem commits_one {r : Server} {site : AliasSite} (unseen : Unseen s r) (named : state.did ≠ "")
    (account : op.canonicalAccountId ≠ "") (name : record.canonicalRefId = op.canonicalRefId)
    (place : placeOf record = locationOf op) (kept : record.deleted = false) :
    Completes s [op] (commitAll state [op] [(site, record)]) r :=
  commitAll_projects named account (carries_one name place kept) (others_of_unseen unseen)
    unseen.commits unseen.bindings

section Created
variable (env : Environment) (tid : String)

theorem onProfileUpserted_completes (profileId : String) :
    Completes s (plan env s ⟨.profileUpserted profileId, tid⟩) (onProfileUpserted profileId) s := by
  refine completes_bound rfl fun binding _ => ?_
  simp only [planFor]
  split
  next allowed =>
    refine completes_repo fun state r own unseen => ?_
    have read := @gives_getAlias r .profile profileId
    have same : r.aliasOf profileId = s.aliasOf profileId := found_of_unseen unseen profileId
    rw [same] at read
    apply completes_after (gives_serialize profileId)
    apply completes_after read
    exact commits_one unseen ((bound_of_canProject allowed).repo own) binding.named rfl rfl rfl
  next => exact completes_nothing

theorem onPostCreated_completes (post : CanonicalPost) (atRecord : Option AtRecordLocator)
    (asked : Bool) :
    Completes s (plan env s ⟨.postCreated post atRecord asked, tid⟩)
      (onPostCreated env post atRecord asked tid) s := by
  refine completes_bound rfl fun binding _ => ?_
  simp only [planFor]
  split
  next allowed =>
    have bound : Bound binding := by
      apply bound_of_canProject
      unfold canProjectPost at allowed
      exact (Bool.and_eq_true _ _ ▸ allowed).1
    refine completes_repo fun state r own unseen => ?_
    apply completes_after (gives_serialize post.id)
    unfold planCreated
    dsimp only
    cases teased : post.isArticle && asked with
    | true =>
      apply completes_after (gives_serialize (teaserRefId post.id))
      refine commitAll_projects (bound.repo own) binding.named ?_ (others_of_unseen unseen)
        unseen.commits unseen.bindings
      refine Carries.cons (carries_one rfl rfl rfl) rfl rfl rfl fun later listed => ?_
      cases List.mem_singleton.mp listed
      exact teaserRefId_ne post.id
    | false => exact commits_one unseen (bound.repo own) binding.named rfl rfl rfl
  next => exact completes_nothing

theorem onSocialCreated_completes (action : SocialAction) (collection : Collection)
    (canonicalType : CanonicalType) {subject : Run (Option Subject)} {found : Bool}
    (resolves : ∃ value, Gives subject s value s ∧ value.isSome = found) :
    Completes s
      (match s.bindings action.actorId with
        | none => []
        | some binding => planSocial binding found action collection tid)
      (onSocialCreated action collection canonicalType subject tid) s := by
  refine completes_bound rfl fun binding _ => ?_
  obtain ⟨value, given, rfl⟩ := resolves
  unfold planSocial
  dsimp only
  cases allowed : canProject binding with
  | false => exact completes_nothing
  | true =>
    apply completes_after given
    cases value with
    | none => exact completes_nothing
    | some subject =>
      refine completes_repo fun state r own unseen => ?_
      exact commits_one unseen ((bound_of_canProject allowed).repo own) binding.named rfl rfl rfl

theorem followSubject_gives (identity : CanonicalIdentity) :
    ∃ value, Gives (followSubject identity) s value s ∧ value.isSome = followed s identity := by
  let did := ((s.bindings identity.id).bind fun binding =>
    if binding.active then truthy binding.atprotoDid else none).or (truthy identity.atprotoDid)
  have local_ : Gives (resolveDidForCanonicalAccount identity.id) s
      ((s.bindings identity.id).bind fun binding =>
        if binding.active then truthy binding.atprotoDid else none) s := by
    have read : Gives (getByCanonicalAccountId identity.id) s (s.bindings identity.id) s := rfl
    apply read.bind
    cases s.bindings identity.id <;> rfl
  have resolved : Gives (resolveDidForIdentity identity) s did s := by
    apply local_.bind
    cases here : (s.bindings identity.id).bind fun binding =>
        if binding.active then truthy binding.atprotoDid else none with
    | none =>
      simp only [did, here]
      exact gives_pure
    | some found =>
      simp only [did, here]
      exact gives_pure
  refine ⟨did.map fun subjectDid => { Subject.none with subjectDid := some subjectDid },
    resolved.bind ?_, ?_⟩
  · cases did <;> rfl
  · rw [Option.isSome_map]
    rfl

theorem resolvePostStrongRef_gives (id : String) :
    Gives (resolvePostStrongRef id) s ((s.aliasOf id).bind strongRef) s := by
  apply (gives_getAlias .target id).bind
  cases s.aliasOf id <;> rfl

theorem postSubject_gives (id : String) :
    ∃ value, Gives (postSubject id) s value s ∧ value.isSome = targeted s id := by
  refine ⟨((s.aliasOf id).bind strongRef).map targetSubject,
    (resolvePostStrongRef_gives id).bind ?_, ?_⟩
  · cases (s.aliasOf id).bind strongRef <;> rfl
  · rw [Option.isSome_map]
    rfl

theorem reactionTarget_gives (native : Option StrongRef) (id : String) :
    ∃ value, Gives (reactionTarget native id) s value s ∧ value.isSome = reacted s native id := by
  cases native with
  | none => exact ⟨_, resolvePostStrongRef_gives id, rfl⟩
  | some target =>
    by_cases empty : target.uri = ""
    · refine ⟨(s.aliasOf id).bind strongRef, ?_, ?_⟩
      · unfold reactionTarget
        dsimp only
        rw [if_pos empty]
        exact resolvePostStrongRef_gives id
      · simp [reacted, targeted, empty]
    · refine ⟨some target, ?_, ?_⟩
      · unfold reactionTarget
        dsimp only
        rw [if_neg empty]
        rfl
      · simp [reacted, empty]

theorem onEmojiReactionCreated_completes (action : SocialAction) (native : Option StrongRef)
    (target content : String) :
    Completes s (plan env s ⟨.emojiReactionCreated action native target content, tid⟩)
      (onEmojiReactionCreated action native target content tid) s := by
  refine completes_bound rfl fun binding _ => ?_
  simp only [planFor, planSocial]
  cases allowed : canProject binding with
  | false => exact completes_nothing
  | true =>
    refine completes_repo fun state r own unseen => ?_
    obtain ⟨value, given, found⟩ := @reactionTarget_gives r native target
    have same : reacted r native target = reacted s native target := by
      unfold reacted targeted
      rw [show r.aliasOf target = s.aliasOf target from found_of_unseen unseen target]
    rw [same] at found
    apply completes_after given
    rw [← found]
    cases value with
    | none => exact ⟨r, rfl, unseen.projects⟩
    | some target =>
      exact commits_one unseen ((bound_of_canProject allowed).repo own) binding.named rfl rfl rfl

end Created

section Reached
variable {env : Environment} {id did : String} {expected : Option (Collection × CanonicalType)}
  {atRecord : Option AtRecordLocator} {record : AtAliasRecord}

theorem reached_did (there : reached s id expected did atRecord = some record)
    (fits : ∀ place, activeAt s id = some place → place.did = did) : record.did = did := by
  unfold reached at there
  rw [Option.or_eq_some_iff] at there
  rcases there with here | ⟨-, placed⟩
  · exact fits _ (stands_active here).there
  · exact (located_eq_some placed).2.1

structure Gathered (env : Environment) (s : Server) (binding : IdentityBinding) (id : String)
    (asked : Bool) (record : AtAliasRecord) (t : Server) : Prop where
  main : Stands t id record
  teaser : ∀ teaser, teaserOf env s record asked id binding.did = some teaser →
    Stands t (teaserRefId id) teaser
  others : ∀ opType other, (∀ op ∈ opsOn binding opType id record
    (teaserOf env s record asked id binding.did), op.canonicalRefId ≠ other) →
      activeIn t.aliases other = activeAt s other
  commits : t.commits = s.commits
  bindings : t.bindings = s.bindings

theorem activeIn_of_found {aliases other : Aliases} {id : String} (same : found aliases id = found other id) :
    activeIn aliases id = activeIn other id := by
  unfold activeIn
  rw [same]

variable {asked : Bool}

theorem gathered_of_puts {r t u : Server} (unseen : Unseen s r) (first : Puts r id t)
    (second : Puts t (teaserRefId id) u)
    (quiet : teaserOf env s record asked id binding.did = none → u = t) (main : Stands t id record)
    (teaser : ∀ teaser, teaserOf env s record asked id binding.did = some teaser →
      Stands u (teaserRefId id) teaser) : Gathered env s binding id asked record u where
  main := by
    refine ⟨main.name, main.active, ?_⟩
    rw [← main.there]
    exact activeIn_of_found (second.others id (teaserRefId_ne id))
  teaser := teaser
  others opType other elsewhere := by
    have apart : other ≠ id := Ne.symm (elsewhere _ List.mem_cons_self)
    have same : found u.aliases other = found t.aliases other := by
      cases asked' : teaserOf env s record asked id binding.did with
      | none => rw [quiet asked']
      | some found =>
        apply second.others
        rw [asked'] at elsewhere
        exact Ne.symm (elsewhere _ (List.mem_cons_of_mem _ (List.mem_singleton_self _)))
    apply activeIn_of_found
    rw [same]
    exact (first.others other apart).trans (found_of_unseen unseen other)
  commits := second.commits.trans (first.commits.trans unseen.commits)
  bindings := second.bindings.trans (first.bindings.trans unseen.bindings)

variable {opType : OpType} {teaser : Option AtAliasRecord}

theorem apart_opsOn : Apart (opsOn binding opType id record teaser) := by
  cases teaser with
  | none => exact List.pairwise_singleton ..
  | some teaser =>
    refine List.pairwise_cons.mpr ⟨fun later listed => ?_, List.pairwise_singleton ..⟩
    cases List.mem_singleton.mp listed
    exact teaserRefId_ne id

theorem opType_opsOn {op : AtRepoOp}
    (listed : op ∈ opsOn binding opType id record teaser) : op.opType = opType := by
  cases teaser with
  | none =>
    cases List.mem_singleton.mp listed
    rfl
  | some teaser =>
    rcases List.mem_cons.mp listed with rfl | listed
    · rfl
    · cases List.mem_singleton.mp listed
      rfl

theorem settle_deletes {op : AtRepoOp} : ∀ (ops : List AtRepoOp) (named : String → Option Location),
    (∀ op ∈ ops, op.opType = .delete) → op ∈ ops ∨ named op.canonicalRefId = none →
      ops.foldl settle named op.canonicalRefId = none
  | [], _, _, gone => gone.resolve_left (fun none => nomatch none)
  | first :: ops, named, deletes, gone => by
    apply settle_deletes ops _ fun later listed => deletes later (List.mem_cons_of_mem _ listed)
    rcases gone with listed | gone
    · rcases List.mem_cons.mp listed with rfl | listed
      · right
        unfold settle
        rw [if_pos rfl, if_pos (deletes op List.mem_cons_self)]
      · exact .inl listed
    · right
      unfold settle
      split
      · rw [if_pos (deletes first List.mem_cons_self)]
      · exact gone

theorem projects_marked {t : Server} {ops : List AtRepoOp} (projects : Projects s ops t)
    (gone : activeAt t id = none) :
    Projects s ops { t with aliases := marked t.aliases id } where
  active := by
    rw [← projects.active]
    funext other
    change activeIn (marked t.aliases id) other = activeIn t.aliases other
    rw [activeIn_marked]
    split
    next same =>
      rw [same]
      exact gone.symm
    next => rfl
  commits := projects.commits
  bindings := projects.bindings

theorem reached_place (there : reached s id expected binding.did atRecord = some record)
    (fits : ∀ op ∈ opsOn binding opType id record teaser, Fits s op) :
    placeOf record = locationOf (opOf binding opType record.collection record.rkey id) := by
  have own : record.did = binding.did := by
    apply reached_did there
    intro place active
    rw [(fits _ List.mem_cons_self).1 place active]
    rfl
  unfold placeOf
  rw [own]
  rfl

theorem teaser_place {teaser : AtAliasRecord}
    (there : teaserOf env s record asked id binding.did = some teaser)
    (fits : ∀ op ∈ opsOn binding opType id record (some teaser), Fits s op) :
    placeOf teaser = locationOf (opOf binding opType .post teaser.rkey (teaserRefId id)) := by
  have own := (fits _ (List.mem_cons_of_mem _ (List.mem_singleton_self _))).1
  unfold teaserOf at there
  split at there
  · cases here : active (s.aliasOf (teaserRefId id)) with
    | none =>
      rw [here] at there
      cases there
      rfl
    | some found =>
      rw [here] at there
      cases there
      exact own _ (stands_active here).there
  · nomatch there

theorem teaserOf_congr {t : Server}
    (same : t.aliasOf (teaserRefId id) = s.aliasOf (teaserRefId id)) :
    teaserOf env t record asked id did = teaserOf env s record asked id did := by
  unfold teaserOf
  rw [same]

theorem gather {r : Server} {f : Option AtAliasRecord → Run Unit} {ops : List AtRepoOp}
    (unseen : Unseen s r) (absent : f none = pure ())
    (none_ : reached s id expected binding.did atRecord = none → ops = [])
    (some_ : ∀ record t, reached s id expected binding.did atRecord = some record → Puts r id t →
      Stands t id record → Completes s ops (f (some record)) t) :
    Completes s ops (ensureAliasForLocator id expected binding.did atRecord >>= f) r := by
  obtain ⟨t, given, puts, quiet, stands⟩ :=
    @gives_ensureAlias r id binding.did expected atRecord
  have same : reached r id expected binding.did atRecord = reached s id expected binding.did atRecord := by
    unfold reached
    rw [show r.aliasOf id = s.aliasOf id from found_of_unseen unseen id]
  rw [same] at given quiet stands
  apply completes_after given
  cases there : reached s id expected binding.did atRecord with
  | none =>
    rw [absent, quiet there, none_ there]
    exact ⟨r, rfl, unseen.projects⟩
  | some record =>
    exact some_ record t there puts (stands record there)

theorem onPostUpdated_completes (tid : String) (post : CanonicalPost)
    (atRecord : Option AtRecordLocator) (asked : Bool)
    (fits : ∀ op ∈ plan env s ⟨.postUpdated post atRecord asked, tid⟩, Fits s op) :
    Completes s (plan env s ⟨.postUpdated post atRecord asked, tid⟩)
      (onPostUpdated env post atRecord asked) s := by
  refine completes_bound rfl fun binding stored => ?_
  unfold plan at fits
  rw [show s.bindings (accountOf (.postUpdated post atRecord asked)) = _ from stored] at fits
  simp only [planFor] at fits ⊢
  split
  next allowed =>
    rw [if_pos allowed] at fits
    have bound : Bound binding := by
      apply bound_of_canProject
      unfold canProjectPost at allowed
      exact (Bool.and_eq_true _ _ ▸ allowed).1
    refine completes_repo fun state r own unseen => ?_
    refine gather unseen rfl (fun none => by rw [none]; rfl) ?_
    intro record t there puts main
    rw [there] at fits ⊢
    simp only [planOn] at fits ⊢
    apply completes_after (gives_serialize post.id)
    obtain ⟨u, given, second, quiet, stands⟩ := @gives_teaserFor t env record asked post.id binding.did
    have same : teaserOf env t record asked post.id binding.did =
        teaserOf env s record asked post.id binding.did := by
      apply teaserOf_congr
      exact (puts.others _ (Ne.symm (teaserRefId_ne post.id))).trans (found_of_unseen unseen _)
    rw [same] at given quiet stands
    have gathered := gathered_of_puts unseen puts second quiet main stands
    apply completes_after given
    cases teased : teaserOf env s record asked post.id binding.did with
    | none =>
      rw [teased] at fits
      have others := gathered.others .update
      rw [teased] at others
      exact commitAll_projects (bound.repo own) binding.named
        (carries_one main.name (reached_place there fits) main.active) others
        gathered.commits gathered.bindings
    | some teaser =>
      rw [teased] at fits
      have others := gathered.others .update
      rw [teased] at others
      have side := gathered.teaser teaser teased
      apply completes_after (gives_serialize (teaserRefId post.id))
      refine commitAll_projects (bound.repo own) binding.named ?_ others
        gathered.commits gathered.bindings
      have one : Carries [opOf binding .update .post teaser.rkey (teaserRefId post.id)] [teaser] :=
        carries_one side.name (teaser_place teased fits) side.active
      refine one.cons main.name (reached_place there fits) main.active fun later listed => ?_
      cases List.mem_singleton.mp listed
      exact teaserRefId_ne post.id
  next => exact completes_nothing

theorem onPostDeleted_completes (tid id author : String) (atRecord : Option AtRecordLocator)
    (asked : Bool) (bound : ∀ binding, s.bindings author = some binding → Bound binding) :
    Completes s (plan env s ⟨.postDeleted id author atRecord asked, tid⟩)
      (onPostDeleted env id author atRecord asked) s := by
  refine completes_bound rfl fun binding stored => ?_
  simp only [planFor]
  refine completes_repo fun state r own unseen => ?_
  refine gather unseen rfl (fun none => by rw [none]; rfl) ?_
  intro record t there puts main
  rw [there]
  simp only [planOn]
  obtain ⟨u, given, second, quiet, stands⟩ := @gives_teaserFor t env record asked id binding.did
  have same : teaserOf env t record asked id binding.did =
      teaserOf env s record asked id binding.did := by
    apply teaserOf_congr
    exact (puts.others _ (Ne.symm (teaserRefId_ne id))).trans (found_of_unseen unseen _)
  rw [same] at given quiet stands
  have gathered := gathered_of_puts unseen puts second quiet main stands
  apply completes_after given
  generalize teased : teaserOf env s record asked id binding.did = teaser at *
  have deletes : ∀ op ∈ opsOn binding .delete id record teaser, op.opType = .delete :=
    fun op listed => opType_opsOn listed
  have others := gathered.others .delete
  rw [teased] at others
  have carries : Carries (opsOn binding .delete id record teaser) [] :=
    carries_deletes apart_opsOn deletes
  obtain ⟨v, committed, projects⟩ := @commitAll_projects s state _ _ u []
    ((bound binding stored).repo own) binding.named carries others gathered.commits gathered.bindings
  have gone : ∀ w, Projects s (opsOn binding .delete id record teaser) w →
      ∀ op ∈ opsOn binding .delete id record teaser, activeAt w op.canonicalRefId = none := by
    intro w published op listed
    rw [published.active]
    exact settle_deletes _ _ deletes (.inl listed)
  have first := projects_marked projects (gone v projects _ List.mem_cons_self)
  apply completes_after committed
  apply completes_after (gives_markDeleted .finalDelete id v)
  cases teaser with
  | none => exact ⟨_, gives_pure, first⟩
  | some teaser =>
    refine ⟨_, gives_markDeleted .finalDelete teaser.canonicalRefId _, projects_marked first ?_⟩
    rw [(stands teaser rfl).name]
    exact gone _ first _ (List.mem_cons_of_mem _ (List.mem_singleton_self _))

theorem onSocialDeleted_completes (action : SocialAction) (collection : Collection)
    (canonicalType : CanonicalType)
    (bound : ∀ binding, s.bindings action.actorId = some binding → Bound binding) :
    Completes s
      (match s.bindings action.actorId with
        | none => []
        | some binding => planGone s binding action collection canonicalType)
      (onSocialDeleted action collection canonicalType) s := by
  refine completes_bound rfl fun binding stored => ?_
  unfold planGone
  refine completes_repo fun state r own unseen => ?_
  refine gather unseen rfl (fun none => by rw [none]) ?_
  intro record t there puts main
  rw [there]
  dsimp only
  have others : ∀ other, (∀ op ∈ [opOf binding .delete record.collection record.rkey
      action.canonicalRefId], op.canonicalRefId ≠ other) → activeIn t.aliases other = activeAt s other := by
    intro other elsewhere
    apply activeIn_of_found
    exact (puts.others other (Ne.symm (elsewhere _ List.mem_cons_self))).trans
      (found_of_unseen unseen other)
  have carries : Carries [opOf binding .delete record.collection record.rkey action.canonicalRefId] [] :=
    carries_deletes (List.pairwise_singleton ..) fun op listed => List.mem_singleton.mp listed ▸ rfl
  obtain ⟨v, committed, projects⟩ := @commitAll_projects s state _ [] t []
    ((bound binding stored).repo own) binding.named carries others
    (puts.commits.trans unseen.commits) (puts.bindings.trans unseen.bindings)
  apply completes_after committed
  refine ⟨_, gives_markDeleted .finalDelete action.canonicalRefId v, projects_marked projects ?_⟩
  rw [projects.active]
  simp [settle, opOf]

end Reached

theorem delivery_completes (env : Environment) (delivery : Delivery)
    (bound : ∀ binding, s.bindings (accountOf delivery.event) = some binding → Bound binding)
    (fits : ∀ op ∈ plan env s delivery, Fits s op) :
    Completes s (plan env s delivery) (delivery.program env) s := by
  obtain ⟨event, tid⟩ := delivery
  cases event with
  | profileUpserted profileId => exact onProfileUpserted_completes env tid profileId
  | postCreated post atRecord asked => exact onPostCreated_completes env tid post atRecord asked
  | postUpdated post atRecord asked => exact onPostUpdated_completes tid post atRecord asked fits
  | postDeleted id author atRecord asked =>
    exact onPostDeleted_completes tid id author atRecord asked bound
  | followCreated action identity =>
    exact onSocialCreated_completes tid action _ _ (followSubject_gives identity)
  | likeCreated action target =>
    exact onSocialCreated_completes tid action _ _ (postSubject_gives target)
  | repostCreated action target =>
    exact onSocialCreated_completes tid action _ _ (postSubject_gives target)
  | emojiReactionCreated action native target content =>
    exact onEmojiReactionCreated_completes env tid action native target content
  | followDeleted action => exact onSocialDeleted_completes action _ _ bound
  | likeDeleted action => exact onSocialDeleted_completes action _ _ bound
  | repostDeleted action => exact onSocialDeleted_completes action _ _ bound
  | emojiReactionDeleted action => exact onSocialDeleted_completes action _ _ bound

end Handlers

end MastopodFederation.Guarantees.ProjectionPlans
