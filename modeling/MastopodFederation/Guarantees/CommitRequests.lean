import MastopodFederation.Source.AtProjectionWorker

/-!
# The calls of the projection worker

An event reads the state of its repo, builds one commit on what it read and publishes it. Apart
from these two calls, in this order, nothing it does reads the registry to build on or publishes a
commit.
-/
namespace MastopodFederation.Guarantees.CommitRequests
open Lib.Calls Source.AtProjectionWorker

abbrev Held := Option RepositoryState

structure BuiltOn (state : RepositoryState) (did : String) (rev : Nat) (prev : Option Nat) : Prop where
  did : did = state.did
  rev : rev = nextRev state.rev
  prev : prev = state.rootCid

def Held.allows (held : Held) : Call → Prop
  | .publishCommit commit =>
    ∃ state, held = some state ∧ BuiltOn state commit.did commit.rev commit.prevCommitCid
  | _ => True

def Held.after : Held → (c : Call) → Reply c → Held
  | _, .getRepoState .., (some (some state) : Option (Option RepositoryState)) => some state
  | held, _, _ => held

def projectionMonitor : Monitor Call Reply Held where
  allows := Held.allows
  after := Held.after

def Harmless : Call → Prop
  | .getRepoState .. => False
  | .publishCommit _ => False
  | _ => True

def Within (state : RepositoryState) : Call → Prop
  | .getRepoState .. => False
  | .publishCommit commit => BuiltOn state commit.did commit.rev commit.prevCommitCid
  | _ => True

variable {state : RepositoryState}

theorem Harmless.within {c : Call} (harmless : Harmless c) : Within state c := by
  cases c <;> first | exact trivial | exact harmless.elim

theorem harmless_ignored (held : Held) (c : Call) (harmless : Harmless c) :
    held.allows c ∧ ∀ reply, held.after c reply = held := by
  cases c <;> first | exact ⟨trivial, fun _ => rfl⟩ | exact harmless.elim

theorem within_ignored (c : Call) (within : Within state c) :
    Held.allows (some state) c ∧ ∀ reply, Held.after (some state) c reply = some state := by
  cases c with
  | getRepoState => exact within.elim
  | publishCommit => exact ⟨⟨state, rfl, within⟩, fun _ => rfl⟩
  | _ => exact ⟨trivial, fun _ => rfl⟩

section Parts
variable {P : Call → Prop} {α : Type}

theorem only_orThrow (value : Option α) : Only P (orThrow value) := by
  cases value with
  | none => exact only_fail _
  | some value => exact only_pure _

theorem only_forEach {body : α → Run Unit} {items : List α} (each : ∀ item, Only P (body item)) :
    Only P (forEach body items) := by
  induction items with
  | nil => exact only_pure _
  | cons item items ih => exact only_bind (each item) fun _ => ih

variable {id : String} {site : AliasSite}

theorem only_getAlias :
    Only Harmless (getByCanonicalRefId site id) := ⟨trivial, fun _ => only_orThrow _⟩

variable {record : AtAliasRecord}

theorem only_putAlias : Only Harmless (putAlias site record) := ⟨trivial, fun _ => only_orThrow _⟩

theorem only_serialize : Only Harmless (serialize id) :=
  ⟨trivial, fun _ => only_orThrow _⟩

theorem only_getBinding {accountId : String} : Only Harmless (getByCanonicalAccountId accountId) :=
  ⟨trivial, fun _ => only_orThrow _⟩

theorem only_markDeleted : Only Harmless (markDeleted site id) := by
  unfold markDeleted
  apply only_bind only_getAlias
  intro stored
  cases stored with
  | none => exact only_pure _
  | some record => exact only_putAlias

theorem only_persistAlias {rev : Nat} {op : AtRepoOp} : Only Harmless (persistAlias rev op) := by
  have update : ∀ cid, Only Harmless (updateCidAndRev op.canonicalRefId cid rev) := by
    intro cid
    apply only_bind only_getAlias
    intro stored
    cases stored with
    | none => exact only_pure _
    | some record => exact only_putAlias
  unfold persistAlias
  split
  · exact update _
  · exact update _
  · exact only_markDeleted

theorem only_register {state : RepositoryState} : Only Harmless (register state) := by
  apply only_bind (show Only Harmless (repoExists state.did) from ⟨trivial, fun _ => only_orThrow _⟩)
  intro there
  split
  · exact only_fail _
  · exact ⟨trivial, fun _ => only_orThrow _⟩

theorem only_updateRepo {state : RepositoryState} : Only Harmless (updateRepo state) := by
  apply only_bind
    (show Only Harmless (previousRepo state.did) from ⟨trivial, fun _ => only_orThrow _⟩)
  intro there
  split
  · exact ⟨trivial, fun _ => only_orThrow _⟩
  · exact only_fail _

theorem only_commitOps : ∀ {ops : List AtRepoOp}, Only Harmless (commitOps ops)
  | [] => only_pure _
  | _ :: _ => only_bind (only_bind only_getAlias fun _ => only_pure _) fun _ =>
      only_bind only_commitOps fun _ => only_pure _

theorem only_resolvePostStrongRef : Only Harmless (resolvePostStrongRef id) := by
  apply only_bind only_getAlias
  intro stored
  cases stored <;> exact only_pure _

theorem only_resolveDid {identity : CanonicalIdentity} :
    Only Harmless (resolveDidForIdentity identity) := by
  apply only_bind
  · apply only_bind only_getBinding
    intro binding
    cases binding <;> exact only_pure _
  · intro did
    cases did <;> exact only_pure _

theorem only_followSubject {followed : CanonicalIdentity} : Only Harmless (followSubject followed) := by
  apply only_bind only_resolveDid
  intro did
  cases did <;> exact only_pure _

theorem only_postSubject : Only Harmless (postSubject id) := by
  apply only_bind only_resolvePostStrongRef
  intro target
  cases target <;> exact only_pure _

theorem only_reactionTarget {nativeSubject : Option StrongRef} :
    Only Harmless (reactionTarget nativeSubject id) := by
  unfold reactionTarget
  split
  · split
    · exact only_resolvePostStrongRef
    · exact only_pure _
  · exact only_resolvePostStrongRef

theorem only_ensureAlias {did : String} {expected : Option (Collection × CanonicalType)}
    {atRecord : Option AtRecordLocator} :
    Only Harmless (ensureAliasForLocator id expected did atRecord) := by
  unfold ensureAliasForLocator
  apply only_bind only_getAlias
  intro existing
  split
  · exact only_pure _
  · split
    · exact only_pure _
    · exact only_bind only_putAlias fun _ => only_pure _

theorem only_teaserFor {env : Environment} {asked : Bool} {did : String} :
    Only Harmless (teaserFor env record asked id did) := by
  unfold teaserFor
  split
  · unfold ensureArticleTeaserAlias
    apply only_bind only_getAlias
    intro existing
    split
    · exact only_pure _
    · exact only_bind only_putAlias fun _ => only_getAlias
  · exact only_pure _

end Parts

section Commit
variable {state : RepositoryState}

variable {ops : List AtRepoOp}

theorem only_buildCommit : Only Harmless (buildCommit state ops) := by
  unfold buildCommit
  split
  · exact only_fail _
  · split
    · exact only_fail _
    · split
      · exact only_fail _
      · exact only_bind ⟨trivial, fun _ => only_orThrow _⟩ fun _ => only_pure _

theorem buildCommit_continues :
    Returns (fun result => BuiltOn state result.did result.rev result.prevCommitCid)
      (buildCommit state ops) := by
  unfold buildCommit
  split
  · exact fun _ failed => nomatch failed
  · split
    · exact fun _ failed => nomatch failed
    · split
      · exact fun _ failed => nomatch failed
      · exact returns_bind fun _ => returns_pure ⟨rfl, rfl, rfl⟩

theorem only_persist {result : BuildCommitResult}
    (builds : BuiltOn state result.did result.rev result.prevCommitCid) :
    Only (Within state) (persist result) := by
  have harmless : ∀ {α : Type} {x : Run α}, Only Harmless x → Only (Within state) x :=
    fun only => only.imp fun _ => Harmless.within
  unfold persist
  refine only_bind (only_forEach fun _ => ⟨trivial, fun _ => only_orThrow _⟩) fun _ => ?_
  refine only_bind (harmless (only_forEach fun _ => only_persistAlias)) fun _ => ?_
  refine only_bind (harmless only_commitOps) fun _ => ?_
  refine only_bind ⟨builds, fun _ => only_orThrow _⟩ fun _ => ?_
  exact only_forEach fun _ => ⟨trivial, fun _ => only_orThrow _⟩

theorem only_commitAll {aliases : List (AliasSite × AtAliasRecord)} :
    Only (Within state) (commitAll state ops aliases) := by
  have harmless : ∀ {α : Type} {x : Run α}, Only Harmless x → Only (Within state) x :=
    fun only => only.imp fun _ => Harmless.within
  unfold commitAll
  refine only_bind (only_forEach fun _ => ⟨trivial, fun _ => only_orThrow _⟩) fun _ => ?_
  apply Only.bind_returns (harmless only_buildCommit) buildCommit_continues
  intro result builds
  refine only_bind (harmless (only_forEach fun _ => only_putAlias)) fun _ => ?_
  refine only_bind (only_persist builds) fun _ => ?_
  exact only_rescue (harmless only_updateRepo) fun _ => only_pure _

end Commit

section Handlers
variable {α : Type} {held : Held}

def Obeys (x : Run α) : Prop := ∀ held, Meets projectionMonitor x (fun _ _ => True) held

theorem obeys_bind {β : Type} {x : Run α} {f : α → Run β} (only : Only Harmless x)
    (rest : ∀ a, Obeys (f a)) : Obeys (x >>= f) := by
  intro held
  have silent : Silent projectionMonitor x := only.silent harmless_ignored
  exact silent.bind (fun a => rest a held) fun _ => trivial

def Got : Held → Except Failure (Option RepositoryState) → Prop
  | held, .ok (some state) => held = some state
  | _, _ => True

variable {did : String}

theorem got_getRepoState {registered : Bool} :
    Meets projectionMonitor (getRepoState registered did) Got held :=
  ⟨trivial, fun
    | none => trivial
    | some none => trivial
    | some (some _) => rfl⟩

theorem got_getOrCreateRepoState :
    Meets projectionMonitor (getOrCreateRepoState did) Got held := by
  unfold getOrCreateRepoState
  rw [meets_bind]
  refine ⟨trivial, fun
    | none => trivial
    | some (some _) => rfl
    | some none => ?_⟩
  have silent : Silent projectionMonitor
      ((register (bootstrapState did)).rescue fun _ => pure () : Run Unit) := by
    have only : Only Harmless ((register (bootstrapState did)).rescue fun _ => pure () : Run Unit) :=
      only_rescue only_register fun _ => only_pure _
    exact only.silent harmless_ignored
  exact silent.bind (fun _ => got_getRepoState) fun _ => trivial

theorem obeys_within {x : Run α} {state : RepositoryState} (only : Only (Within state) x) :
    Meets projectionMonitor x (fun _ _ => True) (some state) := by
  have keeps : Keeps projectionMonitor (· = some state) x := by
    apply only.keeps
    · rintro _ c within rfl
      exact (within_ignored c within).1
    · rintro _ c reply within rfl
      exact (within_ignored c within).2 reply
  exact (keeps _ rfl).imp fun _ _ _ => trivial

theorem obeys_repoState {f : Option RepositoryState → Run α}
    (absent : Obeys (f none)) (built : ∀ state, Only (Within state) (f (some state))) :
    Obeys (getOrCreateRepoState did >>= f) := by
  intro held
  rw [meets_bind]
  apply Meets.imp got_getOrCreateRepoState
  intro t outcome got
  match outcome, got with
  | .error _, _ => trivial
  | .ok none, _ => exact absent t
  | .ok (some state), got =>
    cases (got : t = some state)
    exact obeys_within (built state)

theorem obeys_pure (a : α) : Obeys (pure a : Run α) := fun _ => trivial

theorem within_of {β : Type} {state : RepositoryState} {x : Run β} (only : Only Harmless x) :
    Only (Within state) x := only.imp fun _ => Harmless.within

section Events
variable (env : Environment)

theorem onProfileUpserted_obeys (profileId : String) : Obeys (onProfileUpserted profileId) := by
  apply obeys_bind only_getBinding
  intro binding
  cases binding with
  | none => exact obeys_pure ()
  | some binding =>
    dsimp only
    split
    · apply obeys_repoState (obeys_pure ())
      intro state
      refine only_bind (within_of only_serialize) fun _ => ?_
      exact only_bind (within_of only_getAlias) fun _ => only_commitAll
    · exact obeys_pure ()

theorem onPostCreated_obeys (post : CanonicalPost) (atRecord : Option AtRecordLocator)
    (asked : Bool) (tid : String) : Obeys (onPostCreated env post atRecord asked tid) := by
  apply obeys_bind only_getBinding
  intro binding
  cases binding with
  | none => exact obeys_pure ()
  | some binding =>
    dsimp only
    split
    · apply obeys_repoState (obeys_pure ())
      intro state
      refine only_bind (within_of only_serialize) fun _ => ?_
      split
      · exact only_bind (within_of only_serialize) fun _ => only_commitAll
      · exact only_commitAll
    · exact obeys_pure ()

theorem onPostUpdated_obeys (post : CanonicalPost) (atRecord : Option AtRecordLocator)
    (asked : Bool) : Obeys (onPostUpdated env post atRecord asked) := by
  apply obeys_bind only_getBinding
  intro binding
  cases binding with
  | none => exact obeys_pure ()
  | some binding =>
    dsimp only
    split
    · apply obeys_repoState (obeys_pure ())
      intro state
      refine only_bind (within_of only_ensureAlias) fun record => ?_
      cases record with
      | none => exact only_pure _
      | some record =>
        refine only_bind (within_of only_serialize) fun _ => ?_
        refine only_bind (within_of only_teaserFor) fun teaser => ?_
        split
        · exact only_bind (within_of only_serialize) fun _ => only_commitAll
        · exact only_commitAll
    · exact obeys_pure ()

theorem onPostDeleted_obeys (canonicalPostId canonicalAuthorId : String)
    (atRecord : Option AtRecordLocator) (asked : Bool) :
    Obeys (onPostDeleted env canonicalPostId canonicalAuthorId atRecord asked) := by
  apply obeys_bind only_getBinding
  intro binding
  cases binding with
  | none => exact obeys_pure ()
  | some binding =>
    apply obeys_repoState (obeys_pure ())
    intro state
    refine only_bind (within_of only_ensureAlias) fun record => ?_
    cases record with
    | none => exact only_pure _
    | some record =>
      refine only_bind (within_of only_teaserFor) fun teaser => ?_
      refine only_bind only_commitAll fun _ => ?_
      refine only_bind (within_of only_markDeleted) fun _ => ?_
      cases teaser with
      | none => exact only_pure _
      | some _ => exact within_of only_markDeleted

theorem onSocialCreated_obeys (action : SocialAction) (collection : Collection)
    (canonicalType : CanonicalType) (subject : Run (Option Subject)) (tid : String)
    (resolves : Only Harmless subject) :
    Obeys (onSocialCreated action collection canonicalType subject tid) := by
  apply obeys_bind only_getBinding
  intro binding
  cases binding with
  | none => exact obeys_pure ()
  | some binding =>
    dsimp only
    split
    · apply obeys_bind resolves
      intro subject
      cases subject with
      | none => exact obeys_pure ()
      | some subject => exact obeys_repoState (obeys_pure ()) fun state => only_commitAll
    · exact obeys_pure ()

theorem onEmojiReactionCreated_obeys (action : SocialAction) (nativeSubject : Option StrongRef)
    (targetPostId content tid : String) :
    Obeys (onEmojiReactionCreated action nativeSubject targetPostId content tid) := by
  apply obeys_bind only_getBinding
  intro binding
  cases binding with
  | none => exact obeys_pure ()
  | some binding =>
    dsimp only
    split
    · apply obeys_repoState (obeys_pure ())
      intro state
      refine only_bind (within_of only_reactionTarget) fun target => ?_
      cases target with
      | none => exact only_pure _
      | some target => exact only_commitAll
    · exact obeys_pure ()

theorem onSocialDeleted_obeys (action : SocialAction) (collection : Collection)
    (canonicalType : CanonicalType) : Obeys (onSocialDeleted action collection canonicalType) := by
  apply obeys_bind only_getBinding
  intro binding
  cases binding with
  | none => exact obeys_pure ()
  | some binding =>
    apply obeys_repoState (obeys_pure ())
    intro state
    refine only_bind (within_of only_ensureAlias) fun record => ?_
    cases record with
    | none => exact only_pure _
    | some record => exact only_bind only_commitAll fun _ => within_of only_markDeleted

theorem delivery_obeys (delivery : Delivery) : Obeys (delivery.program env) := by
  unfold Delivery.program
  cases delivery.event with
  | profileUpserted profileId => exact onProfileUpserted_obeys profileId
  | postCreated post atRecord asked => exact onPostCreated_obeys env post atRecord asked _
  | postUpdated post atRecord asked => exact onPostUpdated_obeys env post atRecord asked
  | postDeleted id author atRecord asked => exact onPostDeleted_obeys env id author atRecord asked
  | followCreated action followed =>
    exact onSocialCreated_obeys action _ _ _ _ only_followSubject
  | likeCreated action target => exact onSocialCreated_obeys action _ _ _ _ only_postSubject
  | repostCreated action target => exact onSocialCreated_obeys action _ _ _ _ only_postSubject
  | emojiReactionCreated action native target content =>
    exact onEmojiReactionCreated_obeys action native target content _
  | followDeleted action => exact onSocialDeleted_obeys action _ _
  | likeDeleted action => exact onSocialDeleted_obeys action _ _
  | repostDeleted action => exact onSocialDeleted_obeys action _ _
  | emojiReactionDeleted action => exact onSocialDeleted_obeys action _ _

end Events
end Handlers

end MastopodFederation.Guarantees.CommitRequests
