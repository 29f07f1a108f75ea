import MastopodFederation.Guarantees.IdentityLookups
import MastopodFederation.Guarantees.IdentityRequests
import MastopodFederation.Lib.PoolRuns

/-!
# Identifiers of one account

Every rule about identifiers is a lookup that comes before the write, and the rule about DIDs has
no lookup at all. As long as no two calls under way share an account or an identifier when one of
them writes, and a provision brings no DID that another account has, what the lookups found still
holds when the binding is written.
-/
namespace MastopodFederation.Guarantees.IdentityUniqueness
open Lib.GuardedRun Lib.WorkerPool Lib.PoolRuns Source.IdentityBindings
open IdentityIndexes IdentityLookups IdentityRequests

abbrev IdentityPool := Pool Accounts ServiceCall Call Reply Failure IdentityBinding

abbrev IdentityLabel := Label ServiceCall Empty Call Reply Failure IdentityBinding

section Guard
variable (env : Environment)

def keysOf (binding : IdentityBinding) : List (Index × String) :=
  indexes.filterMap fun index => (keyOf env binding index).map (index, ·)

def touched (s : Redis) : ServiceCall → List (Index × String)
  | .create request _ => [(.actor, request.activityPubActorUri), (.webId, request.webId)]
  | .provision request _ _ => (.handle, env.toLowerCase request.atprotoHandle) ::
      match s.bindings request.canonicalAccountId with
      | none => []
      | some binding => keysOf env binding

def Apart (s : Redis) (call other : ServiceCall) : Prop :=
  accountOf call ≠ accountOf other ∧ ∀ key ∈ touched env s call, key ∉ touched env s other

instance (s : Redis) (call other : ServiceCall) : Decidable (Apart env s call other) :=
  inferInstanceAs (Decidable (_ ∧ _))

def NewDid (s : Redis) : ServiceCall → Prop
  | .create .. => True
  | .provision request _ _ =>
    match truthy request.atprotoDid with
    | none => True
    | some did => ∀ accountId ∈ s.all, accountId ≠ request.canonicalAccountId →
        (s.bindings accountId).bind (keyOf env · .did) ≠ some did

instance (s : Redis) : ∀ call, Decidable (NewDid env s call)
  | .create .. => .isTrue trivial
  | .provision request _ _ => by
    unfold NewDid
    dsimp only
    split <;> infer_instance

def ProperCall : ServiceCall → Prop
  | .create request _ =>
    request.canonicalAccountId ≠ "" ∧ request.activityPubActorUri ≠ "" ∧ request.webId ≠ ""
  | .provision request _ _ => request.canonicalAccountId ≠ "" ∧ request.atprotoHandle ≠ ""

instance : ∀ call, Decidable (ProperCall call)
  | .create .. => inferInstanceAs (Decidable (_ ∧ _))
  | .provision .. => inferInstanceAs (Decidable (_ ∧ _))

def Elsewhere (s : Redis) (call : ServiceCall) :
    Option (Worker ServiceCall Call Reply Failure IdentityBinding) → Prop
  | none => True
  | some worker => finished (some worker) = true ∨ Apart env s call worker.tag

instance (s : Redis) (call : ServiceCall) : ∀ worker, Decidable (Elsewhere env s call worker)
  | none => .isTrue trivial
  | some _ => inferInstanceAs (Decidable (_ ∨ _))

/-- When a call changes the bindings or their index, no other one of these places is under way with
its account or one of its identifiers, and no other account has its DID. Calls run to their end. -/
def Unshared (places : Nat → Prop) (pool : IdentityPool) : IdentityLabel → Prop
  | .call i =>
    match pool.workers i with
    | some ⟨call, .call (.exec _) _⟩ =>
      (∀ j, places j → j ≠ i → Elsewhere env pool.shared.redis call (pool.workers j)) ∧
        NewDid env pool.shared.redis call
    | _ => True
  | .stop i => finished (pool.workers i) = true
  | .start _ worker => ProperCall worker.tag
  | .act _ => True

end Guard

abbrev Duties := Nat → Option (ServiceCall × Duty)

def Window (duties : Duties) (accountId : String) : Prop :=
  ∃ i tag request commitKeyRef rotationKeyRef binding,
    duties i = some (tag, (.provision request commitKeyRef rotationKeyRef, .writing binding)) ∧
      request.canonicalAccountId = accountId

section Facts
variable (env : Environment) (s : Redis) (duties : Duties)

def Free (own : String) (index : Index) (key : String) : Prop :=
  ∀ accountId binding, accountId ≠ own → s.bindings accountId = some binding →
    keyOf env binding index = some key → Window duties accountId

def Wants : ServiceCall → Index → String → Prop
  | .create request _, index, key =>
    index = .actor ∧ key = request.activityPubActorUri ∨ index = .webId ∧ key = request.webId
  | .provision request _ _, index, key =>
    index = .handle ∧ key = env.toLowerCase request.atprotoHandle

structure Renews (request : ProvisionAtprotoIdentityRequest) (old binding : IdentityBinding) :
    Prop where
  account : binding.canonicalAccountId = old.canonicalAccountId
  actor : binding.activityPubActorUri = old.activityPubActorUri
  webId : binding.webId = old.webId
  handle : binding.atprotoHandle = some request.atprotoHandle
  did : binding.atprotoDid = truthy request.atprotoDid

def Ready : ServiceCall → IdentityBinding → Prop
  | .create request apSigningKeyRef, binding =>
    binding = bindingOf request apSigningKeyRef ∧
      s.bindings request.canonicalAccountId = none ∧
      Free env s duties request.canonicalAccountId .actor request.activityPubActorUri ∧
      Free env s duties request.canonicalAccountId .webId request.webId
  | .provision request _ _, binding =>
    (∃ old, s.bindings request.canonicalAccountId = some old ∧ Renews request old binding) ∧
      Free env s duties request.canonicalAccountId .handle
        (env.toLowerCase request.atprotoHandle)

def Search : ServiceCall → Index → String → Option IdentityBinding → Prop
  | .create request apSigningKeyRef, index, key, next =>
    next = some (bindingOf request apSigningKeyRef) ∧
      s.bindings request.canonicalAccountId = none ∧
      (index = .actor ∧ key = request.activityPubActorUri ∨
        index = .webId ∧ key = request.webId ∧
          Free env s duties request.canonicalAccountId .actor request.activityPubActorUri)
  | .provision request _ _, index, key, next =>
    (∃ old, s.bindings request.canonicalAccountId = some old ∧
      ∀ binding, next = some binding → Renews request old binding) ∧
      index = .handle ∧ key = env.toLowerCase request.atprotoHandle

def Right (call : ServiceCall) : Stage → Prop
  | .begun | .finished => True
  | .searching index key next => Search env s duties call index key next
  | .found index key next accountId =>
    Search env s duties call index key next ∧ (s.bindings accountId).isSome = true ∧
      (accountId = accountOf call → Free env s duties (accountOf call) index key)
  | .checked binding => Ready env s duties call binding
  | .replacing binding old =>
    Ready env s duties call binding ∧ s.bindings (accountOf call) = some old
  | .writing binding =>
    Ready env s duties call binding ∧ ∀ index key, s.index index key ≠ some (accountOf call)

structure Unique : Prop where
  proper : ∀ accountId binding, s.bindings accountId = some binding →
    binding.canonicalAccountId = accountId ∧ Proper binding
  listed : ∀ accountId binding, s.bindings accountId = some binding → accountId ∈ s.all
  sound : ∀ index key accountId, s.index index key = some accountId →
    ∃ binding, s.bindings accountId = some binding ∧ keyOf env binding index = some key
  complete : ∀ accountId binding index key, s.bindings accountId = some binding →
    keyOf env binding index = some key →
      (s.index index key).isSome = true ∨ Window duties accountId
  apart : ∀ accountId other binding binding' index key, s.bindings accountId = some binding →
    s.bindings other = some binding' → keyOf env binding index = some key →
      keyOf env binding' index = some key → accountId = other

end Facts

structure Bound (env : Environment) (s : Accounts) (duties : Duties) : Prop where
  unique : Unique env s.redis duties
  right : ∀ i call duty, duties i = some (call, duty) →
    duty.1 = call ∧ ProperCall call ∧ Right env s.redis duties call duty.2
  kept : s.overwritten = []

section Frames
variable {env : Environment} {s t : Redis} {duties duties' : Duties} {call : ServiceCall}
  {stage : Stage}

structure Leaves (env : Environment) (s t : Redis) (duties duties' : Duties) (call : ServiceCall) :
    Prop where
  same : t.bindings (accountOf call) = s.bindings (accountOf call)
  grows : ∀ accountId, (s.bindings accountId).isSome = true → (t.bindings accountId).isSome = true
  free : ∀ index key, Wants env call index key → Free env s duties (accountOf call) index key →
    Free env t duties' (accountOf call) index key
  index : (∀ index key, s.index index key ≠ some (accountOf call)) →
    ∀ index key, t.index index key ≠ some (accountOf call)

theorem Ready.leaves {binding : IdentityBinding} (leaves : Leaves env s t duties duties' call)
    (ready : Ready env s duties call binding) : Ready env t duties' call binding := by
  cases call with
  | create request apSigningKeyRef =>
    obtain ⟨own, absent, actor, webId⟩ := ready
    exact ⟨own, leaves.same.trans absent, leaves.free _ _ (.inl ⟨rfl, rfl⟩) actor,
      leaves.free _ _ (.inr ⟨rfl, rfl⟩) webId⟩
  | provision request commitKeyRef rotationKeyRef =>
    obtain ⟨⟨old, stored, renews⟩, handle⟩ := ready
    exact ⟨⟨old, leaves.same.trans stored, renews⟩, leaves.free _ _ ⟨rfl, rfl⟩ handle⟩

variable {next : Option IdentityBinding}

theorem Search.leaves {index : Index} {key : String}
    (leaves : Leaves env s t duties duties' call) (search : Search env s duties call index key next) :
    Search env t duties' call index key next := by
  cases call with
  | create request apSigningKeyRef =>
    obtain ⟨own, absent, at_⟩ := search
    exact ⟨own, leaves.same.trans absent, at_.imp id fun ⟨webId, same, actor⟩ =>
      ⟨webId, same, leaves.free _ _ (.inl ⟨rfl, rfl⟩) actor⟩⟩
  | provision request commitKeyRef rotationKeyRef =>
    obtain ⟨⟨old, stored, renews⟩, at_⟩ := search
    exact ⟨⟨old, leaves.same.trans stored, renews⟩, at_⟩

theorem Search.wants {index : Index} {key : String}
    (search : Search env s duties call index key next) : Wants env call index key := by
  cases call with
  | create => exact search.2.2.imp id fun at_ => ⟨at_.1, at_.2.1⟩
  | provision => exact search.2

theorem Right.leaves (leaves : Leaves env s t duties duties' call)
    (right : Right env s duties call stage) : Right env t duties' call stage := by
  cases stage with
  | begun | finished => trivial
  | searching => exact Search.leaves leaves right
  | found index key next accountId =>
    obtain ⟨search, stored, free⟩ := right
    exact ⟨search.leaves leaves, leaves.grows _ stored,
      fun own => leaves.free _ _ search.wants (free own)⟩
  | checked => exact Ready.leaves leaves right
  | replacing => exact ⟨right.1.leaves leaves, leaves.same.trans right.2⟩
  | writing => exact ⟨right.1.leaves leaves, leaves.index right.2⟩

theorem Leaves.of_same (windows : ∀ accountId, Window duties accountId → Window duties' accountId) :
    Leaves env s s duties duties' call where
  same := rfl
  grows _ := id
  free _ _ _ free accountId binding apart stored key :=
    windows accountId (free accountId binding apart stored key)
  index := id

end Frames

section Steps
variable {env : Environment} {s : Accounts} {duties : Duties} {i : Nat} {call : ServiceCall}
  {stage next : Stage}

def Emptied (call : ServiceCall) (stage : Stage) : Prop :=
  match call, stage with
  | .provision .., .writing _ => True
  | _, _ => False

variable {accountId : String}

theorem window_other {duty : Option (ServiceCall × Duty)}
    (held : ∀ tag owner stage, duties i = some (tag, (owner, stage)) → ¬Emptied owner stage ∨
      accountOf owner ≠ accountId)
    (window : Window duties accountId) : Window (setDuty duties i duty) accountId := by
  obtain ⟨j, tag, request, commitKeyRef, rotationKeyRef, binding, duty', own⟩ := window
  refine ⟨j, tag, request, commitKeyRef, rotationKeyRef, binding, ?_, own⟩
  unfold setDuty
  rw [if_neg]
  · exact duty'
  · rintro rfl
    rcases held tag _ _ duty' with other | other
    · exact other trivial
    · exact other own

theorem Unique.windows {s : Redis} {duties' : Duties} (unique : Unique env s duties)
    (windows : ∀ accountId, Window duties accountId → Window duties' accountId) :
    Unique env s duties' where
  proper := unique.proper
  listed := unique.listed
  sound := unique.sound
  complete accountId binding index key stored own :=
    (unique.complete accountId binding index key stored own).imp id (windows accountId)
  apart := unique.apart

theorem Bound.move (bound : Bound env s duties) (duty : duties i = some (call, (call, stage)))
    (closed : ¬Emptied call stage)
    (right : ∀ duties', (∀ accountId, Window duties accountId → Window duties' accountId) →
      Right env s.redis duties' call next) :
    Bound env s (setDuty duties i (some (call, (call, next)))) := by
  have windows : ∀ accountId, Window duties accountId →
      Window (setDuty duties i (some (call, (call, next)))) accountId := by
    intro accountId
    apply window_other
    intro tag owner stage held
    rw [duty] at held
    cases held
    exact .inl closed
  refine ⟨bound.unique.windows windows, fun j owner held there => ?_, bound.kept⟩
  rcases setDuty_some there with ⟨-, here⟩ | ⟨-, before⟩
  · cases here
    exact ⟨rfl, (bound.right i call _ duty).2.1, right _ windows⟩
  · obtain ⟨own, proper, facts⟩ := bound.right j owner held before
    exact ⟨own, proper, facts.leaves (.of_same windows)⟩

theorem Bound.start (bound : Bound env s duties) (free : duties i = none) (proper : ProperCall call) :
    Bound env s (setDuty duties i (some (call, (call, .begun)))) := by
  have windows : ∀ accountId, Window duties accountId →
      Window (setDuty duties i (some (call, (call, .begun)))) accountId := by
    intro accountId
    apply window_other
    intro tag owner stage held
    rw [free] at held
    nomatch held
  refine ⟨bound.unique.windows windows, fun j owner held there => ?_, bound.kept⟩
  rcases setDuty_some there with ⟨-, here⟩ | ⟨-, before⟩
  · cases here
    exact ⟨rfl, proper, trivial⟩
  · obtain ⟨own, proper, facts⟩ := bound.right j owner held before
    exact ⟨own, proper, facts.leaves (.of_same windows)⟩

theorem Bound.drop (bound : Bound env s duties)
    (finished : ∀ tag owner stage, duties i = some (tag, (owner, stage)) → stage = .finished) :
    Bound env s (setDuty duties i none) := by
  have windows : ∀ accountId, Window duties accountId → Window (setDuty duties i none) accountId := by
    intro accountId
    apply window_other
    intro tag owner stage held
    rw [finished tag owner stage held]
    refine .inl fun emptied => ?_
    cases owner <;> exact emptied
  refine ⟨bound.unique.windows windows, fun j owner held there => ?_, bound.kept⟩
  obtain ⟨own, proper, facts⟩ := bound.right j owner held (of_setDuty_none there)
  exact ⟨own, proper, facts.leaves (.of_same windows)⟩

def Alone (env : Environment) (s : Redis) (duties : Duties) (i : Nat) (call : ServiceCall) : Prop :=
  ∀ j, j ≠ i → ∀ owner duty, duties j = some (owner, duty) → duty.2 ≠ .finished → Apart env s call owner

variable {binding : IdentityBinding} {index : Index} {key : String}

theorem mem_keysOf : (index, key) ∈ keysOf env binding ↔ keyOf env binding index = some key := by
  unfold keysOf
  rw [List.mem_filterMap]
  constructor
  · rintro ⟨family, -, made⟩
    obtain ⟨own, there, same⟩ := Option.map_eq_some_iff.mp made
    cases same
    exact there
  · exact fun own => ⟨index, mem_indexes index, by rw [own]; rfl⟩

theorem wants_touched {s : Redis} (wants : Wants env call index key) :
    (index, key) ∈ touched env s call := by
  cases call with
  | create request apSigningKeyRef =>
    rcases wants with ⟨rfl, rfl⟩ | ⟨rfl, rfl⟩
    · exact List.mem_cons_self
    · exact List.mem_cons_of_mem _ List.mem_cons_self
  | provision request commitKeyRef rotationKeyRef =>
    obtain ⟨rfl, rfl⟩ := wants
    exact List.mem_cons_self

variable {request : ProvisionAtprotoIdentityRequest} {commitKeyRef rotationKeyRef : String}

theorem stored_touched {s : Redis} (stored : s.bindings request.canonicalAccountId = some binding)
    (own : keyOf env binding index = some key) :
    (index, key) ∈ touched env s (.provision request commitKeyRef rotationKeyRef) := by
  unfold touched
  dsimp only
  rw [stored]
  exact List.mem_cons_of_mem _ (mem_keysOf.mpr own)

theorem Free.settled {s : Redis}
    (free : Free env s duties (accountOf call) index key) (alone : Alone env s duties i call)
    (self : duties i = some (call, (call, stage))) (wants : Wants env call index key)
    (tagged : ∀ j owner duty, duties j = some (owner, duty) → duty.1 = owner)
    (apart : accountId ≠ accountOf call) (stored : s.bindings accountId = some binding) :
    keyOf env binding index ≠ some key := by
  intro own
  obtain ⟨j, tag, request, commitKeyRef, rotationKeyRef, next, duty, rfl⟩ :=
    free accountId binding apart stored own
  have other : j ≠ i := by
    rintro rfl
    rw [self] at duty
    cases duty
    exact apart rfl
  cases tagged j tag _ duty
  exact (alone j other _ _ duty Stage.noConfusion).2 _ (wants_touched wants)
    (stored_touched stored own)

theorem window_after (duty : duties i = some (call, (call, stage)))
    (apart : accountId ≠ accountOf call) (window : Window duties accountId) :
    Window (setDuty duties i (some (call, (call, next)))) accountId := by
  apply window_other _ window
  intro tag owner stage held
  rw [duty] at held
  cases held
  exact .inr apart.symm

theorem Unique.written (unique : Unique env s.redis duties)
    (duty : duties i = some (call, (call, stage)))
    (own : binding.canonicalAccountId = accountOf call) (proper : Proper binding)
    (clear : ∀ index key, s.redis.index index key ≠ some (accountOf call))
    (news : ∀ index key accountId stored, accountId ≠ accountOf call →
      s.redis.bindings accountId = some stored → keyOf env binding index = some key →
        keyOf env stored index ≠ some key) :
    Unique env (s.redis.applyAll (writeCommands env binding))
      (setDuty duties i (some (call, (call, next)))) := by
  obtain ⟨bindings, entries⟩ := @write_effect env s.redis binding
  rw [own] at bindings entries
  refine ⟨?_, ?_, ?_, ?_, ?_⟩
  · intro accountId stored here
    rw [bindings] at here
    split at here
    next same =>
      cases here
      exact ⟨own.trans same.symm, proper⟩
    next => exact unique.proper accountId stored here
  · intro accountId stored here
    rw [write_all, own]
    rw [bindings] at here
    split at here
    next same =>
      rw [same]
      exact List.mem_insert_self
    next => exact List.mem_insert_of_mem (unique.listed accountId stored here)
  · intro index key accountId found
    rw [entries] at found
    split at found
    next held =>
      cases found
      exact ⟨binding, by rw [bindings, if_pos rfl], held⟩
    next =>
      obtain ⟨stored, there, held⟩ := unique.sound index key accountId found
      have apart : accountId ≠ accountOf call := by
        rintro rfl
        exact clear index key found
      exact ⟨stored, by rw [bindings, if_neg apart, there], held⟩
  · intro accountId stored index key here held
    rw [bindings] at here
    rw [entries]
    split at here
    next =>
      cases here
      rw [if_pos held]
      exact .inl rfl
    next apart =>
      split
      · exact .inl rfl
      · exact (unique.complete accountId stored index key here held).imp id (window_after duty apart)
  · intro accountId other stored stored' index key here there held held'
    rw [bindings] at here there
    split at here <;> split at there
    next first second => exact first.trans second.symm
    next first second =>
      cases here
      exact absurd held' (news index key other stored' second there held)
    next first second =>
      cases there
      exact absurd held (news index key accountId stored first here held')
    next => exact unique.apart accountId other stored stored' index key here there held held'

theorem leaves_written {other : ServiceCall} (duty : duties i = some (call, (call, stage)))
    (own : binding.canonicalAccountId = accountOf call)
    (inside : ∀ index key, keyOf env binding index = some key → index ≠ .did →
      (index, key) ∈ touched env s.redis call) (apart : Apart env s.redis call other) :
    Leaves env s.redis (s.redis.applyAll (writeCommands env binding)) duties
      (setDuty duties i (some (call, (call, next)))) other := by
  obtain ⟨bindings, entries⟩ := @write_effect env s.redis binding
  rw [own] at bindings entries
  refine ⟨?_, ?_, ?_, ?_⟩
  · rw [bindings, if_neg apart.1.symm]
  · intro accountId there
    rw [bindings]
    split
    · rfl
    · exact there
  · intro index key wants free accountId stored foreign here held
    rw [bindings] at here
    split at here
    next same =>
      cases here
      have looked : index ≠ .did := by
        rintro rfl
        cases other with
        | create => rcases wants with ⟨none, -⟩ | ⟨none, -⟩ <;> nomatch none
        | provision => nomatch wants.1
      exact absurd (wants_touched wants) (apart.2 _ (inside index key held looked))
    next different => exact window_after duty different (free accountId stored foreign here held)
  · intro clear index key
    rw [entries]
    split
    · exact fun same => apart.1 (Option.some.inj same)
    · exact clear index key

theorem Bound.write {more : List String} (bound : Bound env s duties)
    (duty : duties i = some (call, (call, stage))) (alone : Alone env s.redis duties i call)
    (own : binding.canonicalAccountId = accountOf call) (proper : Proper binding)
    (clear : ∀ index key, s.redis.index index key ≠ some (accountOf call))
    (news : ∀ index key accountId stored, accountId ≠ accountOf call →
      s.redis.bindings accountId = some stored → keyOf env binding index = some key →
        keyOf env stored index ≠ some key)
    (inside : ∀ index key, keyOf env binding index = some key → index ≠ .did →
      (index, key) ∈ touched env s.redis call) (kept : more = []) :
    Bound env ⟨s.redis.applyAll (writeCommands env binding), s.overwritten ++ more⟩
      (setDuty duties i (some (call, (call, .finished)))) := by
  refine ⟨bound.unique.written duty own proper clear news, fun j owner held there => ?_, ?_⟩
  · rcases setDuty_some there with ⟨-, here⟩ | ⟨apart, before⟩
    · cases here
      exact ⟨rfl, (bound.right i call _ duty).2.1, trivial⟩
    · obtain ⟨same, wellFormed, facts⟩ := bound.right j owner held before
      refine ⟨same, wellFormed, ?_⟩
      by_cases finished : held.2 = .finished
      · rw [finished]
        trivial
      · exact facts.leaves (leaves_written duty own inside (alone j apart owner held before finished))
  · rw [kept, bound.kept]
    rfl

theorem Bound.create {request : CreateIdentityBindingRequest} {apSigningKeyRef : String}
    (bound : Bound env s duties) (duty : duties i = some (.create request apSigningKeyRef,
      (.create request apSigningKeyRef, .writing binding)))
    (alone : Alone env s.redis duties i (.create request apSigningKeyRef)) :
    Bound env ⟨s.redis.applyAll (writeCommands env binding), s.overwritten ++
        s.overwrites (.create request apSigningKeyRef) (.exec (writeCommands env binding))⟩
      (setDuty duties i (some (.create request apSigningKeyRef,
        (.create request apSigningKeyRef, .finished)))) := by
  obtain ⟨-, ⟨named, acts, owned⟩, ⟨rfl, absent, actor, webId⟩, clear⟩ := bound.right i _ _ duty
  have tagged : ∀ j owner held, duties j = some (owner, held) → held.1 = owner :=
    fun j owner held there => (bound.right j owner held there).1
  have cases_ : ∀ index key, keyOf env (bindingOf request apSigningKeyRef) index = some key →
      Wants env (.create request apSigningKeyRef) index key := by
    intro index key held
    cases index with
    | did | handle => nomatch held
    | actor =>
      obtain ⟨identifier, given, rfl⟩ := Option.map_eq_some_iff.mp held
      cases (Option.filter_eq_some_iff.mp given).1
      exact .inl ⟨rfl, rfl⟩
    | webId =>
      obtain ⟨identifier, given, rfl⟩ := Option.map_eq_some_iff.mp held
      cases (Option.filter_eq_some_iff.mp given).1
      exact .inr ⟨rfl, rfl⟩
  have proper : Proper (bindingOf request apSigningKeyRef) := by
    refine ⟨named, fun index identifier own => ?_⟩
    cases index with
    | did | handle => nomatch own
    | actor =>
      cases own
      exact acts
    | webId =>
      cases own
      exact owned
  apply bound.write duty alone rfl proper clear
  · intro index key accountId stored apart there held
    have wants := cases_ index key held
    have free : Free env s.redis duties (accountOf (.create request apSigningKeyRef)) index key := by
      rcases wants with ⟨rfl, rfl⟩ | ⟨rfl, rfl⟩
      · exact actor
      · exact webId
    exact free.settled alone duty wants tagged apart there
  · exact fun index key held _ => wants_touched (cases_ index key held)
  · unfold Accounts.overwrites
    dsimp only
    rw [absent]
    rfl

variable {old : IdentityBinding}

theorem Bound.replace (bound : Bound env s duties)
    (duty : duties i = some (.provision request commitKeyRef rotationKeyRef,
      (.provision request commitKeyRef rotationKeyRef, .replacing binding old))) :
    Bound env ⟨s.redis.applyAll (indexCommands env old .delIndex), s.overwritten ++
        s.overwrites (.provision request commitKeyRef rotationKeyRef)
          (.exec (indexCommands env old .delIndex))⟩
      (setDuty duties i (some (.provision request commitKeyRef rotationKeyRef,
        (.provision request commitKeyRef rotationKeyRef, .writing binding)))) := by
  obtain ⟨-, wellFormed, ready, stored⟩ := bound.right i _ _ duty
  obtain ⟨bindings, entries⟩ := @remove_effect env s.redis old
  have windows : ∀ accountId, Window duties accountId →
      Window (setDuty duties i (some (.provision request commitKeyRef rotationKeyRef,
        (.provision request commitKeyRef rotationKeyRef, .writing binding)))) accountId := by
    intro accountId
    apply window_other
    intro tag owner stage held
    rw [duty] at held
    cases held
    exact .inl id
  have opened : Window (setDuty duties i (some (.provision request commitKeyRef rotationKeyRef,
      (.provision request commitKeyRef rotationKeyRef, .writing binding))))
      request.canonicalAccountId :=
    ⟨i, _, request, commitKeyRef, rotationKeyRef, binding, by rw [setDuty, if_pos rfl], rfl⟩
  have unique := bound.unique
  have leaves : ∀ other, Leaves env s.redis (s.redis.applyAll (indexCommands env old .delIndex)) duties
      (setDuty duties i (some (.provision request commitKeyRef rotationKeyRef,
        (.provision request commitKeyRef rotationKeyRef, .writing binding)))) other := by
    intro other
    refine ⟨by rw [bindings], fun accountId there => by rw [bindings]; exact there, ?_, ?_⟩
    · intro index key _ free accountId stored apart there held
      rw [bindings] at there
      exact windows accountId (free accountId stored apart there held)
    · intro clear index key
      rw [entries]
      split
      · simp
      · exact clear index key
  refine ⟨⟨?_, ?_, ?_, ?_, ?_⟩, fun j owner held there => ?_, ?_⟩
  · intro accountId binding there
    exact unique.proper accountId binding (bindings ▸ there)
  · intro accountId binding there
    rw [remove_all]
    exact unique.listed accountId binding (bindings ▸ there)
  · intro index key accountId found
    rw [entries] at found
    split at found
    next => cases found
    next =>
      rw [bindings]
      exact unique.sound index key accountId found
  · intro accountId other index key there held
    rw [bindings] at there
    by_cases same : accountId = request.canonicalAccountId
    · rw [same]
      exact .inr opened
    · rw [entries, if_neg]
      · exact (unique.complete accountId other index key there held).imp id (windows accountId)
      · intro gone
        exact same (unique.apart accountId _ other old index key there stored held gone)
  · intro accountId other first second index key here there
    exact unique.apart accountId other first second index key (bindings ▸ here) (bindings ▸ there)
  · rcases setDuty_some there with ⟨-, here⟩ | ⟨-, before⟩
    · cases here
      refine ⟨rfl, wellFormed, ready.leaves (leaves _), fun index key found => ?_⟩
      rw [entries] at found
      split at found
      next => cases found
      next kept =>
        obtain ⟨other, there, held⟩ := unique.sound index key _ found
        rw [(stored : s.redis.bindings (accountOf _) = some old)] at there
        cases there
        exact kept held
    · obtain ⟨same, proper, facts⟩ := bound.right j owner held before
      exact ⟨same, proper, facts.leaves (leaves owner)⟩
  · rw [bound.kept]
    rfl

theorem truthy_some {identifier : Option String} {text : String} :
    truthy identifier = some text ↔ identifier = some text ∧ text ≠ "" := by
  unfold truthy
  rw [Option.filter_eq_some_iff, decide_eq_true_eq]

theorem Renews.keys (renews : Renews request old binding)
    (held : keyOf env binding index = some key) :
    index = .did ∧ truthy request.atprotoDid = some key ∨
      index = .handle ∧ key = env.toLowerCase request.atprotoHandle ∨
      index ≠ .did ∧ keyOf env old index = some key := by
  cases index with
  | did =>
    obtain ⟨identifier, given, rfl⟩ := Option.map_eq_some_iff.mp held
    obtain ⟨own, -⟩ := truthy_some.mp given
    exact .inl ⟨rfl, renews.did ▸ own⟩
  | handle =>
    obtain ⟨identifier, given, rfl⟩ := Option.map_eq_some_iff.mp held
    obtain ⟨own, -⟩ := truthy_some.mp given
    have same : some request.atprotoHandle = some identifier := renews.handle ▸ own
    cases same
    exact .inr (.inl ⟨rfl, rfl⟩)
  | actor =>
    refine .inr (.inr ⟨Index.noConfusion, ?_⟩)
    rw [← held]
    unfold keyOf IdentityBinding.identifier
    rw [renews.actor]
  | webId =>
    refine .inr (.inr ⟨Index.noConfusion, ?_⟩)
    rw [← held]
    unfold keyOf IdentityBinding.identifier
    rw [renews.webId]

theorem Renews.proper
    (renews : Renews request old binding) (proper : Proper old) (handled : request.atprotoHandle ≠ "") :
    Proper binding := by
  refine ⟨renews.account ▸ proper.account, fun index identifier own => ?_⟩
  cases index with
  | did => exact (truthy_some.mp (renews.did.symm.trans own)).2
  | handle =>
    cases renews.handle.symm.trans own
    exact handled
  | actor => exact proper.identifiers .actor identifier ((congrArg some renews.actor).symm.trans own)
  | webId => exact proper.identifiers .webId identifier ((congrArg some renews.webId).symm.trans own)

theorem Bound.provision (bound : Bound env s duties)
    (duty : duties i = some (.provision request commitKeyRef rotationKeyRef,
      (.provision request commitKeyRef rotationKeyRef, .writing binding)))
    (alone : Alone env s.redis duties i (.provision request commitKeyRef rotationKeyRef))
    (newDid : NewDid env s.redis (.provision request commitKeyRef rotationKeyRef)) :
    Bound env ⟨s.redis.applyAll (writeCommands env binding), s.overwritten ++
        s.overwrites (.provision request commitKeyRef rotationKeyRef)
          (.exec (writeCommands env binding))⟩
      (setDuty duties i (some (.provision request commitKeyRef rotationKeyRef,
        (.provision request commitKeyRef rotationKeyRef, .finished)))) := by
  obtain ⟨-, ⟨named, handled⟩, ⟨⟨old, stored, renews⟩, handle⟩, clear⟩ := bound.right i _ _ duty
  have tagged : ∀ j owner held, duties j = some (owner, held) → held.1 = owner :=
    fun j owner held there => (bound.right j owner held there).1
  obtain ⟨own, proper⟩ := bound.unique.proper _ old stored
  apply bound.write duty alone (renews.account.trans own) (renews.proper proper handled) clear
  · intro index key accountId other apart there held
    rcases renews.keys held with ⟨rfl, did⟩ | ⟨rfl, rfl⟩ | ⟨-, before⟩
    · unfold NewDid at newDid
      dsimp only at newDid
      rw [did] at newDid
      have none := newDid accountId (bound.unique.listed accountId other there) apart
      rwa [there] at none
    · have free : Free env s.redis duties
          (accountOf (.provision request commitKeyRef rotationKeyRef)) .handle _ := handle
      exact free.settled alone duty ⟨rfl, rfl⟩ tagged apart there
    · intro same
      exact apart (bound.unique.apart accountId _ other old index key there stored same before)
  · intro index key held looked
    rcases renews.keys held with ⟨rfl, -⟩ | ⟨rfl, rfl⟩ | ⟨-, before⟩
    · exact absurd rfl looked
    · exact wants_touched ⟨rfl, rfl⟩
    · exact stored_touched stored before
  · rfl

theorem settled_right {s : Redis} {next : Option IdentityBinding}
    (search : Search env s duties call index key next)
    (free : Free env s duties (accountOf call) index key) :
    Right env s duties call (settled call index next) := by
  cases call with
  | create request apSigningKeyRef =>
    obtain ⟨rfl, absent, ⟨rfl, rfl⟩ | ⟨rfl, rfl, actor⟩⟩ := search
    · exact ⟨rfl, absent, .inr ⟨rfl, rfl, free⟩⟩
    · exact ⟨rfl, absent, actor, free⟩
  | provision request commitKeyRef rotationKeyRef =>
    obtain ⟨⟨old, stored, renews⟩, rfl, rfl⟩ := search
    cases next with
    | none => trivial
    | some binding => exact ⟨⟨old, stored, renews binding rfl⟩, free⟩

theorem renews_renewal
    (renewed : renewal env request commitKeyRef rotationKeyRef old = some binding) :
    Renews request old binding := by
  obtain ⟨made, -⟩ := Option.filter_eq_some_iff.mp renewed
  unfold provisioned at made
  dsimp only at made
  split at made
  · cases made
    exact ⟨rfl, rfl, rfl, rfl, rfl⟩
  · obtain ⟨hostname, -, rfl⟩ := Option.map_eq_some_iff.mp made
    exact ⟨rfl, rfl, rfl, rfl, rfl⟩

theorem looked_right {s : Redis} {found : Option IdentityBinding}
    (stored : s.bindings (accountOf call) = found) :
    Right env s duties call (looked env call found) := by
  cases call with
  | create request apSigningKeyRef =>
    cases found with
    | none => exact ⟨rfl, stored, .inl ⟨rfl, rfl⟩⟩
    | some binding => trivial
  | provision request commitKeyRef rotationKeyRef =>
    cases found with
    | none => trivial
    | some binding =>
      simp only [looked]
      split
      · trivial
      · exact ⟨⟨binding, stored, fun next renewed => renews_renewal renewed⟩, rfl, rfl⟩

theorem searched_right {s : Redis} {next : Option IdentityBinding}
    (unique : Unique env s duties) (search : Search env s duties call index key next) :
    Right env s duties call ((Stage.searching index key next).after env call (.getIndex index key)
      (some (s.index index key))) := by
  simp only [Stage.after]
  split
  next absent =>
    apply settled_right search
    intro accountId binding _ stored own
    rcases unique.complete accountId binding index key stored own with there | window
    · rw [absent] at there
      cases there
    · exact window
  next accountId there =>
    obtain ⟨binding, stored, own⟩ := unique.sound index key accountId there
    obtain ⟨named, proper⟩ := unique.proper accountId binding stored
    rw [if_neg (named ▸ proper.account)]
    refine ⟨search, by rw [stored]; rfl, ?_⟩
    rintro rfl other held apart listed same
    exact absurd (unique.apart other _ held binding index key listed stored same own) apart

theorem met_right {s : Redis} {next : Option IdentityBinding} (unique : Unique env s duties)
    (right : Right env s duties call (.found index key next accountId)) :
    Right env s duties call (met call index next (s.bindings accountId)) := by
  obtain ⟨search, there, free⟩ := right
  obtain ⟨existing, stored⟩ := Option.isSome_iff_exists.mp there
  rw [stored]
  cases call with
  | create => trivial
  | provision request commitKeyRef rotationKeyRef =>
    simp only [met]
    split
    next same =>
      have own := (unique.proper accountId existing stored).1
      exact settled_right search (free (own.symm.trans same))
    · trivial

end Steps

section Runs
variable {env : Environment} {pool : IdentityPool} {duties : Duties} {i : Nat} {call : ServiceCall}

theorem alone_of_guard
    (matched : ∀ j, Matches (identityMonitor env) Over (duties j) (pool.workers j))
    (guarded : ∀ j, True → j ≠ i → Elsewhere env pool.shared.redis call (pool.workers j)) :
    Alone env pool.shared.redis duties i call := by
  intro j apart owner duty held busy
  have admitted := guarded j trivial apart
  cases working : pool.workers j with
  | none =>
    have vacant := matched j
    rw [working] at vacant
    rw [(vacant : duties j = none)] at held
    nomatch held
  | some worker =>
    rw [working] at admitted
    have here := matched j
    rcases admitted with ended | foreign
    · exact absurd (ends_of_finished here (working ▸ ended) held) busy
    · rw [working] at here
      obtain ⟨w, same, -⟩ := here
      rw [same] at held
      cases held
      exact foreign

section Calls
variable {s : Accounts} {stage : Stage} {accountId : String}

theorem answer_get : s.answer call (.get accountId) = (some (s.redis.bindings accountId), s) := by
  cases call <;> exact congrArg (Prod.mk _) (congrArg (Accounts.mk _) (List.append_nil _))

theorem answer_existsBinding :
    s.answer call (.existsBinding accountId) = (some (s.redis.bindings accountId).isSome, s) := by
  cases call <;> exact congrArg (Prod.mk _) (congrArg (Accounts.mk _) (List.append_nil _))

theorem answer_getIndex {index : Index} {key : String} :
    s.answer call (.getIndex index key) = (some (s.redis.index index key), s) := by
  cases call <;> exact congrArg (Prod.mk _) (congrArg (Accounts.mk _) (List.append_nil _))

theorem windows_right {env : Environment} {duties' : Duties} {s : Redis}
    (right : Right env s duties call stage)
    (windows : ∀ accountId, Window duties accountId → Window duties' accountId) :
    Right env s duties' call stage := right.leaves (.of_same windows)

theorem Bound.reads (bound : Bound env s duties) (held : duties i = some (call, (call, stage)))
    (allowed : Duty.allows env (call, stage) (.get accountId)) :
    Bound env s (setDuty duties i (some (call,
      (call, stage.after env call (.get accountId) (some (s.redis.bindings accountId)))))) := by
  obtain ⟨-, -, right⟩ := bound.right i call _ held
  cases stage with
  | begun =>
    cases (allowed : accountId = accountOf call)
    exact bound.move held (by cases call <;> exact id) fun duties' windows => looked_right rfl
  | found index key next other =>
    cases (allowed : accountId = other)
    exact bound.move held (by cases call <;> exact id) fun duties' windows =>
      met_right (bound.unique.windows windows) (windows_right right windows)
  | checked binding =>
    cases call with
    | create => nomatch allowed
    | provision request commitKeyRef rotationKeyRef =>
      cases (allowed : accountId = binding.canonicalAccountId)
      obtain ⟨⟨old, stored, renews⟩, -⟩ := id right
      have own : binding.canonicalAccountId = request.canonicalAccountId :=
        renews.account.trans (bound.unique.proper _ old stored).1
      rw [own, stored]
      exact bound.move held id fun duties' windows =>
        ⟨Ready.leaves (.of_same windows) right, stored⟩
  | _ => cases call <;> nomatch allowed

theorem Bound.checks (bound : Bound env s duties) (held : duties i = some (call, (call, stage)))
    (allowed : Duty.allows env (call, stage) (.existsBinding accountId)) :
    Bound env s (setDuty duties i (some (call, (call, stage.after env call (.existsBinding accountId)
      (some (s.redis.bindings accountId).isSome))))) := by
  obtain ⟨-, -, right⟩ := bound.right i call _ held
  cases stage with
  | checked binding =>
    cases call with
    | provision => nomatch allowed
    | create request apSigningKeyRef =>
      cases (allowed : accountId = binding.canonicalAccountId)
      obtain ⟨own, absent, -⟩ := id right
      have same : binding.canonicalAccountId = request.canonicalAccountId := by rw [own]; rfl
      rw [same, absent]
      refine bound.move held id fun duties' windows =>
        ⟨Ready.leaves (.of_same windows) right, fun index key found => ?_⟩
      obtain ⟨other, there, -⟩ := bound.unique.sound index key _ found
      nomatch (absent.symm.trans there : none = some other)
  | _ => cases call <;> nomatch allowed

theorem Bound.looks {index : Index} {key : String} (bound : Bound env s duties)
    (held : duties i = some (call, (call, stage)))
    (allowed : Duty.allows env (call, stage) (.getIndex index key)) :
    Bound env s (setDuty duties i (some (call, (call, stage.after env call (.getIndex index key)
      (some (s.redis.index index key)))))) := by
  obtain ⟨-, -, right⟩ := bound.right i call _ held
  cases stage with
  | searching index' key' next =>
    obtain ⟨rfl, rfl⟩ := (allowed : index = index' ∧ key = key')
    exact bound.move held (by cases call <;> exact id) fun duties' windows =>
      searched_right (bound.unique.windows windows) (Search.leaves (.of_same windows) right)
  | _ => cases call <;> nomatch allowed

theorem Bound.writes {commands : List Command} (bound : Bound env s duties)
    (held : duties i = some (call, (call, stage)))
    (allowed : Duty.allows env (call, stage) (.exec commands))
    (alone : Alone env s.redis duties i call) (newDid : NewDid env s.redis call) :
    Bound env ⟨s.redis.applyAll commands, s.overwritten ++ s.overwrites call (.exec commands)⟩
      (setDuty duties i (some (call, (call, stage.after env call (.exec commands) (some ()))))) := by
  cases stage with
  | replacing binding old =>
    cases call with
    | create => nomatch allowed
    | provision =>
      cases (allowed : commands = _)
      exact bound.replace held
  | writing binding =>
    cases call with
    | create =>
      cases (allowed : commands = _)
      exact bound.create held alone
    | provision =>
      cases (allowed : commands = _)
      exact bound.provision held alone newDid
  | _ => cases call <;> nomatch allowed

end Calls

theorem bound_preserved (env : Environment) :
    PreservesAll (identitySystem env) (Unshared env fun _ => True) (identityMonitor env) Over
      (Bound env) where
  call pool duties i tag duty c next reply after admitted bound matched running held allowed
      performed := by
    have performs : pool.shared.answer tag c = (reply, after) := performed
    have guarded : Unshared env (fun _ => True) pool (.call i) := admitted
    simp only [Unshared, running] at guarded
    obtain ⟨owner, stage⟩ := duty
    obtain ⟨same, proper, right⟩ := bound.right i tag (owner, stage) held
    cases (same : owner = tag)
    cases c with
    | del | srem => cases stage <;> cases owner <;> nomatch allowed
    | get accountId =>
      rw [answer_get] at performs
      cases performs
      exact bound.reads held allowed
    | existsBinding accountId =>
      rw [answer_existsBinding] at performs
      cases performs
      exact bound.checks held allowed
    | getIndex index key =>
      rw [answer_getIndex] at performs
      cases performs
      exact bound.looks held allowed
    | exec commands =>
      cases performs
      exact bound.writes held allowed (alone_of_guard matched guarded.1) guarded.2
  stop pool duties i ended bound matched := bound.drop fun _ _ _ => ends_of_finished matched ended
  start pool duties i worker admitted bound free starts := by
    refine ⟨(worker.tag, .begun), ?_, bound.start free admitted⟩
    rw [(starts : worker.program = _)]
    have wellFormed : ProperCall worker.tag := admitted
    cases call : worker.tag with
    | create request apSigningKeyRef => exact createIdentityBinding_obeys request apSigningKeyRef
    | provision request commitKeyRef rotationKeyRef =>
      rw [call] at wellFormed
      exact provisionAtprotoIdentity_obeys wellFormed.2
  act _ _ event := event.elim

end Runs

theorem bound_empty (env : Environment) : Bound env .empty fun _ => none where
  unique := ⟨fun _ _ none => (nomatch none), fun _ _ none => (nomatch none),
    fun _ _ _ none => (nomatch none), fun _ _ _ _ none => (nomatch none),
    fun _ _ _ _ _ _ none => nomatch none⟩
  right _ _ _ none := nomatch none
  kept := rfl

def Distinct (env : Environment) (s : Redis) : Prop :=
  ∀ accountId other binding binding', s.bindings accountId = some binding →
    s.bindings other = some binding' → accountId ≠ other →
      binding.activityPubActorUri ≠ binding'.activityPubActorUri ∧
      binding.webId ≠ binding'.webId ∧
      (∀ did, binding.atprotoDid = some did → binding'.atprotoDid ≠ some did) ∧
      ∀ handle handle', binding.atprotoHandle = some handle → binding'.atprotoHandle = some handle' →
        env.toLowerCase handle ≠ env.toLowerCase handle'

theorem Unique.distinct {env : Environment} {s : Redis} {duties : Duties}
    (unique : Unique env s duties) : Distinct env s := by
  intro accountId other binding binding' stored stored' apart
  have own : ∀ {accountId binding index identifier}, s.bindings accountId = some binding →
      binding.identifier index = some identifier →
        keyOf env binding index = some (indexKey env index identifier) := by
    intro accountId binding index identifier stored own
    exact (unique.proper accountId binding stored).2.holds_iff.mp ⟨identifier, own, rfl⟩
  have differ : ∀ index identifier identifier', binding.identifier index = some identifier →
      binding'.identifier index = some identifier' →
        indexKey env index identifier ≠ indexKey env index identifier' := by
    intro index identifier identifier' here there same
    exact apart (unique.apart accountId other binding binding' index _ stored stored'
      (own stored here) (same ▸ own stored' there))
  refine ⟨differ .actor _ _ rfl rfl, differ .webId _ _ rfl rfl, fun did here there => ?_, ?_⟩
  · exact differ .did did did here there rfl
  · exact fun handle handle' here there => differ .handle handle handle' here there

/-- In every run in which no two calls under way share an account or an identifier when one of them
writes, and no provision brings a DID of another account, identifiers belong to one account and no
binding is created over another. -/
theorem identifiers_unique (env : Environment) (pool : IdentityPool)
    (run : Reaches (Step (identitySystem env)) (Unshared env fun _ => True)
      (Pool.idle .empty) pool) :
    Distinct env pool.shared.redis ∧ pool.shared.overwritten = [] := by
  obtain ⟨duties, bound, -⟩ :=
    watchedAll_run (bound_preserved env) run (watchedTo_idle (bound_empty env))
  exact ⟨bound.unique.distinct, bound.kept⟩

def creating (accountId actorUri : String) : ServiceCall :=
  .create ⟨accountId, "ctx", "w" ++ accountId, actorUri⟩ "key"

def provisioning (accountId handle : String) : ServiceCall :=
  .provision ⟨accountId, some ("did:web:" ++ accountId), handle, .didPlc, "https://pds"⟩ "k" "r"

def service : Schedule Accounts ServiceCall Empty Call Reply Failure IdentityBinding where
  perform call c s := some (s.answer call c)
  boot := ServiceCall.program plainly
  admits _ _ := true
  react event _ := event.elim

theorem service_follows : service.Follows (identitySystem plainly) where
  perform _ _ _ _ _ performed := Option.some.inj performed
  admits _ _ _ := rfl
  react event := event.elim

section Places
variable {env : Environment} {n : Nat} {pool : IdentityPool} {label : IdentityLabel}

instance : Decidable (Unshared env (fun j => j < n) pool label) := by
  unfold Unshared
  split
  · split
    · infer_instance
    · infer_instance
  all_goals infer_instance

theorem unshared_of_below (vacant : ∀ j, n ≤ j → pool.workers j = none)
    (unshared : Unshared env (fun j => j < n) pool label) :
    Unshared env (fun _ => True) pool label := by
  cases label with
  | call i =>
    simp only [Unshared] at unshared ⊢
    split at unshared
    next =>
      refine ⟨fun j _ apart => ?_, unshared.2⟩
      by_cases early : j < n
      · exact unshared.1 j early apart
      · rw [vacant j (Nat.le_of_not_lt early)]
        trivial
    next => trivial
  | _ => exact unshared

end Places

def calls (i : Nat) (count : Nat) : List (Turn ServiceCall Empty) := List.replicate count (.call i)

def seen (s : Accounts) : Option String × Option String × List String :=
  ((s.redis.bindings "a").map (·.activityPubActorUri),
    (s.redis.bindings "b").map (·.activityPubActorUri), s.overwritten)

def sideBySide : List (Turn ServiceCall Empty) :=
  [.start 0 (creating "a" "u"), .start 1 (creating "b" "v")] ++ calls 0 3 ++ calls 1 4 ++
    calls 0 2 ++ calls 1 1 ++ .start 2 (provisioning "a" "h") :: calls 2 5

theorem identifiers_unique_sideBySide :
    ∃ pool, Reaches (Step (identitySystem plainly)) (Unshared plainly fun _ => True)
        (Pool.idle .empty) pool ∧
      (seen pool.shared, (pool.shared.redis.bindings "a").map (·.atprotoHandle)) =
        ((some "u", some "v", []), some (some "h")) ∧
      Distinct plainly pool.shared.redis ∧ pool.shared.overwritten = [] := by
  have looks : (follow service (Unshared plainly fun j => j < 3) (Pool.idle .empty) sideBySide).map
      (fun pool => (seen pool.shared, (pool.shared.redis.bindings "a").map (·.atprotoHandle))) =
        some ((some "u", some "v", []), some (some "h")) := by decide +kernel
  obtain ⟨pool, ran, ends⟩ := Option.map_eq_some_iff.mp looks
  have run := reaches_of_follow_below service_follows (fun _ _ => unshared_of_below) sideBySide
    (fun _ _ => rfl) (by decide) ran
  exact ⟨pool, run, ends, identifiers_unique plainly pool run⟩

def overlapping : List (Turn ServiceCall Empty) :=
  [.start 0 (creating "a" "u"), .start 1 (creating "b" "u")] ++ calls 0 4 ++ calls 1 4 ++
    calls 0 1 ++ calls 1 1

theorem actor_uri_shared :
    ¬ ∀ (env : Environment) (pool : IdentityPool),
      Reaches (Step (identitySystem env)) always (Pool.idle .empty) pool →
        Distinct env pool.shared.redis ∧ pool.shared.overwritten = [] := by
  intro unique
  have looks : (follow service always (Pool.idle .empty) overlapping).map
      (fun pool => seen pool.shared) = some (some "u", some "u", []) := by decide +kernel
  obtain ⟨pool, ran, ends⟩ := Option.map_eq_some_iff.mp looks
  have run := reaches_of_follow service_follows ran
  obtain ⟨first, rest⟩ := Prod.mk.inj ends
  obtain ⟨second, -⟩ := Prod.mk.inj rest
  obtain ⟨one, stored, actor⟩ := Option.map_eq_some_iff.mp first
  obtain ⟨other, stored', actor'⟩ := Option.map_eq_some_iff.mp second
  exact ((unique plainly pool run).1 "a" "b" one other stored stored' (by decide)).1
    (actor.trans actor'.symm)

end MastopodFederation.Guarantees.IdentityUniqueness
