import MastopodFederation.Source.IdentityBindingSync

/-!
# What a projection keeps

Of what was stored before, only a PDS endpoint that the payload does not carry comes through, so
the fields that no projection carries get their defaults each time. A binding keeps them exactly
where they are the defaults already, and an application repeated changes `updatedAt` alone
exactly where the payload carries its time of creation.
-/
namespace MastopodFederation.Guarantees.ProjectionFrame
open Lib.Calls Source.IdentityBindingSync
open Source.IdentityBindings (Index Environment CanonicalDidMethod ProvisionAtprotoIdentityRequest
  truthy)

/-- The fields of a binding that no projection carries. The rotation key of the PLC state mirrors that
of the binding, which a projection does carry. -/
structure Owned where
  contextId : String
  canonicalDidMethod : Option CanonicalDidMethod
  apSigningKeyRef : String
  plc : Option Plc
  didWeb : Option DidWeb
  accountLinks : AccountLinks
  deriving DecidableEq

def owned (binding : IdentityBinding) : Owned where
  contextId := binding.contextId
  canonicalDidMethod := binding.canonicalDidMethod
  apSigningKeyRef := binding.apSigningKeyRef
  plc := binding.plc.map fun plc => { plc with rotationKeyRef := none }
  didWeb := binding.didWeb
  accountLinks := binding.accountLinks

structure Carries (payload : BackendIdentityProjection) (binding : IdentityBinding) : Prop where
  account : binding.canonicalAccountId = payload.canonicalAccountId
  webId : binding.webId = payload.webId
  actor : ∀ actor ∈ payload.activityPubActorId, binding.activityPubActorUri = actor
  did : binding.atprotoDid = some payload.atprotoDid
  handle : binding.atprotoHandle = some payload.atprotoHandle
  source : ∀ source ∈ payload.atprotoSource, binding.atprotoSource = some source
  managed : ∀ managed ∈ payload.atprotoManaged, binding.atprotoManaged = some managed
  endpoint : ∀ url ∈ payload.atprotoPdsUrl, binding.atprotoPdsEndpoint = some url
  signing : ∀ key ∈ payload.atSigningKeyRef, binding.atSigningKeyRef = some key
  rotation : ∀ key ∈ payload.atRotationKeyRef,
    binding.atRotationKeyRef = some key ∧ ∀ plc ∈ binding.plc, plc.rotationKeyRef = some key
  status : binding.status = toLocalStatus payload.status
  created : ∀ created ∈ payload.createdAt, binding.createdAt = created

structure Application where
  payload : BackendIdentityProjection
  registry : Option Registry
  clock : Clock
  faults : List Bool

def Application.step (application : Application) : FaultyStep :=
  (.project application.payload application.registry application.clock, application.faults)

def Stored : Except Failure Unit → Prop
  | .ok () => True
  | .error (.registry _) => True
  | .error _ => False

def Repeats (env : Environment) (s : Redis) (payload : BackendIdentityProjection)
    (binding : IdentityBinding) : Prop :=
  ∀ registry clock faults second,
    (perform env s (.project payload registry clock, faults)).2.bindings payload.canonicalAccountId =
      some second →
    second = { binding with updatedAt := second.updatedAt }

def Frames (env : Environment) (s : Redis) (application : Application) : Prop :=
  let result := perform env s application.step
  ∀ before, s.bindings application.payload.canonicalAccountId = some before →
    ∃ after, result.2.bindings application.payload.canonicalAccountId = some after ∧
      owned after = owned before ∧
      (Stored result.1 → Carries application.payload after ∧
        Repeats env result.2 application.payload after)

def defaults (payload : BackendIdentityProjection) : Owned where
  contextId := "default"
  canonicalDidMethod := none
  apSigningKeyRef := apSigningKeyRefOf payload
  plc := some ⟨none, none, none, none, none, none⟩
  didWeb := none
  accountLinks := .empty

def Application.Lands (application : Application) : Prop :=
  isBackendIdentityProjection application.payload = true ∧
    application.faults.headD false = false ∧ application.faults.tail.headD false = false

/-- Where the application lands on a binding, that has the defaults, and the payload carries the time
of creation. -/
def Harmless (s : Redis) (application : Application) : Prop :=
  ∀ before, s.bindings application.payload.canonicalAccountId = some before → application.Lands →
    owned before = defaults application.payload ∧ application.payload.createdAt.isSome

def Indexes : Command → Prop
  | .set _ => False
  | _ => True

theorem bindings_applyAll (commands : List Command) (indexing : ∀ c ∈ commands, Indexes c)
    (s : Redis) : (s.applyAll commands).bindings = s.bindings := by
  induction commands generalizing s with
  | nil => rfl
  | cons command commands ih =>
    have later := ih (fun c mem => indexing c (List.mem_cons_of_mem _ mem)) (s.apply command)
    have first := indexing command List.mem_cons_self
    cases command with
    | set binding => exact first.elim
    | sadd accountId => exact later
    | setIndex index key accountId => exact later
    | delIndex index key => exact later

variable (env : Environment) (binding : IdentityBinding)

theorem indexing_indexCommands (command : Index → String → Command) (indexing : ∀ index key, Indexes (command index key)) :
    ∀ c ∈ indexCommands env binding command, Indexes c := by
  intro c mem
  obtain ⟨index, -, made⟩ := List.mem_filterMap.1 mem
  obtain ⟨identifier, -, rfl⟩ := Option.map_eq_some_iff.1 made
  exact indexing _ _

theorem indexing_replacedCommands (existing normalized : IdentityBinding) :
    ∀ c ∈ replacedCommands env existing normalized, Indexes c := by
  intro c mem
  obtain ⟨index, -, made⟩ := List.mem_filterMap.1 mem
  split at made
  · cases made
  · obtain ⟨identifier, -, rfl⟩ := Option.map_eq_some_iff.1 made
    trivial

theorem bindings_write (s : Redis) : (s.applyAll (writeCommands env binding)).bindings =
      fun id => if id = binding.canonicalAccountId then some binding else s.bindings id := by
  have indexing := indexing_indexCommands env binding
    (fun index key => .setIndex index key binding.canonicalAccountId) fun _ _ => trivial
  exact bindings_applyAll _ indexing ((s.apply (.set binding)).apply (.sadd _))

theorem applyAll_append (s : Redis) (first second : List Command) :
    s.applyAll (first ++ second) = (s.applyAll first).applyAll second :=
  List.foldl_append

def expanded (s : Redis) (payload : BackendIdentityProjection) (clock : Clock) : IdentityBinding :=
  normalize (toIdentityBinding payload clock.built) (s.bindings payload.canonicalAccountId)
    clock.stored

def upsertCommands (env : Environment) (s : Redis) (binding : IdentityBinding) (now : String) :
    List Command :=
  let existing := s.bindings binding.canonicalAccountId
  let normalized := normalize binding existing now
  (match existing with
    | none => []
    | some existing => replacedCommands env existing normalized) ++ writeCommands env normalized

theorem run_upsert (now : String) (next : Unit → Run Unit) (faults : List Bool) (s : Redis) :
    Redis.run (Prog.bind (upsert env binding now) next) faults s =
      if faults.headD false then (.error .redis, s)
      else if faults.tail.headD false then
        (.error (.repository .persistenceError "Identity binding upsert failed"), s)
      else Redis.run (next ()) faults.tail.tail
        (s.applyAll (upsertCommands env s binding now)) := by
  cases first : faults.headD false <;> cases second : faults.tail.headD false <;>
    simp only [upsert, getByCanonicalAccountId, Source.IdentityBindingSync.get, execMultiOrThrow,
      bind, pure, Prog.bind, Redis.run, Redis.answer, Redis.refuse, orThrow, first, second,
      Bool.false_eq_true, if_true, if_false] <;> rfl

theorem bindings_upserted (s : Redis) (binding : IdentityBinding) (now : String) :
    (s.applyAll (upsertCommands env s binding now)).bindings =
      fun id => if id = binding.canonicalAccountId then
        some (normalize binding (s.bindings binding.canonicalAccountId) now) else s.bindings id := by
  rw [upsertCommands, applyAll_append, bindings_write, bindings_applyAll]
  · rfl
  · intro c mem
    cases existing : s.bindings binding.canonicalAccountId with
    | none => simp [existing] at mem
    | some old => exact indexing_replacedCommands env old _ c (by simpa [existing] using mem)

theorem registry_of_existing (registry : Registry) (failure : Failure)
    (throws : registry.existing = .error failure) : ∃ message, failure = .registry message := by
  unfold Registry.existing at throws
  split at throws <;> cases throws
  exact ⟨_, rfl⟩

theorem registry_of_error (payload : BackendIdentityProjection) (registry : Option Registry)
    (failure : Failure) (throws : maybeWarmRepoRegistry payload registry = .error failure) :
    ∃ message, failure = .registry message := by
  unfold maybeWarmRepoRegistry at throws
  cases registry with
  | none => cases throws
  | some registry =>
    cases known : registry.existing with
    | error other =>
      obtain ⟨message, rfl⟩ := registry_of_existing registry other known
      simp only [known, bind, Except.bind] at throws
      repeat' split at throws
      all_goals cases throws
      exact ⟨message, rfl⟩
    | ok known =>
      simp only [*, bind, Except.bind] at throws
      repeat' split at throws
      all_goals cases throws
      exact ⟨_, rfl⟩

theorem stored_maybeWarm (payload : BackendIdentityProjection) (registry : Option Registry)
    (faults : List Bool) (s : Redis) :
    ∃ outcome, Stored outcome ∧
      Redis.run (Prog.bind (Prog.done (maybeWarmRepoRegistry payload registry)) fun _ => pure ())
        faults s = (outcome, s) := by
  cases warmed : maybeWarmRepoRegistry payload registry with
  | ok _ => exact ⟨.ok (), trivial, rfl⟩
  | error failure =>
    refine ⟨.error failure, ?_, rfl⟩
    obtain ⟨message, rfl⟩ := registry_of_error payload registry failure warmed
    trivial

theorem project_cases (env : Environment) (s : Redis) (application : Application) :
    let result := perform env s application.step
    (¬ application.Lands ∧ ¬ Stored result.1 ∧ result.2 = s) ∨
    (application.Lands ∧ Stored result.1 ∧
      result.2.bindings application.payload.canonicalAccountId =
        some (expanded s application.payload application.clock)) := by
  obtain ⟨payload, registry, clock, faults⟩ := application
  simp only [Application.Lands, Application.step, perform, Step.program,
    applyIdentityProjectionLocally]
  cases valid : isBackendIdentityProjection payload with
  | false => exact .inl ⟨by simp, by simp [Prog.fail, Redis.run, Stored], rfl⟩
  | true =>
    simp only [Bool.not_true, Bool.false_eq_true, if_false, bind, run_upsert]
    cases first : faults.headD false with
    | true => exact .inl ⟨by simp, by simp [Stored], rfl⟩
    | false =>
      cases second : faults.tail.headD false with
      | true => exact .inl ⟨by simp, by simp [Stored], rfl⟩
      | false =>
        obtain ⟨outcome, stored, runs⟩ := stored_maybeWarm payload registry faults.tail.tail
          (s.applyAll (upsertCommands env s (toIdentityBinding payload clock.built) clock.stored))
        refine .inr ⟨by simp, ?_⟩
        simp only [Bool.false_eq_true, if_false]
        rw [runs]
        refine ⟨stored, ?_⟩
        rw [bindings_upserted]
        exact if_pos rfl

theorem carries_expanded (s : Redis) (payload : BackendIdentityProjection) (clock : Clock) :
    Carries payload (expanded s payload clock) where
  account := rfl
  webId := rfl
  actor actor carried := by simp_all [expanded, Source.IdentityBindingSync.normalize, toIdentityBinding]
  did := rfl
  handle := rfl
  source source carried := by simp_all [expanded, Source.IdentityBindingSync.normalize, toIdentityBinding]
  managed managed carried := by simp_all [expanded, Source.IdentityBindingSync.normalize, toIdentityBinding]
  endpoint url carried := by simp_all [expanded, Source.IdentityBindingSync.normalize, toIdentityBinding]
  signing key carried := carried
  rotation key carried := by
    refine ⟨carried, fun plc stored => ?_⟩
    cases stored
    exact carried
  status := rfl
  created created carried := by simp_all [expanded, Source.IdentityBindingSync.normalize, toIdentityBinding]

theorem expanded_again (s s' : Redis) (payload : BackendIdentityProjection) (clock clock' : Clock)
    (first : s'.bindings payload.canonicalAccountId = some (expanded s payload clock)) :
    expanded s' payload clock' =
      { expanded s payload clock with
        createdAt := payload.createdAt.getD clock'.built
        updatedAt := clock'.stored } := by
  rw [expanded, first]
  cases endpoint : payload.atprotoPdsUrl <;>
    simp [expanded, Source.IdentityBindingSync.normalize, toIdentityBinding, endpoint]

theorem repeats_iff (s s' : Redis) (payload : BackendIdentityProjection)
    (clock : Clock) (valid : isBackendIdentityProjection payload = true)
    (first : s'.bindings payload.canonicalAccountId = some (expanded s payload clock)) :
    Repeats env s' payload (expanded s payload clock) ↔ payload.createdAt.isSome := by
  constructor
  · intro repeats
    cases created : payload.createdAt with
    | some _ => rfl
    | none =>
      -- a clock that shows another time than the binding
      let later : Clock := ⟨(expanded s payload clock).createdAt ++ "0", ""⟩
      obtain ⟨missed, -, -⟩ | ⟨-, -, second⟩ := project_cases env s' ⟨payload, none, later, []⟩
      · exact absurd ⟨valid, rfl, rfl⟩ missed
      · have same := congrArg (·.createdAt) (repeats none later [] _ second)
        simp only [expanded_again s s' payload clock later first, created, Option.getD_none] at same
        have lengths := congrArg String.length same
        simp [later, String.length_append] at lengths
  · intro carried registry clock' faults second stored
    obtain ⟨created, is⟩ := Option.isSome_iff_exists.1 carried
    obtain ⟨-, -, unchanged⟩ | ⟨-, -, again⟩ :=
      project_cases env s' ⟨payload, registry, clock', faults⟩
    · simp only [Application.step] at unchanged
      rw [unchanged, first, Option.some_inj] at stored
      rw [← stored]
    · simp only [Application.step] at again
      rw [again, Option.some_inj] at stored
      rw [← stored, expanded_again s s' payload clock clock' first]
      simp [expanded, Source.IdentityBindingSync.normalize, toIdentityBinding, is]

theorem frames_iff (s : Redis) (application : Application) :
    Frames env s application ↔ Harmless s application := by
  constructor
  · intro frames before stored lands
    obtain ⟨missed, -, -⟩ | ⟨-, landed, now⟩ := project_cases env s application
    · exact absurd lands missed
    · obtain ⟨after, is, kept, rest⟩ := frames before stored
      rw [now, Option.some_inj] at is
      subst is
      exact ⟨kept.symm, (repeats_iff env s _ _ _ lands.1 now).1 (rest landed).2⟩
  · intro harmless before stored
    obtain ⟨-, unstored, unchanged⟩ | ⟨lands, -, now⟩ := project_cases env s application
    · exact ⟨before, unchanged.symm ▸ stored, rfl, fun landed => absurd landed unstored⟩
    · obtain ⟨same, carried⟩ := harmless before stored lands
      refine ⟨_, now, same.symm, fun _ => ⟨carries_expanded s _ _, ?_⟩⟩
      exact (repeats_iff env s _ _ _ lands.1 now).2 carried

def Throughout (env : Environment) (s : Redis) (steps : List FaultyStep)
    (meets : Redis → Application → Prop) : Prop :=
  ∀ earlier application later, steps = earlier ++ application.step :: later →
    meets (performAll env s earlier) application

/-- Over any calls of the identity service with projections applied between them, from any bindings,
every application frames what it must exactly if every one lands on bindings with the defaults. -/
theorem projections_frame_iff (env : Environment) (s : Redis) (steps : List FaultyStep) :
    Throughout env s steps (Frames env) ↔ Throughout env s steps Harmless := by
  constructor
  · intro frames earlier application later split
    exact (frames_iff env _ application).1 (frames earlier application later split)
  · intro harmless earlier application later split
    exact (frames_iff env _ application).2 (harmless earlier application later split)

def plain : Environment := ⟨fun text => text, fun _ => some "pod.example"⟩

def aliceProvisioned : List FaultyStep := [
  (.create ⟨⟨"alice", "pod", "https://pod.example/alice/profile#me", "https://pod.example/alice"⟩,
    none⟩ "key:ap" "2026-01-01", []),
  (.provision ⟨"alice", some "did:plc:alice", "alice.pod.example", .didPlc, "https://pod.example"⟩
    "key:commit" "key:rotation" "2026-01-02", [])]

def aliceProjected : Application where
  payload := {
    canonicalAccountId := "alice"
    webId := "https://pod.example/alice/profile#me"
    activityPubActorId := some "https://pod.example/alice"
    atprotoDid := "did:plc:alice"
    atprotoHandle := "alice.pod.example"
    atprotoSource := some .local_
    atprotoManaged := some true
    atprotoPdsUrl := some "https://pod.example"
    atSigningKeyRef := some "key:commit"
    atRotationKeyRef := some "key:rotation"
    status := "active"
    repo := none
    createdAt := some "2026-01-01" }
  registry := none
  clock := ⟨"2026-01-03", "2026-01-03"⟩
  faults := []

/-- The context, the DID method and the ActivityPub key of alice are reset. -/
theorem projection_resets_alice :
    ¬ ∀ (env : Environment) (s : Redis) (steps : List FaultyStep),
      Throughout env s steps (Frames env) := by
  intro framed
  have frames := framed plain .empty (aliceProvisioned ++ [aliceProjected.step]) aliceProvisioned
    aliceProjected [] rfl
  have before : ((performAll plain .empty aliceProvisioned).bindings "alice").map (·.contextId) =
      some "pod" := by decide +kernel
  obtain ⟨binding, stored, context⟩ := Option.map_eq_some_iff.1 before
  have lands : aliceProjected.Lands := ⟨by decide +kernel, rfl, rfl⟩
  have harmless := (frames_iff plain _ aliceProjected).1 frames binding stored lands
  have reset : binding.contextId = "default" := congrArg Owned.contextId harmless.1
  rw [context] at reset
  exact absurd reset (by decide)

end MastopodFederation.Guarantees.ProjectionFrame
