import MastopodFederation.Source.EntrywayProvisioning
import MastopodFederation.Lib.PoolRuns

/-!
# Activation of accounts

Every step of an attempt reads a route, edits it and writes all of it back. Where no process
takes up an account at which another one is still at work, an active route stays active, provider
data stays, a username stays with its account and all requests for an account carry one key.
-/
namespace MastopodFederation.Guarantees.AccountActivation
open Lib.Calls Lib.GuardedRun Lib.WorkerPool Lib.PoolRuns
open Lib.LuaTable (Json)
open Source.AccountRoutes Source.AccountRoutes.RedisAccountRouteStore
open Source.EntrywayProvisioning

structure KeepsData (before after : AccountRoute) : Prop where
  webId : before.webId ≠ "" → after.webId = before.webId
  actorId : before.actorId ≠ "" → after.actorId = before.actorId
  podStorageUrl : before.podStorageUrl ≠ "" → after.podStorageUrl = before.podStorageUrl
  atprotoDid : before.atprotoDid ≠ none → after.atprotoDid = before.atprotoDid

structure Lasting (w later : World) : Prop where
  usernames : ∀ key accountId, w.store.usernames key = some accountId →
    later.store.usernames key = some accountId
  routes : ∀ accountId route, w.store.routes accountId = some route →
    ∃ next, later.store.routes accountId = some next ∧ KeepsData route next ∧
      (route.status = .active → next.status = .active)

structure Distinct (env : Environment) (w : World) : Prop where
  username : ∀ accountId other route otherRoute, w.store.routes accountId = some route →
    w.store.routes other = some otherRoute →
    normalizeUsernameKey env.toLowerCase route.username =
      normalizeUsernameKey env.toLowerCase otherRoute.username → accountId = other
  key : ∀ accountId key other, (accountId, key) ∈ w.requests → (accountId, other) ∈ w.requests →
    key = other

def Final (env : Environment) (w later : World) : Prop := Lasting w later ∧ Distinct env later

abbrev ProvisioningPool := Pool World Nat Call Reply Thrown Unit

abbrev ProvisioningLabel := Label Nat ClockEvent Call Reply Thrown Unit

def Numbered (_ : ProvisioningPool) : ProvisioningLabel → Prop
  | .start i worker => worker.tag = i
  | _ => True

abbrev Free (pool : ProvisioningPool) (i : Nat) (accountId : String) : Prop :=
  match pool.shared.working accountId with
  | some j => j = i ∨ (pool.workers j).isNone
  | none => True

def Apart (env : Environment) (pool : ProvisioningPool) : ProvisioningLabel → Prop
  | .start i worker => worker.tag = i
  | .call i =>
    match pool.workers i with
    | some ⟨_, .call c _⟩ => ∀ accountId ∈ takesUp env pool.shared c, Free pool i accountId
    | _ => True
  | _ => True

instance (pool : ProvisioningPool) (i : Nat) (accountId : String) :
    Decidable (Free pool i accountId) := by
  unfold Free
  split <;> infer_instance

instance (pool : ProvisioningPool) (label : ProvisioningLabel) :
    Decidable (Numbered pool label) := by
  unfold Numbered
  split <;> infer_instance

instance (env : Environment) (pool : ProvisioningPool) (label : ProvisioningLabel) :
    Decidable (Apart env pool label) := by
  unfold Apart
  split
  · infer_instance
  · split <;> infer_instance
  · infer_instance

def Together (route : AccountRoute) : Prop :=
  hasProviderData route = true ∨
    route.webId = "" ∧ route.actorId = "" ∧ route.podStorageUrl = "" ∧ route.atprotoDid = none

structure Succeeds (before after : AccountRoute) : Prop where
  accountId : after.accountId = before.accountId
  username : after.username = before.username
  keyHash : after.provisioning.idempotencyKeyHash = before.provisioning.idempotencyKeyHash
  together : Together before → Together after
  data : hasProviderData before = true → after.webId = before.webId ∧
    after.actorId = before.actorId ∧ after.podStorageUrl = before.podStorageUrl ∧
    after.atprotoDid = before.atprotoDid

section Versions
variable {first second third route : AccountRoute}

theorem Succeeds.refl (route : AccountRoute) : Succeeds route route :=
  ⟨rfl, rfl, rfl, fun together => together, fun _ => ⟨rfl, rfl, rfl, rfl⟩⟩

theorem Succeeds.has (next : Succeeds first second) (has : hasProviderData first = true) :
    hasProviderData second = true := by
  obtain ⟨webId, actorId, podStorageUrl, -⟩ := next.data has
  simpa only [hasProviderData, webId, actorId, podStorageUrl] using has

theorem Succeeds.trans (one : Succeeds first second) (two : Succeeds second third) :
    Succeeds first third where
  accountId := two.accountId.trans one.accountId
  username := two.username.trans one.username
  keyHash := two.keyHash.trans one.keyHash
  together start := two.together (one.together start)
  data has := by
    obtain ⟨webId, actorId, podStorageUrl, atprotoDid⟩ := two.data (one.has has)
    obtain ⟨webId', actorId', podStorageUrl', atprotoDid'⟩ := one.data has
    exact ⟨webId.trans webId', actorId.trans actorId', podStorageUrl.trans podStorageUrl',
      atprotoDid.trans atprotoDid'⟩

theorem Succeeds.of_same (accountId : second.accountId = first.accountId)
    (username : second.username = first.username)
    (keyHash : second.provisioning.idempotencyKeyHash = first.provisioning.idempotencyKeyHash)
    (webId : second.webId = first.webId) (actorId : second.actorId = first.actorId)
    (podStorageUrl : second.podStorageUrl = first.podStorageUrl)
    (atprotoDid : second.atprotoDid = first.atprotoDid) : Succeeds first second where
  accountId := accountId
  username := username
  keyHash := keyHash
  together start := by
    unfold Together hasProviderData at start ⊢
    rwa [webId, actorId, podStorageUrl, atprotoDid]
  data _ := ⟨webId, actorId, podStorageUrl, atprotoDid⟩

theorem Succeeds.of_new (accountId : second.accountId = first.accountId)
    (username : second.username = first.username)
    (keyHash : second.provisioning.idempotencyKeyHash = first.provisioning.idempotencyKeyHash)
    (lacks : hasProviderData first = false) (has : hasProviderData second = true) :
    Succeeds first second where
  accountId := accountId
  username := username
  keyHash := keyHash
  together _ := .inl has
  data old := nomatch old.symm.trans lacks

theorem KeepsData.refl (route : AccountRoute) : KeepsData route route :=
  ⟨fun _ => rfl, fun _ => rfl, fun _ => rfl, fun _ => rfl⟩

theorem KeepsData.of_succeeds (together : Together first) (next : Succeeds first second) :
    KeepsData first second := by
  rcases together with has | ⟨webId, actorId, podStorageUrl, atprotoDid⟩
  · obtain ⟨webId, actorId, podStorageUrl, atprotoDid⟩ := next.data has
    exact ⟨fun _ => webId, fun _ => actorId, fun _ => podStorageUrl, fun _ => atprotoDid⟩
  · exact ⟨fun other => absurd webId other, fun other => absurd actorId other,
      fun other => absurd podStorageUrl other, fun other => absurd atprotoDid other⟩

theorem KeepsData.trans (one : KeepsData first second) (two : KeepsData second third) :
    KeepsData first third where
  webId set := (two.webId (one.webId set ▸ set)).trans (one.webId set)
  actorId set := (two.actorId (one.actorId set ▸ set)).trans (one.actorId set)
  podStorageUrl set :=
    (two.podStorageUrl (one.podStorageUrl set ▸ set)).trans (one.podStorageUrl set)
  atprotoDid set := (two.atprotoDid (one.atprotoDid set ▸ set)).trans (one.atprotoDid set)

end Versions

/-- What a process knows about an account it works on: that its id is new, or which route is
stored. -/
inductive Belief where
  | drawn
  | stored (route : AccountRoute)
  deriving DecidableEq

abbrev Beliefs := String → Option Belief

def Beliefs.holding (b : Beliefs) (route : AccountRoute) : Beliefs :=
  Function.update b route.accountId (some (.stored route))

theorem Beliefs.holding_self (b : Beliefs) (route : AccountRoute) :
    b.holding route route.accountId = some (.stored route) :=
  Function.update_self _ _ _

theorem Beliefs.holding_same {b : Beliefs} {route : AccountRoute}
    (known : b route.accountId = some (.stored route)) : b.holding route = b := by
  rw [holding, ← known, Function.update_eq_self]

theorem Beliefs.holding_again {route next : AccountRoute} (b : Beliefs)
    (same : next.accountId = route.accountId) : (b.holding route).holding next = b.holding next := by
  rw [holding, holding, holding, same, Function.update_idem]

def Beliefs.holdingAll (b : Beliefs) (routes : List AccountRoute) : Beliefs := fun key =>
  match routes.find? (·.accountId = key) with
  | some route => some (.stored route)
  | none => b key

def ownRoutes : List String → List (Option AccountRoute) → Bool
  | [], [] => true
  | accountId :: accountIds, route :: routes =>
    route.all (·.accountId = accountId) && ownRoutes accountIds routes
  | _, _ => false

def beliefMonitor (env : Environment) : Monitor Call Reply (Option Beliefs) where
  allows
    | none, _ => True
    | some b, .reserve input =>
      b input.accountId = some .drawn ∧ input.route.accountId = input.accountId ∧
        input.route.username = input.username ∧ Together input.route
    | some b, .save route =>
      ∃ before, b route.accountId = some (.stored before) ∧ before.status ≠ .active ∧
        Succeeds before route
    | some b, .createProviderAccount accountId _ idempotencyKey _ _ =>
      ∃ route, b accountId = some (.stored route) ∧ route.accountId = accountId ∧
        idempotencyKey = buildProviderIdempotencyKey env route
    | some b, .release accountId => (b accountId).isSome
    | some _, _ => True
  after
    | none, _, _ => none
    | some b, .randomUUID, uuid => some (Function.update b ("acct_" ++ uuid) (some .drawn))
    | some b, .reserve input, reply =>
      if reply = .created then some (b.holding input.route) else some b
    | some b, .getReplayed accountId, (route, nowMs) =>
      match route.filter (resumes env nowMs) with
      | some route => if route.accountId = accountId then some (b.holding route) else none
      | none => some b
    | some b, .getByAccountId accountId, reply =>
      match b accountId with
      | some (.stored route) => if reply = some route then some b else none
      | _ => some b
    | some b, .save route, _ => some (b.holding route)
    | some b, .zrangebyscore _ _, accountIds => if accountIds.Nodup then some b else none
    | some b, .mget accountIds beforeMs, routes =>
      if ownRoutes accountIds routes then
        some (b.holdingAll ((routes.filterMap id).filter (isStale beforeMs)))
      else none
    | some b, .release accountId, _ => some (Function.update b accountId none)
    | some b, _, _ => some b

def Known (P : Beliefs → Prop) : Option Beliefs → Prop
  | none => True
  | some b => P b

/-- From these beliefs the program fails only with beliefs of one kind and returns only with
beliefs of another. -/
def Does {α : Type} (env : Environment) (b : Beliefs) (x : Run α) (P : Beliefs → Prop)
    (Q : α → Beliefs → Prop) : Prop :=
  Meets (beliefMonitor env) x (Ends (fun _ => Known P) fun a => Known (Q a)) (some b)

section Rules
variable {env : Environment} {b : Beliefs} {α β : Type} {P : Beliefs → Prop}

variable {x : Run α}

theorem meets_broken {post : Option Beliefs → Except Thrown α → Prop}
    (ends : ∀ outcome, post none outcome) : Meets (beliefMonitor env) x post none := by
  induction x with
  | done outcome => exact ends outcome
  | call c next ih => exact ⟨trivial, ih⟩

variable {Q : α → Beliefs → Prop}

theorem ends_broken (outcome : Except Thrown α) :
    Ends (fun _ => Known P) (fun a => Known (Q a)) none outcome := by
  cases outcome <;> trivial

theorem Does.of_none :
    Meets (beliefMonitor env) x (Ends (fun _ => Known P) fun a => Known (Q a)) none :=
  meets_broken ends_broken

theorem does_pure {a : α} (ends : Q a b) :
    Does env b (pure a : Run α) P Q := ends

theorem does_fail {error : Thrown} (ends : P b) :
    Does env b (.fail error : Run α) P Q := ends

theorem does_done {outcome : Except Thrown α}
    (failed : P b) (ends : ∀ a, outcome = .ok a → Q a b) : Does env b (.done outcome) P Q :=
  ends_done (fun _ _ => failed) ends

theorem does_bind {f : α → Run β} {Q' : β → Beliefs → Prop}
    (first : Does env b x P Q) (second : ∀ a b', Q a b' → Does env b' (f a) P Q') :
    Does env b (x >>= f) P Q' := by
  apply ends_bind first
  intro a t known
  cases t with
  | none => exact Does.of_none
  | some b' => exact second a b' known

theorem Does.imp {P' : Beliefs → Prop} {Q' : α → Beliefs → Prop}
    (does : Does env b x P Q) (failing : ∀ b', P b' → P' b')
    (returning : ∀ a b', Q a b' → Q' a b') : Does env b x P' Q' := by
  apply Meets.imp does
  intro t outcome ended
  cases t with
  | none => exact ends_broken outcome
  | some b' =>
    cases outcome with
    | ok a => exact returning a b' ended
    | error e => exact failing b' ended

theorem does_attempt {Q : Except Thrown α → Beliefs → Prop}
    (body : Does env b x (fun b' => ∀ e, Q (.error e) b') fun a => Q (.ok a)) :
    Does env b (x.attempt : Run (Except Thrown α)) P Q := by
  unfold Does
  rw [meets_attempt]
  apply Meets.imp body
  intro t outcome ended
  cases t with
  | none => trivial
  | some b' =>
    cases outcome with
    | ok a => exact ended
    | error e => exact ended e

theorem does_rescue {handler : Thrown → Run α} {F : Beliefs → Prop}
    (body : Does env b x F Q)
    (handled : ∀ e b', F b' → Does env b' (handler e) P Q) :
    Does env b (x.rescue handler) P Q := by
  unfold Does
  rw [meets_rescue]
  apply Meets.imp body
  intro t outcome ended
  cases outcome with
  | ok a => exact ended
  | error e =>
    cases t with
    | none => exact Does.of_none
    | some b' => exact handled e b' ended

end Rules

def Stored (b : Beliefs) (route next : AccountRoute) (b' : Beliefs) : Prop :=
  Succeeds route next ∧ next.status ≠ .active ∧ b' = b.holding next

def Onward (b : Beliefs) (route : AccountRoute) (b' : Beliefs) : Prop :=
  ∃ next, Stored b route next b'

section Programs
variable {env : Environment} {b : Beliefs} {route before : AccountRoute}

theorem Stored.self (unfinished : route.status ≠ .active) :
    Stored b route route (b.holding route) :=
  ⟨.refl route, unfinished, rfl⟩

theorem Stored.trans {next : AccountRoute} {b' : Beliefs} (one : Succeeds before route)
    (two : Stored b route next b') : Stored b before next b' :=
  ⟨one.trans two.1, two.2⟩

theorem Onward.self (unfinished : route.status ≠ .active) : Onward b route (b.holding route) :=
  ⟨route, .self unfinished⟩

theorem Onward.trans {b' : Beliefs} (one : Succeeds before route) (two : Onward b route b') :
    Onward b before b' := by
  obtain ⟨next, stored⟩ := two
  exact ⟨next, stored.trans one⟩

variable {α : Type} {f : Option AccountRoute → Run α} {P : Beliefs → Prop} {Q : α → Beliefs → Prop}

theorem read_spec (next : Does env (b.holding route) (f (some route)) P Q) :
    Does env (b.holding route) (ask (.getByAccountId route.accountId) >>= f) P Q := by
  refine ⟨trivial, fun reply => ?_⟩
  change Meets (beliefMonitor env) (f reply) _ _
  simp only [beliefMonitor, Beliefs.holding_self]
  split
  next same =>
    rw [same]
    exact next
  next => exact Does.of_none

theorem save_spec {f : Unit → Run α} {updated : AccountRoute} (unfinished : route.status ≠ .active)
    (later : Succeeds route updated) (next : Does env (b.holding updated) (f ()) P Q) :
    Does env (b.holding route) (ask (.save updated) >>= f) P Q := by
  refine ⟨⟨route, ?_, unfinished, later⟩, fun _ => ?_⟩
  · rw [later.accountId]
    exact b.holding_self route
  · change Meets (beliefMonitor env) (f ()) _ (some ((b.holding route).holding updated))
    rw [b.holding_again later.accountId]
    exact next

variable {accountId : String}

theorem updateRoute_spec {patch : AccountRoute → AccountRoute}
    (own : route.accountId = accountId) (unfinished : route.status ≠ .active)
    (later : ∀ now, Succeeds route { patch route with updatedAt := now }) {P : Beliefs → Prop} :
    Does env (b.holding route) (updateRoute accountId patch) P fun updated b' =>
      b' = b.holding updated ∧ ∃ now, updated = { patch route with updatedAt := now } := by
  subst own
  apply read_spec
  refine ⟨trivial, fun now => ?_⟩
  apply save_spec unfinished (later now)
  exact ⟨rfl, now, rfl⟩

theorem markFailed_spec (own : route.accountId = accountId)
    (unfinished : route.status ≠ .active) (error : Thrown) :
    Does env (b.holding route) (markFailed accountId error) P fun _ => Onward b route := by
  subst own
  apply read_spec
  refine ⟨trivial, fun now => ?_⟩
  have later : Succeeds route { route with
      status := .failed
      provisioning := { route.provisioning with
        phase := .failed
        lastErrorCode := some (error.code "entryway_provisioning_failed")
        lastErrorMessage := some error.sanitized }
      updatedAt := now } := .of_same rfl rfl rfl rfl rfl rfl rfl
  apply save_spec unfinished later
  exact ⟨_, later, by simp, rfl⟩

theorem tryAsk_spec {c : Call} {reply : Reply c → Except Thrown α}
    (allowed : (beliefMonitor env).allows (some b) c)
    (stays : ∀ r, (beliefMonitor env).after (some b) c r = some b) (failed : P b) :
    Does env b (tryAsk c reply) P fun _ b' => b' = b := by
  refine ⟨allowed, fun r => ?_⟩
  rw [stays r]
  exact ends_done (fun _ _ => failed) fun _ _ => rfl

variable {first : AccountRoute}

theorem selectProvider_spec (started : Succeeds first route)
    (unfinished : route.status ≠ .active) (provider : ProviderDefinition)
    (protocols : ProtocolSet) :
    Does env (b.holding route) (selectProvider env first provider protocols) (Onward b route)
      fun _ => Onward b route := by
  unfold selectProvider
  have checked : Does env (b.holding route) (preflight env provider protocols) (Onward b route)
      fun _ b' => b' = b.holding route := by
    unfold preflight
    split
    · exact tryAsk_spec trivial (fun _ => rfl) (.self unfinished)
    · exact does_pure rfl
  apply does_bind checked
  rintro checks _ rfl
  rw [← started.accountId]
  apply read_spec
  have later : ∀ now, Succeeds route { route with
      providerId := provider.providerId
      providerBaseUrl := provider.baseUrl
      oidcIssuer := provider.baseUrl
      provisioning := { route.provisioning with
        phase := .providerSelected
        checks := mergeChecks env route.provisioning.checks checks }
      updatedAt := now } := fun now => .of_same rfl rfl rfl rfl rfl rfl rfl
  apply does_bind (updateRoute_spec rfl unfinished later)
  rintro updated _ ⟨rfl, now, rfl⟩
  exact does_pure ⟨_, later now, unfinished, rfl⟩

variable (input : CreateInput)

theorem tryProviders_spec (protocols : ProtocolSet)
    (single : Bool) (providers : List ProviderDefinition) (errors : List EntrywayError)
    (started : Succeeds first route) (unfinished : route.status ≠ .active) :
    Does env (b.holding route) (tryProviders env first input protocols single errors providers)
      (Onward b route) fun _ => Onward b route := by
  induction providers generalizing errors route with
  | nil => exact does_fail (.self unfinished)
  | cons provider rest ih =>
    unfold tryProviders
    split
    · exact ih errors started unfinished
    · split
      · dsimp only
        split
        · exact does_fail (.self unfinished)
        · exact ih _ started unfinished
      · apply does_rescue (selectProvider_spec started unfinished provider protocols)
        rintro e _ ⟨next, later, still, rfl⟩
        dsimp only
        split
        · exact does_fail ⟨next, later, still, rfl⟩
        · apply (ih _ (started.trans later) still).imp
          · exact fun _ onward => onward.trans later
          · exact fun _ _ onward => onward.trans later

theorem existingProvider_spec : Does env b (existingProvider first) P fun _ b' => b' = b := by
  unfold existingProvider
  split
  · exact does_pure rfl
  · exact ⟨trivial, fun _ => rfl⟩

theorem resolveProvider_spec (protocols : ProtocolSet)
    (started : Succeeds first route) (unfinished : route.status ≠ .active) :
    Does env (b.holding route) (resolveProvider env first input protocols)
      (Onward b route) fun _ => Onward b route := by
  unfold resolveProvider
  apply does_bind existingProvider_spec
  rintro existing _ rfl
  have candidates : Does env (b.holding route)
      (candidateProviders first input protocols existing) (Onward b route)
      fun _ b' => b' = b.holding route := by
    cases existing with
    | some provider => exact does_pure rfl
    | none => exact tryAsk_spec trivial (fun _ => rfl) (.self unfinished)
  apply does_bind candidates
  rintro listed _ rfl
  split
  · exact does_fail (.self unfinished)
  · exact tryProviders_spec input protocols _ listed [] started unfinished

theorem getString_ne_empty {value : Option Json} {text : String}
    (found : getString value = some text) : text ≠ "" := by
  unfold getString at found
  split at found
  · split at found
    · nomatch found
    · rename_i unblank
      cases found
      exact unblank
  · nomatch found

theorem orElse_ne_empty {first second : Option Json} {text : String}
    (found : ((getString first).orElse fun _ => getString second) = some text) : text ≠ "" := by
  cases own : getString first with
  | some value =>
    rw [own] at found
    cases found
    exact getString_ne_empty own
  | none =>
    rw [own] at found
    exact getString_ne_empty found

/-- An answer that is accepted gives all of the provider data and changes nothing an account is
known by. -/
theorem mapProviderResultToRoute_spec {provider : ProviderDefinition} {result : Json}
    {updates : AccountRoute → AccountRoute}
    (accepted : mapProviderResultToRoute provider result = .ok updates) (current : AccountRoute) :
    (updates current).accountId = current.accountId ∧
      (updates current).username = current.username ∧
      (updates current).status = current.status ∧ hasProviderData (updates current) = true := by
  unfold mapProviderResultToRoute at accepted
  dsimp only at accepted
  split at accepted
  next canonicalAccountId webId actorId podStorageUrl _ hasWebId hasActorId hasPod =>
    cases accepted
    refine ⟨rfl, rfl, rfl, ?_⟩
    have webIdSet := orElse_ne_empty hasWebId
    have actorIdSet := getString_ne_empty hasActorId
    have podSet := orElse_ne_empty hasPod
    simp [hasProviderData, webIdSet, actorIdSet, podSet]
  next => nomatch accepted

theorem buildProviderIdempotencyKey_succeeds (later : Succeeds before route) :
    buildProviderIdempotencyKey env route = buildProviderIdempotencyKey env before := by
  simp [buildProviderIdempotencyKey, later.accountId, later.keyHash]

variable (provider : ProviderDefinition)

theorem ensureProviderAccount_spec (input : CreateInput) (protocols : ProtocolSet) (started : Succeeds first route)
    (unfinished : route.status ≠ .active) :
    Does env (b.holding route) (ensureProviderAccount env first provider input protocols)
      (Onward b route) (Stored b route) := by
  unfold ensureProviderAccount
  rw [← started.accountId]
  apply read_spec
  by_cases has : hasProviderData route = true
  · simp only [Option.filter_some, has, if_true]
    exact does_pure (.self unfinished)
  · simp only [Option.filter_some, has]
    have asked : (beliefMonitor env).allows (some (b.holding route)) (.createProviderAccount
        route.accountId provider (buildProviderIdempotencyKey env first) input protocols) :=
      ⟨route, b.holding_self route, rfl, (buildProviderIdempotencyKey_succeeds started).symm⟩
    apply does_bind (tryAsk_spec asked (fun _ => rfl) (.self unfinished))
    rintro result _ rfl
    apply does_bind (Q := fun updates b' => b' = b.holding route ∧
      mapProviderResultToRoute provider result = .ok updates)
    · exact does_done (.self unfinished) fun _ accepted => ⟨rfl, accepted⟩
    · rintro updates _ ⟨rfl, accepted⟩
      obtain ⟨accountId, username, status, data⟩ := mapProviderResultToRoute_spec accepted route
      have later : ∀ now, Succeeds route { updates route with
          provisioning := { route.provisioning with phase := .podAccountCreated }
          updatedAt := now } := fun now =>
        .of_new accountId username rfl (by simpa using has) data
      apply (updateRoute_spec rfl unfinished later).imp (fun _ onward => onward)
      rintro updated _ ⟨rfl, now, rfl⟩
      exact ⟨later now, status ▸ unfinished, rfl⟩

theorem verifyAccountBundle_spec (unfinished : route.status ≠ .active) :
    Does env (b.holding route) (verifyAccountBundle env route) (Onward b route)
      (Stored b route) := by
  unfold verifyAccountBundle
  have found : ∀ now, Succeeds route { route with
      provisioning := { route.provisioning with phase := .webIdDiscovered }
      updatedAt := now } := fun now => .of_same rfl rfl rfl rfl rfl rfl rfl
  apply does_bind (updateRoute_spec rfl unfinished found)
  rintro discovered _ ⟨rfl, now, same⟩
  have first : Succeeds route discovered := same ▸ found now
  have still : discovered.status ≠ .active := by
    rw [same]
    exact unfinished
  refine ⟨trivial, fun verification => ?_⟩
  have checking : ∀ now, Succeeds discovered { applyUpdates discovered verification.routeUpdates with
      provisioning := { discovered.provisioning with
        phase := if verification.passed then .actorValidated else .failed
        checks := mergeChecks env discovered.provisioning.checks verification.checks
        lastErrorCode := if verification.passed then none else some "bundle_verification_failed"
        lastErrorMessage :=
          if verification.passed then none else some "Account bundle verification failed" }
      updatedAt := now } := by
    intro now
    cases verification.routeUpdates <;> exact .of_same rfl rfl rfl rfl rfl rfl rfl
  apply does_bind (updateRoute_spec rfl still checking)
  rintro checked b' ⟨written, later, asked⟩
  have stored : Stored b route checked b' := by
    refine ⟨first.trans (asked ▸ checking later), ?_, written⟩
    rw [asked]
    cases verification.routeUpdates <;> exact still
  split
  · exact does_pure stored
  · exact does_fail ⟨checked, stored⟩

theorem bootstrapApp_spec (unfinished : route.status ≠ .active) :
    Does env (b.holding route) (bootstrapApp route provider) (· = b.holding route)
      fun result => Stored b route result.1 := by
  have asked : Does env (b.holding route) (tryAsk (.bootstrap provider route) id)
      (· = b.holding route) fun _ b' => b' = b.holding route :=
    tryAsk_spec trivial (fun _ => rfl) rfl
  apply does_bind asked
  rintro result _ rfl
  have later : ∀ now, Succeeds route { route with
      appBootstrap := some result.snapshot
      provisioning := { route.provisioning with
        phase := if result.sessionHandoff.isSome then .sessionReady else .appBootstrapReady }
      updatedAt := now } := fun now => .of_same rfl rfl rfl rfl rfl rfl rfl
  apply does_bind (updateRoute_spec rfl unfinished later)
  rintro updated _ ⟨rfl, now, rfl⟩
  exact does_pure ⟨later now, unfinished, rfl⟩

theorem noteBootstrapFailure_spec (thrown : Thrown) (unfinished : route.status ≠ .active) :
    Does env (b.holding route) (noteBootstrapFailure route provider thrown) P (Stored b route) := by
  apply (updateRoute_spec rfl unfinished fun now => .of_same rfl rfl rfl rfl rfl rfl rfl).imp
    (fun _ onward => onward)
  rintro updated b' ⟨written, now, asked⟩
  have later : Succeeds route updated := by
    rw [asked]
    exact .of_same rfl rfl rfl rfl rfl rfl rfl
  exact ⟨later, by rw [asked]; exact unfinished, written⟩

theorem bootstrapAppIfConfigured_spec (unfinished : route.status ≠ .active) :
    Does env (b.holding route) (bootstrapAppIfConfigured env route provider) (Onward b route)
      fun result => Stored b route result.1 := by
  unfold bootstrapAppIfConfigured
  split
  · exact does_pure (.self unfinished)
  split
  · exact does_pure (.self unfinished)
  apply does_rescue (bootstrapApp_spec provider unfinished)
  rintro thrown _ rfl
  apply does_bind (noteBootstrapFailure_spec provider thrown unfinished)
  exact fun updated _ stored => does_fail ⟨updated, stored⟩

theorem activateRoute_spec (unfinished : route.status ≠ .active) :
    Does env (b.holding route) (activateRoute route) P fun updated b' =>
      updated.accountId = route.accountId ∧ b' = b.holding updated := by
  refine ⟨trivial, fun completedAt => ?_⟩
  have later : ∀ now, Succeeds route { route with
      status := .active
      provisioning := { route.provisioning with phase := .active, completedAt := some completedAt }
      updatedAt := now } := fun now => .of_same rfl rfl rfl rfl rfl rfl rfl
  apply (updateRoute_spec rfl unfinished later).imp (fun _ onward => onward)
  rintro updated _ ⟨rfl, now, rfl⟩
  exact ⟨rfl, rfl⟩

theorem release_spec {f : Unit → Run α} (own : route.accountId = accountId)
    (next : Does env (Function.update b accountId none) (f ()) P Q) :
    Does env (b.holding route) (ask (.release accountId) >>= f) P Q := by
  subst own
  refine ⟨?_, fun _ => ?_⟩
  · change ((b.holding route) route.accountId).isSome
    rw [b.holding_self]
    rfl
  · change Meets (beliefMonitor env) (f ()) _ (some (Function.update (b.holding route) _ none))
    rw [Beliefs.holding, Function.update_idem]
    exact next

theorem provision_spec (unfinished : route.status ≠ .active) (normalized : CreateInput)
    (protocols : ProtocolSet) (now : Nat) (replayed : Bool) :
    Does env (b.holding route) (provision env route normalized protocols now replayed)
      (fun _ => True) fun _ _ => True := by
  have first : Succeeds route (startAttempt route now) := .of_same rfl rfl rfl rfl rfl rfl rfl
  have still : (startAttempt route now).status ≠ .active := by simp [startAttempt]
  apply save_spec unfinished first
  apply does_rescue (F := Onward b (startAttempt route now)) (Q := fun _ _ => True)
  · apply does_bind (resolveProvider_spec normalized protocols (.refl _) still)
    rintro provider _ ⟨selected, one, open₁, rfl⟩
    apply does_bind ((ensureProviderAccount_spec provider normalized protocols one open₁).imp
      (fun _ onward => onward.trans one) fun _ _ stored => stored.trans one)
    rintro backed _ ⟨two, open₂, rfl⟩
    apply does_bind ((verifyAccountBundle_spec open₂).imp
      (fun _ onward => onward.trans two) fun _ _ stored => stored.trans two)
    rintro verified _ ⟨three, open₃, rfl⟩
    apply does_bind ((bootstrapAppIfConfigured_spec provider open₃).imp
      (fun _ onward => onward.trans three) fun _ _ stored => stored.trans three)
    rintro ⟨bootstrapped, sessionHandoff⟩ _ ⟨four, open₄, rfl⟩
    apply does_bind (activateRoute_spec open₄)
    rintro active _ ⟨own, rfl⟩
    exact release_spec (own.trans four.accountId) (does_pure trivial)
  · rintro thrown _ ⟨last, later, unfinishedStill, rfl⟩
    apply does_bind (markFailed_spec later.accountId unfinishedStill thrown)
    rintro _ _ ⟨failed, after, -, rfl⟩
    apply release_spec (after.accountId.trans later.accountId)
    split
    · exact does_fail trivial
    · exact does_fail trivial

theorem normalizeUsername_spec (value : String) :
    Does env b (normalizeUsername env value) (fun _ => True) fun _ b' => b' = b := by
  unfold normalizeUsername
  dsimp only
  split
  · exact does_pure rfl
  · exact does_fail trivial

theorem normalizeIdempotencyKey_spec (value : String) :
    Does env b (normalizeIdempotencyKey value) (fun _ => True) fun _ b' => b' = b := by
  unfold normalizeIdempotencyKey
  dsimp only
  split
  · exact does_pure rfl
  · exact does_fail trivial

theorem normalizeCreateInput_spec :
    Does env b (normalizeCreateInput env input) (fun _ => True) fun _ b' => b' = b := by
  unfold normalizeCreateInput
  refine does_bind (normalizeUsername_spec input.username) ?_
  rintro username _ rfl
  refine does_bind (normalizeIdempotencyKey_spec input.idempotencyKey) ?_
  rintro idempotencyKey _ rfl
  exact does_pure rfl

theorem look_spec (next : ∀ found, Does env b (f found) P Q) :
    Does env b (ask (.getByAccountId accountId) >>= f) P Q := by
  refine ⟨trivial, fun found => ?_⟩
  change Meets (beliefMonitor env) (f found) _ _
  simp only [beliefMonitor]
  split
  · split
    · exact next found
    · exact Does.of_none
  · exact next found

theorem replayed_spec {f : Option AccountRoute × Nat → Run α}
    (taken : ∀ route nowMs, resumes env nowMs route = true →
      Does env (b.holding route) (f (some route, nowMs)) P Q)
    (left : ∀ found nowMs, found.filter (resumes env nowMs) = none →
      Does env b (f (found, nowMs)) P Q) : Does env b (ask (.getReplayed accountId) >>= f) P Q := by
  refine ⟨trivial, fun (found, nowMs) => ?_⟩
  change Meets (beliefMonitor env) (f (found, nowMs)) _ _
  simp only [beliefMonitor]
  split
  next route resumed =>
    rw [Option.filter_eq_some_iff] at resumed
    obtain ⟨rfl, resumed⟩ := resumed
    split
    · exact taken route nowMs resumed
    · exact Does.of_none
  next kept => exact left found nowMs kept

theorem unfinished_of_resumes {nowMs : Nat} (resumed : resumes env nowMs route = true) :
    route.status ≠ .active := by
  unfold resumes at resumed
  rw [Bool.and_eq_true] at resumed
  exact of_decide_eq_true resumed.1

theorem createAccount_spec :
    Does env b (createAccount env input) (fun _ => True) fun _ _ => True := by
  unfold createAccount
  refine does_bind (normalizeCreateInput_spec input) ?_
  rintro normalized _ rfl
  refine ⟨trivial, fun now => ⟨trivial, fun uuid => ?_⟩⟩
  refine ⟨⟨Function.update_self _ _ _, rfl, rfl, .inr ⟨rfl, rfl, rfl, rfl⟩⟩, fun reservation => ?_⟩
  cases reservation with
  | created => exact provision_spec (by simp [buildInitialRoute]) _ _ _ _
  | replayed existingAccountId =>
    apply replayed_spec
    · intro route nowMs resumed
      simp only [resumed, if_true]
      exact provision_spec (unfinished_of_resumes resumed) _ _ _ _
    · intro found nowMs kept
      cases found with
      | none => exact does_fail trivial
      | some route =>
        have passed : resumes env nowMs route = false := by simpa using kept
        simp only [passed, Bool.false_eq_true, if_false]
        split
        · exact does_pure trivial
        · exact does_fail trivial
  | usernameTaken existingAccountId =>
    apply look_spec
    intro found
    cases found <;> exact does_fail trivial
  | idempotencyConflict existingAccountId =>
    apply look_spec
    exact fun _ => does_fail trivial

theorem recoverRoute_spec (unfinished : route.status ≠ .active) :
    Does env (b.holding route) (recoverRoute env route) (Onward b route) fun active b' =>
      active.accountId = route.accountId ∧ b' = b.holding active := by
  apply does_bind existingProvider_spec
  rintro provider _ rfl
  apply does_bind (verifyAccountBundle_spec unfinished)
  rintro verified _ ⟨one, open₁, rfl⟩
  have bootstrapped : Does env (b.holding verified) (bootstrapWith env verified provider)
      (Onward b route) fun result => Stored b route result.1 := by
    cases provider with
    | none => exact does_pure ((Stored.self open₁).trans one)
    | some provider =>
      exact (bootstrapAppIfConfigured_spec provider open₁).imp
        (fun _ onward => onward.trans one) fun _ _ stored => stored.trans one
  apply does_bind bootstrapped
  rintro result _ ⟨two, open₂, rfl⟩
  apply (activateRoute_spec open₂).imp (fun _ onward => onward)
  rintro active _ ⟨own, rfl⟩
  exact ⟨own.trans two.accountId, rfl⟩

structure Taken (b : Beliefs) (routes : List AccountRoute) : Prop where
  nodup : (routes.map (·.accountId)).Nodup
  known : ∀ route ∈ routes, b route.accountId = some (.stored route)
  unfinished : ∀ route ∈ routes, route.status ≠ .active

variable {routes : List AccountRoute}

theorem Taken.tail (taken : Taken b (route :: routes)) :
    Taken (Function.update b route.accountId none) routes where
  nodup := (List.nodup_cons.mp taken.nodup).2
  known other listed := by
    have apart : other.accountId ≠ route.accountId := fun same =>
      (List.nodup_cons.mp taken.nodup).1 (List.mem_map.mpr ⟨other, listed, same⟩)
    rw [Function.update_of_ne apart]
    exact taken.known other (List.mem_cons_of_mem _ listed)
  unfinished other listed := taken.unfinished other (List.mem_cons_of_mem _ listed)

theorem Taken.perm {others : List AccountRoute} (taken : Taken b routes)
    (same : others.Perm routes) : Taken b others where
  nodup := (same.map _).nodup_iff.mpr taken.nodup
  known route listed := taken.known route (same.mem_iff.mp listed)
  unfinished route listed := taken.unfinished route (same.mem_iff.mp listed)

theorem Taken.head (taken : Taken b (route :: routes)) :
    b.holding route = b :=
  Beliefs.holding_same (taken.known route List.mem_cons_self)

def Attempted (b : Beliefs) (route : AccountRoute) :
    Except Thrown AccountRoute → Beliefs → Prop
  | .ok active, b' => active.accountId = route.accountId ∧ b' = b.holding active
  | .error _, b' => Onward b route b'

theorem recoverAll_spec (taken : Taken b routes)
    (counts : RecoveryCounts) :
    Does env b (recoverAll env counts routes) (fun _ => True) fun _ _ => True := by
  induction routes generalizing b counts with
  | nil => exact does_pure trivial
  | cons route rest ih =>
    rw [← taken.head]
    unfold recoverAll
    split
    · exact release_spec rfl (ih taken.tail _)
    · apply does_bind (Q := Attempted b route)
      · apply does_attempt
        exact (recoverRoute_spec (taken.unfinished route List.mem_cons_self)).imp
          (fun _ onward _ => onward) fun _ _ activated => activated
      · intro outcome b' ended
        cases outcome with
        | ok active =>
          obtain ⟨own, rfl⟩ := ended
          exact release_spec own (ih taken.tail _)
        | error thrown =>
          obtain ⟨last, later, still, rfl⟩ := ended
          apply does_bind (markFailed_spec later.accountId still thrown)
          rintro _ _ ⟨failed, after, -, rfl⟩
          exact release_spec (after.accountId.trans later.accountId) (ih taken.tail _)

theorem releaseAll_spec {kept : List AccountRoute} (taken : Taken b (routes ++ kept)) :
    Does env b (releaseAll routes) (fun _ => True) fun _ b' => Taken b' kept := by
  induction routes generalizing b with
  | nil => exact does_pure taken
  | cons route rest ih =>
    rw [← taken.head]
    exact release_spec rfl (ih taken.tail)

theorem ownRoutes_ids : ∀ {accountIds : List String} {routes : List (Option AccountRoute)},
    ownRoutes accountIds routes = true →
    ((routes.filterMap id).map (·.accountId)).Sublist accountIds
  | [], [], _ => List.Sublist.slnil
  | [], _ :: _, own => nomatch own
  | _ :: _, [], own => nomatch own
  | accountId :: accountIds, none :: routes, own => by
    have others : ownRoutes accountIds routes = true := by simpa [ownRoutes] using own
    rw [List.filterMap_cons_none rfl]
    exact (ownRoutes_ids others).cons accountId
  | accountId :: accountIds, some route :: routes, own => by
    simp only [ownRoutes, Option.all_some, Bool.and_eq_true, decide_eq_true_eq] at own
    obtain ⟨rfl, others⟩ := own
    exact (ownRoutes_ids others).cons_cons _

theorem holdingAll_of_mem (listed : route ∈ routes)
    (nodup : (routes.map (·.accountId)).Nodup) :
    b.holdingAll routes route.accountId = some (.stored route) := by
  unfold Beliefs.holdingAll
  cases found : routes.find? (·.accountId = route.accountId) with
  | none =>
    have absent := List.find?_eq_none.mp found route listed
    simp at absent
  | some other =>
    have same : other.accountId = route.accountId := by simpa using List.find?_some found
    have equal : other = route :=
      List.inj_on_of_nodup_map nodup (List.mem_of_find?_eq_some found) listed same
    rw [equal]

theorem holdingAll_of_not_mem {key : String}
    (absent : key ∉ routes.map (·.accountId)) : b.holdingAll routes key = b key := by
  unfold Beliefs.holdingAll
  have none : routes.find? (·.accountId = key) = none := by
    rw [List.find?_eq_none]
    intro other listed same
    exact absent (List.mem_map.mpr ⟨other, listed, by simpa using same⟩)
  rw [none]

theorem loadRoutes_spec {beforeMs : Nat} {batchList : List (List String)}
    (nodup : batchList.flatten.Nodup) :
    Does env b (loadRoutesByAccountIds beforeMs batchList) (fun _ => True) fun routes b' =>
      (∀ key, key ∉ batchList.flatten → b' key = b key) ∧
        ((routes.filterMap id).map (·.accountId)).Sublist batchList.flatten ∧
        ∀ route ∈ (routes.filterMap id).filter (isStale beforeMs),
          b' route.accountId = some (.stored route) := by
  induction batchList generalizing b with
  | nil => exact does_pure ⟨fun _ _ => rfl, List.Sublist.slnil, fun _ none => nomatch none⟩
  | cons batch rest ih =>
    rw [List.flatten_cons, List.nodup_append] at nodup
    obtain ⟨own, later, apart⟩ := nodup
    refine ⟨trivial, fun found => ?_⟩
    change Meets (beliefMonitor env)
      (loadRoutesByAccountIds beforeMs rest >>= fun others => pure (found ++ others)) _
      (if ownRoutes batch found then some _ else none)
    split
    next matching =>
      have ids := ownRoutes_ids matching
      have staleIds : (((found.filterMap id).filter (isStale beforeMs)).map
          (·.accountId)).Sublist batch := (List.filter_sublist.map _).trans ids
      refine does_bind (ih later) ?_
      rintro others b' ⟨kept, restIds, known⟩
      refine does_pure ⟨?_, ?_, ?_⟩
      · intro key absent
        rw [List.flatten_cons, List.mem_append, not_or] at absent
        rw [kept key absent.2]
        exact holdingAll_of_not_mem fun listed => absent.1 (staleIds.subset listed)
      · rw [List.filterMap_append, List.map_append, List.flatten_cons]
        exact ids.append restIds
      · intro route listed
        rw [List.filterMap_append, List.filter_append, List.mem_append] at listed
        rcases listed with here | there
        · have inside : route.accountId ∈ batch :=
            staleIds.subset (List.mem_map_of_mem here)
          rw [kept _ fun other => apart _ inside _ other rfl]
          exact holdingAll_of_mem here (staleIds.nodup own)
        · exact known route there
    next => exact Does.of_none

theorem ask_spec {c : Call} {f : Reply c → Run α} (allowed : (beliefMonitor env).allows (some b) c)
    (stays : ∀ reply, (beliefMonitor env).after (some b) c reply = some b)
    (next : ∀ reply, Does env b (f reply) P Q) : Does env b (ask c >>= f) P Q := by
  refine ⟨allowed, fun reply => ?_⟩
  rw [stays reply]
  exact next reply

theorem window_spec {f : List String → Run α} {beforeMs count : Nat}
    (next : ∀ accountIds, accountIds.Nodup → Does env b (f accountIds) P Q) :
    Does env b (ask (.zrangebyscore beforeMs count) >>= f) P Q := by
  refine ⟨trivial, fun accountIds => ?_⟩
  change Meets (beliefMonitor env) (f accountIds) _ (if accountIds.Nodup then some b else none)
  split
  next nodup => exact next accountIds nodup
  next => exact Does.of_none

theorem listStaleProvisioning_spec (beforeMs : Nat) (limit : Option Int) :
    Does env b (listStaleProvisioning beforeMs limit) (fun _ => True) fun stale b' =>
      Taken b' stale := by
  apply window_spec
  intro accountIds nodup
  have whole : (batches staleRouteMgetBatchSize accountIds.length accountIds).flatten =
      accountIds := flatten_batches (by decide) _ _ (le_refl _)
  refine does_bind (loadRoutes_spec (by rw [whole]; exact nodup)) ?_
  rintro routes b' ⟨-, ids, known⟩
  rw [whole] at ids
  have sorted : (staleRoutes beforeMs (routes.filterMap id)).Perm
      ((routes.filterMap id).filter (isStale beforeMs)) := List.mergeSort_perm _ _
  have taken : Taken b' (staleRoutes beforeMs (routes.filterMap id)) := by
    refine ⟨?_, ?_, ?_⟩
    · rw [(sorted.map _).nodup_iff]
      exact ((List.filter_sublist.map _).trans ids).nodup nodup
    · exact fun route listed => known route (sorted.mem_iff.mp listed)
    · intro route listed active
      have stale := (List.mem_filter.mp (sorted.mem_iff.mp listed)).2
      simp [isStale, active] at stale
  have turned : ((staleRoutes beforeMs (routes.filterMap id)).drop (clampLimit limit) ++
      (staleRoutes beforeMs (routes.filterMap id)).take (clampLimit limit)).Perm
      (staleRoutes beforeMs (routes.filterMap id)) := by
    apply List.perm_append_comm.trans
    rw [List.take_append_drop]
  refine does_bind (releaseAll_spec (taken.perm turned)) ?_
  intro _ _ kept
  exact does_pure kept

theorem recoverStaleProvisioning_spec (limit : Option Int) :
    Does env b (recoverStaleProvisioning env limit) (fun _ => True) fun _ _ => True := by
  refine ask_spec (c := .now) trivial (fun _ => rfl) fun now => ?_
  refine does_bind (listStaleProvisioning_spec _ limit) ?_
  intro stale b' taken
  exact recoverAll_spec taken _

theorem task_obeys (task : Task) (b : Beliefs) :
    Obeys (beliefMonitor env) (task.program env) (some b) := by
  have whole : Does env b (task.program env) (fun _ => True) fun _ _ => True := by
    cases task with
    | create input =>
      refine does_bind (createAccount_spec input) ?_
      exact fun _ _ _ => does_pure trivial
    | recover limit =>
      refine does_bind (recoverStaleProvisioning_spec limit) ?_
      exact fun _ _ _ => does_pure trivial
  exact Meets.imp whole fun _ _ _ => trivial

end Programs

structure Consistent (env : Environment) (w : World) : Prop where
  own : ∀ accountId route, w.store.routes accountId = some route → route.accountId = accountId
  username : ∀ accountId route, w.store.routes accountId = some route →
    w.store.usernames (normalizeUsernameKey env.toLowerCase route.username) = some accountId
  issued : ∀ accountId route, w.store.routes accountId = some route → accountId ∈ w.issued
  together : ∀ accountId route, w.store.routes accountId = some route → Together route
  requested : ∀ accountId key, (accountId, key) ∈ w.requests →
    ∃ route, w.store.routes accountId = some route ∧
      key = buildProviderIdempotencyKey env route

def Holds (w : World) (accountId : String) : Belief → Prop
  | .drawn => accountId ∈ w.issued ∧ w.store.routes accountId = none
  | .stored route => w.store.routes accountId = some route

structure Working (env : Environment) (w : World) (duties : Nat → Option (Nat × Option Beliefs)) :
    Prop where
  consistent : Consistent env w
  worker : ∀ i tag s, duties i = some (tag, s) → tag = i ∧ ∃ b, s = some b ∧
    ∀ accountId belief, b accountId = some belief →
      w.working accountId = some i ∧ Holds w accountId belief

section Store
variable {env : Environment} {w after : World} {b b' : Beliefs} {i : Nat}
  {duties : Nat → Option (Nat × Option Beliefs)}

theorem Consistent.distinct (consistent : Consistent env w) : Distinct env w where
  username accountId other route otherRoute found foundOther same := by
    have here := consistent.username accountId route found
    rw [same, consistent.username other otherRoute foundOther] at here
    exact (Option.some.inj here).symm
  key accountId key other first second := by
    obtain ⟨route, found, rfl⟩ := consistent.requested accountId key first
    obtain ⟨_, again, rfl⟩ := consistent.requested accountId other second
    rw [found] at again
    cases again
    rfl

theorem Holds.known (consistent : Consistent env w) {accountId : String} {belief : Belief}
    (holds : Holds w accountId belief) : accountId ∈ w.issued := by
  cases belief with
  | drawn => exact holds.1
  | stored route => exact consistent.issued accountId route holds

theorem Lasting.refl (w : World) : Lasting w w :=
  ⟨fun _ _ found => found, fun _ route found => ⟨route, found, .refl route, fun active => active⟩⟩

theorem Lasting.of_store (same : after.store = w.store) : Lasting w after := by
  constructor
  · intro key accountId found
    rw [same]
    exact found
  · intro accountId route found
    rw [same]
    exact ⟨route, found, .refl route, fun active => active⟩

theorem Lasting.trans {later : World} (one : Lasting w after) (two : Lasting after later) :
    Lasting w later := by
  constructor
  · exact fun key accountId found => two.usernames key accountId (one.usernames key accountId found)
  · intro accountId route found
    obtain ⟨next, there, kept, active⟩ := one.routes accountId route found
    obtain ⟨last, stored, keptToo, activeToo⟩ := two.routes accountId next there
    exact ⟨last, stored, kept.trans keptToo, fun start => activeToo (active start)⟩

theorem Working.learn (working : Working env w duties) (consistent : Consistent env after)
    (mine : ∀ accountId belief, b' accountId = some belief →
      after.working accountId = some i ∧ Holds after accountId belief)
    (others : ∀ j accountId belief, j ≠ i → (duties j).isSome → w.working accountId = some j →
      Holds w accountId belief →
      after.working accountId = some j ∧ Holds after accountId belief) :
    Working env after (setDuty duties i (some (i, some b'))) where
  consistent := consistent
  worker j tag s held := by
    rcases setDuty_some held with ⟨rfl, same⟩ | ⟨apart, before⟩
    · cases same
      exact ⟨rfl, b', rfl, mine⟩
    · obtain ⟨own, beliefs, known, holds⟩ := working.worker j tag s before
      refine ⟨own, beliefs, known, fun accountId belief found => ?_⟩
      obtain ⟨marked, true⟩ := holds accountId belief found
      exact others j accountId belief apart (by rw [before]; rfl) marked true

theorem Working.keep (working : Working env w duties)
    (mine : ∀ accountId belief, b' accountId = some belief →
      w.working accountId = some i ∧ Holds w accountId belief) :
    Working env w (setDuty duties i (some (i, some b'))) :=
  working.learn working.consistent mine fun _ _ _ _ _ marked holds => ⟨marked, holds⟩

theorem Working.take (working : Working env w duties) {accountIds : List String}
    (apart : ∀ accountId ∈ accountIds, ∀ j, w.working accountId = some j →
      j = i ∨ duties j = none)
    (mine : ∀ accountId belief, b' accountId = some belief →
      (accountId ∈ accountIds ∨ w.working accountId = some i) ∧ Holds w accountId belief) :
    Working env (w.begin i accountIds) (setDuty duties i (some (i, some b'))) := by
  have consistent := working.consistent
  refine working.learn
    ⟨consistent.own, consistent.username, consistent.issued, consistent.together,
      consistent.requested⟩ ?_ ?_
  · intro accountId belief found
    obtain ⟨marked, holds⟩ := mine accountId belief found
    refine ⟨?_, by cases belief <;> exact holds⟩
    rw [w.working_begin]
    split
    · rfl
    · exact marked.resolve_left ‹_›
  · intro j accountId belief other live marked holds
    refine ⟨?_, by cases belief <;> exact holds⟩
    rw [w.working_begin, if_neg, marked]
    intro listed
    rcases apart accountId listed j marked with same | gone
    · exact other same
    · rw [gone] at live
      nomatch live

structure Wrote (env : Environment) (w after : World) (route : AccountRoute) : Prop where
  routes : ∀ key, after.store.routes key =
    if key = route.accountId then some route else w.store.routes key
  usernames : ∀ key, after.store.usernames key =
    if key = normalizeUsernameKey env.toLowerCase route.username then some route.accountId
    else w.store.usernames key
  issued : after.issued = w.issued
  requests : after.requests = w.requests
  marks : after.marks = w.marks

variable {route : AccountRoute}

theorem Wrote.consistent (wrote : Wrote env w after route) (consistent : Consistent env w)
    (issued : route.accountId ∈ w.issued) (together : Together route)
    (named : ∀ accountId, w.store.usernames
      (normalizeUsernameKey env.toLowerCase route.username) = some accountId →
      accountId = route.accountId)
    (keyed : ∀ before, w.store.routes route.accountId = some before →
      buildProviderIdempotencyKey env route = buildProviderIdempotencyKey env before) :
    Consistent env after where
  own accountId found there := by
    rw [wrote.routes] at there
    split at there
    next same =>
      cases there
      exact same.symm
    next => exact consistent.own accountId found there
  username accountId found there := by
    rw [wrote.routes] at there
    rw [wrote.usernames]
    split at there
    next same =>
      cases there
      rw [if_pos rfl, same]
    next other =>
      have before := consistent.username accountId found there
      split
      next shared =>
        rw [shared] at before
        exact absurd (named accountId before) other
      next => exact before
  issued accountId found there := by
    rw [wrote.routes] at there
    rw [wrote.issued]
    split at there
    next same => exact same ▸ issued
    next => exact consistent.issued accountId found there
  together accountId found there := by
    rw [wrote.routes] at there
    split at there
    next =>
      cases there
      exact together
    next => exact consistent.together accountId found there
  requested accountId key mem := by
    rw [wrote.requests] at mem
    obtain ⟨before, found, rfl⟩ := consistent.requested accountId key mem
    rw [wrote.routes]
    by_cases same : accountId = route.accountId
    · subst same
      exact ⟨route, if_pos rfl, (keyed before found).symm⟩
    · exact ⟨before, by rw [if_neg same]; exact found, rfl⟩

theorem Wrote.lasting (wrote : Wrote env w after route)
    (named : ∀ accountId, w.store.usernames
      (normalizeUsernameKey env.toLowerCase route.username) = some accountId →
      accountId = route.accountId)
    (kept : ∀ before, w.store.routes route.accountId = some before →
      KeepsData before route ∧ before.status ≠ .active) : Lasting w after where
  usernames key accountId found := by
    rw [wrote.usernames]
    split
    next same =>
      rw [same] at found
      rw [named accountId found]
    next => exact found
  routes accountId before found := by
    rw [wrote.routes]
    by_cases same : accountId = route.accountId
    · rw [same] at found
      obtain ⟨data, unfinished⟩ := kept before found
      exact ⟨route, if_pos same, data, fun active => absurd active unfinished⟩
    · exact ⟨before, by rw [if_neg same]; exact found, .refl before, fun active => active⟩

theorem Wrote.working_after (wrote : Wrote env w after route) (working : Working env w duties)
    (consistent : Consistent env after) (marked : w.working route.accountId = some i)
    (mine : ∀ accountId belief, b accountId = some belief →
      w.working accountId = some i ∧ Holds w accountId belief) :
    Working env after (setDuty duties i (some (i, some (b.holding route)))) := by
  have elsewhere : ∀ accountId belief, accountId ≠ route.accountId → Holds w accountId belief →
      Holds after accountId belief := by
    intro accountId belief other holds
    cases belief with
    | drawn => exact ⟨wrote.issued ▸ holds.1, by rw [wrote.routes, if_neg other]; exact holds.2⟩
    | stored found =>
      change after.store.routes accountId = some found
      rw [wrote.routes, if_neg other]
      exact holds
  apply working.learn consistent
  · intro accountId belief found
    rw [World.working, wrote.marks]
    by_cases same : accountId = route.accountId
    · subst same
      rw [b.holding_self route] at found
      cases found
      exact ⟨marked, (wrote.routes _).trans (if_pos rfl)⟩
    · rw [Beliefs.holding, Function.update_of_ne same] at found
      obtain ⟨own, holds⟩ := mine accountId belief found
      exact ⟨own, elsewhere accountId belief same holds⟩
  · intro j accountId belief other _ own holds
    rw [World.working, wrote.marks]
    refine ⟨own, elsewhere accountId belief ?_ holds⟩
    rintro rfl
    rw [marked] at own
    exact other (Option.some.inj own).symm

theorem reserveScript_cases (toLowerCase : String → String) (store : RedisAccountRouteStore)
    (input : ReservationInput) (nowMs : Nat) :
    ((store.reserveScript toLowerCase input nowMs).1 ≠ .created ∧
      (store.reserveScript toLowerCase input nowMs).2 = store) ∨
    ((store.reserveScript toLowerCase input nowMs).1 = .created ∧
      store.usernames (normalizeUsernameKey toLowerCase input.username) = none ∧
      (∀ key, (store.reserveScript toLowerCase input nowMs).2.routes key =
        if key = input.accountId then some input.route else store.routes key) ∧
      ∀ key, (store.reserveScript toLowerCase input nowMs).2.usernames key =
        if key = normalizeUsernameKey toLowerCase input.username then some input.accountId
        else store.usernames key) := by
  unfold reserveScript
  split
  · split
    · exact .inl ⟨by simp, rfl⟩
    · exact .inl ⟨by simp, rfl⟩
  · dsimp only
    split
    · exact .inl ⟨by simp, rfl⟩
    next free => exact .inr ⟨rfl, free, fun _ => rfl, fun _ => rfl⟩

theorem holdingAll_cases {routes : List AccountRoute} {key : String} {belief : Belief}
    (found : b.holdingAll routes key = some belief) :
    (∃ route ∈ routes, route.accountId = key ∧ belief = .stored route) ∨ b key = some belief := by
  unfold Beliefs.holdingAll at found
  split at found
  next route there =>
    cases found
    have same : route.accountId = key := by simpa using List.find?_some there
    exact .inl ⟨route, List.mem_of_find?_eq_some there, same, rfl⟩
  next => exact .inr found

theorem ownRoutes_map (consistent : Consistent env w) (accountIds : List String) :
    ownRoutes accountIds (accountIds.map w.store.routes) = true := by
  induction accountIds with
  | nil => rfl
  | cons accountId rest ih =>
    rw [List.map_cons, ownRoutes, ih, Bool.and_true]
    cases found : w.store.routes accountId with
    | none => rfl
    | some route => simp [consistent.own accountId route found]

section Calls
variable (working : Working env w duties)
  (mine : ∀ accountId belief, b accountId = some belief →
    w.working accountId = some i ∧ Holds w accountId belief)
include working mine

variable {accountId : String}

theorem Working.replayed
    (apart : ∀ other ∈ takesUp env w (.getReplayed accountId), ∀ j, w.working other = some j →
      j = i ∨ duties j = none) :
    Working env (w.begin i (takesUp env w (.getReplayed accountId)))
      (setDuty duties i (some (i, (beliefMonitor env).after (some b) (.getReplayed accountId)
        (w.store.routes accountId, w.nowMs)))) := by
  cases resumed : (w.store.routes accountId).filter (resumes env w.nowMs) with
  | none =>
    simp only [beliefMonitor, resumed]
    refine working.take apart fun other belief found => ?_
    obtain ⟨marked, holds⟩ := mine other belief found
    exact ⟨.inr marked, holds⟩
  | some route =>
    obtain ⟨stored, resuming⟩ := Option.filter_eq_some_iff.mp resumed
    have own : route.accountId = accountId := working.consistent.own accountId route stored
    simp only [beliefMonitor, resumed, own, if_true]
    refine working.take apart fun other belief found => ?_
    by_cases same : other = route.accountId
    · subst same
      rw [b.holding_self route] at found
      cases found
      rw [own]
      refine ⟨.inl ?_, stored⟩
      simp only [takesUp, stored, Option.any_some, resuming, if_true, List.mem_singleton]
    · rw [Beliefs.holding, Function.update_of_ne same] at found
      obtain ⟨marked, holds⟩ := mine other belief found
      exact ⟨.inr marked, holds⟩

theorem Working.listed {accountIds : List String} {beforeMs : Nat}
    (apart : ∀ other ∈ takesUp env w (.mget accountIds beforeMs), ∀ j,
      w.working other = some j → j = i ∨ duties j = none) :
    Working env (w.begin i (takesUp env w (.mget accountIds beforeMs)))
      (setDuty duties i (some (i, (beliefMonitor env).after (some b) (.mget accountIds beforeMs)
        (accountIds.map w.store.routes)))) := by
  simp only [beliefMonitor, if_pos (ownRoutes_map working.consistent accountIds)]
  refine working.take apart fun other belief found => ?_
  rcases holdingAll_cases found with ⟨route, stale, rfl, rfl⟩ | before
  · have read : (accountIds.map w.store.routes).filterMap id =
        accountIds.filterMap w.store.routes := by rw [List.filterMap_map]; rfl
    rw [read] at stale
    obtain ⟨accountId, -, stored⟩ := List.mem_filterMap.mp (List.mem_filter.mp stale).1
    refine ⟨.inl (List.mem_map_of_mem stale), ?_⟩
    change w.store.routes route.accountId = some route
    rw [working.consistent.own accountId route stored, stored]
  · obtain ⟨marked, holds⟩ := mine other belief before
    exact ⟨.inr marked, holds⟩

theorem Working.drawn (fresh : accountId ∉ w.issued) :
    Working env { w.begin i [accountId] with issued := accountId :: w.issued }
      (setDuty duties i (some (i, some (Function.update b accountId (some .drawn))))) := by
  have consistent := working.consistent
  have grown : ∀ other belief, Holds w other belief →
      Holds { w.begin i [accountId] with issued := accountId :: w.issued } other belief := by
    intro other belief holds
    cases belief with
    | drawn => exact ⟨List.mem_cons_of_mem _ holds.1, holds.2⟩
    | stored route => exact holds
  have unused : w.store.routes accountId = none := by
    cases found : w.store.routes accountId with
    | none => rfl
    | some route => exact absurd (consistent.issued accountId route found) fresh
  refine working.learn ⟨consistent.own, consistent.username, ?_, consistent.together,
    consistent.requested⟩ ?_ ?_
  · exact fun other route found => List.mem_cons_of_mem _ (consistent.issued other route found)
  · intro other belief found
    change (w.begin i [accountId]).working other = some i ∧ _
    rw [w.working_begin]
    by_cases same : other = accountId
    · subst same
      rw [Function.update_self] at found
      cases found
      exact ⟨if_pos List.mem_cons_self, List.mem_cons_self, unused⟩
    · rw [Function.update_of_ne same] at found
      obtain ⟨marked, holds⟩ := mine other belief found
      rw [if_neg (by simpa using same)]
      exact ⟨marked, grown other belief holds⟩
  · intro j other belief _ _ marked holds
    have apart : other ≠ accountId := by
      rintro rfl
      exact fresh (holds.known consistent)
    change (w.begin i [accountId]).working other = some j ∧ _
    rw [w.working_begin, if_neg (by simpa using apart)]
    exact ⟨marked, grown other belief holds⟩

theorem Working.reserved {input : ReservationInput}
    (allowed : (beliefMonitor env).allows (some b) (.reserve input)) :
    Working env { w with store := (w.store.reserveScript env.toLowerCase input w.nowMs).2 }
      (setDuty duties i (some (i, (beliefMonitor env).after (some b) (.reserve input)
        (w.store.reserveScript env.toLowerCase input w.nowMs).1))) ∧
      Lasting w { w with store := (w.store.reserveScript env.toLowerCase input w.nowMs).2 } := by
  obtain ⟨drawn, own, username, together⟩ := allowed
  obtain ⟨marked, issued, unused⟩ := mine _ _ drawn
  rcases reserveScript_cases env.toLowerCase w.store input w.nowMs with
    ⟨other, same⟩ | ⟨created, free, routes, usernames⟩
  · rw [same]
    simp only [beliefMonitor, if_neg other]
    exact ⟨working.keep mine, .refl _⟩
  · simp only [beliefMonitor, created, if_true]
    rw [← own] at marked issued unused routes usernames
    rw [← username] at free usernames
    have wrote : Wrote env w
        { w with store := (w.store.reserveScript env.toLowerCase input w.nowMs).2 } input.route :=
      ⟨routes, usernames, rfl, rfl, rfl⟩
    have named : ∀ accountId, w.store.usernames
        (normalizeUsernameKey env.toLowerCase input.route.username) = some accountId →
        accountId = input.route.accountId := fun _ taken => nomatch free.symm.trans taken
    have consistent := wrote.consistent working.consistent issued together named
      fun _ found => nomatch unused.symm.trans found
    exact ⟨wrote.working_after working consistent marked mine,
      wrote.lasting named fun _ found => nomatch unused.symm.trans found⟩

theorem Working.saved {route : AccountRoute}
    (allowed : (beliefMonitor env).allows (some b) (.save route)) :
    Working env { w with store := w.store.save env.toLowerCase route w.nowMs }
      (setDuty duties i (some (i, some (b.holding route)))) ∧
      Lasting w { w with store := w.store.save env.toLowerCase route w.nowMs } := by
  obtain ⟨before, known, unfinished, later⟩ := allowed
  obtain ⟨marked, stored⟩ := mine _ _ known
  have wrote : Wrote env w { w with store := w.store.save env.toLowerCase route w.nowMs } route :=
    ⟨fun _ => rfl, fun _ => rfl, rfl, rfl, rfl⟩
  have named : ∀ accountId, w.store.usernames
      (normalizeUsernameKey env.toLowerCase route.username) = some accountId →
      accountId = route.accountId := by
    intro accountId taken
    have own := working.consistent.username _ before stored
    rw [later.username, own] at taken
    exact (Option.some.inj taken).symm
  have together := working.consistent.together _ before stored
  have consistent := wrote.consistent working.consistent
    (working.consistent.issued _ before stored) (later.together together) named
    fun current found => by
      rw [show current = before from Option.some.inj (found.symm.trans stored)]
      exact buildProviderIdempotencyKey_succeeds later
  refine ⟨wrote.working_after working consistent marked mine, wrote.lasting named ?_⟩
  intro current found
  rw [show current = before from Option.some.inj (found.symm.trans stored)]
  exact ⟨.of_succeeds together later, unfinished⟩

theorem Working.requesting {key : String}
    (allowed : ∃ route, b accountId = some (.stored route) ∧ route.accountId = accountId ∧
      key = buildProviderIdempotencyKey env route) :
    Working env { w with requests := (accountId, key) :: w.requests }
      (setDuty duties i (some (i, some b))) := by
  obtain ⟨route, known, own, rfl⟩ := allowed
  have consistent := working.consistent
  refine working.learn ⟨consistent.own, consistent.username, consistent.issued,
    consistent.together, ?_⟩ ?_ ?_
  · intro other otherKey mem
    rcases List.mem_cons.mp mem with same | before
    · cases same
      exact ⟨route, (mine _ _ known).2, rfl⟩
    · exact consistent.requested other otherKey before
  · intro other belief found
    obtain ⟨marked, holds⟩ := mine other belief found
    exact ⟨marked, by cases belief <;> exact holds⟩
  · intro j other belief _ _ marked holds
    exact ⟨marked, by cases belief <;> exact holds⟩

theorem Working.released (known : (b accountId).isSome) :
    Working env (w.release accountId)
      (setDuty duties i (some (i, some (Function.update b accountId none)))) := by
  obtain ⟨belief, found⟩ := Option.isSome_iff_exists.mp known
  have own := (mine accountId belief found).1
  have consistent := working.consistent
  refine working.learn ⟨consistent.own, consistent.username, consistent.issued,
    consistent.together, consistent.requested⟩ ?_ ?_
  · intro other belief found
    by_cases same : other = accountId
    · subst same
      rw [Function.update_self] at found
      nomatch found
    · rw [Function.update_of_ne same] at found
      obtain ⟨marked, holds⟩ := mine other belief found
      exact ⟨by rw [w.working_release, if_neg same, marked], by cases belief <;> exact holds⟩
  · intro j other belief apart _ marked holds
    have elsewhere : other ≠ accountId := by
      rintro rfl
      rw [own] at marked
      exact apart (Option.some.inj marked).symm
    exact ⟨by rw [w.working_release, if_neg elsewhere, marked], by cases belief <;> exact holds⟩

end Calls

theorem Working.call (working : Working env w duties) {tag : Nat} {s : Option Beliefs} {c : Call}
    {reply : Reply c} (duty : duties i = some (tag, s)) (allowed : (beliefMonitor env).allows s c)
    (apart : ∀ accountId ∈ takesUp env w c, ∀ j, w.working accountId = some j →
      j = i ∨ duties j = none)
    (performed : effect env tag c w reply after) :
    Working env after (setDuty duties i (some (tag, (beliefMonitor env).after s c reply))) ∧
      Lasting w after := by
  obtain ⟨rfl, b, rfl, mine⟩ := working.worker i tag s duty
  cases c with
  | now =>
    obtain ⟨-, rfl⟩ := performed
    exact ⟨working.keep mine, .refl _⟩
  | getProvider | listProviders | assertProviderReady | verify | bootstrap =>
    cases performed
    exact ⟨working.keep mine, .refl _⟩
  | zrangebyscore beforeMs count =>
    obtain ⟨rfl, rfl⟩ := performed
    have nodup : (after.store.index.due beforeMs count).Nodup := after.store.index.due_nodup _ _
    simp only [beliefMonitor, if_pos nodup]
    exact ⟨working.keep mine, .refl _⟩
  | getByAccountId accountId =>
    obtain ⟨rfl, rfl⟩ := performed
    simp only [beliefMonitor]
    split
    next route known =>
      have stored : after.store.routes accountId = some route := (mine accountId _ known).2
      rw [if_pos stored]
      exact ⟨working.keep mine, .refl _⟩
    next => exact ⟨working.keep mine, .refl _⟩
  | getReplayed accountId =>
    obtain ⟨rfl, rfl⟩ := performed
    exact ⟨working.replayed mine apart, .of_store rfl⟩
  | mget accountIds beforeMs =>
    obtain ⟨rfl, rfl⟩ := performed
    exact ⟨working.listed mine apart, .of_store rfl⟩
  | randomUUID =>
    obtain ⟨fresh, rfl⟩ := performed
    exact ⟨working.drawn mine fresh, .of_store rfl⟩
  | reserve input =>
    obtain ⟨rfl, rfl⟩ := performed
    exact working.reserved mine allowed
  | save route =>
    cases performed
    exact working.saved mine allowed
  | createProviderAccount accountId provider idempotencyKey account protocols =>
    cases performed
    exact ⟨working.requesting mine allowed, .of_store rfl⟩
  | release accountId =>
    cases performed
    exact ⟨working.released mine allowed, .of_store rfl⟩

end Store

theorem free_iff {pool : ProvisioningPool} {i : Nat} {accountId : String} :
    Free pool i accountId ↔ ∀ j, pool.shared.working accountId = some j →
      j = i ∨ pool.workers j = none := by
  unfold Free
  cases pool.shared.working accountId with
  | none => exact ⟨fun _ _ marked => (nomatch marked), fun _ => trivial⟩
  | some j =>
    simp only [Option.isNone_iff_eq_none]
    constructor
    · rintro free _ ⟨⟩
      exact free
    · exact fun free => free j rfl

theorem working_preserved (env : Environment) (start : World) :
    PreservesAll (provisioningSystem env) (Apart env) (beliefMonitor env) (fun _ => True)
      fun w duties => Working env w duties ∧ Lasting start w where
  call pool duties i tag s c next reply after admitted inv matched running duty allowed
      performed := by
    obtain ⟨working, lasting⟩ := inv
    have apart : ∀ accountId ∈ takesUp env pool.shared c, ∀ j,
        pool.shared.working accountId = some j → j = i ∨ duties j = none := by
      intro accountId taken j marked
      have free : Free pool i accountId := by
        simp only [Apart, running] at admitted
        exact admitted accountId taken
      apply (free_iff.mp free j marked).imp_right
      intro gone
      have duty := matched j
      rwa [gone] at duty
    obtain ⟨still, kept⟩ := working.call duty allowed apart performed
    exact ⟨still, lasting.trans kept⟩
  stop pool duties i _ inv _ :=
    ⟨⟨inv.1.consistent, fun j tag s held => inv.1.worker j tag s (of_setDuty_none held)⟩, inv.2⟩
  start pool duties i worker numbered inv _ starts := by
    obtain ⟨-, task, program⟩ := starts
    refine ⟨some fun _ => none, ?_, ?_, inv.2⟩
    · rw [program]
      exact task_obeys task _
    · rw [(numbered : worker.tag = i)]
      exact inv.1.keep fun _ _ none => nomatch none
  act pool duties event after _ inv acted := by
    obtain ⟨⟨consistent, worker⟩, lasting⟩ := inv
    cases event with
    | tick nowMs =>
      cases (acted : after = _)
      refine ⟨⟨⟨consistent.own, consistent.username, consistent.issued, consistent.together,
        consistent.requested⟩, fun i tag s duty => ?_⟩, lasting.trans (.of_store rfl)⟩
      obtain ⟨own, b, known, mine⟩ := worker i tag s duty
      refine ⟨own, b, known, fun accountId belief found => ?_⟩
      obtain ⟨marked, holds⟩ := mine accountId belief found
      exact ⟨marked, by cases belief <;> exact holds⟩

theorem empty_consistent (env : Environment) (nowMs : Nat) : Consistent env (World.empty nowMs) :=
  ⟨fun _ _ none => (nomatch none), fun _ _ none => (nomatch none), fun _ _ none => (nomatch none),
    fun _ _ none => (nomatch none), fun _ _ none => (nomatch none)⟩

/-- In every run in which no process takes up an account at which another one is still at work,
activation is final. -/
theorem activation_final (env : Environment) (nowMs : Nat) (pool after : ProvisioningPool)
    (run : Reaches (Step (provisioningSystem env)) (Apart env) (Pool.idle (World.empty nowMs)) pool)
    (later : Reaches (Step (provisioningSystem env)) (Apart env) pool after) :
    Final env pool.shared after.shared := by
  have start : Working env (World.empty nowMs) (fun _ => none) :=
    ⟨empty_consistent env nowMs, fun _ _ _ none => nomatch none⟩
  obtain ⟨duties, inv, matched⟩ := watchedAll_run (working_preserved env (World.empty nowMs)) run
    (watchedTo_idle ⟨start, .refl _⟩)
  obtain ⟨_, ⟨working, lasting⟩, -⟩ := watchedAll_run (working_preserved env pool.shared) later
    ⟨duties, ⟨inv.1, .refl _⟩, matched⟩
  exact ⟨lasting, working.consistent.distinct⟩

def plain : Environment where
  toLowerCase text := text
  fingerprintRequest _ _ := "fingerprint"
  hashIdempotencyKey key := key
  keyDigest digest := digest
  localeLe left right := decide (left ≤ right)
  hasPreflight := false
  hasBootstrapper := false
  staleProvisioningAfterMs := 1000

def alice : CreateInput where
  username := "alice"
  email := none
  password := "secret"
  displayName := "Alice"
  summary := none
  protocols := none
  providerId := none
  appClientId := none
  redirectUri := none
  verification := none
  idempotencyKey := "request-1"

def provider : ProviderDefinition := ⟨"pods", "https://pods.example", "app", none, none⟩

def providerAccount : Json := .obj [
  ("canonicalAccountId", .str "alice"), ("webId", .str "https://pods.example/alice#me"),
  ("activitypub", .obj [("actorId", .str "https://pods.example/alice")]),
  ("solid", .obj [("podBaseUrl", .str "https://pods.example/alice/data")]),
  ("atproto", .obj [("did", .str "did:plc:alice")])]

def serving : Nat → (c : Call) → World → Option (Reply c × World)
  | _, .now, w => some (w.nowMs, w)
  | process, .randomUUID, w =>
    let uuid := String.ofList (List.replicate (process + 1) 'u')
    if "acct_" ++ uuid ∈ w.issued then none
    else some (uuid, { w.begin process ["acct_" ++ uuid] with
      issued := ("acct_" ++ uuid) :: w.issued })
  | _, .reserve input, w =>
    let outcome := w.store.reserveScript plain.toLowerCase input w.nowMs
    some (outcome.1, { w with store := outcome.2 })
  | process, .getReplayed accountId, w =>
    some ((w.store.routes accountId, w.nowMs),
      w.begin process (takesUp plain w (.getReplayed accountId)))
  | _, .getByAccountId accountId, w => some (w.store.routes accountId, w)
  | _, .save route, w =>
    some ((), { w with store := w.store.save plain.toLowerCase route w.nowMs })
  | _, .zrangebyscore beforeMs count, w => some (w.store.index.due beforeMs count, w)
  | process, .mget accountIds beforeMs, w =>
    some (accountIds.map w.store.routes,
      w.begin process (takesUp plain w (.mget accountIds beforeMs)))
  | _, .createProviderAccount accountId _ idempotencyKey _ _, w =>
    some (.ok providerAccount, { w with requests := (accountId, idempotencyKey) :: w.requests })
  | _, .release accountId, w => some ((), w.release accountId)
  | _, .getProvider _, w => some (some provider, w)
  | 0, .listProviders _ _ _, w => some (.error (.other "Router is down"), w)
  | _, .listProviders _ _ _, w => some (.ok [provider], w)
  | _, .assertProviderReady _ _, w => some (.ok [], w)
  | _, .verify _, w => some (⟨true, [], none⟩, w)
  | _, .bootstrap _ _, w => some (.error (.other "No bootstrap"), w)

def calling : Schedule World Nat ClockEvent Call Reply Thrown Unit where
  perform := serving
  boot _ := (Task.create alice).program plain
  admits w process := w.marks.all (·.2 ≠ process)
  react
    | .tick nowMs, w => some { w with nowMs := nowMs }

theorem calling_follows : calling.Follows (provisioningSystem plain) where
  perform process c w reply after performed := by
    change serving process c w = some (reply, after) at performed
    change effect plain process c w reply after
    cases c with
    | randomUUID =>
      simp only [serving] at performed
      split at performed
      next => nomatch performed
      next fresh =>
        cases performed
        exact ⟨fresh, rfl⟩
    | now | reserve | getReplayed | getByAccountId | zrangebyscore | mget =>
      cases performed
      exact ⟨rfl, rfl⟩
    | save | createProviderAccount | release | getProvider | assertProviderReady | verify
    | bootstrap =>
      cases performed
      rfl
    | listProviders =>
      cases process <;> cases performed <;> rfl
  admits w process admitted := by
    refine ⟨fun mark listed => ?_, .create alice, rfl⟩
    exact of_decide_eq_true (List.all_eq_true.mp admitted mark listed)
  react event w after picked := by
    cases event
    cases picked
    rfl

def calls (i n : Nat) : List (Turn Nat ClockEvent) := List.replicate n (.call i)

def account : String := "acct_u"

def seen (w : World) : Option (AccountStatus × String × Option String) :=
  (w.store.routes account).map fun route => (route.status, route.webId, route.atprotoDid)

def activated : AccountStatus × String × Option String :=
  (.active, "https://pods.example/alice#me", some "did:plc:alice")

/-- The first attempt fails and the second one succeeds; the request comes a third time. -/
theorem activation_final_oneAfterAnother :
    ∃ pool after,
      Reaches (Step (provisioningSystem plain)) (Apart plain) (Pool.idle (World.empty 5000)) pool ∧
      Reaches (Step (provisioningSystem plain)) (Apart plain) pool after ∧
      seen pool.shared = some activated ∧ Final plain pool.shared after.shared := by
  obtain ⟨pool, after, run, later, active, -⟩ : ∃ pool after,
      Reaches (Step (provisioningSystem plain)) (Apart plain) (Pool.idle (World.empty 5000)) pool ∧
      Reaches (Step (provisioningSystem plain)) (Apart plain) pool after ∧
      seen pool.shared = some activated ∧ seen after.shared = some activated :=
    reaches_of_schedules seen calling_follows
      (.start 0 0 :: calls 0 9 ++ .start 1 1 :: calls 1 27) (.start 2 2 :: calls 2 4)
      (by decide +kernel)
  exact ⟨pool, after, run, later, active, activation_final plain 5000 pool after run later⟩

/-- The first attempt fails, two replays of the request read its route, and one of them makes
the account active before the other one starts over. -/
theorem activation_undone :
    ¬ ∀ (env : Environment) (nowMs : Nat) (pool after : ProvisioningPool),
      Reaches (Step (provisioningSystem env)) Numbered (Pool.idle (World.empty nowMs)) pool →
      Reaches (Step (provisioningSystem env)) Numbered pool after →
      Final env pool.shared after.shared := by
  intro final
  obtain ⟨pool, after, run, later, active, undone⟩ : ∃ pool after,
      Reaches (Step (provisioningSystem plain)) Numbered (Pool.idle (World.empty 5000)) pool ∧
      Reaches (Step (provisioningSystem plain)) Numbered pool after ∧
      seen pool.shared = some activated ∧ seen after.shared = some (.provisioning, "", none) :=
    reaches_of_schedules seen calling_follows
      (.start 0 0 :: calls 0 9 ++ .start 1 1 :: calls 1 4 ++ .start 2 2 :: calls 2 4 ++ calls 1 23)
      (calls 2 1) (by decide +kernel)
  obtain ⟨lasting, -⟩ := final plain 5000 pool after run later
  obtain ⟨route, found, same⟩ := Option.map_eq_some_iff.mp active
  obtain ⟨next, stored, -, kept⟩ := lasting.routes account route found
  have status : next.status = .active := kept (congrArg Prod.fst same)
  rw [seen, stored] at undone
  have back : next.status = .provisioning := congrArg Prod.fst (Option.some.inj undone)
  rw [back] at status
  nomatch status

end MastopodFederation.Guarantees.AccountActivation
