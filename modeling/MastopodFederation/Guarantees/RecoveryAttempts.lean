import MastopodFederation.Guarantees.StaleListings
import MastopodFederation.Lib.CallEffects
import MastopodFederation.Lib.HeadBatches
import MastopodFederation.Source.EntrywayProvisioning

/-!
# Attempts of a recovery run

A recovery run that is alone with the store attempts the listed routes that have provider data.
An attempt leaves a route active or failed; nothing else changes a route, and the index stays.
-/
namespace MastopodFederation.Guarantees.RecoveryAttempts
open Lib.CallEffects Lib.HeadBatches
open Lib.DueBatches (Schedule)
open Source.AccountRoutes Source.AccountRoutes.RedisAccountRouteStore
open Source.EntrywayProvisioning StaleListings

def alone (env : Environment) (c : Call) (w : World) (reply : Reply c) (after : World) : Prop :=
  ∃ nowMs, w.nowMs ≤ nowMs ∧ effect env 0 c { w with nowMs := nowMs } reply after

structure Turned (w t : World) (accountId : String) (route : AccountRoute) : Prop where
  routes : t.store.routes = Function.update w.store.routes accountId (some route)
  index : t.store.index.entries = w.store.index.entries
  nowMs : w.nowMs ≤ t.nowMs

structure Version (accountId : String) (createdAt : Nat) (route : AccountRoute) : Prop where
  accountId : route.accountId = accountId
  createdAt : route.createdAt = createdAt

def Held (w : World) (accountId : String) (createdAt : Nat) (t : World) : Prop :=
  ∃ route, Version accountId createdAt route ∧ Turned w t accountId route

/-- What a step of an attempt guarantees: nothing else changed, and what it returns is a route of
the account. -/
def Stepped {α : Type} (w : World) (accountId : String) (createdAt : Nat) (idOf : α → String)
    (t : World) (outcome : Except Thrown α) : Prop :=
  Held w accountId createdAt t ∧ ∀ result, outcome = .ok result → idOf result = accountId

def Ended (w : World) (accountId : String) (createdAt : Nat) (t : World) : Prop :=
  ∃ route, Version accountId createdAt route ∧ route.status ≠ .provisioning ∧
    Turned w t accountId route

section Attempt
variable {env : Environment} {w t : World} {accountId : String} {createdAt : Nat}
  {route : AccountRoute} {α : Type} {post : World → Except Thrown α → Prop}

theorem Ended.held (ended : Ended w accountId createdAt t) : Held w accountId createdAt t := by
  obtain ⟨route, version, -, turned⟩ := ended
  exact ⟨route, version, turned⟩

theorem ask_sure {c : Call} {f : Reply c → Run α} (turned : Turned w t accountId route)
    (idle : ∀ (u : World) (reply : Reply c) (after : World), effect env 0 c u reply after →
      after.store = u.store ∧ u.nowMs ≤ after.nowMs)
    (next : ∀ reply u, Turned w u accountId route → Sure (alone env) (f reply) post u) :
    Sure (alone env) (ask c >>= f) post t := by
  rintro reply u ⟨nowMs, later, performed⟩
  obtain ⟨store, advanced⟩ := idle _ _ _ performed
  apply next reply u
  refine ⟨?_, ?_, turned.nowMs.trans (later.trans advanced)⟩
  · rw [store]
    exact turned.routes
  · rw [store]
    exact turned.index

theorem read_sure {f : Option AccountRoute → Run α} (turned : Turned w t accountId route)
    (next : ∀ u, Turned w u accountId route → Sure (alone env) (f (some route)) post u) :
    Sure (alone env) (ask (.getByAccountId accountId) >>= f) post t := by
  rintro _ _ ⟨nowMs, later, rfl, rfl⟩
  have found : t.store.routes accountId = some route := by
    rw [turned.routes, Function.update_self]
  change Sure (alone env) (f (t.store.routes accountId)) post _
  rw [found]
  exact next _ ⟨turned.routes, turned.index, turned.nowMs.trans later⟩

theorem save_sure {f : Unit → Run α} (listed : (createdAt, accountId) ∈ w.store.index.entries)
    (positive : 0 < createdAt) (turned : Turned w t accountId route) {updated : AccountRoute}
    (version : Version accountId createdAt updated)
    (next : ∀ u, Turned w u accountId updated → Sure (alone env) (f ()) post u) :
    Sure (alone env) (ask (.save updated) >>= f) post t := by
  rintro _ _ ⟨nowMs, later, rfl⟩
  apply next
  refine ⟨?_, ?_, turned.nowMs.trans later⟩
  · funext key
    change (if key = updated.accountId then some updated else t.store.routes key) = _
    rw [version.accountId, turned.routes]
    by_cases same : key = accountId
    · subst same
      simp
    · simp [same]
  · change (t.store.index.add (indexScore updated.createdAt nowMs) updated.accountId).entries = _
    have score : indexScore createdAt nowMs = createdAt := if_neg (by omega)
    rw [version.accountId, version.createdAt, score, Schedule.add_own, turned.index]
    rw [turned.index]
    exact listed

theorem applyUpdates_version (updates : Option ActorUpdates)
    (version : Version accountId createdAt route) :
    Version accountId createdAt (applyUpdates route updates) := by
  cases updates
  · exact version
  · exact ⟨version.accountId, version.createdAt⟩

theorem Version.touch (version : Version accountId createdAt route)
    {patch : AccountRoute → AccountRoute}
    (keeps : ∀ route, Version accountId createdAt route → Version accountId createdAt (patch route))
    (now : Nat) : Version accountId createdAt { patch route with updatedAt := now } :=
  ⟨(keeps route version).accountId, (keeps route version).createdAt⟩

theorem idle_now (u : World) (reply : Reply .now) (after : World)
    (performed : effect env 0 .now u reply after) : after.store = u.store ∧ u.nowMs ≤ after.nowMs := by
  obtain ⟨-, rfl⟩ := performed
  exact ⟨rfl, le_refl _⟩

theorem idle_verify {route : AccountRoute} (u : World) (reply : Reply (.verify route)) (after : World)
    (performed : effect env 0 (.verify route) u reply after) :
    after.store = u.store ∧ u.nowMs ≤ after.nowMs := by
  cases performed
  exact ⟨rfl, le_refl _⟩

section Steps
variable (listed : (createdAt, accountId) ∈ w.store.index.entries) (positive : 0 < createdAt)
include listed positive

variable {patch : AccountRoute → AccountRoute}

theorem updateRoute_sure
    (keeps : ∀ route, Version accountId createdAt route → Version accountId createdAt (patch route))
    (version : Version accountId createdAt route) (turned : Turned w t accountId route) :
    Sure (alone env) (updateRoute accountId patch) (fun u outcome => ∃ now,
      outcome = .ok { patch route with updatedAt := now } ∧
        Turned w u accountId { patch route with updatedAt := now }) t := by
  apply read_sure turned
  intro _ turned
  apply ask_sure (c := .now) turned idle_now
  intro now _ turned
  apply save_sure listed positive turned (version.touch keeps now)
  exact fun u written => ⟨now, rfl, written⟩

theorem updateRoute_held
    (keeps : ∀ route, Version accountId createdAt route → Version accountId createdAt (patch route))
    (held : Held w accountId createdAt t) :
    Sure (alone env) (updateRoute accountId patch) (fun u outcome => Held w accountId createdAt u ∧
      ∃ updated, outcome = .ok updated ∧ updated.accountId = accountId) t := by
  obtain ⟨route, version, turned⟩ := held
  apply (updateRoute_sure listed positive keeps version turned).imp
  rintro u _ ⟨now, rfl, written⟩
  have kept := version.touch keeps now
  exact ⟨⟨_, kept, written⟩, _, rfl, kept.accountId⟩

theorem markFailed_sure (error : Thrown) (held : Held w accountId createdAt t) :
    Sure (alone env) (markFailed accountId error) (fun u outcome => Ended w accountId createdAt u ∧
      ∃ result, outcome = .ok result) t := by
  obtain ⟨route, version, turned⟩ := held
  apply read_sure turned
  intro _ turned
  apply ask_sure (c := .now) turned idle_now
  intro now _ turned
  have failed : Version accountId createdAt { route with
      status := .failed
      provisioning := { route.provisioning with
        phase := .failed
        lastErrorCode := some (error.code "entryway_provisioning_failed")
        lastErrorMessage := some error.sanitized }
      updatedAt := now } := ⟨version.accountId, version.createdAt⟩
  apply save_sure listed positive turned failed
  exact fun u written => ⟨⟨_, failed, by simp, written⟩, _, rfl⟩

theorem activateRoute_sure (own : route.accountId = accountId)
    (held : Held w accountId createdAt t) :
    Sure (alone env) (activateRoute route) (fun u _ => Ended w accountId createdAt u) t := by
  subst own
  obtain ⟨current, version, turned⟩ := held
  apply ask_sure (c := .now) turned idle_now
  intro now _ turned
  have keeps : ∀ current, Version route.accountId createdAt current →
      Version route.accountId createdAt { current with
        status := .active
        provisioning := { route.provisioning with phase := .active, completedAt := some now } } :=
    fun _ version => ⟨version.accountId, version.createdAt⟩
  apply (updateRoute_sure listed positive keeps version turned).imp
  rintro u _ ⟨later, -, written⟩
  exact ⟨_, version.touch keeps later, by simp, written⟩

theorem verifyAccountBundle_sure (own : route.accountId = accountId)
    (held : Held w accountId createdAt t) :
    Sure (alone env) (verifyAccountBundle env route)
      (Stepped w accountId createdAt (·.accountId)) t := by
  subst own
  have found : Sure (alone env) (updateRoute route.accountId fun current =>
      { current with provisioning := { route.provisioning with phase := .webIdDiscovered } }) _ t :=
    updateRoute_held listed positive (fun _ version => ⟨version.accountId, version.createdAt⟩) held
  refine sure_bind found ?_ fun u e ended => ?_
  · rintro u discovered ⟨⟨_, _, turned⟩, _, ⟨⟩, own⟩
    apply ask_sure (c := .verify discovered) turned idle_verify
    intro verification v turned
    rw [own]
    have checked : Sure (alone env) (updateRoute route.accountId fun current =>
        { applyUpdates current verification.routeUpdates with
          provisioning := { discovered.provisioning with
            phase := if verification.passed then .actorValidated else .failed
            checks := mergeChecks env discovered.provisioning.checks verification.checks
            lastErrorCode := if verification.passed then none else some "bundle_verification_failed"
            lastErrorMessage :=
              if verification.passed then none else some "Account bundle verification failed" } })
        _ v :=
      updateRoute_held listed positive (fun _ version =>
        ⟨(applyUpdates_version _ version).accountId, (applyUpdates_version _ version).createdAt⟩)
        ⟨_, ‹_›, turned⟩
    refine sure_bind checked ?_ fun u e ended => ?_
    · rintro last checked ⟨held, _, ⟨⟩, own⟩
      split
      · exact ⟨held, fun _ same => by cases same; exact own⟩
      · exact ⟨held, fun _ same => nomatch same⟩
    · obtain ⟨-, _, ⟨⟩, -⟩ := ended
  · obtain ⟨-, _, ⟨⟩, -⟩ := ended

variable (provider : ProviderDefinition)

theorem bootstrapApp_sure (own : route.accountId = accountId)
    (held : Held w accountId createdAt t) :
    Sure (alone env) (bootstrapApp route provider)
      (Stepped w accountId createdAt (·.1.accountId)) t := by
  subst own
  have asked : Sure (alone env) (tryAsk (.bootstrap provider route) id)
      (fun u _ => Held w route.accountId createdAt u) t := by
    obtain ⟨_, version, turned⟩ := held
    rintro reply u ⟨nowMs, later, performed⟩
    cases (performed : u = _)
    exact ⟨_, version, turned.routes, turned.index, turned.nowMs.trans later⟩
  refine sure_bind asked ?_ fun u e held => ⟨held, fun _ same => nomatch same⟩
  intro u result held
  have noted : Sure (alone env) (updateRoute route.accountId fun current =>
      { current with
        appBootstrap := some result.snapshot
        provisioning := { route.provisioning with
          phase := if result.sessionHandoff.isSome then .sessionReady
            else .appBootstrapReady } }) _ u :=
    updateRoute_held listed positive (fun _ version => ⟨version.accountId, version.createdAt⟩) held
  refine sure_bind noted ?_ fun u e ended => ?_
  · rintro u updated ⟨held, _, ⟨⟩, own⟩
    exact ⟨held, fun _ same => by cases same; exact own⟩
  · obtain ⟨-, _, ⟨⟩, -⟩ := ended

theorem noteBootstrapFailure_sure (thrown : Thrown)
    (own : route.accountId = accountId) (held : Held w accountId createdAt t) :
    Sure (alone env) (noteBootstrapFailure route provider thrown)
      (fun u _ => Held w accountId createdAt u) t := by
  subst own
  unfold noteBootstrapFailure
  apply Sure.imp
  · exact updateRoute_held listed positive
      (fun _ version => ⟨version.accountId, version.createdAt⟩) held
  · exact fun _ _ ended => ended.1

theorem bootstrapAppIfConfigured_sure (own : route.accountId = accountId) (held : Held w accountId createdAt t) :
    Sure (alone env) (bootstrapAppIfConfigured env route provider)
      (Stepped w accountId createdAt (·.1.accountId)) t := by
  unfold bootstrapAppIfConfigured
  split
  · exact ⟨held, fun _ same => by cases same; exact own⟩
  split
  · exact ⟨held, fun _ same => by cases same; exact own⟩
  refine sure_rescue (bootstrapApp_sure listed positive provider own held)
    (fun _ _ ended => ⟨ended.1, fun _ same => ended.2 _ (by cases same; rfl)⟩)
    fun u thrown ended => ?_
  refine sure_bind (noteBootstrapFailure_sure listed positive provider thrown own ended.1) ?_
    fun u e held => ⟨held, fun _ same => nomatch same⟩
  exact fun u _ held => ⟨held, fun _ same => nomatch same⟩

theorem recoverRoute_sure (own : route.accountId = accountId)
    (held : Held w accountId createdAt t) :
    Sure (alone env) (recoverRoute env route) (fun u outcome => match outcome with
      | .ok _ => Ended w accountId createdAt u
      | .error _ => Held w accountId createdAt u) t := by
  have known : Sure (alone env) (existingProvider route)
      (fun u outcome => Held w accountId createdAt u ∧ ∃ result, outcome = .ok result) t := by
    unfold existingProvider
    split
    · exact ⟨held, _, rfl⟩
    · obtain ⟨_, version, turned⟩ := held
      rintro reply u ⟨nowMs, later, performed⟩
      cases (performed : u = _)
      exact ⟨⟨_, version, turned.routes, turned.index, turned.nowMs.trans later⟩, _, rfl⟩
  refine sure_bind known ?_ fun u e ended => ended.1
  rintro u provider ⟨held, -⟩
  refine sure_bind (verifyAccountBundle_sure listed positive own held) ?_ fun u e ended => ended.1
  rintro u verified ⟨held, ownVerified⟩
  have bootstrapped : Sure (alone env) (bootstrapWith env verified provider)
      (Stepped w accountId createdAt (·.1.accountId)) u := by
    cases provider with
    | none => exact ⟨held, fun _ same => by cases same; exact ownVerified _ rfl⟩
    | some provider =>
      exact bootstrapAppIfConfigured_sure listed positive provider (ownVerified _ rfl) held
  refine sure_bind bootstrapped ?_ fun u e ended => ended.1
  rintro u result ⟨held, ownResult⟩
  apply (activateRoute_sure listed positive (ownResult _ rfl) held).imp
  intro v outcome ended
  cases outcome with
  | ok active => exact ended
  | error thrown => exact ended.held

end Steps
end Attempt

structure After (w t : World) (attempted : List String) : Prop where
  index : t.store.index.entries = w.store.index.entries
  nowMs : w.nowMs ≤ t.nowMs
  kept : ∀ accountId ∉ attempted, t.store.routes accountId = w.store.routes accountId
  ended : ∀ accountId ∈ attempted, ∃ before route, w.store.routes accountId = some before ∧
    t.store.routes accountId = some route ∧ Version accountId before.createdAt route ∧
    route.status ≠ .provisioning

section Run
variable {env : Environment} {w t u : World} {attempted : List String} {route : AccountRoute}

theorem After.start (w : World) : After w w [] :=
  ⟨rfl, le_refl _, fun _ _ => rfl, fun _ mem => nomatch mem⟩

theorem After.idle (after : After w t attempted) (store : u.store = t.store)
    (nowMs : t.nowMs ≤ u.nowMs) : After w u attempted := by
  refine ⟨?_, after.nowMs.trans nowMs, ?_, ?_⟩ <;> rw [store]
  · exact after.index
  · exact after.kept
  · exact after.ended

theorem After.step (after : After w t attempted) {accountId : String} {before : AccountRoute}
    (stored : w.store.routes accountId = some before)
    (ended : Ended t accountId before.createdAt u) : After w u (attempted ++ [accountId]) := by
  obtain ⟨route, version, finished, turned⟩ := ended
  refine ⟨turned.index.trans after.index, after.nowMs.trans turned.nowMs, ?_, ?_⟩
  · intro other outside
    rw [List.mem_append, List.mem_singleton, not_or] at outside
    rw [turned.routes, Function.update_of_ne outside.2]
    exact after.kept other outside.1
  · intro other mem
    by_cases same : other = accountId
    · subst same
      exact ⟨before, route, stored, by rw [turned.routes, Function.update_self], version, finished⟩
    · have earlier : other ∈ attempted :=
        (List.mem_append.mp mem).resolve_right fun last => same (List.mem_singleton.mp last)
      rw [turned.routes, Function.update_of_ne same]
      exact after.ended other earlier

theorem After.held (after : After w t attempted) (indexed : Indexed w.store)
    (stored : Stores w.store route) :
    Held t route.accountId route.createdAt t ∧
      (route.createdAt, route.accountId) ∈ t.store.index.entries := by
  constructor
  · obtain ⟨current, found, version⟩ : ∃ current, t.store.routes route.accountId = some current ∧
        Version route.accountId route.createdAt current := by
      by_cases mem : route.accountId ∈ attempted
      · obtain ⟨before, current, known, found, version, -⟩ := after.ended _ mem
        rw [Stores, known] at stored
        cases stored
        exact ⟨current, found, version⟩
      · exact ⟨route, (after.kept _ mem).trans stored, rfl, rfl⟩
    refine ⟨current, version, ?_, rfl, le_refl _⟩
    rw [← found, Function.update_eq_self]
  · rw [after.index]
    exact (indexed.index _ _).mpr ⟨route, stored, rfl⟩

variable {α : Type} {post : World → Except Thrown α → Prop}

theorem release_sure {f : Unit → Run α} {accountId : String} (after : After w t attempted)
    (next : ∀ v, After w v attempted → Sure (alone env) (f ()) post v) :
    Sure (alone env) (ask (.release accountId) >>= f) post t := by
  rintro _ _ ⟨nowMs, later, rfl⟩
  exact next _ (after.idle rfl later)

theorem recoverAll_sure (indexed : Indexed w.store) (routes : List AccountRoute)
    (stored : ∀ route ∈ routes, Stores w.store route) (counts : RecoveryCounts)
    (after : After w t attempted) :
    Sure (alone env) (recoverAll env counts routes) (fun u _ =>
      After w u (attempted ++ (routes.filter hasProviderData).map (·.accountId))) t := by
  induction routes generalizing t attempted counts with
  | nil =>
    rw [List.filter_nil, List.map_nil, List.append_nil]
    exact after
  | cons route rest ih =>
    have here := stored route List.mem_cons_self
    have later := fun other mem => stored other (List.mem_cons_of_mem _ mem)
    unfold recoverAll
    by_cases has : hasProviderData route = true
    · rw [if_neg (by simp [has]), List.filter_cons_of_pos has, List.map_cons,
        List.append_cons]
      obtain ⟨held, listed⟩ := after.held indexed here
      have positive := indexed.created route here
      have tried : Sure (alone env)
          ((recoverRoute env route).attempt : Run (Except Thrown AccountRoute))
          (fun u outcome => ∃ result, outcome = .ok result ∧ match result with
            | .ok _ => Ended t route.accountId route.createdAt u
            | .error _ => Held t route.accountId route.createdAt u) t :=
        sure_attempt ((recoverRoute_sure listed positive rfl held).imp
          fun u outcome ended => ⟨outcome, rfl, ended⟩)
      refine sure_bind tried ?_ fun u e impossible => by
        obtain ⟨_, ⟨⟩, -⟩ := impossible
      rintro u result ⟨_, ⟨⟩, ended⟩
      cases result with
      | ok active => exact release_sure (after.step here ended) fun v after => ih later _ after
      | error thrown =>
        refine sure_bind (markFailed_sure listed positive thrown ended) ?_ fun v e impossible => by
          obtain ⟨-, _, ⟨⟩⟩ := impossible
        rintro v _ ⟨ended, -⟩
        exact release_sure (after.step here ended) fun v after => ih later _ after
    · rw [if_pos (by simp [has]), List.filter_cons_of_neg has]
      exact release_sure after fun v after => ih later _ after

theorem releaseAll_sure (routes : List AccountRoute) (after : After w t attempted) :
    Sure (alone env) (releaseAll routes) (fun u outcome =>
      After w u attempted ∧ outcome = .ok ()) t := by
  induction routes generalizing t with
  | nil => exact ⟨after, rfl⟩
  | cons route rest ih => exact release_sure after fun v after => ih after

variable {beforeMs : Nat}

theorem mget_sure {accountIds : List String} {f : List (Option AccountRoute) → Run α}
    (after : After w t [])
    (next : ∀ v, After w v [] → Sure (alone env) (f (accountIds.map w.store.routes)) post v) :
    Sure (alone env) (ask (.mget accountIds beforeMs) >>= f) post t := by
  rintro _ _ ⟨nowMs, later, rfl, rfl⟩
  have read : accountIds.map t.store.routes = accountIds.map w.store.routes :=
    List.map_congr_left fun accountId _ => after.kept accountId List.not_mem_nil
  change Sure (alone env) (f (accountIds.map t.store.routes)) post _
  rw [read]
  exact next _ ⟨after.index, after.nowMs.trans later, after.kept, after.ended⟩

theorem zrangebyscore_sure {count : Nat} {f : List String → Run α} (after : After w t [])
    (next : ∀ v, After w v [] → Sure (alone env) (f (w.store.index.due beforeMs count)) post v) :
    Sure (alone env) (ask (.zrangebyscore beforeMs count) >>= f) post t := by
  rintro _ _ ⟨nowMs, later, rfl, rfl⟩
  have read : t.store.index.due beforeMs count = w.store.index.due beforeMs count := by
    rw [Schedule.due, after.index]
    rfl
  change Sure (alone env) (f (t.store.index.due beforeMs count)) post _
  rw [read]
  exact next _ (after.idle rfl later)

theorem loadRoutesByAccountIds_sure (batchList : List (List String)) (after : After w t []) :
    Sure (alone env) (loadRoutesByAccountIds beforeMs batchList) (fun u outcome =>
      After w u [] ∧ outcome = .ok (batchList.flatten.map w.store.routes)) t := by
  induction batchList generalizing t with
  | nil => exact ⟨after, rfl⟩
  | cons batch rest ih =>
    apply mget_sure after
    intro v after
    refine sure_bind (ih after) ?_ fun u e impossible => nomatch impossible.2
    rintro u _ ⟨after, ⟨⟩⟩
    refine ⟨after, ?_⟩
    rw [List.flatten_cons, List.map_append]

theorem listStaleProvisioning_sure (beforeMs : Nat) (limit : Option Int) (after : After w t []) :
    Sure (alone env) (Source.EntrywayProvisioning.listStaleProvisioning beforeMs limit)
      (fun u outcome => After w u [] ∧
        outcome = .ok (w.store.listStaleProvisioning beforeMs limit)) t := by
  apply zrangebyscore_sure after
  intro v after
  refine sure_bind (loadRoutesByAccountIds_sure _ after) ?_
    fun u e impossible => nomatch impossible.2
  rintro u _ ⟨after, ⟨⟩⟩
  refine sure_bind (releaseAll_sure _ after) ?_ fun u e impossible => nomatch impossible.2
  rintro u _ ⟨after, -⟩
  refine ⟨after, ?_⟩
  rw [flatten_batches (by decide) _ _ (le_refl _), List.filterMap_map]
  rfl

theorem now_sure {f : Nat → Run α} (after : After w t attempted)
    (next : ∀ nowMs, w.nowMs ≤ nowMs → ∀ v, After w v attempted →
      Sure (alone env) (f nowMs) post v) : Sure (alone env) (ask .now >>= f) post t := by
  rintro reply v ⟨nowMs, later, shown, same⟩
  have moved : After w v attempted := by
    rw [same]
    exact ⟨after.index, after.nowMs.trans later, after.kept, after.ended⟩
  exact next reply (shown ▸ after.nowMs.trans later) v moved

theorem recoverStaleProvisioning_sure (indexed : Indexed w.store) (limit : Option Int) :
    Sure (alone env) (recoverStaleProvisioning env limit) (fun u _ => ∃ nowMs, w.nowMs ≤ nowMs ∧
      After w u (((w.store.listStaleProvisioning (nowMs - env.staleProvisioningAfterMs)
        limit).filter hasProviderData).map (·.accountId))) w := by
  apply now_sure (After.start w)
  intro nowMs later t started
  refine sure_bind (listStaleProvisioning_sure _ limit started) ?_
    fun u e impossible => nomatch impossible.2
  rintro u listed ⟨after, same⟩
  cases same
  have stored : ∀ route ∈ w.store.listStaleProvisioning
      (nowMs - env.staleProvisioningAfterMs) limit, Stores w.store route := by
    intro route mem
    exact ((mem_windowRoutes indexed).mp (mem_staleRoutes.mp (List.mem_of_mem_take mem)).1).1
  apply (recoverAll_sure indexed _ stored _ after).imp
  intro v _ finished
  exact ⟨nowMs, later, finished⟩

end Run

def lacksProviderData (route : AccountRoute) : Bool := !hasProviderData route

section Left
variable {store : RedisAccountRouteStore} {w t : World} {beforeMs : Nat} {limit : Option Int}
  {route : AccountRoute} {attempted : List String}

theorem After.cases (after : After w t attempted) {accountId : String}
    (found : t.store.routes accountId = some route) :
    (w.store.routes accountId = some route ∧ accountId ∉ attempted) ∨
      ∃ before, w.store.routes accountId = some before ∧
        Version accountId before.createdAt route ∧ route.status ≠ .provisioning ∧
        accountId ∈ attempted := by
  by_cases mem : accountId ∈ attempted
  · obtain ⟨before, current, known, there, version, finished⟩ := after.ended accountId mem
    rw [found] at there
    cases there
    exact .inr ⟨before, known, version, finished, mem⟩
  · exact .inl ⟨(after.kept accountId mem).symm.trans found, mem⟩

theorem After.indexed (after : After w t attempted) (indexed : Indexed w.store) :
    Indexed t.store where
  own accountId route found := by
    rcases after.cases found with ⟨before, -⟩ | ⟨before, -, version, -⟩
    · exact indexed.own accountId route before
    · exact version.accountId
  created route stored := by
    rcases after.cases stored with ⟨before, -⟩ | ⟨before, known, version, -⟩
    · exact indexed.created route before
    · have own := indexed.own _ before known
      rw [version.createdAt]
      exact indexed.created before (by rw [Stores, own, known])
  index createdAt accountId := by
    rw [after.index, indexed.index]
    constructor
    · rintro ⟨before, known, same⟩
      by_cases mem : accountId ∈ attempted
      · obtain ⟨before', route, known', found, version, -⟩ := after.ended accountId mem
        rw [known] at known'
        cases known'
        exact ⟨route, found, version.createdAt.trans same⟩
      · exact ⟨before, (after.kept accountId mem).trans known, same⟩
    · rintro ⟨route, found, same⟩
      rcases after.cases found with ⟨before, -⟩ | ⟨before, known, version, -⟩
      · exact ⟨route, before, same⟩
      · exact ⟨before, known, version.createdAt.symm.trans same⟩

theorem After.past (after : After w t attempted) (past : Past w.store beforeMs) :
    Past t.store beforeMs where
  indexed := after.indexed past.indexed
  created route stored := by
    rcases after.cases stored with ⟨before, -⟩ | ⟨before, known, version, -⟩
    · exact past.created route before
    · have own := past.indexed.own _ before known
      rw [version.createdAt]
      exact past.created before (by rw [Stores, own, known])
  updated route stored provisioning := by
    rcases after.cases stored with ⟨before, -⟩ | ⟨_, -, -, finished, -⟩
    · exact past.updated route before provisioning
    · exact absurd provisioning finished

def attempts (store : RedisAccountRouteStore) (limit : Option Int) : List String :=
  (((queue store limit).take (clampLimit limit)).filter hasProviderData).map (·.accountId)

theorem After.left (indexed : Indexed w.store) (after : After w t attempted)
    (accountIds : List String) :
    (accountIds.filterMap t.store.routes).filter (·.status = .provisioning) =
      ((accountIds.filterMap w.store.routes).filter (·.status = .provisioning)).filter
        fun route => decide (route.accountId ∉ attempted) := by
  rw [List.filter_filterMap, List.filter_filterMap, List.filter_filterMap]
  refine List.filterMap_congr fun accountId _ => ?_
  by_cases mem : accountId ∈ attempted
  · obtain ⟨before, route, known, found, -, finished⟩ := after.ended accountId mem
    have own := indexed.own accountId before known
    simp [known, found, finished, own, mem, Option.filter_some, apply_ite]
  · rw [after.kept accountId mem]
    cases known : w.store.routes accountId with
    | none => rfl
    | some route =>
      have own := indexed.own accountId route known
      by_cases provisioning : route.status = .provisioning
      · simp [Option.filter_some, provisioning, own, mem]
      · simp [Option.filter_some, provisioning]

theorem filter_attempts (indexed : Indexed store) :
    (queue store limit).filter (fun route => decide (route.accountId ∉ attempts store limit)) =
      pass lacksProviderData (clampLimit limit) (queue store limit) := by
  have nodup : ((queue store limit).map (·.accountId)).Nodup := queue_nodup indexed
  have distinct : ∀ {first second : AccountRoute}, first ∈ queue store limit →
      second ∈ queue store limit → first.accountId = second.accountId → first = second :=
    fun one two same => List.inj_on_of_nodup_map nodup one two same
  conv_lhs => rw [← List.take_append_drop (clampLimit limit) (queue store limit)]
  rw [List.filter_append, Lib.HeadBatches.pass]
  congr 1
  · refine List.filter_congr fun route mem => ?_
    have inside := List.mem_of_mem_take mem
    cases has : hasProviderData route with
    | true =>
      have attempted : route.accountId ∈ attempts store limit :=
        List.mem_map_of_mem (List.mem_filter.mpr ⟨mem, has⟩)
      simp [attempted, lacksProviderData, has]
    | false =>
      have spared : route.accountId ∉ attempts store limit := by
        intro attempted
        obtain ⟨other, listed, same⟩ := List.mem_map.mp attempted
        obtain ⟨taken, data⟩ := List.mem_filter.mp listed
        rw [distinct (List.mem_of_mem_take taken) inside same, has] at data
        cases data
      simp [spared, lacksProviderData, has]
  · refine List.filter_eq_self.mpr fun route mem => decide_eq_true fun attempted => ?_
    obtain ⟨other, listed, same⟩ := List.mem_map.mp attempted
    have taken := (List.mem_filter.mp listed).1
    rw [distinct (List.mem_of_mem_take taken) (List.mem_of_mem_drop mem) same] at taken
    rw [← List.take_append_drop (clampLimit limit) (queue store limit), List.map_append,
      List.nodup_append] at nodup
    exact nodup.2.2 _ (List.mem_map_of_mem taken) _ (List.mem_map_of_mem mem) rfl

theorem After.queue_eq (indexed : Indexed w.store)
    (after : After w t (attempts w.store limit)) :
    queue t.store limit = pass lacksProviderData (clampLimit limit) (queue w.store limit) := by
  have keys : t.store.index.keys = w.store.index.keys := by
    rw [Schedule.keys, after.index]
    rfl
  have filtered : queue t.store limit = (queue w.store limit).filter
      (fun route => decide (route.accountId ∉ attempts w.store limit)) := by
    rw [queue, keys, after.left indexed, stalestFirst,
      ← filter_mergeSort updatedAt_trans updatedAt_total]
    rfl
  rw [filtered, filter_attempts indexed]

end Left

end MastopodFederation.Guarantees.RecoveryAttempts
