import MastopodFederation.Guarantees.RecoveryAttempts

/-!
# Recovery of stale accounts

A recovery run skips routes without provider data, which stay at the head of what is listed. A
recoverable route is attempted in the end exactly when it is in the window and fewer routes
without provider data than the limit are listed before it.
-/
namespace MastopodFederation.Guarantees.StaleRecovery
open Lib.CallEffects Lib.HeadBatches
open Lib.DueBatches (Schedule)
open Source.AccountRoutes Source.AccountRoutes.RedisAccountRouteStore
open Source.EntrywayProvisioning StaleListings RecoveryAttempts

section Passes
variable {env : Environment} {w t : World} {beforeMs : Nat} {limit : Option Int}
  {route : AccountRoute}

def cutoff (env : Environment) (w : World) : Nat := w.nowMs - env.staleProvisioningAfterMs

def RecoveryRun (env : Environment) (limit : Option Int) (w t : World) : Prop :=
  ∃ outcome, Executes (alone env) (recoverStaleProvisioning env limit) w outcome t

structure Passes (env : Environment) (limit : Option Int) (w : World) (run : Nat → World) :
    Prop where
  start : run 0 = w
  next : ∀ n, RecoveryRun env limit (run n) (run (n + 1))

theorem RecoveryRun.after (past : Past w.store (cutoff env w)) (ran : RecoveryRun env limit w t) :
    After w t (attempts w.store limit) := by
  obtain ⟨outcome, executed⟩ := ran
  obtain ⟨nowMs, later, after⟩ := (recoverStaleProvisioning_sure past.indexed limit).sound executed
  have wider : Past w.store (nowMs - env.staleProvisioningAfterMs) :=
    past.mono (Nat.sub_le_sub_right later _)
  rw [RedisAccountRouteStore.listStaleProvisioning, wider.staleRoutes_eq] at after
  exact after

variable {run : Nat → World}

theorem Passes.past (past : Past w.store (cutoff env w))
    (passes : Passes env limit w run) (n : Nat) : Past (run n).store (cutoff env (run n)) := by
  induction n with
  | zero =>
    rw [passes.start]
    exact past
  | succ n ih =>
    have after := (passes.next n).after ih
    exact (after.past ih).mono (Nat.sub_le_sub_right after.nowMs _)

theorem Passes.queue_eq (past : Past w.store (cutoff env w))
    (ran : Passes env limit w run) (n : Nat) : queue (run n).store limit =
      passes lacksProviderData (clampLimit limit) (queue w.store limit) n := by
  induction n with
  | zero => rw [ran.start, passes]
  | succ n ih =>
    have before := ran.past past n
    rw [((ran.next n).after before).queue_eq before.indexed, ih, passes]

theorem Passes.unchanged (past : Past w.store (cutoff env w))
    (ran : Passes env limit w run) (n : Nat) {accountId : String}
    (found : (run n).store.routes accountId = some route)
    (provisioning : route.status = .provisioning) : w.store.routes accountId = some route := by
  induction n with
  | zero =>
    rw [ran.start] at found
    exact found
  | succ n ih =>
    have after := (ran.next n).after (ran.past past n)
    rcases after.cases found with ⟨before, -⟩ | ⟨_, -, -, finished, -⟩
    · exact ih before
    · exact absurd provisioning finished

theorem Passes.index (past : Past w.store (cutoff env w)) (ran : Passes env limit w run) (n : Nat) :
    (run n).store.index.keys = w.store.index.keys := by
  induction n with
  | zero => rw [ran.start]
  | succ n ih =>
    rw [← ih, Schedule.keys, ((ran.next n).after (ran.past past n)).index]
    rfl

theorem Passes.outside (past : Past w.store (cutoff env w))
    (ran : Passes env limit w run) (stored : Stores w.store route)
    (outside : route.accountId ∉ w.store.index.keys.take (clampLimit limit * 3)) (n : Nat) :
    (run n).store.routes route.accountId = some route := by
  induction n with
  | zero =>
    rw [ran.start]
    exact stored
  | succ n ih =>
    refine (((ran.next n).after (ran.past past n)).kept _ fun attempted => outside ?_).trans ih
    obtain ⟨other, listed, same⟩ := List.mem_map.mp attempted
    have queued := List.mem_of_mem_take (List.mem_filter.mp listed).1
    have inside := ((mem_queue (ran.past past n).indexed).mp queued).2.2
    rwa [ran.index past, same] at inside

theorem Passes.attempted_iff (past : Past w.store (cutoff env w))
    (ran : Passes env limit w run) (stored : Stores w.store route)
    (inside : route.accountId ∈ w.store.index.keys.take (clampLimit limit * 3)) (n : Nat) :
    (∃ current, (run n).store.routes route.accountId = some current ∧
      current.status ≠ .provisioning) ↔ route ∉ queue (run n).store limit := by
  constructor
  · rintro ⟨current, found, finished⟩ queued
    obtain ⟨there, provisioning, -⟩ := (mem_queue (ran.past past n).indexed).mp queued
    rw [Stores, found] at there
    cases there
    exact finished provisioning
  · intro left
    obtain ⟨current, found⟩ : ∃ current, (run n).store.routes route.accountId = some current := by
      have key : route.accountId ∈ (run n).store.index.keys := by
        rw [ran.index past]
        exact List.mem_of_mem_take inside
      obtain ⟨⟨createdAt, _⟩, entry, rfl⟩ := List.mem_map.mp key
      obtain ⟨current, found, -⟩ := ((ran.past past n).indexed.index createdAt _).mp entry
      exact ⟨current, found⟩
    refine ⟨current, found, fun provisioning => left ?_⟩
    have same := ran.unchanged past n found provisioning
    rw [stored] at same
    cases same
    rw [mem_queue (ran.past past n).indexed, ran.index past]
    exact ⟨found, provisioning, inside⟩

/-- How many stale routes without provider data are listed before this route, by where the other
routes of the window stand. -/
def blockers (beforeMs : Nat) (front behind : List AccountRoute) (route : AccountRoute) : Nat :=
  (front.filter fun other => (lacksProviderData other && decide (other.updatedAt ≤ route.updatedAt))
    && isStale beforeMs other).length +
  (behind.filter fun other => (lacksProviderData other && decide (other.updatedAt < route.updatedAt))
    && isStale beforeMs other).length

theorem blockers_eq {front behind earlier behindToo : List AccountRoute}
    (nodup : (front ++ route :: behind).Nodup) (stale : isStale beforeMs route = true)
    (sorted : staleRoutes beforeMs (front ++ route :: behind) = earlier ++ route :: behindToo) :
    (earlier.filter lacksProviderData).length = blockers beforeMs front behind route := by
  rw [staleRoutes, stalestFirst, List.filter_append, List.filter_cons_of_pos stale] at sorted
  have kept : ((front.filter (isStale beforeMs)) ++ route :: behind.filter (isStale beforeMs)).Nodup := by
    have part := nodup.filter (isStale beforeMs)
    rwa [List.filter_append, List.filter_cons_of_pos stale] at part
  rw [length_filter_sorted_before updatedAt_trans updatedAt_total lacksProviderData kept sorted,
    List.filter_filter, List.filter_filter, blockers]
  simp only [← decide_not, Nat.not_le]

/-- A stale route with provider data is attempted in the end exactly when it is in the window and
fewer routes without provider data than the limit are listed before it. -/
theorem Passes.leaves_iff (past : Past w.store (cutoff env w))
    (ran : Passes env limit w run) (stored : Stores w.store route)
    (stale : isStale (cutoff env w) route = true) (data : hasProviderData route = true) :
    (∃ n current, (run n).store.routes route.accountId = some current ∧
      current.status ≠ .provisioning) ↔ ∃ front behind,
      (w.store.staleWindow (cutoff env w) limit).filterMap w.store.routes =
        front ++ route :: behind ∧
      blockers (cutoff env w) front behind route < clampLimit limit := by
  have provisioning : route.status = .provisioning := (of_decide_eq_true stale).1
  have windowed : route ∈ (w.store.staleWindow (cutoff env w) limit).filterMap w.store.routes ↔
      route.accountId ∈ w.store.index.keys.take (clampLimit limit * 3) := by
    rw [mem_windowRoutes past.indexed, staleWindow_eq past.indexed past.created]
    exact ⟨fun mem => mem.2, fun mem => ⟨stored, mem⟩⟩
  by_cases inside : route.accountId ∈ w.store.index.keys.take (clampLimit limit * 3)
  · have queued : route ∈ queue w.store limit :=
      (mem_queue past.indexed).mpr ⟨stored, provisioning, inside⟩
    obtain ⟨earlier, last, split⟩ := List.append_of_mem queued
    have distinct : (queue w.store limit).Nodup := (queue_nodup past.indexed).of_map
    rw [split, List.nodup_append, List.nodup_cons] at distinct
    have before : route ∉ earlier := fun mem => distinct.2.2 _ mem _ List.mem_cons_self rfl
    have first : (∃ n current, (run n).store.routes route.accountId = some current ∧
        current.status ≠ .provisioning) ↔
        (earlier.filter lacksProviderData).length < clampLimit limit := by
      have free : lacksProviderData route = false := by simp [lacksProviderData, data]
      rw [← Lib.HeadBatches.leaves_iff free before distinct.2.1.1, ← split]
      refine exists_congr fun n => ?_
      rw [ran.attempted_iff past stored inside n, ran.queue_eq past]
    have nodup : ((w.store.staleWindow (cutoff env w) limit).filterMap w.store.routes).Nodup :=
      (windowRoutes_nodup past.indexed).of_map
    have counted : ∀ front behind,
        (w.store.staleWindow (cutoff env w) limit).filterMap w.store.routes =
          front ++ route :: behind →
        (earlier.filter lacksProviderData).length = blockers (cutoff env w) front behind route := by
      intro front behind whole
      have sorted : staleRoutes (cutoff env w) (front ++ route :: behind) =
          earlier ++ route :: last := by rw [← whole, past.staleRoutes_eq, split]
      rw [whole] at nodup
      exact blockers_eq nodup stale sorted
    rw [first]
    constructor
    · intro few
      obtain ⟨front, behind, whole⟩ := List.append_of_mem (windowed.mpr inside)
      exact ⟨front, behind, whole, counted front behind whole ▸ few⟩
    · rintro ⟨front, behind, whole, few⟩
      exact (counted front behind whole).symm ▸ few
  · constructor
    · rintro ⟨n, current, found, finished⟩
      rw [ran.outside past stored inside n] at found
      cases found
      exact absurd provisioning finished
    · rintro ⟨front, behind, whole, -⟩
      exact absurd (windowed.mp (by rw [whole]; simp)) inside

end Passes

def Mirrors (memory : InMemoryRoutes) (store : RedisAccountRouteStore) : Prop :=
  List.Nodup memory ∧ ∀ route, route ∈ memory ↔ Stores store route

def ListsAlike (store : RedisAccountRouteStore) (beforeMs : Nat) (limit : Option Int) : Prop :=
  Stalest (Stores store) beforeMs (clampLimit limit) (store.listStaleProvisioning beforeMs limit) ∧
    ∀ memory : InMemoryRoutes, Mirrors memory store →
      Stalest (Stores store) beforeMs (clampLimit limit) (memory.listStaleProvisioning beforeMs limit)

/-- Recovery runs, with no other activity, attempt every stale route that has provider data: an
attempt leaves a route active or failed, and nothing else changes a route. -/
def AttemptsAll (env : Environment) (limit : Option Int) (w : World) : Prop :=
  ∀ run, Passes env limit w run → ∀ route, Stores w.store route →
    isStale (cutoff env w) route = true → hasProviderData route = true →
    ∃ n current, (run n).store.routes route.accountId = some current ∧
      current.status ≠ .provisioning

def WindowSuffices (store : RedisAccountRouteStore) (beforeMs : Nat) (limit : Option Int) : Prop :=
  ∀ route, Stores store route → isStale beforeMs route = true →
    route.accountId ∉ store.staleWindow beforeMs limit →
    clampLimit limit ≤ (((store.staleWindow beforeMs limit).filterMap store.routes).filter
      fun other => decide (other.updatedAt ≤ route.updatedAt) && isStale beforeMs other).length

/-- Every stale route with provider data is in the window, and fewer routes without provider data
than the limit come before it. -/
def Unblocked (store : RedisAccountRouteStore) (beforeMs : Nat) (limit : Option Int) : Prop :=
  ∀ route, Stores store route → isStale beforeMs route = true → hasProviderData route = true →
    ∃ front behind,
      (store.staleWindow beforeMs limit).filterMap store.routes = front ++ route :: behind ∧
      blockers beforeMs front behind route < clampLimit limit

section Claim
variable {store : RedisAccountRouteStore} {env : Environment} {w : World} {beforeMs : Nat}
  {limit : Option Int}

theorem memory_stalest (memory : InMemoryRoutes) (mirrors : Mirrors memory store) :
    Stalest (Stores store) beforeMs (clampLimit limit)
      (memory.listStaleProvisioning beforeMs limit) :=
  (stalest_take_iff mirrors.1 fun route mem => (mirrors.2 route).mp mem).mpr
    fun route stored _ outside => absurd ((mirrors.2 route).mpr stored) outside

theorem listsAlike_iff (indexed : Indexed store) :
    ListsAlike store beforeMs limit ↔ WindowSuffices store beforeMs limit := by
  have nodup : ((store.staleWindow beforeMs limit).filterMap store.routes).Nodup :=
    (windowRoutes_nodup indexed).of_map
  rw [ListsAlike, RedisAccountRouteStore.listStaleProvisioning,
    and_iff_left memory_stalest, stalest_take_iff nodup fun route mem =>
      ((mem_windowRoutes indexed).mp mem).1]
  refine forall_congr' fun route => forall_congr' fun stored => forall_congr' fun _ => ?_
  rw [mem_windowRoutes indexed, not_and, imp_iff_right stored, staleRoutes, stalestFirst,
    ((List.mergeSort_perm _ _).filter _).length_eq, List.filter_filter]

theorem exists_fresh (issued : List String) : ∃ text : String, "acct_" ++ text ∉ issued := by
  refine ⟨String.ofList (List.replicate (issued.map String.length).sum 'u'), fun mem => ?_⟩
  have short : ("acct_" ++ String.ofList
      (List.replicate (issued.map String.length).sum 'u')).length ≤
      (issued.map String.length).sum :=
    List.single_le_sum (fun _ _ => Nat.zero_le _) _ (List.mem_map_of_mem mem)
  have long : (String.ofList (List.replicate (issued.map String.length).sum 'u')).length =
      (issued.map String.length).sum := by rw [String.length_ofList, List.length_replicate]
  rw [String.length_append, long] at short
  have five : "acct_".length = 5 := by decide
  omega

theorem alone_total (env : Environment) (c : Call) (w : World) :
    ∃ reply after, alone env c w reply after := by
  have stay : ∀ reply after, effect env 0 c w reply after → alone env c w reply after :=
    fun _ _ performed => ⟨w.nowMs, le_refl _, performed⟩
  cases c with
  | randomUUID =>
    obtain ⟨text, fresh⟩ := exists_fresh w.issued
    exact ⟨text, _, stay _ _ ⟨fresh, rfl⟩⟩
  | now | reserve | getReplayed | getByAccountId | zrangebyscore | mget =>
    exact ⟨_, _, stay _ _ ⟨rfl, rfl⟩⟩
  | save | release => exact ⟨(), _, stay _ _ rfl⟩
  | getProvider => exact ⟨none, _, stay _ _ rfl⟩
  | listProviders => exact ⟨.ok [], _, stay _ _ rfl⟩
  | assertProviderReady => exact ⟨.ok [], _, stay _ _ rfl⟩
  | createProviderAccount => exact ⟨.ok .null, _, stay _ _ rfl⟩
  | verify => exact ⟨⟨false, [], none⟩, _, stay _ _ rfl⟩
  | bootstrap => exact ⟨.error (.other ""), _, stay _ _ rfl⟩

theorem exists_passes (env : Environment) (limit : Option Int) (w : World) :
    ∃ run, Passes env limit w run := by
  have ends : ∀ w, ∃ t, RecoveryRun env limit w t := fun w => by
    obtain ⟨outcome, t, executed⟩ :=
      executes_of_total (alone_total env) (recoverStaleProvisioning env limit) w
    exact ⟨t, outcome, executed⟩
  choose next ran using ends
  exact ⟨fun n => Nat.rec w (fun _ before => next before) n, rfl, fun n => ran _⟩

/-- Both parts hold exactly when the window suffices and no route is blocked. -/
theorem recovery_reaches_iff (env : Environment) (limit : Option Int) (w : World)
    (indexed : Indexed w.store)
    (past : ∀ route, Stores w.store route →
      route.createdAt < cutoff env w ∧ route.updatedAt < cutoff env w) :
    (ListsAlike w.store (cutoff env w) limit ∧ AttemptsAll env limit w) ↔
      WindowSuffices w.store (cutoff env w) limit ∧ Unblocked w.store (cutoff env w) limit := by
  have before : Past w.store (cutoff env w) :=
    ⟨indexed, fun route stored => (past route stored).1.le,
      fun route stored _ => (past route stored).2⟩
  rw [listsAlike_iff indexed]
  refine and_congr_right fun _ => ?_
  constructor
  · intro all route stored stale data
    obtain ⟨run, ran⟩ := exists_passes env limit w
    exact (ran.leaves_iff before stored stale data).mp (all run ran route stored stale data)
  · intro unblocked run ran route stored stale data
    exact (ran.leaves_iff before stored stale data).mpr (unblocked route stored stale data)

end Claim

def plain : Environment where
  toLowerCase text := text
  fingerprintRequest _ _ := "fingerprint"
  hashIdempotencyKey key := key
  keyDigest digest := digest
  localeLe left right := decide (left ≤ right)
  hasPreflight := false
  hasBootstrapper := false
  staleProvisioningAfterMs := 1000

def accountRoute (accountId : String) (status : AccountStatus) (createdAt : Nat) : AccountRoute :=
  { buildInitialRoute accountId accountId "key" "fingerprint" createdAt with
    webId := "https://pods.example/#me"
    actorId := "https://pods.example/actor"
    podStorageUrl := "https://pods.example/data"
    status := status }

def worldOf (routes : List AccountRoute) : World :=
  { World.empty 5000 with store := storeOf routes }

def twoAccounts : List AccountRoute :=
  [accountRoute "a" .active 1, accountRoute "b" .provisioning 2]

theorem recovery_reaches_iff_twoAccounts :
    ListsAlike (worldOf twoAccounts).store (cutoff plain (worldOf twoAccounts)) (some 1) ∧
      AttemptsAll plain (some 1) (worldOf twoAccounts) := by
  have indexed : Indexed (worldOf twoAccounts).store := storeOf_indexed _ (by decide)
  have past : ∀ route, Stores (worldOf twoAccounts).store route →
      route.createdAt < cutoff plain (worldOf twoAccounts) ∧
        route.updatedAt < cutoff plain (worldOf twoAccounts) := by
    intro route stored
    have all : ∀ route ∈ twoAccounts, route.createdAt < 4000 ∧ route.updatedAt < 4000 := by decide
    exact all route (mem_of_stored stored)
  have window : ((worldOf twoAccounts).store.staleWindow 4000 (some 1)).filterMap
      (worldOf twoAccounts).store.routes = twoAccounts := by decide +kernel
  refine (recovery_reaches_iff plain (some 1) (worldOf twoAccounts) indexed past).mpr ⟨?_, ?_⟩
  · intro route stored _ outside
    refine absurd ?_ outside
    have inside : route ∈ ((worldOf twoAccounts).store.staleWindow 4000 (some 1)).filterMap
        (worldOf twoAccounts).store.routes := window ▸ mem_of_stored stored
    exact ((mem_windowRoutes indexed).mp inside).2
  · intro route stored stale _
    have last : route = accountRoute "b" .provisioning 2 := by
      rcases List.mem_cons.mp (mem_of_stored stored) with rfl | rest
      · nomatch stale
      · exact List.mem_singleton.mp rest
    subst last
    exact ⟨[accountRoute "a" .active 1], [], window, by decide⟩

def fourAccounts : List AccountRoute :=
  [accountRoute "a" .active 1, accountRoute "b" .active 2, accountRoute "c" .active 3,
    accountRoute "d" .provisioning 4]

theorem stale_account_starved :
    (¬ ∀ (env : Environment) (limit : Option Int) (w : World), Indexed w.store →
      (∀ route, Stores w.store route →
        route.createdAt < cutoff env w ∧ route.updatedAt < cutoff env w) →
      ListsAlike w.store (cutoff env w) limit) ∧
    ¬ ∀ (env : Environment) (limit : Option Int) (w : World), Indexed w.store →
      (∀ route, Stores w.store route →
        route.createdAt < cutoff env w ∧ route.updatedAt < cutoff env w) →
      AttemptsAll env limit w := by
  have indexed : Indexed (worldOf fourAccounts).store := storeOf_indexed _ (by decide)
  have past : ∀ route, Stores (worldOf fourAccounts).store route →
      route.createdAt < cutoff plain (worldOf fourAccounts) ∧
        route.updatedAt < cutoff plain (worldOf fourAccounts) := by
    intro route stored
    have all : ∀ route ∈ fourAccounts, route.createdAt < 4000 ∧ route.updatedAt < 4000 := by decide
    exact all route (mem_of_stored stored)
  have stored : Stores (worldOf fourAccounts).store (accountRoute "d" .provisioning 4) := rfl
  have outside : (accountRoute "d" .provisioning 4).accountId ∉
      (worldOf fourAccounts).store.index.keys.take (clampLimit (some 1) * 3) := by decide +kernel
  constructor
  · intro alike
    have enough := (listsAlike_iff indexed).mp (alike plain (some 1) _ indexed past)
    have none : (((worldOf fourAccounts).store.staleWindow 4000 (some 1)).filterMap
        (worldOf fourAccounts).store.routes).filter (fun other =>
          decide (other.updatedAt ≤ 4) && isStale 4000 other) = [] := by decide +kernel
    have left : "d" ∉ (worldOf fourAccounts).store.staleWindow 4000 (some 1) := by decide +kernel
    have many := enough _ stored (by decide) left
    have few : clampLimit (some 1) ≤ ([] : List AccountRoute).length := none ▸ many
    exact absurd few (by decide)
  · intro attempts
    obtain ⟨run, ran⟩ := exists_passes plain (some 1) (worldOf fourAccounts)
    obtain ⟨n, current, found, finished⟩ :=
      attempts plain (some 1) _ indexed past run ran _ stored (by decide) (by decide)
    have before : Past (worldOf fourAccounts).store (cutoff plain (worldOf fourAccounts)) :=
      ⟨indexed, fun route stored => (past route stored).1.le,
        fun route stored _ => (past route stored).2⟩
    rw [ran.outside before stored outside n] at found
    cases found
    exact finished rfl

end MastopodFederation.Guarantees.StaleRecovery
