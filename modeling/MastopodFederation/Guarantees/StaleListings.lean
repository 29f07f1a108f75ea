import MastopodFederation.Source.AccountRoutes

/-!
# Listings of stale accounts

The store in Redis looks for stale routes only among the accounts that were created first. What
it lists is the stalest of all exactly when the window holds enough routes that are no fresher
than any stale route outside of it.
-/
namespace MastopodFederation.Guarantees.StaleListings
open Lib.DueBatches (Schedule)
open Source.AccountRoutes Source.AccountRoutes.RedisAccountRouteStore

structure Stalest (stored : AccountRoute → Prop) (beforeMs limit : Nat)
    (listed : List AccountRoute) : Prop where
  stale : ∀ route ∈ listed, stored route ∧ isStale beforeMs route = true
  nodup : listed.Nodup
  bounded : listed.length ≤ limit
  full : listed.length = limit ∨ ∀ route, stored route → isStale beforeMs route = true →
    route ∈ listed
  stalest : ∀ route, stored route → isStale beforeMs route = true → route ∉ listed →
    ∀ other ∈ listed, other.updatedAt ≤ route.updatedAt

def Stores (store : RedisAccountRouteStore) (route : AccountRoute) : Prop :=
  store.routes route.accountId = some route

/-- Routes are stored under their account ids, and the index holds all of them, and no others, by
their creation times. -/
structure Indexed (store : RedisAccountRouteStore) : Prop where
  own : ∀ accountId route, store.routes accountId = some route → route.accountId = accountId
  created : ∀ route, Stores store route → 0 < route.createdAt
  index : ∀ createdAt accountId, (createdAt, accountId) ∈ store.index.entries ↔
    ∃ route, store.routes accountId = some route ∧ route.createdAt = createdAt

section Listing
variable {routes : List AccountRoute} {route other : AccountRoute} {beforeMs limit : Nat}

theorem mem_staleRoutes :
    route ∈ staleRoutes beforeMs routes ↔ route ∈ routes ∧ isStale beforeMs route = true := by
  rw [staleRoutes, stalestFirst, List.mem_mergeSort, List.mem_filter]

theorem staleRoutes_nodup (nodup : routes.Nodup) : (staleRoutes beforeMs routes).Nodup := by
  rw [staleRoutes, stalestFirst, (List.mergeSort_perm _ _).nodup_iff]
  exact nodup.filter _

theorem updatedAt_trans (a b c : AccountRoute) (first : decide (a.updatedAt ≤ b.updatedAt) = true)
    (second : decide (b.updatedAt ≤ c.updatedAt) = true) :
    decide (a.updatedAt ≤ c.updatedAt) = true := by
  rw [decide_eq_true_eq] at *
  omega

theorem updatedAt_total (a b : AccountRoute) :
    (decide (a.updatedAt ≤ b.updatedAt) || decide (b.updatedAt ≤ a.updatedAt)) = true := by
  rw [Bool.or_eq_true, decide_eq_true_eq, decide_eq_true_eq]
  omega

theorem staleRoutes_sorted :
    (staleRoutes beforeMs routes).Pairwise fun left right => left.updatedAt ≤ right.updatedAt := by
  have sorted : (staleRoutes beforeMs routes).Pairwise
      fun left right => decide (left.updatedAt ≤ right.updatedAt) = true :=
    List.pairwise_mergeSort updatedAt_trans updatedAt_total (routes.filter (isStale beforeMs))
  exact sorted.imp fun {a b} before => of_decide_eq_true before

theorem take_le_of_mem_drop (listed : other ∈ (staleRoutes beforeMs routes).take limit)
    (left : route ∈ (staleRoutes beforeMs routes).drop limit) :
    other.updatedAt ≤ route.updatedAt := by
  have sorted : (staleRoutes beforeMs routes).Pairwise
      fun left right => left.updatedAt ≤ right.updatedAt := staleRoutes_sorted
  rw [← List.take_append_drop limit (staleRoutes beforeMs routes), List.pairwise_append] at sorted
  exact sorted.2.2 other listed route left

/-- The head of the stale ones among some routes is the stalest, where enough of them are no
fresher than any stale route elsewhere. -/
theorem stalest_take_iff {stored : AccountRoute → Prop} (nodup : routes.Nodup)
    (inside : ∀ route ∈ routes, stored route) :
    Stalest stored beforeMs limit ((staleRoutes beforeMs routes).take limit) ↔
      ∀ route, stored route → isStale beforeMs route = true → route ∉ routes →
        limit ≤ ((staleRoutes beforeMs routes).filter (·.updatedAt ≤ route.updatedAt)).length := by
  constructor
  · intro spec route isStored stale outside
    have left : route ∉ (staleRoutes beforeMs routes).take limit := fun mem =>
      outside (mem_staleRoutes.mp (List.mem_of_mem_take mem)).1
    have full : ((staleRoutes beforeMs routes).take limit).length = limit :=
      spec.full.resolve_right fun all => left (all route isStored stale)
    have early : ((staleRoutes beforeMs routes).take limit).filter
        (·.updatedAt ≤ route.updatedAt) = (staleRoutes beforeMs routes).take limit :=
      List.filter_eq_self.mpr fun other listed =>
        decide_eq_true (spec.stalest route isStored stale left other listed)
    have part := ((List.take_sublist limit (staleRoutes beforeMs routes)).filter
      (·.updatedAt ≤ route.updatedAt)).length_le
    rw [early, full] at part
    exact part
  · intro enough
    have short : ∀ route, stored route → isStale beforeMs route = true → route ∉ routes →
        limit ≤ (staleRoutes beforeMs routes).length := fun route isStored stale outside =>
      (enough route isStored stale outside).trans (List.length_filter_le _ _)
    refine ⟨?_, (staleRoutes_nodup nodup).sublist (List.take_sublist _ _), List.length_take_le _ _,
      ?_, ?_⟩
    · intro route listed
      obtain ⟨mem, stale⟩ := mem_staleRoutes.mp (List.mem_of_mem_take listed)
      exact ⟨inside route mem, stale⟩
    · by_cases long : limit ≤ (staleRoutes beforeMs routes).length
      · exact .inl (List.length_take_of_le long)
      · refine .inr fun route isStored stale => ?_
        rw [List.take_of_length_le (Nat.le_of_not_le long), mem_staleRoutes]
        by_contra outside
        exact long (short route isStored stale fun mem => outside ⟨mem, stale⟩)
    · intro route isStored stale left other listed
      by_cases mem : route ∈ routes
      · have there : route ∈ staleRoutes beforeMs routes := mem_staleRoutes.mpr ⟨mem, stale⟩
        rw [← List.take_append_drop limit (staleRoutes beforeMs routes), List.mem_append] at there
        exact take_le_of_mem_drop listed (there.resolve_left left)
      · by_contra fresher
        have many := enough route isStored stale mem
        have none : ((staleRoutes beforeMs routes).drop limit).filter
            (·.updatedAt ≤ route.updatedAt) = [] := by
          refine List.filter_eq_nil_iff.mpr fun last dropped => ?_
          have later := take_le_of_mem_drop listed dropped
          rw [decide_eq_true_eq]
          omega
        have fewer : (((staleRoutes beforeMs routes).take limit).filter
            (·.updatedAt ≤ route.updatedAt)).length <
            ((staleRoutes beforeMs routes).take limit).length :=
          List.length_filter_lt_length_iff_exists.mpr ⟨other, listed, by simpa using fresher⟩
        have atMost := List.length_take_le limit (staleRoutes beforeMs routes)
        rw [← List.take_append_drop limit (staleRoutes beforeMs routes), List.filter_append, none,
          List.append_nil] at many
        omega

end Listing

section Window
variable {store : RedisAccountRouteStore} {route : AccountRoute} {beforeMs : Nat}
  {limit : Option Int}

def CreatedBy (store : RedisAccountRouteStore) (beforeMs : Nat) : Prop :=
  ∀ route, Stores store route → route.createdAt ≤ beforeMs

theorem staleWindow_eq (indexed : Indexed store) (created : CreatedBy store beforeMs) :
    store.staleWindow beforeMs limit = store.index.keys.take (clampLimit limit * 3) := by
  have all : store.index.entries.filter (·.1 ≤ beforeMs) = store.index.entries := by
    refine List.filter_eq_self.mpr fun entry mem => decide_eq_true ?_
    obtain ⟨route, found, same⟩ := (indexed.index entry.1 entry.2).mp mem
    have own := indexed.own entry.2 route found
    exact same ▸ created route (by rw [Stores, own, found])
  rw [staleWindow, Schedule.due, all, Schedule.keys, List.map_take]

theorem mem_windowRoutes (indexed : Indexed store) {accountIds : List String} :
    route ∈ accountIds.filterMap store.routes ↔ Stores store route ∧ route.accountId ∈ accountIds := by
  rw [List.mem_filterMap]
  constructor
  · rintro ⟨accountId, listed, found⟩
    have own := indexed.own accountId route found
    exact ⟨by rw [Stores, own, found], own ▸ listed⟩
  · rintro ⟨stored, listed⟩
    exact ⟨route.accountId, listed, stored⟩

theorem map_windowRoutes (indexed : Indexed store) (accountIds : List String) :
    ((accountIds.filterMap store.routes).map (·.accountId)).Sublist accountIds := by
  induction accountIds with
  | nil => exact List.Sublist.slnil
  | cons accountId rest ih =>
    cases found : store.routes accountId with
    | none =>
      rw [List.filterMap_cons_none found]
      exact ih.cons accountId
    | some route =>
      rw [List.filterMap_cons_some found, List.map_cons, indexed.own accountId route found]
      exact ih.cons_cons accountId

theorem windowRoutes_nodup (indexed : Indexed store) :
    (((store.staleWindow beforeMs limit).filterMap store.routes).map (·.accountId)).Nodup :=
  (store.index.due_nodup _ _).sublist (map_windowRoutes indexed _)

end Window

/-- Routes are indexed and were created by this time, and those being provisioned were last
changed before it. -/
structure Past (store : RedisAccountRouteStore) (beforeMs : Nat) : Prop where
  indexed : Indexed store
  created : CreatedBy store beforeMs
  updated : ∀ route, Stores store route → route.status = .provisioning → route.updatedAt < beforeMs

def queue (store : RedisAccountRouteStore) (limit : Option Int) : List AccountRoute :=
  stalestFirst (((store.index.keys.take (clampLimit limit * 3)).filterMap store.routes).filter
    (·.status = .provisioning))

section Queue
variable {store : RedisAccountRouteStore} {beforeMs later : Nat} {limit : Option Int}
  {route : AccountRoute}

theorem Past.mono (past : Past store beforeMs) (le : beforeMs ≤ later) : Past store later :=
  ⟨past.indexed, fun route stored => (past.created route stored).trans le,
    fun route stored provisioning => (past.updated route stored provisioning).trans_le le⟩

theorem Past.staleRoutes_eq (past : Past store beforeMs) :
    staleRoutes beforeMs ((store.staleWindow beforeMs limit).filterMap store.routes) =
      queue store limit := by
  rw [staleRoutes, queue, staleWindow_eq past.indexed past.created]
  congr 1
  refine List.filter_congr fun route mem => ?_
  have stored := ((mem_windowRoutes past.indexed).mp mem).1
  unfold isStale
  by_cases provisioning : route.status = .provisioning
  · simp [provisioning, past.updated route stored provisioning]
  · simp [provisioning]

theorem mem_queue (indexed : Indexed store) :
    route ∈ queue store limit ↔ Stores store route ∧ route.status = .provisioning ∧
      route.accountId ∈ store.index.keys.take (clampLimit limit * 3) := by
  rw [queue, stalestFirst, List.mem_mergeSort, List.mem_filter, mem_windowRoutes indexed,
    decide_eq_true_eq]
  constructor
  · rintro ⟨⟨stored, inside⟩, provisioning⟩
    exact ⟨stored, provisioning, inside⟩
  · rintro ⟨stored, provisioning, inside⟩
    exact ⟨⟨stored, inside⟩, provisioning⟩

theorem queue_nodup (indexed : Indexed store) :
    ((queue store limit).map (·.accountId)).Nodup := by
  rw [queue, stalestFirst, ((List.mergeSort_perm _ _).map _).nodup_iff]
  exact (store.index.keys_nodup.sublist (List.take_sublist _ _)).sublist
    ((List.filter_sublist.map _).trans (map_windowRoutes indexed _))

end Queue

theorem empty_indexed : Indexed RedisAccountRouteStore.empty :=
  ⟨fun _ _ none => (nomatch none), fun _ none => (nomatch none),
    fun _ _ => ⟨fun absent => (nomatch absent), fun ⟨_, absent, _⟩ => (nomatch absent)⟩⟩

variable {store : RedisAccountRouteStore} {route : AccountRoute}

theorem Indexed.save (indexed : Indexed store)
    (toLowerCase : String → String) (positive : 0 < route.createdAt)
    (nowMs : Nat) : Indexed (store.save toLowerCase route nowMs) where
  own accountId found there := by
    change (if accountId = route.accountId then some route else store.routes accountId) = _ at there
    split at there
    next same =>
      cases there
      exact same.symm
    next => exact indexed.own accountId found there
  created found there := by
    change (if found.accountId = route.accountId then some route
      else store.routes found.accountId) = some found at there
    split at there
    next =>
      cases there
      exact positive
    next => exact indexed.created found there
  index createdAt accountId := by
    have score : indexScore route.createdAt nowMs = route.createdAt := if_neg (by omega)
    change (createdAt, accountId) ∈
      (store.index.add (indexScore route.createdAt nowMs) route.accountId).entries ↔
      ∃ found, (if accountId = route.accountId then some route else store.routes accountId) =
        some found ∧ found.createdAt = createdAt
    rw [score, Schedule.mem_add, Prod.mk.injEq, indexed.index]
    by_cases same : accountId = route.accountId
    · simp [same, eq_comm]
    · simp [same]

def storeOf (routes : List AccountRoute) : RedisAccountRouteStore :=
  routes.foldl (fun store route => store.save (fun text => text) route 0) .empty

theorem storeOf_indexed (routes : List AccountRoute)
    (positive : ∀ route ∈ routes, 0 < route.createdAt) : Indexed (storeOf routes) := by
  have filled : ∀ store, Indexed store →
      Indexed (routes.foldl (fun store route => store.save (fun text => text) route 0) store) := by
    induction routes with
    | nil => exact fun _ indexed => indexed
    | cons route rest ih =>
      exact fun store indexed => ih (fun other mem => positive other (List.mem_cons_of_mem _ mem))
        _ (indexed.save _ (positive route List.mem_cons_self) 0)
  exact filled _ empty_indexed

variable {routes : List AccountRoute}

theorem mem_of_filled {accountId : String}
    (found : (routes.foldl (fun store route => store.save (fun text => text) route 0) store).routes
      accountId = some route) : route ∈ routes ∨ store.routes accountId = some route := by
  induction routes generalizing store with
  | nil => exact .inr found
  | cons first rest ih =>
    rcases ih found with later | here
    · exact .inl (List.mem_cons_of_mem _ later)
    · change (if accountId = first.accountId then some first else store.routes accountId) = _ at here
      split at here
      next =>
        cases here
        exact .inl List.mem_cons_self
      next => exact .inr here

theorem mem_of_stored (stored : Stores (storeOf routes) route) : route ∈ routes :=
  (mem_of_filled stored).resolve_right fun none => nomatch none

end MastopodFederation.Guarantees.StaleListings
