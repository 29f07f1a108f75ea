import MastopodFederation.Guarantees.IdentityIndexes

/-!
# Lookups by identifier

An index entry that is removed for one account may be the one that another account is found by,
and a call that removes entries in one transaction and writes in another can throw in between.
Apart from that every lookup finds a binding that holds what was looked up.
-/
namespace MastopodFederation.Guarantees.IdentityLookups
open Lib.GuardedRun Source.IdentityBindings IdentityIndexes

section Spec
variable (env : Environment)

def Holds (index : Index) (identifier : String) (binding : IdentityBinding) : Prop :=
  ∃ own, binding.identifier index = some own ∧ indexKey env index own = indexKey env index identifier

def lookup (s : Redis) (index : Index) (identifier : String) :
    Except Failure (Option IdentityBinding) :=
  (Redis.run (getByIndex env index identifier) [] s).1

/-- A binding that is found is stored and holds what was looked up, and what a stored binding holds
is found. -/
def Finds (s : Redis) : Prop :=
  ∀ index identifier,
    (∀ binding, lookup env s index identifier = .ok (some binding) → Holds env index identifier binding) ∧
    ((∃ accountId binding, s.bindings accountId = some binding ∧ Holds env index identifier binding) →
      ∃ accountId binding, lookup env s index identifier = .ok (some binding) ∧
        s.bindings accountId = some binding ∧ Holds env index identifier binding)

structure Proper (binding : IdentityBinding) : Prop where
  account : binding.canonicalAccountId ≠ ""
  identifiers : ∀ index identifier, binding.identifier index = some identifier → identifier ≠ ""

def Releases (s : Redis) (accountId : String) (binding : Option IdentityBinding) : Prop :=
  ∀ old, s.bindings accountId = some old → ∀ index key, keyOf env old index = some key →
    binding.bind (keyOf env · index) ≠ some key →
    ∀ other, other ≠ accountId → ∀ stored, s.bindings other = some stored →
      keyOf env stored index ≠ some key

/-- An account gives up no identifier that another one holds, and no command fails after index
entries were removed. -/
def Admitted (s : Redis) : FaultyCall → Prop
  | (.create binding, _) => Proper binding
  | (.update binding, faults) =>
    Proper binding ∧ Releases env s binding.canonicalAccountId (some binding) ∧ ¬Fails faults 2
  | (.upsert binding, _) =>
    Proper binding ∧ Releases env s binding.canonicalAccountId (some binding)
  | (.delete accountId, faults) =>
    Releases env s accountId none ∧ ¬Fails faults 2 ∧ ¬Fails faults 3

end Spec

structure Indexed (env : Environment) (s : Redis) : Prop where
  proper : ∀ accountId binding, s.bindings accountId = some binding →
    binding.canonicalAccountId = accountId ∧ Proper binding
  sound : ∀ index key accountId, s.index index key = some accountId →
    ∃ binding, s.bindings accountId = some binding ∧ keyOf env binding index = some key
  complete : ∀ accountId binding index key, s.bindings accountId = some binding →
    keyOf env binding index = some key → (s.index index key).isSome = true

section Indexed
variable {env : Environment} {s t : Redis} {binding : IdentityBinding}

theorem indexed_empty : Indexed env .empty where
  proper _ _ none := nomatch none
  sound _ _ _ none := nomatch none
  complete _ _ _ _ none := nomatch none

theorem Indexed.rebind (indexed : Indexed env s) (proper : Proper binding)
    (rebound : Rebound env s (s.bindings binding.canonicalAccountId) binding t)
    (releases : Releases env s binding.canonicalAccountId (some binding)) : Indexed env t where
  proper accountId stored here := by
    rw [rebound.bindings] at here
    split at here
    next same =>
      cases here
      exact ⟨same.symm, proper⟩
    next => exact indexed.proper accountId stored here
  sound index key accountId found := by
    rw [rebound.index] at found
    split at found
    next own =>
      cases found
      exact ⟨binding, by rw [rebound.bindings, if_pos rfl], own⟩
    next other =>
      split at found
      next => nomatch found
      next kept =>
        obtain ⟨stored, there, holds⟩ := indexed.sound index key accountId found
        have apart : accountId ≠ binding.canonicalAccountId := by
          rintro rfl
          rw [there] at kept
          exact kept holds
        exact ⟨stored, by rw [rebound.bindings, if_neg apart, there], holds⟩
  complete accountId stored index key here holds := by
    rw [rebound.bindings] at here
    rw [rebound.index]
    split at here
    next =>
      cases here
      rw [if_pos holds]
      rfl
    next apart =>
      split
      next => rfl
      next other =>
        split
        next gone =>
          obtain ⟨old, before, key_⟩ := Option.bind_eq_some_iff.mp gone
          exact absurd holds (releases old before index key key_ other accountId apart stored here)
        next => exact indexed.complete accountId stored index key here holds

theorem Indexed.bind (indexed : Indexed env s) (proper : Proper binding)
    (free : s.bindings binding.canonicalAccountId = none)
    (rebound : Rebound env s none binding t) : Indexed env t := by
  rw [← free] at rebound
  apply indexed.rebind proper rebound
  intro old stored
  rw [free] at stored
  nomatch stored

theorem Indexed.without {old : IdentityBinding} {accountId : String} (indexed : Indexed env s)
    (stored : s.bindings accountId = some old) (releases : Releases env s accountId none) :
    Indexed env (Redis.without env s accountId old) := by
  have bindings : ∀ id, (Redis.without env s accountId old).bindings id =
      if id = accountId then none else s.bindings id := by
    intro id
    change (if id = accountId then none else (s.applyAll _).bindings id) = _
    rw [remove_effect.1]
  have entries : ∀ i k, (Redis.without env s accountId old).index i k =
      if keyOf env old i = some k then none else s.index i k := fun i k => remove_effect.2 i k
  refine ⟨?_, ?_, ?_⟩
  · intro other binding here
    rw [bindings] at here
    split at here
    next => nomatch here
    next => exact indexed.proper other binding here
  · intro index key other found
    rw [entries] at found
    split at found
    next => nomatch found
    next kept =>
      obtain ⟨binding, there, holds⟩ := indexed.sound index key other found
      have apart : other ≠ accountId := by
        rintro rfl
        rw [stored] at there
        cases there
        exact kept holds
      exact ⟨binding, by rw [bindings, if_neg apart, there], holds⟩
  · intro other binding index key here holds
    rw [bindings] at here
    rw [entries]
    split at here
    next => nomatch here
    next apart =>
      split
      next gone => exact absurd holds (releases old stored index key gone nofun other apart binding here)
      next => exact indexed.complete other binding index key here holds

end Indexed

section Calls
variable {env : Environment} {s : Redis}

theorem identifier_normalize (binding : IdentityBinding) (existing : Option IdentityBinding)
    (index : Index) : (normalize binding existing).identifier index = binding.identifier index := by
  cases index <;> rfl

theorem keyOf_normalize (binding : IdentityBinding) (existing : Option IdentityBinding) :
    keyOf env (normalize binding existing) = keyOf env binding := by
  funext index
  unfold keyOf
  rw [identifier_normalize]

theorem perform_indexed {call : FaultyCall} (indexed : Indexed env s) (admitted : Admitted env s call) :
    Indexed env (perform env s call).2 ∧
      ((perform env s call).1 ≠ .ok () → (perform env s call).2 = s) := by
  obtain ⟨call, faults⟩ := call
  have refused : ∀ {call : FaultyCall}, Refused env s call → Indexed env (perform env s call).2 ∧
      ((perform env s call).1 ≠ .ok () → (perform env s call).2 = s) := by
    rintro call ⟨e, same⟩
    rw [same]
    exact ⟨indexed, fun _ => rfl⟩
  cases call with
  | create binding =>
    rcases perform_create faults with same | ⟨same, free⟩
    · exact refused same
    · rw [same]
      exact ⟨indexed.bind admitted free create_rebound, fun failed => absurd rfl failed⟩
  | update binding =>
    obtain ⟨proper, releases, works⟩ := admitted
    rcases perform_update faults with same | failed | ⟨old, stored, same⟩
    · exact refused same
    · exact absurd failed works
    · rw [same]
      refine ⟨indexed.rebind proper ?_ releases, fun failed => absurd rfl failed⟩
      rw [stored]
      exact update_rebound
  | upsert binding =>
    obtain ⟨proper, releases⟩ := admitted
    rcases perform_upsert faults with same | same
    · exact refused same
    · rw [same]
      have proper' : Proper (normalize binding (s.bindings binding.canonicalAccountId)) := by
        refine ⟨proper.account, fun index identifier own => ?_⟩
        rw [identifier_normalize] at own
        exact proper.identifiers index identifier own
      refine ⟨indexed.rebind proper' upsert_rebound ?_, fun failed => absurd rfl failed⟩
      intro old stored index key held given
      rw [Option.bind_some, keyOf_normalize] at given
      exact releases old stored index key held given
  | delete accountId =>
    obtain ⟨releases, works, works'⟩ := admitted
    rcases perform_delete faults with same | failed | failed | ⟨-, same⟩ | ⟨old, stored, same⟩
    · exact refused same
    · exact absurd failed works
    · exact absurd failed works'
    · rw [same]
      exact ⟨indexed, fun failed => absurd rfl failed⟩
    · rw [same]
      exact ⟨indexed.without stored releases, fun failed => absurd rfl failed⟩

theorem Proper.holds_iff {binding : IdentityBinding} (proper : Proper binding) {index : Index}
    {identifier : String} : Holds env index identifier binding ↔
      keyOf env binding index = some (indexKey env index identifier) := by
  unfold Holds keyOf truthy
  constructor
  · rintro ⟨own, here, same⟩
    rw [here, Option.filter_some,
      if_pos (decide_eq_true (proper.identifiers index own here)), Option.map_some, same]
  · intro key
    obtain ⟨own, here, same⟩ := Option.map_eq_some_iff.mp key
    exact ⟨own, (Option.filter_eq_some_iff.mp here).1, same⟩

theorem lookup_eq (s : Redis) (index : Index) (identifier : String) :
    lookup env s index identifier = .ok (((s.index index (indexKey env index identifier)).filter
      (· ≠ "")).bind s.bindings) := by
  have runs (key : String) (next : Option String → Run (Option IdentityBinding)) :
      (Redis.run (getIndex index key >>= next) [] s).1 =
        (Redis.run (next (s.index index key)) [] s).1 := rfl
  unfold lookup getByIndex
  rw [runs]
  cases s.index index (indexKey env index identifier) with
  | none => rfl
  | some accountId =>
    dsimp only
    by_cases empty : accountId = ""
    · rw [if_pos empty, Option.filter_some, if_neg (by simpa using empty)]
      rfl
    · rw [if_neg empty, Option.filter_some, if_pos (by simpa using empty)]
      rfl

theorem Indexed.finds (indexed : Indexed env s) : Finds env s := by
  have found : ∀ index identifier accountId, s.index index (indexKey env index identifier) =
      some accountId → ∃ binding, lookup env s index identifier = .ok (some binding) ∧
        s.bindings accountId = some binding ∧ Holds env index identifier binding := by
    intro index identifier accountId there
    obtain ⟨binding, stored, key⟩ := indexed.sound index _ accountId there
    obtain ⟨own, proper⟩ := indexed.proper accountId binding stored
    have named : accountId ≠ "" := own ▸ proper.account
    refine ⟨binding, ?_, stored, proper.holds_iff.mpr key⟩
    rw [lookup_eq, there, Option.filter_some, if_pos (by simpa using named), Option.bind_some, stored]
  intro index identifier
  constructor
  · intro binding returned
    cases there : s.index index (indexKey env index identifier) with
    | none =>
      rw [lookup_eq, there] at returned
      nomatch returned
    | some accountId =>
      obtain ⟨other, same, -, holds⟩ := found index identifier accountId there
      rw [same] at returned
      cases returned
      exact holds
  · rintro ⟨accountId, binding, stored, holds⟩
    have key := (indexed.proper accountId binding stored).2.holds_iff.mp holds
    have some := indexed.complete accountId binding index _ stored key
    obtain ⟨other, there⟩ := Option.isSome_iff_exists.mp some
    exact ⟨other, found index identifier other there⟩

end Calls

def repositoryStep (env : Environment) (s : Redis) (call : FaultyCall) (t : Redis) : Prop :=
  (perform env s call).2 = t

/-- In every run in which no account gives up an identifier that another one holds and no command
fails after index entries were removed, lookups find their bindings and a call that throws
changes none of them. -/
theorem lookups_find (env : Environment) (s : Redis)
    (run : Reaches (repositoryStep env) (Admitted env) .empty s) :
    Finds env s ∧ ∀ call, Admitted env s call → (perform env s call).1 ≠ .ok () →
      ∀ index identifier, lookup env (perform env s call).2 index identifier =
        lookup env s index identifier := by
  have indexed : Indexed env s := by
    apply run.invariant (I := Indexed env) _ indexed_empty
    rintro s call t indexed admitted rfl
    exact (perform_indexed indexed admitted).1
  refine ⟨indexed.finds, fun call admitted throws index identifier => ?_⟩
  rw [(perform_indexed indexed admitted).2 throws]

def plainly : Environment := ⟨String.toLower, fun _ => none⟩

def account (accountId actorUri webId : String) : IdentityBinding :=
  bindingOf ⟨accountId, "ctx", webId, actorUri⟩ "key"

theorem proper_account {accountId actorUri webId : String} (named : accountId ≠ "")
    (acts : actorUri ≠ "") (owned : webId ≠ "") : Proper (account accountId actorUri webId) := by
  refine ⟨named, fun index identifier own => ?_⟩
  cases index with
  | did | handle => nomatch own
  | actor =>
    cases own
    exact acts
  | webId =>
    cases own
    exact owned

theorem lookups_find_moved :
    let created := (perform plainly .empty (.create (account "a" "u" "w"), [])).2
    let moved := (perform plainly created (.update (account "a" "v" "w"), [])).2
    (lookup plainly moved .actor "v" = .ok (some (account "a" "v" "w")) ∧
      lookup plainly moved .actor "u" = .ok none) ∧
    Finds plainly moved ∧ ∀ call, Admitted plainly moved call → (perform plainly moved call).1 ≠ .ok () →
      ∀ index identifier, lookup plainly (perform plainly moved call).2 index identifier =
        lookup plainly moved index identifier := by
  intro created moved
  have first : Reaches (repositoryStep plainly) (Admitted plainly) .empty created :=
    Reaches.refl.tail (e := (.create (account "a" "u" "w"), []))
      (proper_account (by decide) (by decide) (by decide)) rfl
  have admitted : Admitted plainly created (.update (account "a" "v" "w"), []) := by
    refine ⟨proper_account (by decide) (by decide) (by decide), ?_, by decide⟩
    intro old _ index key _ _ other apart stored there
    have none : created.bindings other = none := if_neg apart
    rw [none] at there
    nomatch there
  have now : lookup plainly moved .actor "v" = .ok (some (account "a" "v" "w")) :=
    (lookup_eq moved .actor "v").trans (congrArg Except.ok (by decide +kernel))
  have before : lookup plainly moved .actor "u" = .ok none :=
    (lookup_eq moved .actor "u").trans (congrArg Except.ok (by decide +kernel))
  exact ⟨⟨now, before⟩,
    lookups_find plainly moved (first.tail admitted rfl)⟩

/-- Two accounts have the same actor URI, and the first one moves to another. -/
theorem lookup_lost : ¬ ∀ (env : Environment) (s : Redis),
    Reaches (repositoryStep env) always .empty s →
      Finds env s ∧ ∀ call, (perform env s call).1 ≠ .ok () →
        ∀ index identifier, lookup env (perform env s call).2 index identifier =
          lookup env s index identifier := by
  intro finds
  let both := (perform plainly (perform plainly .empty (.create (account "a" "u" "w"), [])).2
    (.create (account "b" "u" "x"), [])).2
  let moved := (perform plainly both (.update (account "a" "v" "w"), [])).2
  have run : Reaches (repositoryStep plainly) always .empty moved :=
    ((Reaches.refl.tail (e := (.create (account "a" "u" "w"), [])) trivial rfl).tail
      (e := (.create (account "b" "u" "x"), [])) trivial rfl).tail
      (e := (.update (account "a" "v" "w"), [])) trivial rfl
  have stored : moved.bindings "b" = some (account "b" "u" "x") := by decide +kernel
  have lost : lookup plainly moved .actor "u" = .ok none :=
    (lookup_eq moved .actor "u").trans (congrArg Except.ok (by decide +kernel))
  obtain ⟨_, _, found, -⟩ := ((finds plainly moved run).1 .actor "u").2 ⟨_, _, stored, "u", rfl, rfl⟩
  rw [lost] at found
  nomatch found

end MastopodFederation.Guarantees.IdentityLookups
