import Mathlib
import MastopodFederation.Source.IdentityBindings

/-!
# What the commands on identity bindings do

The effect of each group of commands on the bindings and the index entries, and what a call of the
repository leaves behind, depending on the command that fails in it.
-/
namespace MastopodFederation.Guarantees.IdentityIndexes
open Source.IdentityBindings

def keyOf (env : Environment) (binding : IdentityBinding) (index : Index) : Option String :=
  (truthy (binding.identifier index)).map (indexKey env index)

def entry (index : Index) (key : String) : Option String → Command
  | some accountId => .setIndex index key accountId
  | none => .delIndex index key

section Effects
variable {env : Environment} {s : Redis} {binding old : IdentityBinding} {index : Index}
  {key accountId : String}

theorem applyAll_append (first second : List Command) :
    s.applyAll (first ++ second) = (s.applyAll first).applyAll second := List.foldl_append

theorem apply_entry (value : Option String) :
    s.apply (entry index key value) =
      { s with index := fun i k => if i = index ∧ k = key then value else s.index i k } := by
  cases value <;> rfl

theorem applyAll_entries (keys : Index → Option String) (value : Option String) :
    ∀ (families : List Index) (s : Redis),
      (s.applyAll (families.filterMap fun i => (keys i).map fun k => entry i k value)).bindings =
        s.bindings ∧
      ∀ i k, (s.applyAll (families.filterMap fun i => (keys i).map fun k => entry i k value)).index
        i k = if i ∈ families ∧ keys i = some k then value else s.index i k
  | [], s => ⟨rfl, fun i k => (if_neg fun both => List.not_mem_nil both.1).symm⟩
  | family :: families, s => by
    cases first : keys family with
    | none =>
      rw [List.filterMap_cons_none (by rw [first]; rfl)]
      obtain ⟨bindings, entries⟩ := applyAll_entries keys value families s
      refine ⟨bindings, fun i k => ?_⟩
      rw [entries]
      congr 1
      simp only [List.mem_cons, eq_iff_iff]
      constructor
      · exact fun both => ⟨.inr both.1, both.2⟩
      · rintro ⟨rfl | listed, own⟩
        · rw [first] at own
          cases own
        · exact ⟨listed, own⟩
    | some k₀ =>
      have head : (family :: families).filterMap (fun i => (keys i).map fun k => entry i k value) =
          entry family k₀ value ::
            families.filterMap fun i => (keys i).map fun k => entry i k value :=
        List.filterMap_cons_some (by rw [first]; rfl)
      obtain ⟨bindings, entries⟩ :=
        applyAll_entries keys value families (s.apply (entry family k₀ value))
      rw [apply_entry] at bindings entries
      rw [head]
      change ((s.apply _).applyAll _).bindings = _ ∧ ∀ i k, ((s.apply _).applyAll _).index i k = _
      rw [apply_entry]
      refine ⟨bindings, fun i k => ?_⟩
      rw [entries]
      by_cases later : i ∈ families ∧ keys i = some k
      · rw [if_pos later, if_pos ⟨List.mem_cons_of_mem _ later.1, later.2⟩]
      · rw [if_neg later]
        dsimp only
        by_cases here : i = family ∧ k = k₀
        · obtain ⟨rfl, rfl⟩ := here
          rw [if_pos ⟨rfl, rfl⟩, if_pos ⟨List.mem_cons_self, first⟩]
        · rw [if_neg here, if_neg]
          rintro ⟨listed, own⟩
          rcases List.mem_cons.mp listed with rfl | listed
          · rw [first] at own
            exact here ⟨rfl, (Option.some.inj own).symm⟩
          · exact later ⟨listed, own⟩

theorem applyAll_entries_all (keys : Index → Option String) (value : Option String) :
    ∀ (families : List Index) (s : Redis),
      (s.applyAll (families.filterMap fun i => (keys i).map fun k => entry i k value)).all = s.all
  | [], _ => rfl
  | family :: families, s => by
    cases first : keys family with
    | none =>
      rw [List.filterMap_cons_none (by rw [first]; rfl)]
      exact applyAll_entries_all keys value families s
    | some key =>
      have head : (family :: families).filterMap (fun i => (keys i).map fun k => entry i k value) =
          entry family key value ::
            families.filterMap fun i => (keys i).map fun k => entry i k value :=
        List.filterMap_cons_some (by rw [first]; rfl)
      rw [head]
      have later := applyAll_entries_all keys value families (s.apply (entry family key value))
      rw [apply_entry] at later
      change ((s.apply _).applyAll _).all = _
      rw [apply_entry]
      exact later

theorem mem_indexes (index : Index) : index ∈ indexes := by
  cases index <;> decide

theorem indexCommands_entries (value : Option String) :
    indexCommands env binding (fun i k => entry i k value) =
      indexes.filterMap fun i => (keyOf env binding i).map fun k => entry i k value := by
  unfold indexCommands keyOf
  congr 1
  funext i
  rw [Option.map_map]
  rfl

theorem remove_effect :
    (s.applyAll (indexCommands env old .delIndex)).bindings = s.bindings ∧
      ∀ i k, (s.applyAll (indexCommands env old .delIndex)).index i k =
        if keyOf env old i = some k then none else s.index i k := by
  have same : indexCommands env old .delIndex = indexCommands env old fun i k => entry i k none := rfl
  obtain ⟨bindings, entries⟩ := applyAll_entries (keyOf env old) none indexes s
  rw [same, indexCommands_entries]
  refine ⟨bindings, fun i k => ?_⟩
  rw [entries]
  simp only [mem_indexes, true_and]

theorem write_effect :
    (∀ id, (s.applyAll (writeCommands env binding)).bindings id =
      if id = binding.canonicalAccountId then some binding else s.bindings id) ∧
    ∀ i k, (s.applyAll (writeCommands env binding)).index i k =
      if keyOf env binding i = some k then some binding.canonicalAccountId else s.index i k := by
  have same : indexCommands env binding
      (fun i k => .setIndex i k binding.canonicalAccountId) =
        indexCommands env binding fun i k => entry i k (some binding.canonicalAccountId) := rfl
  obtain ⟨bindings, entries⟩ := applyAll_entries (keyOf env binding)
    (some binding.canonicalAccountId) indexes
    ((s.apply (.set binding)).apply (.sadd binding.canonicalAccountId))
  change (∀ id, (((s.apply _).apply _).applyAll _).bindings id = _) ∧
    ∀ i k, (((s.apply _).apply _).applyAll _).index i k = _
  rw [same, indexCommands_entries]
  refine ⟨fun id => ?_, fun i k => ?_⟩
  · rw [bindings]
    rfl
  · rw [entries]
    simp only [mem_indexes, true_and]
    rfl

theorem remove_all : (s.applyAll (indexCommands env old .delIndex)).all = s.all := by
  have same : indexCommands env old .delIndex = indexCommands env old fun i k => entry i k none := rfl
  rw [same, indexCommands_entries]
  exact applyAll_entries_all (keyOf env old) none indexes s

theorem write_all : (s.applyAll (writeCommands env binding)).all =
    s.all.insert binding.canonicalAccountId := by
  have same : indexCommands env binding
      (fun i k => .setIndex i k binding.canonicalAccountId) =
        indexCommands env binding fun i k => entry i k (some binding.canonicalAccountId) := rfl
  change (((s.apply _).apply _).applyAll _).all = _
  rw [same, indexCommands_entries]
  exact applyAll_entries_all (keyOf env binding) (some binding.canonicalAccountId) indexes
    ((s.apply (.set binding)).apply (.sadd binding.canonicalAccountId))

structure Rebound (env : Environment) (s : Redis) (old : Option IdentityBinding)
    (binding : IdentityBinding) (t : Redis) : Prop where
  bindings : ∀ id, t.bindings id =
    if id = binding.canonicalAccountId then some binding else s.bindings id
  index : ∀ i k, t.index i k =
    if keyOf env binding i = some k then some binding.canonicalAccountId
    else if old.bind (keyOf env · i) = some k then none else s.index i k

theorem create_rebound : Rebound env s none binding (s.applyAll (writeCommands env binding)) where
  bindings := write_effect.1
  index i k := by
    rw [write_effect.2]
    rfl

theorem update_rebound : Rebound env s (some old) binding
    ((s.applyAll (indexCommands env old .delIndex)).applyAll (writeCommands env binding)) where
  bindings id := by rw [write_effect.1, remove_effect.1]
  index i k := by
    rw [write_effect.2, remove_effect.2]
    rfl

theorem replacedCommands_entries :
    replacedCommands env old binding = indexes.filterMap fun i =>
      (if old.identifier i = binding.identifier i then none else keyOf env old i).map
        fun k => entry i k none := by
  unfold replacedCommands keyOf
  congr 1
  funext i
  split
  · rfl
  · rw [Option.map_map]
    rfl

theorem upsert_rebound {existing : Option IdentityBinding} :
    Rebound env s existing binding (s.applyAll ((match existing with
      | none => []
      | some existing => replacedCommands env existing binding) ++ writeCommands env binding)) := by
  rw [applyAll_append]
  cases existing with
  | none => exact create_rebound
  | some old =>
    obtain ⟨bindings, entries⟩ := applyAll_entries
      (fun i => if old.identifier i = binding.identifier i then none else keyOf env old i) none
      indexes s
    rw [← replacedCommands_entries] at bindings entries
    refine ⟨fun id => by rw [write_effect.1, bindings], fun i k => ?_⟩
    rw [write_effect.2, entries]
    simp only [mem_indexes, true_and, Option.bind_some]
    by_cases same : old.identifier i = binding.identifier i
    · have keys : keyOf env old i = keyOf env binding i := by
        unfold keyOf
        rw [same]
      by_cases own : keyOf env binding i = some k
      · rw [if_pos own, if_pos own]
      · have other : keyOf env old i ≠ some k := keys ▸ own
        simp only [if_neg own, if_neg other, if_pos same, ite_eq_right_iff]
        exact nofun
    · simp only [if_neg same]

end Effects

def Fails (faults : List Bool) (number : Nat) : Prop := faults[number]?.getD false = true

instance (faults : List Bool) (number : Nat) : Decidable (Fails faults number) :=
  inferInstanceAs (Decidable (_ = true))

section Commands
variable {α : Type} {s : Redis} {faults : List Bool} {accountId operation : String}
  {commands : List Command}

theorem run_get {next : Option IdentityBinding → Run α} :
    Redis.run (get accountId >>= next) faults s =
      if faults.headD false then (.error .redis, s)
      else Redis.run (next (s.bindings accountId)) faults.tail s := rfl

theorem run_existsBinding {next : Bool → Run α} :
    Redis.run (existsBinding accountId >>= next) faults s =
      if faults.headD false then (.error .redis, s)
      else Redis.run (next (s.bindings accountId).isSome) faults.tail s := rfl

variable {next : Unit → Run α}

theorem run_exec : Redis.run (execMultiOrThrow commands operation >>= next) faults s =
      if faults.headD false then (.error (.repository .persistenceError s!"{operation} failed"), s)
      else Redis.run (next ()) faults.tail (s.applyAll commands) := rfl

theorem run_last : Redis.run (execMultiOrThrow commands operation) faults s =
    if faults.headD false then (.error (.repository .persistenceError s!"{operation} failed"), s)
    else (.ok (), s.applyAll commands) := rfl

theorem run_del : Redis.run (del accountId >>= next) faults s =
      if faults.headD false then (.error .redis, s)
      else Redis.run (next ()) faults.tail (s.answer (.del accountId)).2 := rfl

theorem run_srem : Redis.run (srem accountId >>= next) faults s =
      if faults.headD false then (.error .redis, s)
      else Redis.run (next ()) faults.tail (s.answer (.srem accountId)).2 := rfl

theorem headD_tail_tail : faults.tail.tail.headD false = faults[2]?.getD false := by
  rw [← List.drop_one, ← List.drop_one, List.drop_drop, List.headD_eq_head?_getD, List.head?_drop]

theorem headD_tail_tail_tail : faults.tail.tail.tail.headD false = faults[3]?.getD false := by
  rw [← List.drop_one, ← List.drop_one, ← List.drop_one, List.drop_drop, List.drop_drop,
    List.headD_eq_head?_getD, List.head?_drop]

end Commands

section Calls
variable {env : Environment} {s : Redis} {binding : IdentityBinding} {accountId : String}
  (faults : List Bool)

def Refused (env : Environment) (s : Redis) (call : FaultyCall) : Prop :=
  ∃ e, perform env s call = (.error e, s)

theorem perform_create : Refused env s (.create binding, faults) ∨
    perform env s (.create binding, faults) = (.ok (), s.applyAll (writeCommands env binding)) ∧
      s.bindings binding.canonicalAccountId = none := by
  change (∃ e, Redis.run (create env binding) faults s = _) ∨
    Redis.run (create env binding) faults s = _ ∧ _
  unfold create
  rw [run_existsBinding]
  split
  · exact .inl ⟨_, rfl⟩
  cases stored : s.bindings binding.canonicalAccountId with
  | some _ => exact .inl ⟨_, rfl⟩
  | none =>
    rw [Option.isSome_none, if_neg Bool.false_ne_true]
    unfold write
    rw [run_last]
    split
    · exact .inl ⟨_, rfl⟩
    · exact .inr ⟨rfl, rfl⟩

theorem perform_update : Refused env s (.update binding, faults) ∨
    Fails faults 2 ∨
    ∃ old, s.bindings binding.canonicalAccountId = some old ∧
      perform env s (.update binding, faults) = (.ok (),
        (s.applyAll (indexCommands env old .delIndex)).applyAll (writeCommands env binding)) := by
  change (∃ e, Redis.run (update env binding) faults s = _) ∨ _ ∨ ∃ old, _ ∧
    Redis.run (update env binding) faults s = _
  unfold update
  rw [run_get]
  split
  · exact .inl ⟨_, rfl⟩
  cases stored : s.bindings binding.canonicalAccountId with
  | none => exact .inl ⟨_, rfl⟩
  | some old =>
    dsimp only
    unfold removeIndexes write
    rw [run_exec]
    split
    · exact .inl ⟨_, rfl⟩
    rw [run_last]
    split
    next failed => exact .inr (.inl (headD_tail_tail.symm.trans failed))
    next => exact .inr (.inr ⟨old, rfl, rfl⟩)

theorem perform_upsert : Refused env s (.upsert binding, faults) ∨
    perform env s (.upsert binding, faults) = (.ok (), s.applyAll
      ((match s.bindings binding.canonicalAccountId with
        | none => []
        | some existing => replacedCommands env existing
            (normalize binding (s.bindings binding.canonicalAccountId))) ++
        writeCommands env (normalize binding (s.bindings binding.canonicalAccountId)))) := by
  change (∃ e, Redis.run (upsert env binding) faults s = _) ∨
    Redis.run (upsert env binding) faults s = _
  unfold upsert getByCanonicalAccountId
  rw [run_get]
  split
  · exact .inl ⟨_, rfl⟩
  dsimp only
  rw [run_last]
  split
  · exact .inl ⟨_, rfl⟩
  · exact .inr rfl

def Redis.without (env : Environment) (s : Redis) (accountId : String) (old : IdentityBinding) :
    Redis :=
  (((s.applyAll (indexCommands env old .delIndex)).answer (.del accountId)).2.answer
    (.srem accountId)).2

theorem perform_delete : Refused env s (.delete accountId, faults) ∨
    Fails faults 2 ∨ Fails faults 3 ∨
    (s.bindings accountId = none ∧ perform env s (.delete accountId, faults) = (.ok (), s)) ∨
    ∃ old, s.bindings accountId = some old ∧
      perform env s (.delete accountId, faults) = (.ok (), Redis.without env s accountId old) := by
  have runs : perform env s (.delete accountId, faults) =
      Redis.run (get accountId >>= fun stored => (do
        let _ ← (match stored with
          | none => pure false
          | some binding => do
            removeIndexes env binding
            del accountId
            srem accountId
            pure true : Run Bool)
        pure () : Run Unit)) faults s := rfl
  unfold Refused
  rw [runs, run_get]
  split
  · exact .inl ⟨_, rfl⟩
  cases stored : s.bindings accountId with
  | none => exact .inr (.inr (.inr (.inl ⟨rfl, rfl⟩)))
  | some old =>
    have rest : ∀ faults, Redis.run (do
        let _ ← (do
          removeIndexes env old
          del accountId
          srem accountId
          pure true : Run Bool)
        pure () : Run Unit) faults s =
        Redis.run (removeIndexes env old >>= fun _ => del accountId >>= fun _ =>
          srem accountId >>= fun _ => pure ()) faults s := fun _ => rfl
    dsimp only
    rw [rest]
    unfold removeIndexes
    rw [run_exec]
    split
    · exact .inl ⟨_, rfl⟩
    rw [run_del]
    split
    next failed => exact .inr (.inl (headD_tail_tail.symm.trans failed))
    rw [run_srem]
    split
    next failed => exact .inr (.inr (.inl (headD_tail_tail_tail.symm.trans failed)))
    next => exact .inr (.inr (.inr (.inr ⟨old, rfl, rfl⟩)))

end Calls

end MastopodFederation.Guarantees.IdentityIndexes
