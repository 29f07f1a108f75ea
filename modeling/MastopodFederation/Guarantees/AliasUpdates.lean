import MastopodFederation.Source.AtAliasStore

/-!
# Updates of an alias

Where every SET finds the record that its GET read, the stored alias is that of the calls
applied one after another, and a deleted alias stays deleted until it is put again. A
SET over a newer record loses it.
-/
namespace MastopodFederation.Guarantees.AliasUpdates
open Lib.GuardedRun Source.AtAliasStore

variable {κ : Type} [DecidableEq κ]

abbrev Runs (guard : Callers κ → κ → Prop) : Callers κ → Callers κ → Prop :=
  Reaches (ofFunction next) guard

def Current (s : Callers κ) (caller : κ) : Prop := ∀ found ∈ s.read caller, s.stored = some found

instance (s : Callers κ) (caller : κ) : Decidable (Current s caller) :=
  inferInstanceAs (Decidable (∀ found ∈ s.read caller, s.stored = some found))

def callsOf (order : List (κ × Call)) (caller : κ) : List Call :=
  (order.filter (·.1 = caller)).map (·.2)

def Explains (start s : Callers κ) (order : List (κ × Call)) : Prop :=
  (∀ caller, callsOf order caller ++ s.calls caller = start.calls caller) ∧
    s.stored = order.foldl (fun stored entry => InMemory.apply stored entry.2) start.stored

def Deleted (stored : Option AtAliasRecord) : Prop := ∃ found ∈ stored, found.deletedAt.isSome

variable {caller : κ}

theorem next_spec {s t : Callers κ} (current : Current s caller) (step : next s caller = some t) :
    (t.stored = s.stored ∧ t.calls = s.calls) ∨
    ∃ call rest, s.calls caller = call :: rest ∧ t.stored = InMemory.apply s.stored call ∧
      t.calls = Function.update s.calls caller rest := by
  unfold next at step
  split at step
  · cases step
  · next call rest found calls read =>
    cases step
    have stored := current found read
    exact .inr ⟨call, rest, calls, by cases call <;> simp [InMemory.apply, stored, Call.change], rfl⟩
  · next record rest calls _ =>
    cases step
    exact .inr ⟨_, rest, calls, rfl, rfl⟩
  · next call rest notPut calls _ =>
    split at step
    · next stored =>
      cases step
      refine .inr ⟨call, rest, calls, ?_, rfl⟩
      cases call <;> simp_all [InMemory.apply]
    · cases step
      exact .inl ⟨rfl, rfl⟩

theorem Explains.step {start s t : Callers κ} (current : Current s caller)
    (step : next s caller = some t) (explained : ∃ order, Explains start s order) :
    ∃ order, Explains start t order := by
  obtain ⟨order, calls, stored⟩ := explained
  obtain ⟨sameStored, sameCalls⟩ | ⟨call, rest, first, newStored, newCalls⟩ := next_spec current step
  · exact ⟨order, sameCalls ▸ calls, sameStored ▸ stored⟩
  · refine ⟨order ++ [(caller, call)], ?_, by simp [newStored, stored]⟩
    intro other
    rw [← calls other, newCalls]
    by_cases same : caller = other
    · subst same
      simp [callsOf, first]
    · simp [callsOf, same, Function.update_of_ne (Ne.symm same)]

def NoPuts (s : Callers κ) : Prop := ∀ caller, ∀ call ∈ s.calls caller, ∀ record, call ≠ .put record

theorem deleted_step {s t : Callers κ} (current : Current s caller)
    (step : next s caller = some t) (kept : NoPuts s ∧ Deleted s.stored) :
    NoPuts t ∧ Deleted t.stored := by
  obtain ⟨noPuts, found, stored, deleted⟩ := kept
  obtain ⟨sameStored, sameCalls⟩ | ⟨call, rest, first, newStored, newCalls⟩ := next_spec current step
  · exact ⟨fun other => sameCalls ▸ noPuts other, found, sameStored ▸ stored, deleted⟩
  · have notPut := noPuts caller call (by simp [first])
    constructor
    · intro other
      rw [newCalls]
      by_cases same : other = caller
      · subst same
        rw [Function.update_self]
        exact fun later listed => noPuts other later (by simp [first, listed])
      · rw [Function.update_of_ne same]
        exact noPuts other
    · rw [Option.mem_def.mp stored] at newStored
      cases call with
      | put record => exact absurd rfl (notPut record)
      | markDeleted deletedAt => exact ⟨_, newStored, rfl⟩
      | updateCidAndRev cid rev now => exact ⟨_, newStored, deleted⟩

/-- Where every SET finds what its GET read, the calls take effect in an order that each caller
kept, and an alias deleted on the way stays deleted without a put. -/
theorem updates_in_order {start s t : Callers κ}
    (before : Runs Current start s) (after : Runs Current s t) :
    ((∀ caller, t.calls caller = []) → ∃ order : List (κ × Call),
      (∀ caller, callsOf order caller = start.calls caller) ∧
      t.stored = order.foldl (fun stored entry => InMemory.apply stored entry.2) start.stored) ∧
    (NoPuts s → Deleted s.stored → Deleted t.stored) := by
  constructor
  · intro finished
    have nothing : ∃ order, Explains start start order := ⟨[], by simp [callsOf], rfl⟩
    obtain ⟨order, calls, stored⟩ := Reaches.invariant
      (fun _ _ _ explained current step => Explains.step current step explained)
      (before.trans after) nothing
    exact ⟨order, fun caller => by simpa [finished] using calls caller, stored⟩
  · intro noPuts deleted
    exact (Reaches.invariant (I := fun s => NoPuts s ∧ Deleted s.stored)
      (fun _ _ _ kept current step => deleted_step current step kept) after ⟨noPuts, deleted⟩).2

def activeAlias : AtAliasRecord :=
  { canonicalRefId := "ref", did := "did:plc:a", collection := "app.bsky.feed.post", rkey := "r"
    atUri := "at://did:plc:a/app.bsky.feed.post/r", createdAt := "t0", updatedAt := "t0" }

def raced : Callers Bool where
  stored := some activeAlias
  calls caller := if caller then [.updateCidAndRev "cid" "rev" "t2"] else [.markDeleted "t1"]

theorem updates_in_order_raced : ∃ t, Runs Current raced t ∧ ∃ order : List (Bool × Call),
    (∀ caller, callsOf order caller = raced.calls caller) ∧
      t.stored = order.foldl (fun stored entry => InMemory.apply stored entry.2) raced.stored :=
  have run : Runs Current raced _ := reaches_of_runGuarded [true, true, false, false] _ _ rfl
  ⟨_, run, (updates_in_order .refl run).1 fun caller => by cases caller <;> rfl⟩

/-- The update reads before the deletion and writes after it has returned. -/
theorem deletion_lost : ¬ ∀ s t : Callers Bool, Runs always raced s → Runs always s t →
    NoPuts s → Deleted s.stored → Deleted t.stored := by
  intro kept
  have deleted : Runs always raced _ := reaches_of_runLabels [true, false, false] _ _ rfl
  obtain ⟨found, stored, gone⟩ := kept _ _ deleted (reaches_of_runLabels [true] _ _ rfl)
    (by simp [NoPuts, Function.update, raced]) ⟨_, rfl, rfl⟩
  cases stored
  cases gone

end MastopodFederation.Guarantees.AliasUpdates
