import Mathlib.Logic.Relation

/-!
# Guarded runs of a labelled transition system

A run is a chain of steps; a guarded run also meets a condition on the state and the label before
each of them. The rules below are the only inductions over runs that the developments need.
-/
namespace MastopodFederation.Lib.GuardedRun

universe u v
variable {σ : Type u} {ε : Type v}

def Guarded (step : σ → ε → σ → Prop) (guard : σ → ε → Prop) (s t : σ) : Prop :=
  ∃ e, guard s e ∧ step s e t

def Reaches (step : σ → ε → σ → Prop) (guard : σ → ε → Prop) : σ → σ → Prop :=
  Relation.ReflTransGen (Guarded step guard)

def always : σ → ε → Prop := fun _ _ => True

instance (s : σ) (e : ε) : Decidable (always s e) := .isTrue trivial

variable {step : σ → ε → σ → Prop} {guard : σ → ε → Prop} {s t r : σ}

theorem Reaches.refl : Reaches step guard s s := Relation.ReflTransGen.refl

theorem Reaches.tail (run : Reaches step guard s t) {e : ε} (admitted : guard t e)
    (next : step t e r) : Reaches step guard s r :=
  Relation.ReflTransGen.tail run ⟨e, admitted, next⟩

theorem Reaches.trans (first : Reaches step guard s t) (second : Reaches step guard t r) :
    Reaches step guard s r :=
  Relation.ReflTransGen.trans first second

theorem Reaches.invariant {I : σ → Prop}
    (keeps : ∀ s e t, I s → guard s e → step s e t → I t)
    (run : Reaches step guard s t) (start : I s) : I t := by
  induction run with
  | refl => exact start
  | tail _ last ih =>
    obtain ⟨e, admitted, next⟩ := last
    exact keeps _ e _ ih admitted next

/-- A reflexive and transitive relation that every admitted step respects, in
states where an invariant holds, relates both ends of a guarded run. -/
theorem Reaches.relates {I : σ → Prop} {R : σ → σ → Prop}
    (rfl' : ∀ s, I s → R s s) (trans' : ∀ s t r, I s → I t → I r → R s t → R t r → R s r)
    (keeps : ∀ s e t, I s → guard s e → step s e t → I t)
    (respects : ∀ s e t, I s → guard s e → step s e t → R s t)
    (run : Reaches step guard s t) (start : I s) : R s t := by
  induction run with
  | refl => exact rfl' _ start
  | tail before last ih =>
    obtain ⟨e, admitted, next⟩ := last
    have middle := Reaches.invariant keeps before start
    exact trans' _ _ _ start middle (keeps _ e _ middle admitted next) ih
      (respects _ e _ middle admitted next)

def ofFunction (next : σ → ε → Option σ) : σ → ε → σ → Prop :=
  fun s e t => next s e = some t

def runLabels (next : σ → ε → Option σ) : σ → List ε → Option σ
  | s, [] => some s
  | s, e :: rest => (next s e).bind fun t => runLabels next t rest

variable {next : σ → ε → Option σ}

theorem reaches_of_runLabels : ∀ (labels : List ε) (s t : σ), runLabels next s labels = some t →
      Reaches (ofFunction next) always s t
  | [], s, t, h => by
    cases h
    exact Reaches.refl
  | e :: rest, s, t, h => by
    simp only [runLabels, Option.bind_eq_some_iff] at h
    obtain ⟨mid, first, later⟩ := h
    have one : Reaches (ofFunction next) always s mid :=
      Reaches.refl.tail (e := e) trivial first
    exact one.trans (reaches_of_runLabels rest mid t later)

def runGuarded (next : σ → ε → Option σ) (guard : σ → ε → Prop) [∀ s e, Decidable (guard s e)] :
    σ → List ε → Option σ
  | s, [] => some s
  | s, e :: rest =>
    if guard s e then (next s e).bind fun t => runGuarded next guard t rest else none

theorem reaches_of_runGuarded [∀ s e, Decidable (guard s e)] :
    ∀ (labels : List ε) (s t : σ), runGuarded next guard s labels = some t →
      Reaches (ofFunction next) guard s t
  | [], s, t, h => by
    cases h
    exact Reaches.refl
  | e :: rest, s, t, h => by
    simp only [runGuarded, Option.ite_none_right_eq_some, Option.bind_eq_some_iff] at h
    obtain ⟨admitted, mid, first, later⟩ := h
    have one : Reaches (ofFunction next) guard s mid := Reaches.refl.tail admitted first
    exact one.trans (reaches_of_runGuarded rest mid t later)

end MastopodFederation.Lib.GuardedRun
