import MastopodFederation.Lib.WorkerPool
import Mathlib.Data.List.Nodup

/-!
# Rights that can be used once

Holders have rights, numbered; a right that is used joins the list of used ones. As long
as a right is only acquired when nobody holds it and it was not used, it is used at most
once. In a pool the holders are the workers.
-/
namespace MastopodFederation.Lib.SingleUse
open WorkerPool

variable {K τ S : Type} {holds : Nat → Option K} {used : List K} {i : Nat} {k : K}

def setRight (holds : Nat → Option K) (i : Nat) (right : Option K) : Nat → Option K :=
  fun j => if j = i then right else holds j

structure Exclusive (holds : Nat → Option K) (used : List K) : Prop where
  once : used.Nodup
  alone : ∀ i j k, holds i = some k → holds j = some k → i = j
  unused : ∀ i k, holds i = some k → k ∉ used

theorem exclusive_none : Exclusive (fun _ => none) ([] : List K) where
  once := List.nodup_nil
  alone _ _ _ held := nomatch held
  unused _ _ held := nomatch held

theorem setRight_some {right : Option K} {j : Nat} {k : K}
    (held : setRight holds i right j = some k) :
    (j = i ∧ right = some k) ∨ (j ≠ i ∧ holds j = some k) := by
  unfold setRight at held
  split at held
  next same => exact .inl ⟨same, held⟩
  next other => exact .inr ⟨other, held⟩

theorem Exclusive.acquire (exclusive : Exclusive holds used) (fresh : k ∉ used)
    (free : ∀ j, holds j ≠ some k) : Exclusive (setRight holds i (some k)) used where
  once := exclusive.once
  alone a b right first second := by
    rcases setRight_some first with ⟨here, ⟨⟩⟩ | ⟨-, before⟩ <;>
      rcases setRight_some second with ⟨there, same⟩ | ⟨-, other⟩
    · rw [here, there]
    · exact absurd other (free b)
    · cases same
      exact absurd before (free a)
    · exact exclusive.alone a b right before other
  unused a right held := by
    rcases setRight_some held with ⟨-, ⟨⟩⟩ | ⟨-, before⟩
    · exact fresh
    · exact exclusive.unused a right before

theorem Exclusive.drop (exclusive : Exclusive holds used) :
    Exclusive (setRight holds i none) used where
  once := exclusive.once
  alone a b right first second := by
    rcases setRight_some first with ⟨-, ⟨⟩⟩ | ⟨-, before⟩
    rcases setRight_some second with ⟨-, ⟨⟩⟩ | ⟨-, other⟩
    exact exclusive.alone a b right before other
  unused a right held := by
    rcases setRight_some held with ⟨-, ⟨⟩⟩ | ⟨-, before⟩
    exact exclusive.unused a right before

theorem Exclusive.use (exclusive : Exclusive holds used) (held : holds i = some k) :
    Exclusive (setRight holds i none) (k :: used) where
  once := List.nodup_cons.mpr ⟨exclusive.unused i k held, exclusive.once⟩
  alone := exclusive.drop.alone
  unused a right found := by
    rcases setRight_some found with ⟨-, ⟨⟩⟩ | ⟨other, before⟩
    intro listed
    rcases List.mem_cons.mp listed with rfl | earlier
    · exact other (exclusive.alone a i right before held)
    · exact exclusive.unused a right before earlier

def rights (right : τ → S → Option K) (duties : Nat → Option (τ × S)) : Nat → Option K :=
  fun i => (duties i).bind fun duty => right duty.1 duty.2

theorem rights_setDuty (right : τ → S → Option K) (duties : Nat → Option (τ × S)) (i : Nat)
    (duty : Option (τ × S)) :
    rights right (setDuty duties i duty) =
      setRight (rights right duties) i (duty.bind fun d => right d.1 d.2) := by
  funext j
  simp only [rights, setDuty, setRight]
  split <;> rfl

theorem setRight_self (holds : Nat → Option K) (i : Nat) :
    setRight holds i (holds i) = holds := by
  funext j
  unfold setRight
  split
  next same => rw [same]
  next => rfl

end MastopodFederation.Lib.SingleUse
