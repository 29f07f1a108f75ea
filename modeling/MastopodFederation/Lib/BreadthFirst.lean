import Mathlib.Logic.Relation

/-!
# Breadth-first order

The nodes of a graph in the order in which a queue reaches them, up to a number of nodes. Every
node of the order is reachable from the queue.
-/
namespace MastopodFederation.Lib.BreadthFirst

variable {α : Type} [DecidableEq α] (next : α → List α)

def order : Nat → List α → List α → List α
  | 0, _, _ => []
  | nodes + 1, queue, seen =>
    match queue.dropWhile (· ∈ seen) with
    | [] => []
    | node :: rest =>
      node :: order nodes (rest ++ (next node).filter (· ∉ node :: seen)) (node :: seen)

def Reaches : α → α → Prop := Relation.ReflTransGen fun a b => b ∈ next a

theorem mem_order {nodes : Nat} {queue seen : List α} {b : α}
    (ordered : b ∈ order next nodes queue seen) : ∃ a ∈ queue, Reaches next a b := by
  induction nodes generalizing queue seen with
  | zero => cases ordered
  | succ nodes ih =>
    unfold order at ordered
    split at ordered
    · cases ordered
    · rename_i node rest split
      have node_queued : ∀ a ∈ node :: rest, a ∈ queue := fun a listed =>
        (List.dropWhile_suffix _).subset (split ▸ listed)
      rcases List.mem_cons.mp ordered with rfl | later
      · exact ⟨b, node_queued b List.mem_cons_self, .refl⟩
      · obtain ⟨a, queued, reaches⟩ := ih later
        rcases List.mem_append.mp queued with waiting | linked
        · exact ⟨a, node_queued a (List.mem_cons_of_mem _ waiting), reaches⟩
        · exact ⟨node, node_queued node List.mem_cons_self,
            .head (List.mem_filter.mp linked).1 reaches⟩

end MastopodFederation.Lib.BreadthFirst
