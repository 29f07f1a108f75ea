import Mathlib.Data.List.Basic

/-!
# Ascending lists

Entries that are kept in the order of their keys: ranges of keys are cut out by filters, and
a range that starts lowest is a prefix.
-/
namespace MastopodFederation.Lib.Ascending

variable {α : Type} {key : α → Nat} {entries : List α} {low bound high : Nat}

def Ascending (key : α → Nat) (entries : List α) : Prop :=
  entries.Pairwise fun a b => key a < key b

theorem ascending_nil : Ascending key ([] : List α) := List.Pairwise.nil

theorem Ascending.append (ascending : Ascending key entries) {last : α}
    (greatest : ∀ entry ∈ entries, key entry < key last) : Ascending key (entries ++ [last]) := by
  apply List.pairwise_append.mpr
  refine ⟨ascending, List.pairwise_singleton _ _, ?_⟩
  intro entry listed other single
  rw [List.mem_singleton.mp single]
  exact greatest entry listed

theorem Ascending.filter (ascending : Ascending key entries) (p : α → Bool) :
    Ascending key (entries.filter p) := List.Pairwise.filter p ascending

theorem filter_cut (ascending : Ascending key entries) (p : α → Bool) (bound : Nat) :
    entries.filter (fun entry => decide (key entry ≤ bound) && p entry) ++
      entries.filter (fun entry => decide (bound < key entry) && p entry) = entries.filter p := by
  induction entries with
  | nil => rfl
  | cons first rest ih =>
    obtain ⟨later, ordered⟩ := List.pairwise_cons.mp ascending
    by_cases small : key first ≤ bound
    · have large : ¬bound < key first := by omega
      simp only [List.filter_cons, small, large, decide_true, decide_false, Bool.true_and,
        Bool.false_and, Bool.false_eq_true, if_false]
      split
      · rw [List.cons_append, ih ordered]
      · exact ih ordered
    · have large : bound < key first := by omega
      have none : rest.filter (fun entry => decide (key entry ≤ bound) && p entry) = [] := by
        apply List.filter_eq_nil_iff.mpr
        intro entry listed
        have above := later entry listed
        simp only [Bool.and_eq_true, decide_eq_true_eq, not_and]
        omega
      have tail := ih ordered
      rw [none, List.nil_append] at tail
      simp only [List.filter_cons, small, large, decide_true, decide_false, Bool.true_and,
        Bool.false_and, Bool.false_eq_true, if_false, none, List.nil_append, tail]

theorem filter_le_initial (ascending : Ascending key entries) (bound : Nat) :
    entries.filter (fun entry => key entry ≤ bound) <+: entries := by
  have cut := filter_cut ascending (fun _ => true) bound
  simp only [Bool.and_true, List.filter_true] at cut
  exact ⟨_, cut⟩

theorem take_filter_le (ascending : Ascending key entries) {count : Nat}
    (enough : (entries.filter fun entry => key entry ≤ bound).length ≤ count) :
    (entries.take count).filter (fun entry => key entry ≤ bound) =
      entries.filter fun entry => key entry ≤ bound := by
  apply List.Sublist.eq_of_length_le ((List.take_sublist count entries).filter _)
  have listed : entries.filter (fun entry => key entry ≤ bound) <+: entries.take count :=
    List.prefix_take_iff.mpr ⟨filter_le_initial ascending bound, enough⟩
  have kept := listed.sublist.filter fun entry => key entry ≤ bound
  simp only [List.filter_filter, Bool.and_self] at kept
  exact kept.length_le

theorem Ascending.unique (ascending : Ascending key entries) {a b : α} (first : a ∈ entries)
    (second : b ∈ entries) (same : key a = key b) : a = b := by
  induction entries with
  | nil => nomatch first
  | cons entry rest ih =>
    obtain ⟨later, ordered⟩ := List.pairwise_cons.mp ascending
    rcases List.mem_cons.mp first with rfl | before <;> rcases List.mem_cons.mp second with rfl | after
    · rfl
    · have above := later b after
      omega
    · have above := later a before
      omega
    · exact ih ordered before after

theorem Ascending.find (ascending : Ascending key entries) {entry : α} (listed : entry ∈ entries) :
    entries.find? (fun other => key other = key entry) = some entry := by
  obtain ⟨found, there⟩ : ∃ found, entries.find? (fun other => key other = key entry) = some found :=
    Option.isSome_iff_exists.mp (List.find?_isSome.mpr ⟨entry, listed, decide_eq_true rfl⟩)
  rw [there]
  exact congrArg some (ascending.unique (List.mem_of_find?_eq_some there) listed
    (of_decide_eq_true (List.find?_some (p := fun other => decide (key other = key entry)) there)))

end MastopodFederation.Lib.Ascending
