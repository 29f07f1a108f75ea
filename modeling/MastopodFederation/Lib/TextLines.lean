import Mathlib.Data.List.Basic

/-!
# Texts cut at a separator

The pieces of a list between the occurrences of a separator, a list joined from pieces
with a separator between them, and an entry made of a key, a separator and a value.
Each is determined by the list it comes from, as long as the pieces and the key do not
hold the separator.
-/
namespace MastopodFederation.Lib.TextLines

variable {α : Type} [BEq α] [LawfulBEq α] {separator : α}

theorem mem_piece {xs piece : List α} (cut : piece ∈ xs.splitOn separator) :
    ∀ x ∈ piece, x ∈ xs ∧ x ≠ separator := by
  induction xs generalizing piece with
  | nil =>
    rw [List.splitOn_nil, List.mem_singleton] at cut
    simp [cut]
  | cons x xs ih =>
    rw [List.splitOn_cons_eq_if_modifyHead] at cut
    split at cut
    case isTrue same =>
      rcases List.mem_cons.mp cut with rfl | later
      · simp
      · intro y listed
        exact ⟨List.mem_cons_of_mem x (ih later y listed).1, (ih later y listed).2⟩
    case isFalse other =>
      cases pieces : xs.splitOn separator with
      | nil => exact absurd pieces (List.splitOn_ne_nil separator xs)
      | cons first rest =>
        rw [pieces, List.modifyHead_cons, List.mem_cons] at cut
        have kept : ∀ piece ∈ first :: rest, ∀ y ∈ piece, y ∈ x :: xs ∧ y ≠ separator := by
          intro piece listed y found
          have cutThere := ih (pieces ▸ listed) y found
          exact ⟨List.mem_cons_of_mem x cutThere.1, cutThere.2⟩
        rcases cut with rfl | later
        · intro y listed
          rcases List.mem_cons.mp listed with rfl | inFirst
          · exact ⟨List.mem_cons_self, by simpa using other⟩
          · exact kept first List.mem_cons_self y inFirst
        · exact kept piece (List.mem_cons_of_mem first later)

theorem intercalate_inj {xs ys : List (List α)} (left : ∀ piece ∈ xs, piece ≠ [] ∧ separator ∉ piece)
    (right : ∀ piece ∈ ys, piece ≠ [] ∧ separator ∉ piece)
    (same : [separator].intercalate xs = [separator].intercalate ys) : xs = ys := by
  have cut : ∀ {zs : List (List α)}, (∀ piece ∈ zs, piece ≠ [] ∧ separator ∉ piece) →
      ([separator].intercalate zs).splitOn separator = if zs = [] then [[]] else zs := by
    intro zs pieces
    split
    · rename_i empty
      rw [empty]
      rfl
    · rename_i some
      exact List.splitOn_intercalate separator (fun piece listed => (pieces piece listed).2) some
  have both := cut left
  rw [same, cut right] at both
  split at both <;> split at both
  case isTrue.isTrue noneRight noneLeft => rw [noneLeft, noneRight]
  case isTrue.isFalse => exact absurd rfl (left [] (both ▸ List.mem_singleton_self [])).1
  case isFalse.isTrue => exact absurd rfl (right [] (both ▸ List.mem_singleton_self [])).1
  case isFalse.isFalse => exact both.symm

omit [BEq α] [LawfulBEq α] in
theorem entry_inj {key key' value value' : List α} (inLeft : separator ∉ key)
    (inRight : separator ∉ key') (same : key ++ separator :: value = key' ++ separator :: value') :
    key = key' ∧ value = value' := by
  induction key generalizing key' with
  | nil =>
    cases key' with
    | nil => exact ⟨rfl, (List.cons.inj same).2⟩
    | cons x rest =>
      obtain ⟨rfl, -⟩ := List.cons.inj same
      simp at inRight
  | cons x rest ih =>
    cases key' with
    | nil =>
      obtain ⟨rfl, -⟩ := List.cons.inj same
      simp at inLeft
    | cons x' rest' =>
      obtain ⟨rfl, after⟩ := List.cons.inj same
      obtain ⟨keys, values⟩ := ih (fun listed => inLeft (List.mem_cons_of_mem x listed))
        (fun listed => inRight (List.mem_cons_of_mem x listed)) after
      exact ⟨by rw [keys], values⟩

end MastopodFederation.Lib.TextLines
