import Mathlib.Tactic.TypeStar

/-!
# Records stored under their own names

A store is a list with one record for each name. A record is found under its own name,
so what a lookup returns carries the name it was asked for.
-/
namespace MastopodFederation.Lib.RecordStore

variable {α K : Type} [DecidableEq K] {name : α → K} {records : List α} {record : α} {key : K}

def find (name : α → K) (records : List α) (key : K) : Option α :=
  records.find? fun r => name r = key

def erase (name : α → K) (records : List α) (key : K) : List α :=
  records.filter fun r => name r ≠ key

def put (name : α → K) (records : List α) (record : α) : List α :=
  record :: erase name records (name record)

theorem name_of_find (found : find name records key = some record) : name record = key := by
  simpa using List.find?_some found

@[simp] theorem find_nil : find name [] key = none := rfl

@[simp] theorem find_erase (gone : K) :
    find name (erase name records gone) key = if key = gone then none else find name records key := by
  unfold find erase
  rw [List.find?_filter]
  split
  next same =>
    rw [List.find?_eq_none]
    intro r _
    simp [same]
  next other =>
    congr 1
    funext r
    by_cases here : name r = key
    · simp [here, other]
    · simp [here]

@[simp] theorem find_put :
    find name (put name records record) key =
      if key = name record then some record else find name records key := by
  unfold put
  by_cases same : name record = key
  · simp [find, same]
  · have other : key ≠ name record := fun h => same h.symm
    rw [if_neg other]
    have later : find name (record :: erase name records (name record)) key =
        find name (erase name records (name record)) key := by
      simp [find, same]
    rw [later, find_erase, if_neg other]

theorem isSome_find_put :
    (find name (put name records record) key).isSome ↔
      key = name record ∨ (find name records key).isSome := by
  rw [find_put]
  split
  next same => simp [same]
  next other => simp [other]

theorem isSome_find_erase {gone : K} (there : (find name (erase name records gone) key).isSome) :
    (find name records key).isSome := by
  rw [find_erase] at there
  split at there
  · nomatch there
  · exact there

def lookup (name : α → K) (records : List α) (key : K) : Option { r : α // name r = key } :=
  (find name records key).attach.map fun r => ⟨r.1, name_of_find r.2⟩

theorem find_of_lookup {r : { r : α // name r = key }} (found : lookup name records key = some r) :
    find name records key = some r.1 := by
  unfold lookup at found
  obtain ⟨⟨s, held⟩, -, rfl⟩ := Option.map_eq_some_iff.mp found
  exact held

theorem find_of_lookup_none (absent : lookup name records key = none) :
    find name records key = none := by
  simpa [lookup] using absent

end MastopodFederation.Lib.RecordStore
