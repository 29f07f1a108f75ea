import Mathlib.Data.List.Sort

/-!
# Finite maps as sorted lists of items

A finite map is its list of items in strictly increasing key order. A list cut around a key,
with smaller keys on the left and larger ones on the right, is operated on by operating on
what lies between.
-/
namespace MastopodFederation.Lib.SortedMap

universe u v
variable {κ : Type u} {ν : Type v} [LinearOrder κ]

abbrev Items (κ : Type u) (ν : Type v) := List (κ × ν)

def Sorted (items : Items κ ν) : Prop := items.Pairwise (·.1 < ·.1)

def below (key : κ) (items : Items κ ν) : Items κ ν := items.filter (·.1 < key)

def above (key : κ) (items : Items κ ν) : Items κ ν := items.filter (key < ·.1)

def lookup (key : κ) (items : Items κ ν) : Option ν := (items.find? (·.1 = key)).map (·.2)

def insert (key : κ) (value : ν) (items : Items κ ν) : Items κ ν :=
  below key items ++ (key, value) :: above key items

def erase (key : κ) (items : Items κ ν) : Items κ ν := items.filter (·.1 ≠ key)

def Before (items : Items κ ν) (key : κ) : Prop := ∀ item ∈ items, item.1 < key

def After (key : κ) (items : Items κ ν) : Prop := ∀ item ∈ items, key < item.1

section Lists

variable {key other : κ} {value : ν} {items left middle right : Items κ ν}

@[simp] theorem before_nil : Before ([] : Items κ ν) key := by simp [Before]

@[simp] theorem after_nil : After key ([] : Items κ ν) := by simp [After]

theorem before_append :
    Before (left ++ right) key ↔ Before left key ∧ Before right key := by
  simp [Before, or_imp, forall_and]

theorem after_cons : After key ((other, value) :: items) ↔ key < other ∧ After key items := by
  simp [After]

theorem sorted_append :
    Sorted (left ++ right) ↔
      Sorted left ∧ Sorted right ∧ ∀ a ∈ left, ∀ b ∈ right, a.1 < b.1 :=
  List.pairwise_append

theorem sorted_cons : Sorted ((key, value) :: items) ↔ After key items ∧ Sorted items :=
  List.pairwise_cons

theorem Sorted.before_of_append (sorted : Sorted (left ++ (key, value) :: right)) :
    Before left key := fun item mem =>
  (sorted_append.mp sorted).2.2 item mem (key, value) (by simp)

theorem Sorted.after_of_append (sorted : Sorted (left ++ (key, value) :: right)) :
    After key right :=
  (sorted_cons.mp (sorted_append.mp sorted).2.1).1

theorem below_of_before (before : Before items key) : below key items = items := by
  simpa [below, List.filter_eq_self, Before] using before

theorem below_of_after (after : After key items) : below key items = [] := by
  simpa [below, List.filter_eq_nil_iff] using fun a b mem => (after (a, b) mem).le

theorem above_of_after (after : After key items) : above key items = items := by
  simpa [above, List.filter_eq_self, After] using after

theorem above_of_before (before : Before items key) : above key items = [] := by
  simpa [above, List.filter_eq_nil_iff] using fun a b mem => (before (a, b) mem).le

theorem erase_of_before (before : Before items key) : erase key items = items := by
  simpa [erase, List.filter_eq_self] using fun a b mem => (before (a, b) mem).ne

theorem erase_of_after (after : After key items) : erase key items = items := by
  simpa [erase, List.filter_eq_self] using fun a b mem => (after (a, b) mem).ne'

theorem lookup_eq_none : lookup key items = none ↔ ∀ item ∈ items, item.1 ≠ key := by
  simp [lookup]

theorem lookup_of_before (before : Before items key) : lookup key items = none := by
  simpa [lookup] using fun a b mem => (before (a, b) mem).ne

theorem lookup_of_after (after : After key items) : lookup key items = none := by
  simpa [lookup] using fun a b mem => (after (a, b) mem).ne'

end Lists

section Around

variable {key : κ} {value was : ν} {left middle right : Items κ ν}

/-! A list cut around a key: only the middle is searched and changed. -/

theorem lookup_around (before : Before left key) (after : After key right) :
    lookup key (left ++ middle ++ right) = lookup key middle := by
  have inLeft := lookup_of_before before
  have inRight := lookup_of_after after
  simp only [lookup, Option.map_eq_none_iff] at inLeft inRight ⊢
  simp [List.find?_append, inLeft, inRight]

theorem below_around (before : Before left key) (after : After key right) :
    below key (left ++ middle ++ right) = left ++ below key middle := by
  have inLeft := below_of_before before
  have inRight := below_of_after after
  simp only [below] at inLeft inRight ⊢
  simp [List.filter_append, inLeft, inRight]

theorem above_around (before : Before left key) (after : After key right) :
    above key (left ++ middle ++ right) = above key middle ++ right := by
  have inLeft := above_of_before before
  have inRight := above_of_after after
  simp only [above] at inLeft inRight ⊢
  simp [List.filter_append, inLeft, inRight]

theorem erase_around (before : Before left key) (after : After key right) :
    erase key (left ++ middle ++ right) = left ++ erase key middle ++ right := by
  have inLeft := erase_of_before before
  have inRight := erase_of_after after
  simp only [erase] at inLeft inRight ⊢
  simp only [List.filter_append, inLeft, inRight]

theorem insert_around (before : Before left key) (after : After key right) :
    insert key value (left ++ middle ++ right) = left ++ insert key value middle ++ right := by
  simp [insert, below_around before after, above_around before after, -List.append_assoc]
  simp

theorem insert_ne_nil : insert key value middle ≠ [] := by simp [insert]

@[simp] theorem below_nil : below key ([] : Items κ ν) = [] := rfl

@[simp] theorem above_nil : above key ([] : Items κ ν) = [] := rfl

@[simp] theorem erase_nil : erase key ([] : Items κ ν) = [] := rfl

@[simp] theorem lookup_nil : lookup key ([] : Items κ ν) = none := rfl

@[simp] theorem insert_nil : insert key value ([] : Items κ ν) = [(key, value)] := rfl

theorem lookup_bound (before : Before left key) :
    lookup key (left ++ (key, value) :: right) = some value := by
  have inLeft := lookup_of_before before
  simp only [lookup, Option.map_eq_none_iff] at inLeft ⊢
  simp [List.find?_append, inLeft]

theorem insert_bound (before : Before left key) (after : After key right) :
    insert key value (left ++ (key, was) :: right) = left ++ (key, value) :: right := by
  have cut : insert key value (left ++ [(key, was)] ++ right) =
      left ++ insert key value [(key, was)] ++ right := insert_around before after
  simpa [insert, below, above] using cut

theorem erase_bound (before : Before left key) (after : After key right) :
    erase key (left ++ (key, was) :: right) = left ++ right := by
  have cut : erase key (left ++ [(key, was)] ++ right) = left ++ erase key [(key, was)] ++ right :=
    erase_around before after
  simpa [erase] using cut

end Around

section Operations

variable {key other : κ} {value : ν} {items : Items κ ν}

theorem below_before : Before (below key items) key := by
  intro item mem
  simpa using (List.mem_filter.mp mem).2

theorem above_after : After key (above key items) := by
  intro item mem
  simpa using (List.mem_filter.mp mem).2

theorem Sorted.insert (sorted : Sorted items) : Sorted (insert key value items) := by
  refine sorted_append.mpr ⟨sorted.filter _, sorted_cons.mpr ⟨above_after, sorted.filter _⟩, ?_⟩
  intro a inBelow b mem
  have small := below_before a inBelow
  rcases List.mem_cons.mp mem with rfl | inAbove
  · exact small
  · exact small.trans (above_after b inAbove)

theorem Sorted.erase (sorted : Sorted items) : Sorted (erase key items) := sorted.filter _

theorem mem_insert : (key, value) ∈ SortedMap.insert key value items := by
  simp [SortedMap.insert]

theorem key_mem_insert {item : κ × ν} (key : κ) (value : ν) (mem : item ∈ items) :
    ∃ kept ∈ SortedMap.insert key value items, kept.1 = item.1 := by
  rcases lt_trichotomy item.1 key with small | same | large
  · exact ⟨item, by simp [SortedMap.insert, below, mem, small], rfl⟩
  · exact ⟨(key, value), mem_insert, same.symm⟩
  · exact ⟨item, by simp [SortedMap.insert, above, mem, large], rfl⟩

theorem Sorted.lookup_eq_some (sorted : Sorted items) :
    lookup key items = some value ↔ (key, value) ∈ items := by
  constructor
  · intro found
    obtain ⟨item, here, rfl⟩ := Option.map_eq_some_iff.mp found
    have same : item.1 = key := by simpa using List.find?_some here
    subst same
    exact List.mem_of_find?_eq_some here
  · intro mem
    obtain ⟨left, right, rfl⟩ := List.append_of_mem mem
    exact lookup_bound sorted.before_of_append

theorem Sorted.ext {others : Items κ ν} (sorted : Sorted items) (others_sorted : Sorted others)
    (same : ∀ key, lookup key items = lookup key others) : items = others := by
  have : Std.Antisymm fun a b : κ × ν => a.1 < b.1 := ⟨fun _ _ lt gt => absurd gt lt.asymm⟩
  have : Std.Irrefl fun a b : κ × ν => a.1 < b.1 := ⟨fun _ => lt_irrefl _⟩
  refine List.Pairwise.eq_of_mem_iff sorted others_sorted fun (key, value) => ?_
  rw [← sorted.lookup_eq_some, ← others_sorted.lookup_eq_some, same]

theorem lookup_erase :
    lookup other (erase key items) = if other = key then none else lookup other items := by
  unfold lookup erase
  rw [List.find?_filter]
  split
  next same =>
    subst same
    simp
  next different =>
    congr 2
    funext item
    by_cases found : item.1 = other
    · simp [found, different]
    · simp [found]

theorem lookup_insert :
    lookup other (insert key value items) =
      if other = key then some value else lookup other items := by
  split
  next same =>
    subst same
    exact lookup_bound below_before
  next different =>
    unfold lookup insert below above
    rw [List.find?_append, List.find?_filter, List.find?_cons, List.find?_filter]
    rcases lt_or_gt_of_ne different with small | large
    · have found : (fun item : κ × ν => decide (item.1 < key) && decide (item.1 = other)) =
          fun item => decide (item.1 = other) := by
        funext item
        by_cases same : item.1 = other <;> simp [same, small]
      have missed : items.find? (fun item => decide (key < item.1) && decide (item.1 = other)) =
          none := by
        refine List.find?_eq_none.mpr fun item _ => ?_
        by_cases same : item.1 = other <;> simp [same, small.le]
      simp [found, missed, Ne.symm different]
    · have found : (fun item : κ × ν => decide (key < item.1) && decide (item.1 = other)) =
          fun item => decide (item.1 = other) := by
        funext item
        by_cases same : item.1 = other <;> simp [same, large]
      have missed : items.find? (fun item => decide (item.1 < key) && decide (item.1 = other)) =
          none := by
        refine List.find?_eq_none.mpr fun item _ => ?_
        by_cases same : item.1 = other <;> simp [same, large.le]
      simp [found, missed, Ne.symm different]

end Operations

end MastopodFederation.Lib.SortedMap
