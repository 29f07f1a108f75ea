import Mathlib

/-!
# A cache with a byte budget

Entries stand in the order of their last use, oldest first; a new one evicts from the front until
it fits. Whatever is asked, every kept entry is an answer that was given for its key, and the
counted bytes are those of the kept entries and within the budget.
-/
namespace MastopodFederation.Lib.BudgetCache

structure Cached (ν : Type) where
  value : ν
  bytes : Nat

structure Cache (κ ν : Type) where
  entries : List (κ × Cached ν)
  total : Int

variable {κ ν ε : Type}

def empty : Cache κ ν := ⟨[], 0⟩

def evict (budget bytes : Nat) : List (κ × Cached ν) → Int → Cache κ ν
  | [], total => ⟨[], total⟩
  | oldest :: rest, total =>
    if total + bytes > budget then evict budget bytes rest (total - oldest.2.bytes)
    else ⟨oldest :: rest, total⟩

section
variable [DecidableEq κ]

def remove (cache : Cache κ ν) (key : κ) : Cache κ ν :=
  match cache.entries.lookup key with
  | some existing =>
    ⟨cache.entries.filter (·.1 ≠ key), cache.total - existing.bytes⟩
  | none => cache

def insert (budget : Nat) (cache : Cache κ ν) (key : κ) (value : ν) (bytes : Nat) : Cache κ ν :=
  if bytes > budget then cache
  else
    let others := remove cache key
    let room := evict budget bytes others.entries others.total
    ⟨room.entries ++ [(key, ⟨value, bytes⟩)], room.total + bytes⟩

def memo (budget : Nat) (cache : Cache κ ν) (key : κ) (answer : Except ε (ν × Nat)) :
    Cache κ ν × Except ε ν :=
  match cache.entries.lookup key with
  | some cached =>
    ({ cache with entries := cache.entries.filter (·.1 ≠ key) ++ [(key, cached)] },
      .ok cached.value)
  | none =>
    match answer with
    | .error error => (cache, .error error)
    | .ok (value, bytes) => (insert budget cache key value bytes, .ok value)

end

def bytesOf (entries : List (κ × Cached ν)) : Nat := (entries.map fun entry => entry.2.bytes).sum

structure Sound (Answer : κ → ν → Prop) (budget : Nat) (cache : Cache κ ν) : Prop where
  nodup : (cache.entries.map Prod.fst).Nodup
  answers : ∀ entry ∈ cache.entries, Answer entry.1 entry.2.value
  counted : cache.total = bytesOf cache.entries
  within : cache.total ≤ budget

variable {Answer : κ → ν → Prop} {budget : Nat} {cache : Cache κ ν}

theorem sound_empty : Sound Answer budget (empty : Cache κ ν) where
  nodup := List.nodup_nil
  answers := nofun
  counted := rfl
  within := Int.natCast_nonneg budget

theorem bytesOf_append (front behind : List (κ × Cached ν)) :
    bytesOf (front ++ behind) = bytesOf front + bytesOf behind := by
  simp [bytesOf]

theorem bytesOf_perm {one other : List (κ × Cached ν)} (same : one.Perm other) :
    bytesOf one = bytesOf other := (same.map _).sum_eq

theorem bytesOf_cons (entry : κ × Cached ν) (rest : List (κ × Cached ν)) :
    bytesOf (entry :: rest) = entry.2.bytes + bytesOf rest := by
  simp [bytesOf]

theorem evict_spec (budget bytes : Nat) (entries : List (κ × Cached ν)) (total : Int)
    (counted : total = bytesOf entries) :
    (evict budget bytes entries total).entries <:+ entries ∧
      (evict budget bytes entries total).total =
        bytesOf (evict budget bytes entries total).entries := by
  induction entries generalizing total with
  | nil => exact ⟨List.suffix_refl _, counted⟩
  | cons oldest rest ih =>
    rw [evict]
    split
    · have after : total - oldest.2.bytes = bytesOf rest := by
        rw [counted, bytesOf_cons]
        omega
      obtain ⟨final, count⟩ := ih _ after
      exact ⟨final.trans (List.suffix_cons oldest rest), count⟩
    · exact ⟨List.suffix_refl _, counted⟩

theorem evict_fits {budget bytes : Nat} (small : bytes ≤ budget) (entries : List (κ × Cached ν))
    (total : Int) (counted : total = bytesOf entries) :
    (evict budget bytes entries total).total + bytes ≤ budget := by
  induction entries generalizing total with
  | nil =>
    have none : total = 0 := counted
    simp only [evict, none]
    omega
  | cons oldest rest ih =>
    rw [evict]
    split
    · refine ih _ ?_
      rw [counted, bytesOf_cons]
      omega
    · rename_i fits
      exact Int.not_lt.mp fits

section
variable [DecidableEq κ] {entries : List (κ × Cached ν)} {key : κ} {cached : Cached ν}

theorem mem_of_lookup (found : entries.lookup key = some cached) : (key, cached) ∈ entries := by
  obtain ⟨front, behind, rfl, _⟩ := List.lookup_eq_some_iff.mp found
  simp

theorem perm_of_lookup (nodup : (entries.map Prod.fst).Nodup)
    (found : entries.lookup key = some cached) :
    entries.Perm ((key, cached) :: entries.filter (·.1 ≠ key)) := by
  obtain ⟨front, behind, rfl, apart⟩ := List.lookup_eq_some_iff.mp found
  rw [List.map_append, List.map_cons, List.nodup_append] at nodup
  have kept : ∀ others : List (κ × Cached ν), (∀ entry ∈ others, entry.1 ≠ key) →
      others.filter (·.1 ≠ key) = others :=
    fun others distinct => List.filter_eq_self.mpr fun entry mem =>
      decide_eq_true (distinct entry mem)
  have before : front.filter (·.1 ≠ key) = front :=
    kept front fun entry mem same => by simpa [same] using apart entry mem
  have after : behind.filter (·.1 ≠ key) = behind :=
    kept behind fun entry mem same =>
      (List.nodup_cons.mp nodup.2.1).1 (List.mem_map.mpr ⟨entry, mem, same⟩)
  rw [List.filter_append, List.filter_cons_of_neg (by simp), before, after]
  exact List.perm_middle

theorem Sound.refresh (sound : Sound Answer budget cache)
    (found : cache.entries.lookup key = some cached) : Sound Answer budget
      { cache with entries := cache.entries.filter (·.1 ≠ key) ++ [(key, cached)] } := by
  have same : cache.entries.Perm (cache.entries.filter (·.1 ≠ key) ++ [(key, cached)]) :=
    (perm_of_lookup sound.nodup found).trans (List.perm_append_singleton _ _).symm
  exact {
    nodup := (same.map Prod.fst).nodup_iff.mp sound.nodup
    answers := fun entry mem => sound.answers entry (same.mem_iff.mpr mem)
    counted := sound.counted.trans (congrArg Nat.cast (bytesOf_perm same))
    within := sound.within }

theorem Sound.insert (sound : Sound Answer budget cache) {value : ν} {bytes : Nat}
    (absent : cache.entries.lookup key = none) (answer : Answer key value) :
    Sound Answer budget (insert budget cache key value bytes) := by
  unfold BudgetCache.insert
  split
  · exact sound
  · rename_i small
    simp only [remove, absent]
    obtain ⟨final, counted⟩ := evict_spec budget bytes cache.entries cache.total sound.counted
    have fits := evict_fits (Nat.le_of_not_lt small) cache.entries cache.total sound.counted
    exact {
      nodup := by
        rw [List.map_append]
        refine List.Nodup.append ((sound.nodup.sublist (final.sublist.map _)))
          (List.nodup_singleton key) ?_
        rintro other mem last
        obtain rfl := List.mem_singleton.mp last
        obtain ⟨entry, inside, same⟩ := List.mem_map.mp mem
        have missing := List.lookup_eq_none_iff.mp absent entry (final.mem inside)
        simp [same] at missing
      answers := by
        intro entry mem
        rcases List.mem_append.mp mem with old | last
        · exact sound.answers entry (final.mem old)
        · rw [List.mem_singleton.mp last]
          exact answer
      counted := by
        rw [bytesOf_append, counted]
        simp [bytesOf]
      within := fits }

theorem memo_spec (sound : Sound Answer budget cache) {answer : Except ε (ν × Nat)}
    (own : ∀ value, Answer key value ↔ answer.map Prod.fst = .ok value) :
    Sound Answer budget (memo budget cache key answer).1 ∧
      (memo budget cache key answer).2 = answer.map Prod.fst := by
  unfold memo
  split
  · rename_i cached found
    have given := (own cached.value).mp (sound.answers _ (mem_of_lookup found))
    exact ⟨sound.refresh found, given.symm⟩
  · rename_i absent
    split
    · exact ⟨sound, rfl⟩
    · exact ⟨sound.insert absent ((own _).mpr rfl), rfl⟩

end
end MastopodFederation.Lib.BudgetCache
