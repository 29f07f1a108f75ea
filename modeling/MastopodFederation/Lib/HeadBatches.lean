import Mathlib.Data.List.Basic
import Mathlib.Order.Basic

/-!
# Passes over the head of a list

A pass looks at the first elements of a list: those it can handle leave, the others stay where
they are. An element that can be handled leaves after finitely many passes exactly when fewer
elements that cannot stand before it than a pass looks at. In a list that is sorted stably,
leaving out elements and sorting commute.
-/
namespace MastopodFederation.Lib.HeadBatches

variable {α : Type}

section Passes
variable (stuck : α → Bool) (limit : Nat)

def pass (items : List α) : List α := (items.take limit).filter stuck ++ items.drop limit

def passes (items : List α) : Nat → List α
  | 0 => items
  | count + 1 => pass stuck limit (passes items count)

variable {stuck limit} {earlier later : List α}

theorem pass_append (long : limit ≤ earlier.length) :
    pass stuck limit (earlier ++ later) = pass stuck limit earlier ++ later := by
  rw [pass, pass, List.take_append_of_le_length long, List.drop_append_of_le_length long,
    List.append_assoc]

theorem filter_pass (items : List α) : (pass stuck limit items).filter stuck = items.filter stuck := by
  have both := congrArg (List.filter stuck) (List.take_append_drop limit items)
  rw [List.filter_append] at both
  rw [pass, List.filter_append, List.filter_filter, ← both]
  simp

theorem passes_succ (items : List α) (count : Nat) :
    passes stuck limit items (count + 1) = passes stuck limit (pass stuck limit items) count := by
  induction count with
  | zero => rfl
  | succ count ih => rw [passes, ih, passes]

theorem passes_of_blocked (blocked : limit ≤ (earlier.filter stuck).length) (count : Nat) :
    ∃ front, passes stuck limit (earlier ++ later) count = front ++ later := by
  induction count generalizing earlier with
  | zero => exact ⟨earlier, rfl⟩
  | succ count ih =>
    have long : limit ≤ earlier.length := Nat.le_trans blocked (List.length_filter_le _ _)
    rw [passes_succ, pass_append long]
    apply ih
    rw [filter_pass]
    exact blocked

theorem length_pass_lt {items : List α} (long : limit ≤ items.length)
    (few : (items.filter stuck).length < limit) :
    (pass stuck limit items).length < items.length := by
  have inside : ((items.take limit).filter stuck).length ≤ (items.filter stuck).length :=
    ((List.take_sublist limit items).filter stuck).length_le
  rw [pass, List.length_append, List.length_drop]
  omega

variable {item : α}

theorem mem_pass {items : List α} (mem : item ∈ pass stuck limit items) : item ∈ items := by
  rcases List.mem_append.mp mem with taken | dropped
  · exact List.mem_of_mem_take (List.mem_filter.mp taken).1
  · exact List.mem_of_mem_drop dropped

theorem leaves_of_few (free : stuck item = false)
    (after : item ∉ later) (earlier : List α) (before : item ∉ earlier)
    (few : (earlier.filter stuck).length < limit) :
    ∃ count, item ∉ passes stuck limit (earlier ++ item :: later) count := by
  by_cases long : limit ≤ earlier.length
  · have shorter := length_pass_lt long few
    have fewer : ((pass stuck limit earlier).filter stuck).length < limit := by
      rw [filter_pass]
      exact few
    obtain ⟨count, left⟩ := leaves_of_few free after (pass stuck limit earlier)
      (fun mem => before (mem_pass mem)) fewer
    refine ⟨count + 1, ?_⟩
    rw [passes_succ, pass_append long]
    exact left
  · refine ⟨1, fun mem => ?_⟩
    rcases List.mem_append.mp (show item ∈ pass stuck limit (earlier ++ item :: later) from mem) with taken | dropped
    · rw [List.mem_filter, free] at taken
      exact Bool.false_ne_true taken.2
    · obtain ⟨more, size⟩ := Nat.exists_eq_add_of_lt (Nat.lt_of_not_le long)
      rw [size, Nat.add_assoc, List.drop_append, Nat.add_sub_cancel_left, List.drop_succ_cons,
        List.drop_eq_nil_of_le (by omega), List.nil_append] at dropped
      exact after (List.mem_of_mem_drop dropped)
termination_by earlier.length

/-- An element that can be handled leaves exactly when fewer stuck elements than a pass looks at
stand before it. -/
theorem leaves_iff (free : stuck item = false) (before : item ∉ earlier) (after : item ∉ later) :
    (∃ count, item ∉ passes stuck limit (earlier ++ item :: later) count) ↔
      (earlier.filter stuck).length < limit := by
  constructor
  · intro ⟨count, left⟩
    by_contra many
    obtain ⟨front, same⟩ : ∃ front, passes stuck limit (earlier ++ item :: later) count =
        front ++ item :: later := passes_of_blocked (Nat.le_of_not_lt many) count
    rw [same] at left
    simp at left
  · exact leaves_of_few free after earlier before

end Passes

section Sorting
variable {le : α → α → Bool}

theorem cut_eq {first second other rest : List α} {p : α → Bool} (same : first ++ second = other ++ rest)
    (low : ∀ a ∈ first, p a = true) (high : ∀ a ∈ second, p a = false)
    (low' : ∀ a ∈ other, p a = true) (high' : ∀ a ∈ rest, p a = false) :
    first = other ∧ second = rest := by
  have cut : ∀ {left right : List α}, (∀ a ∈ left, p a = true) → (∀ a ∈ right, p a = false) →
      (left ++ right).filter p = left ∧ (left ++ right).filter (fun a => !p a) = right := by
    intro left right lows highs
    constructor
    · rw [List.filter_append, List.filter_eq_self.mpr lows, List.filter_eq_nil_iff.mpr
        fun a mem => by rw [highs a mem]; exact Bool.false_ne_true, List.append_nil]
    · rw [List.filter_append, List.filter_eq_nil_iff.mpr fun a mem => by rw [lows a mem]; simp,
        List.filter_eq_self.mpr fun a mem => by rw [highs a mem]; rfl, List.nil_append]
  obtain ⟨one, two⟩ := cut low high
  obtain ⟨one', two'⟩ := cut low' high'
  exact ⟨by rw [← one, ← one', same], by rw [← two, ← two', same]⟩

theorem filter_mergeSort (trans : ∀ a b c, le a b → le b c → le a c)
    (total : ∀ a b, le a b || le b a) (p : α → Bool) (items : List α) :
    (items.mergeSort le).filter p = (items.filter p).mergeSort le := by
  induction items with
  | nil => simp
  | cons first rest ih =>
    obtain ⟨low, high, whole, others, less⟩ := List.mergeSort_cons trans total first rest
    have sorted := List.pairwise_mergeSort trans total (first :: rest)
    rw [whole, List.pairwise_append, List.pairwise_cons] at sorted
    rw [whole, List.filter_append]
    by_cases kept : p first = true
    · rw [List.filter_cons_of_pos kept, List.filter_cons_of_pos kept]
      obtain ⟨low', high', whole', others', less'⟩ :=
        List.mergeSort_cons trans total first (rest.filter p)
      have sorted' := List.pairwise_mergeSort trans total (first :: rest.filter p)
      rw [whole', List.pairwise_append, List.pairwise_cons] at sorted'
      rw [others, others', List.filter_append] at ih
      obtain ⟨same, same'⟩ := cut_eq (p := fun a => !le first a) ih
        (fun a mem => less a (List.mem_filter.mp mem).1)
        (fun a mem => by rw [sorted.2.1.1 a (List.mem_filter.mp mem).1]; rfl)
        less' (fun a mem => by rw [sorted'.2.1.1 a mem]; rfl)
      rw [whole', same, same']
    · rw [List.filter_cons_of_neg kept, List.filter_cons_of_neg kept, ← ih, others,
        List.filter_append]

variable {earlier later : List α} {item : α}

theorem mem_earlier_of_pair {other : α} (nodup : (earlier ++ item :: later).Nodup)
    (pair : [other, item].Sublist (earlier ++ item :: later)) : other ∈ earlier := by
  rw [List.nodup_append, List.nodup_cons] at nodup
  obtain ⟨first, second, split, inEarlier, inLater⟩ := List.sublist_append_iff.mp pair
  cases first with
  | nil =>
    rw [List.nil_append] at split
    subst split
    rcases List.sublist_cons_iff.mp inLater with behind | ⟨rest, same, behind⟩
    · exact absurd (behind.subset (by simp)) nodup.2.1.1
    · cases same
      exact absurd (behind.subset (by simp)) nodup.2.1.1
  | cons head tail =>
    rw [List.cons_append, List.cons.injEq] at split
    rw [split.1]
    exact inEarlier.subset List.mem_cons_self

theorem mem_later_of_pair {other : α} (nodup : (earlier ++ item :: later).Nodup)
    (pair : [item, other].Sublist (earlier ++ item :: later)) : other ∈ later := by
  have turned : (later.reverse ++ item :: earlier.reverse).Nodup := by
    have same : later.reverse ++ item :: earlier.reverse = (earlier ++ item :: later).reverse := by
      simp
    rw [same]
    exact List.pairwise_reverse.mpr (nodup.imp Ne.symm)
  have back : [other, item].Sublist (later.reverse ++ item :: earlier.reverse) := by
    simpa using pair.reverse
  exact List.mem_reverse.mp (mem_earlier_of_pair turned back)

/-- What is sorted before an element: what stood before it and is not larger, and what stood
behind it and is smaller. -/
theorem mem_sorted_before (trans : ∀ a b c, le a b → le b c → le a c)
    (total : ∀ a b, le a b || le b a) {front behind : List α} {other : α}
    (nodup : (front ++ item :: behind).Nodup)
    (sorted : (front ++ item :: behind).mergeSort le = earlier ++ item :: later) : other ∈ earlier ↔
      other ∈ front ∧ le other item = true ∨ other ∈ behind ∧ le item other = false := by
  have same : (earlier ++ item :: later).Perm (front ++ item :: behind) :=
    sorted ▸ List.mergeSort_perm _ _
  have distinct : (earlier ++ item :: later).Nodup := same.nodup_iff.mpr nodup
  have order := sorted ▸ List.pairwise_mergeSort trans total (front ++ item :: behind)
  rw [List.pairwise_append, List.pairwise_cons] at order
  have apart := (List.nodup_append.mp distinct).2.2
  constructor
  · intro mem
    have low : le other item = true := order.2.2 other mem item List.mem_cons_self
    rcases List.mem_append.mp (same.mem_iff.mp (List.mem_append_left _ mem)) with early | last
    · exact .inl ⟨early, low⟩
    rcases List.mem_cons.mp last with rfl | late
    · exact absurd rfl (apart other mem other List.mem_cons_self)
    · refine .inr ⟨late, Bool.eq_false_iff.mpr fun tie => ?_⟩
      have pair : [item, other].Sublist (front ++ item :: behind) :=
        (List.Sublist.cons_cons item (List.singleton_sublist.mpr late)).trans
          (List.sublist_append_right _ _)
      have kept := List.pair_sublist_mergeSort trans total tie pair
      rw [sorted] at kept
      have behindToo := mem_later_of_pair distinct kept
      exact apart other mem other (List.mem_cons_of_mem _ behindToo) rfl
  · rintro (⟨early, low⟩ | ⟨late, less⟩)
    · have pair : [other, item].Sublist (front ++ item :: behind) :=
        (List.singleton_sublist.mpr early).append
          (List.Sublist.cons_cons item (List.nil_sublist behind))
      have kept := List.pair_sublist_mergeSort trans total low pair
      rw [sorted] at kept
      exact mem_earlier_of_pair distinct kept
    · have there := same.mem_iff.mpr (List.mem_append_right front (List.mem_cons_of_mem _ late))
      rcases List.mem_append.mp there with here | last
      · exact here
      rcases List.mem_cons.mp last with rfl | high
      · exact absurd late (List.nodup_cons.mp (List.nodup_append.mp nodup).2.1).1
      · rw [order.2.1.1 other high] at less
        nomatch less

theorem length_filter_sorted_before (trans : ∀ a b c, le a b → le b c → le a c)
    (total : ∀ a b, le a b || le b a) (p : α → Bool) {front behind : List α}
    (nodup : (front ++ item :: behind).Nodup)
    (sorted : (front ++ item :: behind).mergeSort le = earlier ++ item :: later) :
    (earlier.filter p).length = (front.filter fun other => p other && le other item).length +
      (behind.filter fun other => p other && !le item other).length := by
  have same : (earlier ++ item :: later).Perm (front ++ item :: behind) :=
    sorted ▸ List.mergeSort_perm _ _
  have distinct := (List.nodup_append.mp (same.nodup_iff.mpr nodup)).1
  have parts := List.nodup_append.mp nodup
  have both : (earlier.filter p).Perm ((front.filter fun other => p other && le other item) ++
      behind.filter fun other => p other && !le item other) := by
    refine (List.perm_ext_iff_of_nodup (distinct.filter _) ?_).mpr fun other => ?_
    · refine List.nodup_append.mpr ⟨parts.1.filter _, (List.nodup_cons.mp parts.2.1).2.filter _, ?_⟩
      intro a inFront b inBehind
      exact parts.2.2 a (List.mem_filter.mp inFront).1 b
        (List.mem_cons_of_mem _ (List.mem_filter.mp inBehind).1)
    · rw [List.mem_filter, mem_sorted_before trans total nodup sorted, List.mem_append,
        List.mem_filter, List.mem_filter]
      cases p other <;> cases le item other <;> simp
  rw [both.length_eq, List.length_append]

end Sorting
end MastopodFederation.Lib.HeadBatches
