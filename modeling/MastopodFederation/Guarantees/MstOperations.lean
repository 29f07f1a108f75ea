import MastopodFederation.Guarantees.MstLayers

/-!
# What the tree methods do to the records of a tree

Each method of `PartialMst` against the sorted list of records that the tree holds, under any
discipline. A failure is an admitted one: the bound was reached, a block could not be read, or
the key is bound when it should not be, or the other way round.
-/
namespace MastopodFederation.Guarantees.MstOperations
open Source.Cbor Source.Mst Lib.LayeredEntries Lib.SortedMap
open MstShape MstLayers MstLayers.Discipline Lib.Logged.Logged

variable {store : NodeStore} {D : Discipline store} {height : Nat} {layer : Int}
  {t : PartialMst} {records : Records} {entries : List MstEntry} {key : String}

section Search

variable {pre post : List MstEntry} {mid : Option PartialMst} {before middle after : Records}

structure Searched (D : Discipline store) (height : Nat) (layer : Int) (entries : List MstEntry)
    (records : Records) (key : String) (pre : List MstEntry) (mid : Option PartialMst)
    (post : List MstEntry) (before middle after : Records) : Prop where
  cut : Cut entries key pre mid post
  located : Located store.leadingZerosOnHash (Child D.inhabited (D.Given height)) layer records key
    pre mid post before middle after
  sorted : Sorted records
  pre_alternates : Alternates pre
  post_alternates : Alternates post

theorem exists_searched (given : D.Given (height + 1) layer t records) (sorted : Sorted records)
    (opens : Opens store t entries) (key : String) :
    ∃ pre mid post before middle after,
      Searched D height layer entries records key pre mid post before middle after := by
  have filled := given.filled opens
  obtain ⟨pre, mid, post, cut⟩ := exists_cut filled.alternates key
  obtain ⟨before, middle, after, located⟩ := filled.inOrder.located sorted cut
  have apart := filled.alternates
  rw [cut.entries_eq, alternates_around cut.endsInLeaf cut.startsWithLeaf] at apart
  exact ⟨pre, mid, post, before, middle, after, cut, located, sorted, apart.1, apart.2⟩

theorem inOrder_result
    (listed : InOrder store.leadingZerosOnHash (Child D.inhabited (D.Given height)) layer entries
      records) :
    InOrder store.leadingZerosOnHash (Child D.inhabited D.Result) layer entries records :=
  listed.mono fun _ _ _ child => ⟨Given.result child.1, child.2⟩

namespace Searched

variable (searched : Searched D height layer entries records key pre mid post before middle after)
include searched

theorem parts : Sorted before ∧ Sorted middle ∧ Sorted after ∧
    ∀ a ∈ middle, ∀ b ∈ after, a.1 < b.1 := by
  have sorted := searched.sorted
  rw [searched.located.items_eq] at sorted
  obtain ⟨early, late, across⟩ := sorted_append.mp sorted
  obtain ⟨first, second, -⟩ := sorted_append.mp early
  exact ⟨first, second, late, fun a mem b => across a (by simp [mem]) b⟩

theorem hit_or_miss :
    (∃ value rest later, post = .leaf key value :: rest ∧
      foundAt entries (findGtOrEqualLeafIndex entries key) key = some value ∧
      (store.leadingZerosOnHash key : Int) = layer ∧
      after = (key, value) :: later ∧ Before (before ++ middle) key ∧ After key later ∧
      InOrder store.leadingZerosOnHash (Child D.inhabited (D.Given height)) layer rest later) ∨
    (foundAt entries (findGtOrEqualLeafIndex entries key) key = none ∧ After key after) := by
  obtain ⟨cut, located, sorted, -, -⟩ := searched
  rw [located.items_eq] at sorted
  rcases cut.stops with rfl | ⟨k, value, rest, rfl, high⟩
  · right
    have listed := located.post_items
    cases listed
    exact ⟨foundAt_nil cut, after_nil⟩
  · have listed := located.post_items
    cases listed with
    | @leaf _ _ _ later ranked tail =>
      by_cases same : k = key
      · subst same
        left
        refine ⟨value, rest, later, rfl, ?_, ranked, rfl, sorted.before_of_append,
          sorted.after_of_append, tail⟩
        rw [foundAt_cons cut, if_pos rfl]
      · right
        have above : key < k := lt_of_le_of_ne high (Ne.symm same)
        refine ⟨by rw [foundAt_cons cut, if_neg same], after_cons.mpr ⟨above, ?_⟩⟩
        have next := sorted.after_of_append
        exact fun item mem => above.trans (next item mem)

theorem mid_cases :
    (mid = none ∧ middle = []) ∨
      ∃ subtree, mid = some subtree ∧ D.Given height (layer - 1) subtree middle ∧
        (D.inhabited → middle ≠ []) := by
  rcases inOrder_of_maybeTree searched.located.mid_items with none | ⟨subtree, some, child⟩
  · exact .inl none
  · exact .inr ⟨subtree, some, child.1, child.2⟩

variable {records' : Records}

theorem filled_around {inner : List MstEntry}
    (listed : InOrder store.leadingZerosOnHash (Child D.inhabited D.Result) layer inner records')
    (apart : Alternates (pre ++ inner ++ post)) :
    Filled store D.inhabited D.Result layer (pre ++ inner ++ post)
      (before ++ records' ++ after) :=
  ⟨apart, ((inOrder_result searched.located.pre_items).append listed).append
    (inOrder_result searched.located.post_items)⟩

theorem filled_maybeTree (subtree : Option PartialMst)
    (listed : InOrder store.leadingZerosOnHash (Child D.inhabited D.Result) layer
      (maybeTree subtree) records') :
    Filled store D.inhabited D.Result layer (pre ++ maybeTree subtree ++ post)
      (before ++ records' ++ after) :=
  searched.filled_around listed ((alternates_around searched.cut.endsInLeaf
    searched.cut.startsWithLeaf subtree).mpr ⟨searched.pre_alternates, searched.post_alternates⟩)

theorem filled_tree {subtree : PartialMst} (held : D.Result (layer - 1) subtree records')
    (full : D.inhabited → records' ≠ []) :
    Filled store D.inhabited D.Result layer (pre ++ .tree subtree :: post)
      (before ++ records' ++ after) := by
  have filled := searched.filled_maybeTree (some subtree)
    (inOrder_maybeTree (fun none => by cases none) (fun s some => by cases some; exact ⟨held, full⟩))
  simpa using filled

end Searched

end Search

section Records

variable {records' : Records}

theorem newTree_result (property : D.property layer t records)
    (full : D.inhabited → records' ≠ [])
    (filled : Filled store D.inhabited D.Result layer entries records') :
    D.Result layer (t.newTree entries) records' :=
  Held.of_entries (D.newTree entries property full) rfl filled

theorem half_inOrder (property : D.property layer t records)
    (filled : Filled store D.inhabited D.Result layer entries records') :
    InOrder store.leadingZerosOnHash (Child D.inhabited D.Result) (layer + 1)
      (maybeTree (t.half entries)) records' := by
  have full (some : entries ≠ []) (inhabited : D.inhabited) : records' ≠ [] :=
    filled.inOrder.ne_nil (fun _ _ _ child => child.2 inhabited) some
  have up : layer + 1 - 1 = layer := by omega
  rcases entries with _ | ⟨first, rest⟩
  · have listed := filled.inOrder
    cases listed
    exact .nil
  · refine inOrder_maybeTree (fun none => by simp [PartialMst.half] at none) fun s same => ?_
    have made : s = t.newTree (first :: rest) := by
      simpa [PartialMst.half, eq_comm] using same
    subst made
    rw [up]
    exact ⟨newTree_result property (full (by simp)) filled, full (by simp)⟩

theorem half_layer {s : PartialMst} (some : t.half entries = some s) : s.layer = t.layer := by
  unfold PartialMst.half at some
  split at some
  · cases some
  · cases some
    rfl

theorem lookup_none_of_ranked (high : layer < store.leadingZerosOnHash key)
    (ranked : ∀ record ∈ records, (store.leadingZerosOnHash record.1 : Int) ≤ layer) :
    lookup key records = none := by
  refine lookup_eq_none.mpr fun record mem same => ?_
  have low := ranked record mem
  rw [same] at low
  omega

end Records

section Lookup

theorem meets_get : ∀ (fuel : Nat) {height layer t records},
    D.Given height layer t records → Sorted records →
    Meets (fun found => found = lookup key records) D.admits (t.get store fuel key)
  | 0, _, _, _, _, _, _ => meets_fail D.admits_exhausted
  | fuel + 1, height, layer, t, records, given, sorted => by
    obtain ⟨lower, rfl⟩ := given.succ_eq
    unfold PartialMst.get
    refine meets_getEntries given.property fun entries opens => ?_
    obtain ⟨pre, mid, post, before, middle, after, searched⟩ :=
      exists_searched given sorted opens key
    simp only [searched.located.items_eq, previousTree_index searched.cut]
    rcases searched.hit_or_miss with
      ⟨value, rest, later, rfl, found, -, rfl, earlier, -, -⟩ | ⟨missed, past⟩
    · rw [found, lookup_bound earlier]
      exact meets_pure rfl
    · rw [missed, lookup_around searched.located.before_bound past]
      rcases searched.mid_cases with ⟨rfl, rfl⟩ | ⟨subtree, rfl, held, -⟩
      · exact meets_pure rfl
      · exact meets_get fuel held searched.parts.2.1

end Lookup

section Update

theorem meets_update (value : Cid) (invalid : ∀ e, ensureValidMstKey key = .error e → D.admits e) :
    ∀ (fuel : Nat) {height layer t records}, D.Given height layer t records → Sorted records →
      (lookup key records = none → D.admits (couldNotFind key)) →
      Meets (fun t' => lookup key records ≠ none ∧
        D.Result layer t' (insert key value records)) D.admits (t.update store fuel key value)
  | 0, _, _, _, _, _, _, _ => meets_fail D.admits_exhausted
  | fuel + 1, height, layer, t, records, given, sorted, absent => by
    obtain ⟨lower, rfl⟩ := given.succ_eq
    unfold PartialMst.update
    refine Meets.bind (q := fun _ => True)
      (meets_ofExcept (fun _ _ => trivial) invalid) fun _ _ _ => ?_
    refine meets_getEntries given.property fun entries opens => ?_
    obtain ⟨pre, mid, post, before, middle, after, searched⟩ :=
      exists_searched given sorted opens key
    simp only [searched.located.items_eq] at absent ⊢
    simp only [previousTree_index searched.cut]
    rcases searched.hit_or_miss with
      ⟨was, rest, later, rfl, found, ranked, rfl, earlier, past, listed⟩ | ⟨missed, past⟩
    · rw [found, lookup_bound earlier, insert_bound earlier past]
      refine meets_pure ⟨by simp, newTree_result given.property (by simp) ?_⟩
      rw [updateEntry_index searched.cut]
      refine ⟨?_, ?_⟩
      · have apart := (given.filled opens).alternates
        rw [searched.cut.entries_eq] at apart
        rw [alternates_append_of_startsWithLeaf (by simp)] at apart ⊢
        simpa using apart
      · exact ((inOrder_result searched.located.pre_items).append
          (inOrder_result searched.located.mid_items)).append
            (.leaf ranked (inOrder_result listed))
    · have low := searched.located.before_bound
      rw [lookup_around low past] at absent
      rw [missed, lookup_around low past, insert_around low past]
      rcases searched.mid_cases with ⟨rfl, rfl⟩ | ⟨subtree, rfl, held, full⟩
      · exact meets_fail (absent rfl)
      · refine (meets_update value invalid fuel held searched.parts.2.1 absent).bind
          fun nextTree _ met => ?_
        obtain ⟨bound, result⟩ := met
        refine meets_pure ⟨bound, newTree_result given.property (by simp [insert_ne_nil]) ?_⟩
        rw [updateEntry_previous searched.cut]
        exact searched.filled_tree result fun _ => insert_ne_nil

end Update

section Split

/-- `splitAround` an unbound key yields the records below and the records above it,
in trees that carry the layer of the node. -/
theorem meets_splitAround : ∀ (fuel : Nat) {height layer t records},
    D.Given height layer t records → Sorted records → lookup key records = none →
    Meets (fun halves =>
      InOrder store.leadingZerosOnHash (Child D.inhabited D.Result) (layer + 1)
          (maybeTree halves.1) (below key records) ∧
        InOrder store.leadingZerosOnHash (Child D.inhabited D.Result) (layer + 1)
          (maybeTree halves.2) (above key records) ∧
        (∀ s, halves.1 = some s → s.layer = t.layer) ∧
        ∀ s, halves.2 = some s → s.layer = t.layer) D.admits (t.splitAround store fuel key)
  | 0, _, _, _, _, _, _, _ => meets_fail D.admits_exhausted
  | fuel + 1, height, layer, t, records, given, sorted, absent => by
    obtain ⟨lower, rfl⟩ := given.succ_eq
    unfold PartialMst.splitAround
    refine meets_getEntries given.property fun entries opens => ?_
    obtain ⟨pre, mid, post, before, middle, after, searched⟩ :=
      exists_searched given sorted opens key
    have low := searched.located.before_bound
    simp only [searched.located.items_eq] at absent ⊢
    simp only [previousTree_index searched.cut]
    rcases searched.hit_or_miss with
      ⟨value, rest, later, rfl, -, -, rfl, earlier, -, -⟩ | ⟨-, past⟩
    · rw [lookup_bound earlier] at absent
      cases absent
    · rw [lookup_around low past] at absent
      rw [below_around low past, above_around low past]
      rcases searched.mid_cases with ⟨rfl, rfl⟩ | ⟨subtree, rfl, held, full⟩
      · have left : Filled store D.inhabited D.Result layer pre before :=
          ⟨searched.pre_alternates, inOrder_result searched.located.pre_items⟩
        have right : Filled store D.inhabited D.Result layer post after :=
          ⟨searched.post_alternates, inOrder_result searched.located.post_items⟩
        simp only [take_index searched.cut, drop_index searched.cut, maybeTree_none,
          List.append_nil]
        refine meets_pure ⟨?_, ?_, fun s => half_layer, fun s => half_layer⟩
        · simpa using half_inOrder given.property left
        · simpa using half_inOrder given.property right
      · refine (meets_splitAround fuel held searched.parts.2.1 absent).bind
          fun (left, right) _ met => ?_
        obtain ⟨leftItems, rightItems, -, -⟩ := met
        have up : layer - 1 + 1 = layer := by omega
        rw [up] at leftItems rightItems
        have leftFilled : Filled store D.inhabited D.Result layer (pre ++ maybeTree left)
            (before ++ below key middle) := by
          refine ⟨?_, (inOrder_result searched.located.pre_items).append leftItems⟩
          rw [alternates_append_of_endsInLeaf searched.cut.endsInLeaf]
          exact ⟨searched.pre_alternates, alternates_maybeTree left⟩
        have rightFilled : Filled store D.inhabited D.Result layer (maybeTree right ++ post)
            (above key middle ++ after) := by
          refine ⟨?_, rightItems.append (inOrder_result searched.located.post_items)⟩
          rw [alternates_append_of_startsWithLeaf searched.cut.startsWithLeaf]
          exact ⟨alternates_maybeTree right, searched.post_alternates⟩
        simp only [removeEntry_left searched.cut, drop_index searched.cut]
        exact meets_pure ⟨half_inOrder given.property leftFilled,
          half_inOrder given.property rightFilled, fun s => half_layer, fun s => half_layer⟩

end Split

section Merge

variable {subtree : PartialMst}

theorem getLast_tree (last : entries.getLast? = some (.tree subtree)) :
    entries = entries.take (entries.length - 1) ++ [.tree subtree] := by
  rcases List.eq_nil_or_concat entries with rfl | ⟨start, final, rfl⟩
  · cases last
  · rw [List.concat_eq_append] at last ⊢
    simp only [List.getLast?_append, List.getLast?_singleton, Option.some_or,
      Option.some.injEq] at last
    simp [last]

theorem head_tree (first : entries.head? = some (.tree subtree)) :
    entries = .tree subtree :: entries.drop 1 := by
  cases entries with
  | nil => cases first
  | cons entry rest =>
    cases first
    rfl

theorem alternates_merge {rightEntries : List MstEntry} (left : Alternates entries)
    (right : Alternates rightEntries)
    (apart : ∀ s s', entries.getLast? = some (.tree s) → rightEntries.head? = some (.tree s') →
      False) : Alternates (entries ++ rightEntries) := by
  cases lastEntry : entries.getLast? with
  | none =>
    rw [List.getLast?_eq_none_iff] at lastEntry
    simpa [lastEntry] using right
  | some entry =>
    cases entry with
    | leaf k v =>
      have ends : EndsInLeaf entries := fun s => by simp [lastEntry]
      exact (alternates_append_of_endsInLeaf ends).mpr ⟨left, right⟩
    | tree lastLeft =>
      have starts : StartsWithLeaf rightEntries := fun s first => apart lastLeft s lastEntry first
      exact (alternates_append_of_startsWithLeaf starts).mpr ⟨left, right⟩

/-- `appendMerge` joins two trees of one layer: where a subtree would come to stand
next to another, the two are joined in turn. -/
theorem meets_appendMerge : ∀ (fuel : Nat) {height height' layer t t' records records'},
    D.Given height layer t records → D.Given height' layer t' records' →
    (D.inhabited → records ≠ []) →
    Meets (fun merged => D.Result layer merged (records ++ records')) D.admits
      (t.appendMerge store fuel t')
  | 0, _, _, _, _, _, _, _, _, _, _ => meets_fail D.admits_exhausted
  | fuel + 1, height, height', layer, t, t', records, records', given, given', full => by
    unfold PartialMst.appendMerge
    refine (meets_getLayer given).bind fun (_, t) _ met => ?_
    obtain ⟨rfl, -, given⟩ := met
    refine (meets_getLayer given').bind fun (_, t') _ met => ?_
    obtain ⟨rfl, -, given'⟩ := met
    obtain ⟨lower, rfl⟩ := given.succ_eq
    obtain ⟨lower', rfl⟩ := given'.succ_eq
    simp only [ne_eq, not_true_eq_false, if_false]
    refine meets_getEntries given.property fun leftEntries opens => ?_
    refine meets_getEntries given'.property fun rightEntries opens' => ?_
    have filled := given.filled opens
    have filled' := given'.filled opens'
    have joined (inhabited : D.inhabited) : records ++ records' ≠ [] := by
      simp [full inhabited]
    split
    next lastLeft firstRight last first =>
      have leftParts := getLast_tree last
      have rightParts := head_tree first
      obtain ⟨leftApart, leftListed⟩ := filled
      obtain ⟨rightApart, rightListed⟩ := filled'
      rw [leftParts] at leftApart leftListed
      rw [rightParts] at rightApart rightListed
      obtain ⟨before, inner, rfl, beforeItems, lastItems⟩ := leftListed.of_append
      cases rightListed with
      | @tree _ inner' _ after first_child afterItems =>
        cases lastItems with
        | @tree _ inner _ _ last_child none =>
          cases none
          refine (meets_appendMerge fuel last_child.1 first_child.1 last_child.2).bind
            fun merged _ met => ?_
          have child : Child D.inhabited D.Result (_ - 1) merged (inner ++ inner') :=
            ⟨met, fun inhabited => by simp [last_child.2 inhabited]⟩
          refine meets_pure (newTree_result given.property joined ⟨?_, ?_⟩)
          · have behind := alternates_tree_cons.mp rightApart
            rw [alternates_append_of_endsInLeaf (EndsInLeaf.of_append_tree leftApart)]
            exact ⟨leftApart.left_part, alternates_tree_cons.mpr behind⟩
          · have listed := (inOrder_result beforeItems).append
              (InOrder.tree child (inOrder_result afterItems))
            simpa using listed
    next apart =>
      refine meets_pure (newTree_result given.property joined ⟨?_, ?_⟩)
      · exact alternates_merge filled.alternates filled'.alternates apart
      · exact (inOrder_result filled.inOrder).append (inOrder_result filled'.inOrder)

end Merge

end MastopodFederation.Guarantees.MstOperations
