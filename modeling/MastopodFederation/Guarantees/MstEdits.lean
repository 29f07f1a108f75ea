import MastopodFederation.Guarantees.MstOperations

/-!
# Adding and deleting a record

`deleteRecurse` with `trimTop`, and `add` with the parents it creates above a split:
the two methods that change the layers of a tree. The root of a tree without the
key stands at the layer of the highest key left, or of none.
-/
namespace MastopodFederation.Guarantees.MstEdits
open Source.Cbor Source.Mst Lib.LayeredEntries Lib.SortedMap
open MstShape MstLayers MstLayers.Discipline MstOperations Lib.Logged.Logged

variable {store : NodeStore} {D : Discipline store} {height : Nat} {layer : Int}
  {t : PartialMst} {records : Records} {entries : List MstEntry} {key : String}

section Delete

theorem meets_deleteRecurse : ∀ (fuel : Nat) {height layer t records},
    D.Given height layer t records → Sorted records →
    (lookup key records = none → D.admits (couldNotFind key)) →
    Meets (fun t' => lookup key records ≠ none ∧ ∃ entries, t' = t.newTree entries ∧
      Filled store D.inhabited D.Result layer entries (erase key records)) D.admits
      (t.deleteRecurse store fuel key)
  | 0, _, _, _, _, _, _, _ => meets_fail D.admits_exhausted
  | fuel + 1, height, layer, t, records, given, sorted, absent => by
    obtain ⟨lower, rfl⟩ := given.succ_eq
    unfold PartialMst.deleteRecurse
    refine meets_getEntries given.property fun entries opens => ?_
    obtain ⟨pre, mid, post, before, middle, after, searched⟩ :=
      exists_searched given sorted opens key
    have low := searched.located.before_bound
    have preItems := inOrder_result searched.located.pre_items
    have midItems := inOrder_result searched.located.mid_items
    simp only [searched.located.items_eq] at absent ⊢
    simp only [previousTree_index searched.cut, treeAt_next searched.cut]
    rcases searched.hit_or_miss with
      ⟨was, rest, later, rfl, found, -, rfl, earlier, past, listed⟩ | ⟨missed, past⟩
    · rw [found, lookup_bound earlier, erase_bound earlier past]
      have restApart := alternates_leaf_cons.mp searched.post_alternates
      have removed (apart : Alternates (pre ++ maybeTree mid ++ rest)) :
          Meets (fun t' => some was ≠ none ∧ ∃ entries, t' = t.newTree entries ∧
            Filled store D.inhabited D.Result layer entries (before ++ middle ++ later)) D.admits
            (pure (t.newTree (removeEntry entries (findGtOrEqualLeafIndex entries key))) :
              Reads PartialMst) := by
        refine meets_pure ⟨by simp, _, rfl, ?_⟩
        rw [removeEntry_index searched.cut]
        exact ⟨apart, (preItems.append midItems).append (inOrder_result listed)⟩
      rcases searched.mid_cases with ⟨rfl, rfl⟩ | ⟨previous, rfl, held, full⟩
      · refine removed ?_
        rw [maybeTree_none, List.append_nil,
          alternates_append_of_endsInLeaf searched.cut.endsInLeaf]
        exact ⟨searched.pre_alternates, restApart⟩
      · rcases rest with _ | ⟨⟨k, v⟩ | next, rest⟩
        · refine removed ((alternates_around searched.cut.endsInLeaf (by simp) _).mpr ?_)
          exact ⟨searched.pre_alternates, restApart⟩
        · refine removed ((alternates_around searched.cut.endsInLeaf (by simp) _).mpr ?_)
          exact ⟨searched.pre_alternates, restApart⟩
        · cases listed with
          | @tree _ inner _ afterNext child afterItems =>
            refine (meets_appendMerge fuel held child.1 full).bind fun merged _ result => ?_
            refine meets_pure ⟨by simp, _, rfl, ?_⟩
            have behind := alternates_tree_cons.mp restApart
            have mergedChild : Child D.inhabited D.Result (layer - 1) merged (middle ++ inner) :=
              ⟨result, fun inhabited => by simp [full inhabited]⟩
            rw [take_previous searched.cut, drop_past_index searched.cut]
            refine ⟨?_, ?_⟩
            · rw [alternates_append_of_endsInLeaf searched.cut.endsInLeaf]
              exact ⟨searched.pre_alternates, alternates_tree_cons.mpr behind⟩
            · have items := preItems.append (.tree mergedChild (inOrder_result afterItems))
              simpa using items
    · rw [lookup_around low past] at absent
      rw [missed, lookup_around low past, erase_around low past]
      rcases searched.mid_cases with ⟨rfl, rfl⟩ | ⟨previous, rfl, held, full⟩
      · exact meets_fail (absent rfl)
      · refine (meets_deleteRecurse fuel held searched.parts.2.1 absent).bind
          fun subtree _ met => ?_
        obtain ⟨bound, left, rfl, filled⟩ := met
        refine Meets.bind (q := fun none => none = left.isEmpty) (meets_pure rfl)
          fun none _ same => ?_
        subst same
        rw [removeEntry_previous searched.cut, updateEntry_previous searched.cut]
        rcases left with _ | ⟨first, others⟩
        · have listed := filled.inOrder
          generalize erase key middle = erased at *
          cases listed
          have around := searched.filled_maybeTree none .nil
          exact meets_pure ⟨bound, _, rfl, by simpa using around⟩
        · have kept (inhabited : D.inhabited) : erase key middle ≠ [] :=
            filled.inOrder.ne_nil (fun _ _ _ child => child.2 inhabited) (by simp)
          refine meets_pure ⟨bound, _, rfl, ?_⟩
          exact searched.filled_tree (newTree_result held.property kept filled) kept

def Trimmed (store : NodeStore) (t : PartialMst) : Prop :=
  ∃ entries, Opens store t entries ∧ ∀ subtree, entries ≠ [.tree subtree]

theorem meets_trimTop : ∀ (fuel : Nat) {layer t records},
    D.Result layer t records →
    Meets (fun t' => Trimmed store t' ∧ ∃ top, top ≤ layer ∧ D.Result top t' records) D.admits
      (t.trimTop store fuel)
  | 0, _, _, _, _ => meets_fail D.admits_exhausted
  | fuel + 1, layer, t, records, ⟨height, held⟩ => by
    unfold PartialMst.trimTop
    refine meets_getEntries held.node fun entries opens => ?_
    split
    next firstEntry =>
      cases height with
      | zero => exact held.elim
      | succ lower =>
        have listed := (held.2.2 _ opens).inOrder
        cases listed with
        | tree child none =>
          cases none
          refine (meets_trimTop fuel ⟨lower, child.1⟩).imp fun t' _ met => ?_
          obtain ⟨trimmed, top, le, result⟩ := met
          exact ⟨trimmed, top, by omega, by simpa using result⟩
    next apart =>
      exact meets_pure ⟨⟨entries, opens, apart⟩, layer, le_rfl, height, held⟩

/-- `delete` erases a bound key and finds no other. Where subtrees must hold a
record, a tree left without records is a new node without entries. -/
theorem meets_delete {fuel : Nat} (given : D.Given height layer t records)
    (sorted : Sorted records) (absent : lookup key records = none → D.admits (couldNotFind key)) :
    Meets (fun t' => lookup key records ≠ none ∧
      ((Trimmed store t' ∧ ∃ top, top ≤ layer ∧ D.Result top t' (erase key records)) ∨
        (erase key records = [] ∧ t' = t.newTree []))) D.admits
      (t.delete store fuel key) := by
  unfold PartialMst.delete
  refine (meets_deleteRecurse fuel given sorted absent).bind fun altered _ met => ?_
  obtain ⟨bound, left, rfl, filled⟩ := met
  by_cases full : D.inhabited → erase key records ≠ []
  · refine (meets_trimTop fuel (newTree_result given.property full filled)).imp
      fun t' _ met => ?_
    exact ⟨bound, .inl met⟩
  · simp only [Classical.not_imp, ne_eq, not_not] at full
    obtain ⟨inhabited, none⟩ := full
    have empty : left = [] := by
      cases left with
      | nil => rfl
      | cons first rest =>
        have kept := filled.inOrder.ne_nil (fun _ _ _ child => child.2 inhabited) (by simp)
        exact absurd none kept
    subst empty
    cases fuel with
    | zero => exact meets_fail D.admits_exhausted
    | succ fuel =>
      unfold PartialMst.trimTop
      refine Meets.bind (q := (· = [])) (meets_pure rfl) fun entries _ same => ?_
      subst same
      exact meets_pure ⟨bound, .inr ⟨none, rfl⟩⟩

end Delete

section Parents

structure Lifted (D : Discipline store) (layer : Int) (half : Option PartialMst)
    (records : Records) : Prop where
  inOrder : InOrder store.leadingZerosOnHash (Child D.inhabited D.Result) (layer + 1)
    (maybeTree half) records
  carries : ∀ s, half = some s → s.layer = some layer

theorem meets_createParentOf {fuel : Nat} {half : Option PartialMst}
    (lifted : Lifted D layer half records) :
    Meets (fun parent => Lifted D (layer + 1) parent records) D.admits
      (createParentOf store fuel half) := by
  cases half with
  | none =>
    have none_held := lifted.inOrder
    cases none_held
    exact meets_pure ⟨.nil, fun s some => by cases some⟩
  | some s =>
    rcases inOrder_of_maybeTree lifted.inOrder with ⟨none, -⟩ | ⟨_, same, held, full⟩
    · cases none
    · cases same
      have known := lifted.carries s rfl
      have asked : Meets (· = (layer, s)) D.admits (s.getLayer store fuel) := by
        cases fuel with
        | zero => exact meets_fail D.admits_exhausted
        | succ fuel =>
          rw [getLayer_of_layer known]
          exact meets_pure rfl
      unfold createParentOf PartialMst.createParent
      refine Meets.bind (q := fun parent => Lifted D (layer + 1) (some parent) records) ?_
        fun parent _ met => meets_pure met
      refine asked.bind fun (_, s) _ same => ?_
      cases same
      have apart : Alternates [(.tree s : MstEntry)] := by simp [alternates_tree_cons]
      obtain ⟨pointer, created⟩ := create_ok store apart (some (layer + 1))
      simp only [created]
      refine Meets.bind (q := (· = ⟨pointer, false, some (layer + 1), some [.tree s]⟩))
        (meets_ofExcept (fun a same => by cases same; rfl) (fun e failed => by cases failed))
        fun parent _ same => ?_
      subst same
      have listed : InOrder store.leadingZerosOnHash (Child D.inhabited D.Result) (layer + 1)
          [.tree s] records := lifted.inOrder
      have result : D.Result (layer + 1) ⟨pointer, true, some (layer + 1), some [.tree s]⟩
          records := Held.of_entries (D.made pointer _ full) rfl ⟨apart, listed⟩
      have up : layer + 1 + 1 - 1 = layer + 1 := by omega
      refine meets_pure ⟨inOrder_maybeTree (fun none => by cases none) fun s' some => ?_,
        fun s' some => by cases some; rfl⟩
      cases some
      rw [up]
      exact ⟨result, full⟩

theorem meets_createParents {fuel : Nat} :
    ∀ (count : Nat) {layer : Int} {left right : Option PartialMst} {before after : Records},
      Lifted D layer left before → Lifted D layer right after →
      Meets (fun halves => Lifted D (layer + count) halves.1 before ∧
        Lifted D (layer + count) halves.2 after) D.admits
        (createParents store fuel count left right)
  | 0, layer, left, right, before, after, left_lifted, right_lifted => by
    have same : layer + (0 : Nat) = layer := by omega
    rw [same]
    exact meets_pure ⟨left_lifted, right_lifted⟩
  | count + 1, layer, left, right, before, after, left_lifted, right_lifted => by
    unfold createParents
    refine (meets_createParentOf left_lifted).bind fun left _ left_lifted => ?_
    refine (meets_createParentOf right_lifted).bind fun right _ right_lifted => ?_
    have same : layer + ((count + 1 : Nat) : Int) = layer + 1 + count := by omega
    rw [same]
    exact meets_createParents count left_lifted right_lifted

end Parents

section Add

theorem child_given (layer : Int) :
    D.Given 1 layer ⟨store.cidForNodeData ⟨none, []⟩, false, some layer, some []⟩ [] := by
  refine ⟨⟨D.child layer, layerSound_of_layer rfl⟩, by simp, fun entries opens => ?_⟩
  simp only [Opens, PartialMst.getEntries, result_pure, Except.ok.injEq] at opens
  subst opens
  exact ⟨alternates_nil, .nil⟩

theorem meets_add_above {fuel : Nat} {value : Cid} (given : D.Given height layer t records)
    (known : t.layer = some layer) (sorted : Sorted records)
    (high : layer < store.leadingZerosOnHash key) :
    Meets (fun t' => D.Result (store.leadingZerosOnHash key) t' (insert key value records)) D.admits
      (do
        let (left, right) ← t.splitAround store fuel key
        let (left, right) ←
          createParents store fuel (store.leadingZerosOnHash key - layer - 1).toNat left right
        let root ← .ofExcept (PartialMst.create store
          (maybeTree left ++ .leaf key value :: maybeTree right)
          (some (store.leadingZerosOnHash key)))
        pure { root with outdatedPointer := true }) := by
  have absent := lookup_none_of_ranked high (Holds.ranked given)
  refine (meets_splitAround fuel given sorted absent).bind fun (left, right) _ met => ?_
  obtain ⟨leftItems, rightItems, leftLayer, rightLayer⟩ := met
  have leftLifted : Lifted D layer left (below key records) :=
    ⟨leftItems, fun s some => (leftLayer s some).trans known⟩
  have rightLifted : Lifted D layer right (above key records) :=
    ⟨rightItems, fun s some => (rightLayer s some).trans known⟩
  refine (meets_createParents _ leftLifted rightLifted).bind fun (left, right) _ met => ?_
  have top : layer + ((store.leadingZerosOnHash key - layer - 1).toNat : Int) + 1 =
      store.leadingZerosOnHash key := by omega
  have leftTop := met.1.inOrder
  have rightTop := met.2.inOrder
  rw [top] at leftTop rightTop
  have apart : Alternates (maybeTree left ++ .leaf key value :: maybeTree right : List MstEntry) := by
    rw [alternates_append_of_startsWithLeaf (by simp)]
    simp
  obtain ⟨pointer, created⟩ := create_ok store apart (some (store.leadingZerosOnHash key))
  simp only [created]
  refine Meets.bind (meets_ofExcept (p := (· = ⟨pointer, false,
    some (store.leadingZerosOnHash key), some (maybeTree left ++ .leaf key value ::
      maybeTree right)⟩)) (fun a same => by cases same; rfl) (fun e failed => by cases failed))
    fun root _ same => ?_
  subst same
  refine meets_pure (Held.of_entries (D.made pointer _ fun _ => insert_ne_nil) rfl ⟨apart, ?_⟩)
  exact leftTop.append (.leaf rfl rightTop)

/-- `add` binds an unbound key and refuses any other; the root of the tree comes to
stand at the layer of the key where that is higher. -/
theorem meets_add (value : Cid) (invalid : ∀ e, ensureValidMstKey key = .error e → D.admits e) :
    ∀ (fuel : Nat) {height layer t records knownZeros},
      D.Given height layer t records → Sorted records →
      knownZeros.getD (store.leadingZerosOnHash key) = store.leadingZerosOnHash key →
      (lookup key records ≠ none → D.admits (alreadyAt key)) →
      Meets (fun t' => lookup key records = none ∧
        D.Result (max layer (store.leadingZerosOnHash key)) t' (insert key value records)) D.admits
        (t.add store fuel key value knownZeros)
  | 0, _, _, _, _, _, _, _, _, _ => meets_fail D.admits_exhausted
  | fuel + 1, height, layer, t, records, knownZeros, given, sorted, zeros, bound => by
    unfold PartialMst.add
    refine Meets.bind (q := fun _ => True)
      (meets_ofExcept (fun _ _ => trivial) invalid) fun _ _ _ => ?_
    simp only [zeros]
    refine (meets_getLayer given).bind fun (found, t) _ met => ?_
    obtain ⟨own, known, given⟩ := met
    obtain rfl : layer = found := own.symm
    simp only at known given
    obtain ⟨lower, rfl⟩ := given.succ_eq
    split
    next same =>
      rw [same, max_self]
      refine meets_getEntries given.property fun entries opens => ?_
      obtain ⟨pre, mid, post, before, middle, after, searched⟩ :=
        exists_searched given sorted opens key
      have low := searched.located.before_bound
      have preItems := inOrder_result searched.located.pre_items
      have postItems := inOrder_result searched.located.post_items
      simp only [searched.located.items_eq] at bound ⊢
      simp only [previousTree_index searched.cut]
      rcases searched.hit_or_miss with
        ⟨was, rest, later, rfl, found, -, rfl, earlier, past, -⟩ | ⟨missed, past⟩
      · rw [lookup_bound earlier] at bound
        rw [found]
        exact meets_fail (bound (by simp))
      · rw [missed, lookup_around low past, insert_around low past]
        rcases searched.mid_cases with ⟨rfl, rfl⟩ | ⟨previous, rfl, held, full⟩
        · refine meets_pure ⟨rfl, newTree_result given.property (by simp) ?_⟩
          rw [spliceIn_index searched.cut]
          refine ⟨?_, ?_⟩
          · rw [maybeTree_none, List.append_nil,
              alternates_append_of_endsInLeaf searched.cut.endsInLeaf]
            exact ⟨searched.pre_alternates, by simpa using searched.post_alternates⟩
          · simpa using preItems.append (.leaf same postItems)
        · have absent : lookup key middle = none :=
            lookup_none_of_ranked (by omega) (Holds.ranked held)
          refine (meets_splitAround fuel held searched.parts.2.1 absent).bind
            fun (left, right) _ met => ?_
          obtain ⟨leftItems, rightItems, -, -⟩ := met
          have up (k : Int) : k - 1 + 1 = k := by omega
          rw [up] at leftItems rightItems
          refine meets_pure ⟨absent, newTree_result given.property (by simp [insert_ne_nil]) ?_⟩
          rw [replaceWithSplit_previous searched.cut]
          have inner : Alternates
              (maybeTree left ++ .leaf key value :: maybeTree right : List MstEntry) := by
            rw [alternates_append_of_startsWithLeaf (by simp)]
            simp
          have whole := searched.filled_around (leftItems.append (.leaf same rightItems)) (by
            rw [alternates_append_of_startsWithLeaf searched.cut.startsWithLeaf,
              alternates_append_of_endsInLeaf searched.cut.endsInLeaf]
            exact ⟨⟨searched.pre_alternates, inner⟩, searched.post_alternates⟩)
          simpa [Lib.SortedMap.insert] using whole
    next differs =>
      split
      next lower_key =>
        rw [max_eq_left lower_key.le]
        refine meets_getEntries given.property fun entries opens => ?_
        obtain ⟨pre, mid, post, before, middle, after, searched⟩ :=
          exists_searched given sorted opens key
        have low := searched.located.before_bound
        simp only [searched.located.items_eq] at bound ⊢
        simp only [previousTree_index searched.cut]
        rcases searched.hit_or_miss with ⟨_, _, _, -, -, ranked, -⟩ | ⟨-, past⟩
        · exact absurd ranked differs
        · rw [lookup_around low past] at bound ⊢
          rw [insert_around low past]
          rcases searched.mid_cases with ⟨rfl, rfl⟩ | ⟨previous, rfl, held, full⟩
          · refine Meets.bind
              (q := (· = ⟨store.cidForNodeData ⟨none, []⟩, false, some (layer - 1), some []⟩))
              (meets_ofExcept (fun child created => by cases created; rfl)
                (fun e failed => by cases failed)) fun child _ same => ?_
            subst same
            refine (meets_add value invalid fuel (child_given (layer - 1))
              (by simp [Sorted]) (Option.getD_some) (by simp)).bind fun nextChild _ met => ?_
            obtain ⟨absent, result⟩ := met
            rw [max_eq_left (by omega)] at result
            refine meets_pure ⟨rfl, newTree_result given.property (by simp) ?_⟩
            rw [spliceIn_index searched.cut]
            have whole := searched.filled_tree result fun _ => insert_ne_nil
            simpa using whole
          · refine (meets_add value invalid fuel held
              searched.parts.2.1 (Option.getD_some) bound).bind fun nextTree _ met => ?_
            obtain ⟨absent, result⟩ := met
            rw [max_eq_left (by omega)] at result
            refine meets_pure ⟨absent, newTree_result given.property (by simp [insert_ne_nil]) ?_⟩
            rw [updateEntry_previous searched.cut]
            exact searched.filled_tree result fun _ => insert_ne_nil
      next =>
        have high : layer < (store.leadingZerosOnHash key : Int) := by omega
        have absent := lookup_none_of_ranked high (Holds.ranked given)
        rw [max_eq_right high.le]
        exact (meets_add_above given known sorted high).imp fun _ _ result => ⟨absent, result⟩

end Add

end MastopodFederation.Guarantees.MstEdits
