import MastopodFederation.Guarantees.MstCost
import MastopodFederation.Guarantees.MstOperations

/-!
# What changing a tree reads

Each edit of a tree over a terrain comes back within a bound on its recursion, reads a bounded
number of blocks, and leaves a tree of a bounded height. The heights only add up.
-/
namespace MastopodFederation.Guarantees.MstEditCost
open Source.Cbor Source.Mst Lib.LayeredEntries
open MstShape MstLayers MstDescent MstCost Lib.Logged.Logged

variable {store : NodeStore} {T : Terrain store} {height : Nat} {t : PartialMst} {key : String}
  {entries : List MstEntry}

section Cuts

variable {below : PartialMst → Prop} {pre post : List MstEntry} {mid : Option PartialMst}

theorem stocked_cut (stocked : Stocked T below entries) (key : String) :
    ∃ pre mid post, Cut entries key pre mid post ∧ (Alternates pre ∧ Alternates post) ∧
      (∀ entry ∈ pre, EntryOk T below entry) ∧ (∀ entry ∈ post, EntryOk T below entry) ∧
      ∀ s, mid = some s → below s := by
  obtain ⟨pre, mid, post, cut⟩ := exists_cut stocked.alternates key
  have each := stocked.each
  rw [cut.entries_eq] at each
  refine ⟨pre, mid, post, cut, cut.alternates_parts stocked.alternates,
    fun entry mem => each entry (by simp [mem]), fun entry mem => each entry (by simp [mem]), ?_⟩
  rintro s rfl
  exact each (.tree s) (by simp)

theorem each_append {first second : List MstEntry}
    (left : ∀ entry ∈ first, EntryOk T below entry)
    (right : ∀ entry ∈ second, EntryOk T below entry) :
    ∀ entry ∈ first ++ second, EntryOk T below entry := by
  intro entry mem
  rcases List.mem_append.mp mem with early | late
  · exact left entry early
  · exact right entry late

theorem each_cons {first : MstEntry} {second : List MstEntry} (left : EntryOk T below first)
    (right : ∀ entry ∈ second, EntryOk T below entry) :
    ∀ entry ∈ first :: second, EntryOk T below entry := by
  intro entry mem
  rcases List.mem_cons.mp mem with rfl | late
  · exact left
  · exact right entry late

theorem each_maybeTree {half : Option PartialMst} (held : ∀ s, half = some s → below s) :
    ∀ entry ∈ (maybeTree half : List MstEntry), EntryOk T below entry := by
  intro entry mem
  cases entry with
  | leaf => exact absurd mem leaf_mem_maybeTree
  | tree s => exact held s (tree_mem_maybeTree.mp mem)

theorem each_drop {count : Nat} (each : ∀ entry ∈ post, EntryOk T below entry) :
    ∀ entry ∈ post.drop count, EntryOk T below entry :=
  fun entry mem => each entry (List.mem_of_mem_drop mem)

theorem half_deep {s : PartialMst} (taller : Nat) (deep : Deep T height t)
    (stocked : Stocked T (Deep T taller) entries) (le : height ≤ taller + 1)
    (some : t.half entries = some s) : Deep T (taller + 1) s ∧ s.layer = t.layer := by
  refine ⟨?_, ?_⟩
  · unfold PartialMst.half at some
    split at some
    · cases some
    · cases some
      exact deep.newTree taller stocked le
  · unfold PartialMst.half at some
    split at some
    · cases some
    · cases some
      rfl

end Cuts

section Split

theorem spends_splitAround : ∀ (fuel : Nat) {steps : Nat} {t : PartialMst},
    Deep T height t → T.depth < height → Within store (.search key) steps t → steps ≤ fuel →
    Spends steps (fun halves => ∀ s, halves.1 = some s ∨ halves.2 = some s →
      Deep T (height + steps) s ∧ s.layer = t.layer) Ends (t.splitAround store fuel key)
  | 0, steps, _, _, _, within, le => by
    obtain ⟨less, rfl⟩ := within.pos
    omega
  | fuel + 1, steps, t, deep, tall, within, le => by
    obtain ⟨less, rfl⟩ := within.pos
    unfold PartialMst.splitAround
    refine Spends.mono (Nat.le_of_eq (Nat.add_comm 1 less)) ?_
    refine (spends_getEntries deep).bind fun entries _ opens => ?_
    have stocked := deep.opened tall opens
    obtain ⟨pre, mid, post, cut, parts, preOk, postOk, midOk⟩ := stocked_cut stocked key
    have grow {below : List MstEntry} (each : ∀ entry ∈ below, EntryOk T (Deep T height) entry) :
        ∀ entry ∈ below, EntryOk T (Deep T (height + less)) entry :=
      fun entry mem => (each entry mem).imp fun _ => Deep.mono (by omega)
    simp only [previousTree_index cut]
    cases mid with
    | none =>
      simp only [take_index cut, drop_index cut, maybeTree_none, List.append_nil]
      refine spends_pure fun s some => ?_
      rcases some with left | right
      · exact half_deep (height + less) deep ⟨parts.1, grow preOk⟩ (by omega) left
      · exact half_deep (height + less) deep ⟨parts.2, grow postOk⟩ (by omega) right
    | some lastLeft =>
      have down := within entries opens lastLeft (previousTree_index cut)
      refine (spends_splitAround fuel (midOk _ rfl) tall down (by omega)).bindFree
        fun (left, right) _ met => ?_
      simp only [removeEntry_left cut, drop_index cut]
      refine spends_pure fun s some => ?_
      rcases some with isLeft | isRight
      · refine half_deep (height + less) deep ⟨?_, ?_⟩ (by omega) isLeft
        · rw [alternates_append_of_endsInLeaf cut.endsInLeaf]
          exact ⟨parts.1, alternates_maybeTree left⟩
        · exact each_append (grow preOk) (each_maybeTree fun s same => (met s (.inl same)).1)
      · refine half_deep (height + less) deep ⟨?_, ?_⟩ (by omega) isRight
        · rw [alternates_append_of_startsWithLeaf cut.startsWithLeaf]
          exact ⟨alternates_maybeTree right, parts.2⟩
        · exact each_append (each_maybeTree fun s same => (met s (.inr same)).1) (grow postOk)

end Split

section Merge

def mergeLoads (depth : Nat) : Nat → Nat → Nat
  | 0, _ => 0
  | steps + 1, height => 2 * height + 2 + mergeLoads depth steps (height + (depth + 1))

theorem spends_appendMerge : ∀ (fuel : Nat) {height steps : Nat} {t t' : PartialMst},
    Deep T height t → Deep T height t' → T.depth < height → Within store .last steps t →
    height + steps * (T.depth + 2) ≤ fuel →
    Spends (mergeLoads T.depth steps height) (Deep T (height + steps * (T.depth + 2))) Ends
      (t.appendMerge store fuel t')
  | 0, _, steps, _, _, deep, _, _, _, le => by
    obtain ⟨less, rfl⟩ := deep.pos
    omega
  | fuel + 1, height, steps, t, t', deep, deep', tall, within, le => by
    obtain ⟨less, rfl⟩ := within.pos
    rw [Nat.succ_mul] at le ⊢
    have budget : mergeLoads T.depth (less + 1) height =
        height + (height + (1 + (1 + mergeLoads T.depth less (height + (T.depth + 1))))) := by
      simp only [mergeLoads]
      omega
    rw [budget]
    unfold PartialMst.appendMerge
    refine (spends_getLayer deep (by omega)).bind fun answer returned met => ?_
    obtain ⟨layer, asked⟩ := answer
    obtain ⟨-, -, -, askedDeep⟩ := met
    have askedWithin : Within store .last (less + 1) asked := within.cached (getLayer_cached returned)
    refine (spends_getLayer deep' (by omega)).bind fun answer' _ met => ?_
    obtain ⟨layer', asked'⟩ := answer'
    obtain ⟨-, -, -, askedDeep'⟩ := met
    dsimp only
    split
    · exact spends_fail (by simp [Ends])
    · refine (spends_getEntries askedDeep).bind fun leftEntries _ opens => ?_
      refine (spends_getEntries askedDeep').bind fun rightEntries _ opens' => ?_
      have stocked := askedDeep.opened (by omega) opens
      have stocked' := askedDeep'.opened (by omega) opens'
      have grow {below : List MstEntry}
          (each : ∀ entry ∈ below, EntryOk T (Deep T (height + (T.depth + 1))) entry) :
          ∀ entry ∈ below, EntryOk T
            (Deep T (height + (T.depth + 1) + less * (T.depth + 2))) entry :=
        fun entry mem => (each entry mem).imp fun _ => Deep.mono (by omega)
      rw [show height + (less * (T.depth + 2) + (T.depth + 2)) =
        height + (T.depth + 1) + less * (T.depth + 2) + 1 by omega]
      split
      next lastLeft firstRight last first =>
        have leftParts := MstOperations.getLast_tree last
        have rightParts := MstOperations.head_tree first
        have down : Direction.last.down leftEntries = some lastLeft := by
          rw [leftParts]
          simp [Direction.down, previousTree, treeAt]
        have leftChild : Deep T (height + (T.depth + 1)) lastLeft :=
          stocked.each _ (mem_of_down down)
        have rightChild : Deep T (height + (T.depth + 1)) firstRight :=
          stocked'.each (.tree firstRight) (List.mem_of_mem_head? first)
        refine (spends_appendMerge fuel leftChild rightChild (by omega)
          (askedWithin leftEntries opens lastLeft down) (by omega)).bindFree fun merged _ met => ?_
        refine spends_pure (askedDeep.newTree _ ⟨?_, ?_⟩ (by omega))
        · have leftApart := stocked.alternates
          have rightApart := stocked'.alternates
          rw [leftParts] at leftApart
          rw [rightParts] at rightApart
          rw [alternates_append_of_endsInLeaf (EndsInLeaf.of_append_tree leftApart)]
          exact ⟨leftApart.left_part, alternates_tree_cons.mpr (alternates_tree_cons.mp rightApart)⟩
        · refine each_append (fun entry mem => grow stocked.each entry (List.mem_of_mem_take mem))
            (each_cons met (each_drop (grow stocked'.each)))
      next apart =>
        refine spends_pure (askedDeep.newTree _ ⟨?_, each_append (grow stocked.each)
          (grow stocked'.each)⟩ (by omega))
        exact MstOperations.alternates_merge stocked.alternates stocked'.alternates apart

end Merge

section Update

variable {pre post : List MstEntry} {mid : Option PartialMst}

theorem foundAt_some {value : Cid} (cut : Cut entries key pre mid post)
    (found : foundAt entries (findGtOrEqualLeafIndex entries key) key = some value) :
    ∃ rest, post = .leaf key value :: rest := by
  rcases cut.stops with rfl | ⟨k, v, rest, rfl, -⟩
  · rw [foundAt_nil cut] at found
    cases found
  · rw [foundAt_cons cut] at found
    split at found
    next same =>
      cases found
      exact ⟨rest, by rw [same]⟩
    · cases found

theorem spends_ensureValidMstKey :
    Spends 0 (fun _ => True) Ends (.ofExcept (ensureValidMstKey key) : Reads Unit) := by
  refine spends_ofExcept (fun _ _ => trivial) fun e failed => ?_
  unfold ensureValidMstKey at failed
  split at failed
  · cases failed
    simp [Ends]
  · cases failed

theorem spends_update (value : Cid) : ∀ (fuel : Nat) {steps : Nat} {t : PartialMst},
    Deep T height t → T.depth < height → Within store (.search key) steps t → steps ≤ fuel →
    Spends steps (Deep T (height + steps)) Ends (t.update store fuel key value)
  | 0, steps, _, _, _, within, le => by
    obtain ⟨less, rfl⟩ := within.pos
    omega
  | fuel + 1, steps, t, deep, tall, within, le => by
    obtain ⟨less, rfl⟩ := within.pos
    unfold PartialMst.update
    refine Spends.mono (show 0 + (1 + less) ≤ less + 1 by omega) ?_
    refine spends_ensureValidMstKey.bind fun _ _ _ => ?_
    refine (spends_getEntries deep).bind fun entries _ opens => ?_
    have stocked := deep.opened tall opens
    obtain ⟨pre, mid, post, cut, parts, preOk, postOk, midOk⟩ := stocked_cut stocked key
    have grow {below : List MstEntry} (each : ∀ entry ∈ below, EntryOk T (Deep T height) entry) :
        ∀ entry ∈ below, EntryOk T (Deep T (height + less)) entry :=
      fun entry mem => (each entry mem).imp fun _ => Deep.mono (by omega)
    simp only [previousTree_index cut]
    split
    next was found =>
      obtain ⟨rest, rfl⟩ := foundAt_some cut found
      rw [updateEntry_index cut]
      have restOk := grow fun entry mem => postOk entry (List.mem_cons_of_mem _ mem)
      refine spends_pure (deep.newTree (height + less) ⟨?_, ?_⟩ (by omega))
      · exact (alternates_around cut.endsInLeaf (by simp) mid).mpr ⟨parts.1, by simpa using parts.2⟩
      · refine each_append (each_append (grow preOk) (each_maybeTree fun s some =>
          (midOk s some).mono (by omega))) (each_cons ?_ restOk)
        exact postOk (.leaf key was) (by simp)
    · split
      next previous =>
        have down := within entries opens previous (previousTree_index cut)
        refine (spends_update value fuel (midOk _ rfl) tall down (by omega)).bindFree
          fun nextTree _ met => ?_
        rw [updateEntry_previous cut]
        refine spends_pure (deep.newTree (height + less) ⟨?_, ?_⟩ (by omega))
        · have around := (alternates_around cut.endsInLeaf cut.startsWithLeaf
            (some nextTree)).mpr parts
          simpa using around
        · exact each_append (grow preOk) (each_cons met (grow postOk))
      · exact spends_fail (by simp [Ends, couldNotFind])

end Update

section Delete

def mergedHeight (depth height : Nat) : Nat := height + (height + depth) * (depth + 2)

def deleteLoads (depth steps height : Nat) : Nat :=
  2 * steps + mergeLoads depth (height + depth) height

theorem startsWithLeaf_of_treeAt (none : treeAt entries 0 = none) : StartsWithLeaf entries := by
  intro s first
  cases entries with
  | nil => cases first
  | cons entry rest =>
    cases first
    simp [treeAt] at none

theorem spends_deleteRecurse : ∀ (fuel : Nat) {steps : Nat} {t : PartialMst},
    Deep T height t → T.depth < height → Within store (.search key) steps t →
    mergedHeight T.depth height + steps ≤ fuel →
    Spends (deleteLoads T.depth steps height) (Deep T (mergedHeight T.depth height + steps)) Ends
      (t.deleteRecurse store fuel key)
  | 0, steps, _, _, _, within, le => by
    obtain ⟨less, rfl⟩ := within.pos
    omega
  | fuel + 1, steps, t, deep, tall, within, le => by
    obtain ⟨less, rfl⟩ := within.pos
    have budget : deleteLoads T.depth (less + 1) height =
        1 + (deleteLoads T.depth less height + 1) := by
      simp only [deleteLoads]
      omega
    rw [budget]
    unfold PartialMst.deleteRecurse
    refine (spends_getEntries deep).bind fun entries _ opens => ?_
    have stocked := deep.opened tall opens
    obtain ⟨pre, mid, post, cut, parts, preOk, postOk, midOk⟩ := stocked_cut stocked key
    have taller : height ≤ mergedHeight T.depth height + less := by
      simp only [mergedHeight]
      omega
    have grow {below : List MstEntry} (each : ∀ entry ∈ below, EntryOk T (Deep T height) entry) :
        ∀ entry ∈ below, EntryOk T (Deep T (mergedHeight T.depth height + less)) entry :=
      fun entry mem => (each entry mem).imp fun _ => Deep.mono taller
    have midGrow : ∀ s, mid = some s → Deep T (mergedHeight T.depth height + less) s :=
      fun s some => (midOk s some).mono taller
    simp only [previousTree_index cut, treeAt_next cut]
    split
    next was found =>
      obtain ⟨rest, rfl⟩ := foundAt_some cut found
      have restApart := alternates_leaf_cons.mp parts.2
      have restOk : ∀ entry ∈ rest, EntryOk T (Deep T height) entry :=
        fun entry mem => postOk entry (List.mem_cons_of_mem _ mem)
      split
      next previous next nextAt =>
        have way : Direction.first.down rest = some next := nextAt
        have isNext : .tree next ∈ rest := mem_of_down way
        have merged := spends_appendMerge fuel (midOk _ rfl) (restOk _ isNext) tall
          ((midOk _ rfl).within .last) (by simp only [mergedHeight] at le; omega)
        refine Spends.mono (n := mergeLoads T.depth (height + T.depth) height + 0)
          (by simp only [deleteLoads]; omega) ?_
        refine merged.bind fun merged _ met => ?_
        rw [take_previous cut, drop_past_index cut]
        refine spends_pure (deep.newTree (mergedHeight T.depth height + less)
          ⟨?_, ?_⟩ (by omega))
        · rw [alternates_append_of_endsInLeaf cut.endsInLeaf]
          refine ⟨parts.1, ?_⟩
          have first : rest.head? = some (.tree next) := by
            cases rest with
            | nil => cases isNext
            | cons entry others =>
              cases entry with
              | leaf => simp [treeAt] at nextAt
              | tree s => simpa [treeAt] using nextAt
          rw [MstOperations.head_tree first] at restApart
          exact alternates_tree_cons.mpr (alternates_tree_cons.mp restApart)
        · refine each_append (grow preOk) (each_cons (met.mono ?_) (each_drop (grow postOk)))
          simp only [mergedHeight]
          omega
      next mid _ _ apart =>
        rw [removeEntry_index cut]
        refine spends_pure (deep.newTree (mergedHeight T.depth height + less)
          ⟨?_, ?_⟩ (by omega))
        · cases mid with
          | none =>
            rw [maybeTree_none, List.append_nil, alternates_append_of_endsInLeaf cut.endsInLeaf]
            exact ⟨parts.1, restApart⟩
          | some previous =>
            have first : StartsWithLeaf rest := startsWithLeaf_of_treeAt (by
              cases nextAt : treeAt rest 0 with
              | none => rfl
              | some next => exact (apart previous next rfl nextAt).elim)
            exact (alternates_around cut.endsInLeaf first _).mpr ⟨parts.1, restApart⟩
        · exact each_append (each_append (grow preOk) (each_maybeTree midGrow))
            (each_drop (grow postOk))
    · split
      next previous =>
        have down := within entries opens previous (previousTree_index cut)
        refine (spends_deleteRecurse fuel (midOk _ rfl) tall down (by omega)).bind
          fun subtree _ met => ?_
        refine Spends.bindFree (q := fun _ => True) ?_ fun none _ _ => ?_
        · unfold PartialMst.isEmpty
          exact (spends_getEntries met).bindFree fun _ _ _ => spends_pure trivial
        · rw [removeEntry_previous cut, updateEntry_previous cut]
          split
          · refine spends_pure (deep.newTree (mergedHeight T.depth height + less)
              ⟨?_, each_append (grow preOk) (grow postOk)⟩ (by omega))
            rw [alternates_append_of_endsInLeaf cut.endsInLeaf]
            exact parts
          · refine spends_pure (deep.newTree (mergedHeight T.depth height + less)
              ⟨?_, each_append (grow preOk) (each_cons met (grow postOk))⟩ (by omega))
            have around := (alternates_around cut.endsInLeaf cut.startsWithLeaf
              (some subtree)).mpr parts
            simpa using around
      · exact spends_fail (by simp [Ends, couldNotFind])

theorem spends_trimTop : ∀ (fuel : Nat) {height : Nat} {t : PartialMst},
    Deep T height t → height ≤ fuel → Spends height (Deep T height) Ends (t.trimTop store fuel)
  | 0, _, _, deep, le => by
    obtain ⟨less, rfl⟩ := deep.pos
    omega
  | fuel + 1, height, t, deep, le => by
    obtain ⟨less, rfl⟩ := deep.pos
    unfold PartialMst.trimTop
    refine Spends.mono (Nat.le_of_eq (Nat.add_comm 1 less)) ?_
    refine (spends_getEntries deep).bind fun entries _ opens => ?_
    split
    next firstEntry =>
      rcases deep.leafless opens rfl with none | ⟨s, same, lower⟩
      · cases none
      · cases same
        exact (spends_trimTop fuel lower (by omega)).imp fun _ _ => Deep.succ
    · exact spends_pure deep

theorem spends_delete {fuel steps : Nat} (deep : Deep T height t) (tall : T.depth < height)
    (within : Within store (.search key) steps t)
    (le : mergedHeight T.depth height + steps ≤ fuel) :
    Spends (deleteLoads T.depth steps height + (mergedHeight T.depth height + steps))
      (Deep T (mergedHeight T.depth height + steps)) Ends (t.delete store fuel key) :=
  (spends_deleteRecurse fuel deep tall within le).bind fun _ _ met => spends_trimTop fuel met le

end Delete

section Parents

def Carried (T : Terrain store) (height : Nat) (layer : Int) (half : Option PartialMst) : Prop :=
  ∀ s, half = some s → Deep T height s ∧ s.layer = some layer

theorem spends_createParentOf {fuel : Nat} {layer : Int} {half : Option PartialMst}
    (carried : Carried T height layer half) (le : 1 ≤ fuel) :
    Spends 0 (Carried T (height + 1) (layer + 1)) Ends (createParentOf store fuel half) := by
  cases half with
  | none => exact spends_pure fun s some => by cases some
  | some s =>
    obtain ⟨deep, known⟩ := carried s rfl
    obtain ⟨more, rfl⟩ : ∃ more, fuel = more + 1 := ⟨fuel - 1, by omega⟩
    have apart : Alternates [(.tree s : MstEntry)] := by simp [alternates_tree_cons]
    obtain ⟨pointer, created⟩ := create_ok store apart (some (layer + 1))
    unfold createParentOf PartialMst.createParent
    refine Spends.freeBind (q := fun parent => Carried T (height + 1) (layer + 1)
      (some parent)) ?_ fun parent _ met => spends_pure met
    refine Spends.freeBind (q := (· = (layer, s))) ?_ fun (_, s) _ same => ?_
    · rw [getLayer_of_layer known]
      exact spends_pure rfl
    · cases same
      simp only [created]
      refine Spends.freeBind (spends_ofExcept
        (p := (· = ⟨pointer, false, some (layer + 1), some [.tree s]⟩))
        (fun a same => by cases same; rfl) (fun e failed => by cases failed)) fun parent _ same => ?_
      subst same
      refine spends_pure fun s' some => ?_
      cases some
      refine ⟨⟨fun x own => ?_, fun _ _ => by simp, fun none => by simp at none,
        fun own some => ?_⟩, rfl⟩
      · cases own
        obtain ⟨less, rfl⟩ := deep.pos
        have bounds := deep.layer layer known
        omega
      · cases some
        refine ⟨by simp [alternates_tree_cons], fun entry mem => ?_⟩
        simp only [List.mem_singleton] at mem
        subst mem
        exact deep

theorem spends_createParents {fuel : Nat} (le : 1 ≤ fuel) :
    ∀ (count : Nat) {height : Nat} {layer : Int} {left right : Option PartialMst},
      Carried T height layer left → Carried T height layer right →
      Spends 0 (fun halves => Carried T (height + count) (layer + count) halves.1 ∧
        Carried T (height + count) (layer + count) halves.2) Ends
        (createParents store fuel count left right)
  | 0, height, layer, left, right, left_carried, right_carried => by
    rw [show layer + ((0 : Nat) : Int) = layer by omega]
    exact spends_pure ⟨left_carried, right_carried⟩
  | count + 1, height, layer, left, right, left_carried, right_carried => by
    unfold createParents
    refine Spends.freeBind (spends_createParentOf left_carried le)
      fun left _ left_carried => ?_
    refine Spends.freeBind (spends_createParentOf right_carried le)
      fun right _ right_carried => ?_
    rw [show layer + ((count + 1 : Nat) : Int) = layer + 1 + count by omega,
      show height + (count + 1) = height + 1 + count by omega]
    exact spends_createParents le count left_carried right_carried

end Parents

section Add

def room (T : Terrain store) : Nat := T.limit + (T.limit - T.floor).toNat + 1

def addHeight (T : Terrain store) (steps height : Nat) : Nat :=
  height + steps * (T.depth + 2) + room T

def addLoads (depth : Nat) : Nat → Nat → Nat
  | 0, _ => 0
  | steps + 1, height => height + steps + 2 + addLoads depth steps (height + (depth + 1))

theorem spends_add_child (value : Cid) (ranked : store.leadingZerosOnHash key ≤ T.limit) :
    ∀ (gap fuel : Nat) (pointer : Cid), gap + 2 ≤ fuel →
      Spends 0 (Deep T (gap + 1)) Ends
        (PartialMst.add store fuel
          ⟨pointer, false, some (store.leadingZerosOnHash key + gap), some []⟩ key value
          (some (store.leadingZerosOnHash key)))
  | gap, 0, _, le => by omega
  | gap, 1, _, le => by omega
  | gap, fuel + 2, pointer, le => by
    have floor := T.floor_le
    unfold PartialMst.add
    refine Spends.freeBind spends_ensureValidMstKey fun _ _ _ => ?_
    simp only [Option.getD_some]
    rw [getLayer_of_layer rfl]
    refine Spends.freeBind (q := (· = (_, _))) (spends_pure rfl)
      fun (_, t) _ same => ?_
    cases same
    simp only [PartialMst.getEntries]
    cases gap with
    | zero =>
      rw [if_pos (by omega)]
      refine Spends.freeBind (q := (· = [])) (spends_pure rfl) fun entries _ same => ?_
      subst same
      refine spends_pure ⟨fun x known => ?_, fun _ _ => by simp [PartialMst.newTree],
        fun none => by simp [PartialMst.newTree] at none, fun own some => ?_⟩
      · cases known
        omega
      · cases some
        refine ⟨by simp [spliceIn, findGtOrEqualLeafIndex], fun entry mem => ?_⟩
        simp only [spliceIn, findGtOrEqualLeafIndex, List.findIdx_nil, List.take_nil,
          List.nil_append, List.drop_nil, List.mem_singleton] at mem
        subst mem
        exact ranked
    | succ gap =>
      rw [if_neg (by omega), if_pos (by omega)]
      refine Spends.freeBind (q := (· = [])) (spends_pure rfl) fun entries _ same => ?_
      subst same
      refine Spends.freeBind (spends_ofExcept (p := (· =
        ⟨store.cidForNodeData ⟨none, []⟩, false,
          some (store.leadingZerosOnHash key + (gap : Nat)), some []⟩))
        (fun child created => ?_) (fun e failed => by cases failed)) fun child _ same => ?_
      · cases created
        simp only [PartialMst.mk.injEq, Option.some.injEq, true_and, and_true]
        omega
      · subst same
        refine Spends.freeBind
          (spends_add_child value ranked gap (fuel + 1) _ (by omega)) fun nextChild _ met => ?_
        refine spends_pure ⟨fun x known => ?_, fun _ _ => by simp [PartialMst.newTree],
          fun none => by simp [PartialMst.newTree] at none, fun own some => ?_⟩
        · cases known
          omega
        · cases some
          refine ⟨by simp [spliceIn, findGtOrEqualLeafIndex, alternates_tree_cons],
            fun entry mem => ?_⟩
          simp only [spliceIn, findGtOrEqualLeafIndex, List.findIdx_nil, List.take_nil,
            List.nil_append, List.drop_nil, List.mem_singleton] at mem
          subst mem
          exact met

/-- Adding to any tree: the search for the key goes down, and above the layer of the
key the halves of a split are lifted. -/
theorem spends_add (value : Cid) (ranked : store.leadingZerosOnHash key ≤ T.limit) :
    ∀ (fuel : Nat) {height steps : Nat} {t : PartialMst} {knownZeros : Option Nat},
      Deep T height t → T.depth < height → Within store (.search key) steps t →
      knownZeros.getD (store.leadingZerosOnHash key) = store.leadingZerosOnHash key →
      addHeight T steps height + 1 ≤ fuel →
      Spends (addLoads T.depth steps height) (Deep T (addHeight T steps height)) Ends
        (t.add store fuel key value knownZeros)
  | 0, _, _, _, _, _, _, _, _, le => by omega
  | fuel + 1, height, steps, t, knownZeros, deep, tall, within, zeros, le => by
    have floor := T.floor_le
    obtain ⟨less, rfl⟩ := within.pos
    have lower : addHeight T (less + 1) height =
        addHeight T less (height + (T.depth + 1)) + 1 := by
      simp only [addHeight, Nat.succ_mul]
      omega
    have budget : addLoads T.depth (less + 1) height =
        height + (1 + (less + (1 + addLoads T.depth less (height + (T.depth + 1))))) := by
      simp only [addLoads]
      omega
    have reach : height + (T.depth + 1) + less + room T ≤
        addHeight T less (height + (T.depth + 1)) := by
      simp only [addHeight, Nat.mul_add]
      omega
    have roomy : (T.limit : Int) ≤ room T ∧ (T.limit : Int) - T.floor + 1 ≤ room T := by
      simp only [room]
      omega
    rw [budget, lower]
    rw [lower] at le
    unfold PartialMst.add
    refine spends_ensureValidMstKey.freeBind fun _ _ _ => ?_
    simp only [zeros]
    refine (spends_getLayer deep (by omega)).bind fun (layer, asked) returned met => ?_
    obtain ⟨above_floor, below_limit, known, askedDeep⟩ := met
    have askedWithin := within.cached (getLayer_cached returned)
    simp only at above_floor below_limit known askedDeep askedWithin ⊢
    have grow {below : List MstEntry}
        (each : ∀ entry ∈ below, EntryOk T (Deep T (height + (T.depth + 1))) entry) :
        ∀ entry ∈ below, EntryOk T
          (Deep T (addHeight T less (height + (T.depth + 1)))) entry :=
      fun entry mem => (each entry mem).imp fun _ => Deep.mono (by omega)
    split
    next same =>
      refine (spends_getEntries askedDeep).bind fun entries _ opens => ?_
      have stocked := askedDeep.opened (by omega) opens
      obtain ⟨pre, mid, post, cut, parts, preOk, postOk, midOk⟩ := stocked_cut stocked key
      simp only [previousTree_index cut]
      split
      · exact spends_fail (by simp [Ends, alreadyAt])
      · split
        next =>
          rw [spliceIn_index cut]
          refine spends_pure (askedDeep.newTree _ ⟨?_, ?_⟩ (by omega))
          · have apart := cut.alternates_leaf parts none none key value
            simpa using apart
          · exact each_append (each_append (grow preOk) (by simp)) (each_cons ranked (grow postOk))
        next previous =>
          have down := askedWithin entries opens previous (previousTree_index cut)
          refine (spends_splitAround fuel (midOk _ rfl) (by omega) down (by omega)).bind
            fun (left, right) _ met => ?_
          have grown : ∀ s, left = some s ∨ right = some s →
              Deep T (addHeight T less (height + (T.depth + 1))) s :=
            fun s half => (met s half).1.mono (by omega)
          rw [replaceWithSplit_previous cut]
          refine spends_pure (askedDeep.newTree _ ⟨?_, ?_⟩ (by omega))
          · have apart := cut.alternates_leaf parts left right key value
            simpa using apart
          · exact each_append (each_append (each_append (grow preOk)
              (each_maybeTree fun s half => grown s (.inl half)))
              (each_cons ranked (each_maybeTree fun s half => grown s (.inr half)))) (grow postOk)
    next differs =>
      split
      next low =>
        refine (spends_getEntries askedDeep).bind fun entries _ opens => ?_
        have stocked := askedDeep.opened (by omega) opens
        obtain ⟨pre, mid, post, cut, parts, preOk, postOk, midOk⟩ := stocked_cut stocked key
        simp only [previousTree_index cut]
        refine Spends.mono (n := addLoads T.depth less (height + (T.depth + 1)))
          (by omega) ?_
        have inserted (s : PartialMst) : Alternates (pre ++ .tree s :: post) := by
          have around := (alternates_around cut.endsInLeaf cut.startsWithLeaf (some s)).mpr parts
          simpa using around
        split
        next previous =>
          have down := askedWithin entries opens previous (previousTree_index cut)
          refine (spends_add value ranked fuel (midOk _ rfl) (by omega) down
            (Option.getD_some) (by omega)).bindFree fun nextTree _ met => ?_
          rw [updateEntry_previous cut]
          exact spends_pure (askedDeep.newTree _ ⟨inserted nextTree,
            each_append (grow preOk) (each_cons met (grow postOk))⟩ (by omega))
        next =>
          refine Spends.mono (Nat.zero_le _) ?_
          obtain ⟨gap, gap_eq⟩ : ∃ gap : Nat,
              layer - 1 = (store.leadingZerosOnHash key : Int) + gap :=
            ⟨(layer - 1 - store.leadingZerosOnHash key).toNat, by omega⟩
          refine Spends.freeBind (spends_ofExcept (p := (· =
            ⟨store.cidForNodeData ⟨none, []⟩, false,
              some (store.leadingZerosOnHash key + (gap : Nat)), some []⟩))
            (fun child created => ?_) (fun e failed => by cases failed)) fun child _ same => ?_
          · cases created
            simp only [gap_eq]
          · subst same
            refine Spends.freeBind (spends_add_child value ranked gap fuel _ (by omega))
              fun nextChild _ met => ?_
            rw [spliceIn_index cut]
            have shape := inserted nextChild
            refine spends_pure (askedDeep.newTree _ ⟨by simpa using shape, ?_⟩ (by omega))
            exact each_append (each_append (grow preOk) (by simp))
              (each_cons (met.mono (by omega)) (grow postOk))
      next high =>
        refine Spends.mono (n := less + 1 + 0) (by omega) ?_
        refine (spends_splitAround fuel askedDeep (by omega) askedWithin (by omega)).bind
          fun (left, right) _ met => ?_
        have leftCarried : Carried T (height + (T.depth + 1) + (less + 1)) layer left :=
          fun s half => ⟨(met s (.inl half)).1, (met s (.inl half)).2.trans known⟩
        have rightCarried : Carried T (height + (T.depth + 1) + (less + 1)) layer right :=
          fun s half => ⟨(met s (.inr half)).1, (met s (.inr half)).2.trans known⟩
        refine (spends_createParents (by omega) _ leftCarried rightCarried).freeBind
          fun (left, right) _ met => ?_
        obtain ⟨leftTop, rightTop⟩ := met
        have apart : Alternates (maybeTree left ++ .leaf key value :: maybeTree right :
            List MstEntry) := by
          rw [alternates_append_of_startsWithLeaf (by simp)]
          simp
        obtain ⟨pointer, created⟩ := create_ok store apart (some (store.leadingZerosOnHash key))
        simp only [created]
        refine Spends.freeBind (spends_ofExcept (p := (· = ⟨pointer, false,
          some (store.leadingZerosOnHash key), some (maybeTree left ++ .leaf key value ::
            maybeTree right)⟩)) (fun a same => by cases same; rfl)
          (fun e failed => by cases failed)) fun root _ same => ?_
        subst same
        refine spends_pure ⟨fun x own => ?_, fun _ _ => by simp, fun none => by simp at none,
          fun own some => ?_⟩
        · cases own
          omega
        · cases some
          exact ⟨apart, each_append
            (each_maybeTree fun s half => (leftTop s half).1.mono (by omega))
            (each_cons ranked (each_maybeTree fun s half =>
              (rightTop s half).1.mono (by omega)))⟩

end Add

section Pointer

end Pointer

end MastopodFederation.Guarantees.MstEditCost
