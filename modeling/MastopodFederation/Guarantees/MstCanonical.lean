import MastopodFederation.Guarantees.MstEdits

/-!
# The canonical Merkle search tree of a map

The records determine one tree: at each layer the keys that rank there are leaves,
and every run of lower keys between them is one subtree. A tree is canonical for its
records when its clean nodes point at the node of that tree, and its layers are the
ones the nodes stand at. Its pointer is then a function of the records alone.
-/
namespace MastopodFederation.Guarantees.MstCanonical
open Source.Cbor Source.Mst Lib.LayeredEntries Lib.SortedMap
open MstShape MstLayers Lib.Logged.Logged

section Nodes

variable {τ σ : Type}

def nodeData (entries : List (Entry Cid String Cid)) : MstNodeData :=
  (serializeNodeData id entries).toOption.getD ⟨none, []⟩

variable (store : NodeStore)

def canonicalEntries (child : Records → Cid) (layer : Nat) (records : Records) :
    List (Entry Cid String Cid) :=
  group (fun key => store.leadingZerosOnHash key = layer) child [] records

def canonicalCid : Nat → Records → Cid
  | 0, _ => store.cidForNodeData ⟨none, []⟩
  | layer + 1, records =>
    store.cidForNodeData (nodeData (canonicalEntries store (canonicalCid layer) layer records))

def rootHeight (records : Records) : Nat :=
  (records.map fun record => store.leadingZerosOnHash record.1 + 1).foldr max 0

def canonicalPointer (records : Records) : Cid :=
  canonicalCid store (rootHeight store records) records

theorem serializeEntries_leaf {pointer : τ → Cid} {lastKey key : String} {value : Cid}
    {rest : List (Entry τ String Cid)} (first : StartsWithLeaf rest) :
    serializeEntries pointer lastKey (.leaf key value :: rest) =
      (serializeEntry lastKey key value none :: ·) <$> serializeEntries pointer key rest := by
  rcases rest with _ | ⟨⟨k, v⟩ | subtree, rest⟩
  · rfl
  · rw [serializeEntries]
    · rfl
    · simp
  · exact absurd rfl (first subtree)

theorem serializeEntries_map (pointer : σ → Cid) (f : τ → σ) :
    ∀ (lastKey : String) (entries : List (Entry τ String Cid)),
      serializeEntries pointer lastKey (entries.map (Entry.mapTree f)) =
        serializeEntries (fun s => pointer (f s)) lastKey entries
  | _, [] => rfl
  | _, .tree _ :: _ => rfl
  | lastKey, .leaf key value :: .tree subtree :: rest => by
    simp only [List.map_cons, Entry.mapTree, serializeEntries,
      serializeEntries_map pointer f key rest]
  | lastKey, [.leaf key value] => rfl
  | lastKey, .leaf key value :: .leaf k v :: rest => by
    have later := serializeEntries_map pointer f key (.leaf k v :: rest)
    simp only [List.map_cons, Entry.mapTree] at later ⊢
    calc
      _ = _ <$> serializeEntries pointer key _ := serializeEntries_leaf (by simp)
      _ = _ <$> serializeEntries _ key _ := by rw [later]
      _ = _ := (serializeEntries_leaf (by simp)).symm

theorem serializeNodeData_map (pointer : σ → Cid) (f : τ → σ)
    (entries : List (Entry τ String Cid)) :
    serializeNodeData pointer (entries.map (Entry.mapTree f)) =
      serializeNodeData (fun s => pointer (f s)) entries := by
  rcases entries with _ | ⟨⟨key, value⟩ | subtree, rest⟩
  · rfl
  · have all := serializeEntries_map pointer f "" (.leaf key value :: rest)
    simp only [List.map_cons, Entry.mapTree] at all ⊢
    rw [serializeNodeData, all, serializeNodeData]
    all_goals simp
  · simp only [List.map_cons, Entry.mapTree, serializeNodeData, serializeEntries_map]

variable {store}

@[simp] theorem canonicalCid_nil (height : Nat) :
    canonicalCid store height [] = store.cidForNodeData ⟨none, []⟩ := by
  cases height <;> rfl

theorem rootHeight_le {records : Records} {height : Nat} :
    rootHeight store records ≤ height ↔
      ∀ record ∈ records, store.leadingZerosOnHash record.1 < height := by
  induction records with
  | nil => simp [rootHeight]
  | cons record records ih =>
    simp only [rootHeight, List.map_cons, List.foldr_cons, max_le_iff] at ih ⊢
    rw [ih, List.forall_mem_cons]
    rfl

end Nodes

structure CanonicalNode (store : NodeStore) (layer : Int) (t : PartialMst) (records : Records) :
    Prop where
  pointed : t.outdatedPointer = false →
    t.pointer = canonicalCid store (layer + 1).toNat records
  layered : t.layer = some layer ∨ (t.layer = none ∧ (records ≠ [] ∨ layer = 0))
  at_hand : t.outdatedPointer = true → ∃ entries, t.entries = some entries

def canonical (store : NodeStore) : Discipline store where
  inhabited := True
  property := CanonicalNode store
  admits := fun _ => True
  admits_exhausted := trivial
  admits_read := fun _ _ => trivial
  opened := fun entries node => ⟨node.pointed, node.layered, fun _ => ⟨entries, rfl⟩⟩
  cached := fun node => ⟨node.pointed, .inl rfl, node.at_hand⟩
  newTree := fun entries records' node full =>
    ⟨(nomatch ·), node.layered.imp id fun unknown => ⟨unknown.1, .inl (full trivial)⟩,
      fun _ => ⟨entries, rfl⟩⟩
  made := fun _ entries _ => ⟨(nomatch ·), .inl rfl, fun _ => ⟨entries, rfl⟩⟩
  child := fun _ => ⟨fun _ => by simp, .inl rfl, (nomatch ·)⟩

section Layers

variable {store : NodeStore} {height : Nat} {layer : Int} {t : PartialMst} {records : Records}

theorem attempt_canonical : ∀ (fuel : Nat) {height layer t records},
    Holds store True (CanonicalNode store) height layer t records →
    ∀ found asked, (t.attemptGetLayer store fuel).result = .ok (found, asked) →
      found = some layer ∨ (found = none ∧ records = [] ∧ layer = 0)
  | 0, _, _, _, _, _ => fun _ _ attempted => by cases attempted
  | _ + 1, 0, _, _, _, held => held.elim
  | fuel + 1, height + 1, layer, t, records, held => fun found asked attempted => by
    rcases held.node.layered with known | ⟨unknown, full⟩
    · rw [attempt_of_layer known] at attempted
      cases attempted
      exact .inl rfl
    · obtain ⟨entries, opens, ⟨rank, ranked, rfl, rfl⟩ | ⟨leafless, childLayer, children, visited,
        rfl, rfl⟩⟩ := (attempt_of_none unknown).mp attempted
      · obtain ⟨entry, mem, own⟩ := List.exists_of_findSome?_eq_some ranked
        cases entry with
        | tree s => cases own
        | leaf key value =>
          cases own
          have same := (held.2.2 entries opens).inOrder.of_leaf_mem mem
          exact .inl (by rw [same])
      · have listed := (held.2.2 entries opens).inOrder
        cases listed with
        | nil =>
          cases visited
          exact .inr ⟨rfl, rfl, full.resolve_left fun none => none rfl⟩
        | leaf => simp [layerForEntries] at leafless
        | tree child rest =>
          simp only [firstChildLayer, bind_ok] at visited
          obtain ⟨⟨childFound, childAsked⟩, childAttempted, later⟩ := visited
          rcases attempt_canonical fuel child.1 _ _ childAttempted with rfl | ⟨-, none, -⟩
          · cases later
            exact .inl (by simp)
          · exact absurd none (child.2 trivial)

theorem given_of_holds : ∀ {height layer t records},
    Holds store True (CanonicalNode store) height layer t records →
    (canonical store).Given height layer t records
  | 0, _, _, _, held => held.elim
  | height + 1, layer, t, records, held => by
    have sound : LayerSound store layer t := by
      intro fuel answer returned
      obtain ⟨found, asked, attempted, rfl⟩ := getLayer_ok.mp returned
      rcases attempt_canonical fuel held _ _ attempted with rfl | ⟨rfl, -, rfl⟩ <;> rfl
    refine ⟨⟨held.1, sound⟩, held.2.1, fun entries opens => ?_⟩
    exact (held.2.2 entries opens).mono fun _ _ _ => given_of_holds

end Layers

section Pointer

variable {store : NodeStore} {height : Nat} {layer : Int} {t : PartialMst} {records : Records}
  {entries : List MstEntry}

theorem refreshPointers_map (visit : PartialMst → Reads Cid) (link : PartialMst → Cid) :
    ∀ (entries : List MstEntry),
      (∀ s, .tree s ∈ entries → (currentPointer visit s).result = .ok (link s)) →
      (refreshPointers visit entries).result = .ok (entries.map (Entry.mapTree fun s =>
        { s with pointer := link s, outdatedPointer := false }))
  | [], _ => rfl
  | .leaf key value :: rest, each => by
    have later := refreshPointers_map visit link rest fun s mem =>
      each s (List.mem_cons_of_mem _ mem)
    exact bind_ok.mpr ⟨_, later, rfl⟩
  | .tree child :: rest, each => by
    have later := refreshPointers_map visit link rest fun s mem =>
      each s (List.mem_cons_of_mem _ mem)
    exact bind_ok.mpr ⟨_, each child (by simp), bind_ok.mpr ⟨_, later, rfl⟩⟩

theorem cid_of_linked {holds : NodeProperty} {link : PartialMst → Cid}
    (filled : Filled store True holds layer entries records) (nonneg : 0 ≤ layer)
    (linked : ∀ s inner, holds (layer - 1) s inner → link s = canonicalCid store layer.toNat inner)
    (ranked : ∀ s inner, holds (layer - 1) s inner →
      ∀ record ∈ inner, (store.leadingZerosOnHash record.1 : Int) ≤ layer - 1) :
    ∃ data, serializeNodeData link entries = .ok data ∧
      store.cidForNodeData data = canonicalCid store (layer + 1).toNat records := by
  have grouped : canonicalEntries store (canonicalCid store layer.toNat) layer.toNat records =
      entries.map (Entry.mapTree link) := by
    refine group_eq (fun key => ?_) (fun s inner child => ?_) filled.inOrder filled.alternates
    · simp only [decide_eq_true_eq]
      omega
    · exact ⟨linked s inner child.1, child.2 trivial, ranked s inner child.1⟩
  obtain ⟨data, serialized⟩ := serializeNodeData_ok link filled.alternates
  have up : (layer + 1).toNat = layer.toNat + 1 := by omega
  refine ⟨data, serialized, ?_⟩
  have same := serializeNodeData_map id link entries
  simp only [id] at same
  rw [up, canonicalCid, grouped, nodeData, same, serialized]
  rfl

theorem getPointer_canonical : ∀ {height layer t records},
    Holds store True (CanonicalNode store) height layer t records →
    ∀ fuel, height ≤ fuel →
      (t.getPointer store fuel).result = .ok (canonicalCid store (layer + 1).toNat records)
  | 0, _, _, _, held, _, _ => held.elim
  | height + 1, layer, t, records, held, fuel, le => by
    obtain ⟨more, rfl⟩ : ∃ more, fuel = more + 1 := ⟨fuel - 1, by omega⟩
    unfold PartialMst.getPointer
    cases outdated : t.outdatedPointer with
    | false => simp [held.1.pointed outdated]
    | true =>
      obtain ⟨entries, loaded⟩ := held.1.at_hand outdated
      have opens : Opens store t entries := by simp [Opens, PartialMst.getEntries, loaded]
      have filled := held.2.2 entries opens
      refine bind_ok.mpr ⟨entries, opens, ?_⟩
      have visited (layer : Int) (s : PartialMst) (inner : Records)
          (child : Holds store True (CanonicalNode store) height layer s inner) :
          (currentPointer (PartialMst.getPointer store more) s).result =
            .ok (canonicalCid store (layer + 1).toNat inner) := by
        unfold currentPointer
        split
        · exact getPointer_canonical child more (by omega)
        next clean => simp [child.node.pointed (by simpa using clean)]
      let link (s : PartialMst) : Cid :=
        (currentPointer (PartialMst.getPointer store more) s).result.toOption.getD s.pointer
      have linked (s : PartialMst) (inner : Records)
          (child : Holds store True (CanonicalNode store) height (layer - 1) s inner) :
          link s = canonicalCid store layer.toNat inner := by
        simp [link, visited _ s inner child, Except.toOption]
      have refreshed := refreshPointers_map (PartialMst.getPointer store more) link entries
        fun s mem => by
          obtain ⟨inner, child⟩ := filled.inOrder.of_tree_mem mem
          rw [linked s inner child.1, visited _ s inner child.1]
          simp
      refine bind_ok.mpr ⟨_, refreshed, ?_⟩
      have same := serializeNodeData_map PartialMst.pointer
        (fun s => { s with pointer := link s, outdatedPointer := false }) entries
      simp only [result_ofExcept, cidForNodeEntries, same]
      by_cases nonneg : 0 ≤ layer
      · obtain ⟨data, serialized, canonical⟩ := cid_of_linked filled nonneg linked
          fun s inner child => child.ranked
        rw [serialized, ← canonical]
        rfl
      · -- below layer zero there is only the node without entries
        have empty : records = [] := by
          rcases records with _ | ⟨record, rest⟩
          · rfl
          · have ranked := held.2.1 record (by simp)
            omega
        subst empty
        have bare : entries = [] := by
          by_contra some
          exact filled.inOrder.ne_nil (fun _ _ _ child => child.2 trivial) some rfl
        subst bare
        simp [serializeNodeData, serializeEntries]
        rfl

end Pointer

def Canonical (store : NodeStore) (t : PartialMst) (records : Records) : Prop :=
  Sorted records ∧ ∃ layer, (canonical store).Result layer t records ∧
    (records = [] ∨ ∃ record ∈ records, (store.leadingZerosOnHash record.1 : Int) = layer)

section Root

variable {store : NodeStore} {t : PartialMst} {records : Records}

theorem Canonical.pointer (tree : Canonical store t records) :
    ∃ enough, ∀ fuel, enough ≤ fuel →
      (t.getPointer store fuel).result = .ok (canonicalPointer store records) := by
  obtain ⟨-, layer, ⟨height, held⟩, top⟩ := tree
  refine ⟨height, fun fuel le => ?_⟩
  rw [getPointer_canonical held fuel le, canonicalPointer]
  rcases top with rfl | ⟨record, mem, own⟩
  · simp
  · have highest : rootHeight store records = (layer + 1).toNat := by
      refine Nat.le_antisymm (rootHeight_le.mpr fun other inside => ?_) ?_
      · have ranked := Holds.ranked held other inside
        omega
      · have above := rootHeight_le.mp (le_refl (rootHeight store records)) record mem
        omega
    rw [highest]

end Root

end MastopodFederation.Guarantees.MstCanonical
