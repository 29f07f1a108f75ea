import MastopodFederation.Source.Mst

/-!
# The shape of a partially loaded Merkle search tree

A node holds records at a layer when its entries, as far as they can be loaded, alternate and
hold the records in order: leaves rank at the layer, subtrees hold their records one layer
below. The second half reads the index arithmetic of the tree methods off the cut where the
search for a key stops.
-/
namespace MastopodFederation.Guarantees.MstShape
open Source.Cbor Source.Mst Lib.Logged Lib.LayeredEntries Lib.SortedMap

abbrev Records := Items String Cid

abbrev NodeProperty := Int → PartialMst → Records → Prop

def Opens (store : NodeStore) (self : PartialMst) (entries : List MstEntry) : Prop :=
  (self.getEntries store).result = .ok entries

theorem Opens.unique {store : NodeStore} {t : PartialMst} {entries opened : List MstEntry}
    (first : Opens store t entries) (second : Opens store t opened) : opened = entries := by
  unfold Opens at first second
  simpa [first, eq_comm] using second

section Holds

variable (store : NodeStore) (inhabited : Prop)

def Child (holds : NodeProperty) : NodeProperty :=
  fun layer t records => holds layer t records ∧ (inhabited → records ≠ [])

structure Filled (holds : NodeProperty) (layer : Int) (entries : List MstEntry)
    (records : Records) : Prop where
  alternates : Alternates entries
  inOrder : InOrder store.leadingZerosOnHash (Child inhabited holds) layer entries records

def Holds (property : NodeProperty) : Nat → NodeProperty
  | 0 => fun _ _ _ => False
  | height + 1 => fun layer t records =>
    property layer t records ∧
    (∀ record ∈ records, (store.leadingZerosOnHash record.1 : Int) ≤ layer) ∧
    ∀ entries, Opens store t entries →
      Filled store inhabited (Holds property height) layer entries records

def Held (property : NodeProperty) : NodeProperty :=
  fun layer t records => ∃ height, Holds store inhabited property height layer t records

variable {store inhabited} {property other : NodeProperty} {holds : NodeProperty}
  {height : Nat} {layer : Int} {t : PartialMst} {records : Records} {entries : List MstEntry}

theorem Filled.mono {weaker : NodeProperty}
    (imp : ∀ layer t records, holds layer t records → weaker layer t records)
    (filled : Filled store inhabited holds layer entries records) :
    Filled store inhabited weaker layer entries records :=
  ⟨filled.alternates, filled.inOrder.mono fun _ _ _ child => ⟨imp _ _ _ child.1, child.2⟩⟩

theorem Holds.imp (weaker : ∀ layer t records, property layer t records → other layer t records)
    (held : Holds store inhabited property height layer t records) :
    Holds store inhabited other height layer t records := by
  induction height generalizing layer t records with
  | zero => exact held
  | succ height ih =>
    obtain ⟨node, ranked, opened⟩ := held
    exact ⟨weaker _ _ _ node, ranked, fun entries opens =>
      (opened entries opens).mono fun _ _ _ => ih⟩

theorem Holds.succ (held : Holds store inhabited property height layer t records) :
    Holds store inhabited property (height + 1) layer t records := by
  induction height generalizing layer t records with
  | zero => exact held.elim
  | succ height ih =>
    obtain ⟨node, ranked, opened⟩ := held
    exact ⟨node, ranked, fun entries opens => (opened entries opens).mono fun _ _ _ => ih⟩

theorem Holds.mono {taller : Nat} (le : height ≤ taller)
    (held : Holds store inhabited property height layer t records) :
    Holds store inhabited property taller layer t records := by
  induction le with
  | refl => exact held
  | step _ ih => exact ih.succ

theorem Holds.ranked (held : Holds store inhabited property height layer t records) :
    ∀ record ∈ records, (store.leadingZerosOnHash record.1 : Int) ≤ layer := by
  cases height with
  | zero => exact held.elim
  | succ height => exact held.2.1

theorem Holds.node (held : Holds store inhabited property height layer t records) :
    property layer t records := by
  cases height with
  | zero => exact held.elim
  | succ height => exact held.1

theorem Held.ranked (held : Held store inhabited property layer t records) :
    ∀ record ∈ records, (store.leadingZerosOnHash record.1 : Int) ≤ layer := by
  obtain ⟨height, held⟩ := held
  exact held.ranked

theorem exists_height
    (listed : InOrder store.leadingZerosOnHash (Child inhabited (Held store inhabited property))
      layer entries records) :
    ∃ height, InOrder store.leadingZerosOnHash
      (Child inhabited (Holds store inhabited property height)) layer entries records := by
  induction listed with
  | nil => exact ⟨0, .nil⟩
  | leaf ranked _ ih =>
    obtain ⟨height, listed⟩ := ih
    exact ⟨height, .leaf ranked listed⟩
  | tree held _ ih =>
    obtain ⟨height, listed⟩ := ih
    obtain ⟨⟨inner, held⟩, full⟩ := held
    refine ⟨max height inner, .tree ⟨held.mono (Nat.le_max_right _ _), full⟩ ?_⟩
    exact listed.mono fun _ _ _ child => ⟨child.1.mono (Nat.le_max_left _ _), child.2⟩

theorem Held.of_entries (node : property layer t records) (at_hand : t.entries = some entries)
    (filled : Filled store inhabited (Held store inhabited property) layer entries records) :
    Held store inhabited property layer t records := by
  obtain ⟨height, listed⟩ := exists_height filled.inOrder
  have ranked := filled.inOrder.ranked fun _ _ _ child => child.1.ranked
  refine ⟨height + 1, node, ranked, fun opened opens => ?_⟩
  have same : opened = entries := by
    simp only [Opens, PartialMst.getEntries, at_hand, Logged.result_pure] at opens
    cases opens
    rfl
  rw [same]
  exact ⟨filled.alternates, listed⟩

end Holds

section Serialization

variable {τ : Type}

theorem serializeEntries_ok (pointer : τ → Cid) :
    ∀ (lastKey : String) (entries : List (Entry τ String Cid)), StartsWithLeaf entries →
      Alternates entries → ∃ e, serializeEntries pointer lastKey entries = .ok e
  | _, [], _, _ => ⟨[], rfl⟩
  | _, .tree subtree :: _, first, _ => absurd rfl (first subtree)
  | lastKey, .leaf key value :: .tree subtree :: rest, _, apart => by
    have behind := alternates_tree_cons.mp (alternates_leaf_cons.mp apart)
    obtain ⟨e, serialized⟩ := serializeEntries_ok pointer key rest behind.1 behind.2
    exact ⟨_, by rw [serializeEntries, serialized]; rfl⟩
  | lastKey, [.leaf key value], _, _ => ⟨_, rfl⟩
  | lastKey, .leaf key value :: .leaf k v :: rest, _, apart => by
    obtain ⟨e, serialized⟩ := serializeEntries_ok pointer key (.leaf k v :: rest) (by simp)
      (alternates_leaf_cons.mp apart)
    exact ⟨_, by rw [serializeEntries, serialized]; rfl; simp⟩

theorem serializeNodeData_ok (pointer : τ → Cid) {entries : List (Entry τ String Cid)}
    (apart : Alternates entries) : ∃ data, serializeNodeData pointer entries = .ok data := by
  rcases entries with _ | ⟨⟨key, value⟩ | subtree, rest⟩
  · exact ⟨_, rfl⟩
  · obtain ⟨e, serialized⟩ := serializeEntries_ok pointer "" (.leaf key value :: rest) (by simp)
      apart
    exact ⟨_, by rw [serializeNodeData, serialized]; rfl; simp⟩
  · have behind := alternates_tree_cons.mp apart
    obtain ⟨e, serialized⟩ := serializeEntries_ok pointer "" rest behind.1 behind.2
    exact ⟨_, by rw [serializeNodeData, serialized]; rfl⟩

theorem create_ok (store : NodeStore) {entries : List MstEntry} (apart : Alternates entries)
    (layer : Option Int) :
    ∃ pointer, PartialMst.create store entries layer =
      .ok ⟨pointer, false, layer, some entries⟩ := by
  obtain ⟨data, serialized⟩ := serializeNodeData_ok PartialMst.pointer apart
  exact ⟨store.cidForNodeData data, by
    simp [PartialMst.create, cidForNodeEntries, serialized]⟩

end Serialization

section Index

variable {entries pre post : List MstEntry} {mid : Option PartialMst} {key : String}

theorem length_eq_index (cut : Cut entries key pre mid post) :
    findGtOrEqualLeafIndex entries key = (pre ++ maybeTree mid : List MstEntry).length :=
  cut.index_eq

theorem take_index (cut : Cut entries key pre mid post) :
    entries.take (findGtOrEqualLeafIndex entries key) = pre ++ maybeTree mid := by
  rw [length_eq_index cut, cut.entries_eq, List.take_left]

theorem drop_index (cut : Cut entries key pre mid post) :
    entries.drop (findGtOrEqualLeafIndex entries key) = post := by
  rw [length_eq_index cut, cut.entries_eq, List.drop_left]

theorem drop_past_index (cut : Cut entries key pre mid post) (count : Nat) :
    entries.drop (findGtOrEqualLeafIndex entries key + count) = post.drop count := by
  rw [← List.drop_drop, drop_index cut]

theorem entry_past_index (cut : Cut entries key pre mid post) (count : Nat) :
    entries[findGtOrEqualLeafIndex entries key + count]? = post[count]? := by
  rw [← List.getElem?_drop, drop_index cut]

theorem foundAt_nil (cut : Cut entries key pre mid []) :
    foundAt entries (findGtOrEqualLeafIndex entries key) key = none := by
  have here := entry_past_index cut 0
  simp only [Nat.add_zero] at here
  simp [foundAt, here]

theorem foundAt_cons {k : String} {value : Cid} {rest : List MstEntry}
    (cut : Cut entries key pre mid (.leaf k value :: rest)) :
    foundAt entries (findGtOrEqualLeafIndex entries key) key =
      if k = key then some value else none := by
  have here := entry_past_index cut 0
  simp only [Nat.add_zero] at here
  simp [foundAt, here]

theorem previousTree_index (cut : Cut entries key pre mid post) :
    previousTree entries (findGtOrEqualLeafIndex entries key) = mid := by
  rw [length_eq_index cut, cut.entries_eq]
  cases mid with
  | some subtree => simp [previousTree, treeAt]
  | none =>
    rcases List.eq_nil_or_concat pre with rfl | ⟨start, last, rfl⟩
    · simp [previousTree]
    · rw [List.concat_eq_append] at cut ⊢
      rcases last with ⟨k, value⟩ | subtree
      · simp [previousTree, treeAt]
      · exact absurd (by simp) (cut.endsInLeaf subtree)

theorem treeAt_next (cut : Cut entries key pre mid post) :
    treeAt entries (findGtOrEqualLeafIndex entries key + 1) = treeAt post 1 := by
  simp [treeAt, entry_past_index cut]

theorem spliceIn_index (cut : Cut entries key pre mid post) (entry : MstEntry) :
    spliceIn entries entry (findGtOrEqualLeafIndex entries key) =
      pre ++ maybeTree mid ++ entry :: post := by
  simp [spliceIn, take_index cut, drop_index cut]

theorem updateEntry_index (cut : Cut entries key pre mid post) (entry : MstEntry) :
    updateEntry entries (findGtOrEqualLeafIndex entries key) entry =
      pre ++ maybeTree mid ++ entry :: post.drop 1 := by
  simp [updateEntry, take_index cut, drop_past_index cut]

theorem removeEntry_index (cut : Cut entries key pre mid post) :
    removeEntry entries (findGtOrEqualLeafIndex entries key) =
      pre ++ maybeTree mid ++ post.drop 1 := by
  simp [removeEntry, take_index cut, drop_past_index cut]

variable {subtree : PartialMst}

theorem index_pred (cut : Cut entries key pre (some subtree) post) :
    findGtOrEqualLeafIndex entries key - 1 = pre.length := by
  rw [length_eq_index cut]
  simp

theorem take_previous (cut : Cut entries key pre (some subtree) post) :
    entries.take (findGtOrEqualLeafIndex entries key - 1) = pre := by
  rw [index_pred cut, cut.entries_eq, List.append_assoc, List.take_left]

theorem drop_previous (cut : Cut entries key pre (some subtree) post) :
    entries.drop (findGtOrEqualLeafIndex entries key - 1 + 1) = post := by
  rw [index_pred cut, cut.entries_eq]
  simp [List.drop_append]

theorem updateEntry_previous (cut : Cut entries key pre (some subtree) post) (entry : MstEntry) :
    updateEntry entries (findGtOrEqualLeafIndex entries key - 1) entry = pre ++ entry :: post := by
  rw [updateEntry, take_previous cut, drop_previous cut]

theorem removeEntry_previous (cut : Cut entries key pre (some subtree) post) :
    removeEntry entries (findGtOrEqualLeafIndex entries key - 1) = pre ++ post := by
  rw [removeEntry, take_previous cut, drop_previous cut]

theorem replaceWithSplit_previous (cut : Cut entries key pre (some subtree) post)
    (left right : Option PartialMst) (leaf : MstEntry) :
    replaceWithSplit entries (findGtOrEqualLeafIndex entries key - 1) left leaf right =
      pre ++ maybeTree left ++ leaf :: maybeTree right ++ post := by
  rw [replaceWithSplit, take_previous cut, drop_previous cut]

theorem removeEntry_left (cut : Cut entries key pre (some subtree) post) :
    removeEntry (entries.take (findGtOrEqualLeafIndex entries key))
      (findGtOrEqualLeafIndex entries key - 1) = pre := by
  rw [take_index cut, index_pred cut]
  simp [removeEntry]

end Index

end MastopodFederation.Guarantees.MstShape
