import MastopodFederation.Guarantees.MstEditCost
import MastopodFederation.Guarantees.MstEdits

/-!
# A partial tree is an ordered map

The methods of `PartialMst` refine lookup, insertion and erasure on the sorted list of records of
a tree all of whose nodes can be loaded and stand at their layers: a method returns exactly when
the map operation is enabled, and its result is a tree of the new map, which serializes.
-/
namespace MastopodFederation.Guarantees.MstMap
open Source.Cbor Source.CommitEvent Source.Mst Lib.LayeredEntries Lib.SortedMap
open MstShape MstLayers MstOperations MstEdits MstDescent MstCost MstEditCost Lib.Logged.Logged

section Whole

variable (store : NodeStore)

/-- A tree that can be loaded as a whole, of at most this height: no two subtrees of
a node touch, and the entries list the records in order. -/
def Whole (node : Int → PartialMst → Prop) : Nat → NodeProperty
  | 0 => fun _ _ _ => False
  | height + 1 => fun layer t records =>
    node layer t ∧ ∃ entries, Opens store t entries ∧ Alternates entries ∧
      InOrder store.leadingZerosOnHash (Whole node height) layer entries records

def Layered : Nat → NodeProperty := Whole store (LayerSound store)

def IsTreeOf (t : PartialMst) (bindings : String → Option Cid) : Prop :=
  ∃ height layer records, Whole store (fun _ _ => True) height layer t records ∧
    Sorted records ∧ ∀ key, lookup key records = bindings key

variable {store} {node other : Int → PartialMst → Prop} {height taller : Nat} {layer : Int}
  {t : PartialMst} {records : Records}

theorem Whole.imp (weaker : ∀ layer t, node layer t → other layer t) :
    ∀ {height layer t records}, Whole store node height layer t records →
      Whole store other height layer t records
  | 0, _, _, _, whole => whole.elim
  | _ + 1, _, _, _, ⟨at_node, entries, opens, apart, listed⟩ =>
    ⟨weaker _ _ at_node, entries, opens, apart, listed.mono fun _ _ _ => Whole.imp weaker⟩

theorem Whole.ranked : ∀ {height layer t records}, Whole store node height layer t records →
    ∀ record ∈ records, (store.leadingZerosOnHash record.1 : Int) ≤ layer
  | 0, _, _, _, whole => whole.elim
  | _ + 1, _, _, _, ⟨_, _, _, _, listed⟩ => listed.ranked fun _ _ _ => Whole.ranked

theorem Whole.within {direction : Direction} : ∀ {height layer t records},
    Whole store node height layer t records → Within store direction height t
  | 0, _, _, _, whole => whole.elim
  | _ + 1, _, _, _, ⟨_, own, opens, _, listed⟩ => fun entries opened s down => by
    obtain rfl := opens.unique opened
    obtain ⟨inner, below⟩ := listed.of_tree_mem (mem_of_down down)
    exact below.within

theorem Whole.at_pointer (unloaded : t.entries = none)
    (whole : Whole store node height layer t records) :
    Whole store (fun _ _ => True) height layer (.load t.pointer none) records := by
  cases height with
  | zero => exact whole.elim
  | succ height =>
    obtain ⟨-, entries, opens, apart, listed⟩ := whole
    exact ⟨trivial, entries, (opens_load unloaded none).mp opens, apart,
      listed.mono fun _ _ _ => Whole.imp fun _ _ _ => trivial⟩

end Whole

section Terrain

variable {store : NodeStore} {height : Nat} {layer : Int} {t : PartialMst} {records : Records}

def readBelow (store : NodeStore) (height : Nat) (top : Int) (cid : Cid) : Prop :=
  ∃ depth layer records, depth ≤ height ∧ layer ≤ top ∧
    Whole store (fun _ _ => True) depth layer (.load cid none) records

def terrain (store : NodeStore) (height : Nat) (top : Int) (key : String) : Terrain store where
  region := readBelow store height top
  depth := height
  limit := max top.toNat (store.leadingZerosOnHash key)
  floor := min (-1) (top - height)
  tidy := False
  floor_le := min_le_left _ _
  closed := by
    rintro cid entries s ⟨depth, layer, records, low, le, whole⟩ opens mem
    cases depth with
    | zero => exact whole.elim
    | succ depth =>
      obtain ⟨-, own, opened, -, listed⟩ := whole
      obtain rfl := opened.unique opens
      obtain ⟨inner, child⟩ := listed.of_tree_mem mem
      have unloaded : s.entries = none := by
        rw [(read_entries rfl opens).2.1 s mem]
        rfl
      exact ⟨depth, layer - 1, inner, by omega, by omega, child.at_pointer unloaded⟩
  ranked := by
    rintro cid entries key value ⟨depth, layer, records, low, le, whole⟩ opens mem
    cases depth with
    | zero => exact whole.elim
    | succ depth =>
      obtain ⟨-, own, opened, -, listed⟩ := whole
      obtain rfl := opened.unique opens
      have ranked := listed.of_leaf_mem mem
      omega
  comes_back := by
    rintro cid ⟨depth, layer, records, -, -, whole⟩ failed
    cases depth with
    | zero => exact whole.elim
    | succ depth =>
      obtain ⟨-, entries, opens, -, -⟩ := whole
      rw [Opens, failed] at opens
      cases opens
  shallow := by
    rintro cid ⟨depth, layer, records, low, -, whole⟩ direction
    exact whole.within.mono low

theorem Layered.deep {top : Int} {tallest : Nat} (key : String) :
    ∀ {height layer t records}, Layered store height layer t records →
      layer ≤ top → height ≤ tallest → top - tallest ≤ layer - height →
      Deep (terrain store tallest top key) height t
  | 0, _, _, _, whole, _, _, _ => whole.elim
  | height + 1, layer, t, records, whole, le, low, gap => by
    have unloaded (none : t.entries = none) : readBelow store tallest top t.pointer :=
      ⟨height + 1, layer, records, low, le, whole.at_pointer none⟩
    refine ⟨fun x known => ?_, fun tidy => tidy.elim,
      fun none => ⟨unloaded none, whole.within⟩, fun entries loaded => ?_⟩
    · have own := whole.1.layer_eq known
      simp only [terrain]
      omega
    · obtain ⟨-, own, opens, apart, listed⟩ := whole
      have same := opens_of_entries loaded opens
      subst same
      refine ⟨apart, fun entry mem => ?_⟩
      cases entry with
      | leaf k v =>
        have ranked := listed.of_leaf_mem mem
        simp only [EntryOk, terrain]
        omega
      | tree s =>
        obtain ⟨inner, child⟩ := listed.of_tree_mem mem
        exact Layered.deep key child (by omega) (by omega) (by omega)

end Terrain

section Discipline

variable {store : NodeStore} {height : Nat} {layer : Int} {t : PartialMst} {records : Records}

def loadable (store : NodeStore) (admits : Failure → Prop) (exhausted : admits .exhausted) :
    Discipline store where
  inhabited := False
  property := fun _ t _ => ∃ entries, Opens store t entries
  admits := admits
  admits_exhausted := exhausted
  admits_read := by
    rintro layer t records e ⟨entries, opens⟩ failed
    rw [Opens, failed] at opens
    cases opens
  opened := fun entries _ => ⟨entries, rfl⟩
  cached := fun held => held
  newTree := fun entries _ _ _ => ⟨entries, rfl⟩
  made := fun _ entries _ => ⟨entries, rfl⟩
  child := fun _ => ⟨[], rfl⟩

variable {admits : Failure → Prop} {exhausted : admits .exhausted}

theorem Layered.given (admits : Failure → Prop) (exhausted : admits .exhausted) :
    ∀ {height layer t records}, Layered store height layer t records →
    (loadable store admits exhausted).Given height layer t records
  | 0, _, _, _, whole => whole.elim
  | height + 1, layer, t, records, whole => by
    have ranked := whole.ranked
    obtain ⟨sound, entries, opens, apart, listed⟩ := whole
    refine ⟨⟨⟨entries, opens⟩, sound⟩, ranked, fun opened again => ?_⟩
    obtain rfl := opens.unique again
    exact ⟨apart, listed.mono fun _ _ _ child => ⟨Layered.given admits exhausted child, fun none => none.elim⟩⟩

theorem whole_of_holds : ∀ {height layer t records},
    Holds store False (loadable store admits exhausted).property height layer t records →
    Whole store (fun _ _ => True) height layer t records
  | 0, _, _, _, held => held.elim
  | height + 1, layer, t, records, held => by
    obtain ⟨⟨entries, opens⟩, -, filled⟩ := held
    have filled := filled entries opens
    exact ⟨trivial, entries, opens, filled.alternates,
      filled.inOrder.mono fun _ _ _ child => whole_of_holds child.1⟩

theorem isTreeOf_result {bindings : String → Option Cid}
    (result : (loadable store admits exhausted).Result layer t records) (sorted : Sorted records)
    (bound : ∀ key, lookup key records = bindings key) : IsTreeOf store t bindings := by
  obtain ⟨height, held⟩ := result
  exact ⟨height, layer, records, whole_of_holds held, sorted, bound⟩

theorem returns_of_spends {α : Type} {post other : α → Prop} {budget : Nat} {x : Reads α}
    (meets : Meets post (· = .exhausted) x) (spends : Spends budget other Ends x) :
    ∃ a, x.result = .ok a ∧ post a := by
  cases outcome : x.result with
  | ok a => exact ⟨a, rfl, meets.1 a outcome⟩
  | error e => exact absurd (meets.2 e outcome) (spends.2.2 e outcome)

end Discipline

section Pointer

variable {store : NodeStore}

theorem refreshPointers_returns {visit : PartialMst → Reads Cid}
    {holds : NodeProperty} {layer : Int} :
    ∀ {entries : List MstEntry} {records : Records},
      (∀ layer s records, holds layer s records → ∃ cid, (visit s).result = .ok cid) →
      InOrder store.leadingZerosOnHash holds layer entries records →
      ∃ fresh, (refreshPointers visit entries).result = .ok fresh ∧
        fresh.map Entry.isTree = entries.map Entry.isTree
  | _, _, _, .nil => ⟨[], rfl, rfl⟩
  | _, _, each, .leaf ranked listed => by
    obtain ⟨fresh, returned, same⟩ := refreshPointers_returns each listed
    exact ⟨_, bind_ok.mpr ⟨fresh, returned, rfl⟩, by simpa using same⟩
  | .tree child :: rest, _, each, .tree held listed => by
    obtain ⟨fresh, returned, same⟩ := refreshPointers_returns each listed
    have visited : ∃ cid, (currentPointer visit child).result = .ok cid := by
      unfold currentPointer
      split
      · exact each _ _ _ held
      · exact ⟨_, rfl⟩
    obtain ⟨cid, pointed⟩ := visited
    exact ⟨_, bind_ok.mpr ⟨cid, pointed, bind_ok.mpr ⟨fresh, returned, rfl⟩⟩,
      by simpa using same⟩

theorem Whole.serializes {node : Int → PartialMst → Prop} :
    ∀ {height layer t records}, Whole store node height layer t records →
      ∀ fuel, height ≤ fuel → ∃ cid, (t.getPointer store fuel).result = .ok cid
  | 0, _, _, _, whole, _, _ => whole.elim
  | height + 1, layer, t, records, whole, fuel, le => by
    obtain ⟨more, rfl⟩ : ∃ more, fuel = more + 1 := ⟨fuel - 1, by omega⟩
    obtain ⟨-, entries, opens, apart, listed⟩ := whole
    unfold PartialMst.getPointer
    split
    · exact ⟨_, rfl⟩
    · have below (layer : Int) (s : PartialMst) (records : Records)
          (child : Whole store node height layer s records) :
          ∃ cid, (s.getPointer store more).result = .ok cid := child.serializes more (by omega)
      obtain ⟨fresh, refreshed, same⟩ := refreshPointers_returns below listed
      obtain ⟨data, serialized⟩ := serializeNodeData_ok PartialMst.pointer
        ((alternates_congr same).mpr apart)
      refine ⟨store.cidForNodeData data, bind_ok.mpr ⟨entries, opens, bind_ok.mpr
        ⟨fresh, refreshed, ?_⟩⟩⟩
      simp [cidForNodeEntries, serialized]

end Pointer

section Refinement

variable {store : NodeStore} {height : Nat} {layer : Int} {t : PartialMst} {records : Records}
  {key : String} {value : Cid}

/-- A method returns exactly when it is enabled, with a tree of the bindings that
serializes. -/
def Edits (store : NodeStore) (enabled : Prop) (bindings : String → Option Cid)
    (result : Except Failure PartialMst) : Prop :=
  ((∃ t', result = .ok t') ↔ enabled) ∧
    ∀ t', result = .ok t' → IsTreeOf store t' bindings ∧
      ∃ bound, ∀ fuel, bound ≤ fuel → ∃ cid, (t'.getPointer store fuel).result = .ok cid

theorem edits_of_meets {enabled : Prop} {bindings : String → Option Cid} {budget : Nat}
    {other : PartialMst → Prop} {x : Reads PartialMst}
    (only : Meets (fun t' => enabled ∧ IsTreeOf store t' bindings) (fun _ => True) x)
    (returns : enabled → Meets (fun _ => True) (· = .exhausted) x)
    (spends : Spends budget other Ends x) : Edits store enabled bindings x.result := by
  refine ⟨⟨fun ⟨t', returned⟩ => (only.1 t' returned).1, fun on => ?_⟩, fun t' returned => ?_⟩
  · obtain ⟨t', returned, -⟩ := returns_of_spends (returns on) spends
    exact ⟨t', returned⟩
  · have tree := (only.1 t' returned).2
    obtain ⟨height, layer, records, whole, -⟩ := tree
    exact ⟨(only.1 t' returned).2, height, whole.serializes⟩

/-- From some bound on the recursion on, the methods of a layered tree with sorted
records are the operations of the map. -/
theorem methods_refine_map (layered : Layered store height layer t records)
    (sorted : Sorted records) (valid : ensureValidMstKey key = .ok ()) :
    ∃ enough, ∀ fuel, enough ≤ fuel →
      (t.get store fuel key).result = .ok (lookup key records) ∧
      Edits store (lookup key records = none)
        (fun k => if k = key then some value else lookup k records)
        (t.add store fuel key value none).result ∧
      Edits store (lookup key records ≠ none)
        (fun k => if k = key then some value else lookup k records)
        (t.update store fuel key value).result ∧
      Edits store (lookup key records ≠ none)
        (fun k => if k = key then none else lookup k records)
        (t.delete store fuel key).result := by
  have deep := (layered.deep key le_rfl le_rfl le_rfl).mono (Nat.le_add_right height (height + 1))
  generalize within_eq : terrain store height layer key = T at deep
  have depth : T.depth = height := by rw [← within_eq]; rfl
  have ranked : store.leadingZerosOnHash key ≤ T.limit := by
    rw [← within_eq]
    exact le_max_right _ _
  have tall : T.depth < height + (height + 1) := by omega
  have within := deep.within (.search key)
  generalize height + (height + 1) = tallest at deep tall within
  generalize tallest + T.depth = steps at within
  have never (admits : Failure → Prop) :
      ∀ e, ensureValidMstKey key = .error e → admits e := by simp [valid]
  have tolerant := layered.given (fun _ => True) trivial
  have strict := layered.given (· = .exhausted) rfl
  refine ⟨steps + mergedHeight T.depth tallest + addHeight T steps tallest + 1,
    fun fuel le => ⟨?_, ?_, ?_, ?_⟩⟩
  · obtain ⟨found, returned, rfl⟩ := returns_of_spends (meets_get fuel strict sorted)
      (spends_get fuel deep tall within (by omega))
    exact returned
  · refine edits_of_meets ?_ (fun absent => ?_)
      (spends_add value ranked fuel deep tall within rfl (by omega))
    · refine (meets_add value (never _) fuel tolerant sorted rfl fun _ => trivial).imp
        fun t' _ met => ⟨met.1, ?_⟩
      exact isTreeOf_result met.2 sorted.insert fun k => lookup_insert
    · exact (meets_add value (never _) fuel strict sorted rfl (fun bound =>
        absurd absent bound)).imp fun _ _ _ => trivial
  · refine edits_of_meets ?_ (fun bound => ?_)
      (spends_update value fuel deep tall within (by omega))
    · refine (meets_update value (never _) fuel tolerant sorted fun _ => trivial).imp
        fun t' _ met => ⟨met.1, ?_⟩
      exact isTreeOf_result met.2 sorted.insert fun k => lookup_insert
    · exact (meets_update value (never _) fuel strict sorted fun absent =>
        absurd absent bound).imp fun _ _ _ => trivial
  · refine edits_of_meets ?_ (fun bound => ?_)
      (spends_delete deep tall within (by omega))
    · refine (meets_delete tolerant sorted fun _ => trivial).imp
        fun t' _ met => ⟨met.1, ?_⟩
      rcases met.2 with ⟨-, top, -, result⟩ | ⟨none, rfl⟩
      · exact isTreeOf_result result sorted.erase fun k => lookup_erase
      · have empty : (loadable store (fun _ => True) trivial).Result layer (t.newTree []) [] :=
          newTree_result tolerant.property (fun none => none.elim) ⟨alternates_nil, .nil⟩
        refine isTreeOf_result empty (by simp [Sorted]) fun k => ?_
        · rw [← none, lookup_erase]
    · exact (meets_delete strict sorted fun absent => absurd absent bound).imp
        fun _ _ _ => trivial

/-! A node over a subtree that is still to be loaded. -/

def sampleCid : Cid := ⟨"bafysample", by decide⟩

def sampleStore : NodeStore where
  readNode := fun _ => .ok ⟨none, [⟨0, fromAscii "a/a", sampleCid, none⟩]⟩
  cidForNodeData := fun _ => sampleCid
  leadingZerosOnHash := fun key => if key = "b/b" then 1 else 0

def sampleTree : PartialMst :=
  ⟨sampleCid, false, none, some [.tree (.load sampleCid (some 0)), .leaf "b/b" sampleCid]⟩

theorem sampleTree_layered :
    Layered sampleStore 2 1 sampleTree [("a/a", sampleCid), ("b/b", sampleCid)] := by
  have child : Layered sampleStore 1 0 (.load sampleCid (some 0)) [("a/a", sampleCid)] := by
    refine ⟨layerSound_of_layer rfl, [.leaf "a/a" sampleCid], by rfl, by simp, ?_⟩
    exact .leaf (by simp [sampleStore]) .nil
  have listed : InOrder sampleStore.leadingZerosOnHash (Layered sampleStore 1) 1
      [.tree (.load sampleCid (some 0)), .leaf "b/b" sampleCid]
      ([("a/a", sampleCid)] ++ [("b/b", sampleCid)]) :=
    .tree child (.leaf (by simp [sampleStore]) .nil)
  refine ⟨fun fuel answer returned => ?_, _, rfl, by simp [alternates_tree_cons], listed⟩
  obtain ⟨found, asked, attempted, rfl⟩ := getLayer_ok.mp returned
  cases fuel with
  | zero => cases attempted
  | succ fuel =>
    cases attempted
    rfl

theorem methods_refine_map_sample : ∃ enough, ∀ fuel, enough ≤ fuel →
    (sampleTree.get sampleStore fuel "a/a").result =
      .ok (lookup "a/a" [("a/a", sampleCid), ("b/b", sampleCid)]) := by
  obtain ⟨enough, refined⟩ := @methods_refine_map sampleStore 2 1 sampleTree _ "a/a" sampleCid
    sampleTree_layered (by unfold Sorted; decide) (by decide : ensureValidMstKey "a/a" = .ok ())
  exact ⟨enough, fun fuel le => (refined fuel le).1⟩

end Refinement

end MastopodFederation.Guarantees.MstMap
