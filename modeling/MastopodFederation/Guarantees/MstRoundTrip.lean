import MastopodFederation.Guarantees.MstEncoding

/-!
# Node data read and written

Entries that are written and read keep their keys, values and subtree pointers. Node data with
longest prefixes that is read and written comes back exactly when its key bytes are ASCII: the
decoder drops the high bit of a byte before the key is checked.
-/
namespace MastopodFederation.Guarantees.MstRoundTrip
open Source.Cbor Source.Mst Lib.Logged Lib.LayeredEntries
open MstShape MstCanonical MstEncoding

variable {layer : Option Int} {data : MstNodeData} {entries : List MstEntry}

def listing (entries : List MstEntry) : List (Entry Cid String Cid) :=
  entries.map (Entry.mapTree PartialMst.pointer)

theorem listing_restored (apart : Alternates entries)
    (valid : ∀ key value, .leaf key value ∈ entries → ensureValidMstKey key = .ok ()) :
    ∃ data read, serializeNodeData PartialMst.pointer entries = .ok data ∧
      deserializeNodeData data layer = .ok read ∧ listing read = listing entries := by
  obtain ⟨data, written⟩ := serializeNodeData_ok PartialMst.pointer apart
  have same : serializeNodeData id (listing entries) = .ok data := by
    unfold listing
    rw [serializeNodeData_map]
    exact written
  have valid' : ∀ key value, .leaf key value ∈ listing entries → ensureValidMstKey key = .ok () := by
    intro key value mem
    obtain ⟨entry, inside, eq⟩ := List.mem_map.mp mem
    cases entry with
    | leaf k v =>
      cases eq
      exact valid key value inside
    | tree t => cases eq
  refine ⟨data, _, written, deserialize_nodeData same valid', ?_⟩
  unfold listing
  rw [List.map_map, List.map_map]
  refine List.map_congr_left fun entry _ => ?_
  cases entry with
  | leaf key value => rfl
  | tree t => rfl

def LongestPrefixes (lastKey : String) : List MstNodeEntry → Prop
  | [] => True
  | entry :: rest =>
    let key := String.ofList (lastKey.toList.take entry.p) ++ toAscii entry.k
    entry.p = countPrefixLength lastKey key ∧ LongestPrefixes key rest

def masked (entry : MstNodeEntry) : MstNodeEntry := { entry with k := fromAscii (toAscii entry.k) }

theorem countPrefix_le : ∀ left right : List Char, countPrefix left right ≤ left.length
  | [], right => by simp [countPrefix]
  | _ :: _, [] => by simp [countPrefix]
  | a :: left, b :: right => by
    unfold countPrefix
    split
    · exact Nat.succ_le_succ (countPrefix_le left right)
    · exact Nat.zero_le _

variable {entry : MstNodeEntry}

theorem serializeEntry_read {lastKey : String} (longest : entry.p = countPrefixLength lastKey
      (String.ofList (lastKey.toList.take entry.p) ++ toAscii entry.k)) :
    serializeEntry lastKey (String.ofList (lastKey.toList.take entry.p) ++ toAscii entry.k)
      entry.v entry.t = masked entry := by
  have within : entry.p ≤ lastKey.toList.length := by
    rw [longest]
    exact countPrefix_le _ _
  unfold serializeEntry masked
  rw [← longest]
  have suffix : (String.ofList (lastKey.toList.take entry.p) ++ toAscii entry.k).toList.drop entry.p =
      (toAscii entry.k).toList := by
    rw [String.toList_append, String.toList_ofList]
    exact List.drop_left' (by simpa using within)
  rw [suffix, String.ofList_toList]

theorem serializeEntries_read : ∀ (lastKey : String) (e : List MstNodeEntry) {entries : List MstEntry},
    deserializeEntries layer lastKey e = .ok entries → LongestPrefixes lastKey e →
    StartsWithLeaf entries ∧
      serializeEntries PartialMst.pointer lastKey entries = .ok (e.map masked)
  | _, [], _, read, _ => by
    cases read
    exact ⟨nofun, rfl⟩
  | lastKey, entry :: rest, entries, read, longest => by
    simp only [deserializeEntries, except_bind_ok] at read
    obtain ⟨-, -, later, behind, same⟩ := read
    cases same
    obtain ⟨first, written⟩ := serializeEntries_read _ rest behind longest.2
    have own := serializeEntry_read longest.1
    refine ⟨by simp [StartsWithLeaf], ?_⟩
    cases subtree : entry.t with
    | none =>
      rw [subtree] at own
      change serializeEntries _ _ (.leaf _ entry.v :: later) = _
      rw [serializeEntries_leaf first, written, own]
      rfl
    | some cid =>
      rw [subtree] at own
      change serializeEntries _ _ (.leaf _ entry.v :: .tree (PartialMst.load cid _) :: later) = _
      rw [serializeEntries, written]
      exact congrArg (fun own => Except.ok (own :: rest.map masked)) own

theorem serializeNodeData_read (read : deserializeNodeData data layer = .ok entries)
    (longest : LongestPrefixes "" data.e) :
    serializeNodeData PartialMst.pointer entries = .ok { data with e := data.e.map masked } := by
  simp only [deserializeNodeData, except_bind_ok] at read
  obtain ⟨later, behind, same⟩ := read
  cases same
  obtain ⟨first, written⟩ := serializeEntries_read "" data.e behind longest
  cases left : data.l with
  | none =>
    rw [Option.map_none, maybeTree_none, List.nil_append, serializeNodeData, written]
    · rfl
    · intro subtree rest same
      exact first subtree (by rw [same]; rfl)
  | some cid =>
    rw [Option.map_some, maybeTree_some, List.singleton_append, serializeNodeData, written]
    rfl

theorem fromAscii_toAscii (bytes : Bytes) :
    fromAscii (toAscii bytes) = bytes.map fun byte => byte % 128 := by
  unfold fromAscii toAscii
  rw [String.toList_ofList, List.map_map]
  refine List.map_congr_left fun byte _ => ?_
  have small : byte.toNat % 128 < 128 := Nat.mod_lt _ (by decide)
  have valid : Nat.isValidChar (byte.toNat % 128) := .inl (by omega)
  have back : (Char.ofNat (byte.toNat % 128)).toNat = byte.toNat % 128 := by
    rw [Char.ofNat, dif_pos valid]
    rfl
  apply UInt8.toNat_inj.mp
  simp only [Function.comp_apply, back, UInt8.toNat_ofNat', UInt8.toNat_mod]
  exact Nat.mod_eq_of_lt (Nat.lt_trans small (by decide))

theorem masked_eq_iff : masked entry = entry ↔ ∀ byte ∈ entry.k, byte < 128 := by
  have parts : masked entry = entry ↔ fromAscii (toAscii entry.k) = entry.k := by
    cases entry
    simp [masked]
  rw [parts, fromAscii_toAscii]
  constructor
  · intro same byte mem
    have own : byte % 128 = byte := by
      obtain ⟨i, bound, rfl⟩ := List.getElem_of_mem mem
      have fixed := List.getElem_of_eq same (by simpa using bound)
      rwa [List.getElem_map] at fixed
    rw [← own]
    exact UInt8.mod_lt _ (by decide)
  · intro ascii
    refine (List.map_congr_left fun byte mem => ?_).trans (List.map_id _)
    apply UInt8.toNat_inj.mp
    have small : byte.toNat < 128 := ascii byte mem
    simpa [UInt8.toNat_mod] using small

theorem data_restored_iff (read : deserializeNodeData data layer = .ok entries)
    (longest : LongestPrefixes "" data.e) :
    serializeNodeData PartialMst.pointer entries = .ok data ↔
      ∀ entry ∈ data.e, ∀ byte ∈ entry.k, byte < 128 := by
  rw [serializeNodeData_read read longest]
  constructor
  · intro same entry mem
    have entriesSame : data.e.map masked = data.e := congrArg MstNodeData.e (Except.ok.inj same)
    obtain ⟨i, bound, rfl⟩ := List.getElem_of_mem mem
    have fixed := List.getElem_of_eq entriesSame (by simpa using bound)
    rw [List.getElem_map] at fixed
    exact masked_eq_iff.mp fixed
  · intro ascii
    have entriesSame : data.e.map masked = data.e :=
      (List.map_congr_left fun entry mem => masked_eq_iff.mpr (ascii entry mem)).trans
        (List.map_id _)
    rw [entriesSame]

/-- Entries survive being written and read, whatever they are; node data with longest prefixes
survives being read and written exactly when its key bytes are ASCII. -/
theorem node_round_trip (entries decoded : List MstEntry) (layer : Option Int)
    (data : MstNodeData) :
    (Alternates entries →
      (∀ key value, .leaf key value ∈ entries → ensureValidMstKey key = .ok ()) →
      ∃ data read, serializeNodeData PartialMst.pointer entries = .ok data ∧
        deserializeNodeData data layer = .ok read ∧ listing read = listing entries) ∧
    (deserializeNodeData data layer = .ok decoded → LongestPrefixes "" data.e →
      (serializeNodeData PartialMst.pointer decoded = .ok data ↔
        ∀ entry ∈ data.e, ∀ byte ∈ entry.k, byte < 128)) :=
  ⟨fun apart valid => listing_restored apart valid,
    fun read longest => data_restored_iff read longest⟩

def leafCid : Cid := ⟨"bafyleaf", by decide⟩

def leafData (k : Bytes) : MstNodeData := ⟨none, [⟨0, k, leafCid, none⟩]⟩

def leafEntries : List MstEntry := [.leaf "a/a" leafCid]

theorem leafData_read (k : Bytes) (key : toAscii k = "a/a") :
    deserializeNodeData (leafData k) none = .ok leafEntries ∧
      LongestPrefixes "" (leafData k).e := by
  have whole : String.ofList ("".toList.take 0) ++ toAscii k = "a/a" := by
    rw [key]
    decide +kernel
  have valid : ensureValidMstKey "a/a" = .ok () := by decide +kernel
  constructor
  · simp only [deserializeNodeData, leafData, deserializeEntries, whole, valid]
    rfl
  · refine ⟨?_, trivial⟩
    rfl

theorem node_round_trip_leaf :
    (∃ data read, serializeNodeData PartialMst.pointer leafEntries = .ok data ∧
      deserializeNodeData data none = .ok read ∧ listing read = listing leafEntries) ∧
    (serializeNodeData PartialMst.pointer leafEntries = .ok (leafData [97, 47, 97]) ↔
      ∀ entry ∈ (leafData [97, 47, 97]).e, ∀ byte ∈ entry.k, byte < 128) := by
  have valid : ∀ key value, .leaf key value ∈ leafEntries → ensureValidMstKey key = .ok () := by
    intro key value mem
    cases List.mem_singleton.mp mem
    decide +kernel
  have read := leafData_read [97, 47, 97] (by decide +kernel)
  have trips := node_round_trip leafEntries leafEntries none (leafData [97, 47, 97])
  exact ⟨trips.1 (by simp [leafEntries, Alternates]) valid, trips.2 read.1 read.2⟩

/-- A key byte with its high bit set is read as the ASCII character without it. -/
theorem masked_byte_lost :
    deserializeNodeData (leafData [225, 47, 97]) none = .ok leafEntries ∧
      LongestPrefixes "" (leafData [225, 47, 97]).e ∧
      serializeNodeData PartialMst.pointer leafEntries ≠ .ok (leafData [225, 47, 97]) := by
  obtain ⟨read, longest⟩ := leafData_read [225, 47, 97] (by decide +kernel)
  refine ⟨read, longest, fun written => ?_⟩
  have ascii := (data_restored_iff read longest).mp written
  exact absurd (ascii _ List.mem_cons_self 225 (by decide)) (by decide)

end MastopodFederation.Guarantees.MstRoundTrip
