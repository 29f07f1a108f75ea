import MastopodFederation.Guarantees.MstCanonical
import MastopodFederation.Lib.GuardedRun

/-!
# A Merkle search tree forgets its history

Runs of successful edits from a canonical tree. `delete` leaves an emptied root with
the layer it had cached, and `add` of a key that ranks lower then hangs the record
below that layer. Along runs that never do this the tree stays canonical, so its
pointer is a function of the map the run ends in.
-/
namespace MastopodFederation.Guarantees.MstHistory
open Source.Cbor Source.Mst Lib.LayeredEntries Lib.SortedMap
open Lib.GuardedRun MstShape MstOperations MstEdits MstCanonical Lib.Logged.Logged

inductive Edit where
  | add (key : String) (value : Cid)
  | update (key : String) (value : Cid)
  | delete (key : String)

namespace Edit

def key : Edit → String
  | .add key _ | .update key _ | .delete key => key

def value : Edit → Option Cid
  | .add _ value | .update _ value => some value
  | .delete _ => none

def apply (store : NodeStore) (fuel : Nat) (t : PartialMst) : Edit → Reads PartialMst
  | .add key value => t.add store fuel key value none
  | .update key value => t.update store fuel key value
  | .delete key => t.delete store fuel key

def bind (bindings : String → Option Cid) (edit : Edit) : String → Option Cid :=
  Function.update bindings edit.key edit.value

def applyAll (store : NodeStore) (fuel : Nat) (edits : List Edit) (t : PartialMst) :
    Reads PartialMst := edits.foldlM (apply store fuel) t

end Edit

structure Session where
  tree : PartialMst
  bindings : String → Option Cid

variable (store : NodeStore)

def Step (s : Session) (edit : Edit) (s' : Session) : Prop :=
  (∃ fuel, (edit.apply store fuel s.tree).result = .ok s'.tree) ∧
    s'.bindings = Edit.bind s.bindings edit

def AtOrAboveLayer (s : Session) : Edit → Prop
  | .add key _ => (∀ k, s.bindings k = none) → ∀ carried, s.tree.layer = some carried →
      carried ≤ store.leadingZerosOnHash key
  | .update _ _ | .delete _ => True

def CanonicalSession (s : Session) : Prop :=
  ∃ records, Canonical store s.tree records ∧ ∀ key, lookup key records = s.bindings key

variable {store} {t t' : PartialMst} {records : Records} {key : String} {value : Cid} {fuel : Nat}

section Steps

theorem canonical_of_trimmed {layer : Int} (trimmed : Trimmed store t)
    (result : (canonical store).Result layer t records) (sorted : Sorted records) :
    Canonical store t records := by
  refine ⟨sorted, layer, result, ?_⟩
  obtain ⟨entries, opens, several⟩ := trimmed
  obtain ⟨height, held⟩ := result
  cases height with
  | zero => exact held.elim
  | succ height =>
    obtain ⟨apart, listed⟩ := held.2.2 entries opens
    cases listed with
    | nil => exact .inl rfl
    | leaf ranked _ => exact .inr ⟨_, List.mem_cons_self, ranked⟩
    | @tree subtree inner rest items child listed =>
      have behind := alternates_tree_cons.mp apart
      cases listed with
      | nil => exact absurd rfl (several subtree)
      | @leaf key value _ _ ranked _ => exact .inr ⟨(key, value), by simp, ranked⟩
      | @tree next _ _ _ _ _ => exact absurd rfl (behind.1 next)

theorem add_canonical (tree : Canonical store t records)
    (room : records = [] → ∀ carried, t.layer = some carried →
      carried ≤ store.leadingZerosOnHash key)
    (returned : (t.add store fuel key value none).result = .ok t') :
    Canonical store t' (insert key value records) := by
  obtain ⟨sorted, layer, ⟨height, held⟩, top⟩ := tree
  have given := given_of_holds held
  have result := ((meets_add value (fun _ _ => trivial) fuel given sorted rfl
    fun _ => trivial).1 t' returned).2
  refine ⟨sorted.insert, _, result, .inr ?_⟩
  rcases le_or_gt layer (store.leadingZerosOnHash key : Int) with high | low
  · exact ⟨(key, value), mem_insert, by rw [max_eq_right high]⟩
  · rcases top with rfl | ⟨record, mem, own⟩
    · rcases given.property.layered with known | ⟨-, none | zero⟩
      · have bound := room rfl layer known
        omega
      · exact absurd rfl none
      · omega
    · obtain ⟨kept, mem, same⟩ := key_mem_insert key value mem
      exact ⟨kept, mem, by rw [same, max_eq_left low.le, own]⟩

theorem update_canonical (tree : Canonical store t records)
    (returned : (t.update store fuel key value).result = .ok t') :
    Canonical store t' (insert key value records) := by
  obtain ⟨sorted, layer, ⟨height, held⟩, top⟩ := tree
  have given := given_of_holds held
  obtain ⟨bound, result⟩ := (meets_update value (fun _ _ => trivial) fuel given sorted
    fun _ => trivial).1 t' returned
  refine ⟨sorted.insert, _, result, .inr ?_⟩
  rcases top with rfl | ⟨record, mem, own⟩
  · exact absurd rfl bound
  · obtain ⟨kept, mem, same⟩ := key_mem_insert key value mem
    exact ⟨kept, mem, by rw [same, own]⟩

theorem delete_canonical (tree : Canonical store t records)
    (returned : (t.delete store fuel key).result = .ok t') :
    Canonical store t' (erase key records) := by
  obtain ⟨sorted, layer, ⟨height, held⟩, top⟩ := tree
  have given := given_of_holds held
  obtain ⟨-, ⟨trimmed, top, -, result⟩ | ⟨none, rfl⟩⟩ := (meets_delete given sorted
    fun _ => trivial).1 t' returned
  · exact canonical_of_trimmed trimmed result sorted.erase
  · rw [none]
    -- the emptied root keeps the layer it carried, and stands at zero if it had none
    have emptied (layer : Int) (layered : t.layer = some layer ∨ t.layer = Option.none ∧ layer = 0) :
        Canonical store (t.newTree []) [] := by
      refine ⟨by simp [Sorted], layer, ⟨1, ⟨(nomatch ·), ?_, fun _ => ⟨[], rfl⟩⟩, by simp, ?_⟩,
        .inl rfl⟩
      · exact layered.imp id fun unknown => ⟨unknown.1, .inr unknown.2⟩
      · intro entries opens
        simp only [Opens, PartialMst.newTree, PartialMst.getEntries, result_pure,
          Except.ok.injEq] at opens
        subst opens
        exact ⟨alternates_nil, .nil⟩
    cases known : t.layer with
    | some carried => exact emptied carried (.inl known)
    | none => exact emptied 0 (.inr ⟨known, rfl⟩)

theorem step_canonical {s s' : Session} {edit : Edit} (before : CanonicalSession store s)
    (room : AtOrAboveLayer store s edit) (step : Step store s edit s') :
    CanonicalSession store s' := by
  obtain ⟨records, tree, bound⟩ := before
  obtain ⟨⟨fuel, returned⟩, bindings⟩ := step
  rw [CanonicalSession, bindings]
  have inserted (key : String) (value : Cid) : ∀ k, lookup k (insert key value records) =
      Function.update s.bindings key (some value) k := fun k => by
    rw [lookup_insert, Function.update_apply, bound]
  cases edit with
  | add key value =>
    have free (none : records = []) : ∀ k, s.bindings k = Option.none := fun k => by
      rw [← bound k, none, lookup_nil]
    exact ⟨_, add_canonical tree (fun none => room (free none)) returned, inserted key value⟩
  | update key value => exact ⟨_, update_canonical tree returned, inserted key value⟩
  | delete key =>
    refine ⟨_, delete_canonical tree returned, fun k => ?_⟩
    rw [lookup_erase, Edit.bind, Edit.key, Edit.value, Function.update_apply, bound]

end Steps

section Runs

variable {start first second : Session}

theorem run_canonical (run : Reaches (Step store) (AtOrAboveLayer store) start first)
    (begun : CanonicalSession store start) : CanonicalSession store first :=
  run.invariant (fun _ _ _ before room step => step_canonical before room step) begun

/-- Two runs from one canonical tree that end in one map end in one pointer, the
canonical one of that map. -/
theorem history_independent (begun : CanonicalSession store start)
    (one : Reaches (Step store) (AtOrAboveLayer store) start first)
    (other : Reaches (Step store) (AtOrAboveLayer store) start second)
    (same : first.bindings = second.bindings) :
    ∃ records, Sorted records ∧ (∀ key, lookup key records = first.bindings key) ∧
      ∃ enough, ∀ fuel, enough ≤ fuel →
        (first.tree.getPointer store fuel).result = .ok (canonicalPointer store records) ∧
        (second.tree.getPointer store fuel).result = .ok (canonicalPointer store records) := by
  obtain ⟨records, tree, bound⟩ := run_canonical one begun
  obtain ⟨others, otherTree, otherBound⟩ := run_canonical other begun
  obtain rfl : records = others := tree.1.ext otherTree.1 fun key => by
    rw [bound, otherBound, same]
  obtain ⟨enough, pointer⟩ := tree.pointer
  obtain ⟨more, otherPointer⟩ := otherTree.pointer
  refine ⟨records, tree.1, bound, max enough more, fun fuel le => ⟨pointer fuel ?_,
    otherPointer fuel ?_⟩⟩ <;> omega

theorem bindings_of_permuted {edits others : List Edit} (permuted : edits.Perm others)
    (apart : edits.Pairwise fun a b => a.key ≠ b.key) (bindings : String → Option Cid) :
    edits.foldl Edit.bind bindings = others.foldl Edit.bind bindings := by
  have : Std.Symm fun a b : Edit => a.key ≠ b.key := ⟨fun _ _ => Ne.symm⟩
  refine permuted.foldl_eq' (fun a inA b inB m => ?_) bindings
  by_cases same : a = b
  · rw [same]
  · have different := apart.forall inA inB same
    exact Function.update_comm different _ _ m

theorem reaches_of_edits (store : NodeStore) (fuel : Nat) (guard : Session → Edit → Prop)
    (kept : (String → Option Cid) → Prop) :
    ∀ (edits : List Edit) (t : PartialMst) (bindings : String → Option Cid) {t' : PartialMst},
      (∀ s, ∀ edit ∈ edits, kept s.bindings → guard s edit) →
      (∀ m, ∀ edit ∈ edits, kept m → kept (Edit.bind m edit)) → kept bindings →
      (Edit.applyAll store fuel edits t).result = .ok t' →
      Reaches (Step store) guard ⟨t, bindings⟩ ⟨t', edits.foldl Edit.bind bindings⟩
  | [], t, bindings, t', _, _, _, applied => by
    cases applied
    exact Reaches.refl
  | edit :: edits, t, bindings, t', admits, keeps, holds, applied => by
    obtain ⟨mid, first, later⟩ := bind_ok.mp applied
    have one : Reaches (Step store) guard ⟨t, bindings⟩ ⟨mid, Edit.bind bindings edit⟩ :=
      Reaches.refl.tail (admits _ edit (by simp) holds) ⟨⟨fuel, first⟩, rfl⟩
    exact one.trans (reaches_of_edits store fuel guard kept edits mid _
      (fun s e mem => admits s e (List.mem_cons_of_mem _ mem))
      (fun m e mem => keeps m e (List.mem_cons_of_mem _ mem)) (keeps _ edit (by simp) holds) later)

end Runs

section Sample

theorem exists_injective_hash : ∃ hash : MstNodeData → Cid, Function.Injective hash := by
  have chars : Countable Char :=
    Function.Injective.countable (f := Char.toNat) fun _ _ same => Char.toNat_inj.mp same
  have strings : Countable String :=
    Function.Injective.countable (f := String.toList) fun _ _ same => String.toList_inj.mp same
  have cids : Countable Cid :=
    Function.Injective.countable (f := Cid.text) fun ⟨_, _⟩ ⟨_, _⟩ same => by cases same; rfl
  have octets : Countable UInt8 :=
    Function.Injective.countable (f := UInt8.toNat) fun _ _ same => UInt8.toNat_inj.mp same
  have entries : Countable MstNodeEntry :=
    Function.Injective.countable (f := fun entry : MstNodeEntry => (entry.p, entry.k, entry.v,
      entry.t)) fun ⟨_, _, _, _⟩ ⟨_, _, _, _⟩ same => by cases same; rfl
  have nodes : Countable MstNodeData :=
    Function.Injective.countable (f := fun node : MstNodeData => (node.l, node.e))
      fun ⟨_, _⟩ ⟨_, _⟩ same => by cases same; rfl
  obtain ⟨number, distinct⟩ := Countable.exists_injective_nat MstNodeData
  have named (n : Nat) : String.ofList (List.replicate (n + 1) 'x') ≠ "" := fun none => by
    have empty := congrArg String.toList none
    simp at empty
  refine ⟨fun node => ⟨_, named (number node)⟩, fun a b same => distinct ?_⟩
  have lists := congrArg (fun cid : Cid => cid.text.toList.length) same
  simpa using lists

def sampleValue : Cid := ⟨"bafyrecord", by decide⟩

def sampleStore (hash : MstNodeData → Cid) : NodeStore where
  readNode := fun _ => .error (.error "Missing CAR block")
  cidForNodeData := hash
  leadingZerosOnHash := fun key => if key = "a/a" then 2 else if key = "b/b" then 1 else 0

variable (hash : MstNodeData → Cid)

def sampleRecords : Records := [("a/a", sampleValue), ("b/b", sampleValue)]

def sampleTree : PartialMst :=
  ⟨canonicalCid (sampleStore hash) 3 sampleRecords, false, none, some [.leaf "a/a" sampleValue,
    .tree ⟨canonicalCid (sampleStore hash) 2 [("b/b", sampleValue)], false, some 1,
      some [.leaf "b/b" sampleValue]⟩]⟩

theorem sampleTree_canonical :
    CanonicalSession (sampleStore hash) ⟨sampleTree hash, fun key => lookup key sampleRecords⟩ := by
  have child : (canonical (sampleStore hash)).Result 1 ⟨canonicalCid (sampleStore hash) 2
      [("b/b", sampleValue)], false, some 1, some [.leaf "b/b" sampleValue]⟩
      [("b/b", sampleValue)] :=
    Held.of_entries ⟨fun _ => rfl, .inl rfl, (nomatch ·)⟩ rfl
      ⟨by simp, .leaf (by simp [sampleStore]) .nil⟩
  have listed : InOrder (sampleStore hash).leadingZerosOnHash
      (Child True (canonical (sampleStore hash)).Result) 2 [.leaf "a/a" sampleValue,
        .tree ⟨canonicalCid (sampleStore hash) 2 [("b/b", sampleValue)], false, some 1,
          some [.leaf "b/b" sampleValue]⟩] (("a/a", sampleValue) :: ([("b/b", sampleValue)] ++ [])) :=
    .leaf (by simp [sampleStore]) (.tree ⟨child, fun _ => by simp⟩ .nil)
  have root : (canonical (sampleStore hash)).Result 2 (sampleTree hash) sampleRecords :=
    Held.of_entries ⟨fun _ => rfl, .inr ⟨rfl, by simp [sampleRecords]⟩, (nomatch ·)⟩ rfl
      ⟨by simp [alternates_tree_cons], listed⟩
  refine ⟨sampleRecords, ⟨by unfold Sorted; decide, 2, root, .inr ?_⟩, fun _ => rfl⟩
  exact ⟨("a/a", sampleValue), by simp [sampleRecords], by simp [sampleStore]⟩

theorem history_independent_swapped : ∃ hash : MstNodeData → Cid, Function.Injective hash ∧
    ∃ first second : PartialMst,
      (Edit.applyAll (sampleStore hash) 5 [.delete "a/a", .add "c/c" sampleValue]
        (sampleTree hash)).result = .ok first ∧
      (Edit.applyAll (sampleStore hash) 5 [.add "c/c" sampleValue, .delete "a/a"]
        (sampleTree hash)).result = .ok second ∧
      ∃ enough, ∀ fuel, enough ≤ fuel →
        (first.getPointer (sampleStore hash) fuel).result =
          (second.getPointer (sampleStore hash) fuel).result := by
  obtain ⟨hash, injective⟩ := exists_injective_hash
  let kept (m : String → Option Cid) : Prop := m "b/b" ≠ none
  have admits (s : Session) (edit : Edit) (holds : kept s.bindings) :
      AtOrAboveLayer (sampleStore hash) s edit := by
    cases edit with
    | add key value => exact fun none => absurd (none "b/b") holds
    | update | delete => trivial
  have keeps (edits : List Edit) (apart : ∀ edit ∈ edits, edit.key ≠ "b/b") :
      ∀ m, ∀ edit ∈ edits, kept m → kept (Edit.bind m edit) := fun m edit mem holds => by
    simpa [kept, Edit.bind, Function.update_of_ne (apart edit mem).symm] using holds
  have begun : kept fun key => lookup key sampleRecords := by decide
  have one := reaches_of_edits (sampleStore hash) 5 (AtOrAboveLayer (sampleStore hash)) kept
    [.delete "a/a", .add "c/c" sampleValue] (sampleTree hash) (fun key => lookup key sampleRecords)
    (fun s edit _ => admits s edit) (keeps _ (by simp [Edit.key])) begun rfl
  have other := reaches_of_edits (sampleStore hash) 5 (AtOrAboveLayer (sampleStore hash)) kept
    [.add "c/c" sampleValue, .delete "a/a"] (sampleTree hash) (fun key => lookup key sampleRecords)
    (fun s edit _ => admits s edit) (keeps _ (by simp [Edit.key])) begun rfl
  obtain ⟨_, -, -, enough, pointers⟩ := history_independent (sampleTree_canonical hash) one other
    (Function.update_comm (by decide) _ _ _)
  exact ⟨hash, injective, _, _, rfl, rfl, enough, fun fuel le =>
    (pointers fuel le).1.trans (pointers fuel le).2.symm⟩

def HistoryIndependent (store : NodeStore) : Prop :=
  ∀ start first second, CanonicalSession store start →
    Reaches (Step store) always start first → Reaches (Step store) always start second →
    first.bindings = second.bindings →
    ∃ cid enough, ∀ fuel, enough ≤ fuel → (first.tree.getPointer store fuel).result = .ok cid ∧
      (second.tree.getPointer store fuel).result = .ok cid

/-- Emptying the tree before the last record is added leaves a subtree below an empty
root; adding it first does not. -/
theorem history_dependent :
    ∃ store : NodeStore, Function.Injective store.cidForNodeData ∧ ¬HistoryIndependent store := by
  obtain ⟨hash, injective⟩ := exists_injective_hash
  refine ⟨sampleStore hash, injective, fun independent => ?_⟩
  have one := reaches_of_edits (sampleStore hash) 5 always (fun _ => True)
    [.delete "a/a", .delete "b/b", .add "c/c" sampleValue] (sampleTree hash)
    (fun key => lookup key sampleRecords) (fun _ _ _ _ => trivial) (fun _ _ _ _ => trivial) trivial rfl
  have other := reaches_of_edits (sampleStore hash) 5 always (fun _ => True)
    [.add "c/c" sampleValue, .delete "a/a", .delete "b/b"] (sampleTree hash)
    (fun key => lookup key sampleRecords) (fun _ _ _ _ => trivial) (fun _ _ _ _ => trivial) trivial rfl
  have permuted : [Edit.delete "a/a", .delete "b/b", .add "c/c" sampleValue].Perm
      [.add "c/c" sampleValue, .delete "a/a", .delete "b/b"] :=
    (List.perm_append_comm : ([_, _] ++ [_]).Perm ([_] ++ [_, _]))
  obtain ⟨cid, enough, pointers⟩ := independent _ _ _ (sampleTree_canonical hash) one other
    (bindings_of_permuted permuted (by simp [Edit.key]) _)
  obtain ⟨first, second⟩ := pointers (enough + 5) (by omega)
  have lone : cid = hash ⟨none, [serializeEntry "" "c/c" sampleValue none]⟩ := by
    cases second
    rfl
  have below : cid = hash ⟨some (hash ⟨none, [serializeEntry "" "c/c" sampleValue none]⟩), []⟩ := by
    cases first
    rfl
  have same := injective (lone.symm.trans below)
  cases same

end Sample

end MastopodFederation.Guarantees.MstHistory
