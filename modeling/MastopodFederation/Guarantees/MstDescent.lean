import MastopodFederation.Guarantees.MstLayers

/-!
# Where the tree methods go down

A method goes down from a node to the subtree before a key, to the first entry or
to the last one, where that is a subtree. What lies below a node that is not loaded
is read from blocks.
-/
namespace MastopodFederation.Guarantees.MstDescent
open Source.Mst Lib.Logged Lib.LayeredEntries
open MstShape MstLayers Lib.Logged.Logged

variable {store : NodeStore} {t : PartialMst} {entries : List MstEntry}

section Read

theorem deserializeEntries_ok {layer : Option Int} :
    ∀ {data : List MstNodeEntry} {lastKey : String} {entries : List MstEntry},
      deserializeEntries layer lastKey data = .ok entries →
      StartsWithLeaf entries ∧ Alternates entries ∧
        (∀ s, .tree s ∈ entries → s = PartialMst.load s.pointer (layer.map (· - 1))) ∧
        ∀ key value, .leaf key value ∈ entries → ensureValidMstKey key = .ok ()
  | [], _, entries, read => by
    cases read
    simp
  | entry :: rest, lastKey, entries, read => by
    simp only [deserializeEntries, except_bind_ok] at read
    obtain ⟨_, valid, later, readLater, same⟩ := read
    cases same
    obtain ⟨first, apart, loads, keys⟩ := deserializeEntries_ok readLater
    refine ⟨by simp, ?_, ?_, ?_⟩
    · rw [List.cons_append, alternates_leaf_cons, alternates_append_of_startsWithLeaf first]
      exact ⟨alternates_maybeTree _, apart⟩
    · intro s mem
      rcases List.mem_append.mp ((List.mem_cons.mp mem).resolve_left (by simp)) with own | below
      · simp only [tree_mem_maybeTree, Option.map_eq_some_iff] at own
        obtain ⟨cid, -, rfl⟩ := own
        rfl
      · exact loads s below
    · intro key value mem
      rcases List.mem_cons.mp mem with own | below
      · cases own
        exact valid
      · rcases List.mem_append.mp below with link | below
        · exact absurd link leaf_mem_maybeTree
        · exact keys key value below

/-- The entries of a node that was read: subtrees are links one layer below the
first leaf, and keys are valid. -/
theorem read_entries (unloaded : t.entries = none) (opens : Opens store t entries) :
    Alternates entries ∧
      (∀ s, .tree s ∈ entries →
        s = PartialMst.load s.pointer ((layerForEntries store entries).map (· - 1))) ∧
      ∀ key value, .leaf key value ∈ entries → ensureValidMstKey key = .ok () := by
  simp only [Opens, PartialMst.getEntries, unloaded, bind_ok, result_ofExcept] at opens
  obtain ⟨data, -, read⟩ := opens
  simp only [deserializeNodeData, except_bind_ok] at read
  obtain ⟨later, readLater, same⟩ := read
  cases same
  obtain ⟨first, apart, loads, keys⟩ := deserializeEntries_ok readLater
  have firstLayer : layerForEntries store later =
      data.e.head?.map fun firstLeaf =>
        (store.leadingZerosOnHash (toAscii firstLeaf.k) : Int) := by
    cases shape : data.e with
    | nil =>
      rw [shape] at readLater
      cases readLater
      rfl
    | cons entry rest =>
      rw [shape] at readLater
      simp only [deserializeEntries, except_bind_ok] at readLater
      obtain ⟨_, -, _, -, same⟩ := readLater
      cases same
      simp [layerForEntries]
  have skipped : layerForEntries store (maybeTree (data.l.map fun cid =>
      PartialMst.load cid (Option.map (· - 1) (data.e.head?.map fun firstLeaf =>
        (store.leadingZerosOnHash (toAscii firstLeaf.k) : Int)))) ++ later) =
      layerForEntries store later := by
    cases data.l <;> simp [layerForEntries]
  rw [skipped, firstLayer]
  refine ⟨?_, ?_, ?_⟩
  · rw [alternates_append_of_startsWithLeaf first]
    exact ⟨alternates_maybeTree _, apart⟩
  · intro s mem
    rcases List.mem_append.mp mem with own | below
    · simp only [tree_mem_maybeTree, Option.map_eq_some_iff] at own
      obtain ⟨cid, -, rfl⟩ := own
      rfl
    · exact loads s below
  · intro key value mem
    rcases List.mem_append.mp mem with link | below
    · exact absurd link leaf_mem_maybeTree
    · exact keys key value below

theorem opens_load (unloaded : t.entries = none) (layer : Option Int) :
    Opens store t entries ↔ Opens store (.load t.pointer layer) entries := by
  simp [Opens, PartialMst.getEntries, PartialMst.load, unloaded]

end Read

section Descent

inductive Direction where
  | search (key : String)
  | first
  | last

def Direction.down : Direction → List MstEntry → Option PartialMst
  | .search key, entries => previousTree entries (findGtOrEqualLeafIndex entries key)
  | .first, entries => treeAt entries 0
  | .last, entries => previousTree entries entries.length

def Within (store : NodeStore) (direction : Direction) : Nat → PartialMst → Prop
  | 0, _ => False
  | bound + 1, t => ∀ entries, Opens store t entries →
      ∀ s, direction.down entries = some s → Within store direction bound s

variable {direction : Direction} {bound more : Nat}

theorem Within.succ : ∀ {bound t}, Within store direction bound t →
    Within store direction (bound + 1) t
  | 0, _, within => within.elim
  | _ + 1, _, within => fun entries opens s down => (within entries opens s down).succ

theorem Within.mono (le : bound ≤ more) (within : Within store direction bound t) :
    Within store direction more t := by
  induction le with
  | refl => exact within
  | step _ ih => exact ih.succ

theorem Within.pos (within : Within store direction bound t) : ∃ less, bound = less + 1 := by
  cases bound with
  | zero => exact within.elim
  | succ less => exact ⟨less, rfl⟩

theorem within_load (unloaded : t.entries = none) (layer : Option Int) :
    Within store direction bound t ↔ Within store direction bound (.load t.pointer layer) := by
  cases bound with
  | zero => exact Iff.rfl
  | succ bound => simp only [Within, opens_load unloaded layer]

theorem mem_of_down {s : PartialMst} (down : direction.down entries = some s) :
    .tree s ∈ entries := by
  have at_index {index : Nat} (here : treeAt entries index = some s) : .tree s ∈ entries := by
    unfold treeAt at here
    split at here
    next same =>
      cases here
      exact List.mem_of_getElem? same
    · cases here
  have before {index : Nat} (here : previousTree entries index = some s) :
      .tree s ∈ entries := by
    cases index with
    | zero => cases here
    | succ index => exact at_index here
  cases direction with
  | search key => exact before down
  | first => exact at_index down
  | last => exact before down

end Descent

section Caches

def Cached (store : NodeStore) : Nat → PartialMst → PartialMst → Prop
  | 0, _, _ => True
  | depth + 1, t, t' => ∀ entries', Opens store t' entries' →
      ∃ entries, Opens store t entries ∧
        List.Forall₂ (Entry.Related (Cached store depth)) entries entries'

theorem Cached.refl : ∀ (depth : Nat) (t : PartialMst), Cached store depth t t
  | 0, _ => trivial
  | depth + 1, _ => fun entries opens => ⟨entries, opens, related_refl (Cached.refl depth) entries⟩

variable {R : PartialMst → PartialMst → Prop} {direction : Direction}

theorem down_cached {entries' : List MstEntry} {s' : PartialMst}
    (related : List.Forall₂ (Entry.Related R) entries entries')
    (down : direction.down entries' = some s') : ∃ s, direction.down entries = some s ∧ R s s' := by
  have at_index {index : Nat} (here : treeAt entries' index = some s') :
      ∃ s, treeAt entries index = some s ∧ R s s' := by
    unfold treeAt at here
    split at here
    next same =>
      cases here
      obtain ⟨s, there, linked⟩ := exists_related_tree related same
      exact ⟨s, by simp [treeAt, there], linked⟩
    · cases here
  have before {index : Nat} (here : previousTree entries' index = some s') :
      ∃ s, previousTree entries index = some s ∧ R s s' := by
    cases index with
    | zero => cases here
    | succ index => exact at_index here
  cases direction with
  | search key =>
    simp only [Direction.down, findGtOrEqualLeafIndex] at down ⊢
    rw [findIdx_related related] at down
    exact before down
  | first => exact at_index down
  | last =>
    simp only [Direction.down] at down ⊢
    rw [related.length_eq]
    exact before down

theorem Within.cached : ∀ {bound t t'},
    Within store direction bound t → Cached store bound t t' → Within store direction bound t'
  | 0, _, _, within, _ => within.elim
  | _ + 1, _, _, within, cached => fun entries' opens' s' down' => by
    obtain ⟨entries, opens, related⟩ := cached entries' opens'
    obtain ⟨s, down, linked⟩ := down_cached related down'
    exact (within entries opens s down).cached linked

theorem firstChildLayer_related
    {visit : PartialMst → Reads (Option Int × PartialMst)} (refl : ∀ t, R t t)
    (each : ∀ t found asked, (visit t).result = .ok (found, asked) → R t asked) :
    ∀ {entries children : List MstEntry} {found : Option Int},
      (firstChildLayer visit entries).result = .ok (found, children) →
      List.Forall₂ (Entry.Related R) entries children
  | [], _, _, visited => by
    cases visited
    exact .nil
  | .leaf key value :: rest, _, _, visited => by
    simp only [firstChildLayer, bind_ok] at visited
    obtain ⟨⟨layer, children⟩, later, same⟩ := visited
    cases same
    exact .cons .leaf (firstChildLayer_related refl each later)
  | .tree child :: rest, _, _, visited => by
    simp only [firstChildLayer, bind_ok] at visited
    obtain ⟨⟨layer, asked⟩, attempted, later⟩ := visited
    have linked := each _ _ _ attempted
    cases layer with
    | some layer =>
      cases later
      exact .cons (.tree linked) (related_refl refl rest)
    | none =>
      simp only [bind_ok] at later
      obtain ⟨⟨layer, children⟩, later, same⟩ := later
      cases same
      exact .cons (.tree linked) (firstChildLayer_related refl each later)

theorem attempt_cached : ∀ (depth fuel : Nat) {t asked : PartialMst} {found : Option Int},
    (t.attemptGetLayer store fuel).result = .ok (found, asked) → Cached store depth t asked
  | 0, _, _, _, _, _ => trivial
  | _ + 1, 0, _, _, _, attempted => by cases attempted
  | depth + 1, fuel + 1, t, asked, found, attempted => by
    cases known : t.layer with
    | some layer =>
      rw [attempt_of_layer known] at attempted
      cases attempted
      exact Cached.refl _ t
    | none =>
      intro opened opensAgain
      obtain ⟨entries, opens, ⟨rank, -, -, rfl⟩ | ⟨-, childLayer, children, visited, -, rfl⟩⟩ :=
        (attempt_of_none known).mp attempted
      all_goals
        simp only [Opens, PartialMst.getEntries, result_pure, Except.ok.injEq] at opensAgain
        subst opensAgain
      · exact ⟨entries, opens, related_refl (Cached.refl depth) entries⟩
      · exact ⟨entries, opens, firstChildLayer_related (Cached.refl depth)
          (fun _ _ _ => attempt_cached depth fuel) visited⟩

theorem getLayer_cached {depth fuel : Nat} {answer : Int × PartialMst}
    (returned : (t.getLayer store fuel).result = .ok answer) : Cached store depth t answer.2 := by
  obtain ⟨found, asked, attempted, rfl⟩ := getLayer_ok.mp returned
  have cached := attempt_cached depth fuel attempted
  cases depth with
  | zero => trivial
  | succ depth => exact cached

end Caches

end MastopodFederation.Guarantees.MstDescent
