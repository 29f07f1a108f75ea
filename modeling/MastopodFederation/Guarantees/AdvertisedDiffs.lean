import MastopodFederation.Guarantees.MstHistory
import MastopodFederation.Source.AdvertisedOps

/-!
# What an accepted list of ops says about two repositories

The ops are undone in the tree of the commit. Where that tree is canonical and undoing never
empties it before a record is put back, the tree that is left is canonical, too: `prevData` is
then the root of a map that the ops lead from to the map of the commit.
-/
namespace MastopodFederation.Guarantees.AdvertisedDiffs
open Source.Cbor Source.CommitEvent Source.Mst Source.AdvertisedOps
open Lib.Logged Lib.LayeredEntries Lib.SortedMap Lib.Logged.Logged
open MstShape MstLayers MstOperations MstCanonical MstHistory

def now (op : ParsedCommitOp) : Option Cid :=
  match op.action with
  | .create | .update => op.cid
  | .delete => none

def before (op : ParsedCommitOp) : Option Cid :=
  match op.action with
  | .create => none
  | .update => op.prevCid
  | .delete => op.deletedCid

def redo (op : ParsedCommitOp) (bindings : String → Option Cid) : String → Option Cid :=
  Function.update bindings op.path (now op)

def undo (bindings : String → Option Cid) (op : ParsedCommitOp) : String → Option Cid :=
  Function.update bindings op.path (before op)

def Roomy (bindings : String → Option Cid) (ops : List ParsedCommitOp) : Prop :=
  (∀ op ∈ ops, op.action ≠ .delete) ∨
    ∃ key, bindings key ≠ none ∧ ∀ op ∈ ops, op.action = .create → op.path ≠ key

variable {ρ : Type} {carBlocks : RecordBlocks ρ} {store : NodeStore} {fuel : Nat}
  {op : ParsedCommitOp} {ops : List ParsedCommitOp} {currentTree tree undone : PartialMst}
  {bindings : String → Option Cid} {records : Records}

section Pointer

theorem refreshPointers_longer {visit longer : PartialMst → Reads Cid}
    (same : ∀ s cid, (visit s).result = .ok cid → (longer s).result = .ok cid) :
    ∀ {entries fresh : List MstEntry}, (refreshPointers visit entries).result = .ok fresh →
      (refreshPointers longer entries).result = .ok fresh
  | [], _, refreshed => refreshed
  | .leaf key value :: rest, fresh, refreshed => by
    obtain ⟨later, behind, done⟩ := bind_ok.mp refreshed
    exact bind_ok.mpr ⟨later, refreshPointers_longer same behind, done⟩
  | .tree child :: rest, fresh, refreshed => by
    obtain ⟨cid, pointed, refreshed⟩ := bind_ok.mp refreshed
    obtain ⟨later, behind, done⟩ := bind_ok.mp refreshed
    refine bind_ok.mpr ⟨cid, ?_, bind_ok.mpr ⟨later, refreshPointers_longer same behind, done⟩⟩
    unfold currentPointer at pointed ⊢
    split at pointed
    next outdated =>
      rw [if_pos outdated]
      exact same child cid pointed
    next clean =>
      rw [if_neg clean]
      exact pointed

theorem getPointer_succ : ∀ {fuel : Nat} {t : PartialMst} {cid : Cid},
    (t.getPointer store fuel).result = .ok cid → (t.getPointer store (fuel + 1)).result = .ok cid
  | 0, _, _, pointed => nomatch pointed
  | fuel + 1, t, cid, pointed => by
    unfold PartialMst.getPointer at pointed ⊢
    split at pointed
    next clean =>
      rw [if_pos clean]
      exact pointed
    next outdated =>
      rw [if_neg outdated]
      obtain ⟨entries, opens, pointed⟩ := bind_ok.mp pointed
      obtain ⟨fresh, refreshed, pointed⟩ := bind_ok.mp pointed
      have longer := refreshPointers_longer (fun _ _ => getPointer_succ) refreshed
      exact bind_ok.mpr ⟨entries, opens, bind_ok.mpr ⟨fresh, longer, pointed⟩⟩

theorem getPointer_longer {more : Nat} {t : PartialMst} {cid : Cid}
    (pointed : (t.getPointer store fuel).result = .ok cid) :
    (t.getPointer store (fuel + more)).result = .ok cid := by
  induction more with
  | zero => exact pointed
  | succ more ih => exact getPointer_succ ih

theorem pointer_canonical {cid : Cid} (canonical : Canonical store tree records)
    (pointed : (tree.getPointer store fuel).result = .ok cid) :
    cid = canonicalPointer store records := by
  obtain ⟨enough, pointer⟩ := canonical.pointer
  have longer : (tree.getPointer store (fuel + enough)).result = .ok cid := getPointer_longer pointed
  rw [pointer (fuel + enough) (Nat.le_add_left _ _)] at longer
  cases longer
  rfl

theorem records_of_emptied {failure : Failure} (canonical : Canonical store tree records)
    (checked : (do if !(← tree.isEmpty store) then .fail failure else pure () :
      Reads Unit).result = .ok ()) : records = [] := by
  obtain ⟨-, layer, ⟨height, held⟩, -⟩ := canonical
  obtain ⟨empty, asked, checked⟩ := bind_ok.mp checked
  obtain ⟨entries, opens, none⟩ := bind_ok.mp asked
  cases none
  cases height with
  | zero => exact held.elim
  | succ height =>
    have listed := (held.2.2 entries opens).inOrder
    cases listed with
    | nil => rfl
    | leaf | tree => cases checked

end Pointer

section Ops

def edit (op : ParsedCommitOp) : Option Edit :=
  match op.action with
  | .create => some (.delete op.path)
  | .update => op.prevCid.map (.update op.path)
  | .delete => op.deletedCid.map (.add op.path)

def Reports (carBlocks : RecordBlocks ρ) (op : ParsedCommitOp) (verified : VerifiedOp ρ) : Prop :=
  verified.action = op.action ∧ verified.collection = op.collection ∧ verified.rkey = op.rkey ∧
    verified.cid = (now op).map Cid.text ∧
    (now op).map carBlocks.record = verified.record.map .ok

theorem verifyOp_ok {verified : VerifiedOp ρ}
    (accepted : (verifyOp carBlocks store fuel currentTree tree op).result = .ok (undone, verified)) :
    (currentTree.get store fuel op.path).result = .ok (now op) ∧ Reports carBlocks op verified ∧
      ∃ e, edit op = some e ∧ (e.apply store fuel tree).result = .ok undone ∧
        e.key = op.path ∧ e.value = before op := by
  obtain ⟨currentCid, found, accepted⟩ := bind_ok.mp accepted
  rw [found]
  unfold now before edit
  cases action : op.action with
  | create =>
    simp only [action] at accepted ⊢
    split at accepted
    · cases accepted
    next cid given =>
      split at accepted
      · cases accepted
      next same =>
        obtain ⟨record, decoded, accepted⟩ := bind_ok.mp accepted
        obtain ⟨deleted, returned, accepted⟩ := bind_ok.mp accepted
        cases accepted
        refine ⟨by rw [given, not_not.mp same], ?_, _, rfl, returned, rfl, rfl⟩
        simp [Reports, now, action, given, show carBlocks.record cid = .ok record from decoded]
  | update =>
    simp only [action] at accepted ⊢
    split at accepted
    next cid prevCid given prevGiven =>
      split at accepted
      · cases accepted
      next same =>
        obtain ⟨record, decoded, accepted⟩ := bind_ok.mp accepted
        obtain ⟨updated, returned, accepted⟩ := bind_ok.mp accepted
        cases accepted
        refine ⟨by rw [given, not_not.mp same], ?_, .update op.path prevCid, by rw [prevGiven]; rfl,
          returned, rfl, prevGiven.symm⟩
        simp [Reports, now, action, given, show carBlocks.record cid = .ok record from decoded]
    · cases accepted
  | delete =>
    simp only [action] at accepted ⊢
    split at accepted
    · cases accepted
    next absent =>
      split at accepted
      · cases accepted
      next deletedCid given =>
        obtain ⟨added, returned, accepted⟩ := bind_ok.mp accepted
        cases accepted
        refine ⟨by rw [not_not.mp absent], ?_, .add op.path deletedCid, by rw [given]; rfl,
          returned, rfl, given.symm⟩
        simp [Reports, now, action]

theorem Roomy.undo {e : Edit} (known : edit op = some e) (roomy : Roomy bindings (op :: ops)) :
    Roomy (undo bindings op) ops := by
  rcases roomy with none | ⟨key, bound, kept⟩
  · exact .inl fun other listed => none other (List.mem_cons_of_mem _ listed)
  · refine .inr ⟨key, ?_, fun other listed => kept other (List.mem_cons_of_mem _ listed)⟩
    rw [AdvertisedDiffs.undo, Function.update_apply]
    split
    next same =>
      unfold before
      unfold edit at known
      cases action : op.action with
      | create => exact absurd same.symm (kept op List.mem_cons_self action)
      | update | delete =>
        simp only [action, Option.map_eq_some_iff] at known ⊢
        obtain ⟨cid, given, -⟩ := known
        simp [given]
    · exact bound

theorem atOrAboveLayer_of_roomy {e : Edit} (known : edit op = some e)
    (roomy : Roomy bindings (op :: ops)) : AtOrAboveLayer store ⟨tree, bindings⟩ e := by
  unfold edit at known
  cases action : op.action with
  | create =>
    simp only [action, Option.some.injEq] at known
    subst known
    trivial
  | update =>
    simp only [action, Option.map_eq_some_iff] at known
    obtain ⟨_, -, rfl⟩ := known
    trivial
  | delete =>
    simp only [action, Option.map_eq_some_iff] at known
    obtain ⟨cid, given, rfl⟩ := known
    rcases roomy with none | ⟨key, bound, -⟩
    · exact absurd action (none op List.mem_cons_self)
    · exact fun none => absurd (none key) bound

theorem verifyOps_canonical : ∀ {ops : List ParsedCommitOp} {tree undone : PartialMst}
    {bindings : String → Option Cid} {verified : List (VerifiedOp ρ)},
    CanonicalSession store ⟨tree, bindings⟩ → Roomy bindings ops →
    (verifyOps carBlocks store fuel currentTree tree ops).result = .ok (undone, verified) →
    (∀ op ∈ ops, (currentTree.get store fuel op.path).result = .ok (now op)) ∧
      List.Forall₂ (Reports carBlocks) ops verified ∧
      CanonicalSession store ⟨undone, ops.foldl undo bindings⟩
  | [], _, _, _, _, canonical, _, accepted => by
    cases accepted
    exact ⟨by simp, .nil, canonical⟩
  | op :: ops, tree, _, bindings, _, canonical, roomy, accepted => by
    obtain ⟨⟨next, report⟩, first, accepted⟩ := bind_ok.mp accepted
    obtain ⟨⟨_, reports⟩, rest, accepted⟩ := bind_ok.mp accepted
    cases accepted
    obtain ⟨found, reported, e, known, returned, key, value⟩ := verifyOp_ok first
    have step : Step store ⟨tree, bindings⟩ e ⟨next, undo bindings op⟩ :=
      ⟨⟨fuel, returned⟩, by rw [undo, Edit.bind, key, value]⟩
    have stepped := step_canonical canonical (atOrAboveLayer_of_roomy known roomy) step
    obtain ⟨gets, listed, ended⟩ := verifyOps_canonical stepped (roomy.undo known) rest
    exact ⟨List.forall_mem_cons.mpr ⟨found, gets⟩, .cons reported listed, ended⟩

/-- Redoing the ops, the last one first, leads from what undoing them has left to the map that
they were compared with. -/
theorem redo_undone (current previous : String → Option Cid) {key : String} :
    ∀ {ops : List ParsedCommitOp}, (∀ op ∈ ops, current op.path = now op) →
      ((∀ op ∈ ops, op.path ≠ key) → previous key = current key) →
      ops.foldr redo previous key = current key
  | [], _, untouched => untouched (by simp)
  | op :: ops, gets, untouched => by
    obtain ⟨found, gets⟩ := List.forall_mem_cons.mp gets
    rw [List.foldr_cons, redo, Function.update_apply]
    split
    next same => rw [same, found]
    next other =>
      refine redo_undone current previous gets fun apart => untouched ?_
      exact List.forall_mem_cons.mpr ⟨fun same => other same.symm, apart⟩

theorem undo_other {key : String} : ∀ {ops : List ParsedCommitOp} {bindings : String → Option Cid},
    (∀ op ∈ ops, op.path ≠ key) → ops.foldl undo bindings key = bindings key
  | [], _, _ => rfl
  | op :: ops, bindings, apart => by
    obtain ⟨other, apart⟩ := List.forall_mem_cons.mp apart
    rw [List.foldl_cons, undo_other apart, undo, Function.update_of_ne other.symm]

theorem undo_before : ∀ {ops : List ParsedCommitOp} {bindings : String → Option Cid},
    (ops.map (·.path)).Nodup → ∀ op ∈ ops, ops.foldl undo bindings op.path = before op
  | [], _, _ => by simp
  | op :: ops, bindings, distinct => by
    obtain ⟨fresh, distinct⟩ := List.nodup_cons.mp distinct
    refine List.forall_mem_cons.mpr ⟨?_, undo_before distinct⟩
    rw [List.foldl_cons, undo_other, undo, Function.update_self]
    exact fun other listed same => fresh (List.mem_map.mpr ⟨other, listed, same⟩)

end Ops

/-- Where the tree of a commit is canonical, what an accepted commit advertises is a difference
of two repositories: its `prevData` is the root of a map, or that map is empty and `prevData` is
absent, from which the ops lead to the map of the commit. -/
theorem advertised_ops_differ {parsed : ParsedCommitEventBody} {commit : CommitBlock}
    {verified : List (VerifiedOp ρ)}
    (canonical : Canonical store (PartialMst.load commit.data none) records)
    (roomy : Roomy (fun key => lookup key records) parsed.ops)
    (accepted :
      (verifyAdvertisedOps carBlocks store fuel parsed commit).result = .ok verified) :
    List.Forall₂ (Reports carBlocks) parsed.ops verified ∧
      ∃ previous, Sorted previous ∧
        (parsed.prevDataCid = some (canonicalPointer store previous) ∨
          parsed.prevDataCid = none ∧ previous = []) ∧
        (∀ key, lookup key records = parsed.ops.foldr redo (fun k => lookup k previous) key) ∧
        ((parsed.ops.map (·.path)).Nodup →
          ∀ op ∈ parsed.ops, lookup op.path previous = before op) := by
  obtain ⟨⟨undone, reports⟩, looped, accepted⟩ := bind_ok.mp accepted
  obtain ⟨⟨⟩, checked, accepted⟩ := bind_ok.mp accepted
  cases accepted
  obtain ⟨gets, listed, previous, tree, bound⟩ :=
    verifyOps_canonical ⟨records, canonical, fun _ => rfl⟩ roomy looped
  have found : ∀ op ∈ parsed.ops, lookup op.path records = now op := fun op mem => by
    obtain ⟨sorted, layer, ⟨height, held⟩, -⟩ := canonical
    exact ((meets_get fuel (given_of_holds held) sorted).1 _ (gets op mem)).symm
  refine ⟨listed, previous, tree.1, ?_, fun key => ?_, fun distinct op mem => ?_⟩
  · cases ops : parsed.ops with
    | nil =>
      simp only [ops, List.isEmpty_nil, if_true, checkUnchanged] at checked looped
      cases looped
      split at checked
      next prevDataCid given =>
        split at checked
        · cases checked
        next same =>
          have pointed : ((PartialMst.load commit.data none).getPointer store 1).result =
              .ok commit.data := rfl
          exact .inl (by rw [given, not_not.mp same, pointer_canonical tree pointed])
      next absent => exact .inr ⟨absent, records_of_emptied tree checked⟩
    | cons op rest =>
      simp only [ops, List.isEmpty_cons, Bool.false_eq_true, if_false, checkReconstructed] at checked
      split at checked
      next prevDataCid given =>
        obtain ⟨reconstructed, pointed, checked⟩ := bind_ok.mp checked
        split at checked
        · cases checked
        next same =>
          exact .inl (by rw [given, ← not_not.mp same, pointer_canonical tree pointed])
      next absent => exact .inr ⟨absent, records_of_emptied tree checked⟩
  · have led := redo_undone (fun k => lookup k records) (fun k => lookup k previous)
      found fun apart => (bound key).trans (undo_other apart)
    exact led.symm
  · exact (bound op.path).trans (undo_before distinct op mem)

def cidNamed (name : String) (nonempty : name ≠ "") : Cid := ⟨name, nonempty⟩

def edited : Cid := cidNamed "bafyedited" nofun

def posted : Cid := cidNamed "bafyposted" nofun

def editedRoot : Cid := cidNamed "bafyeditedroot" nofun

def postedRoot : Cid := cidNamed "bafypostedroot" nofun

def editedNode : MstNodeData := ⟨none, [serializeEntry "" "a/a" edited none]⟩

def oneRecord : NodeStore where
  readNode _ := .ok editedNode
  cidForNodeData node := if node = editedNode then editedRoot else postedRoot
  leadingZerosOnHash _ := 0

def updateOp : ParsedCommitOp := ⟨.update, "a", "a", "a/a", some edited, some posted, none, none⟩

def updateEvent : ParsedCommitEventBody :=
  ⟨"did:plc:a", "3l4xqw2a2s22b", none, edited, some postedRoot, false, [], [updateOp]⟩

def updateCommit : CommitBlock := ⟨"did:plc:a", editedRoot, "3l4xqw2a2s22b", none, [], []⟩

def unitBlocks : RecordBlocks Unit := ⟨fun _ => some [], fun _ => .ok (), 10⟩

theorem edited_canonical : Canonical oneRecord (.load editedRoot none) [("a/a", edited)] := by
  have opened : Opens oneRecord (.load editedRoot none) [.leaf "a/a" edited] := rfl
  refine ⟨by simp [Sorted], 0, ⟨1, ⟨fun _ => rfl, .inr ⟨rfl, .inl (by simp)⟩, nofun⟩, ?_, ?_⟩,
    .inr ⟨_, List.mem_cons_self, rfl⟩⟩
  · simp [oneRecord]
  · intro entries opens
    rw [← opens.unique opened]
    exact ⟨by simp, .leaf rfl .nil⟩

theorem advertised_ops_differ_update : ∃ previous, Sorted previous ∧
    postedRoot = canonicalPointer oneRecord previous ∧ lookup "a/a" previous = some posted := by
  have accepted : (verifyAdvertisedOps unitBlocks oneRecord 3 updateEvent updateCommit).result =
      .ok [⟨.update, "a", "a", some "bafyedited", some ()⟩] := rfl
  obtain ⟨-, previous, sorted, root, -, earlier⟩ := advertised_ops_differ edited_canonical
    (.inl (by simp [updateEvent, updateOp])) accepted
  refine ⟨previous, sorted, ?_, earlier (by simp [updateEvent]) updateOp (by simp [updateEvent])⟩
  rcases root with rooted | ⟨absent, -⟩
  · exact Option.some.inj rooted
  · cases absent

end MastopodFederation.Guarantees.AdvertisedDiffs
