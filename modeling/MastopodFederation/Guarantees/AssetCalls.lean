import MastopodFederation.Source.AssetBackend

/-!
# The calls of saves, loads and repairs

A save stores its asset under a free key or a merge with what it read from a taken one, and then
adds the id to the index. A load writes nothing, and a repair writes an asset that differs from
the one it loaded only in its length, its size and its variants (`task_obeys`).
-/
namespace MastopodFederation.Guarantees.AssetCalls
open Lib.Calls Lib.WorkerPool Source.CanonicalAssets Source.AssetStore Source.AssetBackend
open Source.SecureWorker (Thrown)

variable {Blob : Type} {env : Environment}

inductive Progress where
  | fresh
  | taken
  | watching (version : Nat)
  | read (version : Nat) (basis : CanonicalAsset)
  | lastResort (basis : CanonicalAsset)

inductive Duty where
  | saving (asset : CanonicalAsset) (progress : Progress)
  /-- its asset is stored, and the index may still need the id -/
  | saved (asset : CanonicalAsset) (unlisted : Bool)
  | other (unlisted : Option String)
  /-- a key that was taken is gone, which no caller sees -/
  | impossible

def Repairs (basis asset : CanonicalAsset) : Prop :=
  asset = { basis with
    duration := asset.duration, width := asset.width, height := asset.height,
    variants := asset.variants }

def harmless : Call Blob → Bool
  | .setNx _ | .sAdd _ | .exec .. | .set .. => false
  | _ => true

namespace Duty

def allows (env : Environment) : Duty → Call Blob → Prop
  | .impossible, _ => True
  | .saving asset .fresh, .setNx stored => stored = asset
  | .saving asset .taken, .watch assetId => assetId = asset.assetId
  | .saving asset .taken, .get assetId => assetId = asset.assetId
  | .saving asset (.watching _), .get assetId => assetId = asset.assetId
  | .saving asset (.read version basis), .exec assetId merged watched =>
    assetId = asset.assetId ∧ watched = version ∧
      merged = mergeCanonicalAsset env.localeCompare basis asset
  | .saving asset (.lastResort basis), .set assetId merged existing =>
    assetId = asset.assetId ∧ existing = basis ∧
      merged = mergeCanonicalAsset env.localeCompare basis asset
  | .saved asset true, .sAdd assetId => assetId = asset.assetId
  | .other none, .set assetId asset basis => assetId = asset.assetId ∧ Repairs basis asset
  | .other (some unlisted), .sAdd assetId => assetId = unlisted
  | .other none, c => harmless c = true
  | _, _ => False

def reading (found : CanonicalAsset → Duty) : Option CanonicalAsset → Duty
  | none => .impossible
  | some basis => found basis

def after : Duty → (c : Call Blob) → Reply c → Duty
  | .impossible, _, _ => .impossible
  | .saving asset .fresh, .setNx _, stored => if stored then .saved asset true else .saving asset .taken
  | .saving asset .taken, .watch _, version => .saving asset (.watching version)
  | .saving asset .taken, .get _, found => reading (fun basis => .saving asset (.lastResort basis)) found
  | .saving asset (.watching version), .get _, found =>
    reading (fun basis => .saving asset (.read version basis)) found
  | .saving asset (.read _ _), .exec .., done =>
    if done then .saved asset false else .saving asset .taken
  | .saving asset (.lastResort _), .set .., _ => .saved asset false
  | .saved asset _, .sAdd _, _ => .saved asset false
  | .other _, .set assetId _ _, _ => .other (some assetId)
  | .other _, .sAdd _, _ => .other none
  | duty, _, _ => duty

def Settled : Duty → Prop
  | .saved _ unlisted => unlisted = false
  | .other unlisted => unlisted = none
  | .impossible => True
  | .saving .. => False

end Duty

def upkeep (env : Environment) : Monitor (Call Blob) Reply Duty where
  allows := Duty.allows env
  after := Duty.after

theorem impossible_obeys {α : Type} (x : Program Blob α) :
    Meets (upkeep env) x (fun d _ => d.Settled) .impossible := by
  induction x with
  | done outcome => trivial
  | call c next ih => exact ⟨trivial, ih⟩

variable (asset : CanonicalAsset)

theorem saveAttempts_obeys (attempts : Nat) :
    Meets (upkeep env) (saveAttempts env.localeCompare asset attempts : Program Blob CanonicalAsset)
      (fun d _ => d.Settled) (.saving asset .taken) := by
  induction attempts with
  | zero =>
    refine ⟨rfl, fun found => ?_⟩
    cases found with
    | none => exact impossible_obeys _
    | some basis => exact ⟨⟨rfl, rfl, rfl⟩, fun _ => rfl⟩
  | succ attempts ih =>
    refine ⟨rfl, fun version => ⟨rfl, fun found => ?_⟩⟩
    cases found with
    | none => exact impossible_obeys _
    | some basis =>
      refine ⟨⟨rfl, rfl, rfl⟩, fun done => ?_⟩
      cases done with
      | true => rfl
      | false => exact ih

theorem saveRedisAsset_obeys :
    Meets (upkeep env) (saveRedisAsset env.localeCompare asset : Program Blob CanonicalAsset)
      (fun d _ => d.Settled) (.saving asset .fresh) := by
  refine ⟨rfl, fun stored => ?_⟩
  cases stored with
  | true => exact ⟨rfl, fun _ => rfl⟩
  | false => exact saveAttempts_obeys asset 3

def Tidy {α : Type} (env : Environment) (x : Program Blob α) : Prop :=
  Keeps (upkeep env) (fun d => d = .other none) x

section Tidy
variable {α β : Type} {x : Program Blob α}

theorem tidy_done (outcome : Except Thrown α) : Tidy env (.done outcome : Program Blob α) :=
  keeps_done outcome

theorem tidy_pure (a : α) : Tidy env (pure a : Program Blob α) := keeps_pure a

theorem tidy_bind {f : α → Program Blob β} (first : Tidy env x) (second : ∀ a, Tidy env (f a)) :
    Tidy env (x >>= f) := keeps_bind first second

theorem tidy_ite {p : Prop} [Decidable p] {y : Program Blob α} (first : Tidy env x)
    (second : Tidy env y) : Tidy env (if p then x else y) := by
  split
  · exact first
  · exact second

theorem tidy_call {c : Call Blob} {next : Reply c → Program Blob α}
    (plain : harmless c = true) (rest : ∀ r, Tidy env (next r)) : Tidy env (.call c next) := by
  rintro s rfl
  refine ⟨?_, fun r => ?_⟩
  · cases c <;> first | exact plain | nomatch plain
  · have same : (upkeep env).after (.other none) c r = .other none := by
      cases c <;> first | rfl | nomatch plain
    rw [same]
    exact rest r _ rfl

end Tidy

theorem tidy_replace {asset basis : CanonicalAsset} (repairs : Repairs basis asset) :
    Tidy env (replaceRedisAsset asset basis : Program Blob CanonicalAsset) := by
  rintro s rfl
  exact ⟨⟨rfl, repairs⟩, fun _ => ⟨rfl, fun _ => rfl⟩⟩

theorem tidy_prune (assetIds : List String) :
    Tidy env (pruneStaleRedisAssetIds assetIds : Program Blob Unit) :=
  tidy_ite (tidy_pure _) (tidy_call rfl fun _ => tidy_done _)

theorem tidy_flushBatch (batch : List String) (assets : List CanonicalAsset) :
    Tidy env (flushBatch batch assets : Program Blob _) := by
  apply tidy_ite (tidy_pure _)
  apply tidy_bind (tidy_call rfl fun rows => tidy_done (.ok rows))
  intro rows
  exact tidy_bind (tidy_prune _) fun _ => tidy_pure _

theorem tidy_loadLoop (ids seen batch : List String) (assets : List CanonicalAsset) :
    Tidy env (loadLoop seen batch assets ids : Program Blob _) := by
  induction ids generalizing seen batch assets with
  | nil => exact tidy_flushBatch batch assets
  | cons assetId rest ih =>
    exact tidy_ite (ih _ _ _)
      (tidy_ite (tidy_bind (tidy_flushBatch _ _) fun _ => ih _ _ _) (ih _ _ _))

theorem tidy_loadAllAssets : Tidy env (loadAllAssets : Program Blob _) :=
  tidy_bind (tidy_call rfl fun ids => tidy_done (.ok ids)) fun ids => tidy_loadLoop ids [] [] []

theorem tidy_withScratchDir {α : Type} {x : Program Blob α} (body : Tidy env x) :
    Tidy env (withScratchDir x) := by
  apply tidy_bind
  · apply keeps_attempt
    exact tidy_call rfl fun made => tidy_bind (tidy_done made) fun _ => body
  · intro outcome
    exact tidy_call rfl fun cleaned => tidy_bind (tidy_done cleaned) fun _ => tidy_done outcome

theorem tidy_objectExistsForUrl (url : Option String) :
    Tidy env (objectExistsForUrl env url : Program Blob Bool) := by
  unfold objectExistsForUrl
  split
  · exact tidy_pure _
  · exact tidy_call rfl fun r => tidy_done r

theorem tidy_allUrlsExist (urls : List String) :
    Tidy env (allUrlsExist env urls : Program Blob Bool) := by
  induction urls with
  | nil => exact tidy_pure _
  | cons url rest ih =>
    exact tidy_bind (tidy_objectExistsForUrl _) fun found => tidy_ite ih (tidy_pure _)

theorem tidy_repairedPreview (previewMissing : Bool) (processed) :
    Tidy env (repairedPreview env asset previewMissing processed : Program Blob _) := by
  refine tidy_ite ?_ (tidy_pure _)
  refine tidy_bind (tidy_call rfl fun r => tidy_done r) fun previewBuffer => ?_
  exact tidy_bind (tidy_call rfl fun r => tidy_done r) fun key => tidy_pure _

theorem tidy_repairedThumbnail (thumbnailMissing : Bool) (processed) :
    Tidy env (repairedThumbnail env asset thumbnailMissing processed : Program Blob _) := by
  unfold repairedThumbnail
  split
  · exact tidy_bind (tidy_call rfl fun r => tidy_done r) fun key => tidy_pure _
  · exact tidy_pure _

variable (originalKey : String)

theorem tidy_repairImage (previewMissing thumbnailMissing : Bool) :
    Tidy env (repairImage env asset originalKey previewMissing thumbnailMissing :
      Program Blob _) := by
  apply tidy_withScratchDir
  refine tidy_bind (tidy_call rfl fun r => tidy_done r) fun input => ?_
  refine tidy_bind (tidy_call rfl fun r => tidy_done r) fun processed => ?_
  refine tidy_bind (tidy_repairedPreview _ _ _) fun preview => ?_
  refine tidy_bind (tidy_repairedThumbnail _ _ _) fun thumbnail => ?_
  exact tidy_bind (tidy_replace rfl) fun _ => tidy_pure _

theorem tidy_repairVideo : Tidy env (repairVideo asset originalKey : Program Blob _) := by
  apply tidy_withScratchDir
  refine tidy_bind (tidy_call rfl fun r => tidy_done r) fun input => ?_
  refine tidy_bind (tidy_call rfl fun r => tidy_done r) fun renditions => ?_
  refine tidy_bind (tidy_call rfl fun r => tidy_done r) fun persisted => ?_
  exact tidy_bind (tidy_replace rfl) fun _ => tidy_pure _

theorem tidy_reconcileImageAsset (options : ReconcileOptions) :
    Tidy env (reconcileImageAsset env asset originalKey options : Program Blob _) := by
  refine tidy_bind (tidy_objectExistsForUrl _) fun previewExists => ?_
  refine tidy_bind (tidy_objectExistsForUrl _) fun thumbnailExists => ?_
  apply tidy_ite (tidy_pure _)
  exact tidy_ite (tidy_pure _) (tidy_bind (tidy_repairImage _ _ _ _) fun _ => tidy_pure _)

theorem tidy_identifyMissing :
    Tidy env (identifyMissingVideoArtifacts env asset : Program Blob _) := by
  refine tidy_bind (tidy_ite (tidy_pure _) (tidy_allUrlsExist _)) fun playback => ?_
  refine tidy_bind (tidy_ite (tidy_pure _) (tidy_allUrlsExist _)) fun streaming => ?_
  refine tidy_bind (tidy_objectExistsForUrl _) fun preview => ?_
  exact tidy_bind (tidy_objectExistsForUrl _) fun thumbnail => tidy_pure _

theorem tidy_reconcileVideoAsset (options : ReconcileOptions) :
    Tidy env (reconcileVideoAsset env asset originalKey options : Program Blob _) := by
  refine tidy_bind (tidy_identifyMissing asset) fun missing => ?_
  apply tidy_ite (tidy_pure _)
  exact tidy_ite (tidy_pure _) (tidy_bind (tidy_repairVideo _ _) fun _ => tidy_pure _)

variable (options : ReconcileOptions)

theorem tidy_reconcileAsset : Tidy env (reconcileAsset env asset options : Program Blob _) := by
  unfold reconcileAsset
  split
  · exact tidy_pure _
  · refine tidy_bind (tidy_call rfl fun r => tidy_done r) fun originalExists => ?_
    refine tidy_ite ?_ (tidy_pure _)
    apply tidy_ite (tidy_reconcileVideoAsset _ _ _)
    exact tidy_ite (tidy_reconcileImageAsset _ _ _) (tidy_pure _)

theorem tidy_reconcileEach (assets : List CanonicalAsset) :
    Tidy env (reconcileEach env options assets : Program Blob _) := by
  induction assets with
  | nil => exact tidy_pure _
  | cons asset rest ih =>
    exact tidy_bind (tidy_reconcileAsset _ _) fun _ => tidy_bind ih fun _ => tidy_pure _

theorem tidy_selectedAssets : Tidy env (selectedAssets options : Program Blob _) := by
  unfold selectedAssets
  split
  · exact tidy_loadAllAssets
  · refine tidy_bind (tidy_call rfl fun r => tidy_done (.ok r)) fun found => ?_
    cases found with
    | none => exact keeps_fail _
    | some asset => exact tidy_pure _

theorem tidy_reconcile : Tidy env (reconcileCanonicalAssets env options : Program Blob _) :=
  tidy_bind (tidy_selectedAssets options) fun assets => tidy_reconcileEach options assets

def initialDuty : Task → Duty
  | .save asset => .saving asset .fresh
  | .load | .reconcile _ => .other none

theorem settled_of_tidy {x : Program Blob Unit} (tidy : Tidy env x) :
    ObeysTo (upkeep env) Duty.Settled x (.other none) := by
  apply (tidy _ rfl).imp
  intro d outcome same
  rw [same]
  rfl

theorem task_obeys (task : Task) :
    ObeysTo (upkeep env) Duty.Settled (body env task : Program Blob Unit) (initialDuty task) := by
  cases task with
  | save asset =>
    change Meets _ (saveRedisAsset env.localeCompare asset >>= fun _ => pure ()) _ _
    rw [meets_bind]
    apply (saveRedisAsset_obeys asset).imp
    intro d outcome settled
    cases outcome with
    | ok stored => exact settled
    | error e => exact settled
  | load => exact settled_of_tidy (tidy_bind tidy_loadAllAssets fun _ => tidy_pure _)
  | reconcile options => exact settled_of_tidy (tidy_bind (tidy_reconcile options) fun _ => tidy_pure _)

end MastopodFederation.Guarantees.AssetCalls
