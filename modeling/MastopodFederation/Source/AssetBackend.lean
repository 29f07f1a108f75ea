import MastopodFederation.Source.AssetStore

/-!
# Canonical assets in Redis

The Redis commands behind the calls of the asset store, each one step, and the tasks that
make them. A key has a version that every write of it increases, which is what WATCH and
EXEC compare. Reads of the object store and of the media tools may end in any way. Which
assets repairs wrote is a history variable no code reads.
-/
namespace MastopodFederation.Source.AssetBackend
open Lib.WorkerPool CanonicalAssets AssetStore
open SecureWorker (Thrown)

variable {Blob : Type}

structure Store where
  assets : String → Option CanonicalAsset
  version : String → Nat
  index : List String
  replaced : List (String × CanonicalAsset)

namespace Store

/-- No assets, and an index that may hold ids of assets that are gone. -/
def initial (index : List String) : Store where
  assets _ := none
  version _ := 0
  index := index
  replaced := []

/-- SET -/
def write (s : Store) (assetId : String) (asset : CanonicalAsset) : Store :=
  { s with
    assets := fun id => if id = assetId then some asset else s.assets id
    version := fun id => if id = assetId then s.version id + 1 else s.version id }

/-- SADD -/
def enlist (s : Store) (assetId : String) : Store :=
  { s with index := if assetId ∈ s.index then s.index else assetId :: s.index }

/-- The script removes those of these ids whose key does not exist. -/
def prune (s : Store) (assetIds : List String) : Store :=
  { s with index := s.index.filter fun id => ¬(id ∈ assetIds ∧ s.assets id = none) }

def noteReplaced (s : Store) (assetId : String) (asset : CanonicalAsset) : Store :=
  { s with replaced := (assetId, asset) :: s.replaced }

end Store

/-- The call does not touch Redis. -/
def external : Call Blob → Bool
  | .headFilebaseObject _ | .createWorkerScratchDir | .downloadFromFilebaseToPath _
  | .processImageFile _ | .generateBlurPreview _ | .uploadToFilebase _
  | .renderVideoRenditions .. | .persistVideoRenditions .. | .cleanupWorkerScratchDir => true
  | _ => false

/-- What is called: a save, a load of everything or a repair. -/
inductive Task where
  | save (asset : CanonicalAsset)
  | load
  | reconcile (options : ReconcileOptions)
  deriving DecidableEq

/-- Only repairs replace what is stored without merging. -/
def Task.notes (task : Task) (assetId : String) (asset : CanonicalAsset) (s : Store) : Store :=
  match task with
  | .reconcile _ => s.noteReplaced assetId asset
  | _ => s

inductive Performs (task : Task) : (c : Call Blob) → Store → Reply c → Store → Prop where
  | setNx {asset : CanonicalAsset} {s : Store} (vacant : s.assets asset.assetId = none) :
      Performs task (.setNx asset) s true (s.write asset.assetId asset)
  | setNxTaken {asset stored : CanonicalAsset} {s : Store}
      (taken : s.assets asset.assetId = some stored) : Performs task (.setNx asset) s false s
  | sAdd {assetId : String} {s : Store} : Performs task (.sAdd assetId) s () (s.enlist assetId)
  | watch {assetId : String} {s : Store} :
      Performs task (.watch assetId) s (s.version assetId) s
  | get {assetId : String} {s : Store} : Performs task (.get assetId) s (s.assets assetId) s
  | unwatch {s : Store} : Performs task .unwatch s () s
  | exec {assetId : String} {asset : CanonicalAsset} {watched : Nat} {s : Store}
      (unchanged : s.version assetId = watched) :
      Performs task (.exec assetId asset watched) s true ((s.write assetId asset).enlist assetId)
  | execAborted {assetId : String} {asset : CanonicalAsset} {watched : Nat} {s : Store}
      (changed : s.version assetId ≠ watched) :
      Performs task (.exec assetId asset watched) s false s
  | set {assetId : String} {asset basis : CanonicalAsset} {s : Store} :
      Performs task (.set assetId asset basis) s ()
        (task.notes assetId asset (s.write assetId asset))
  /-- which members a scan returns while the set changes is left open -/
  | sScanIterator {s : Store} {ids : List String} : Performs task .sScanIterator s ids s
  | mGet {assetIds : List String} {s : Store} :
      Performs task (.mGet assetIds) s (assetIds.map s.assets) s
  | prune {assetIds : List String} {s : Store} :
      Performs task (.prune assetIds) s () (s.prune assetIds)
  | outside {c : Call Blob} {s : Store} {reply : Reply c} (other : external c = true) :
      Performs task c s reply s

section System
variable (env : Environment)

def body : Task → Program Blob Unit
  | .save asset => do
    let _ ← saveRedisAsset env.localeCompare asset
  | .load => do
    let _ ← loadAllAssets
  | .reconcile options => do
    let _ ← reconcileCanonicalAssets env options

/-- The assets that the workers save were just built and count one ingest. -/
def Task.fresh : Task → Bool
  | .save asset => asset.ingestCount = some 1
  | _ => true

abbrev AssetPool (Blob : Type) := Pool Store Task (Call Blob) Reply Thrown Unit

abbrev AssetLabel (Blob : Type) := Label Task Empty (Call Blob) Reply Thrown Unit

/-- Any number of callers, each with a connection of its own. -/
def assetSystem (Blob : Type) : System Store Task Empty (Call Blob) Reply Thrown Unit where
  effect := Performs
  starts _ worker := worker.tag.fresh = true ∧ worker.program = body env worker.tag
  acts event _ _ := nomatch event

end System

end MastopodFederation.Source.AssetBackend
