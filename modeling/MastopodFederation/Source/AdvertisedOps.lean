import MastopodFederation.Source.Mst

/-!
# The ops that a commit advertises

`verifyAdvertisedOps` and `parseRecordBlock` of
at-adapter/ingress/ProductionAtCommitVerifier.ts. Each op is compared with the tree of
the commit and undone in a second tree, which starts as the same one. The blocks of the
CAR and the decoding of a record are parameters.
-/
namespace MastopodFederation.Source.AdvertisedOps
open Cbor CommitEvent Mst Lib.Logged

structure VerifiedOp (ρ : Type) where
  action : Action
  collection : String
  rkey : String
  cid : Option String
  record : Option ρ

/-- `getRequired` of the CAR, and `dagCbor.decode` with the JSON limits. -/
structure RecordBlocks (ρ : Type) where
  block : Cid → Option Bytes
  decode : Bytes → Except Failure ρ
  maxRecordBytes : Nat

def repoStateInvalid (reason : String) : Failure := .invalid .repoStateInvalid reason

variable {ρ : Type} (carBlocks : RecordBlocks ρ) (store : NodeStore) (fuel : Nat)

def RecordBlocks.getRequired (cid : Cid) : Except Failure Bytes :=
  match carBlocks.block cid with
  | some bytes => .ok bytes
  | none => .error (.error s!"Missing CAR block {cid.text}")

def RecordBlocks.parseRecordBlock (bytes : Bytes) : Except Failure ρ :=
  if carBlocks.maxRecordBytes < bytes.length then
    .error (repoStateInvalid s!"Record block exceeded {carBlocks.maxRecordBytes} bytes")
  else carBlocks.decode bytes

def RecordBlocks.record (cid : Cid) : Except Failure ρ := do
  let bytes ← carBlocks.getRequired cid
  carBlocks.parseRecordBlock bytes

/-- One turn of the loop: the tree with the op undone, and what is reported. -/
def verifyOp (currentTree previousTree : PartialMst) (op : ParsedCommitOp) :
    Reads (PartialMst × VerifiedOp ρ) := do
  let currentCid ← currentTree.get store fuel op.path
  match op.action with
  | .create =>
    match op.cid with
    | none => .fail (repoStateInvalid s!"Create op {op.path} was missing a current CID")
    | some cid =>
      if currentCid ≠ some cid then
        .fail (repoStateInvalid s!"Create op {op.path} did not match the current MST state")
      else do
        let record ← .ofExcept (carBlocks.record cid)
        let previousTree ← previousTree.delete store fuel op.path
        pure (previousTree, ⟨.create, op.collection, op.rkey, some cid.text, some record⟩)
  | .update =>
    match op.cid, op.prevCid with
    | some cid, some prevCid =>
      if currentCid ≠ some cid then
        .fail (repoStateInvalid s!"Update op {op.path} did not match the current MST state")
      else do
        let record ← .ofExcept (carBlocks.record cid)
        let previousTree ← previousTree.update store fuel op.path prevCid
        pure (previousTree, ⟨.update, op.collection, op.rkey, some cid.text, some record⟩)
    | _, _ =>
      .fail (repoStateInvalid s!"Update op {op.path} was missing current or previous CID")
  | .delete =>
    if currentCid ≠ none then
      .fail (repoStateInvalid s!"Delete op {op.path} still existed in the current MST state")
    else
      match op.deletedCid with
      | none =>
        .fail (repoStateInvalid s!"Delete op {op.path} was missing the deleted record CID")
      | some deletedCid => do
        let previousTree ← previousTree.add store fuel op.path deletedCid none
        pure (previousTree, ⟨.delete, op.collection, op.rkey, none, none⟩)

def verifyOps (currentTree : PartialMst) :
    PartialMst → List ParsedCommitOp → Reads (PartialMst × List (VerifiedOp ρ))
  | previousTree, [] => pure (previousTree, [])
  | previousTree, op :: ops => do
    let (previousTree, verifiedOp) ← verifyOp carBlocks store fuel currentTree previousTree op
    let (previousTree, verifiedOps) ← verifyOps currentTree previousTree ops
    pure (previousTree, verifiedOp :: verifiedOps)

/-- The checks of a commit without ops. -/
def checkUnchanged (parsed : ParsedCommitEventBody) (commit : CommitBlock)
    (currentTree : PartialMst) : Reads Unit :=
  match parsed.prevDataCid with
  | some prevDataCid =>
    if prevDataCid ≠ commit.data then
      .fail (repoStateInvalid
        "Commit advertised no ops but prevData did not equal the current data root")
    else pure ()
  | none => do
    if !(← currentTree.isEmpty store) then
      .fail (repoStateInvalid
        "Commit advertised no ops and omitted prevData for a non-empty repository state")
    else pure ()

/-- The check of the tree in which the ops are undone. -/
def checkReconstructed (parsed : ParsedCommitEventBody) (previousTree : PartialMst) : Reads Unit :=
  match parsed.prevDataCid with
  | some prevDataCid => do
    if (← previousTree.getPointer store fuel) ≠ prevDataCid then
      .fail (repoStateInvalid "Advertised ops did not reconstruct the claimed prevData root")
    else pure ()
  | none => do
    if !(← previousTree.isEmpty store) then
      .fail (repoStateInvalid
        "Commit omitted prevData but the reconstructed previous repository state was not empty")
    else pure ()

def verifyAdvertisedOps (parsed : ParsedCommitEventBody) (commit : CommitBlock) :
    Reads (List (VerifiedOp ρ)) := do
  let currentTree := PartialMst.load commit.data none
  let (previousTree, verifiedOps) ←
    verifyOps carBlocks store fuel currentTree currentTree parsed.ops
  let check := if parsed.ops.isEmpty then checkUnchanged store parsed commit currentTree
    else checkReconstructed store fuel parsed previousTree
  check
  pure verifiedOps

end MastopodFederation.Source.AdvertisedOps
