import Mathlib

/-!
# Decoded CBOR values

What cborg and @ipld/dag-cbor decode to, and the JavaScript reads made of it:
property access, `??` and truthiness. A CID is its string form, which `toString`
and the block maps use as its identity.
-/
namespace MastopodFederation.Source.Cbor

structure Cid where
  text : String
  nonempty : text ≠ ""

theorem Cid.text_inj {c d : Cid} : c.text = d.text ↔ c = d := by
  cases c
  cases d
  simp

instance : DecidableEq Cid := fun _ _ => decidable_of_iff _ Cid.text_inj

abbrev Bytes := List UInt8

/-- Tag 42 is a CID, other integers beyond 2^53 are bigints. -/
inductive Cbor where
  | null
  | bool (value : Bool)
  | number (value : Rat)
  | bigint (value : Int)
  | text (value : String)
  | bytes (value : Bytes)
  | array (items : List Cbor)
  | map (entries : List (String × Cbor))
  | cid (value : Cid)

/-- Property access; `none` is undefined. -/
def Cbor.get (value : Cbor) (key : String) : Option Cbor :=
  match value with
  | .map entries => entries.lookup key
  | _ => none

/-- `value == null` -/
def nullish : Option Cbor → Bool
  | none | some .null => true
  | some _ => false

/-- `left ?? right` -/
def coalesce (left right : Option Cbor) : Option Cbor := if nullish left then right else left

def truthy : Option Cbor → Bool
  | none | some .null => false
  | some (.bool value) => value
  | some (.number value) => value ≠ 0
  | some (.bigint value) => value ≠ 0
  | some (.text value) => value ≠ ""
  | some (.bytes _) | some (.array _) | some (.map _) | some (.cid _) => true

end MastopodFederation.Source.Cbor

/-!
# A parsed commit event and the signed commit block in it

Types of at-adapter/ingress/ProductionAtCommitVerifier.ts.
-/
namespace MastopodFederation.Source.CommitEvent
open Cbor

inductive Action where
  | create | update | delete
  deriving DecidableEq, Repr

structure ParsedCommitOp where
  action : Action
  collection : String
  rkey : String
  path : String
  cid : Option Cid
  prevCid : Option Cid
  deletedCid : Option Cid
  requiresSyncReason : Option String

structure ParsedCommitEventBody where
  repo : String
  rev : String
  since : Option String
  commitCid : Cid
  prevDataCid : Option Cid
  tooBig : Bool
  blocks : Bytes
  ops : List ParsedCommitOp

structure CommitBlock where
  did : String
  data : Cid
  rev : String
  prev : Option Cid
  sig : Bytes
  unsignedBytes : Bytes

inductive CommitFailureReason where
  | signatureInvalid | repoStateInvalid | didResolutionFailed
  deriving DecidableEq, Repr

/-- What verification throws: a VerificationFailure, another error with its message,
or nothing at all, when a recursion does not come back. -/
inductive Failure where
  | invalid (failureReason : CommitFailureReason) (reason : String)
  | error (message : String)
  | exhausted
  deriving DecidableEq, Repr

end MastopodFederation.Source.CommitEvent
