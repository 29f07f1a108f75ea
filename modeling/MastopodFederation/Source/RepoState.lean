import Mathlib

/-!
# Repository state and the revision order

atproto/repo/AtprotoRepoState.ts (`RepositoryState` and its parts) and
`compareRevisionStrings` of at-adapter/ingress/ProductionAtCommitVerifier.ts.
`TID.fromStr` and `compareTo` belong to @atproto/common-web: the parse is a
parameter that fails where the constructor throws, and its results are ordered.
-/
namespace MastopodFederation.Source.RepoState

structure RepositoryCommit where
  cid : String
  rootCid : String
  rev : String
  timestamp : String
  signature : String
  prevCid : Option String
  deriving DecidableEq, Repr

structure RecordCollection where
  nsid : String
  recordCount : Nat
  rootCid : Option String
  lastUpdated : String
  deriving DecidableEq, Repr

inductive RepositoryStatus where
  | active | suspended | deactivated
  deriving DecidableEq, Repr

structure RepositoryState where
  did : String
  rootCid : Option String
  rev : String
  commits : List RepositoryCommit
  collections : List RecordCollection
  totalRecords : Nat
  sizeBytes : Nat
  status : RepositoryStatus
  lastCommitAt : String
  snapshotAt : String
  createdAt : String
  updatedAt : String
  deriving DecidableEq, Repr

/-- Both revisions as TIDs where both parse, as plain strings otherwise. -/
def compareRevisionStrings {Tid : Type} [LinearOrder Tid] (fromStr : String → Option Tid)
    (left right : String) : Ordering :=
  match fromStr left, fromStr right with
  | some l, some r => compare l r
  | _, _ => if left = right then .eq else if left < right then .lt else .gt

variable {Tid : Type} [LinearOrder Tid] {fromStr : String → Option Tid}

theorem compareRevisionStrings_tid {left right : String} {l r : Tid}
    (hl : fromStr left = some l) (hr : fromStr right = some r) :
    compareRevisionStrings fromStr left right = compare l r := by
  simp [compareRevisionStrings, hl, hr]

/-- The test the writers make: the left revision is at or past the right one. -/
def atOrPast (fromStr : String → Option Tid) (left right : String) : Bool :=
  compareRevisionStrings fromStr left right != .lt

theorem atOrPast_tid {left right : String} {l r : Tid}
    (hl : fromStr left = some l) (hr : fromStr right = some r) :
    atOrPast fromStr left right = true ↔ r ≤ l := by
  rw [atOrPast, compareRevisionStrings_tid hl hr, bne_iff_ne, ne_eq, compare_lt_iff_lt, not_lt]

/-- The current head of a repository as either writer leaves it. -/
def RepositoryState.head (state : RepositoryState) : Option String × String :=
  (state.rootCid, state.rev)

end MastopodFederation.Source.RepoState
