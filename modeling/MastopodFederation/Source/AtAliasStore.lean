import Mathlib.Logic.Function.Basic
import MastopodFederation.Lib.GuardedRun

/-!
# Alias records

at-adapter/repo/AtAliasStore.ts: the calls on one canonical id of both stores. Over Redis a
call is a GET and a SET, between which other callers take their steps; an update brings the
time its clock will read. JSON is the identity, and the fields that no store reads are left out.
-/
namespace MastopodFederation.Source.AtAliasStore

structure AtAliasRecord where
  canonicalRefId : String
  did : String
  collection : String
  rkey : String
  atUri : String
  cid : Option String := none
  lastRev : Option String := none
  createdAt : String
  updatedAt : String
  deletedAt : Option String := none
  deriving DecidableEq

inductive Call where
  | put (record : AtAliasRecord)
  | markDeleted (deletedAt : String)
  | updateCidAndRev (cid rev now : String)
  deriving DecidableEq

/-- What a call makes of the record it finds. -/
def Call.change : Call → AtAliasRecord → AtAliasRecord
  | .put record, _ => record
  | .markDeleted deletedAt, found =>
    { found with deletedAt := some deletedAt, updatedAt := deletedAt }
  | .updateCidAndRev cid rev now, found =>
    { found with cid := some cid, lastRev := some rev, updatedAt := now }

/-- A call on the in-memory store. -/
def InMemory.apply (stored : Option AtAliasRecord) : Call → Option AtAliasRecord
  | .put record => some record
  | call => stored.map call.change

/-- The Redis store and its callers: the calls each has left and the record that the first of
them has read. -/
structure Callers (κ : Type) where
  stored : Option AtAliasRecord
  calls : κ → List Call
  read : κ → Option AtAliasRecord := fun _ => none

variable {κ : Type} [DecidableEq κ]

/-- The next command of a caller. -/
def next (s : Callers κ) (caller : κ) : Option (Callers κ) :=
  match s.calls caller, s.read caller with
  | [], _ => none
  | call :: rest, some found => some
    { stored := some (call.change found)
      calls := Function.update s.calls caller rest
      read := Function.update s.read caller none }
  | .put record :: rest, none => some
    { s with stored := some record, calls := Function.update s.calls caller rest }
  | _ :: rest, none =>
    match s.stored with
    | none => some { s with calls := Function.update s.calls caller rest }
    | some found => some { s with read := Function.update s.read caller (some found) }

end MastopodFederation.Source.AtAliasStore

/-!
# Listing the records of a repository

at-adapter/repo/AtRecordReader.ts: listRecords for a resolved repository, over the aliases that
listByDid gives at the time of the request. localeCompare is a parameter, as the relation
`localeCompare(a, b) <= 0`. getRecord is left out.
-/
namespace MastopodFederation.Source.AtRecordReader
open AtAliasStore

structure AtStoredRecord where
  did : String
  collection : String
  rkey : String
  uri : String
  cid : String
  type : String
  indexedAt : String
  deriving DecidableEq

structure ListRecordsInput where
  repo : String
  collection : String
  limit : Option Nat := none
  cursor : Option String := none
  reverse : Bool := false

structure ListRecordsResult where
  records : List AtStoredRecord
  cursor : Option String
  repoRev : Option String

variable (le : String → String → Bool)

/-- The order of a listing. -/
def before (reverse : Bool) (a b : String) : Bool := if reverse then le b a else le a b

def isActive (record : AtAliasRecord) : Bool := record.deletedAt.getD "" = ""

def sorted (aliases : List AtAliasRecord) (collection : String) (reverse : Bool) :
    List AtAliasRecord :=
  (aliases.filter fun a => a.collection = collection && isActive a).mergeSort
    fun a b => before le reverse a.rkey b.rkey

def afterCursor (cursor : Option String) (filtered : List AtAliasRecord) : List AtAliasRecord :=
  match cursor with
  | none | some "" => filtered
  | some cursor =>
    match filtered.findIdx? (·.rkey = cursor) with
    | none => filtered
    | some idx => filtered.drop (idx + 1)

def storedRecord (did : String) (a : AtAliasRecord) : AtStoredRecord :=
  { did, collection := a.collection, rkey := a.rkey, uri := a.atUri
    cid := a.cid.getD "mock-cid", type := a.collection, indexedAt := a.updatedAt }

/-- The page of a resolved repository. -/
def listPage (did : String) (repoRev : Option String) (aliases : List AtAliasRecord)
    (input : ListRecordsInput) : ListRecordsResult :=
  let filtered := afterCursor input.cursor (sorted le aliases input.collection input.reverse)
  let limit := input.limit.getD 50
  let paginated := filtered.take limit
  { records := paginated.map (storedRecord did)
    cursor := if paginated.length = limit ∧ limit < filtered.length then
      paginated.getLast?.map (·.rkey) else none
    repoRev }

def listRecords (resolved repoRev : Option String) (aliases : List AtAliasRecord)
    (input : ListRecordsInput) : Except String ListRecordsResult :=
  match resolved with
  | none => .error ("Repo not found: " ++ input.repo)
  | some did => .ok (listPage le did repoRev aliases input)

end MastopodFederation.Source.AtRecordReader
