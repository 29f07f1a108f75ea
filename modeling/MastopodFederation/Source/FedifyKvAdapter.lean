import MastopodFederation.Lib.UriComponent

/-!
# Keys of the Fedify KV store

federation/FedifyKvAdapter.ts: the key encoding and list. Redis keys are lists of characters and
`held` is what Redis has stored under them while the pages of a SCAN come back; a call is `none`
where the source throws. get, set and delete with their TTL are left out.
-/
namespace MastopodFederation.Source.FedifyKvAdapter
open Lib.UriComponent

abbrev KvKey := List String

abbrev RedisKey := List Char

variable (ns : RedisKey)

def encoded (component : String) : List Char := (encodeURIComponent component).toList

def encodeKey (key : KvKey) : RedisKey := ns ++ ':' :: [':'].intercalate (key.map encoded)

/-- The split has a first part always, so the fallback is never taken. -/
def decodeKey (raw : RedisKey) : Option KvKey :=
  ((raw.drop (ns.length + 1)).splitOn ':').mapM fun part => decodeURIComponent (String.ofList part)

def escapeScanPattern (value : RedisKey) : RedisKey :=
  value.flatMap fun c => if c ∈ ['*', '?', '[', ']', '\\'] then ['\\', c] else [c]

/-- The glob patterns of Redis without character classes, of which none is left unescaped. -/
def globMatches : List Char → RedisKey → Bool
  | [], key => key = []
  | '*' :: pattern, key => key.tails.any (globMatches pattern)
  | '\\' :: c :: pattern, d :: key => c = d && globMatches pattern key
  | '?' :: pattern, _ :: key => globMatches pattern key
  | c :: pattern, d :: key => c = d && globMatches pattern key
  | _ :: _, [] => false

/-- The key of the components, or what every key of the namespace starts with. -/
def startKey : Option KvKey → RedisKey
  | none | some [] => ns ++ [':']
  | some start => encodeKey ns start

def scanPattern (start : Option KvKey) : RedisKey := escapeScanPattern (startKey ns start) ++ ['*']

def eligible (start : Option KvKey) (rawKey : RedisKey) : Bool :=
  match start with
  | none | some [] => (startKey ns start).isPrefixOf rawKey
  | some _ => rawKey = startKey ns start || (startKey ns start ++ [':']).isPrefixOf rawKey

/-- The entries of one page, with the value that its text is read as. -/
def listPage {V : Type} (held : RedisKey → Option String) (parse : String → V)
    (start : Option KvKey) (page : List RedisKey) : Option (List (KvKey × V)) :=
  ((page.filter (eligible ns start)).filterMap fun rawKey =>
    (held rawKey).map fun raw => (rawKey, raw)).mapM fun (rawKey, raw) =>
      (decodeKey ns rawKey).map fun key => (key, parse raw)

/-- The entries that are yielded for the pages of a SCAN. -/
def list {V : Type} (held : RedisKey → Option String) (parse : String → V)
    (start : Option KvKey) (pages : List (List RedisKey)) : Option (List (KvKey × V)) :=
  (pages.mapM (listPage ns held parse start)).map List.flatten

end MastopodFederation.Source.FedifyKvAdapter
