import MastopodFederation.Lib.LayeredEntries
import MastopodFederation.Lib.Logged
import MastopodFederation.Source.CommitEvent

/-!
# The Merkle search tree of a commit's CAR slice

`MstLeaf`, `PartialMst`, `serializeNodeData`, `deserializeNodeData` and the key
checks of at-adapter/ingress/ProductionAtCommitVerifier.ts. Reading a node block,
hashing a node and hashing a key are parameters. A tree is passed on with the
`layer` and `entries` fields its methods cache; the log lists the blocks read. A
method opens its node once, where the source asks for the cached entries again.
Recursions carry a bound, whose exhaustion stands for not coming back. Keys are
ASCII wherever their encoding matters, since `ensureValidMstKey` guards them.
-/
namespace MastopodFederation.Source.Mst
open Cbor CommitEvent Lib.Logged Lib.LayeredEntries

structure MstNodeEntry where
  p : Nat
  k : Bytes
  v : Cid
  t : Option Cid
  deriving DecidableEq

structure MstNodeData where
  l : Option Cid
  e : List MstNodeEntry
  deriving DecidableEq

/-- `CarBlockStore.readNode`, `cidForDagCborValue` and `leadingZerosOnHash`. -/
structure NodeStore where
  readNode : Cid → Except Failure MstNodeData
  cidForNodeData : MstNodeData → Cid
  leadingZerosOnHash : String → Nat

structure PartialMst where
  pointer : Cid
  outdatedPointer : Bool
  layer : Option Int
  entries : Option (List (Entry PartialMst String Cid))

abbrev MstEntry := Entry PartialMst String Cid

/-- A computation over nodes, logging the blocks it reads. -/
abbrev Reads (α : Type) := Logged Cid Failure α

section Keys

/-- `[a-zA-Z0-9_~\-:.]` -/
def mstKeyChar (c : Char) : Bool := c.isAlphanum || ['_', '~', '-', ':', '.'].contains c

/-- `MST_KEY_REGEX.test(key)` -/
def matchesMstKeyRegex (key : String) : Bool :=
  match key.toList.dropWhile mstKeyChar with
  | '/' :: rest => !(key.toList.takeWhile mstKeyChar).isEmpty && !rest.isEmpty &&
      rest.all mstKeyChar
  | _ => false

def ensureValidMstKey (key : String) : Except Failure Unit :=
  if !matchesMstKeyRegex key || key.length > 1024 then
    .error (.invalid .repoStateInvalid s!"Invalid MST key {key}")
  else .ok ()

/-- The zero pairs that `leadingZerosOnHash` counts at the front of a digest. -/
def leadingZeros : Bytes → Nat
  | [] => 0
  | byte :: rest =>
    (if byte < 64 then 1 else 0) + (if byte < 16 then 1 else 0) + (if byte < 4 then 1 else 0) +
      (if byte = 0 then 1 + leadingZeros rest else 0)

def toAscii (bytes : Bytes) : String :=
  String.ofList (bytes.map fun byte => Char.ofNat (byte.toNat % 128))

def fromAscii (value : String) : Bytes := value.toList.map fun c => UInt8.ofNat c.toNat

def countPrefix : List Char → List Char → Nat
  | a :: left, b :: right => if a = b then countPrefix left right + 1 else 0
  | _, _ => 0

def countPrefixLength (left right : String) : Nat := countPrefix left.toList right.toList

end Keys

section Nodes

def PartialMst.load (cid : Cid) (layer : Option Int) : PartialMst :=
  { pointer := cid, outdatedPointer := false, layer := layer, entries := none }

def deserializeEntries (layer : Option Int) (lastKey : String) :
    List MstNodeEntry → Except Failure (List MstEntry)
  | [] => pure []
  | entry :: rest => do
    let key := String.ofList (lastKey.toList.take entry.p) ++ toAscii entry.k
    ensureValidMstKey key
    let later ← deserializeEntries layer key rest
    pure (.leaf key entry.v ::
      maybeTree (entry.t.map fun cid => PartialMst.load cid (layer.map (· - 1))) ++ later)

def deserializeNodeData (data : MstNodeData) (layer : Option Int) :
    Except Failure (List MstEntry) := do
  let later ← deserializeEntries layer "" data.e
  pure (maybeTree (data.l.map fun cid => PartialMst.load cid (layer.map (· - 1))) ++ later)

variable {τ : Type}

def serializeEntry (lastKey key : String) (value : Cid) (subtree : Option Cid) : MstNodeEntry :=
  { p := countPrefixLength lastKey key
    k := fromAscii (String.ofList (key.toList.drop (countPrefixLength lastKey key)))
    v := value
    t := subtree }

def serializeEntries (pointer : τ → Cid) (lastKey : String) :
    List (Entry τ String Cid) → Except Failure (List MstNodeEntry)
  | [] => pure []
  | .tree _ :: _ =>
    .error (.invalid .repoStateInvalid "Invalid MST node serialization state")
  | .leaf key value :: .tree subtree :: rest => do
    let later ← serializeEntries pointer key rest
    pure (serializeEntry lastKey key value (some (pointer subtree)) :: later)
  | .leaf key value :: rest => do
    let later ← serializeEntries pointer key rest
    pure (serializeEntry lastKey key value none :: later)

/-- The source reads the `pointer` field of the subtrees. -/
def serializeNodeData (pointer : τ → Cid) :
    List (Entry τ String Cid) → Except Failure MstNodeData
  | .tree subtree :: rest => do
    let e ← serializeEntries pointer "" rest
    pure { l := some (pointer subtree), e := e }
  | entries => do
    let e ← serializeEntries pointer "" entries
    pure { l := none, e := e }

variable (store : NodeStore)

def layerForEntries (entries : List MstEntry) : Option Int :=
  entries.findSome? fun
    | .leaf key _ => some (store.leadingZerosOnHash key : Int)
    | .tree _ => none

def cidForNodeEntries (entries : List MstEntry) : Except Failure Cid := do
  let data ← serializeNodeData PartialMst.pointer entries
  pure (store.cidForNodeData data)

def PartialMst.create (entries : List MstEntry) (layer : Option Int) :
    Except Failure PartialMst := do
  let pointer ← cidForNodeEntries store entries
  pure { pointer := pointer, outdatedPointer := false, layer := layer, entries := some entries }

def PartialMst.getEntries (self : PartialMst) : Reads (List MstEntry) :=
  match self.entries with
  | some entries => pure entries
  | none => do
    let data ← .reply self.pointer (store.readNode self.pointer)
    let layer := data.e.head?.map fun firstLeaf =>
      (store.leadingZerosOnHash (toAscii firstLeaf.k) : Int)
    .ofExcept (deserializeNodeData data layer)

def PartialMst.newTree (self : PartialMst) (entries : List MstEntry) : PartialMst :=
  { self with entries := some entries, outdatedPointer := true }

def PartialMst.isEmpty (self : PartialMst) : Reads Bool := do
  let entries ← self.getEntries store
  pure entries.isEmpty

end Nodes

section Search

variable {entries : List MstEntry} {key : String}

def findGtOrEqualLeafIndex (entries : List MstEntry) (key : String) : Nat :=
  entries.findIdx (Entry.atLeast key)

/-- `found && found.isLeaf() && found.key === key`, with the value of `found`. -/
def foundAt (entries : List MstEntry) (index : Nat) (key : String) : Option Cid :=
  match entries[index]? with
  | some (.leaf k value) => if k = key then some value else none
  | _ => none

/-- `atIndex(index)`, if that is a tree. -/
def treeAt (entries : List MstEntry) (index : Nat) : Option PartialMst :=
  match entries[index]? with
  | some (.tree subtree) => some subtree
  | _ => none

/-- `atIndex(index - 1)`, if that is a tree. -/
def previousTree (entries : List MstEntry) (index : Nat) : Option PartialMst :=
  match index with
  | 0 => none
  | index + 1 => treeAt entries index

def updateEntry (entries : List MstEntry) (index : Nat) (entry : MstEntry) : List MstEntry :=
  entries.take index ++ entry :: entries.drop (index + 1)

def removeEntry (entries : List MstEntry) (index : Nat) : List MstEntry :=
  entries.take index ++ entries.drop (index + 1)

def spliceIn (entries : List MstEntry) (entry : MstEntry) (index : Nat) : List MstEntry :=
  entries.take index ++ entry :: entries.drop index

def replaceWithSplit (entries : List MstEntry) (index : Nat) (left : Option PartialMst)
    (leaf : MstEntry) (right : Option PartialMst) : List MstEntry :=
  entries.take index ++ maybeTree left ++ leaf :: maybeTree right ++ entries.drop (index + 1)

end Search

section Methods

variable (store : NodeStore)

def PartialMst.get : Nat → PartialMst → String → Reads (Option Cid)
  | 0, _, _ => .fail .exhausted
  | fuel + 1, self, key => do
    let entries ← self.getEntries store
    let index := findGtOrEqualLeafIndex entries key
    match foundAt entries index key with
    | some value => pure (some value)
    | none =>
      match previousTree entries index with
      | some previous => PartialMst.get fuel previous key
      | none => pure none

/-- The loop of `attemptGetLayer` over the children of a node without leaves: the
layer of the first child that has one, and the children it asked. -/
def firstChildLayer (attempt : PartialMst → Reads (Option Int × PartialMst)) :
    List MstEntry → Reads (Option Int × List MstEntry)
  | [] => pure (none, [])
  | .leaf key value :: rest => do
    let (layer, rest) ← firstChildLayer attempt rest
    pure (layer, .leaf key value :: rest)
  | .tree child :: rest => do
    let (childLayer, child) ← attempt child
    match childLayer with
    | some childLayer => pure (some childLayer, .tree child :: rest)
    | none => do
      let (layer, rest) ← firstChildLayer attempt rest
      pure (layer, .tree child :: rest)

def PartialMst.attemptGetLayer : Nat → PartialMst → Reads (Option Int × PartialMst)
  | 0, _ => .fail .exhausted
  | fuel + 1, self =>
    match self.layer with
    | some layer => pure (some layer, self)
    | none => do
      let entries ← self.getEntries store
      match layerForEntries store entries with
      | some layer => pure (some layer, { self with layer := some layer, entries := some entries })
      | none => do
        let (childLayer, entries) ← firstChildLayer (PartialMst.attemptGetLayer fuel) entries
        let layer := childLayer.map (· + 1)
        pure (layer, { self with layer := layer, entries := some entries })

def PartialMst.getLayer (fuel : Nat) (self : PartialMst) : Reads (Int × PartialMst) := do
  let (layer, self) ← self.attemptGetLayer store fuel
  let layer := layer.getD 0
  pure (layer, { self with layer := some layer })

def PartialMst.createChild (layer : Int) : Except Failure PartialMst :=
  PartialMst.create store [] (some (layer - 1))

def PartialMst.createParent (fuel : Nat) (self : PartialMst) : Reads PartialMst := do
  let (layer, self) ← self.getLayer store fuel
  let parent ← .ofExcept (PartialMst.create store [.tree self] (some (layer + 1)))
  pure { parent with outdatedPointer := true }

def createParentOf (fuel : Nat) : Option PartialMst → Reads (Option PartialMst)
  | none => pure none
  | some self => do
    let parent ← self.createParent store fuel
    pure (some parent)

/-- The loop of `add` that lifts both halves of a split, `count` times. -/
def createParents (fuel : Nat) :
    Nat → Option PartialMst → Option PartialMst → Reads (Option PartialMst × Option PartialMst)
  | 0, left, right => pure (left, right)
  | count + 1, left, right => do
    let left ← createParentOf store fuel left
    let right ← createParentOf store fuel right
    createParents fuel count left right

/-- `(await half.isEmpty()) ? null : half`, for a half with these entries. -/
def PartialMst.half (self : PartialMst) (entries : List MstEntry) : Option PartialMst :=
  if entries.isEmpty then none else some (self.newTree entries)

def PartialMst.splitAround :
    Nat → PartialMst → String → Reads (Option PartialMst × Option PartialMst)
  | 0, _, _ => .fail .exhausted
  | fuel + 1, self, key => do
    let entries ← self.getEntries store
    let index := findGtOrEqualLeafIndex entries key
    match previousTree entries index with
    | some lastLeft => do
      let (left, right) ← PartialMst.splitAround fuel lastLeft key
      pure (self.half (removeEntry (entries.take index) (index - 1) ++ maybeTree left),
        self.half (maybeTree right ++ entries.drop index))
    | none => pure (self.half (entries.take index), self.half (entries.drop index))

def PartialMst.appendMerge : Nat → PartialMst → PartialMst → Reads PartialMst
  | 0, _, _ => .fail .exhausted
  | fuel + 1, self, toMerge => do
    let (layer, self) ← self.getLayer store fuel
    let (otherLayer, toMerge) ← toMerge.getLayer store fuel
    if layer ≠ otherLayer then
      .fail (.invalid .repoStateInvalid "Attempted to merge MST nodes from different layers")
    else do
      let leftEntries ← self.getEntries store
      let rightEntries ← toMerge.getEntries store
      match leftEntries.getLast?, rightEntries.head? with
      | some (.tree lastLeft), some (.tree firstRight) => do
        let merged ← PartialMst.appendMerge fuel lastLeft firstRight
        pure (self.newTree (leftEntries.take (leftEntries.length - 1) ++
          .tree merged :: rightEntries.drop 1))
      | _, _ => pure (self.newTree (leftEntries ++ rightEntries))

def couldNotFind (key : String) : Failure :=
  .invalid .repoStateInvalid s!"Could not find a record with key {key}"

def PartialMst.update : Nat → PartialMst → String → Cid → Reads PartialMst
  | 0, _, _, _ => .fail .exhausted
  | fuel + 1, self, key, value => do
    .ofExcept (ensureValidMstKey key)
    let entries ← self.getEntries store
    let index := findGtOrEqualLeafIndex entries key
    match foundAt entries index key with
    | some _ => pure (self.newTree (updateEntry entries index (.leaf key value)))
    | none =>
      match previousTree entries index with
      | some previous => do
        let nextTree ← PartialMst.update fuel previous key value
        pure (self.newTree (updateEntry entries (index - 1) (.tree nextTree)))
      | none => .fail (couldNotFind key)

def PartialMst.deleteRecurse : Nat → PartialMst → String → Reads PartialMst
  | 0, _, _ => .fail .exhausted
  | fuel + 1, self, key => do
    let entries ← self.getEntries store
    let index := findGtOrEqualLeafIndex entries key
    match foundAt entries index key with
    | some _ =>
      match previousTree entries index, treeAt entries (index + 1) with
      | some previous, some next => do
        let merged ← previous.appendMerge store fuel next
        pure (self.newTree (entries.take (index - 1) ++ .tree merged :: entries.drop (index + 2)))
      | _, _ => pure (self.newTree (removeEntry entries index))
    | none =>
      match previousTree entries index with
      | some previous => do
        let subtree ← PartialMst.deleteRecurse fuel previous key
        if ← subtree.isEmpty store then
          pure (self.newTree (removeEntry entries (index - 1)))
        else pure (self.newTree (updateEntry entries (index - 1) (.tree subtree)))
      | none => .fail (couldNotFind key)

def PartialMst.trimTop : Nat → PartialMst → Reads PartialMst
  | 0, _ => .fail .exhausted
  | fuel + 1, self => do
    let entries ← self.getEntries store
    match entries with
    | [.tree firstEntry] => PartialMst.trimTop fuel firstEntry
    | _ => pure self

def PartialMst.delete (fuel : Nat) (self : PartialMst) (key : String) : Reads PartialMst := do
  let altered ← self.deleteRecurse store fuel key
  altered.trimTop store fuel

def alreadyAt (key : String) : Failure :=
  .invalid .repoStateInvalid s!"There is already a value at key {key}"

def PartialMst.add : Nat → PartialMst → String → Cid → Option Nat → Reads PartialMst
  | 0, _, _, _, _ => .fail .exhausted
  | fuel + 1, self, key, value, knownZeros => do
    .ofExcept (ensureValidMstKey key)
    let keyZeros := knownZeros.getD (store.leadingZerosOnHash key)
    let (layer, self) ← self.getLayer store fuel
    if (keyZeros : Int) = layer then
      let entries ← self.getEntries store
      let index := findGtOrEqualLeafIndex entries key
      match foundAt entries index key with
      | some _ => .fail (alreadyAt key)
      | none =>
        match previousTree entries index with
        | none => pure (self.newTree (spliceIn entries (.leaf key value) index))
        | some previous => do
          let (left, right) ← previous.splitAround store fuel key
          pure (self.newTree
            (replaceWithSplit entries (index - 1) left (.leaf key value) right))
    else if (keyZeros : Int) < layer then
      let entries ← self.getEntries store
      let index := findGtOrEqualLeafIndex entries key
      match previousTree entries index with
      | some previous => do
        let nextTree ← PartialMst.add fuel previous key value (some keyZeros)
        pure (self.newTree (updateEntry entries (index - 1) (.tree nextTree)))
      | none => do
        let child ← .ofExcept (PartialMst.createChild store layer)
        let nextChild ← PartialMst.add fuel child key value (some keyZeros)
        pure (self.newTree (spliceIn entries (.tree nextChild) index))
    else do
      let (left, right) ← self.splitAround store fuel key
      let (left, right) ← createParents store fuel (keyZeros - layer - 1).toNat left right
      let root ← .ofExcept (PartialMst.create store
        (maybeTree left ++ .leaf key value :: maybeTree right) (some keyZeros))
      pure { root with outdatedPointer := true }

def currentPointer (visit : PartialMst → Reads Cid) (child : PartialMst) : Reads Cid :=
  if child.outdatedPointer then visit child else pure child.pointer

/-- Recompute the pointers of the outdated children of a node. -/
def refreshPointers (visit : PartialMst → Reads Cid) : List MstEntry → Reads (List MstEntry)
  | [] => pure []
  | .leaf key value :: rest => do
    let rest ← refreshPointers visit rest
    pure (.leaf key value :: rest)
  | .tree child :: rest => do
    let pointer ← currentPointer visit child
    let rest ← refreshPointers visit rest
    pure (.tree { child with pointer := pointer, outdatedPointer := false } :: rest)

def PartialMst.getPointer : Nat → PartialMst → Reads Cid
  | 0, _ => .fail .exhausted
  | fuel + 1, self =>
    if !self.outdatedPointer then pure self.pointer
    else do
      let entries ← self.getEntries store
      let entries ← refreshPointers (PartialMst.getPointer fuel) entries
      .ofExcept (cidForNodeEntries store entries)

end Methods

end MastopodFederation.Source.Mst
