import MastopodFederation.Lib.Base64
import Mathlib.Data.List.Sort

/-!
# Cursor stores of the firehose this server publishes

at-adapter/firehose/AtFirehoseCursorStore.ts: the in-memory store and the Redis
store, and the sequence counter a publisher takes from one of them when it starts
(`ensureSeqCounterInitialised`, `_nextSeq` of AtFirehosePublisher.ts). Sequence
numbers are the `seq` of an event, so the decimal texts Redis keeps of them (event
keys, index members, the latest value) are the numbers themselves here. The sorted
set is the list of its members by score. Limits and cursors are integers: `trunc`
does nothing to them.
-/
namespace MastopodFederation.Source.FirehoseCursorStore

abbrev Bytes := List UInt8

inductive FrameType where
  | commit
  | identity
  | account
  deriving DecidableEq, Repr

def FrameType.text : FrameType → String
  | .commit => "#commit"
  | .identity => "#identity"
  | .account => "#account"

def FrameType.ofText (text : String) : Option FrameType :=
  if text = "#commit" then some .commit
  else if text = "#identity" then some .identity
  else if text = "#account" then some .account
  else none

structure FirehoseEventEnvelope where
  seq : Nat
  type : FrameType
  encoded : Bytes
  emittedAt : String
  deriving DecidableEq, Repr

structure InMemoryAtFirehoseCursorStore where
  events : List FirehoseEventEnvelope
  seq : Nat
  deriving DecidableEq, Repr

namespace InMemoryAtFirehoseCursorStore

def empty : InMemoryAtFirehoseCursorStore := ⟨[], 0⟩

def append (store : InMemoryAtFirehoseCursorStore) (event : FirehoseEventEnvelope) :
    InMemoryAtFirehoseCursorStore where
  events := store.events ++ [event]
  seq := if store.seq < event.seq then event.seq else store.seq

def readFrom (store : InMemoryAtFirehoseCursorStore) (cursorExclusive limit : Int) :
    List FirehoseEventEnvelope :=
  if limit < 1 then []
  else
    match store.events.findIdx? fun e => cursorExclusive < e.seq with
    | none => []
    | some start => (store.events.drop start).take limit.toNat

def latestSeq (store : InMemoryAtFirehoseCursorStore) : Nat := store.seq

end InMemoryAtFirehoseCursorStore

/-- The members of a stored payload that are read back, with their JSON types checked:
`none` is a member that is missing or of another type. -/
structure StoredEnvelope where
  seq : Option Nat
  type : Option String
  emittedAt : Option String
  encodedBase64 : Option (List Char)
  deriving DecidableEq, Repr

def stringify (event : FirehoseEventEnvelope) : StoredEnvelope where
  seq := some event.seq
  type := some event.type.text
  emittedAt := some event.emittedAt
  encodedBase64 := some (Lib.Base64.encode event.encoded)

def parseStoredEnvelope (payload : Option StoredEnvelope) : Option FirehoseEventEnvelope := do
  let parsed ← payload
  let seq ← parsed.seq
  let type ← parsed.type.bind FrameType.ofText
  let emittedAt ← parsed.emittedAt
  let encodedBase64 ← parsed.encodedBase64
  pure { seq, type, emittedAt, encoded := Lib.Base64.decode encodedBase64 }

/-- The keys of the store: the event keys, the index and the latest sequence number. -/
structure RedisAtFirehoseCursorStore where
  maxEvents : Nat
  events : Nat → Option StoredEnvelope
  index : List Nat
  latest : Option Nat

def defaultMaxEvents : Nat := 10000

/-- `options.maxEvents`, where `none` is a value that is missing or not finite. -/
def maxEventsOf (option : Option Int) : Nat :=
  match option with
  | some maxEvents => (max 100 maxEvents).toNat
  | none => defaultMaxEvents

def zadd (member : Nat) (index : List Nat) : List Nat :=
  if member ∈ index then index else index.orderedInsert (· ≤ ·) member

namespace RedisAtFirehoseCursorStore

def empty (maxEvents : Nat) : RedisAtFirehoseCursorStore := ⟨maxEvents, fun _ => none, [], none⟩

def trimOverflow (store : RedisAtFirehoseCursorStore) : RedisAtFirehoseCursorStore :=
  let overflow := store.index.length - store.maxEvents
  let staleMembers := store.index.take overflow
  { store with
    events := fun seq => if seq ∈ staleMembers then none else store.events seq
    index := store.index.drop overflow }

def append (store : RedisAtFirehoseCursorStore) (event : FirehoseEventEnvelope) :
    RedisAtFirehoseCursorStore :=
  trimOverflow
    { store with
      events := fun seq => if seq = event.seq then some (stringify event) else store.events seq
      index := zadd event.seq store.index
      latest := some event.seq }

def readFrom (store : RedisAtFirehoseCursorStore) (cursorExclusive limit : Int) :
    List FirehoseEventEnvelope :=
  if limit < 1 then []
  else
    let above := store.index.filter fun (seq : Nat) => max (-1) cursorExclusive < seq
    (above.take limit.toNat).filterMap fun seq => parseStoredEnvelope (store.events seq)

def latestSeq (store : RedisAtFirehoseCursorStore) : Nat :=
  match store.latest with
  | some latest => latest
  | none => store.index.getLast?.getD 0

end RedisAtFirehoseCursorStore

/-- `ensureSeqCounterInitialised` on a store whose `latestSeq` this is. -/
def initialSeqCounter (latest : Nat) : Nat := latest

def nextSeq (seqCounter : Nat) : Nat := seqCounter + 1

@[simp] theorem parse_stringify (event : FirehoseEventEnvelope) :
    parseStoredEnvelope (some (stringify event)) = some event := by
  obtain ⟨seq, type, encoded, emittedAt⟩ := event
  have read : FrameType.ofText type.text = some type := by cases type <;> decide +kernel
  simp [parseStoredEnvelope, stringify, read]

end MastopodFederation.Source.FirehoseCursorStore
