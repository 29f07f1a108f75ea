import MastopodFederation.Source.DelayedQueue
import MastopodFederation.Source.Retry
import Mathlib.Data.List.DropRight

/-!
# The bridge's consumer of local events

utils/OutboxIntentDeduper.ts as ProtocolBridgeRuntime.ts builds it, without a store,
and `unwrapApSourceEvent`, `handleApSourceEvent` and the treatment of one message in
`processBatch`. A delivery comes with the two clock readings of the claim, in
milliseconds, and with how `ApToAtProjectionWorker.process` ends if it is called.
-/
namespace MastopodFederation.Source.ProtocolBridgeRuntime
open Lib.LuaTable DelayedQueue Retry

/-- White space and line terminators of `trim()`. -/
def isTrimmed (c : Char) : Bool :=
  (0x09 ≤ c.toNat && c.toNat ≤ 0x0d) || c.toNat = 0x20 || c.toNat = 0xa0 || c.toNat = 0x1680 ||
    (0x2000 ≤ c.toNat && c.toNat ≤ 0x200a) || c.toNat = 0x2028 || c.toNat = 0x2029 ||
    c.toNat = 0x202f || c.toNat = 0x205f || c.toNat = 0x3000 || c.toNat = 0xfeff

def trim (text : String) : String :=
  String.ofList ((text.toList.dropWhile isTrimmed).rdropWhile isTrimmed)

/-- `Date.now()` in `prune` and after it -/
structure Readings where
  pruneAt : Nat
  claimAt : Nat

/-- The expiry of each claimed id. -/
abbrev Memory := String → Option Nat

def ttlMs (ttlSeconds : Int) : Nat := (max 1 ttlSeconds).toNat * 1000

def prune (now : Nat) (memory : Memory) : Memory := fun id =>
  (memory id).filter fun expiresAt => now < expiresAt

def setExpiry (memory : Memory) (id : String) (expiresAt : Nat) : Memory := fun other =>
  if other = id then some expiresAt else memory other

/-- An expiry of zero is no expiry: `existing && existing > now` -/
def isLive (now : Nat) : Option Nat → Bool
  | some existing => existing ≠ 0 && now < existing
  | none => false

def claim (ttlSeconds : Int) (clock : Readings) (memory : Memory) (intentId : String) :
    Bool × Memory :=
  let normalized := trim intentId
  if normalized = "" then (true, memory)
  else
    let memory := prune clock.pruneAt memory
    if isLive clock.claimAt (memory normalized) then (false, memory)
    else (true, setExpiry memory normalized (clock.claimAt + ttlMs ttlSeconds))

/-- A Kafka header is not passed on by this runtime. -/
def extractOutboxIntentId (event : List (String × Json)) : Option String :=
  match event.lookup "outboxIntentId" with
  | some (.str id) => if trim id = "" then none else some (trim id)
  | _ => none

abbrev Entries := List (String × Json)

def isText (expected : String) : Option Json → Bool
  | some (.str value) => value = expected
  | _ => false

def isString : Option Json → Bool
  | some (.str _) => true
  | _ => false

/-- The metadata as it is, where its checked fields are there. -/
def asActivityPubBridgeMetadata : Option Json → Option Entries
  | some (.obj candidate) =>
    match candidate.lookup "provenance" with
    | some (.obj provenance) =>
      if isString (candidate.lookup "canonicalIntentId") &&
          (isText "activitypub" (candidate.lookup "sourceProtocol") ||
            isText "atproto" (candidate.lookup "sourceProtocol")) &&
          isString (provenance.lookup "originEventId") then
        some candidate
      else none
    | _ => none
  | _ => none

structure ApSourceWrapper where
  activity : Entries
  bridge : Option Entries
  outboxIntentId : Option String

def unwrapApSourceEvent : Json → Option ApSourceWrapper
  | .obj candidate =>
    match candidate.lookup "activity" with
    | some (.obj activity) =>
      some ⟨activity, asActivityPubBridgeMetadata (candidate.lookup "bridge"),
        extractOutboxIntentId candidate⟩
    | _ =>
      if isString (candidate.lookup "type") && (candidate.lookup "actor").any jsTruthy then
        some ⟨candidate, none, extractOutboxIntentId candidate⟩
      else none
  | _ => none

/-- The record already lives in the other network. -/
def isMirroredFromAt : Option Entries → Bool
  | some bridge =>
    match bridge.lookup "provenance" with
    | some (.obj provenance) =>
      isText "atproto" (provenance.lookup "originProtocol") &&
        isText "mirrored" (provenance.lookup "projectionMode")
    | _ => false
  | none => false

structure Runtime where
  apToAtWorker : Bool
  ttlSeconds : Int

structure Delivery where
  event : Json
  clock : Readings
  processing : Except Thrown Unit

/-- The activity `process` was called with, if it was, and how the handler ended. -/
structure Handled where
  called : Option Entries
  outcome : Except Thrown Unit

def skipped : Handled := ⟨none, .ok ()⟩

section Handlers
variable (rt : Runtime)

def claimOutboxIntent (clock : Readings) (memory : Memory) : Option String → Bool × Memory
  | some outboxIntentId => claim rt.ttlSeconds clock memory outboxIntentId
  | none => (true, memory)

def handleApSourceEvent (memory : Memory) (d : Delivery) : Handled × Memory :=
  if !rt.apToAtWorker then (skipped, memory)
  else
    match unwrapApSourceEvent d.event with
    | none => (skipped, memory)
    | some parsed =>
      let (claimed, memory) := claimOutboxIntent rt d.clock memory parsed.outboxIntentId
      if !claimed then (skipped, memory)
      else if isMirroredFromAt parsed.bridge then (skipped, memory)
      else (⟨some parsed.activity, d.processing⟩, memory)

/-- A transient failure is thrown again and leaves the offset unresolved; any other is
dropped. -/
def resolves : Except Thrown Unit → Bool
  | .ok _ => true
  | .error e => !isTransient e

/-- The deliveries of one message: it comes again until its offset is resolved. -/
def consumeMessage (memory : Memory) : List Delivery → List Handled × Memory
  | [] => ([], memory)
  | d :: again =>
    let (handled, memory) := handleApSourceEvent rt memory d
    if resolves handled.outcome then ([handled], memory)
    else
      let (later, memory) := consumeMessage memory again
      (handled :: later, memory)

/-- The memory after deliveries of any events. -/
def memoryAfter (memory : Memory) (deliveries : List Delivery) : Memory :=
  deliveries.foldl (fun memory d => (handleApSourceEvent rt memory d).2) memory

end Handlers

end MastopodFederation.Source.ProtocolBridgeRuntime
