import MastopodFederation.Lib.DueBatches

/-!
# Promotion of delayed records

The promotion scripts of delivery/outbox-intent-delay-scheduler.ts and
queue/sidecar-redis-queue.ts over any content of the schedule and the payload hash.
Lua errors end a script and what was done before stays. cjson, number printing and what
Redis does with a number among the arguments of a command are parameters. A stream entry
carries the id of the delayed record that it was made of.
-/
namespace MastopodFederation.Source.DelayedPromotion
open Lib.DueBatches

/-- A value that cjson.decode returns; `null` is the userdata cjson.null, and a number that is
not finite has no rational. -/
inductive LuaValue where
  | null
  | bool (value : Bool)
  | num (value : Option Rat)
  | str (value : String)
  | table (items : List LuaValue) (entries : List (String × LuaValue))

inductive ScriptError where
  | indexed
  | cannotSerialise
  | badArgument
  | invalidPayload (id : String)

/-- cjson and number texts of Redis Lua. -/
structure Runtime (σ : Type) where
  /-- `none` where cjson.decode raises -/
  cjsonDecode : String → Option LuaValue
  /-- the text of a value that cjson.encode accepts -/
  cjsonEncode : LuaValue → String
  tostring : LuaValue → String
  /-- `tonumber` accepts the string -/
  numeral : String → Bool
  /-- the text of a number among the arguments of redis.call, or `none` where it raises -/
  numberArgument : Option Rat → Option String
  timeText : σ → String

/-- The fields of a stream entry. -/
abbrev Fields := List (String × String)

mutual
/-- cjson.encode raises at a number that is not finite. -/
def encodable : LuaValue → Bool
  | .num value => value.isSome
  | .table items entries => encodableItems items && encodableEntries entries
  | .null | .bool _ | .str _ => true

def encodableItems : List LuaValue → Bool
  | [] => true
  | item :: rest => encodable item && encodableItems rest

def encodableEntries : List (String × LuaValue) → Bool
  | [] => true
  | (_, value) :: rest => encodable value && encodableEntries rest
end

/-- `value.key`: a string is indexed through the string library, where none of the keys of the
scripts is; a number, a boolean and cjson.null raise. -/
def index : LuaValue → String → Except ScriptError (Option LuaValue)
  | .table _ entries, key => .ok (entries.lookup key)
  | .str _, _ => .ok none
  | .null, _ | .bool _, _ | .num _, _ => .error .indexed

def truthy : Option LuaValue → Bool
  | none | some (.bool false) => false
  | some _ => true

/-- `type(value) == 'string'` -/
def isString : Option LuaValue → Bool
  | some (.str _) => true
  | _ => false

/-- `type(value) == 'table'` -/
def isTable : Option LuaValue → Bool
  | some (.table _ _) => true
  | _ => false

/-- `value == id` -/
def isText (id : String) : Option LuaValue → Bool
  | some (.str value) => value = id
  | _ => false

section
variable {σ : Type} (rt : Runtime σ)

/-- `tonumber(value)` is not nil -/
def tonumber : Option LuaValue → Bool
  | some (.num _) => true
  | some (.str value) => rt.numeral value
  | _ => false

/-- `cjson.encode(value)` -/
def encode (value : LuaValue) : Except ScriptError String :=
  if encodable value then .ok (rt.cjsonEncode value) else .error .cannotSerialise

/-- `''`, or cjson.encode of a field that is not nil -/
def encodeOptional : Option LuaValue → Except ScriptError String
  | none => .ok ""
  | some value => encode rt value

/-- A value among the arguments of redis.call. -/
def argument : Option LuaValue → Except ScriptError String
  | some (.str value) => .ok value
  | some (.num value) =>
    match rt.numberArgument value with
    | some text => .ok text
    | none => .error .badArgument
  | _ => .error .badArgument

/-- `value or ''` among the arguments of redis.call. -/
def argumentOr (value : Option LuaValue) : Except ScriptError String :=
  if truthy value then argument rt value else .ok ""

/-- `tostring(value)` -/
def tostring (value : Option LuaValue) : String := value.elim "nil" rt.tostring

/-- `tostring(value or 0)` -/
def tostringOr (value : Option LuaValue) : String :=
  if truthy value then tostring rt value else rt.tostring (.num (some 0))

/-- What a script does with a due id before it forgets the id. -/
inductive Disposal where
  | ready (fields : Fields)
  | dlq (fields : Fields)
  | dropped

def isIntent (id : String) (decoded : LuaValue) : Except ScriptError Bool := do
  return isText id (← index decoded "intentId") && isString (← index decoded "activityId") &&
    isString (← index decoded "actorUri") && isString (← index decoded "activity") &&
    isTable (← index decoded "targets") && tonumber rt (← index decoded "createdAt") &&
    tonumber rt (← index decoded "attempt") && tonumber rt (← index decoded "maxAttempts") &&
    tonumber rt (← index decoded "notBeforeMs")

def intentFields (intent : LuaValue) : Except ScriptError Fields := do
  let metaText ← encodeOptional rt (← index intent "meta")
  let bridgeHints ← encodeOptional rt (← index intent "bridgeHints")
  let targets ← index intent "targets"
  return [
    ("intentId", ← argument rt (← index intent "intentId")),
    ("activityId", ← argument rt (← index intent "activityId")),
    ("actorUri", ← argument rt (← index intent "actorUri")),
    ("activity", ← argument rt (← index intent "activity")),
    ("targets", ← encode rt (targets.getD .null)),
    ("createdAt", tostring rt (← index intent "createdAt")),
    ("attempt", tostring rt (← index intent "attempt")),
    ("maxAttempts", tostring rt (← index intent "maxAttempts")),
    ("notBeforeMs", tostring rt (← index intent "notBeforeMs")),
    ("lastError", ← argumentOr rt (← index intent "lastError")),
    ("meta", metaText),
    ("bridgeHints", bridgeHints)]

def dlqFields (now : σ) (id : String) (payload : Option String) : Fields :=
  let reason := if payload.isSome then "Corrupt delayed outbox-intent payload"
    else "Orphaned delayed outbox-intent schedule entry"
  let diagnostic := rt.cjsonEncode (.table [] [
    ("intentId", .str id),
    ("delayedPayload", payload.elim .null .str),
    ("scheduler", .str "outbox-intent-delayed-v1")])
  [("type", "outbox_intent"), ("id", id), ("reason", reason), ("timestamp", rt.timeText now),
    ("data", diagnostic)]

/-- One due id of the intents' script. -/
def promoteIntent (now : σ) (id : String) (payload : Option String) :
    Except ScriptError Disposal := do
  match payload.bind rt.cjsonDecode with
  | none | some (.bool false) => return .dlq (dlqFields rt now id payload)
  | some decoded =>
    if ← isIntent rt id decoded then return .ready (← intentFields rt decoded)
    else return .dlq (dlqFields rt now id payload)

def jobFields (job : LuaValue) : Except ScriptError Fields := do
  let metaText ← encodeOptional rt (← index job "meta")
  return [
    ("jobId", ← argument rt (← index job "jobId")),
    ("activityId", ← argument rt (← index job "activityId")),
    ("actorUri", ← argument rt (← index job "actorUri")),
    ("activity", ← argument rt (← index job "activity")),
    ("targetInbox", ← argument rt (← index job "targetInbox")),
    ("targetDomain", ← argument rt (← index job "targetDomain")),
    ("attempt", tostringOr rt (← index job "attempt")),
    ("maxAttempts", tostringOr rt (← index job "maxAttempts")),
    ("notBeforeMs", tostringOr rt (← index job "notBeforeMs")),
    ("deferCount", tostringOr rt (← index job "deferCount")),
    ("lastError", ← argumentOr rt (← index job "lastError")),
    ("meta", metaText)]

/-- One due id of the outbound script: without a payload it is only forgotten, and a payload
that is not JSON is answered with an error reply. -/
def promoteJob (id : String) (payload : Option String) : Except ScriptError Disposal :=
  match payload with
  | none => .ok .dropped
  | some text =>
    match rt.cjsonDecode text with
    | none | some (.bool false) => .error (.invalidPayload id)
    | some job => do return .ready (← jobFields rt job)

end

/-- A stream entry, and the id of the delayed record that it was made of. -/
structure StreamEntry where
  source : String
  fields : Fields

structure Streams where
  ready : List StreamEntry
  dlq : List StreamEntry

/-- XADD -/
def Streams.add (streams : Streams) (id : String) : Disposal → Streams
  | .ready fields => { streams with ready := streams.ready ++ [⟨id, fields⟩] }
  | .dlq fields => { streams with dlq := streams.dlq ++ [⟨id, fields⟩] }
  | .dropped => streams

/-- The ZSET, the payload hash, and the streams. -/
abbrev DelayStore (σ : Type) [LinearOrder σ] := Store σ String String Streams

section
variable {σ : Type} [LinearOrder σ] (rt : Runtime σ)

def promoted : Disposal → Nat
  | .ready _ => 1
  | .dlq _ | .dropped => 0

/-- RedisOutboxIntentDelayScheduler.promoteDue: the store after the script, and its reply. -/
def promoteDue (promotionBatchSize : Nat) (store : DelayStore σ) (now : σ) :
    DelayStore σ × Except ScriptError Nat :=
  let (after, outcome) := duePass (promoteIntent rt now) Streams.add promotionBatchSize store now
  (after, outcome.map fun results => (results.map promoted).sum)

/-- The store after runs at these times. -/
def promoteDueRuns (promotionBatchSize : Nat) (store : DelayStore σ) (times : Nat → σ) :
    Nat → DelayStore σ
  | 0 => store
  | count + 1 =>
    (promoteDue rt promotionBatchSize (promoteDueRuns promotionBatchSize store times count)
      (times count)).1

def delayedOutboundPromotionBatchSize : Nat := 100

def promoteDueOutbound (store : DelayStore σ) (now : σ) :
    DelayStore σ × Except ScriptError Nat :=
  let (after, outcome) :=
    duePass (promoteJob rt) Streams.add delayedOutboundPromotionBatchSize store now
  (after, outcome.map fun results => (results.map promoted).sum)

def promoteDueOutboundRuns (store : DelayStore σ) (times : Nat → σ) : Nat → DelayStore σ
  | 0 => store
  | count + 1 => (promoteDueOutbound rt (promoteDueOutboundRuns store times count) (times count)).1

end
end MastopodFederation.Source.DelayedPromotion
