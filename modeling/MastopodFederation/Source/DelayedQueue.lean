import MastopodFederation.Lib.LuaTable

/-!
# Ready and delayed stream entries of outbox intents and outbound jobs

`serializeOutboxIntent`, `serializeOutboundJob` and their deserializers of
queue/sidecar-redis-queue-core.ts; parking and promotion of
delivery/outbox-intent-delay-scheduler.ts and queue/sidecar-redis-queue.ts with
their Lua scripts. JSON texts, Lua's and JavaScript's number printing and the
stream payload codec are parameters.
-/
namespace MastopodFederation.Source.DelayedQueue
open Lib.LuaTable

/-- JSON and number texts of JavaScript and of Redis Lua. -/
structure Runtime where
  stringify : Json → String
  parse : String → Except String Json
  cjsonDecode : String → Option Lua
  cjsonEncode : Lua → String
  /-- the number that JavaScript reads where cjson.encode printed a number -/
  reprint : Rat → Rat
  numberToString : Int → String
  parseInt : String → Int
  luaToString : Rat → String
  /-- `tonumber` accepts the string -/
  numeral : String → Bool

/-- RedisStreamPayloadCodec. -/
structure PayloadCodec where
  encode : String → Except String String
  decode : String → Except String String

structure OutboxIntent where
  intentId : String
  activityId : String
  actorUri : String
  activity : String
  targets : List Json
  createdAt : Int
  attempt : Int
  maxAttempts : Int
  notBeforeMs : Int
  lastError : Option String
  metaJson : Option Json
  bridgeHints : Option Json

structure OutboundJob where
  jobId : String
  activityId : String
  actorUri : String
  activity : String
  targetInbox : String
  targetDomain : String
  attempt : Int
  maxAttempts : Int
  notBeforeMs : Int
  deferCount : Option Int
  lastError : Option String
  metaJson : Option Json

/-- The fields of a stream entry. -/
abbrev Fields := List (String × String)

def isObject : Json → Bool
  | .obj _ => true
  | _ => false

def jsTruthy : Json → Bool
  | .null => false
  | .bool value => value
  | .num value => value ≠ 0
  | .str value => value ≠ ""
  | .arr _ | .obj _ => true

/-- `value ?? other` -/
def orElse (value other : Option Json) : Option Json :=
  match value with
  | none | some .null => other
  | some value => some value

section Ready
variable (rt : Runtime) (codec : PayloadCodec)

/-- `value ? JSON.stringify(value) : ""` -/
def stringifyOptional : Option Json → String
  | some value => if jsTruthy value then rt.stringify value else ""
  | none => ""

def serializeOutboxIntent (intent : OutboxIntent) : Except String Fields := do
  let targets := rt.stringify (.arr intent.targets)
  let activity ← codec.encode intent.activity
  let encodedTargets ← codec.encode targets
  return [
    ("intentId", intent.intentId),
    ("activityId", intent.activityId),
    ("actorUri", intent.actorUri),
    ("activity", activity),
    ("targets", encodedTargets),
    ("createdAt", rt.numberToString intent.createdAt),
    ("attempt", rt.numberToString intent.attempt),
    ("maxAttempts", rt.numberToString intent.maxAttempts),
    ("notBeforeMs", rt.numberToString intent.notBeforeMs),
    ("lastError", intent.lastError.getD ""),
    ("meta", stringifyOptional rt intent.metaJson),
    ("bridgeHints", stringifyOptional rt intent.bridgeHints)]

def serializeOutboundJob (job : OutboundJob) : Except String Fields := do
  let activity ← codec.encode job.activity
  return [
    ("jobId", job.jobId),
    ("activityId", job.activityId),
    ("actorUri", job.actorUri),
    ("activity", activity),
    ("targetInbox", job.targetInbox),
    ("targetDomain", job.targetDomain),
    ("attempt", rt.numberToString job.attempt),
    ("maxAttempts", rt.numberToString job.maxAttempts),
    ("notBeforeMs", rt.numberToString job.notBeforeMs),
    ("deferCount", rt.numberToString (job.deferCount.getD 0)),
    ("lastError", job.lastError.getD ""),
    ("meta", stringifyOptional rt job.metaJson)]

def requireField (fields : Fields) (key messageId : String) : Except String String :=
  match fields.lookup key with
  | some value => .ok value
  | none => .error ("Stream message " ++ messageId ++ " missing required field " ++ key)

/-- `fields[key] || undefined` -/
def optionalText (fields : Fields) (key : String) : Option String :=
  (fields.lookup key).filter (· ≠ "")

/-- `fields[key] ? JSON.parse(fields[key]) : undefined` -/
def optionalJson (fields : Fields) (key : String) : Except String (Option Json) :=
  match optionalText fields key with
  | some text => (rt.parse text).map some
  | none => .ok none

def requireInt (fields : Fields) (key messageId : String) : Except String Int :=
  (requireField fields key messageId).map rt.parseInt

def deserializeOutboxIntent (messageId : String) (fields : Fields) :
    Except String OutboxIntent := do
  let rawTargets ← codec.decode (← requireField fields "targets" messageId)
  let parsedTargets ← rt.parse rawTargets
  match parsedTargets with
  | .arr targets =>
    let intentId ← requireField fields "intentId" messageId
    let activityId ← requireField fields "activityId" messageId
    let actorUri ← requireField fields "actorUri" messageId
    let activity ← codec.decode (← requireField fields "activity" messageId)
    let createdAt ← requireInt rt fields "createdAt" messageId
    let attempt ← requireInt rt fields "attempt" messageId
    let maxAttempts ← requireInt rt fields "maxAttempts" messageId
    let notBeforeMs ← requireInt rt fields "notBeforeMs" messageId
    let metaJson ← optionalJson rt fields "meta"
    let bridgeHints ← optionalJson rt fields "bridgeHints"
    return { intentId, activityId, actorUri, activity, targets, createdAt, attempt, maxAttempts,
             notBeforeMs, lastError := optionalText fields "lastError", metaJson, bridgeHints }
  | _ => throw ("Stream message " ++ messageId ++ " has invalid outbox intent targets")

def deserializeOutboundJob (messageId : String) (fields : Fields) : Except String OutboundJob := do
  let jobId ← requireField fields "jobId" messageId
  let activityId ← requireField fields "activityId" messageId
  let actorUri ← requireField fields "actorUri" messageId
  let activity ← codec.decode (← requireField fields "activity" messageId)
  let targetInbox ← requireField fields "targetInbox" messageId
  let targetDomain ← requireField fields "targetDomain" messageId
  let attempt ← requireInt rt fields "attempt" messageId
  let maxAttempts ← requireInt rt fields "maxAttempts" messageId
  let notBeforeMs ← requireInt rt fields "notBeforeMs" messageId
  let deferCount := rt.parseInt ((optionalText fields "deferCount").getD "0")
  let metaJson ← optionalJson rt fields "meta"
  return { jobId, activityId, actorUri, activity, targetInbox, targetDomain, attempt, maxAttempts,
           notBeforeMs, deferCount := some deferCount
           lastError := optionalText fields "lastError", metaJson }

end Ready

def number (value : Int) : Json := .num value

def optionalEntry (key : String) (value : Option Json) : List (String × Json) :=
  value.toList.map fun v => (key, v)

/-- The object that `JSON.stringify(intent)` prints; undefined fields are dropped. -/
def OutboxIntent.toJson (intent : OutboxIntent) : Json :=
  .obj ([
    ("intentId", .str intent.intentId),
    ("activityId", .str intent.activityId),
    ("actorUri", .str intent.actorUri),
    ("activity", .str intent.activity),
    ("targets", .arr intent.targets),
    ("createdAt", number intent.createdAt),
    ("attempt", number intent.attempt),
    ("maxAttempts", number intent.maxAttempts),
    ("notBeforeMs", number intent.notBeforeMs)] ++
    optionalEntry "lastError" (intent.lastError.map .str) ++
    optionalEntry "meta" intent.metaJson ++
    optionalEntry "bridgeHints" intent.bridgeHints)

def OutboundJob.toJson (job : OutboundJob) : Json :=
  .obj ([
    ("jobId", .str job.jobId),
    ("activityId", .str job.activityId),
    ("actorUri", .str job.actorUri),
    ("activity", .str job.activity),
    ("targetInbox", .str job.targetInbox),
    ("targetDomain", .str job.targetDomain),
    ("attempt", number job.attempt),
    ("maxAttempts", number job.maxAttempts),
    ("notBeforeMs", number job.notBeforeMs)] ++
    optionalEntry "deferCount" (job.deferCount.map number) ++
    optionalEntry "lastError" (job.lastError.map .str) ++
    optionalEntry "meta" job.metaJson)

/-- The payload hash of a delayed queue. -/
abbrev PayloadHash := String → Option String

section Lua
variable (rt : Runtime)

/-- `value[key]`; `none` is nil. -/
def luaField : Lua → String → Option Lua
  | .table _ entries, key => entries.lookup key
  | _, _ => none

/-- `tonumber(value) or 0` of a decoded number. -/
def numberOrZero : Option Lua → Rat
  | some (.num value) => value
  | _ => 0

/-- A later attempt wins; for the same attempt the later deadline does. -/
def keepsExisting (existing : Option String) (attempt notBeforeMs : Int) : Bool :=
  match existing.bind rt.cjsonDecode with
  | none => false
  | some decoded =>
    let oldAttempt := numberOrZero (luaField decoded "attempt")
    let oldNotBefore := numberOrZero (luaField decoded "notBeforeMs")
    oldAttempt > attempt || (oldAttempt == attempt && oldNotBefore ≥ notBeforeMs)

def park (payloads : PayloadHash) (id : String) (attempt notBeforeMs : Int) (text : String) :
    PayloadHash :=
  if keepsExisting rt (payloads id) attempt notBeforeMs then payloads
  else fun key => if key = id then some text else payloads key

def persistReplacement (payloads : PayloadHash) (intent : OutboxIntent) : PayloadHash :=
  park rt payloads intent.intentId intent.attempt intent.notBeforeMs (rt.stringify intent.toJson)

def parkDelayedOutbound (payloads : PayloadHash) (job : OutboundJob) : PayloadHash :=
  park rt payloads job.jobId job.attempt job.notBeforeMs (rt.stringify job.toJson)

def luaIsString : Option Lua → Bool
  | some (.str _) => true
  | _ => false

def luaIsTable : Option Lua → Bool
  | some (.table _ _) => true
  | _ => false

/-- `tonumber(value)` is not nil. -/
def luaIsNumber : Option Lua → Bool
  | some (.num _) => true
  | some (.str text) => rt.numeral text
  | _ => false

/-- `tostring(value)` -/
def luaTostring : Option Lua → String
  | none => "nil"
  | some .null => "userdata: NULL"
  | some (.bool value) => if value then "true" else "false"
  | some (.num value) => rt.luaToString value
  | some (.str text) => text
  | some (.table _ _) => "table"

/-- `value or fallback` -/
def luaOr (value : Option Lua) (fallback : Lua) : Lua :=
  match value with
  | none | some (.bool false) => fallback
  | some v => v

/-- A string argument of redis.call; numbers are not passed unprinted. -/
def luaArg : Option Lua → Except String String
  | some (.str text) => .ok text
  | _ => .error "Lua redis lib command arguments must be strings or integers"

/-- `value ~= nil and cjson.encode(value) or ''` -/
def encodeOptional : Option Lua → String
  | some value => rt.cjsonEncode value
  | none => ""

/-- A promoted entry of the ready stream, or a dead letter and its reason. -/
inductive Promoted where
  | ready (fields : Fields)
  | dead (reason : String)

def validIntent (id : String) (decoded : Lua) : Bool :=
  (match luaField decoded "intentId" with | some (.str text) => text == id | _ => false) &&
    luaIsString (luaField decoded "activityId") && luaIsString (luaField decoded "actorUri") &&
    luaIsString (luaField decoded "activity") && luaIsTable (luaField decoded "targets") &&
    luaIsNumber rt (luaField decoded "createdAt") && luaIsNumber rt (luaField decoded "attempt") &&
    luaIsNumber rt (luaField decoded "maxAttempts") &&
    luaIsNumber rt (luaField decoded "notBeforeMs")

/-- The script of `promoteDue` for one due id; an error is a script error. -/
def promoteIntent (payload : Option String) (id : String) : Except String Promoted :=
  match payload with
  | none => .ok (.dead "Orphaned delayed outbox-intent schedule entry")
  | some text =>
    match (rt.cjsonDecode text).filter (validIntent rt id) with
    | none => .ok (.dead "Corrupt delayed outbox-intent payload")
    | some intent => do
      let intentId ← luaArg (luaField intent "intentId")
      let activityId ← luaArg (luaField intent "activityId")
      let actorUri ← luaArg (luaField intent "actorUri")
      let activity ← luaArg (luaField intent "activity")
      let lastError ← luaArg (some (luaOr (luaField intent "lastError") (.str "")))
      return .ready [
        ("intentId", intentId),
        ("activityId", activityId),
        ("actorUri", actorUri),
        ("activity", activity),
        ("targets", encodeOptional rt (luaField intent "targets")),
        ("createdAt", luaTostring rt (luaField intent "createdAt")),
        ("attempt", luaTostring rt (luaField intent "attempt")),
        ("maxAttempts", luaTostring rt (luaField intent "maxAttempts")),
        ("notBeforeMs", luaTostring rt (luaField intent "notBeforeMs")),
        ("lastError", lastError),
        ("meta", encodeOptional rt (luaField intent "meta")),
        ("bridgeHints", encodeOptional rt (luaField intent "bridgeHints"))]

/-- The script of `promoteDueOutbound` for one due id; nothing where the payload
is gone. -/
def promoteOutbound (payload : Option String) (id : String) : Except String (Option Fields) :=
  match payload with
  | none => .ok none
  | some text =>
    match rt.cjsonDecode text with
    | none => .error ("invalid delayed outbound payload for " ++ id)
    | some job => do
      let jobId ← luaArg (luaField job "jobId")
      let activityId ← luaArg (luaField job "activityId")
      let actorUri ← luaArg (luaField job "actorUri")
      let activity ← luaArg (luaField job "activity")
      let targetInbox ← luaArg (luaField job "targetInbox")
      let targetDomain ← luaArg (luaField job "targetDomain")
      let lastError ← luaArg (some (luaOr (luaField job "lastError") (.str "")))
      return some [
        ("jobId", jobId),
        ("activityId", activityId),
        ("actorUri", actorUri),
        ("activity", activity),
        ("targetInbox", targetInbox),
        ("targetDomain", targetDomain),
        ("attempt", luaTostring rt (some (luaOr (luaField job "attempt") (.num 0)))),
        ("maxAttempts", luaTostring rt (some (luaOr (luaField job "maxAttempts") (.num 0)))),
        ("notBeforeMs", luaTostring rt (some (luaOr (luaField job "notBeforeMs") (.num 0)))),
        ("deferCount", luaTostring rt (some (luaOr (luaField job "deferCount") (.num 0)))),
        ("lastError", lastError),
        ("meta", encodeOptional rt (luaField job "meta"))]

end Lua

section Paths
variable (rt : Runtime) (codec : PayloadCodec)

def readyIntent (messageId : String) (intent : OutboxIntent) : Except String OutboxIntent := do
  deserializeOutboxIntent rt codec messageId (← serializeOutboxIntent rt codec intent)

/-- Park over `payloads`, promote when due, deserialize; dead letters are errors. -/
def delayedIntent (payloads : PayloadHash) (messageId : String) (intent : OutboxIntent) :
    Except String OutboxIntent := do
  let parked := persistReplacement rt payloads intent
  match ← promoteIntent rt (parked intent.intentId) intent.intentId with
  | .ready fields => deserializeOutboxIntent rt codec messageId fields
  | .dead reason => throw reason

def readyJob (messageId : String) (job : OutboundJob) : Except String OutboundJob := do
  deserializeOutboundJob rt codec messageId (← serializeOutboundJob rt codec job)

def delayedJob (payloads : PayloadHash) (messageId : String) (job : OutboundJob) :
    Except String OutboundJob := do
  let parked := parkDelayedOutbound rt payloads job
  match ← promoteOutbound rt (parked job.jobId) job.jobId with
  | some fields => deserializeOutboundJob rt codec messageId fields
  | none => throw ("no delayed payload for " ++ job.jobId)

end Paths

end MastopodFederation.Source.DelayedQueue
