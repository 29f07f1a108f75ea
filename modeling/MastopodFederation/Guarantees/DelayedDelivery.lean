import Mathlib
import MastopodFederation.Lib.Logged
import MastopodFederation.Source.DelayedQueue

/-!
# The delayed path delivers what the ready path delivers

A parked work item passes through a Lua table before it reaches the ready stream. Empty arrays
come back as objects: an intent without targets is rejected by its consumer after a delay, and
nested empty arrays change their type. Nothing else is lost.
-/
namespace MastopodFederation.Guarantees.DelayedDelivery
open Lib.Logged Lib.LuaTable Source.DelayedQueue

def isEnvelope (text : String) : Bool := "apq1:".toList.isPrefixOf text.toList

structure LawfulCodec (codec : PayloadCodec) : Prop where
  plain : ∀ text, isEnvelope text = false → codec.decode text = .ok text
  inverse : ∀ text encoded, isEnvelope text = false → codec.encode text = .ok encoded →
    codec.decode encoded = .ok text

structure JsonText (rt : Runtime) (value : Json) : Prop where
  parse : rt.parse (rt.stringify value) = .ok value
  decode : rt.cjsonDecode (rt.stringify value) = some value.toLua
  encode : ∃ again, rt.parse (rt.cjsonEncode value.toLua) = .ok again ∧
    Same again (recode rt.reprint value)
  printed : rt.stringify value ≠ "" ∧ isEnvelope (rt.stringify value) = false
  encoded : rt.cjsonEncode value.toLua ≠ "" ∧ isEnvelope (rt.cjsonEncode value.toLua) = false

def ObjectText (rt : Runtime) (value : Option Json) : Prop :=
  ∀ v, value = some v → isObject v = true ∧ JsonText rt v

def OptionalSame (left right : Option Json) : Prop :=
  match left, right with
  | none, none => True
  | some l, some r => Same l r
  | _, _ => False

def OptionalSurvives (rt : Runtime) (value : Option Json) : Prop :=
  ∀ v, value = some v → Survives rt.reprint v

def PrintsAlike (rt : Runtime) (n : Int) : Prop :=
  rt.parseInt (rt.numberToString n) = rt.parseInt (rt.luaToString n)

structure SameIntent (left right : OutboxIntent) : Prop where
  texts : left.intentId = right.intentId ∧ left.activityId = right.activityId ∧
    left.actorUri = right.actorUri ∧ left.activity = right.activity
  targets : Same (.arr left.targets) (.arr right.targets)
  numbers : left.createdAt = right.createdAt ∧ left.attempt = right.attempt ∧
    left.maxAttempts = right.maxAttempts ∧ left.notBeforeMs = right.notBeforeMs
  lastError : left.lastError = right.lastError
  metaJson : OptionalSame left.metaJson right.metaJson
  bridgeHints : OptionalSame left.bridgeHints right.bridgeHints

structure SameJob (left right : OutboundJob) : Prop where
  texts : left.jobId = right.jobId ∧ left.activityId = right.activityId ∧
    left.actorUri = right.actorUri ∧ left.activity = right.activity ∧
    left.targetInbox = right.targetInbox ∧ left.targetDomain = right.targetDomain
  numbers : left.attempt = right.attempt ∧ left.maxAttempts = right.maxAttempts ∧
    left.notBeforeMs = right.notBeforeMs ∧ left.deferCount = right.deferCount
  lastError : left.lastError = right.lastError
  metaJson : OptionalSame left.metaJson right.metaJson

variable {rt : Runtime} {codec : PayloadCodec}

theorem toLuaEntries_eq_map (entries : List (String × Json)) :
    toLuaEntries entries = entries.map fun entry => (entry.1, entry.2.toLua) := by
  induction entries with
  | nil => rfl
  | cons entry rest ih => simp [toLuaEntries, ih]

theorem luaField_obj (entries : List (String × Json)) (key : String) :
    luaField (Json.obj entries).toLua key = (entries.lookup key).map Json.toLua := by
  rw [Json.toLua, luaField, toLuaEntries_eq_map, lookup_map_snd]

theorem lookup_optionalEntry (key k : String) (value : Option Json) :
    (optionalEntry key value).lookup k = if k = key then value else none := by
  cases value with
  | none => simp [optionalEntry]
  | some v =>
    by_cases same : k = key
    · simp [optionalEntry, same]
    · have other : (k == key) = false := beq_eq_false_iff_ne.mpr same
      simp [optionalEntry, List.lookup_cons, other, same]

variable {fields : Fields} {key : String}

theorem optionalText_of_lookup {text : String}
    (field : fields.lookup key = some text) :
    optionalText fields key = if text = "" then none else some text := by
  by_cases empty : text = "" <;> simp [optionalText, field, Option.filter_some, empty]

theorem optionalJson_stringified {value : Option Json}
    (text : ObjectText rt value) (field : fields.lookup key = some (stringifyOptional rt value)) :
    optionalJson rt fields key = .ok value := by
  cases value with
  | none => simp [optionalJson, optionalText_of_lookup field, stringifyOptional]
  | some v =>
    obtain ⟨object, json⟩ := text v rfl
    have truthy : jsTruthy v = true := by
      cases v <;> simp_all [isObject, jsTruthy]
    simp [optionalJson, optionalText_of_lookup field, stringifyOptional, truthy, json.printed.1,
      json.parse, Except.map]

theorem optionalJson_encoded {value : Option Json} (key : String) (text : ObjectText rt value) :
    ∃ again, OptionalSame again (value.map (recode rt.reprint)) ∧
      ∀ fields : Fields, fields.lookup key = some (encodeOptional rt (value.map Json.toLua)) →
        optionalJson rt fields key = .ok again := by
  cases value with
  | none =>
    refine ⟨none, trivial, fun fields field => ?_⟩
    simp [optionalJson, optionalText_of_lookup field, encodeOptional]
  | some v =>
    obtain ⟨_, json⟩ := text v rfl
    obtain ⟨again, parsed, same⟩ := json.encode
    refine ⟨some again, same, fun fields field => ?_⟩
    simp [optionalJson, optionalText_of_lookup field, encodeOptional, json.encoded.1, parsed,
      Except.map]

variable {value : Json}

theorem same_iff_survives {again : Json} (same : Same again (recode rt.reprint value)) :
    Same value again ↔ Survives rt.reprint value := by
  rw [← same_recode_iff]
  exact ⟨fun h => (h.trans same).symm, fun h => h.symm.trans same.symm⟩

theorem optionalSame_iff {value again : Option Json}
    (same : OptionalSame again (value.map (recode rt.reprint))) :
    OptionalSame value again ↔ OptionalSurvives rt value := by
  cases value with
  | none =>
    cases again with
    | none => exact ⟨fun _ => nofun, fun _ => trivial⟩
    | some a => exact absurd same id
  | some v =>
    cases again with
    | none => exact absurd same id
    | some a =>
      simpa [OptionalSame, OptionalSurvives] using same_iff_survives same

/-- An intent whose numbers were printed by `print` and whose JSON values were
read as `targets`, `metaJson` and `bridgeHints`. -/
def received (rt : Runtime) (print : Int → String) (intent : OutboxIntent) (targets : List Json)
    (metaJson bridgeHints : Option Json) : OutboxIntent :=
  { intent with
    targets := targets
    createdAt := rt.parseInt (print intent.createdAt)
    attempt := rt.parseInt (print intent.attempt)
    maxAttempts := rt.parseInt (print intent.maxAttempts)
    notBeforeMs := rt.parseInt (print intent.notBeforeMs)
    lastError := intent.lastError.filter (· ≠ "")
    metaJson := metaJson
    bridgeHints := bridgeHints }

def intentFields (print : Int → String) (intent : OutboxIntent)
    (activity targets metaText hintText : String) : Fields := [
  ("intentId", intent.intentId),
  ("activityId", intent.activityId),
  ("actorUri", intent.actorUri),
  ("activity", activity),
  ("targets", targets),
  ("createdAt", print intent.createdAt),
  ("attempt", print intent.attempt),
  ("maxAttempts", print intent.maxAttempts),
  ("notBeforeMs", print intent.notBeforeMs),
  ("lastError", intent.lastError.getD ""),
  ("meta", metaText),
  ("bridgeHints", hintText)]

theorem lastError_filter (value : Option String) :
    (if value.getD "" = "" then none else some (value.getD "")) = value.filter (· ≠ "") := by
  cases value with
  | none => rfl
  | some text => by_cases empty : text = "" <;> simp [Option.filter_some, empty]

def acceptTargets (messageId : String) (value : Json) (build : List Json → OutboxIntent) :
    Except String OutboxIntent :=
  match value with
  | .arr items => .ok (build items)
  | _ => .error ("Stream message " ++ messageId ++ " has invalid outbox intent targets")

variable {intent : OutboxIntent} {metaJson bridgeHints : Option Json}

theorem deserialize_intentFields (print : Int → String)
    {activity targets metaText hintText messageId targetsText : String}
    (activityPlain : codec.decode activity = .ok intent.activity)
    (targetsPlain : codec.decode targets = .ok targetsText)
    (parsed : rt.parse targetsText = .ok value)
    (metas : optionalJson rt (intentFields print intent activity targets metaText hintText) "meta" =
      .ok metaJson)
    (hints : optionalJson rt (intentFields print intent activity targets metaText hintText)
      "bridgeHints" = .ok bridgeHints) :
    deserializeOutboxIntent rt codec messageId
        (intentFields print intent activity targets metaText hintText) =
      acceptTargets messageId value fun items =>
        received rt print intent items metaJson bridgeHints := by
  have error : optionalText (intentFields print intent activity targets metaText hintText)
      "lastError" = intent.lastError.filter (· ≠ "") := by
    rw [optionalText_of_lookup (show _ = some (intent.lastError.getD "") from rfl), lastError_filter]
  have field : ∀ key text, (intentFields print intent activity targets metaText hintText).lookup key =
      some text → requireField (intentFields print intent activity targets metaText hintText) key
        messageId = .ok text := by
    intro key text found
    simp [requireField, found]
  simp only [deserializeOutboxIntent, requireInt, metas, hints, error, field "targets" targets rfl,
    field "intentId" intent.intentId rfl, field "activityId" intent.activityId rfl,
    field "actorUri" intent.actorUri rfl, field "activity" activity rfl,
    field "createdAt" (print intent.createdAt) rfl, field "attempt" (print intent.attempt) rfl,
    field "maxAttempts" (print intent.maxAttempts) rfl,
    field "notBeforeMs" (print intent.notBeforeMs) rfl]
  simp only [bind, Except.bind, targetsPlain, activityPlain, parsed, Except.map]
  cases value <;> rfl

structure IntentTexts (rt : Runtime) (intent : OutboxIntent) : Prop where
  activity : isEnvelope intent.activity = false
  whole : rt.cjsonDecode (rt.stringify intent.toJson) = some intent.toJson.toLua
  targets : JsonText rt (.arr intent.targets)
  metaJson : ObjectText rt intent.metaJson
  bridgeHints : ObjectText rt intent.bridgeHints

theorem readyIntent_eq (lawful : LawfulCodec codec)
    (texts : IntentTexts rt intent)
    (serialized : serializeOutboxIntent rt codec intent = .ok fields) (messageId : String) :
    readyIntent rt codec messageId intent = .ok (received rt rt.numberToString intent
      intent.targets intent.metaJson intent.bridgeHints) := by
  have whole := serialized
  simp only [serializeOutboxIntent, except_bind_ok] at serialized
  obtain ⟨activity, encodedActivity, targets, encodedTargets, listed⟩ := serialized
  cases listed
  rw [readyIntent, whole]
  exact deserialize_intentFields rt.numberToString
    (lawful.inverse _ _ texts.activity encodedActivity)
    (lawful.inverse _ _ texts.targets.printed.2 encodedTargets) texts.targets.parse
    (optionalJson_stringified texts.metaJson rfl) (optionalJson_stringified texts.bridgeHints rfl)

variable {payloads : PayloadHash}

theorem park_fresh {id text : String} {attempt notBeforeMs : Int}
    (fresh : payloads id = none) :
    park rt payloads id attempt notBeforeMs text id = some text := by
  simp [park, keepsExisting, fresh]

theorem luaField_intent (intent : OutboxIntent) :
    let decoded := intent.toJson.toLua
    luaField decoded "intentId" = some (.str intent.intentId) ∧
    luaField decoded "activityId" = some (.str intent.activityId) ∧
    luaField decoded "actorUri" = some (.str intent.actorUri) ∧
    luaField decoded "activity" = some (.str intent.activity) ∧
    luaField decoded "targets" = some (Json.arr intent.targets).toLua ∧
    luaField decoded "createdAt" = some (.num intent.createdAt) ∧
    luaField decoded "attempt" = some (.num intent.attempt) ∧
    luaField decoded "maxAttempts" = some (.num intent.maxAttempts) ∧
    luaField decoded "notBeforeMs" = some (.num intent.notBeforeMs) ∧
    luaField decoded "lastError" = intent.lastError.map .str ∧
    luaField decoded "meta" = intent.metaJson.map Json.toLua ∧
    luaField decoded "bridgeHints" = intent.bridgeHints.map Json.toLua := by
  simp only [OutboxIntent.toJson, luaField_obj, List.lookup_append, lookup_optionalEntry]
  refine ⟨rfl, rfl, rfl, rfl, rfl, rfl, rfl, rfl, rfl, ?_, ?_, ?_⟩
  · cases intent.lastError <;> simp [List.lookup_cons, Json.toLua]
  · simp [List.lookup_cons]
  · simp [List.lookup_cons]

theorem promoteIntent_eq (texts : IntentTexts rt intent) :
    promoteIntent rt (some (rt.stringify intent.toJson)) intent.intentId =
      .ok (.ready (intentFields (fun n => rt.luaToString n) intent intent.activity
        (rt.cjsonEncode (Json.arr intent.targets).toLua)
        (encodeOptional rt (intent.metaJson.map Json.toLua))
        (encodeOptional rt (intent.bridgeHints.map Json.toLua)))) := by
  obtain ⟨id, activityId, actorUri, activity, targets, createdAt, attempt, maxAttempts,
    notBeforeMs, lastError, metas, hints⟩ := luaField_intent intent
  have valid : validIntent rt intent.intentId intent.toJson.toLua = true := by
    simp [validIntent, id, activityId, actorUri, activity, targets, createdAt, attempt,
      maxAttempts, notBeforeMs, luaIsString, luaIsTable, luaIsNumber, Json.toLua]
  have error : luaArg (some (luaOr (luaField intent.toJson.toLua "lastError") (.str ""))) =
      .ok (intent.lastError.getD "") := by
    rw [lastError]
    cases intent.lastError <;> rfl
  simp only [promoteIntent, texts.whole, Option.filter_some, valid, if_true, error]
  simp only [id, activityId, actorUri, activity, targets, createdAt, attempt, maxAttempts,
    notBeforeMs, metas, hints]
  rfl

theorem delayedIntent_eq
    (lawful : LawfulCodec codec) (texts : IntentTexts rt intent)
    (fresh : payloads intent.intentId = none) (messageId : String)
    (parsed : rt.parse (rt.cjsonEncode (Json.arr intent.targets).toLua) = .ok value)
    (metas : ∀ fields, fields.lookup "meta" =
        some (encodeOptional rt (intent.metaJson.map Json.toLua)) →
      optionalJson rt fields "meta" = .ok metaJson)
    (hints : ∀ fields, fields.lookup "bridgeHints" =
        some (encodeOptional rt (intent.bridgeHints.map Json.toLua)) →
      optionalJson rt fields "bridgeHints" = .ok bridgeHints) :
    delayedIntent rt codec payloads messageId intent =
      acceptTargets messageId value fun items =>
        received rt (fun n => rt.luaToString n) intent items metaJson bridgeHints := by
  rw [delayedIntent, persistReplacement, park_fresh fresh, promoteIntent_eq texts]
  exact deserialize_intentFields _ (lawful.plain _ texts.activity)
    (lawful.plain _ texts.targets.encoded.2) parsed (metas _ rfl) (hints _ rfl)

variable {metaJson' : Option Json}

theorem sameIntent_received_iff {print print' : Int → String}
    {targets targets' : List Json} {bridgeHints' : Option Json} :
    SameIntent (received rt print intent targets metaJson bridgeHints)
        (received rt print' intent targets' metaJson' bridgeHints') ↔
      Same (.arr targets) (.arr targets') ∧ OptionalSame metaJson metaJson' ∧
        OptionalSame bridgeHints bridgeHints' ∧
        ∀ n ∈ [intent.createdAt, intent.attempt, intent.maxAttempts, intent.notBeforeMs],
          rt.parseInt (print n) = rt.parseInt (print' n) := by
  constructor
  · rintro ⟨_, same, ⟨a, b, c, d⟩, _, metas, hints⟩
    simp only [List.forall_mem_cons, List.not_mem_nil, false_implies, implies_true, and_true]
    exact ⟨same, metas, hints, a, b, c, d⟩
  · rintro ⟨same, metas, hints, numbers⟩
    simp only [List.forall_mem_cons, List.not_mem_nil, false_implies, implies_true,
      and_true] at numbers
    exact ⟨⟨rfl, rfl, rfl, rfl⟩, same, numbers, rfl, metas, hints⟩

def IntentDelivered (rt : Runtime) (codec : PayloadCodec) (payloads : PayloadHash)
    (messageId : String) (intent : OutboxIntent) : Prop :=
  ∃ ready delayed, readyIntent rt codec messageId intent = .ok ready ∧
    delayedIntent rt codec payloads messageId intent = .ok delayed ∧ SameIntent ready delayed

/-- Some target, no JSON value with an empty array or an inexact number in it, and
all numbers printed alike. -/
structure IntentSurvives (rt : Runtime) (intent : OutboxIntent) : Prop where
  targets : Survives rt.reprint (.arr intent.targets)
  metaJson : OptionalSurvives rt intent.metaJson
  bridgeHints : OptionalSurvives rt intent.bridgeHints
  numbers : ∀ n ∈ [intent.createdAt, intent.attempt, intent.maxAttempts, intent.notBeforeMs],
    PrintsAlike rt n

theorem intent_delivered_iff
    (lawful : LawfulCodec codec) (texts : IntentTexts rt intent)
    (fresh : payloads intent.intentId = none)
    (serialized : serializeOutboxIntent rt codec intent = .ok fields) (messageId : String) :
    IntentDelivered rt codec payloads messageId intent ↔ IntentSurvives rt intent := by
  obtain ⟨value, parsed, same⟩ := texts.targets.encode
  obtain ⟨metaAgain, metaSame, metas⟩ := optionalJson_encoded "meta" texts.metaJson
  obtain ⟨hintsAgain, hintSame, hints⟩ :=
    optionalJson_encoded "bridgeHints" texts.bridgeHints
  rw [IntentDelivered, readyIntent_eq lawful texts serialized,
    delayedIntent_eq lawful texts fresh messageId parsed metas hints]
  have survives : IntentSurvives rt intent ↔ Same (.arr intent.targets) value ∧
      OptionalSame intent.metaJson metaAgain ∧ OptionalSame intent.bridgeHints hintsAgain ∧
      ∀ n ∈ [intent.createdAt, intent.attempt, intent.maxAttempts, intent.notBeforeMs],
        PrintsAlike rt n := by
    rw [optionalSame_iff metaSame, optionalSame_iff hintSame, same_iff_survives same]
    exact ⟨fun h => ⟨h.targets, h.metaJson, h.bridgeHints, h.numbers⟩,
      fun h => ⟨h.1, h.2.1, h.2.2.1, h.2.2.2⟩⟩
  rw [survives]
  constructor
  · rintro ⟨_, _, ⟨rfl⟩, accepted, sameIntent⟩
    cases value with
    | arr items =>
      cases accepted
      exact sameIntent_received_iff.mp sameIntent
    | _ => cases accepted
  · rintro ⟨sameTargets, rest⟩
    cases value with
    | arr items => exact ⟨_, _, rfl, rfl, sameIntent_received_iff.mpr ⟨sameTargets, rest⟩⟩
    | _ => cases sameTargets

def receivedJob (rt : Runtime) (print : Int → String) (job : OutboundJob)
    (metaJson : Option Json) : OutboundJob :=
  { job with
    attempt := rt.parseInt (print job.attempt)
    maxAttempts := rt.parseInt (print job.maxAttempts)
    notBeforeMs := rt.parseInt (print job.notBeforeMs)
    deferCount := some (rt.parseInt (print (job.deferCount.getD 0)))
    lastError := job.lastError.filter (· ≠ "")
    metaJson := metaJson }

def jobFields (print : Int → String) (job : OutboundJob) (activity metaText : String) : Fields := [
  ("jobId", job.jobId),
  ("activityId", job.activityId),
  ("actorUri", job.actorUri),
  ("activity", activity),
  ("targetInbox", job.targetInbox),
  ("targetDomain", job.targetDomain),
  ("attempt", print job.attempt),
  ("maxAttempts", print job.maxAttempts),
  ("notBeforeMs", print job.notBeforeMs),
  ("deferCount", print (job.deferCount.getD 0)),
  ("lastError", job.lastError.getD ""),
  ("meta", metaText)]

variable {job : OutboundJob}

theorem deserialize_jobFields (print : Int → String)
    {activity metaText messageId : String}
    (activityPlain : codec.decode activity = .ok job.activity)
    (printed : print (job.deferCount.getD 0) ≠ "")
    (metas : optionalJson rt (jobFields print job activity metaText) "meta" = .ok metaJson) :
    deserializeOutboundJob rt codec messageId (jobFields print job activity metaText) =
      .ok (receivedJob rt print job metaJson) := by
  have error : optionalText (jobFields print job activity metaText) "lastError" =
      job.lastError.filter (· ≠ "") := by
    rw [optionalText_of_lookup (show _ = some (job.lastError.getD "") from rfl), lastError_filter]
  have defer : optionalText (jobFields print job activity metaText) "deferCount" =
      some (print (job.deferCount.getD 0)) := by
    rw [optionalText_of_lookup (show _ = some (print (job.deferCount.getD 0)) from rfl), if_neg printed]
  have field : ∀ key text, (jobFields print job activity metaText).lookup key = some text →
      requireField (jobFields print job activity metaText) key messageId = .ok text := by
    intro key text found
    simp [requireField, found]
  simp only [deserializeOutboundJob, requireInt, metas, error, defer, field "jobId" job.jobId rfl,
    field "activityId" job.activityId rfl, field "actorUri" job.actorUri rfl,
    field "activity" activity rfl, field "targetInbox" job.targetInbox rfl,
    field "targetDomain" job.targetDomain rfl, field "attempt" (print job.attempt) rfl,
    field "maxAttempts" (print job.maxAttempts) rfl,
    field "notBeforeMs" (print job.notBeforeMs) rfl]
  simp only [bind, Except.bind, activityPlain, Except.map]
  rfl

structure JobTexts (rt : Runtime) (job : OutboundJob) : Prop where
  activity : isEnvelope job.activity = false
  whole : rt.cjsonDecode (rt.stringify job.toJson) = some job.toJson.toLua
  metaJson : ObjectText rt job.metaJson
  deferCount : rt.numberToString (job.deferCount.getD 0) ≠ "" ∧
    rt.luaToString (job.deferCount.getD 0 : Int) ≠ ""

theorem readyJob_eq (lawful : LawfulCodec codec) (texts : JobTexts rt job)
    (serialized : serializeOutboundJob rt codec job = .ok fields)
    (messageId : String) :
    readyJob rt codec messageId job = .ok (receivedJob rt rt.numberToString job job.metaJson) := by
  have whole := serialized
  simp only [serializeOutboundJob, except_bind_ok] at serialized
  obtain ⟨activity, encodedActivity, listed⟩ := serialized
  cases listed
  rw [readyJob, whole]
  exact deserialize_jobFields rt.numberToString
    (lawful.inverse _ _ texts.activity encodedActivity) texts.deferCount.1
    (optionalJson_stringified texts.metaJson rfl)

theorem luaField_job (job : OutboundJob) :
    let decoded := job.toJson.toLua
    luaField decoded "jobId" = some (.str job.jobId) ∧
    luaField decoded "activityId" = some (.str job.activityId) ∧
    luaField decoded "actorUri" = some (.str job.actorUri) ∧
    luaField decoded "activity" = some (.str job.activity) ∧
    luaField decoded "targetInbox" = some (.str job.targetInbox) ∧
    luaField decoded "targetDomain" = some (.str job.targetDomain) ∧
    luaField decoded "attempt" = some (.num job.attempt) ∧
    luaField decoded "maxAttempts" = some (.num job.maxAttempts) ∧
    luaField decoded "notBeforeMs" = some (.num job.notBeforeMs) ∧
    luaField decoded "deferCount" = job.deferCount.map (fun n => .num n) ∧
    luaField decoded "lastError" = job.lastError.map .str ∧
    luaField decoded "meta" = job.metaJson.map Json.toLua := by
  simp only [OutboundJob.toJson, luaField_obj, List.lookup_append, lookup_optionalEntry]
  refine ⟨rfl, rfl, rfl, rfl, rfl, rfl, rfl, rfl, rfl, ?_, ?_, ?_⟩
  · cases job.deferCount <;> simp [List.lookup_cons, Json.toLua, number]
  · cases job.lastError <;> simp [List.lookup_cons, Json.toLua]
  · simp [List.lookup_cons]

theorem promoteOutbound_eq (texts : JobTexts rt job) :
    promoteOutbound rt (some (rt.stringify job.toJson)) job.jobId =
      .ok (some (jobFields (fun n => rt.luaToString n) job job.activity
        (encodeOptional rt (job.metaJson.map Json.toLua)))) := by
  obtain ⟨jobId, activityId, actorUri, activity, targetInbox, targetDomain, attempt, maxAttempts,
    notBeforeMs, deferCount, lastError, metas⟩ := luaField_job job
  have error : luaArg (some (luaOr (luaField job.toJson.toLua "lastError") (.str ""))) =
      .ok (job.lastError.getD "") := by
    rw [lastError]
    cases job.lastError <;> rfl
  have defer : luaOr (luaField job.toJson.toLua "deferCount") (.num 0) =
      .num (job.deferCount.getD 0 : Int) := by
    rw [deferCount]
    cases job.deferCount <;> rfl
  simp only [promoteOutbound, texts.whole, error, defer]
  simp only [jobId, activityId, actorUri, activity, targetInbox, targetDomain, attempt,
    maxAttempts, notBeforeMs, metas]
  rfl

def JobDelivered (rt : Runtime) (codec : PayloadCodec) (payloads : PayloadHash)
    (messageId : String) (job : OutboundJob) : Prop :=
  ∃ ready delayed, readyJob rt codec messageId job = .ok ready ∧
    delayedJob rt codec payloads messageId job = .ok delayed ∧ SameJob ready delayed

structure JobSurvives (rt : Runtime) (job : OutboundJob) : Prop where
  metaJson : OptionalSurvives rt job.metaJson
  numbers : ∀ n ∈ [job.attempt, job.maxAttempts, job.notBeforeMs, job.deferCount.getD 0],
    PrintsAlike rt n

theorem sameJob_received_iff {print print' : Int → String} :
    SameJob (receivedJob rt print job metaJson) (receivedJob rt print' job metaJson') ↔
      OptionalSame metaJson metaJson' ∧
        ∀ n ∈ [job.attempt, job.maxAttempts, job.notBeforeMs, job.deferCount.getD 0],
          rt.parseInt (print n) = rt.parseInt (print' n) := by
  constructor
  · rintro ⟨_, ⟨a, b, c, d⟩, _, metas⟩
    simp only [List.forall_mem_cons, List.not_mem_nil, false_implies, implies_true, and_true]
    exact ⟨metas, a, b, c, Option.some.inj d⟩
  · rintro ⟨metas, numbers⟩
    simp only [List.forall_mem_cons, List.not_mem_nil, false_implies, implies_true,
      and_true] at numbers
    obtain ⟨a, b, c, d⟩ := numbers
    exact ⟨⟨rfl, rfl, rfl, rfl, rfl, rfl⟩, ⟨a, b, c, congrArg some d⟩, rfl, metas⟩

theorem job_delivered_iff
    (lawful : LawfulCodec codec) (texts : JobTexts rt job) (fresh : payloads job.jobId = none)
    (serialized : serializeOutboundJob rt codec job = .ok fields)
    (messageId : String) :
    JobDelivered rt codec payloads messageId job ↔ JobSurvives rt job := by
  obtain ⟨metaAgain, metaSame, metas⟩ := optionalJson_encoded "meta" texts.metaJson
  have delayed : delayedJob rt codec payloads messageId job =
      .ok (receivedJob rt (fun n => rt.luaToString n) job metaAgain) := by
    rw [delayedJob, parkDelayedOutbound, park_fresh fresh, promoteOutbound_eq texts]
    exact deserialize_jobFields _ (lawful.plain _ texts.activity) texts.deferCount.2 (metas _ rfl)
  have survives : JobSurvives rt job ↔ OptionalSame job.metaJson metaAgain ∧
      ∀ n ∈ [job.attempt, job.maxAttempts, job.notBeforeMs, job.deferCount.getD 0],
        PrintsAlike rt n := by
    rw [optionalSame_iff metaSame]
    exact ⟨fun h => ⟨h.metaJson, h.numbers⟩, fun h => ⟨h.1, h.2⟩⟩
  rw [JobDelivered, readyJob_eq lawful texts serialized, delayed, survives]
  constructor
  · rintro ⟨_, _, ⟨rfl⟩, ⟨rfl⟩, same⟩
    exact sameJob_received_iff.mp same
  · intro h
    exact ⟨_, _, rfl, rfl, sameJob_received_iff.mpr h⟩

/-- For every intent and every job that the ready path can serialize, parking and
promoting it delivers the same value exactly when it survives the Lua table: an
intent needs a target, no JSON value may hold an empty array, numbers must print
exactly. -/
theorem delayed_delivers_iff (rt : Runtime) (codec : PayloadCodec) (lawful : LawfulCodec codec)
    (payloads : PayloadHash) (messageId : String) :
    (∀ intent, IntentTexts rt intent → payloads intent.intentId = none →
      (∃ fields, serializeOutboxIntent rt codec intent = .ok fields) →
      (IntentDelivered rt codec payloads messageId intent ↔ IntentSurvives rt intent)) ∧
    ∀ job, JobTexts rt job → payloads job.jobId = none →
      (∃ fields, serializeOutboundJob rt codec job = .ok fields) →
      (JobDelivered rt codec payloads messageId job ↔ JobSurvives rt job) :=
  ⟨fun _ texts fresh ⟨_, serialized⟩ =>
      intent_delivered_iff lawful texts fresh serialized messageId,
    fun _ texts fresh ⟨_, serialized⟩ => job_delivered_iff lawful texts fresh serialized messageId⟩

def plainCodec : PayloadCodec where
  encode := .ok
  decode text :=
    if isEnvelope text then .error "Redis Stream payload uses an unknown compression envelope"
    else .ok text

theorem plainCodec_lawful : LawfulCodec plainCodec where
  plain text plain := by simp [plainCodec, plain]
  inverse text encoded plain same := by
    cases same
    simp [plainCodec, plain]

def deliveryTarget : Json := .obj [("deliveryUrl", .str "https://b.example/inbox")]

def sampleIntent (targets : List Json) : OutboxIntent :=
  ⟨"i1", "a1", "u1", "null", targets, 1700000000000, 1, 8, 1700000060000, none, none, none⟩

def queuedMeta : Json := .obj [("apdmFirstQueuedAtMs", .num 1700000000000)]

def sampleJob : OutboundJob :=
  ⟨"j1", "a1", "u1", "null", "b", "b.example", 1, 8, 1700000060000, none, none, some queuedMeta⟩

def intentText : String :=
  "\x7b\"intentId\":\"i1\",\"activityId\":\"a1\",\"actorUri\":\"u1\",\"activity\":\"null\",\"targets\":[\x7b\"deliveryUrl\":\"https://b.example/inbox\"\x7d],\"createdAt\":1700000000000,\"attempt\":1,\"maxAttempts\":8,\"notBeforeMs\":1700000060000\x7d"

def targetsText : String := "[\x7b\"deliveryUrl\":\"https://b.example/inbox\"\x7d]"

def targetsLuaText : String := "[\x7b\"deliveryUrl\":\"https:\\/\\/b.example\\/inbox\"\x7d]"

def jobText : String :=
  "\x7b\"jobId\":\"j1\",\"activityId\":\"a1\",\"actorUri\":\"u1\",\"activity\":\"null\",\"targetInbox\":\"b\",\"targetDomain\":\"b.example\",\"attempt\":1,\"maxAttempts\":8,\"notBeforeMs\":1700000060000,\"meta\":\x7b\"apdmFirstQueuedAtMs\":1700000000000\x7d\x7d"

def metaText : String := "\x7b\"apdmFirstQueuedAtMs\":1700000000000\x7d"

def isKeyed (key : String) : Json → Bool
  | .obj entries => (entries.lookup key).isSome
  | _ => false

def sampleRuntime : Runtime where
  stringify value :=
    if isKeyed "intentId" value then intentText
    else if isKeyed "jobId" value then jobText
    else if isKeyed "apdmFirstQueuedAtMs" value then metaText
    else targetsText
  parse text :=
    if text = intentText then .ok (sampleIntent [deliveryTarget]).toJson
    else if text = jobText then .ok sampleJob.toJson
    else if text = metaText then .ok queuedMeta
    else .ok (.arr [deliveryTarget])
  cjsonDecode text :=
    if text = intentText then some (sampleIntent [deliveryTarget]).toJson.toLua
    else if text = jobText then some sampleJob.toJson.toLua
    else if text = metaText then some queuedMeta.toLua
    else some (Json.arr [deliveryTarget]).toLua
  cjsonEncode
    | .table (_ :: _) _ => targetsLuaText
    | _ => metaText
  reprint n := n
  numberToString n := toString n
  parseInt text := text.toInt?.getD 0
  luaToString n := toString n.num
  numeral _ := false

theorem sample_printsAlike (n : Int) : PrintsAlike sampleRuntime n := by
  simp [PrintsAlike, sampleRuntime]

theorem sample_texts : targetsText ≠ intentText ∧ targetsText ≠ jobText ∧ targetsText ≠ metaText ∧
    jobText ≠ intentText ∧ metaText ≠ intentText ∧ metaText ≠ jobText := by
  simp [targetsText, intentText, jobText, metaText]

theorem sample_lua_texts : targetsLuaText ≠ intentText ∧ targetsLuaText ≠ jobText ∧
    targetsLuaText ≠ metaText := by
  simp [targetsLuaText, intentText, jobText, metaText]

theorem survives_single {reprint : Rat → Rat}
    (survives : Survives reprint value) : Survives reprint (.obj [(key, value)]) := by
  refine .obj fun k x found => ?_
  rw [List.lookup_cons] at found
  split at found
  · cases found
    exact survives
  · cases found

theorem survives_targets : Survives sampleRuntime.reprint (.arr [deliveryTarget]) :=
  .arr (by simp) fun x mem => by
    rw [List.mem_singleton.mp mem]
    exact survives_single (.str _)

theorem survives_meta : Survives sampleRuntime.reprint queuedMeta := survives_single (.num rfl)

theorem sample_targets : JsonText sampleRuntime (.arr [deliveryTarget]) where
  parse := by simp [sampleRuntime, isKeyed, sample_texts]
  decode := by simp [sampleRuntime, isKeyed, sample_texts]
  encode := by
    refine ⟨.arr [deliveryTarget], ?_, ((same_recode_iff _).mpr survives_targets).symm⟩
    simp [sampleRuntime, Json.toLua, toLuaItems, sample_lua_texts]
  printed := by decide
  encoded := by decide

theorem sample_meta : JsonText sampleRuntime queuedMeta where
  parse := by simp [sampleRuntime, isKeyed, queuedMeta, sample_texts]
  decode := by simp [sampleRuntime, isKeyed, queuedMeta, sample_texts]
  encode := by
    refine ⟨queuedMeta, ?_, ((same_recode_iff _).mpr survives_meta).symm⟩
    simp [sampleRuntime, Json.toLua, queuedMeta, sample_texts]
  printed := by decide
  encoded := by decide

theorem delayed_delivers_sample :
    IntentDelivered sampleRuntime plainCodec (fun _ => none) "1-0" (sampleIntent [deliveryTarget]) ∧
      JobDelivered sampleRuntime plainCodec (fun _ => none) "1-0" sampleJob := by
  have items := delayed_delivers_iff sampleRuntime plainCodec plainCodec_lawful (fun _ => none) "1-0"
  constructor
  · refine (items.1 (sampleIntent [deliveryTarget]) ⟨by decide, ?_, sample_targets, nofun, nofun⟩ rfl
      ⟨_, rfl⟩).mpr ⟨survives_targets, nofun, nofun, fun n _ => sample_printsAlike n⟩
    simp [sampleRuntime, isKeyed, OutboxIntent.toJson]
  · refine (items.2 sampleJob ⟨by decide, ?_, ?_, by decide⟩ rfl ⟨_, rfl⟩).mpr
      ⟨?_, fun n _ => sample_printsAlike n⟩
    · have intentKey : isKeyed "intentId" sampleJob.toJson = false := rfl
      have jobKey : isKeyed "jobId" sampleJob.toJson = true := rfl
      simp [sampleRuntime, intentKey, jobKey, sample_texts]
    · rintro v ⟨rfl⟩
      exact ⟨rfl, sample_meta⟩
    · rintro v ⟨rfl⟩
      exact survives_meta

def emptyIntentText : String :=
  "\x7b\"intentId\":\"i1\",\"activityId\":\"a1\",\"actorUri\":\"u1\",\"activity\":\"null\",\"targets\":[],\"createdAt\":1700000000000,\"attempt\":1,\"maxAttempts\":8,\"notBeforeMs\":1700000060000\x7d"

def emptyRuntime : Runtime :=
  { sampleRuntime with
    stringify := fun value => if isKeyed "intentId" value then emptyIntentText else "[]"
    parse := fun text =>
      if text = emptyIntentText then .ok (sampleIntent []).toJson
      else if text = "[]" then .ok (.arr [])
      else .ok (.obj [])
    cjsonDecode := fun text =>
      if text = emptyIntentText then some (sampleIntent []).toJson.toLua else some (.table [] [])
    cjsonEncode := fun _ => "\x7b\x7d" }

/-- An intent without targets is promoted with `{}` as its targets and rejected
by its consumer. -/
theorem delayed_rejects_empty :
    ¬ ∀ (rt : Runtime) (codec : PayloadCodec) (payloads : PayloadHash) (messageId : String)
        (intent : OutboxIntent), LawfulCodec codec → IntentTexts rt intent →
      payloads intent.intentId = none →
      (∃ fields, serializeOutboxIntent rt codec intent = .ok fields) →
      IntentDelivered rt codec payloads messageId intent := by
  intro claimed
  have targets : JsonText emptyRuntime (.arr []) :=
    { parse := by simp [emptyRuntime, isKeyed, emptyIntentText]
      decode := by simp [emptyRuntime, isKeyed, emptyIntentText, Json.toLua, toLuaItems]
      encode := ⟨.obj [], by simp [emptyRuntime, emptyIntentText], by
        rw [recode_arr_nil]
        exact .obj (fun _ => rfl) (by simp)⟩
      printed := by decide
      encoded := by decide }
  have texts : IntentTexts emptyRuntime (sampleIntent []) :=
    ⟨by decide, by simp [emptyRuntime, isKeyed, OutboxIntent.toJson], targets,
      (fun _ given => by cases given), (fun _ given => by cases given)⟩
  have delivered := claimed emptyRuntime plainCodec (fun _ => none) "1-0" (sampleIntent [])
    plainCodec_lawful texts rfl ⟨_, rfl⟩
  have survives := ((intent_delivered_iff plainCodec_lawful texts rfl rfl "1-0").mp delivered).targets
  cases survives with
  | arr nonempty _ => exact nonempty rfl

end MastopodFederation.Guarantees.DelayedDelivery
