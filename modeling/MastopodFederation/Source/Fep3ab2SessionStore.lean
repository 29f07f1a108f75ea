import MastopodFederation.Lib.PoolRuns
import MastopodFederation.Source.Fep3ab2Topics

/-!
# Streaming sessions

fep3ab2/Fep3ab2SessionStore.ts over Redis, the handler of session mutations in
Fep3ab2Runtime.ts and the connections of Fep3ab2EventHub.ts as far as sessions change them.
Every Redis command, script and MULTI is one call, a key lives until its deadline by the
one clock, and a published mutation waits in the channel until it is delivered. A ticket's
keyed hash and the user agent's hash are parameters. The topics of a session last as long
as it. What `succeeded` and `revoked` record is read by no code.
-/
namespace MastopodFederation.Source.Fep3ab2SessionStore
open Lib.Calls Lib.WorkerPool Fep3ab2Topics

/-- `PersistedSessionRecord`; times are milliseconds -/
structure SessionRecord where
  sessionId : String
  principal : String
  ticketHash : String
  expiresAt : Nat
  origin : Option String
  userAgentHash : Option String
  deriving DecidableEq, Repr

structure ResolvedSession where
  record : SessionRecord
  topics : List String
  deriving DecidableEq, Repr

structure ConsumeConstraints where
  principal : Option String
  origin : Option String
  userAgent : Option String
  deriving DecidableEq, Repr

structure SessionStoreError where
  message : String
  code : String
  statusCode : Nat
  deriving DecidableEq, Repr

inductive SessionMutationEvent where
  | subscriptionsUpdated (sessionId : String) (topics : List String)
  | revoked (sessionId : String)
  deriving DecidableEq, Repr

structure Config where
  hashTicket : String → String
  sha256Hex : String → String
  codeUnitLe : String → String → Bool
  maxTopicsPerSession : Nat

inductive Call where
  | now
  | ticketGet (ticketHash : String)
  | ticketDel (ticketHash : String)
  | sessionGet (sessionId : String)
  /-- TTL of the session in seconds -/
  | sessionTtl (sessionId : String)
  | topicsCard (sessionId : String)
  | topicsMembers (sessionId : String)
  /-- SET of the consumed marker with NX -/
  | claim (ticketHash sessionId : String) (ttlSeconds : Nat)
  /-- MULTI of `replaceTopics` -/
  | topicsReplace (sessionId : String) (topics : List String)
  /-- ADD_TOPICS_BOUNDED_SCRIPT -/
  | topicsAdd (sessionId : String) (maxTopics : Nat) (topics : List String)
  | topicsRemove (sessionId topic : String)
  /-- MULTI of `revokeByTicket` -/
  | sessionRevoke (sessionId ticketHash : String)
  | publish (event : SessionMutationEvent)
  /-- `registerConnection` of the hub -/
  | registerConnection (sessionId principal : String) (topics : List String)
  /-- `handleSessionStoreError` -/
  | replyError (error : SessionStoreError)
  /-- a ticket was consumed, or its revocation returns -/
  | succeeded (ticketHash : String)
  | revoked (ticketHash : String)
  deriving DecidableEq, Repr

def Reply : Call → Type
  | .now | .topicsCard _ => Nat
  | .ticketGet _ => Option String
  | .sessionGet _ => Option SessionRecord
  | .sessionTtl _ => Int
  | .topicsMembers _ => List String
  | .claim .. => Bool
  | .topicsAdd .. => Int × Nat
  | _ => Unit

abbrev Run := Prog Call Reply SessionStoreError

def now : Run Nat := .call .now pure
def ticketGet (ticketHash : String) : Run (Option String) := .call (.ticketGet ticketHash) pure
def ticketDel (ticketHash : String) : Run Unit := .call (.ticketDel ticketHash) pure
def sessionGet (sessionId : String) : Run (Option SessionRecord) :=
  .call (.sessionGet sessionId) pure
def sessionTtl (sessionId : String) : Run Int := .call (.sessionTtl sessionId) pure
def topicsCard (sessionId : String) : Run Nat := .call (.topicsCard sessionId) pure
def topicsMembers (sessionId : String) : Run (List String) := .call (.topicsMembers sessionId) pure
def claim (ticketHash sessionId : String) (ttlSeconds : Nat) : Run Bool :=
  .call (.claim ticketHash sessionId ttlSeconds) pure
def topicsAdd (sessionId : String) (maxTopics : Nat) (topics : List String) : Run (Int × Nat) :=
  .call (.topicsAdd sessionId maxTopics topics) pure
def topicsReplace (sessionId : String) (topics : List String) : Run Unit :=
  .call (.topicsReplace sessionId topics) pure
def topicsRemove (sessionId topic : String) : Run Unit := .call (.topicsRemove sessionId topic) pure
def sessionRevoke (sessionId ticketHash : String) : Run Unit :=
  .call (.sessionRevoke sessionId ticketHash) pure
def publishMutation (event : SessionMutationEvent) : Run Unit := .call (.publish event) pure
def registerConnection (sessionId principal : String) (topics : List String) : Run Unit :=
  .call (.registerConnection sessionId principal topics) pure
def replyError (error : SessionStoreError) : Run Unit := .call (.replyError error) pure
def succeeded (ticketHash : String) : Run Unit := .call (.succeeded ticketHash) pure
def revoked (ticketHash : String) : Run Unit := .call (.revoked ticketHash) pure

def trimText (text : String) : String := String.ofList (trim text.toList)

@[irreducible] def boundedText (maxLength : Nat) (value : String) : Option String :=
  let normalized := trimText value
  if normalized = "" || utf16Length normalized.toList > maxLength then none else some normalized

def normalizePrincipal (value : String) : Option String := boundedText 4096 value

def normalizeTicket (value : String) : Option String := boundedText 1024 value

def sanitizeOrigin (value : Option String) : Option String := value.bind (boundedText 512)

/-- `FepSubscriptionTopicSchema` -/
def parseSubscriptionTopic (topic : String) : Option String :=
  (boundedText maxTopicLength topic).filter isValidSubscriptionTopic

section Store
variable (config : Config)

/-- A text's first 1024 UTF-16 units are its first characters where none is outside the BMP. -/
def hashUserAgent (value : Option String) : Option String :=
  value.bind fun text =>
    let normalized := trimText text
    if normalized = "" then none
    else some (config.sha256Hex (String.ofList (normalized.toList.take 1024)))

/-- `Array.from(new Set(topics))`, checked and sorted -/
def normalizeTopics (topics : List String) : List String :=
  ((topics.foldl addIfNew []).filterMap parseSubscriptionTopic).mergeSort config.codeUnitLe
where
  addIfNew (kept : List String) (topic : String) : List String :=
    if topic ∈ kept then kept else kept ++ [topic]

def invalidTicket (message : String) : SessionStoreError := ⟨message, "invalid_ticket", 401⟩

def missingTicket : SessionStoreError := invalidTicket "Streaming ticket is missing or expired"

def topicLimitError (observedCount : Nat) : SessionStoreError :=
  ⟨s!"Streaming session topic limit of {config.maxTopicsPerSession} exceeded " ++
    s!"(observed {observedCount})", "topic_limit_exceeded", 409⟩

/-- The session's TTL. -/
def ensureSessionExists (sessionId : String) : Run Int := do
  let ttl ← sessionTtl sessionId
  if ttl = -2 then .fail missingTicket else pure ttl

def assertTopicCountWithinLimit (topicCount : Nat) : Run Unit :=
  if topicCount > config.maxTopicsPerSession then .fail (topicLimitError config topicCount)
  else pure ()

def listTopics (sessionId : String) : Run (List String) := do
  let _ ← ensureSessionExists sessionId
  let topicCount ← topicsCard sessionId
  assertTopicCountWithinLimit config topicCount
  let raw ← topicsMembers sessionId
  assertTopicCountWithinLimit config raw.length
  pure (normalizeTopics config raw)

def resolveSession (ticket : String) : Run (Option ResolvedSession) :=
  match normalizeTicket ticket with
  | none => pure none
  | some normalizedTicket => do
    let ticketHash := config.hashTicket normalizedTicket
    match (← ticketGet ticketHash).filter (· ≠ "") with
    | none => pure none
    | some sessionId =>
      match ← sessionGet sessionId with
      | none => do
        ticketDel ticketHash
        pure none
      | some parsed =>
        if parsed.ticketHash ≠ ticketHash || parsed.sessionId ≠ sessionId then pure none
        else do
          let current ← now
          if parsed.expiresAt ≤ current then pure none
          else do
            let topics ← listTopics config parsed.sessionId
            pure (some ⟨parsed, topics⟩)

def validateSessionConstraints (session : SessionRecord) (constraints : ConsumeConstraints) :
    Except SessionStoreError Unit :=
  if (constraints.principal.filter (· ≠ "")).any
      (some session.principal ≠ normalizePrincipal ·) then
    .error (invalidTicket "Streaming ticket does not belong to the authenticated principal")
  else if session.origin.any (· ≠ "") && (sanitizeOrigin constraints.origin).any
      (session.origin ≠ some ·) then
    .error ⟨"Streaming ticket origin binding does not match the current request origin",
      "origin_mismatch", 401⟩
  else if session.userAgentHash.any (· ≠ "") && (hashUserAgent config constraints.userAgent).any
      (session.userAgentHash ≠ some ·) then
    .error ⟨"Streaming ticket user-agent binding does not match the current request",
      "user_agent_mismatch", 401⟩
  else .ok ()

/-- `max(1, ceil((expiresAt - now) / 1000))` -/
def markerTtl (expiresAt current : Nat) : Nat := max 1 ((expiresAt - current + 999) / 1000)

def consumeStreamTicket (ticket : String) (constraints : ConsumeConstraints) :
    Run ResolvedSession := do
  match ← resolveSession config ticket with
  | none => .fail missingTicket
  | some session =>
    match validateSessionConstraints config session.record constraints with
    | .error error => .fail error
    | .ok _ =>
      let current ← now
      let claimResult ← claim session.record.ticketHash session.record.sessionId
        (markerTtl session.record.expiresAt current)
      if claimResult then do
        succeeded session.record.ticketHash
        pure session
      else .fail ⟨"Streaming ticket has already been used", "ticket_already_used", 409⟩

def replaceTopics (sessionId : String) (topics : List String) : Run (List String) := do
  let normalized := normalizeTopics config topics
  let _ ← ensureSessionExists sessionId
  assertTopicCountWithinLimit config normalized.length
  topicsReplace sessionId normalized
  publishMutation (.subscriptionsUpdated sessionId normalized)
  pure normalized

def addTopics (sessionId : String) (topics : List String) : Run (List String) :=
  let normalized := normalizeTopics config topics
  if normalized.isEmpty then listTopics config sessionId
  else do
    assertTopicCountWithinLimit config normalized.length
    let (status, observedCount) ← topicsAdd sessionId config.maxTopicsPerSession normalized
    if status = -3 then .fail missingTicket
    else if status ≠ 1 then .fail (topicLimitError config observedCount)
    else do
      let topicsAfterAdd ← listTopics config sessionId
      publishMutation (.subscriptionsUpdated sessionId topicsAfterAdd)
      pure topicsAfterAdd

def removeTopic (sessionId topic : String) : Run (List String) := do
  let _ ← ensureSessionExists sessionId
  topicsRemove sessionId topic
  let result ← listTopics config sessionId
  publishMutation (.subscriptionsUpdated sessionId result)
  pure result

/-- The hash of a ticket that is not blank. -/
def ticketHashOf (ticket : String) : Option String :=
  (normalizeTicket ticket).map config.hashTicket

/-- A revocation that returns, for a ticket that is not blank. -/
def revocationReturns (ticket : String) : Run Unit :=
  match ticketHashOf config ticket with
  | none => pure ()
  | some ticketHash => revoked ticketHash

def revokeByTicket (ticket : String) (principal : Option String) : Run Unit := do
  match ← resolveSession config ticket with
  | none => revocationReturns config ticket
  | some session =>
    if (principal.filter (· ≠ "")).any (some session.record.principal ≠ normalizePrincipal ·) then
      .fail (invalidTicket "Streaming ticket does not belong to the authenticated principal")
    else do
      sessionRevoke session.record.sessionId session.record.ticketHash
      publishMutation (.revoked session.record.sessionId)
      revocationReturns config ticket

/-- The part of GET /streaming/stream that makes the connection. -/
def openStream (ticket : String) (constraints : ConsumeConstraints) : Run Unit := do
  match ← (consumeStreamTicket config ticket constraints).attempt with
  | .error error => replyError error
  | .ok session =>
    registerConnection session.record.sessionId session.record.principal session.topics

end Store

/-- A value and the deadline of its key. -/
abbrev Kept (α : Type) := Option (α × Nat)

structure Store where
  clock : Nat
  tickets : String → Kept String
  sessions : String → Kept SessionRecord
  consumed : String → Kept String
  topics : String → List String
  /-- mutations that are published and not yet delivered, the oldest first -/
  channel : List SessionMutationEvent
  /-- the topics of the connections of the hub -/
  connections : String → Option (List String)
  successes : List String
  revocations : List String
  /-- tickets that were claimed after a revocation of theirs returned -/
  late : List String

namespace Store

def live {α : Type} (s : Store) (kept : Kept α) : Option α :=
  (kept.filter fun entry => s.clock < entry.2).map (·.1)

def set {α : Type} (entries : String → Kept α) (key : String) (entry : Kept α) :
    String → Kept α :=
  fun other => if other = key then entry else entries other

/-- Members of a set, each once. -/
def union (members : List String) (added : List String) : List String :=
  members ++ (added.dedup.filter fun topic => topic ∉ members)

def setTopics (s : Store) (sessionId : String) (topics : List String) : Store :=
  { s with topics := fun other => if other = sessionId then topics else s.topics other }

/-- TTL: what is left of the session, rounded to seconds. -/
def ttl (s : Store) (sessionId : String) : Int :=
  match (s.sessions sessionId).filter fun entry => s.clock < entry.2 with
  | none => -2
  | some entry => ((entry.2 - s.clock + 500) / 1000 : Nat)

/-- What ADD_TOPICS_BOUNDED_SCRIPT returns and leaves; TTL is -2 without the session. -/
def addTopics (s : Store) (sessionId : String) (maxTopics : Nat) (topics : List String) :
    (Int × Nat) × List String :=
  let members := s.topics sessionId
  let newCount := (topics.filter (· ∉ members)).length
  if s.ttl sessionId < 1 then ((-3, 0), members)
  else if members.length > maxTopics then ((-2, members.length), members)
  else if members.length + newCount > maxTopics then ((-1, members.length), members)
  else ((1, members.length + newCount), union members topics)

def perform : (c : Call) → Store → Reply c × Store
  | .now, s => (s.clock, s)
  | .ticketGet ticketHash, s => (s.live (s.tickets ticketHash), s)
  | .ticketDel ticketHash, s => ((), { s with tickets := set s.tickets ticketHash none })
  | .sessionGet sessionId, s => (s.live (s.sessions sessionId), s)
  | .sessionTtl sessionId, s => (s.ttl sessionId, s)
  | .topicsCard sessionId, s => ((s.topics sessionId).length, s)
  | .topicsMembers sessionId, s => (s.topics sessionId, s)
  | .claim ticketHash sessionId ttlSeconds, s =>
    match s.live (s.consumed ticketHash) with
    | some _ => (false, s)
    | none =>
      (true, { s with
        consumed := set s.consumed ticketHash (some (sessionId, s.clock + ttlSeconds * 1000))
        late := if ticketHash ∈ s.revocations then ticketHash :: s.late else s.late })
  | .topicsReplace sessionId topics, s => ((), s.setTopics sessionId topics.dedup)
  | .topicsAdd sessionId maxTopics topics, s =>
    let outcome := s.addTopics sessionId maxTopics topics
    (outcome.1, s.setTopics sessionId outcome.2)
  | .topicsRemove sessionId topic, s =>
    ((), s.setTopics sessionId ((s.topics sessionId).filter (· ≠ topic)))
  | .sessionRevoke sessionId ticketHash, s =>
    ((), { (s.setTopics sessionId []) with
      sessions := set s.sessions sessionId none
      tickets := set s.tickets ticketHash none
      consumed := set s.consumed ticketHash none })
  | .publish event, s => ((), { s with channel := s.channel ++ [event] })
  | .registerConnection sessionId _ topics, s =>
    ((), { s with
      connections := fun other => if other = sessionId then some topics else s.connections other })
  | .replyError _, s => ((), s)
  | .succeeded ticketHash, s => ((), { s with successes := ticketHash :: s.successes })
  | .revoked ticketHash, s => ((), { s with revocations := ticketHash :: s.revocations })

/-- The mutation subscriber's handler: `updateSessionTopics` and `closeSession`. -/
def handle (s : Store) : SessionMutationEvent → Store
  | .subscriptionsUpdated sessionId topics =>
    { s with connections := fun other =>
        if other = sessionId then (s.connections sessionId).map fun _ => topics
        else s.connections other }
  | .revoked sessionId =>
    { s with connections := fun other =>
        if other = sessionId then none else s.connections other }

/-- What `createSession` leaves. -/
def created (clock : Nat) (record : SessionRecord) (deadline : Nat) : Store where
  clock := clock
  tickets ticketHash :=
    if ticketHash = record.ticketHash then some (record.sessionId, deadline) else none
  sessions sessionId := if sessionId = record.sessionId then some (record, deadline) else none
  consumed _ := none
  topics _ := []
  channel := []
  connections _ := none
  successes := []
  revocations := []
  late := []

end Store

/-- The environment lets time pass or delivers the oldest mutation to the hub. -/
inductive Event where
  | elapse (milliseconds : Nat)
  | deliver
  deriving DecidableEq, Repr

def Store.react : Event → Store → Option Store
  | .elapse milliseconds, s => some { s with clock := s.clock + milliseconds }
  | .deliver, s =>
    match s.channel with
    | [] => none
    | event :: rest => some ({ s with channel := rest }.handle event)

inductive Request where
  | consume (ticket : String) (constraints : ConsumeConstraints)
  | revoke (ticket : String) (principal : Option String)
  | stream (ticket : String) (constraints : ConsumeConstraints)
  | replace (sessionId : String) (topics : List String)
  | add (sessionId : String) (topics : List String)
  | remove (sessionId topic : String)
  deriving DecidableEq, Repr

def serve (config : Config) : Request → Run Unit
  | .consume ticket constraints => do
    let _ ← consumeStreamTicket config ticket constraints
    pure ()
  | .revoke ticket principal => revokeByTicket config ticket principal
  | .stream ticket constraints => openStream config ticket constraints
  | .replace sessionId topics => do
    let _ ← replaceTopics config sessionId topics
    pure ()
  | .add sessionId topics => do
    let _ ← addTopics config sessionId topics
    pure ()
  | .remove sessionId topic => do
    let _ ← removeTopic config sessionId topic
    pure ()

/-- Any number of these requests. -/
def sessionSystem (config : Config) (admitted : Request → Prop) :
    System Store Request Event Call Reply SessionStoreError Unit where
  effect _ c s reply after := Store.perform c s = (reply, after)
  starts _ worker := admitted worker.tag ∧ worker.program = serve config worker.tag
  acts event s after := s.react event = some after

end MastopodFederation.Source.Fep3ab2SessionStore
