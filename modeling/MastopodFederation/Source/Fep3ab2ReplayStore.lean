import MastopodFederation.Source.Fep3ab2SessionStore

/-!
# Stream replay

fep3ab2/Fep3ab2ReplayStore.ts over Redis, Fep3ab2Dispatcher.ts and one connection of
Fep3ab2EventHub.ts, with the part of GET /streaming/stream that registers the connection and
replays. All Redis commands succeed, nothing expires and the index is never trimmed. The
dispatcher's chain of promises is a machine: the event at its head is given a sequence, is
stored and is published live in three steps. JSON and the size of a record are parameters or
the identity. What a connection has received is read by no code.
-/
namespace MastopodFederation.Source.Fep3ab2ReplayStore
open Lib.Calls Lib.WorkerPool Fep3ab2Topics Fep3ab2SessionStore
open Lib.LuaTable (Json)

structure StoredReplayEvent where
  sequence : Nat
  wireId : String
  topic : String
  event : String
  data : List (String × Json)

structure Config where
  byteLength : StoredReplayEvent → Nat
  maxReplayEvents : Nat
  maxPayloadBytes : Nat
  scanBatchSize : Nat
  maxScanEvents : Nat
  maxPendingReplayPublishes : Nat

/-- The bounds of both constructors. -/
structure Config.Bounded (config : Config) : Prop where
  replay : 1 ≤ config.maxReplayEvents
  batch : 16 ≤ config.scanBatchSize
  scan : config.maxReplayEvents ≤ config.maxScanEvents

def replayEventIdPrefix : String := "fep3ab2-replay-"

def buildReplayEventId (sequence : Nat) : String := replayEventIdPrefix ++ sequence.repr

def isSafeInteger (value : Nat) : Bool := value ≤ 2 ^ 53 - 1

/-- The digits that `Number.parseInt` reads after the sign. -/
def parseDigits (digits : List Char) : Option Nat :=
  let digits := digits.takeWhile Char.isDigit
  if digits.isEmpty then none else some (Nat.ofDigitChars 10 digits 0)

/-- `Number.parseInt` in base ten, for results that are not negative. -/
def parseInt (text : List Char) : Option Nat :=
  match text.dropWhile isSpace with
  | '+' :: digits => parseDigits digits
  | digits => parseDigits digits

theorem not_isSpace_of_isDigit {c : Char} (digit : c.isDigit = true) : isSpace c = false := by
  have bounds : 48 ≤ c.toNat ∧ c.toNat ≤ 57 := by
    simp only [Char.isDigit, Bool.and_eq_true, decide_eq_true_eq] at digit
    exact ⟨digit.1, digit.2⟩
  have other : c ≠ ' ' := by
    rintro rfl
    exact absurd bounds.1 (by decide)
  simp only [isSpace, Bool.or_eq_false_iff, Bool.and_eq_false_iff, decide_eq_false_iff_not]
  exact ⟨⟨.inr (by omega), other⟩, .inr (by omega)⟩

theorem parseInt_toDigits (n : Nat) : parseInt (Nat.toDigits 10 n) = some n := by
  have digits : ∀ c ∈ Nat.toDigits 10 n, c.isDigit = true :=
    fun c listed => Nat.isDigit_of_mem_toDigits (by decide) (by decide) listed
  have spaceless : (Nat.toDigits 10 n).dropWhile isSpace = Nat.toDigits 10 n := by
    rw [List.dropWhile_eq_self_iff]
    intro filled space
    rw [not_isSpace_of_isDigit (digits _ (List.getElem_mem filled))] at space
    nomatch space
  have all : (Nat.toDigits 10 n).takeWhile Char.isDigit = Nat.toDigits 10 n :=
    List.takeWhile_eq_self_iff.mpr digits
  unfold parseInt
  rw [spaceless]
  split
  next rest plus =>
    have listed : '+' ∈ Nat.toDigits 10 n := plus ▸ List.mem_cons_self
    exact absurd (digits '+' listed) (by decide)
  next =>
    unfold parseDigits
    dsimp only
    rw [all, if_neg (by simp), Nat.ofDigitChars_ten_toDigits]

def parseReplayEventId (eventId : Option String) : Option Nat :=
  match eventId with
  | none => none
  | some eventId =>
    let normalized := trim eventId.toList
    if !replayEventIdPrefix.toList.isPrefixOf normalized then none
    else
      (parseInt (normalized.drop replayEventIdPrefix.length)).filter fun sequence =>
        isSafeInteger sequence && 0 < sequence

def sseEventNames : List String := ["activitypub", "canonical", "notification", "feed", "heartbeat"]

def shouldPersist (event : FepDispatchEvent) : Bool :=
  event.principal.all (· = "") && isReplayableTopic event.topic

def recordOf (event : FepDispatchEvent) (sequence : Nat) : StoredReplayEvent :=
  ⟨sequence, buildReplayEventId sequence, event.topic, event.event, event.data⟩

/-- `FepPublishedTopicSchema` -/
def parsePublishedTopic (topic : String) : Option String :=
  (boundedText maxTopicLength topic).filter isValidPublishedTopic

/-- `PersistedReplayEventSchema`, whose check of a wire id none fails. -/
def parseRecord (record : StoredReplayEvent) : Option StoredReplayEvent :=
  if record.sequence = 0 || !isSafeInteger record.sequence || !sseEventNames.contains record.event
  then none
  else (parsePublishedTopic record.topic).map fun topic => { record with topic := topic }

inductive Call where
  /-- ZRANGEBYSCORE on the index, with LIMIT -/
  | zrangebyscore (lastSequence offset count : Nat)
  | getEvent (sequence : Nat)
  | delEvent (sequence : Nat)
  | zrem (members : List Nat)
  /-- `registerConnection` of the hub -/
  | registerConnection (principal : String) (topics : List String) (paused : Bool)
  /-- what is sent in one turn after the replay, and `resumeSession` -/
  | sendReplayed (events : List StoredReplayEvent)

def Reply : Call → Type
  | .zrangebyscore .. => List Nat
  | .getEvent _ => Option StoredReplayEvent
  | _ => Unit

abbrev Run := Prog Call Reply Empty

def zrangebyscore (lastSequence offset count : Nat) : Run (List Nat) :=
  .call (.zrangebyscore lastSequence offset count) pure
def getEvent (sequence : Nat) : Run (Option StoredReplayEvent) := .call (.getEvent sequence) pure
def delEvent (sequence : Nat) : Run Unit := .call (.delEvent sequence) pure
def zrem (members : List Nat) : Run Unit := .call (.zrem members) pure
def registerConnection (principal : String) (topics : List String) (paused : Bool) : Run Unit :=
  .call (.registerConnection principal topics paused) pure
def sendReplayed (events : List StoredReplayEvent) : Run Unit := .call (.sendReplayed events) pure

/-- A record that cannot be parsed is deleted. -/
def readPersistedRecord (sequence : Nat) : Run (Option StoredReplayEvent) := do
  match ← getEvent sequence with
  | none => pure none
  | some raw =>
    match parseRecord raw with
    | none => do
      delEvent sequence
      pure none
    | some record => pure (some record)

structure Scan where
  results : List StoredReplayEvent
  staleMembers : List Nat

section Replay
variable (config : Config) (lastSequence : Nat) (subscriptions : List String)

def isSubscribed (topic : String) : Bool :=
  subscriptions.any fun subscription => topicMatches subscription topic

/-- The members of one batch. -/
def readMembers (scan : Scan) : List Nat → Run Scan
  | [] => pure scan
  | sequence :: members =>
    if !isSafeInteger sequence || sequence ≤ lastSequence then
      readMembers { scan with staleMembers := scan.staleMembers ++ [sequence] } members
    else do
      match ← readPersistedRecord sequence with
      | none => readMembers { scan with staleMembers := scan.staleMembers ++ [sequence] } members
      | some record =>
        if !isSubscribed subscriptions record.topic then readMembers scan members
        else
          let found := { scan with results := scan.results ++ [record] }
          if found.results.length ≥ config.maxReplayEvents then pure found
          else readMembers found members

/-- The loop of `replayAfter`; what it has scanned is also its offset, and grows in every round. -/
def scanBatches : Nat → Nat → Scan → Run Scan
  | 0, _, scan => pure scan
  | rounds + 1, scanned, scan =>
    if scan.results.length < config.maxReplayEvents ∧ scanned < config.maxScanEvents then do
      let batchSize := min config.scanBatchSize (config.maxScanEvents - scanned)
      let members ← zrangebyscore lastSequence scanned batchSize
      if members.isEmpty then pure scan
      else do
        let scan ← readMembers config lastSequence subscriptions scan members
        scanBatches rounds (scanned + members.length) scan
    else pure scan

def replayAfter (lastEventId : Option String) : Run (List StoredReplayEvent) :=
  match parseReplayEventId lastEventId with
  | none => pure []
  | some lastSequence =>
    if subscriptions.isEmpty then pure []
    else do
      let scan ← scanBatches config lastSequence subscriptions config.maxScanEvents 0 ⟨[], []⟩
      if !scan.staleMembers.isEmpty then do
        zrem scan.staleMembers
        pure scan.results
      else pure scan.results

/-- A reconnect with this header, for a session with these topics. -/
def openStream (lastEventId : Option String) (principal : String) : Run Unit := do
  let shouldReplay := (parseReplayEventId lastEventId).isSome
  registerConnection principal subscriptions shouldReplay
  if shouldReplay then do
    let replayedEvents ← replayAfter config subscriptions lastEventId
    sendReplayed replayedEvents
  else pure ()

end Replay

/-- An event on its way to a connection; `sequence` where it is persisted. -/
structure Delivery where
  event : String
  data : List (String × Json)
  id : Option String
  sequence : Option Nat

structure Connection where
  principal : String
  topics : List String
  paused : Bool
  bufferedEvents : List Delivery
  received : List Delivery
  /-- the last sequence that was published before the connection was registered -/
  baseline : Nat

inductive Link where
  | absent
  | registered (connection : Connection)
  | closed

/-- Where the dispatcher is with its oldest event. -/
inductive Stage where
  | waiting
  | sequenced
  | appended (stored : Option StoredReplayEvent)

structure Server where
  /-- the last sequence that INCR gave -/
  sequence : Nat
  /-- the index and its records, the smallest sequence first -/
  stored : List StoredReplayEvent
  /-- the publishes that `replayTail` has yet to settle -/
  pending : List FepDispatchEvent
  stage : Stage
  link : Link

/-- Nothing was published yet. -/
def Server.empty : Server := ⟨0, [], [], .waiting, .absent⟩

def maxBufferedEvents : Nat := 512

/-- `publish` of the hub. -/
def Connection.offer (connection : Connection) (event : FepDispatchEvent) (sequence : Option Nat) :
    Link :=
  if !isRecipient connection.principal connection.topics event then .registered connection
  else
    let delivery : Delivery := ⟨event.event, event.data, event.id, sequence⟩
    if connection.paused then
      if connection.bufferedEvents.length ≥ maxBufferedEvents then .closed
      else .registered
        { connection with bufferedEvents := connection.bufferedEvents ++ [delivery] }
    else .registered { connection with received := connection.received ++ [delivery] }

def replayDelivery (record : StoredReplayEvent) : Delivery :=
  ⟨record.event, record.data, some record.wireId, some record.sequence⟩

def Connection.resume (connection : Connection) (events : List StoredReplayEvent) : Connection :=
  { connection with
    paused := false
    bufferedEvents := []
    received := connection.received ++ events.map replayDelivery ++ connection.bufferedEvents }

namespace Server

def hubPublish (s : Server) (event : FepDispatchEvent) (sequence : Option Nat) : Server :=
  match s.link with
  | .registered connection => { s with link := connection.offer event sequence }
  | _ => s

/-- `publish` of the dispatcher up to its first await. -/
def publish (config : Config) (s : Server) (event : FepDispatchEvent) : Server :=
  if !shouldPersist event then s.hubPublish event none
  else if s.pending.length ≥ config.maxPendingReplayPublishes then s.hubPublish event none
  else { s with pending := s.pending ++ [event] }

def zadd (stored : List StoredReplayEvent) (record : StoredReplayEvent) : List StoredReplayEvent :=
  stored.filter (·.sequence < record.sequence) ++
    record :: stored.filter (record.sequence < ·.sequence)

/-- The second half of `append`: MULTI, unless the record is too large. -/
def store (config : Config) (s : Server) (event : FepDispatchEvent) : Server :=
  let record := recordOf event s.sequence
  if config.byteLength record > config.maxPayloadBytes then { s with stage := .appended none }
  else { s with stored := zadd s.stored record, stage := .appended (some record) }

/-- The live publish of an event after its `append`. -/
def settle (s : Server) (event : FepDispatchEvent) (record : Option StoredReplayEvent) : Server :=
  ({ s with pending := s.pending.tail, stage := .waiting } : Server).hubPublish
    { event with id := (record.map (·.wireId)).or event.id } (record.map (·.sequence))

/-- The next step of the dispatcher. -/
def dispatch (config : Config) (s : Server) : Option Server :=
  match s.pending, s.stage with
  | [], _ => none
  | _ :: _, .waiting => some { s with sequence := s.sequence + 1, stage := .sequenced }
  | event :: _, .sequenced => some (s.store config event)
  | event :: _, .appended record => some (s.settle event record)

/-- The sequences after which nothing is published yet. -/
def published (s : Server) : Nat :=
  match s.stage with
  | .waiting | .appended none => s.sequence
  | .sequenced | .appended (some _) => s.sequence - 1

def perform : (c : Call) → Server → Option (Reply c × Server)
  | .zrangebyscore lastSequence offset count, s =>
    some ((((s.stored.filter (lastSequence < ·.sequence)).drop offset).take count).map (·.sequence),
      s)
  | .getEvent sequence, s => some (s.stored.find? (·.sequence = sequence), s)
  | .delEvent sequence, s => some ((), { s with stored := s.stored.filter (·.sequence ≠ sequence) })
  | .zrem members, s => some ((), { s with stored := s.stored.filter (·.sequence ∉ members) })
  | .registerConnection principal topics paused, s =>
    match s.link with
    | .absent =>
      some ((), { s with link := .registered ⟨principal, topics, paused, [], [], s.published⟩ })
    | _ => none
  | .sendReplayed events, s =>
    match s.link with
    | .registered connection => some ((), { s with link := .registered (connection.resume events) })
    | _ => some ((), s)

end Server

/-- An event is published, the dispatcher makes a step, or the connection closes. -/
inductive Event where
  | publish (event : FepDispatchEvent)
  | dispatch
  | close

def Server.react (config : Config) : Event → Server → Option Server
  | .publish event, s =>
    if sseEventNames.contains event.event then some (s.publish config event) else none
  | .dispatch, s => s.dispatch config
  | .close, s => some { s with link := .closed }

/-- The header of a reconnect, its principal and the topics of its session. -/
structure Reconnect where
  lastEventId : Option String
  principal : String
  topics : List String

/-- One reconnect beside the dispatcher; a connection is registered once. -/
def replaySystem (config : Config) (reconnect : Reconnect) :
    System Server Unit Event Call Reply Empty Unit where
  effect _ c s reply after := Server.perform c s = some (reply, after)
  starts _ worker := worker.program =
    openStream config reconnect.topics reconnect.lastEventId reconnect.principal
  acts event s after := s.react config event = some after

end MastopodFederation.Source.Fep3ab2ReplayStore
