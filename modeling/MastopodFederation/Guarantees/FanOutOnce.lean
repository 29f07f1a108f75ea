import MastopodFederation.Guarantees.OutboundCalls
import MastopodFederation.Source.OutboxIntentQueue
import Mathlib.Data.List.Nodup

/-!
# An intent is fanned out once

A worker may mark an intent completed only after it saw the fan-out and the event log marked,
and acknowledge an entry only after it saw the completion or wrote a dead letter. The fan-out
script itself checks its marker, so the batches of an intent never double.
-/
namespace MastopodFederation.Guarantees.FanOutOnce
open Lib.LuaTable Lib.Calls Lib.GuardedRun Lib.Logged Lib.WorkerPool
open Source.DelayedQueue Source.OutboxIntentWorker Source.OutboxIntentQueue

variable {env : Environment} {cfg : Config}

structure Source where
  messageId : String
  intent : OutboxIntent

structure Duty where
  source : Source
  logged : Bool
  enqueued : Bool
  completed : Bool
  lettered : Bool

def Duty.start (messageId : String) (intent : OutboxIntent) : Duty :=
  ⟨⟨messageId, intent⟩, false, false, false, false⟩

def outboundBatch (env : Environment) (cfg : Config) (intent : OutboxIntent) :
    Except Failure (List Fields) := do
  let activity ← parseIntentActivity env intent
  let targets ← intentTargets env intent
  let outboundJobs ← buildOutboundJobs env cfg intent activity targets
  (outboundJobs.mapM (serializeOutboundJob env.rt env.codec)).mapError Failure.other

inductive Marks (duty : Duty) : Fields → Prop where
  | eventLog (value : String) : Marks duty [("eventLogPublishedAt", value)]
  | noTargets (value : String) (empty : duty.source.intent.targets = []) :
      Marks duty [("outboundEnqueuedAt", value), ("jobCount", "0")]
  | completed (value : String) (logged : duty.logged = true) (enqueued : duty.enqueued = true) :
      Marks duty [("completedAt", value)]

def Allows (env : Environment) (cfg : Config) (duty : Duty) : Call → Prop
  | .now | .publishTombstone _ | .publishToStream1 _ | .expire .. => True
  | .hGetAll intentId => intentId = duty.source.intent.intentId
  | .hSet intentId values => intentId = duty.source.intent.intentId ∧ Marks duty values
  | .fanOut intentId _ batch =>
    intentId = duty.source.intent.intentId ∧ duty.source.intent.targets ≠ [] ∧
      outboundBatch env cfg duty.source.intent = .ok batch
  | .persistAndAck messageId intent =>
    messageId = duty.source.messageId ∧ intent.intentId = duty.source.intent.intentId
  | .moveToDlq intent _ => intent.intentId = duty.source.intent.intentId
  | .ack messageId =>
    messageId = duty.source.messageId ∧ (duty.completed = true ∨ duty.lettered = true)

def sets (values : Fields) (field : String) : Bool := (values.lookup field).isSome

def Duty.mark (duty : Duty) (isSet : String → Bool) : Duty :=
  { duty with
    logged := duty.logged || isSet "eventLogPublishedAt"
    enqueued := duty.enqueued || isSet "outboundEnqueuedAt"
    completed := duty.completed || isSet "completedAt" }

def Duty.after (duty : Duty) : (c : Call) → Reply c → Duty
  | .hGetAll _, .ok raw => duty.mark fun field => (raw field).isSome
  | .hSet _ values, .ok () => duty.mark (sets values)
  | .fanOut .., .ok _ => { duty with enqueued := true }
  | .moveToDlq .., .ok () => { duty with lettered := true }
  | _, _ => duty

def fanOutMonitor (env : Environment) (cfg : Config) : Monitor Call Reply Duty where
  allows := Allows env cfg
  after := Duty.after

section Program
variable {α β : Type} {source : Source} {duty : Duty}

/-- However the program ends, the worker still processes its entry; a result meets the
postcondition. -/
def Attains (source : Source) (Q : α → Duty → Prop) (duty : Duty) :
    Except Failure α → Prop
  | .ok a => duty.source = source ∧ Q a duty
  | .error _ => duty.source = source

variable {x : Program α} {Q : α → Duty → Prop}

theorem attains_bind {f : α → Program β}
    {Q' : β → Duty → Prop} (first : Meets (fanOutMonitor env cfg) x (Attains source Q) duty)
    (second : ∀ a t, t.source = source → Q a t →
      Meets (fanOutMonitor env cfg) (f a) (Attains source Q') t) :
    Meets (fanOutMonitor env cfg) (x >>= f) (Attains source Q') duty := by
  rw [meets_bind]
  apply first.imp
  intro t outcome attained
  cases outcome with
  | ok a => exact second a t attained.1 attained.2
  | error e => exact attained

def ignored : Call → Bool
  | .expire .. => true
  | c => outsideStore c

theorem after_of_ignored {c : Call} (ignored : ignored c = true) (r : Reply c) :
    duty.after c r = duty := by
  cases c with
  | now | publishTombstone | publishToStream1 | expire => rfl
  | hGetAll | hSet | fanOut | persistAndAck | moveToDlq | ack => cases ignored

theorem allows_of_ignored {c : Call} (ignored : ignored c = true) : Allows env cfg duty c := by
  cases c with
  | now | publishTombstone | publishToStream1 | expire => trivial
  | hGetAll | hSet | fanOut | persistAndAck | moveToDlq | ack => cases ignored

theorem silent_of_ignored {ε : Type} {x : Prog Call Reply ε α}
    (only : Only (fun c => ignored c = true) x) : Silent (fanOutMonitor env cfg) x := by
  apply only.silent
  intro s c ignored
  exact ⟨allows_of_ignored ignored, fun r => after_of_ignored ignored r⟩

theorem attains_of_ignored {Q : Duty → Prop}
    (only : Only (fun c => ignored c = true) x) (same : duty.source = source) (met : Q duty) :
    Meets (fanOutMonitor env cfg) x (Attains source fun _ => Q) duty := by
  apply (silent_of_ignored only).meets
  intro outcome
  cases outcome with
  | ok a => exact ⟨same, met⟩
  | error e => exact same

theorem attains_done {outcome : Except Failure α}
    (same : duty.source = source) (met : ∀ a, outcome = .ok a → Q a duty) :
    Meets (fanOutMonitor env cfg) (.done outcome) (Attains source Q) duty := by
  cases outcome with
  | ok a => exact ⟨same, met a rfl⟩
  | error e => exact same

theorem only_clock : Only (fun c => ignored c = true) clock :=
  only_call rfl fun _ => only_done _

theorem attains_setState {values : Fields} {Q : Duty → Prop} (same : duty.source = source)
    (marks : Marks duty values) (met : Q (duty.mark (sets values))) :
    Meets (fanOutMonitor env cfg) (setState source.intent.intentId values)
      (Attains source fun _ => Q) duty := by
  unfold setState
  apply attains_bind (Q := fun _ t => Q t)
  · rw [meets_call]
    refine ⟨⟨by rw [same], marks⟩, fun r => ?_⟩
    cases r with
    | ok u => exact ⟨same, met⟩
    | error e => exact same
  · intro _ t same met
    exact attains_of_ignored (only_call rfl fun _ => only_done _) same met

theorem attains_clock_then {f : Int → Program α}
    (same : duty.source = source)
    (next : ∀ nowMs, Meets (fanOutMonitor env cfg) (f nowMs) (Attains source Q) duty) :
    Meets (fanOutMonitor env cfg) (clock >>= f) (Attains source Q) duty :=
  (silent_of_ignored only_clock).bind next fun _ => same

theorem attains_markEventLog (same : duty.source = source) :
    Meets (fanOutMonitor env cfg) (markOutboxIntentEventLogPublished env source.intent.intentId)
      (Attains source fun _ t => t.logged = true) duty := by
  unfold markOutboxIntentEventLogPublished
  apply attains_clock_then same
  intro publishedAt
  apply attains_setState same (.eventLog _)
  simp [Duty.mark, sets]

theorem attains_markCompleted (same : duty.source = source) (logged : duty.logged = true)
    (enqueued : duty.enqueued = true) :
    Meets (fanOutMonitor env cfg) (markOutboxIntentCompleted env source.intent.intentId)
      (Attains source fun _ t => t.completed = true) duty := by
  unfold markOutboxIntentCompleted
  apply attains_clock_then same
  intro completedAt
  apply attains_setState same (.completed _ logged enqueued)
  simp [Duty.mark, sets]

theorem only_publishEventLog (intent : OutboxIntent) (activity : List (String × Json)) :
    Only (fun c => ignored c = true) (publishEventLog cfg intent activity) := by
  unfold publishEventLog publishRemoval
  apply only_bind
  · split
    · split
      · exact only_call rfl fun _ => only_done _
      · exact only_fail _
    · exact only_pure _
  · intro _
    split
    · exact only_pure _
    · split
      · exact only_call rfl fun _ => only_done _
      · exact only_fail _

variable {activity : List (String × Json)}

theorem attains_observe {state : OutboxIntentState} (same : duty.source = source)
    (known : truthy state.eventLogPublishedAt = true → duty.logged = true) :
    Meets (fanOutMonitor env cfg) (observe env cfg source.intent activity state)
      (Attains source fun _ t => t.logged = true) duty := by
  unfold observe
  split
  next published => exact ⟨same, known published⟩
  next unpublished =>
    apply attains_bind (Q := fun _ _ => True)
    · exact attains_of_ignored (only_publishEventLog _ _) same trivial
    · exact fun _ t same _ => attains_markEventLog same

theorem attains_getState (same : duty.source = source) :
    Meets (fanOutMonitor env cfg) (getOutboxIntentState env source.intent.intentId)
      (Attains source fun state t => (truthy state.completedAt = true → t.completed = true) ∧
        (truthy state.eventLogPublishedAt = true → t.logged = true)) duty := by
  have present : ∀ (raw : Hash) (field : String),
      truthy (parsedField env raw field) = true → (raw field).isSome = true := by
    intro raw field set
    cases read : raw field with
    | none => simp [parsedField, read, truthy] at set
    | some value => rfl
  unfold getOutboxIntentState
  rw [meets_bind, meets_call]
  refine ⟨by rw [← same]; exact rfl, fun r => ?_⟩
  cases r with
  | ok raw =>
    refine ⟨same, fun completed => ?_, fun logged => ?_⟩
    · exact Bool.or_eq_true_iff.mpr (.inr (present raw _ completed))
    · exact Bool.or_eq_true_iff.mpr (.inr (present raw _ logged))
  | error e => exact same

theorem attains_enqueueNone (same : duty.source = source) (logged : duty.logged = true)
    (empty : source.intent.targets = []) :
    Meets (fanOutMonitor env cfg) (enqueueOutboundBatchForIntent env source.intent.intentId [])
      (Attains source fun _ t => t.logged = true ∧ t.enqueued = true) duty := by
  unfold enqueueOutboundBatchForIntent
  rw [List.isEmpty_nil, if_pos rfl]
  apply attains_clock_then same
  intro nowMs
  apply attains_bind (Q := fun _ t => t.logged = true ∧ t.enqueued = true)
  · apply attains_setState same (.noTargets _ (by rw [same]; exact empty))
    simp [Duty.mark, sets, logged]
  · exact fun _ t same met => ⟨same, met⟩

theorem attains_enqueueBatch {jobs : List OutboundJob} (same : duty.source = source)
    (logged : duty.logged = true) (some' : jobs ≠ []) (targets : source.intent.targets ≠ [])
    (made : ∀ batch, (jobs.mapM (serializeOutboundJob env.rt env.codec)).mapError Failure.other =
      .ok batch → outboundBatch env cfg source.intent = .ok batch) :
    Meets (fanOutMonitor env cfg) (enqueueOutboundBatchForIntent env source.intent.intentId jobs)
      (Attains source fun _ t => t.logged = true ∧ t.enqueued = true) duty := by
  unfold enqueueOutboundBatchForIntent
  rw [if_neg (by simpa using some')]
  apply attains_clock_then same
  intro nowMs
  apply attains_bind (Q := fun batch t => t = duty ∧
    (jobs.mapM (serializeOutboundJob env.rt env.codec)).mapError Failure.other = .ok batch)
  · exact attains_done same fun batch serialized => ⟨rfl, serialized⟩
  · rintro batch t same ⟨rfl, serialized⟩
    rw [meets_bind, meets_call]
    refine ⟨⟨by rw [same], by rw [same]; exact targets, by rw [same]; exact made _ serialized⟩,
      fun r => ?_⟩
    cases r with
    | ok result => exact ⟨same, logged, rfl⟩
    | error e => exact same

theorem length_of_mapM {ε : Type} {f : α → Except ε β} {xs : List α} {ys : List β}
    (mapped : xs.mapM f = .ok ys) : ys.length = xs.length := by
  induction xs generalizing ys with
  | nil =>
    cases mapped
    rfl
  | cons x rest ih =>
    rw [List.mapM_cons, except_bind_ok] at mapped
    obtain ⟨first, -, mapped⟩ := mapped
    rw [except_bind_ok] at mapped
    obtain ⟨others, tail, built⟩ := mapped
    cases built
    rw [List.length_cons, List.length_cons, ih tail]

variable {intent : OutboxIntent}

theorem ne_nil_of_intentTargets {targets : List NormalizedOutboundTarget}
    (normalized : intentTargets env intent = .ok targets) : targets ≠ [] := by
  unfold intentTargets at normalized
  rw [except_bind_ok] at normalized
  obtain ⟨result, -, normalized⟩ := normalized
  intro empty
  cases found : result.targets with
  | nil =>
    rw [found] at normalized
    cases normalized
  | cons target rest =>
    rw [found] at normalized
    cases normalized
    cases empty

theorem attains_fanOutJobs (same : duty.source = source)
    (logged : duty.logged = true) (targets : source.intent.targets ≠ [])
    (parsed : parseIntentActivity env source.intent = .ok activity) :
    Meets (fanOutMonitor env cfg) (fanOutJobs env cfg source.intent activity)
      (Attains source fun _ t => t.logged = true ∧ t.enqueued = true) duty := by
  unfold fanOutJobs
  apply attains_bind (Q := fun found t => t = duty ∧ intentTargets env source.intent = .ok found)
  · exact attains_done same fun found normalized => ⟨rfl, normalized⟩
  · rintro found t same ⟨rfl, normalized⟩
    apply attains_bind (Q := fun jobs t' => t' = t ∧
      buildOutboundJobs env cfg source.intent activity found = .ok jobs)
    · exact attains_done same fun jobs built => ⟨rfl, built⟩
    · rintro jobs t same ⟨rfl, built⟩
      apply attains_bind (Q := fun _ t' => t' = t)
      · unfold assertIntentWithinReplayHorizon
        apply attains_clock_then same
        exact fun nowMs => attains_done same fun _ _ => rfl
      · rintro _ t same rfl
        apply attains_enqueueBatch same logged _ targets
        · intro batch serialized
          rw [outboundBatch, parsed, normalized]
          change (buildOutboundJobs env cfg source.intent activity found >>= _) = _
          rw [built]
          exact serialized
        · intro none
          have counted := length_of_mapM built
          rw [none] at counted
          exact ne_nil_of_intentTargets normalized (List.length_eq_zero_iff.mp counted.symm)

theorem meets_ack (same : duty.source = source)
    (settled : duty.completed = true ∨ duty.lettered = true) :
    Meets (fanOutMonitor env cfg) (ack source.messageId) (fun t _ => t.source = source) duty := by
  unfold Source.OutboxIntentWorker.ack
  rw [meets_call]
  refine ⟨⟨by rw [same], settled⟩, fun r => ?_⟩
  cases r with
  | ok u => exact same
  | error e => exact same

theorem attains_processDue (same : duty.source = source) :
    Meets (fanOutMonitor env cfg) (processDue env cfg source.messageId source.intent)
      (Attains source fun _ _ => True) duty := by
  have acknowledges : ∀ t : Duty, t.source = source → t.completed = true →
      Meets (fanOutMonitor env cfg) (ack source.messageId) (Attains source fun _ _ => True) t := by
    intro t same completed
    apply (meets_ack same (.inl completed)).imp
    intro t' outcome kept
    cases outcome with
    | ok u => exact ⟨kept, trivial⟩
    | error e => exact kept
  unfold processDue
  apply attains_bind (attains_getState same)
  rintro state t same ⟨completed, logged⟩
  split
  next done => exact acknowledges t same (completed done)
  next pending =>
    apply attains_bind (Q := fun activity t' => t' = t ∧
      parseIntentActivity env source.intent = .ok activity)
    · exact attains_done same fun activity parsed => ⟨rfl, parsed⟩
    · rintro activity t same ⟨rfl, parsed⟩
      apply attains_bind (attains_observe same logged)
      intro _ t same logged
      apply attains_bind (Q := fun _ t => t.logged = true ∧ t.enqueued = true)
      · unfold fanOut
        split
        next empty => exact attains_enqueueNone same logged (by simpa using empty)
        next some' => exact attains_fanOutJobs same logged (by simpa using some') parsed
      · rintro _ t same ⟨logged, enqueued⟩
        apply attains_bind (attains_markCompleted same logged enqueued)
        exact fun _ t same completed => acknowledges t same completed

theorem meets_persist (same : duty.source = source)
    (copy : intent.intentId = source.intent.intentId) : Meets (fanOutMonitor env cfg)
      (persistDelayedReplacementAndAck cfg source.messageId intent)
      (fun t _ => t.source = source) duty := by
  unfold persistDelayedReplacementAndAck persistReplacementAndAck
  split
  · apply (silent_of_ignored only_clock).bind _ fun _ => same
    intro nowMs
    split
    · exact same
    · rw [meets_call]
      refine ⟨⟨by rw [same], by rw [same]; exact copy⟩, fun r => ?_⟩
      cases r with
      | ok u => exact same
      | error e => exact same
  · exact same

theorem meets_recover (same : duty.source = source) (thrown : Thrown) :
    Meets (fanOutMonitor env cfg) (recover cfg source.messageId source.intent thrown)
      (fun _ _ => True) duty := by
  unfold recover
  dsimp only
  split
  · exact trivial
  · split
    · rw [meets_bind]
      unfold moveToDlq
      rw [meets_call]
      refine ⟨by rw [← same]; exact rfl, fun r => ?_⟩
      cases r with
      | ok u =>
        have kept : { duty with lettered := true }.source = source := same
        exact (meets_ack kept (.inr rfl)).imp fun _ _ _ => trivial
      | error e => exact trivial
    · apply (silent_of_ignored only_clock).bind _ fun _ => trivial
      intro nowMs
      refine (meets_persist same ?_).imp fun _ _ _ => trivial
      exact rfl

theorem meets_parking {parked : Bool} {post : Duty → Except Thrown α → Prop}
    (kept : Meets (fanOutMonitor env cfg) x (fun t outcome => t.source = source ∧
      ∀ a, outcome = .ok a → post t (.ok a)) duty)
    (failed : ∀ t thrown, t.source = source → post t (.error thrown)) :
    Meets (fanOutMonitor env cfg) (parking parked x) post duty := by
  unfold parking
  rw [meets_mapError]
  apply kept.imp
  rintro t outcome ⟨same, met⟩
  cases outcome with
  | ok a => exact met a rfl
  | error e => exact failed t _ same

theorem silent_withinHorizon (intent : OutboxIntent) (boundary : String) :
    Silent (fanOutMonitor env cfg) (assertIntentWithinReplayHorizon env intent boundary) := by
  apply silent_of_ignored
  unfold assertIntentWithinReplayHorizon
  exact only_bind only_clock fun _ => only_done _

theorem silent_notYetDue (intent : OutboxIntent) :
    Silent (fanOutMonitor env cfg) (notYetDue intent) := by
  apply silent_of_ignored
  unfold notYetDue
  split
  · exact only_bind only_clock fun _ => only_pure _
  · exact only_pure _

theorem silent_parking (silent : Silent (fanOutMonitor env cfg) x)
    (parked : Bool) : Silent (fanOutMonitor env cfg) (parking parked x) := by
  intro t
  unfold parking
  rw [meets_mapError]
  exact silent t

theorem obeys_processIntent (same : duty.source = source) :
    Obeys (fanOutMonitor env cfg) (processIntent env cfg source.messageId source.intent) duty := by
  have handled : ∀ (t : Duty) (thrown : Thrown), t.source = source →
      Rescued (fanOutMonitor env cfg) (recover cfg source.messageId source.intent)
        (fun _ _ => True) t (.error thrown) :=
    fun t thrown same => meets_recover same thrown
  unfold Obeys processIntent attemptIntent
  rw [meets_rescue]
  apply (silent_parking (silent_withinHorizon _ _) false).bind _ fun e => handled _ e same
  intro _
  apply (silent_parking (silent_notYetDue _) false).bind _ fun e => handled _ e same
  intro future
  split
  · apply meets_parking _ handled
    exact (meets_persist same rfl).imp fun t _ kept => ⟨kept, fun _ _ => trivial⟩
  · apply meets_parking _ handled
    apply (attains_processDue same).imp
    intro t outcome attained
    cases outcome with
    | ok u => exact ⟨attained.1, fun _ _ => trivial⟩
    | error e => exact ⟨attained, fun _ failed => nomatch failed⟩

theorem obeys_start (messageId : String) (intent : OutboxIntent) :
    Obeys (fanOutMonitor env cfg) (processIntent env cfg messageId intent)
      (Duty.start messageId intent) :=
  @obeys_processIntent env cfg ⟨messageId, intent⟩ _ rfl

end Program

def Yields (env : Environment) (s : Store) (messageId : String) (intent : OutboxIntent) : Prop :=
  ∃ entry ∈ s.stream, entry.messageId = messageId ∧
    deserializeOutboxIntent env.rt env.codec messageId entry.fields = .ok intent

def Settled (s : Store) (id : String) : Prop :=
  s.isSet id "completedAt" = true ∨ id ∈ s.delayedIds ∨ ∃ letter ∈ s.deadLetters, letter.id = id

structure Grows (s t : Store) : Prop where
  stream : ∀ entry ∈ s.stream, ∃ later ∈ t.stream,
    later.messageId = entry.messageId ∧ later.fields = entry.fields
  states : ∀ id field, s.isSet id field = true → t.isSet id field = true
  delayedIds : ∀ id ∈ s.delayedIds, id ∈ t.delayedIds
  deadLetters : ∀ letter ∈ s.deadLetters, letter ∈ t.deadLetters

structure Fanned (env : Environment) (cfg : Config) (s : Store) : Prop where
  marked : ∀ id, s.isSet id "completedAt" = true →
    s.isSet id "outboundEnqueuedAt" = true ∧ s.isSet id "eventLogPublishedAt" = true
  fannedOut : ∀ id, s.isSet id "outboundEnqueuedAt" = true →
    (∃ appended ∈ s.outbound, appended.intentId = id) ∨
    ∃ messageId intent, Yields env s messageId intent ∧ intent.intentId = id ∧ intent.targets = []
  enqueued : ∀ appended ∈ s.outbound, s.isSet appended.intentId "outboundEnqueuedAt" = true
  once : (s.outbound.map (·.intentId)).Nodup
  batches : ∀ appended ∈ s.outbound, ∃ messageId intent, Yields env s messageId intent ∧
    intent.intentId = appended.intentId ∧ intent.targets ≠ [] ∧
    outboundBatch env cfg intent = .ok appended.batch

structure Sound (env : Environment) (cfg : Config) (s : Store) : Prop where
  fanned : Fanned env cfg s
  distinct : ∀ entry ∈ s.stream, ∀ other ∈ s.stream, entry.messageId = other.messageId →
    entry.fields = other.fields
  delayed : ∀ id, (s.payloads id).isSome = true → id ∈ s.delayedIds
  acknowledged : ∀ entry ∈ s.stream, entry.acked = true → ∀ intent,
    deserializeOutboxIntent env.rt env.codec entry.messageId entry.fields = .ok intent →
    Settled s intent.intentId

structure Known (env : Environment) (s : Store) (duty : Duty) : Prop where
  yields : Yields env s duty.source.messageId duty.source.intent
  logged : duty.logged = true →
    s.isSet duty.source.intent.intentId "eventLogPublishedAt" = true
  enqueued : duty.enqueued = true →
    s.isSet duty.source.intent.intentId "outboundEnqueuedAt" = true
  completed : duty.completed = true → s.isSet duty.source.intent.intentId "completedAt" = true
  lettered : duty.lettered = true →
    ∃ letter ∈ s.deadLetters, letter.id = duty.source.intent.intentId

section Store
variable {s t u : Store}

theorem Grows.refl : Grows s s where
  stream entry mem := ⟨entry, mem, rfl, rfl⟩
  states _ _ set := set
  delayedIds _ mem := mem
  deadLetters _ mem := mem

theorem Grows.trans (first : Grows s t) (second : Grows t u) : Grows s u where
  stream entry mem := by
    obtain ⟨later, present, id, fields⟩ := first.stream entry mem
    obtain ⟨last, present, id', fields'⟩ := second.stream later present
    exact ⟨last, present, id'.trans id, fields'.trans fields⟩
  states id field set := second.states id field (first.states id field set)
  delayedIds id mem := second.delayedIds id (first.delayedIds id mem)
  deadLetters letter mem := second.deadLetters letter (first.deadLetters letter mem)

variable {messageId : String} {intent : OutboxIntent}

theorem Grows.yields (grows : Grows s t)
    (yields : Yields env s messageId intent) : Yields env t messageId intent := by
  obtain ⟨entry, mem, same, read⟩ := yields
  obtain ⟨later, present, id, fields⟩ := grows.stream entry mem
  exact ⟨later, present, id.trans same, by rw [fields]; exact read⟩

theorem Grows.settled (grows : Grows s t) {id : String} (settled : Settled s id) :
    Settled t id := by
  rcases settled with completed | delayed | ⟨letter, mem, same⟩
  · exact .inl (grows.states _ _ completed)
  · exact .inr (.inl (grows.delayedIds _ delayed))
  · exact .inr (.inr ⟨letter, grows.deadLetters _ mem, same⟩)

theorem Grows.known (grows : Grows s t) {duty : Duty} (known : Known env s duty) :
    Known env t duty where
  yields := grows.yields known.yields
  logged set := grows.states _ _ (known.logged set)
  enqueued set := grows.states _ _ (known.enqueued set)
  completed set := grows.states _ _ (known.completed set)
  lettered set := by
    obtain ⟨letter, mem, same⟩ := known.lettered set
    exact ⟨letter, grows.deadLetters _ mem, same⟩

theorem sets_reverse (values : Fields) (field : String) :
    sets values.reverse field = sets values field := by
  rw [Bool.eq_iff_iff]
  simp [sets]

theorem isSet_hSet {id intentId field : String} {values : Fields} :
    (s.hSet intentId values).isSet id field =
      ((decide (id = intentId) && sets values field) || s.isSet id field) := by
  rw [← sets_reverse]
  unfold Store.hSet Store.isSet sets
  dsimp only
  by_cases same : id = intentId
  · simp only [same, if_true, decide_true, Bool.true_and, Option.isSome_or]
  · simp [same]

theorem grows_hSet (intentId : String) (values : Fields) : Grows s (s.hSet intentId values) where
  stream entry mem := ⟨entry, mem, rfl, rfl⟩
  states id field set := by
    rw [isSet_hSet, set]
    exact Bool.or_true _
  delayedIds _ mem := mem
  deadLetters _ mem := mem

theorem grows_acknowledge (messageId : String) : Grows s (s.acknowledge messageId) where
  stream entry mem := by
    refine ⟨_, List.mem_map_of_mem mem, ?_⟩
    split <;> exact ⟨rfl, rfl⟩
  states _ _ set := set
  delayedIds _ mem := mem
  deadLetters _ mem := mem

theorem grows_addEntry (messageId : String) (fields : Fields) :
    Grows s (s.addEntry messageId fields) where
  stream entry mem := ⟨entry, List.mem_append_left _ mem, rfl, rfl⟩
  states _ _ set := set
  delayedIds _ mem := mem
  deadLetters _ mem := mem

theorem grows_letter (deadLetter : DeadLetter) : Grows s (s.letter deadLetter) where
  stream entry mem := ⟨entry, mem, rfl, rfl⟩
  states _ _ set := set
  delayedIds _ mem := mem
  deadLetters _ mem := List.mem_cons_of_mem _ mem

theorem grows_removeDelayed (id : String) : Grows s (s.removeDelayed id) where
  stream entry mem := ⟨entry, mem, rfl, rfl⟩
  states _ _ set := set
  delayedIds _ mem := mem
  deadLetters _ mem := mem

theorem grows_persist (intent : OutboxIntent) : Grows s (s.persist env.rt intent) := by
  unfold Store.persist
  split
  · exact Grows.refl
  · exact ⟨fun entry mem => ⟨entry, mem, rfl, rfl⟩, fun _ _ set => set,
      fun _ mem => List.mem_cons_of_mem _ mem, fun _ mem => mem⟩

theorem fanned_of_same (fanned : Fanned env cfg s) (grows : Grows s t)
    (outbound : t.outbound = s.outbound) (states : t.states = s.states) : Fanned env cfg t where
  marked := by unfold Store.isSet; rw [states]; exact fanned.marked
  fannedOut id set := by
    have before : s.isSet id "outboundEnqueuedAt" = true := by
      unfold Store.isSet at set ⊢
      rw [← states]
      exact set
    rw [outbound]
    rcases fanned.fannedOut id before with appended | ⟨messageId, intent, yields, rest⟩
    · exact .inl appended
    · exact .inr ⟨messageId, intent, grows.yields yields, rest⟩
  enqueued := by
    rw [outbound]
    exact fun appended mem => grows.states _ _ (fanned.enqueued appended mem)
  once := by rw [outbound]; exact fanned.once
  batches := by
    rw [outbound]
    intro appended mem
    obtain ⟨messageId, intent, yields, rest⟩ := fanned.batches appended mem
    exact ⟨messageId, intent, grows.yields yields, rest⟩

theorem sound_of_same (sound : Sound env cfg s) (grows : Grows s t) (stream : t.stream = s.stream)
    (fanned : Fanned env cfg t) (delayed : ∀ id, (t.payloads id).isSome = true →
      id ∈ t.delayedIds) : Sound env cfg t where
  fanned := fanned
  distinct := by rw [stream]; exact sound.distinct
  delayed := delayed
  acknowledged := by
    rw [stream]
    exact fun entry mem acked intent read =>
      grows.settled (sound.acknowledged entry mem acked intent read)

theorem sound_letter (sound : Sound env cfg s) (deadLetter : DeadLetter) :
    Sound env cfg (s.letter deadLetter) :=
  sound_of_same sound (grows_letter _) rfl
    (fanned_of_same sound.fanned (grows_letter _) rfl rfl) sound.delayed

theorem sound_removeDelayed (sound : Sound env cfg s) (id : String) :
    Sound env cfg (s.removeDelayed id) := by
  apply sound_of_same sound (grows_removeDelayed _) rfl
    (fanned_of_same sound.fanned (grows_removeDelayed _) rfl rfl)
  intro other present
  apply sound.delayed
  unfold Store.removeDelayed at present
  dsimp only at present
  split at present
  · cases present
  · exact present

theorem sound_persist (sound : Sound env cfg s) (intent : OutboxIntent) :
    Sound env cfg (s.persist env.rt intent) := by
  apply sound_of_same sound (grows_persist _)
  · unfold Store.persist; split <;> rfl
  · apply fanned_of_same sound.fanned (grows_persist _)
    · unfold Store.persist; split <;> rfl
    · unfold Store.persist; split <;> rfl
  · intro id present
    unfold Store.persist at present ⊢
    split at present
    next kept =>
      rw [if_pos kept]
      exact sound.delayed id present
    next replaced =>
      rw [if_neg replaced]
      by_cases same : id = intent.intentId
      · rw [same]
        exact List.mem_cons_self
      · apply List.mem_cons_of_mem
        apply sound.delayed
        simpa [persistReplacement, park, replaced, same] using present

theorem delayed_persist (sound : Sound env cfg s) (intent : OutboxIntent) :
    intent.intentId ∈ (s.persist env.rt intent).delayedIds := by
  unfold Store.persist
  split
  next kept =>
    apply sound.delayed
    cases present : s.payloads intent.intentId with
    | none => simp [present, keepsExisting] at kept
    | some text => rfl
  next replaced => exact List.mem_cons_self

theorem sound_acknowledge (sound : Sound env cfg s)
    (yields : Yields env s messageId intent) (settled : Settled s intent.intentId) :
    Sound env cfg (s.acknowledge messageId) := by
  have listed : ∀ entry ∈ (s.acknowledge messageId).stream, ∃ before ∈ s.stream,
      before.messageId = entry.messageId ∧ before.fields = entry.fields ∧
      (entry.acked = true → before.acked = true ∨ entry.messageId = messageId) := by
    intro entry mem
    obtain ⟨before, present, rfl⟩ := List.mem_map.mp mem
    refine ⟨before, present, ?_⟩
    split
    next same => exact ⟨rfl, rfl, fun _ => .inr same⟩
    next other => exact ⟨rfl, rfl, .inl⟩
  have grows := grows_acknowledge (s := s) messageId
  refine ⟨fanned_of_same sound.fanned grows rfl rfl, ?_, sound.delayed, ?_⟩
  · intro entry mem other mem' same
    obtain ⟨before, present, id, fields, -⟩ := listed entry mem
    obtain ⟨before', present', id', fields', -⟩ := listed other mem'
    rw [← fields, ← fields']
    exact sound.distinct before present before' present' (id.trans (same.trans id'.symm))
  · intro entry mem acked intent' read
    obtain ⟨before, present, id, fields, cause⟩ := listed entry mem
    rcases cause acked with already | now
    · rw [← id, ← fields] at read
      exact grows.settled (sound.acknowledged before present already intent' read)
    · obtain ⟨own, mem', sameId, read'⟩ := yields
      have sameFields := sound.distinct own mem' before present
        (sameId.trans (now.symm.trans id.symm))
      rw [now, ← fields, ← sameFields, read'] at read
      cases read
      exact grows.settled settled

theorem sound_addEntry (sound : Sound env cfg s) (fields : Fields)
    (fresh : Fresh s messageId) : Sound env cfg (s.addEntry messageId fields) := by
  have grows := grows_addEntry (s := s) messageId fields
  have listed : ∀ entry ∈ (s.addEntry messageId fields).stream,
      entry ∈ s.stream ∨ entry = ⟨messageId, fields, false⟩ := by
    intro entry mem
    rcases List.mem_append.mp mem with old | new
    · exact .inl old
    · exact .inr (List.mem_singleton.mp new)
  refine ⟨fanned_of_same sound.fanned grows rfl rfl, ?_, sound.delayed, ?_⟩
  · intro entry mem other mem' same
    rcases listed entry mem with old | rfl <;> rcases listed other mem' with old' | rfl
    · exact sound.distinct entry old other old' same
    · exact absurd same (fresh entry old)
    · exact absurd same.symm (fresh other old')
    · rfl
  · intro entry mem acked intent' read
    rcases listed entry mem with old | rfl
    · exact grows.settled (sound.acknowledged entry old acked intent' read)
    · cases acked

theorem sound_hSet (sound : Sound env cfg s) {duty : Duty} (known : Known env s duty)
    {values : Fields} (marks : Marks duty values) :
    Sound env cfg (s.hSet duty.source.intent.intentId values) := by
  have grows := grows_hSet (s := s) duty.source.intent.intentId values
  refine sound_of_same sound grows rfl ⟨?_, ?_, ?_, sound.fanned.once, ?_⟩ sound.delayed
  · intro id set
    rw [isSet_hSet, Bool.or_eq_true] at set
    rcases set with now | before
    · rw [Bool.and_eq_true, decide_eq_true_eq] at now
      obtain ⟨rfl, set⟩ := now
      cases marks with
      | eventLog value => simp [sets] at set
      | noTargets value empty => simp [sets] at set
      | completed value logged enqueued =>
        exact ⟨grows.states _ _ (known.enqueued enqueued), grows.states _ _ (known.logged logged)⟩
    · obtain ⟨enqueued, logged⟩ := sound.fanned.marked id before
      exact ⟨grows.states _ _ enqueued, grows.states _ _ logged⟩
  · intro id set
    rw [isSet_hSet, Bool.or_eq_true] at set
    rcases set with now | before
    · rw [Bool.and_eq_true, decide_eq_true_eq] at now
      obtain ⟨rfl, set⟩ := now
      cases marks with
      | eventLog value => simp [sets] at set
      | noTargets value empty => exact .inr ⟨_, _, grows.yields known.yields, rfl, empty⟩
      | completed value logged enqueued => simp [sets] at set
    · rcases sound.fanned.fannedOut id before with appended | ⟨messageId, intent, yields, rest⟩
      · exact .inl appended
      · exact .inr ⟨messageId, intent, grows.yields yields, rest⟩
  · exact fun appended mem => grows.states _ _ (sound.fanned.enqueued appended mem)
  · intro appended mem
    obtain ⟨messageId, intent, yields, rest⟩ := sound.fanned.batches appended mem
    exact ⟨messageId, intent, grows.yields yields, rest⟩

theorem grows_append (intentId outboundEnqueuedAt jobCount : String) (batch : List Fields) :
    Grows s (s.append intentId outboundEnqueuedAt jobCount batch) := by
  have appended : Grows s { s with outbound := ⟨intentId, batch⟩ :: s.outbound } :=
    ⟨fun entry mem => ⟨entry, mem, rfl, rfl⟩, fun _ _ set => set, fun _ mem => mem,
      fun _ mem => mem⟩
  exact appended.trans (grows_hSet _ _)

theorem sound_append (sound : Sound env cfg s) {intentId : String}
    {batch : List Fields} (outboundEnqueuedAt jobCount : String)
    (unset : s.isSet intentId "outboundEnqueuedAt" = false)
    (yields : Yields env s messageId intent) (same : intent.intentId = intentId)
    (targets : intent.targets ≠ []) (made : outboundBatch env cfg intent = .ok batch) :
    Sound env cfg (s.append intentId outboundEnqueuedAt jobCount batch) := by
  have grows := grows_append (s := s) intentId outboundEnqueuedAt jobCount batch
  have isSet : ∀ id field, (s.append intentId outboundEnqueuedAt jobCount batch).isSet id field =
      ((decide (id = intentId) && sets [("outboundEnqueuedAt", outboundEnqueuedAt),
        ("jobCount", jobCount)] field) || s.isSet id field) :=
    fun id field => isSet_hSet
  refine sound_of_same sound grows rfl ⟨?_, ?_, ?_, ?_, ?_⟩ sound.delayed
  · intro id set
    rw [isSet, Bool.or_eq_true] at set
    rcases set with now | before
    · simp [sets] at now
    · obtain ⟨enqueued, logged⟩ := sound.fanned.marked id before
      exact ⟨grows.states _ _ enqueued, grows.states _ _ logged⟩
  · intro id set
    by_cases own : id = intentId
    · exact .inl ⟨⟨intentId, batch⟩, List.mem_cons_self, own.symm⟩
    · rw [isSet, decide_eq_false own, Bool.false_and, Bool.false_or] at set
      rcases sound.fanned.fannedOut id set with ⟨appended, mem, rest⟩ | ⟨m, i, yields', rest⟩
      · exact .inl ⟨appended, List.mem_cons_of_mem _ mem, rest⟩
      · exact .inr ⟨m, i, grows.yields yields', rest⟩
  · intro appended mem
    rcases List.mem_cons.mp mem with rfl | old
    · rw [isSet]
      simp [sets]
    · exact grows.states _ _ (sound.fanned.enqueued appended old)
  · change (intentId :: s.outbound.map (·.intentId)).Nodup
    refine List.nodup_cons.mpr ⟨fun listed => ?_, sound.fanned.once⟩
    obtain ⟨appended, mem, rfl⟩ := List.mem_map.mp listed
    rw [sound.fanned.enqueued appended mem] at unset
    cases unset
  · intro appended mem
    rcases List.mem_cons.mp mem with rfl | old
    · exact ⟨messageId, intent, grows.yields yields, same, targets, made⟩
    · obtain ⟨m, i, yields', rest⟩ := sound.fanned.batches appended old
      exact ⟨m, i, grows.yields yields', rest⟩

variable {duty : Duty}

theorem known_mark (known : Known env s duty) {isSet : String → Bool}
    (read : ∀ field, isSet field = true → s.isSet duty.source.intent.intentId field = true) :
    Known env s (duty.mark isSet) where
  yields := known.yields
  logged set := by
    rcases Bool.or_eq_true_iff.mp set with before | now
    · exact known.logged before
    · exact read _ now
  enqueued set := by
    rcases Bool.or_eq_true_iff.mp set with before | now
    · exact known.enqueued before
    · exact read _ now
  completed set := by
    rcases Bool.or_eq_true_iff.mp set with before | now
    · exact known.completed before
    · exact read _ now
  lettered := known.lettered

theorem settled_of_known (known : Known env s duty)
    (cause : duty.completed = true ∨ duty.lettered = true) :
    Settled s duty.source.intent.intentId := by
  rcases cause with completed | lettered
  · exact .inl (known.completed completed)
  · exact .inr (.inr (known.lettered lettered))

variable {c : Call} {reply : Reply c}

theorem step_applies (sound : Sound env cfg s) (known : Known env s duty)
    (allowed : Allows env cfg duty c) (applies : Applies env c s reply t) :
    Sound env cfg t ∧ Grows s t ∧ Known env t (duty.after c reply) := by
  cases applies with
  | hGetAll =>
    cases allowed
    exact ⟨sound, Grows.refl, known_mark known fun _ set => set⟩
  | hSet =>
    rename_i intentId values
    obtain ⟨rfl, marks⟩ := allowed
    have grows := grows_hSet (s := s) duty.source.intent.intentId values
    refine ⟨sound_hSet sound known marks, grows, known_mark (grows.known known) fun field set => ?_⟩
    rw [isSet_hSet, set, decide_eq_true rfl]
    rfl
  | expire => exact ⟨sound, Grows.refl, known⟩
  | fannedOut enqueued =>
    obtain ⟨rfl, -⟩ := allowed
    exact ⟨sound, Grows.refl, known.yields, known.logged, fun _ => enqueued, known.completed,
      known.lettered⟩
  | fanOut unset =>
    rename_i intentId outboundEnqueuedAt batch
    obtain ⟨rfl, targets, made⟩ := allowed
    have grows := grows_append (s := s) duty.source.intent.intentId outboundEnqueuedAt
      (jobCountText env batch) batch
    have later := grows.known known
    refine ⟨sound_append sound _ _ unset known.yields rfl targets made, grows, later.yields,
      later.logged, fun _ => ?_, later.completed, later.lettered⟩
    unfold Store.append
    rw [isSet_hSet, Bool.or_eq_true]
    exact .inl (by simp [sets, Duty.after])
  | persistAndAck =>
    rename_i messageId intent
    obtain ⟨rfl, copy⟩ := allowed
    have first : Grows s (s.persist env.rt intent) := grows_persist intent
    have persisted := sound_persist sound intent
    have delayed := delayed_persist sound intent
    rw [copy] at delayed
    have grows := first.trans (grows_acknowledge duty.source.messageId)
    exact ⟨sound_acknowledge persisted (first.yields known.yields) (.inr (.inl delayed)), grows,
      grows.known known⟩
  | moveToDlq =>
    rename_i intent reason
    have grows := grows_letter (s := s) ⟨intent.intentId, reason, some intent⟩
    have later := grows.known known
    exact ⟨sound_letter sound _, grows, later.yields, later.logged, later.enqueued,
      later.completed, fun _ => ⟨_, List.mem_cons_self, allowed⟩⟩
  | ack =>
    obtain ⟨rfl, cause⟩ := allowed
    have grows := grows_acknowledge (s := s) duty.source.messageId
    exact ⟨sound_acknowledge sound known.yields (settled_of_known known cause), grows,
      grows.known known⟩

theorem after_of_threw (failed : threw c reply = true) :
    duty.after c reply = duty := by
  cases c with
  | now => cases failed
  | expire | publishTombstone | publishToStream1 | persistAndAck | ack => rfl
  | hGetAll | hSet | fanOut | moveToDlq =>
    cases reply with
    | ok value => cases failed
    | error e => rfl

theorem step_effect (sound : Sound env cfg s) (known : Known env s duty)
    (allowed : Allows env cfg duty c) (effect : Effect env c s reply t) :
    Sound env cfg t ∧ Grows s t ∧ Known env t (duty.after c reply) := by
  cases effect with
  | applied applies => exact step_applies sound known allowed applies
  | refused failed => exact ⟨sound, Grows.refl, by rw [after_of_threw failed]; exact known⟩
  | replyLost applies failed =>
    obtain ⟨sound, grows, -⟩ := step_applies sound known allowed applies
    exact ⟨sound, grows, by rw [after_of_threw failed]; exact grows.known known⟩
  | elsewhere outside =>
    refine ⟨sound, Grows.refl, ?_⟩
    rw [after_of_ignored (by cases c <;> first | rfl | exact outside)]
    exact known

theorem step_promotes {due : List String} (promotes : Promotes env due s t)
    (sound : Sound env cfg s) : Sound env cfg t ∧ Grows s t := by
  induction promotes with
  | done => exact ⟨sound, Grows.refl⟩
  | failed _ => exact ⟨sound, Grows.refl⟩
  | dead _ _ ih =>
    obtain ⟨sound, grows⟩ := ih (sound_removeDelayed (sound_letter sound _) _)
    exact ⟨sound, ((grows_letter _).trans (grows_removeDelayed _)).trans grows⟩
  | promoted _ fresh _ ih =>
    obtain ⟨sound, grows⟩ := ih (sound_removeDelayed (sound_addEntry sound _ fresh) _)
    exact ⟨sound, ((grows_addEntry _ _).trans (grows_removeDelayed _)).trans grows⟩

theorem step_acts {event : Event} (acts : Acts env event s t) (sound : Sound env cfg s) :
    Sound env cfg t ∧ Grows s t := by
  cases acts with
  | enqueue fresh => exact ⟨sound_addEntry sound _ fresh, grows_addEntry _ _⟩
  | promoteDue _ promotes => exact step_promotes promotes sound

end Store

def Invariant (env : Environment) (cfg : Config) (s : Store)
    (duties : Nat → Option (Unit × Duty)) : Prop :=
  Sound env cfg s ∧ ∀ i tag duty, duties i = some (tag, duty) → Known env s duty

theorem preserves_invariant (env : Environment) (cfg : Config) :
    Preserves (intentSystem env cfg) always (fanOutMonitor env cfg) (Invariant env cfg) where
  call s duties i tag duty c reply after inv held allowed effect := by
    obtain ⟨sound, grows, known⟩ := step_effect inv.1 (inv.2 i tag duty held) allowed effect
    refine ⟨sound, fun j tag' duty' here => ?_⟩
    unfold setDuty at here
    split at here
    · cases here
      exact known
    · exact grows.known (inv.2 j tag' duty' here)
  stop s duties i inv := by
    refine ⟨inv.1, fun j tag' duty' here => ?_⟩
    unfold setDuty at here
    split at here
    · cases here
    · exact inv.2 j tag' duty' here
  start pool duties i worker _ inv _ starts := by
    cases starts with
    | @consume entry intent present read =>
      refine ⟨Duty.start entry.messageId intent, obeys_start _ _, inv.1, fun j tag' duty' here => ?_⟩
      unfold setDuty at here
      split at here
      · cases here
        exact ⟨⟨entry, present, rfl, read⟩, nofun, nofun, nofun, nofun⟩
      · exact inv.2 j tag' duty' here
  act pool duties event after _ inv acts := by
    obtain ⟨sound, grows⟩ := step_acts acts inv.1
    exact ⟨sound, fun i tag duty held => grows.known (inv.2 i tag duty held)⟩

theorem sound_initial : Sound env cfg Store.initial :=
  ⟨⟨nofun, nofun, nofun, List.nodup_nil, nofun⟩, nofun, nofun, nofun⟩

def appends (s : Store) (id : String) : Nat := (s.outbound.map (·.intentId)).count id

/-- The jobs of an intent are appended once where it is completed and has targets, and
never more than once; the marks of a completed intent came first; an acknowledged entry
is settled. -/
structure FannedOutOnce (env : Environment) (cfg : Config) (s : Store) : Prop where
  atMostOnce : ∀ id, appends s id ≤ 1
  once : ∀ id, s.isSet id "completedAt" = true →
    (∀ messageId intent, Yields env s messageId intent → intent.intentId = id →
      intent.targets ≠ []) → appends s id = 1
  noTargets : ∀ id, (∀ messageId intent, Yields env s messageId intent → intent.intentId = id →
      intent.targets = []) → appends s id = 0
  jobs : ∀ appended ∈ s.outbound, ∃ messageId intent, Yields env s messageId intent ∧
    intent.intentId = appended.intentId ∧ outboundBatch env cfg intent = .ok appended.batch
  completedLast : ∀ id, s.isSet id "completedAt" = true →
    s.isSet id "outboundEnqueuedAt" = true ∧ s.isSet id "eventLogPublishedAt" = true
  acknowledged : ∀ entry ∈ s.stream, entry.acked = true → ∀ intent,
    deserializeOutboxIntent env.rt env.codec entry.messageId entry.fields = .ok intent →
    Settled s intent.intentId

theorem fannedOutOnce_of_sound {s : Store} (sound : Sound env cfg s) : FannedOutOnce env cfg s where
  atMostOnce id := List.nodup_iff_count_le_one.mp sound.fanned.once id
  once id completed targets := by
    apply List.count_eq_one_of_mem sound.fanned.once
    rcases sound.fanned.fannedOut id (sound.fanned.marked id completed).1 with
      ⟨appended, mem, rfl⟩ | ⟨messageId, intent, yields, same, empty⟩
    · exact List.mem_map_of_mem mem
    · exact absurd empty (targets messageId intent yields same)
  noTargets id none := by
    apply List.count_eq_zero_of_not_mem
    intro listed
    obtain ⟨appended, mem, rfl⟩ := List.mem_map.mp listed
    obtain ⟨messageId, intent, yields, same, targets, -⟩ := sound.fanned.batches appended mem
    exact targets (none messageId intent yields same)
  jobs appended mem := by
    obtain ⟨messageId, intent, yields, same, -, made⟩ := sound.fanned.batches appended mem
    exact ⟨messageId, intent, yields, same, made⟩
  completedLast := sound.fanned.marked
  acknowledged := sound.acknowledged

/-- In every run of any number of workers over any entries, with crashes between any two
calls. -/
theorem fanned_out_once (env : Environment) (cfg : Config)
    (pool : Pool Store Unit Call Reply Failure Unit)
    (run : Reaches (Step (intentSystem env cfg)) always (Pool.idle Store.initial) pool) :
    FannedOutOnce env cfg pool.shared := by
  have start : Invariant env cfg Store.initial fun _ => none := by
    refine ⟨sound_initial, fun i tag duty held => ?_⟩
    cases held
  obtain ⟨duties, inv⟩ := invariant (preserves_invariant env cfg) start run
  exact fannedOutOnce_of_sound inv.1

def observedRuntime : Runtime where
  stringify _ := "\x7b\x7d"
  parse text := if text = "[]" then .ok (.arr []) else .ok (.obj [])
  cjsonDecode _ := none
  cjsonEncode _ := "\x7b\x7d"
  reprint n := n
  numberToString n := toString n
  parseInt text := if text = "8" then 8 else if text = "1" then 1 else 0
  luaToString n := toString n.num
  numeral _ := false

def observedEnvironment : Environment where
  rt := observedRuntime
  codec := ⟨.ok, .ok⟩
  trim text := text
  parseUrl _ := none
  isIPv4 _ := false
  toLowerCase text := text
  applyDeliveryPolicy activity _ _ := .ok (.obj activity)

def observedConfig : Config where
  outboundJobMaxAttempts := 10
  redpanda := true
  delayScheduler := true

def observedIntent : OutboxIntent :=
  ⟨"intent-1", "note", "https://a.example/alice", "\x7b\x7d", [], 1, 0, 8, 0, none, none, none⟩

def observedFields : Fields :=
  [("intentId", "intent-1"), ("activityId", "note"), ("actorUri", "https://a.example/alice"),
   ("activity", "\x7b\x7d"), ("targets", "[]"), ("createdAt", "1"), ("attempt", "0"),
   ("maxAttempts", "8"), ("notBeforeMs", "0"), ("lastError", ""), ("meta", ""),
   ("bridgeHints", "")]

def enqueuedStore : Store := Store.initial.addEntry "1-0" observedFields

theorem reaches_enqueued :
    Reaches (Step (intentSystem observedEnvironment observedConfig)) always
      (Pool.idle Store.initial) (Pool.idle enqueuedStore) := by
  have fresh : Fresh Store.initial "1-0" := by
    intro entry mem
    cases mem
  exact reaches_act Reaches.refl trivial (.enqueue fresh)

theorem read_observedFields :
    deserializeOutboxIntent observedEnvironment.rt observedEnvironment.codec "1-0"
      observedFields = .ok observedIntent := by
  rfl

/-- A worker starts on the only entry and crashes after its first call. -/
theorem fanned_out_once_crash :
    FannedOutOnce observedEnvironment observedConfig enqueuedStore := by
  have present : ⟨"1-0", observedFields, false⟩ ∈ enqueuedStore.stream := List.mem_singleton.mpr rfl
  have starts : Starts observedEnvironment observedConfig enqueuedStore _ :=
    .consume present read_observedFields
  have started := reaches_start reaches_enqueued trivial starts
  have reads : Effect observedEnvironment .now enqueuedStore (1 : Int) enqueuedStore :=
    .elsewhere rfl
  have called := reaches_call started trivial reads
  exact fanned_out_once _ _ _ (reaches_stop called trivial)

end MastopodFederation.Guarantees.FanOutOnce
