import MastopodFederation.Guarantees.DelayedDelivery
import MastopodFederation.Guarantees.OneDisposition

/-!
# No outbound job is lost

Workers can crash before any Redis command, and a command can fail with or without effect. A
worker acknowledges an entry only after the job is durable elsewhere (`handleEntry_keeps`), so
every job ever enqueued keeps a holder that no worker is about to acknowledge: an
unacknowledged ready entry, the delayed store, a dead letter or its completed marker.
-/
namespace MastopodFederation.Guarantees.NoLostJob
open Lib.LuaTable Lib.Calls Lib.WorkerPool Lib.GuardedRun Source.DelayedQueue
open Source.OutboundWorker Source.OutboundQueue OutboundCalls

/-- A worker enqueues jobs, or settles the entry of a job, which is durable elsewhere once
the flag is set. -/
inductive Duty where
  | produces
  | settles (messageId jobId : String) (durable : Bool)

def Carries (fields : Fields) (jobId : String) : Prop := fields.lookup "jobId" = some jobId

def repliesCompleted : Except Failure DeliveryClaimResult → Bool
  | .ok .completed => true
  | _ => false

def makesDurable : (c : Call) → Reply c → Bool
  | .claim .., reply => repliesCompleted reply
  | .complete .., reply | .addReady _, reply | .storeDelayedOutbound _, reply
  | .parkDelayedOutbound .., reply | .moveToDlq .., reply => !isError reply
  | _, _ => false

def Duty.allows : Duty → Call → Prop
  | .produces, .addReady _ | .produces, .storeDelayedOutbound _ => True
  | .produces, _ => False
  | .settles messageId _ durable, .ack id => id = messageId ∧ durable = true
  | .settles messageId jobId _, .parkDelayedOutbound id job => id = messageId ∧ job.jobId = jobId
  | .settles _ jobId _, .claim id .. | .settles _ jobId _, .complete id .. => id = jobId
  | .settles _ jobId _, .moveToDlq job _ | .settles _ jobId _, .storeDelayedOutbound job =>
    job.jobId = jobId
  | .settles _ jobId _, .addReady batch => batch ≠ [] ∧ ∀ fields ∈ batch, Carries fields jobId
  | .settles .., _ => True

def Duty.after : Duty → (c : Call) → Reply c → Duty
  | .produces, _, _ => .produces
  | .settles messageId jobId durable, c, reply =>
    .settles messageId jobId (durable || makesDurable c reply)

def custody : Monitor Call Reply Duty := ⟨Duty.allows, Duty.after⟩

def Mine (messageId jobId : String) (duty : Duty) : Prop :=
  ∃ durable, duty = .settles messageId jobId durable

section Handler
variable (env : Environment) (cfg : Config) {messageId : String} {job : OutboundJob}
  {durable : Bool}

variable {jobId : String}

theorem keeps_aside {α : Type} {x : Program α} (only : Only Aside x) :
    Keeps custody (Mine messageId jobId) x := by
  intro duty mine
  obtain ⟨durable, rfl⟩ := mine
  induction x with
  | done outcome => exact ⟨durable, rfl⟩
  | call c next ih =>
    have quiet := only.1
    refine ⟨?_, fun r => ?_⟩
    · cases c <;> first | exact trivial | cases quiet
    · have same : custody.after (.settles messageId jobId durable) c r =
          .settles messageId jobId durable := by
        cases c <;> first | exact congrArg _ (Bool.or_false durable) | cases quiet
      rw [same]
      exact ih r (only.2 r)

variable {claimToken : String}

theorem keeps_release :
    Keeps custody (Mine messageId jobId) (release jobId claimToken) := by
  rintro duty ⟨durable, rfl⟩
  exact ⟨trivial, fun r => ⟨durable, congrArg _ (Bool.or_false durable)⟩⟩

theorem keeps_releaseDomainSlot {domain : String} :
    Keeps custody (Mine messageId jobId) (.call (.releaseDomainSlot domain) .done : Program Unit) := by
  rintro duty ⟨durable, rfl⟩
  exact ⟨trivial, fun r => ⟨durable, congrArg _ (Bool.or_false durable)⟩⟩

theorem meets_ack :
    Meets custody (ack messageId) (fun t _ => Mine messageId jobId t)
      (.settles messageId jobId true) :=
  ⟨⟨rfl, rfl⟩, fun _ => ⟨true, rfl⟩⟩

variable {reason : String} {post : Duty → Except Failure Unit → Prop}

theorem meets_moveToDlq (same : job.jobId = jobId)
    (written : post (.settles messageId jobId true) (.ok ()))
    (failed : ∀ e, post (.settles messageId jobId durable) (.error e)) :
    Meets custody (moveToDlq job reason) post (.settles messageId jobId durable) := by
  refine ⟨same, fun r => ?_⟩
  cases r with
  | ok _ => simpa [custody, Duty.after, makesDurable, isError] using written
  | error e => simpa [custody, Duty.after, makesDurable, isError] using failed e

theorem keeps_deadLetter (same : job.jobId = jobId) :
    Keeps custody (Mine messageId jobId) (deadLetter messageId job reason) := by
  rintro duty ⟨durable, rfl⟩
  unfold deadLetter
  rw [meets_bind]
  exact meets_moveToDlq same meets_ack fun _ => ⟨durable, rfl⟩

variable {fields : Fields}

theorem carries_of_serialize
    (serialized : serializeOutboundJob env.rt env.codec job = .ok fields) :
    Carries fields job.jobId := by
  unfold serializeOutboundJob at serialized
  cases encoded : env.codec.encode job.activity with
  | error e => simp [encoded, bind, Except.bind] at serialized
  | ok activity =>
    simp only [encoded, bind, Except.bind, pure, Except.pure, Except.ok.injEq] at serialized
    subst serialized
    rfl

theorem ensureFirstQueuedAt_jobId (fallbackMs : Int) :
    (ensureFirstQueuedAt job fallbackMs).jobId = job.jobId := by
  unfold ensureFirstQueuedAt
  split
  · split <;> rfl
  · rfl

theorem meets_enqueueOutbound (same : job.jobId = jobId)
    (stored : post (.settles messageId jobId true) (.ok ()))
    (failed : ∀ e, post (.settles messageId jobId durable) (.error e)) :
    Meets custody (enqueueOutbound env job) post (.settles messageId jobId durable) := by
  rw [enqueueOutbound_eq, meets_bind]
  refine ⟨trivial, fun nowMs => ?_⟩
  have unchanged : custody.after (.settles messageId jobId durable) .now nowMs =
      .settles messageId jobId durable := congrArg _ (Bool.or_false durable)
  rw [unchanged]
  change Meets custody (enqueueOne env (ensureFirstQueuedAt job nowMs) nowMs) post _
  have stamped : (ensureFirstQueuedAt job nowMs).jobId = jobId :=
    (ensureFirstQueuedAt_jobId nowMs).trans same
  unfold enqueueOne
  split
  · refine ⟨stamped, fun r => ?_⟩
    cases r with
    | ok _ => simpa [custody, Duty.after, makesDurable, isError] using stored
    | error e => simpa [custody, Duty.after, makesDurable, isError] using failed e
  · split
    next fields serialized =>
      refine ⟨⟨List.cons_ne_nil _ _, fun other mem => ?_⟩, fun r => ?_⟩
      · rw [List.mem_singleton.mp mem, ← stamped]
        exact carries_of_serialize env serialized
      · cases r with
        | ok _ => simpa [custody, Duty.after, makesDurable, isError] using stored
        | error e => simpa [custody, Duty.after, makesDurable, isError] using failed e
    · exact failed _

theorem keeps_defer {baseDelayMs : Int} (same : job.jobId = jobId) :
    Keeps custody (Mine messageId jobId) (defer env cfg messageId job reason baseDelayMs) := by
  rintro duty ⟨durable, rfl⟩
  unfold defer deferOrParkJob
  dsimp only
  rw [meets_bind]
  split
  · apply meets_moveToDlq
    · exact same
    · exact meets_ack
    · exact fun _ => ⟨durable, rfl⟩
  · rw [meets_bind]
    apply (keeps_aside (only_notReadyJitter cfg) _ ⟨durable, rfl⟩).imp
    rintro t outcome ⟨durable, rfl⟩
    cases outcome with
    | error e => exact ⟨durable, rfl⟩
    | ok jitterMs =>
      rw [then_ok, meets_bind]
      apply (keeps_aside only_clock _ ⟨durable, rfl⟩).imp
      rintro t outcome ⟨durable, rfl⟩
      cases outcome with
      | error e => exact ⟨durable, rfl⟩
      | ok nowMs =>
        apply meets_enqueueOutbound
        · exact same
        · exact meets_ack
        · exact fun _ => ⟨durable, rfl⟩

theorem keeps_claimHeld {α : Type} {held : Bool} {body : Program α}
    (keeps : Keeps custody (Mine messageId jobId) body) :
    Keeps custody (Mine messageId jobId) (claimHeld held body) := keeps_mapError keeps

theorem keeps_callAdapter {hook : Program Unit}
    (keeps : Keeps custody (Mine messageId jobId) hook) :
    Keeps custody (Mine messageId jobId) (callAdapter hook) :=
  keeps_rescue keeps fun _ => keeps_pure _

variable {result : DeliveryResult}

theorem keeps_settleSuccess : Keeps custody (Mine messageId job.jobId)
      (settleSuccess cfg messageId claimToken job result) := by
  rintro duty ⟨durable, rfl⟩
  unfold settleSuccess
  rw [meets_bind, meets_attempt]
  refine ⟨rfl, fun r => ?_⟩
  cases r with
  | error e => exact ⟨durable, congrArg _ (Bool.or_false durable)⟩
  | ok u =>
    have marked : custody.after (.settles messageId job.jobId durable)
        (.complete job.jobId claimToken cfg.deliveryCompletedTtlMs) (.ok u) =
        .settles messageId job.jobId true := congrArg _ (Bool.or_true durable)
    rw [meets_done, then_ok, marked, meets_bind]
    change Meets custody ((ack messageId).mapError _) _ _
    rw [meets_mapError]
    apply meets_ack.imp
    intro t outcome mine
    cases outcome with
    | error e => exact mine
    | ok _ =>
      apply keeps_bind (keeps_claimHeld (keeps_callAdapter (keeps_aside (only_ask rfl)))) _ t mine
      exact fun _ => keeps_pure _

theorem keeps_settleFailure : Keeps custody (Mine messageId job.jobId)
      (settleFailure env messageId claimToken job result) := by
  unfold settleFailure
  apply keeps_bind (keeps_claimHeld keeps_release)
  intro _
  apply keeps_claimHeld
  split
  · apply keeps_bind (keeps_deadLetter rfl)
    exact fun _ => keeps_callAdapter (keeps_aside (only_ask rfl))
  · dsimp only
    split
    · apply keeps_bind
      · exact keeps_deadLetter rfl
      · exact fun _ => keeps_callAdapter (keeps_aside (only_ask rfl))
    · apply keeps_bind (keeps_aside only_clock)
      rintro nowMs duty ⟨durable, rfl⟩
      rw [meets_bind]
      apply meets_enqueueOutbound
      · rfl
      · exact meets_ack
      · exact fun _ => ⟨durable, rfl⟩

theorem keeps_deliverInSlot :
    Keeps custody (Mine messageId job.jobId)
      (deliverInSlot env cfg messageId claimToken job) := by
  unfold deliverInSlot
  apply keeps_bind (keeps_claimHeld (keeps_aside only_clock))
  intro nowMs
  split
  · apply keeps_bind (keeps_claimHeld keeps_release)
    intro _
    apply keeps_bind
    · exact keeps_claimHeld (keeps_deadLetter rfl)
    · exact fun _ => keeps_pure _
  · apply keeps_bind (keeps_claimHeld (keeps_aside (only_deliver env cfg job)))
    intro result
    split
    · exact keeps_settleSuccess cfg
    · apply keeps_bind (keeps_settleFailure env)
      exact fun _ => keeps_pure _

theorem keeps_withDomainSlot :
    Keeps custody (Mine messageId job.jobId)
      (withDomainSlot env cfg messageId claimToken job) := by
  unfold withDomainSlot
  apply keeps_bind (keeps_attempt (keeps_deliverInSlot env cfg))
  intro outcome
  apply keeps_bind (keeps_claimHeld keeps_releaseDomainSlot)
  intro _
  cases outcome with
  | ok _ => exact keeps_pure _
  | error _ => exact keeps_fail _

theorem keeps_processClaimed :
    Keeps custody (Mine messageId job.jobId)
      (processClaimed env cfg messageId claimToken job) := by
  unfold processClaimed
  apply keeps_bind (keeps_claimHeld (keeps_aside (only_ask rfl)))
  intro blocked
  split
  · apply keeps_bind (keeps_claimHeld keeps_release)
    exact fun _ => keeps_claimHeld (keeps_deadLetter rfl)
  · apply keeps_bind (keeps_claimHeld (keeps_aside (only_ask rfl)))
    intro withinLimit
    split
    · apply keeps_bind (keeps_claimHeld keeps_release)
      exact fun _ => keeps_claimHeld (keeps_defer env cfg rfl)
    · apply keeps_bind (keeps_claimHeld (keeps_aside (only_ask rfl)))
      intro slot
      split
      · apply keeps_bind (keeps_claimHeld keeps_release)
        exact fun _ => keeps_claimHeld (keeps_defer env cfg rfl)
      · exact keeps_withDomainSlot env cfg

theorem keeps_claimAndProcess :
    Keeps custody (Mine messageId job.jobId)
      (claimAndProcess env cfg messageId claimToken job) := by
  rintro duty ⟨durable, rfl⟩
  unfold claimAndProcess
  rw [meets_bind]
  change Meets custody (Prog.mapError _ _) _ _
  rw [meets_mapError]
  refine ⟨rfl, fun r => ?_⟩
  cases r with
  | error e => exact ⟨durable, congrArg _ (Bool.or_false durable)⟩
  | ok state =>
    cases state with
    | claimed => exact keeps_processClaimed env cfg _ ⟨durable, congrArg _ (Bool.or_false durable)⟩
    | inFlight =>
      exact keeps_claimHeld (keeps_defer env cfg rfl) _
        ⟨durable, congrArg _ (Bool.or_false durable)⟩
    | completed =>
      have marked : custody.after (.settles messageId job.jobId durable)
          (.claim job.jobId claimToken cfg.deliveryClaimTtlMs) (.ok .completed) =
          .settles messageId job.jobId true := congrArg _ (Bool.or_true durable)
      rw [marked]
      change Meets custody ((ack messageId).mapError _) _ _
      rw [meets_mapError]
      exact meets_ack

theorem keeps_attemptJob {startedAt : Int} :
    Keeps custody (Mine messageId job.jobId)
      (attemptJob env cfg messageId claimToken startedAt job) := by
  unfold attemptJob
  split
  · exact keeps_claimHeld (keeps_deadLetter rfl)
  · apply keeps_bind (keeps_claimHeld (keeps_aside (only_capabilityGate cfg)))
    intro gate
    split
    · exact keeps_claimHeld (keeps_deadLetter rfl)
    · apply keeps_bind (keeps_claimHeld (keeps_aside (only_waitUntilReady job)))
      intro pending
      split
      · exact keeps_pure _
      · exact keeps_claimAndProcess env cfg

theorem keeps_processJob :
    Keeps custody (Mine messageId job.jobId) (processJob env cfg messageId job) := by
  unfold processJob
  apply keeps_bind (keeps_aside only_clock)
  intro startedAt
  apply keeps_bind (keeps_aside (only_ask rfl))
  intro claimToken
  apply keeps_rescue (keeps_attemptJob env cfg)
  intro thrown
  unfold recover
  dsimp only
  split
  · apply keeps_bind (keeps_callAdapter keeps_release)
    exact fun _ => keeps_deadLetter rfl
  · exact keeps_deadLetter rfl

theorem keeps_persistDeadLetter (same : job.jobId = jobId) :
    ∀ (fuel : Nat) (delay : Int), ∀ durable, Meets custody (persistDeadLetter fuel job delay)
      (fun t outcome => t = .settles messageId jobId true ∨
        ∃ e, outcome = .error e ∧ Mine messageId jobId t) (.settles messageId jobId durable)
  | 0, _, durable => .inr ⟨interrupted, rfl, durable, rfl⟩
  | fuel + 1, delay, durable => by
    unfold persistDeadLetter
    dsimp only
    rw [meets_bind, meets_attempt]
    apply meets_moveToDlq
    · exact same
    · exact .inl rfl
    · intro e
      rw [then_ok, meets_bind]
      apply (keeps_aside (only_ask rfl) _ ⟨durable, rfl⟩).imp
      rintro t outcome ⟨durable, rfl⟩
      cases outcome with
      | ok _ => exact keeps_persistDeadLetter same fuel _ durable
      | error e => exact .inr ⟨e, rfl, durable, rfl⟩


theorem keeps_parkUntilSettled (same : job.jobId = jobId) :
    ∀ (fuel : Nat) (delay : Int),
      Keeps custody (Mine messageId jobId) (parkUntilSettled fuel messageId job delay)
  | 0, _ => keeps_fail _
  | fuel + 1, delay => by
    unfold parkUntilSettled
    have parks : Keeps custody (Mine messageId jobId)
        (.call (.parkDelayedOutbound messageId job) .done : Program Unit) := by
      rintro duty ⟨durable, rfl⟩
      exact ⟨⟨rfl, same⟩, fun r => ⟨_, rfl⟩⟩
    apply keeps_bind (keeps_attempt parks)
    intro parked
    cases parked with
    | ok _ => exact keeps_pure _
    | error _ =>
      apply keeps_bind (keeps_aside (only_ask rfl))
      intro _
      apply keeps_bind (keeps_aside only_clock)
      intro nowMs
      split
      · rintro duty ⟨durable, rfl⟩
        rw [meets_bind]
        apply (keeps_persistDeadLetter same fuel _ durable).imp
        rintro t outcome (rfl | ⟨e, rfl, mine⟩)
        · cases outcome with
          | error e => exact ⟨true, rfl⟩
          | ok _ =>
            have acks : Keeps custody (· = .settles messageId jobId true)
                (callAdapter (ack messageId)) := by
              apply keeps_rescue
              · rintro t rfl
                exact ⟨⟨rfl, rfl⟩, fun r => rfl⟩
              · exact fun _ => keeps_pure _
            rw [then_ok, meets_bind]
            apply (acks _ rfl).imp
            rintro t outcome rfl
            cases outcome with
            | ok _ => exact ⟨true, rfl⟩
            | error _ => exact ⟨true, rfl⟩
        · exact mine
      · apply keeps_bind (keeps_aside only_clock)
        intro laterMs
        split
        · exact keeps_parkUntilSettled same fuel _
        · exact keeps_pure _

theorem keeps_consumeEntry (same : job.jobId = jobId) (fuel : Nat) :
    Keeps custody (Mine messageId jobId) (consumeEntry env fuel messageId job) := by
  unfold consumeEntry
  split
  · exact keeps_pure _
  next streamTimestamp _ =>
    have stamped : (ensureFirstQueuedAt job streamTimestamp).jobId = jobId :=
      (ensureFirstQueuedAt_jobId _).trans same
    dsimp only
    apply keeps_bind (keeps_aside only_clock)
    intro nowMs
    split
    · apply keeps_bind
      · exact keeps_callAdapter (keeps_deadLetter stamped)
      · exact fun _ => keeps_pure _
    · apply keeps_bind (keeps_aside only_clock)
      intro laterMs
      split
      · apply keeps_bind (keeps_parkUntilSettled stamped fuel _)
        intro parked
        split
        · exact keeps_pure _
        · exact keeps_pure _
      · exact keeps_pure _

theorem consumed_jobId : (consumed messageId job).jobId = job.jobId := by
  unfold consumed
  split
  · rfl
  · exact ensureFirstQueuedAt_jobId _

theorem jobId_of_deserialize (carries : Carries fields jobId)
    (parsed : deserializeOutboundJob env.rt env.codec messageId fields = .ok job) :
    job.jobId = jobId := by
  have read := (fields_of_deserialize env parsed).1
  unfold requireField at read
  rw [show fields.lookup "jobId" = some jobId from carries] at read
  exact (Except.ok.inj read).symm

theorem keeps_handleEntry (carries : Carries fields jobId)
    (fuel : Nat) :
    Keeps custody (Mine messageId jobId) (handleEntry env cfg fuel messageId fields) := by
  unfold handleEntry
  split
  · exact keeps_pure _
  next job parsed =>
    have same : job.jobId = jobId := jobId_of_deserialize env carries parsed
    apply (keeps_consumeEntry env same fuel).bind_returns (returns_consumeEntry env fuel _ _)
    intro yielded named
    cases yielded with
    | none => exact keeps_pure _
    | some job' =>
      rw [named job' rfl, ← same, ← consumed_jobId]
      exact keeps_processJob env cfg

end Handler

def Held (s : Store) (jobId : String) : Prop :=
  (∃ entry ∈ s.ready, entry.acked = false ∧ Carries entry.fields jobId) ∨
  ((s.schedule jobId).isSome ∧ (s.payloads jobId).isSome) ∨
  (∃ job ∈ s.deadLetters, job.jobId = jobId) ∨ jobId ∈ s.completed

def Enqueued (s : Store) (jobId : String) : Prop :=
  (∃ entry ∈ s.ready, Carries entry.fields jobId) ∨ (s.payloads jobId).isSome

abbrev Duties := Nat → Option (Int × Duty)

def Settling (duties : Duties) (messageId : String) : Prop :=
  ∃ i origin jobId, duties i = some (origin, .settles messageId jobId true)

def Safe (s : Store) (duties : Duties) (jobId : String) : Prop :=
  (∃ entry ∈ s.ready, entry.acked = false ∧ Carries entry.fields jobId ∧
    ¬ Settling duties entry.messageId) ∨
  (s.payloads jobId).isSome ∨ (∃ job ∈ s.deadLetters, job.jobId = jobId) ∨ jobId ∈ s.completed

structure Kept (rt : Runtime) (s : Store) (duties : Duties) : Prop where
  ids : s.ids.Nodup
  stored : ∀ id text, s.payloads id = some text →
    ∃ job : OutboundJob, job.jobId = id ∧ text = rt.stringify job.toJson
  paired : ∀ id, (s.schedule id).isSome = (s.payloads id).isSome
  sources : ∀ i origin messageId jobId durable,
    duties i = some (origin, .settles messageId jobId durable) →
    ∃ entry ∈ s.ready, entry.messageId = messageId ∧ Carries entry.fields jobId

theorem carries_unique {fields : Fields} {left right : String} (first : Carries fields left)
    (second : Carries fields right) : left = right :=
  Option.some.inj (first.symm.trans second)

section Store
variable {rt : Runtime} {s : Store} {duties : Duties}

theorem entry_unique (ids : s.ids.Nodup) {left right : ReadyEntry} (first : left ∈ s.ready)
    (second : right ∈ s.ready) (same : left.messageId = right.messageId) : left = right :=
  List.inj_on_of_nodup_map ids first second same

variable {messageId : String} {entry : ReadyEntry}

theorem mem_acknowledge (mem : entry ∈ s.ready)
    (other : entry.messageId ≠ messageId) : entry ∈ (s.acknowledge messageId).ready :=
  List.mem_map.mpr ⟨entry, mem, if_neg other⟩

theorem of_mem_acknowledge
    (mem : entry ∈ (s.acknowledge messageId).ready) :
    ∃ before ∈ s.ready, entry.messageId = before.messageId ∧ entry.fields = before.fields := by
  obtain ⟨before, present, rfl⟩ := List.mem_map.mp mem
  refine ⟨before, present, ?_⟩
  split <;> exact ⟨rfl, rfl⟩

theorem exists_acknowledge (messageId : String) (mem : entry ∈ s.ready) :
    ∃ after ∈ (s.acknowledge messageId).ready,
      after.messageId = entry.messageId ∧ after.fields = entry.fields := by
  refine ⟨_, List.mem_map.mpr ⟨entry, mem, rfl⟩, ?_⟩
  split <;> exact ⟨rfl, rfl⟩

theorem ids_acknowledge (messageId : String) : (s.acknowledge messageId).ids = s.ids := by
  unfold Store.ids Store.acknowledge
  rw [List.map_map]
  apply List.map_congr_left
  intro entry _
  simp only [Function.comp]
  split <;> rfl

theorem payloads_storeDelayed (origin : Int) (job : OutboundJob) :
    (s.storeDelayed rt origin job).payloads = parkDelayedOutbound rt s.payloads job := by
  unfold Store.storeDelayed parkDelayedOutbound park
  split <;> rfl

theorem ready_storeDelayed (origin : Int) (job : OutboundJob) :
    (s.storeDelayed rt origin job).ready = s.ready := by
  unfold Store.storeDelayed
  split <;> rfl

theorem deadLetters_storeDelayed (origin : Int) (job : OutboundJob) :
    (s.storeDelayed rt origin job).deadLetters = s.deadLetters := by
  unfold Store.storeDelayed
  split <;> rfl

theorem completed_storeDelayed (origin : Int) (job : OutboundJob) :
    (s.storeDelayed rt origin job).completed = s.completed := by
  unfold Store.storeDelayed
  split <;> rfl

variable (payloads : PayloadHash)

theorem parked_isSome (job : OutboundJob) :
    (parkDelayedOutbound rt payloads job job.jobId).isSome := by
  unfold parkDelayedOutbound park
  split
  next keeps =>
    cases present : payloads job.jobId with
    | some text => rfl
    | none => simp [present, keepsExisting] at keeps
  · simp

theorem parked_other (job : OutboundJob) {id : String}
    (other : id ≠ job.jobId) : parkDelayedOutbound rt payloads job id = payloads id := by
  unfold parkDelayedOutbound park
  split
  · rfl
  · exact if_neg other

theorem parked_mono (job : OutboundJob) {id : String}
    (present : (payloads id).isSome) : (parkDelayedOutbound rt payloads job id).isSome := by
  by_cases same : id = job.jobId
  · rw [same]
    exact parked_isSome payloads job
  · rwa [parked_other payloads job same]

structure Advances (rt : Runtime) (duties : Duties) (s after : Store) : Prop where
  kept : Kept rt after duties
  safe : ∀ jobId, Safe s duties jobId → Safe after duties jobId
  fresh : ∀ jobId, Enqueued after jobId → Enqueued s jobId ∨ Safe after duties jobId

theorem advances_refl (kept : Kept rt s duties) : Advances rt duties s s :=
  ⟨kept, fun _ safe => safe, fun _ enqueued => .inl enqueued⟩

theorem Advances.trans {mid after : Store} (first : Advances rt duties s mid)
    (second : Advances rt duties mid after) : Advances rt duties s after := by
  refine ⟨second.kept, fun j safe => second.safe j (first.safe j safe), fun j enqueued => ?_⟩
  rcases second.fresh j enqueued with early | safe
  · rcases first.fresh j early with earlier | safe
    · exact .inl earlier
    · exact .inr (second.safe j safe)
  · exact .inr safe

theorem advances_storeDelayed (kept : Kept rt s duties) (origin : Int) (job : OutboundJob) :
    Advances rt duties s (s.storeDelayed rt origin job) := by
  have ready : (s.storeDelayed rt origin job).ready = s.ready := ready_storeDelayed origin job
  have payloads : (s.storeDelayed rt origin job).payloads =
      parkDelayedOutbound rt s.payloads job := payloads_storeDelayed origin job
  refine ⟨⟨?_, ?_, ?_, ?_⟩, ?_, ?_⟩
  · unfold Store.ids
    rw [ready]
    exact kept.ids
  · intro id text stored
    rw [payloads] at stored
    unfold parkDelayedOutbound park at stored
    split at stored
    · exact kept.stored id text stored
    · dsimp only at stored
      split at stored
      next same =>
        cases stored
        exact ⟨job, same.symm, rfl⟩
      · exact kept.stored id text stored
  · intro id
    rw [payloads]
    unfold Store.storeDelayed parkDelayedOutbound park
    split
    · exact kept.paired id
    · dsimp only
      split
      · rfl
      · exact kept.paired id
  · intro i origin' messageId jobId durable duty
    rw [ready]
    exact kept.sources i origin' messageId jobId durable duty
  · intro jobId safe
    unfold Safe
    rw [ready, payloads, deadLetters_storeDelayed, completed_storeDelayed]
    rcases safe with entry | delayed | dead | completed
    · exact .inl entry
    · exact .inr (.inl (parked_mono _ _ delayed))
    · exact .inr (.inr (.inl dead))
    · exact .inr (.inr (.inr completed))
  · intro jobId enqueued
    by_cases same : jobId = job.jobId
    · right
      right
      left
      rw [payloads, same]
      exact parked_isSome _ _
    · left
      unfold Enqueued at enqueued ⊢
      rwa [ready, payloads, parked_other _ _ same] at enqueued

theorem advances_acknowledge (kept : Kept rt s duties)
    (spared : ∀ jobId, Safe s duties jobId →
      (∃ entry ∈ s.ready, entry.acked = false ∧ Carries entry.fields jobId ∧
        ¬ Settling duties entry.messageId ∧ entry.messageId ≠ messageId) ∨
      (s.payloads jobId).isSome ∨ (∃ job ∈ s.deadLetters, job.jobId = jobId) ∨
      jobId ∈ s.completed) :
    Advances rt duties s (s.acknowledge messageId) := by
  refine ⟨⟨?_, kept.stored, kept.paired, ?_⟩, ?_, ?_⟩
  · rw [ids_acknowledge]
    exact kept.ids
  · intro i origin source jobId durable duty
    obtain ⟨entry, mem, named, carries⟩ := kept.sources i origin source jobId durable duty
    obtain ⟨after, mem, same, fields⟩ := exists_acknowledge messageId mem
    exact ⟨after, mem, same.trans named, fields ▸ carries⟩
  · intro jobId safe
    rcases spared jobId safe with ⟨entry, mem, open', carries, free, other⟩ | rest
    · exact .inl ⟨entry, mem_acknowledge mem other, open', carries, free⟩
    · exact .inr rest
  · intro jobId enqueued
    left
    rcases enqueued with ⟨entry, mem, carries⟩ | delayed
    · obtain ⟨before, mem, -, fields⟩ := of_mem_acknowledge mem
      exact .inl ⟨before, mem, fields ▸ carries⟩
    · exact .inr delayed

theorem not_settling_fresh (kept : Kept rt s duties)
    (new : messageId ∉ s.ids) : ¬ Settling duties messageId := by
  rintro ⟨i, origin, jobId, duty⟩
  obtain ⟨entry, mem, named, -⟩ := kept.sources i origin messageId jobId true duty
  exact new (named ▸ List.mem_map_of_mem mem)

theorem advances_addEntries (kept : Kept rt s duties) (origin : Int)
    {entries : List (String × Fields)} (fresh : Fresh s (entries.map (·.1))) :
    Advances rt duties s (s.addEntries origin entries) := by
  have split : ∀ entry, entry ∈ (s.addEntries origin entries).ready ↔
      entry ∈ s.ready ∨ ∃ item ∈ entries, ⟨item.1, item.2, false, origin⟩ = entry := by
    intro entry
    simp [Store.addEntries, List.mem_append, List.mem_map]
  have new : ∀ item ∈ entries, item.1 ∉ s.ids := fun item mem =>
    fresh.2 item.1 (List.mem_map_of_mem mem)
  refine ⟨⟨?_, kept.stored, kept.paired, ?_⟩, ?_, ?_⟩
  · have ids : (s.addEntries origin entries).ids = s.ids ++ entries.map (·.1) := by
      simp [Store.ids, Store.addEntries, List.map_append, List.map_map, Function.comp_def]
    rw [ids, List.nodup_append]
    refine ⟨kept.ids, fresh.1, ?_⟩
    rintro id mem _ mem' rfl
    exact fresh.2 id mem' mem
  · intro i origin' source jobId durable duty
    obtain ⟨entry, mem, held⟩ := kept.sources i origin' source jobId durable duty
    exact ⟨entry, (split entry).mpr (.inl mem), held⟩
  · intro jobId safe
    rcases safe with ⟨entry, mem, held⟩ | rest
    · exact .inl ⟨entry, (split entry).mpr (.inl mem), held⟩
    · exact .inr rest
  · intro jobId enqueued
    rcases enqueued with ⟨entry, mem, carries⟩ | delayed
    · rcases (split entry).mp mem with old | ⟨item, listed, rfl⟩
      · exact .inl (.inl ⟨entry, old, carries⟩)
      · exact .inr (.inl ⟨_, mem, rfl, carries, not_settling_fresh kept (new item listed)⟩)
    · exact .inl (.inr delayed)

theorem advances_deadLetter (kept : Kept rt s duties) (job : OutboundJob) :
    Advances rt duties s { s with deadLetters := job :: s.deadLetters } := by
  refine ⟨⟨kept.ids, kept.stored, kept.paired, kept.sources⟩, ?_, fun _ enqueued => .inl enqueued⟩
  intro jobId safe
  rcases safe with entry | delayed | ⟨dead, mem, named⟩ | completed
  · exact .inl entry
  · exact .inr (.inl delayed)
  · exact .inr (.inr (.inl ⟨dead, List.mem_cons_of_mem _ mem, named⟩))
  · exact .inr (.inr (.inr completed))

theorem advances_complete (kept : Kept rt s duties) (jobId : String) :
    Advances rt duties s (s.complete jobId) := by
  refine ⟨⟨kept.ids, kept.stored, kept.paired, kept.sources⟩, ?_, fun _ enqueued => .inl enqueued⟩
  intro id safe
  rcases safe with entry | delayed | dead | completed
  · exact .inl entry
  · exact .inr (.inl delayed)
  · exact .inr (.inr (.inl dead))
  · exact .inr (.inr (.inr (List.mem_cons_of_mem _ completed)))

end Store

def Elsewhere (s : Store) (duties : Duties) (messageId jobId : String) : Prop :=
  (∃ entry ∈ s.ready, entry.acked = false ∧ Carries entry.fields jobId ∧
    ¬ Settling duties entry.messageId ∧ entry.messageId ≠ messageId) ∨
  (s.payloads jobId).isSome ∨ (∃ job ∈ s.deadLetters, job.jobId = jobId) ∨ jobId ∈ s.completed

section Steps
variable {env : Environment} {cfg : Config} {s after : Store} {duties : Duties} {i : Nat}
  {origin : Int}

variable {messageId jobId : String}

theorem spared_of_other (kept : Kept env.rt s duties) {other : String}
    {durable : Bool} (duty : duties i = some (origin, .settles messageId jobId durable))
    (different : other ≠ jobId) (safe : Safe s duties other) :
    Elsewhere s duties messageId other := by
  rcases safe with ⟨entry, mem, open', carries, free⟩ | rest
  · left
    refine ⟨entry, mem, open', carries, free, fun same => different ?_⟩
    obtain ⟨source, listed, named, carried⟩ := kept.sources i origin messageId jobId durable duty
    have one : entry = source := entry_unique kept.ids mem listed (same.trans named.symm)
    exact carries_unique carries (one ▸ carried)
  · exact .inr rest

theorem spared_of_settling {other : String}
    (duty : duties i = some (origin, .settles messageId jobId true))
    (safe : Safe s duties other) : Elsewhere s duties messageId other := by
  rcases safe with ⟨entry, mem, open', carries, free⟩ | rest
  · left
    exact ⟨entry, mem, open', carries, free, fun same => free ⟨i, origin, jobId, same ▸ duty⟩⟩
  · exact .inr rest

variable {c : Call} {reply : Reply c} {duty : Duty}

theorem advances_applies (kept : Kept env.rt s duties)
    (held : duties i = some (origin, duty)) (allowed : duty.allows c)
    (applies : Applies env origin c s reply after) : Advances env.rt duties s after := by
  cases applies with
  | claimCompleted _ | claim _ _ | release | releaseDomainSlot => exact advances_refl kept
  | claimLegacy _ | complete => exact advances_complete kept _
  | addReady fresh each =>
    apply advances_addEntries kept
    rwa [List.map_fst_zip (Nat.le_of_eq each)]
  | storeDelayedOutbound => exact advances_storeDelayed kept _ _
  | moveToDlq => exact advances_deadLetter kept _
  | parkDelayedOutbound =>
    rename_i messageId job
    have stored := advances_storeDelayed kept origin job
    cases duty with
    | produces => cases allowed
    | settles source jobId durable =>
      obtain ⟨rfl, rfl⟩ := allowed
      apply stored.trans
      apply advances_acknowledge stored.kept
      intro other safe
      by_cases same : other = job.jobId
      · right
        left
        rw [payloads_storeDelayed, same]
        exact parked_isSome _ _
      · exact spared_of_other stored.kept held same safe
  | ack =>
    cases duty with
    | produces => cases allowed
    | settles source jobId durable =>
      obtain ⟨rfl, rfl⟩ := allowed
      exact advances_acknowledge kept fun other safe => spared_of_settling held safe

theorem elsewhere_of_durable (kept : Kept env.rt s duties)
    {durable : Bool}
    (held : duties i = some (origin, .settles messageId jobId durable))
    (allowed : (Duty.settles messageId jobId durable).allows c)
    (applies : Applies env origin c s reply after) (made : makesDurable c reply = true) :
    Elsewhere after duties messageId jobId := by
  cases applies with
  | release | releaseDomainSlot | ack => cases made
  | claimCompleted marked =>
    cases allowed
    exact .inr (.inr (.inr marked))
  | @claim _ _ _ _ result _ open' =>
    cases result with
    | completed => exact absurd rfl open'
    | claimed => cases made
    | inFlight => cases made
  | claimLegacy _ | complete =>
    cases allowed
    exact .inr (.inr (.inr List.mem_cons_self))
  | storeDelayedOutbound =>
    cases allowed
    right
    left
    rw [payloads_storeDelayed]
    exact parked_isSome _ _
  | parkDelayedOutbound =>
    obtain ⟨rfl, rfl⟩ := allowed
    right
    left
    change ((s.storeDelayed env.rt origin _).payloads _).isSome
    rw [payloads_storeDelayed]
    exact parked_isSome _ _
  | moveToDlq =>
    cases allowed
    exact .inr (.inr (.inl ⟨_, List.mem_cons_self, rfl⟩))
  | addReady fresh each =>
    rename_i batch messageIds
    obtain ⟨nonempty, carries⟩ := allowed
    obtain ⟨fields, rest, rfl⟩ := List.exists_cons_of_ne_nil nonempty
    cases messageIds with
    | nil => cases each
    | cons first others =>
      have new : first ∉ s.ids := fresh.2 first List.mem_cons_self
      left
      refine ⟨⟨first, fields, false, origin⟩, ?_, rfl, carries fields List.mem_cons_self,
        not_settling_fresh kept new, fun same => ?_⟩
      · simp [Store.addEntries]
      · obtain ⟨source, listed, named, -⟩ :=
          kept.sources i origin messageId jobId durable held
        apply new
        rw [show first = source.messageId from same.trans named.symm]
        exact List.mem_map_of_mem listed

def Invariant (rt : Runtime) (known : String → Prop) (s : Store) (duties : Duties) : Prop :=
  Kept rt s duties ∧ ∀ jobId, known jobId ∨ Enqueued s jobId → Safe s duties jobId

variable {known : String → Prop}

theorem invariant_advances (inv : Invariant env.rt known s duties)
    (advances : Advances env.rt duties s after) : Invariant env.rt known after duties := by
  refine ⟨advances.kept, fun jobId wanted => ?_⟩
  rcases wanted with known | enqueued
  · exact advances.safe jobId (inv.2 jobId (.inl known))
  · rcases advances.fresh jobId enqueued with early | safe
    · exact advances.safe jobId (inv.2 jobId (.inr early))
    · exact safe

theorem settling_set {duty : Option (Int × Duty)}
    (settling : Settling (setDuty duties i duty) messageId) :
    Settling duties messageId ∨
      ∃ origin jobId, duty = some (origin, .settles messageId jobId true) := by
  obtain ⟨j, origin, jobId, held⟩ := settling
  unfold setDuty at held
  split at held
  · exact .inr ⟨origin, jobId, held⟩
  · exact .inl ⟨j, origin, jobId, held⟩

/-- A worker takes on, changes or drops a duty; an entry it may then acknowledge is not the
only holder of a job. -/
theorem invariant_duty {duty : Option (Int × Duty)}
    (inv : Invariant env.rt known s duties)
    (source : ∀ origin messageId jobId durable,
      duty = some (origin, .settles messageId jobId durable) →
      ∃ entry ∈ s.ready, entry.messageId = messageId ∧ Carries entry.fields jobId)
    (idle : ∀ origin messageId jobId, duty = some (origin, .settles messageId jobId true) →
      ∀ other, Safe s duties other → Elsewhere s duties messageId other) :
    Invariant env.rt known s (setDuty duties i duty) := by
  refine ⟨⟨inv.1.ids, inv.1.stored, inv.1.paired, ?_⟩, fun jobId wanted => ?_⟩
  · intro j origin messageId jobId durable held
    unfold setDuty at held
    split at held
    · exact source origin messageId jobId durable held
    · exact inv.1.sources j origin messageId jobId durable held
  · have safe := inv.2 jobId wanted
    by_cases settles : ∃ origin messageId jobId, duty = some (origin, .settles messageId jobId true)
    · obtain ⟨origin, messageId, source, settles⟩ := settles
      rcases idle origin messageId source settles jobId safe with
        ⟨entry, mem, open', carries, free, other⟩ | rest
      · left
        refine ⟨entry, mem, open', carries, fun settling => ?_⟩
        rcases settling_set settling with early | ⟨_, _, here⟩
        · exact free early
        · rw [settles] at here
          cases here
          exact other rfl
      · exact .inr rest
    · rcases safe with ⟨entry, mem, open', carries, free⟩ | rest
      · left
        refine ⟨entry, mem, open', carries, fun settling => ?_⟩
        rcases settling_set settling with early | ⟨origin, jobId, here⟩
        · exact free early
        · exact settles ⟨origin, _, jobId, here⟩
      · exact .inr rest

theorem not_durable_of_threw (failed : threw c reply = true) :
    makesDurable c reply = false := by
  cases c <;> first
    | rfl
    | (cases reply with
        | ok _ => cases failed
        | error _ => rfl)

theorem advances_effect (kept : Kept env.rt s duties)
    (held : duties i = some (origin, duty)) (allowed : duty.allows c)
    (effect : Effect env origin c s reply after) :
    Advances env.rt duties s after ∧ (makesDurable c reply = true →
      ∀ messageId jobId durable, duty = .settles messageId jobId durable →
        Elsewhere after duties messageId jobId) := by
  cases effect with
  | applied applies =>
    refine ⟨advances_applies kept held allowed applies, fun made messageId jobId durable is => ?_⟩
    subst is
    exact elsewhere_of_durable kept held allowed applies made
  | refused _ failed =>
    refine ⟨advances_refl kept, fun made => ?_⟩
    rw [not_durable_of_threw failed] at made
    cases made
  | replyLost applies failed =>
    refine ⟨advances_applies kept held allowed applies, fun made => ?_⟩
    rw [not_durable_of_threw failed] at made
    cases made
  | posted =>
    refine ⟨⟨⟨kept.ids, kept.stored, kept.paired, kept.sources⟩, fun _ safe => safe,
      fun _ enqueued => .inl enqueued⟩, fun made => ?_⟩
    cases made
  | elsewhere outside _ =>
    refine ⟨advances_refl kept, fun made => ?_⟩
    cases c <;> first | cases made | cases outside

theorem invariant_call (inv : Invariant env.rt known s duties)
    (held : duties i = some (origin, duty))
    (allowed : duty.allows c) (effect : Effect env origin c s reply after) :
    Invariant env.rt known after (setDuty duties i (some (origin, duty.after c reply))) := by
  obtain ⟨advances, durable⟩ := advances_effect inv.1 held allowed effect
  have moved := invariant_advances inv advances
  apply invariant_duty moved
  · intro origin' messageId jobId flag is
    cases duty with
    | produces => cases is
    | settles source job earlier =>
      cases is
      exact moved.1.sources i origin messageId jobId earlier held
  · intro origin' messageId jobId is other safe
    cases duty with
    | produces => cases is
    | settles source job earlier =>
      simp only [Duty.after, Option.some.injEq, Prod.mk.injEq, Duty.settles.injEq,
        Bool.or_eq_true] at is
      obtain ⟨rfl, rfl, rfl, early | made⟩ := is
      · rw [early] at held
        exact spared_of_settling held safe
      · by_cases same : other = job
        · rw [same]
          exact durable made source job earlier rfl
        · exact spared_of_other moved.1 held same safe

end Steps

def ReadsJobId (rt : Runtime) : Prop :=
  ∀ (job : OutboundJob) (decoded : Lua), rt.cjsonDecode (rt.stringify job.toJson) = some decoded →
    luaField decoded "jobId" = some (.str job.jobId)

section Environment
variable {env : Environment} {cfg : Config} {s after : Store} {duties : Duties}

theorem carries_of_promoted (reads : ReadsJobId env.rt) (kept : Kept env.rt s duties) {id : String}
    {fields : Fields} (due : promoteOutbound env.rt (s.payloads id) id = .ok (some fields)) :
    Carries fields id := by
  cases present : s.payloads id with
  | none => simp [present, promoteOutbound] at due
  | some text =>
    obtain ⟨job, rfl, rfl⟩ := kept.stored id text present
    rw [present] at due
    simp only [promoteOutbound] at due
    split at due
    · cases due
    next decoded read =>
      rw [reads job decoded read] at due
      simp only [Lib.Logged.except_bind_ok] at due
      obtain ⟨jobId, named, _, _, _, _, _, _, _, _, _, _, _, _, built⟩ := due
      cases named
      cases built
      rfl

theorem missing_of_gone {id : String} {payload : Option String}
    (gone : promoteOutbound env.rt payload id = .ok none) : payload = none := by
  cases payload with
  | none => rfl
  | some text =>
    simp only [promoteOutbound] at gone
    split at gone
    · cases gone
    · simp only [Lib.Logged.except_bind_ok] at gone
      obtain ⟨_, _, _, _, _, _, _, _, _, _, _, _, _, _, built⟩ := gone
      cases built

theorem advances_removeDelayed (kept : Kept env.rt s duties) (id : String)
    (carried : (s.payloads id).isSome → ∃ entry ∈ s.ready, entry.acked = false ∧
      Carries entry.fields id ∧ ¬ Settling duties entry.messageId) :
    Advances env.rt duties s (s.removeDelayed id) := by
  refine ⟨⟨kept.ids, ?_, ?_, kept.sources⟩, ?_, ?_⟩
  · intro other text stored
    unfold Store.removeDelayed at stored
    dsimp only at stored
    split at stored
    · cases stored
    · exact kept.stored other text stored
  · intro other
    unfold Store.removeDelayed
    dsimp only
    split
    · rfl
    · exact kept.paired other
  · intro jobId safe
    rcases safe with entry | delayed | rest
    · exact .inl entry
    · by_cases same : jobId = id
      · exact .inl (same ▸ carried (same ▸ delayed))
      · right
        left
        unfold Store.removeDelayed
        simpa only [if_neg same] using delayed
    · exact .inr (.inr rest)
  · intro jobId enqueued
    left
    rcases enqueued with entry | delayed
    · exact .inl entry
    · right
      unfold Store.removeDelayed at delayed
      dsimp only at delayed
      split at delayed
      · cases delayed
      · exact delayed

theorem advances_promotes (reads : ReadsJobId env.rt) {due : List String}
    (promotes : Promotes env due s after) (kept : Kept env.rt s duties) :
    Advances env.rt duties s after := by
  induction promotes with
  | done => exact advances_refl kept
  | failed _ => exact advances_refl kept
  | gone missing _ ih =>
    have removed := advances_removeDelayed kept _ fun present => by
      rw [missing_of_gone missing] at present
      cases present
    exact removed.trans (ih removed.kept)
  | @promoted id messageId rest s after fields due fresh _ ih =>
    have carries := carries_of_promoted reads kept due
    have added : Advances env.rt duties s
        (s.addEntries (s.delayedOrigin id) [(messageId, fields)]) :=
      advances_addEntries kept _ fresh
    have new : messageId ∉ s.ids := fresh.2 messageId List.mem_cons_self
    have removed := advances_removeDelayed added.kept id fun _ =>
      ⟨⟨messageId, fields, false, s.delayedOrigin id⟩, by simp [Store.addEntries], rfl, carries,
        not_settling_fresh kept new⟩
    exact (added.trans removed).trans (ih removed.kept)

theorem advances_acts (reads : ReadsJobId env.rt) {event : Event}
    (acts : Acts env event s after) (kept : Kept env.rt s duties) :
    Advances env.rt duties s after := by
  cases acts with
  | fanOut _ fresh each _ =>
    apply advances_addEntries kept
    rwa [List.map_fst_zip (Nat.le_of_eq each)]
  | promote _ promotes => exact advances_promotes reads promotes kept

end Environment

section Starting
variable (env : Environment) (cfg : Config)

theorem obeys_enqueueStamped (nowMs : Int) (jobs : List OutboundJob) :
    Obeys custody (enqueueStamped env nowMs jobs) .produces := by
  have only : Only (Duty.allows .produces) (enqueueStamped env nowMs jobs) :=
    calls_enqueueStamped env nowMs jobs (fun _ _ => trivial) fun _ _ => trivial
  apply (only.meets (fun _ allowed => allowed) fun _ _ => rfl).imp
  exact fun _ _ _ => trivial

theorem start_duty {s : Store} (duties : Duties) {worker : Worker Int Call Reply Failure Unit}
    (starts : Starts env cfg s worker) :
    ∃ duty, Obeys custody worker.program duty ∧
      (∀ messageId jobId durable, duty = .settles messageId jobId durable →
        durable = false ∧
        ∃ entry ∈ s.ready, entry.messageId = messageId ∧ Carries entry.fields jobId) := by
  cases starts with
  | produce nowMs jobs =>
    exact ⟨.produces, obeys_enqueueStamped env nowMs jobs, fun _ _ _ is => nomatch is⟩
  | @consume entry fuel present =>
    cases carried : entry.fields.lookup "jobId" with
    | some jobId =>
      refine ⟨.settles entry.messageId jobId false, ?_, ?_⟩
      · apply (keeps_handleEntry env cfg carried fuel _ ⟨false, rfl⟩).imp
        exact fun _ _ _ => trivial
      · rintro messageId other durable ⟨⟩
        exact ⟨rfl, entry, present, rfl, carried⟩
    | none =>
      refine ⟨.produces, ?_, fun _ _ _ is => nomatch is⟩
      unfold handleEntry
      cases parsed : deserializeOutboundJob env.rt env.codec entry.messageId entry.fields with
      | error message => trivial
      | ok job =>
        have read := (fields_of_deserialize env parsed).1
        simp [requireField, carried] at read

end Starting

theorem preserves_invariant (env : Environment) (cfg : Config) (reads : ReadsJobId env.rt)
    (known : String → Prop) :
    Preserves (queueSystem env cfg) always custody (Invariant env.rt known) where
  call _ _ _ _ _ _ _ _ inv held allowed effect := invariant_call inv held allowed effect
  stop shared duties i inv := by
    apply invariant_duty inv
    · exact fun _ _ _ _ missing => nomatch missing
    · exact fun _ _ _ missing => nomatch missing
  start pool duties i worker _ inv _ starts := by
    obtain ⟨duty, obeys, source⟩ := start_duty env cfg duties starts
    refine ⟨duty, obeys, ?_⟩
    apply invariant_duty inv
    · intro origin messageId jobId durable is
      cases is
      exact (source messageId jobId durable rfl).2
    · intro origin messageId jobId is
      cases is
      cases (source messageId jobId true rfl).1
  act pool duties event after _ inv acts := invariant_advances inv (advances_acts reads acts inv.1)

theorem held_of_invariant {rt : Runtime} {known : String → Prop} {s : Store} {duties : Duties}
    (inv : Invariant rt known s duties) {jobId : String} (wanted : known jobId) : Held s jobId := by
  rcases inv.2 jobId (.inl wanted) with ⟨entry, mem, open', carries, -⟩ | delayed | dead | completed
  · exact .inl ⟨entry, mem, open', carries⟩
  · exact .inr (.inl ⟨(inv.1.paired jobId).trans delayed, delayed⟩)
  · exact .inr (.inr (.inl dead))
  · exact .inr (.inr (.inr completed))

theorem invariant_initial (rt : Runtime) (completed legacyCompleted : List String) :
    Invariant rt (fun _ => False) (Store.initial completed legacyCompleted) fun _ => none := by
  refine ⟨⟨List.nodup_nil, ?_, fun _ => rfl, ?_⟩, ?_⟩
  · exact fun _ _ missing => nomatch missing
  · exact fun _ _ _ _ _ missing => nomatch missing
  · rintro jobId (known | ⟨entry, mem, -⟩ | delayed)
    · cases known
    · cases mem
    · cases delayed

/-- From an empty queue on, whatever the workers, their crashes and the failures of their
calls: a job enqueued at any moment is held at every later one, and the delayed schedule
and payloads have the same ids. -/
theorem no_job_lost (env : Environment) (cfg : Config) (reads : ReadsJobId env.rt)
    (completed legacyCompleted : List String)
    (first later : Pool Store Int Call Reply Failure Unit)
    (run : Reaches (Step (queueSystem env cfg)) always
      (Pool.idle (Store.initial completed legacyCompleted)) first)
    (rest : Reaches (Step (queueSystem env cfg)) always first later) :
    (∀ jobId, Enqueued first.shared jobId → Held later.shared jobId) ∧
      ∀ id, (later.shared.schedule id).isSome = (later.shared.payloads id).isSome := by
  have start := watched_run (preserves_invariant env cfg reads fun _ => False) run
    (watched_idle (invariant_initial env.rt completed legacyCompleted))
  have known : Watched custody (Invariant env.rt (Enqueued first.shared)) first := by
    obtain ⟨duties, inv, obeyed⟩ := start
    refine ⟨duties, ⟨inv.1, fun jobId wanted => inv.2 jobId (.inr ?_)⟩, obeyed⟩
    exact wanted.elim id id
  obtain ⟨duties, inv, -⟩ := watched_run
    (preserves_invariant env cfg reads (Enqueued first.shared)) rest known
  exact ⟨fun jobId enqueued => held_of_invariant inv enqueued, inv.1.paired⟩

def isSampleJob : Json → Bool
  | .obj entries =>
    match entries.lookup "jobId" with
    | some (.str jobId) => jobId == DelayedDelivery.sampleJob.jobId
    | _ => false
  | _ => false

def queueRuntime : Runtime :=
  { DelayedDelivery.sampleRuntime with
    stringify := fun value =>
      if isSampleJob value then DelayedDelivery.jobText else DelayedDelivery.metaText
    cjsonDecode := fun text =>
      if text = DelayedDelivery.jobText then some DelayedDelivery.sampleJob.toJson.toLua else none }

theorem queueRuntime_reads : ReadsJobId queueRuntime := by
  intro job decoded read
  have named : isSampleJob job.toJson = (job.jobId == DelayedDelivery.sampleJob.jobId) := rfl
  simp only [queueRuntime, named] at read
  split at read
  next same =>
    rw [if_pos rfl, Option.some.injEq] at read
    rw [← read, eq_of_beq same]
    rfl
  next =>
    rw [if_neg DelayedDelivery.sample_texts.2.2.2.2.2] at read
    cases read

def queueEnvironment : Environment := { OneDisposition.plainEnvironment with rt := queueRuntime }

def sampleFields : Fields :=
  DelayedDelivery.jobFields toString DelayedDelivery.sampleJob "null" DelayedDelivery.metaText

def fannedOut : Store :=
  (Store.initial [] []).addEntries 1700000000000 [("1700000000000-0", sampleFields)]

theorem reaches_fannedOut :
    Reaches (Step (queueSystem queueEnvironment OneDisposition.plainConfig)) always
      (Pool.idle (Store.initial [] [])) (Pool.idle fannedOut) := by
  have acted : Acts queueEnvironment (.fanOut [DelayedDelivery.sampleJob] 1700000000000)
      (Store.initial [] [])
      ((Store.initial [] []).addEntries 1700000000000 (["1700000000000-0"].zip [sampleFields])) := by
    apply Acts.fanOut
    · rfl
    · exact ⟨List.nodup_singleton _, fun _ _ missing => nomatch missing⟩
    · rfl
    · intro messageId mem
      rw [List.mem_singleton.mp mem]
      decide
  exact reaches_act Reaches.refl trivial acted

theorem no_job_lost_crash : Held fannedOut DelayedDelivery.sampleJob.jobId := by
  have consumes : Starts queueEnvironment OneDisposition.plainConfig fannedOut _ :=
    .consume 5 List.mem_cons_self
  have started : Reaches (Step (queueSystem queueEnvironment OneDisposition.plainConfig)) always
      (Pool.idle fannedOut) _ := reaches_start Reaches.refl trivial consumes
  have kept := no_job_lost queueEnvironment OneDisposition.plainConfig queueRuntime_reads [] []
    _ _ reaches_fannedOut (reaches_stop started trivial)
  exact kept.1 _ (.inl ⟨_, List.mem_cons_self, rfl⟩)

end MastopodFederation.Guarantees.NoLostJob
