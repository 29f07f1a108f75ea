import MastopodFederation.Lib.Logged
import MastopodFederation.Source.OutboundQueue

/-!
# Calls of a delivery that leave the queue alone

Signing, the follower digest, the target check, the POST, the clock and the domain
checks neither settle a job nor move one. `deliver` makes no other call, with and
without a runtime adapter.
-/
namespace MastopodFederation.Guarantees.OutboundCalls
open Lib.Calls Lib.Logged Source.DelayedQueue Source.ReplayHorizon
open Source.OutboundWorker Source.OutboundQueue

def aside : Call → Bool
  | .claim .. | .complete .. | .release .. | .releaseDomainSlot _ | .addReady _
  | .storeDelayedOutbound _ | .parkDelayedOutbound .. | .moveToDlq .. | .ack _ => false
  | _ => true

abbrev Aside (c : Call) : Prop := aside c = true

def quiet (c : Call) : Bool :=
  match c with
  | .randomUUID | .request .. => false
  | _ => aside c

abbrev Quiet (c : Call) : Prop := quiet c = true

theorem aside_of_quiet (c : Call) (quiet : Quiet c) : Aside c := by
  cases c <;> first | rfl | exact quiet

variable (env : Environment) (cfg : Config) {c : Call}

theorem quiet_ask {α : Type} {next : Reply c → Except Failure α} (quiet : Quiet c) :
    Only Quiet (.call c fun r => .done (next r) : Program α) :=
  only_call quiet fun _ => only_done _

theorem only_ask {α : Type} {next : Reply c → Except Failure α} (quiet : Aside c) :
    Only Aside (.call c fun r => .done (next r) : Program α) :=
  only_call quiet fun _ => only_done _

theorem quiet_clock : Only Quiet clock := quiet_ask rfl

theorem only_clock : Only Aside clock := only_ask rfl

variable (job : OutboundJob)

theorem quiet_syncHeader : Only Quiet (syncHeader env cfg job) := by
  unfold syncHeader
  split
  · apply only_rescue (quiet_ask rfl)
    exact fun _ => only_pure _
  · exact only_pure _

section Deliver
variable {P : Call → Prop} {job : OutboundJob} (quiet : ∀ c, Quiet c → P c)
  (posts : ∀ url headers body startedAt, assertExternalPostAllowed env job startedAt = .ok () →
    P (.request url headers body startedAt))

include quiet in
theorem calls_quiet {ε α : Type} {x : Prog Call Reply ε α} (only : Only Quiet x) : Only P x :=
  only.imp quiet

include quiet posts in
theorem calls_secureActivityPubRequest (url : String) (headers : List (String × String))
    (body : String) :
    Only P (secureActivityPubRequest url headers body (assertExternalPostAllowed env job)) := by
  unfold secureActivityPubRequest
  apply only_bind (calls_quiet quiet (quiet_ask rfl))
  intro _
  apply only_bind (calls_quiet quiet quiet_clock)
  intro startedAt
  apply only_done_bind
  intro _ allowed
  exact only_call (posts _ _ _ _ allowed) fun _ => only_done _

include quiet posts in
theorem calls_requestSigned (signed : SignedHeaders) :
    Only P (requestSigned env cfg job signed) := by
  unfold requestSigned
  apply only_bind (calls_quiet quiet (quiet_syncHeader env cfg job))
  intro sync
  apply only_bind (calls_quiet quiet quiet_clock)
  intro _
  apply only_bind (only_done _)
  intro _
  apply only_bind (calls_secureActivityPubRequest env quiet posts _ _ _)
  intro response
  apply only_bind (calls_quiet quiet quiet_clock)
  intro nowMs
  apply only_bind (calls_quiet quiet (quiet_ask rfl))
  exact fun _ => only_pure _

include quiet posts in
theorem calls_adapterPost (url : String) (signed : SignedHeaders) (sync : Option String) :
    Only P (adapterPost env cfg job url signed sync) := by
  unfold adapterPost adapterRequest
  apply only_bind (calls_quiet quiet quiet_clock)
  intro _
  apply only_bind (only_done _)
  intro _
  apply only_rescue
  · apply only_bind (calls_secureActivityPubRequest env quiet posts _ _ _)
    intro response
    apply only_bind (calls_quiet quiet (quiet_ask rfl))
    intro responseBody
    apply only_bind (calls_quiet quiet quiet_clock)
    exact fun _ => only_pure _
  · exact fun _ => only_pure _

include quiet posts in
theorem calls_deliverOutbound : Only P (deliverOutbound env cfg job) := by
  unfold deliverOutbound deliverWithLocalSigning deliverWithSigningService
  split
  · exact only_pure _
  · split
    · apply only_bind (only_attempt (calls_quiet quiet (quiet_ask rfl)))
      intro signing
      split
      · exact only_pure _
      · exact calls_adapterPost env cfg quiet posts _ _ _
    · apply only_bind (only_attempt (calls_quiet quiet (quiet_ask rfl)))
      intro signing
      split
      · exact only_pure _
      · exact only_pure _
      · apply only_bind (calls_quiet quiet (quiet_syncHeader env cfg job))
        exact fun sync => calls_adapterPost env cfg quiet posts _ _ sync

include quiet posts in
theorem calls_deliver : Only P (deliver env cfg job) := by
  unfold deliver
  split
  · exact only_pure _
  · split
    · exact calls_deliverOutbound env cfg quiet posts
    · apply only_bind (calls_quiet quiet (quiet_ask rfl))
      intro signing
      split
      · exact only_pure _
      · apply only_rescue (calls_requestSigned env cfg quiet posts _)
        intro failure
        split
        · exact only_fail _
        · exact only_pure _

end Deliver

theorem only_deliver : Only Aside (deliver env cfg job) :=
  calls_deliver env cfg aside_of_quiet fun _ _ _ _ _ => rfl

theorem quiet_capabilityGate : Only Quiet (capabilityGate cfg) := by
  unfold capabilityGate
  split
  · apply only_bind (quiet_ask rfl)
    exact fun _ => only_pure _
  · exact only_pure _

theorem only_capabilityGate : Only Aside (capabilityGate cfg) :=
  (quiet_capabilityGate cfg).imp aside_of_quiet

theorem quiet_notReadyJitter : Only Quiet (notReadyJitter cfg) := by
  unfold notReadyJitter
  split
  · exact quiet_ask rfl
  · exact only_pure _

theorem only_notReadyJitter : Only Aside (notReadyJitter cfg) :=
  (quiet_notReadyJitter cfg).imp aside_of_quiet

theorem quiet_waitUntilReady : Only Quiet (waitUntilReady job) := by
  unfold waitUntilReady
  split
  · apply only_bind quiet_clock
    intro nowMs
    split
    · apply only_bind quiet_clock
      intro laterMs
      dsimp only
      split
      · exact only_pure _
      · apply only_bind (quiet_ask rfl)
        exact fun _ => only_pure _
    · exact only_pure _
  · exact only_pure _

theorem only_waitUntilReady : Only Aside (waitUntilReady job) :=
  (quiet_waitUntilReady job).imp aside_of_quiet

theorem ask_bind_pure {next : Reply c → Except Failure Unit} :
    ((.call c fun r => .done (next r) : Program Unit) >>= fun _ => pure ()) =
      .call c fun r => .done (next r) := by
  change Prog.call c _ = _
  congr 1
  funext r
  cases h : next r with
  | ok u => simp [Prog.bind, pure, h]
  | error e => simp [Prog.bind, h]

def enqueueOne (stamped : OutboundJob) (nowMs : Int) : Program Unit :=
  if isDelayed env nowMs stamped then .call (.storeDelayedOutbound stamped) .done
  else match serializeOutboundJob env.rt env.codec stamped with
    | .ok fields => .call (.addReady [fields]) .done
    | .error message => .fail (.other message)

theorem enqueueStamped_single (nowMs : Int) :
    enqueueStamped env nowMs [job] = enqueueOne env (ensureFirstQueuedAt job nowMs) nowMs := by
  simp only [enqueueStamped, enqueueOne]
  cases h : isDelayed env nowMs (ensureFirstQueuedAt job nowMs) with
  | true =>
    simp only [List.map_cons, List.map_nil, List.filter_cons, h, Bool.not_true, Bool.false_eq_true,
      if_false, List.filter_nil, addReadyChunks, if_true, storeAll]
    exact ask_bind_pure
  | false =>
    simp only [Bool.false_eq_true, if_false, List.map_cons, List.map_nil,
      List.filter_cons, h, Bool.not_false, List.filter_nil, addReadyChunks, if_true, storeAll,
      chunkSize, List.take_succ_cons, List.take_nil, List.drop_nil, List.mapM_cons, List.mapM_nil]
    cases serializeOutboundJob env.rt env.codec (ensureFirstQueuedAt job nowMs) with
    | ok fields =>
      have once : ((.call (.addReady [fields]) .done : Program Unit) >>= fun _ => pure ()) =
          .call (.addReady [fields]) .done := ask_bind_pure
      change ((.call (.addReady [fields]) .done : Program Unit) >>= fun _ => pure ()) >>= _ = _
      rw [once]
      exact ask_bind_pure
    | error e => rfl

theorem enqueueOutbound_eq : enqueueOutbound env job = (clock >>= fun nowMs =>
      enqueueOne env (ensureFirstQueuedAt job nowMs) nowMs) := by
  unfold enqueueOutbound enqueueOutboundBatch
  change Prog.call Call.now _ = Prog.call Call.now _
  congr 1
  funext nowMs
  exact enqueueStamped_single env job nowMs

theorem mem_of_mapM {ε α β : Type} {f : α → Except ε β} {xs : List α} {ys : List β}
    (mapped : xs.mapM f = .ok ys) : ∀ y ∈ ys, ∃ x ∈ xs, f x = .ok y := by
  induction xs generalizing ys with
  | nil =>
    cases mapped
    exact fun _ missing => nomatch missing
  | cons x rest ih =>
    rw [List.mapM_cons, except_bind_ok] at mapped
    obtain ⟨first, head, mapped⟩ := mapped
    rw [except_bind_ok] at mapped
    obtain ⟨others, tail, built⟩ := mapped
    cases built
    intro y mem
    rcases List.mem_cons.mp mem with rfl | mem
    · exact ⟨x, List.mem_cons_self, head⟩
    · obtain ⟨source, listed, made⟩ := ih tail y mem
      exact ⟨source, List.mem_cons_of_mem _ listed, made⟩

section Enqueue
variable {P : Call → Prop}

theorem calls_addReadyChunks (jobs : List OutboundJob)
    (batches : ∀ batch, (∀ fields ∈ batch, ∃ job ∈ jobs,
      serializeOutboundJob env.rt env.codec job = .ok fields) → P (.addReady batch)) :
    Only P (addReadyChunks env jobs) := by
  induction jobs using addReadyChunks.induct with
  | case1 =>
    unfold addReadyChunks
    exact only_pure _
  | case2 job rest ih =>
    unfold addReadyChunks
    apply only_done_bind
    intro fields serialized
    have mapped : ((job :: rest).take chunkSize).mapM (serializeOutboundJob env.rt env.codec) =
        .ok fields := by
      cases result : ((job :: rest).take chunkSize).mapM
          (serializeOutboundJob env.rt env.codec) with
      | ok batch => rw [result] at serialized; exact congrArg _ (Except.ok.inj serialized)
      | error e => rw [result] at serialized; cases serialized
    have sources := mem_of_mapM mapped
    apply only_bind
    · refine only_call (batches fields fun entry mem => ?_) fun _ => only_done _
      obtain ⟨source, listed, made⟩ := sources entry mem
      exact ⟨source, List.mem_of_mem_take listed, made⟩
    · intro _
      apply ih
      intro batch made
      apply batches
      intro entry mem
      obtain ⟨source, listed, same⟩ := made entry mem
      exact ⟨source, List.mem_cons_of_mem _ (List.mem_of_mem_drop listed), same⟩

theorem calls_storeAll (jobs : List OutboundJob)
    (stores : ∀ job ∈ jobs, P (.storeDelayedOutbound job)) : Only P (storeAll jobs) := by
  induction jobs with
  | nil => exact only_pure _
  | cons job rest ih =>
    unfold storeAll
    apply only_bind
    · exact only_call (stores job List.mem_cons_self) fun _ => only_done _
    · exact fun _ => ih fun other mem => stores other (List.mem_cons_of_mem _ mem)

theorem calls_enqueueStamped (nowMs : Int) (jobs : List OutboundJob)
    (batches : ∀ batch, (∀ fields ∈ batch, ∃ job ∈ jobs,
      serializeOutboundJob env.rt env.codec (ensureFirstQueuedAt job nowMs) = .ok fields) →
      P (.addReady batch))
    (stores : ∀ job ∈ jobs, P (.storeDelayedOutbound (ensureFirstQueuedAt job nowMs))) :
    Only P (enqueueStamped env nowMs jobs) := by
  unfold enqueueStamped
  dsimp only
  apply only_bind
  · apply calls_addReadyChunks
    intro batch made
    apply batches
    intro entry mem
    obtain ⟨stamped, listed, same⟩ := made entry mem
    obtain ⟨job, given, rfl⟩ := List.mem_map.mp (List.mem_filter.mp listed).1
    exact ⟨job, given, same⟩
  · intro _
    apply calls_storeAll
    intro stamped listed
    obtain ⟨job, given, rfl⟩ := List.mem_map.mp (List.mem_filter.mp listed).1
    exact stores job given

end Enqueue

def consumed (messageId : String) (job : OutboundJob) : OutboundJob :=
  match redisStreamMessageTimestampMs messageId with
  | none => job
  | some streamTimestamp => ensureFirstQueuedAt job streamTimestamp

theorem returns_consumeEntry (fuel : Nat) (messageId : String) (job : OutboundJob) :
    Returns (fun yielded => ∀ job', yielded = some job' → job' = consumed messageId job)
      (consumeEntry env fuel messageId job) := by
  have nothing : ∀ job', (none : Option OutboundJob) = some job' →
      job' = consumed messageId job := fun _ missing => nomatch missing
  unfold consumeEntry
  split
  next malformed =>
    apply returns_pure
    rintro job' ⟨⟩
    simp [consumed, malformed]
  next streamTimestamp read =>
    have stamped : ∀ job', some (ensureFirstQueuedAt job streamTimestamp) = some job' →
        job' = consumed messageId job := by
      rintro job' ⟨⟩
      simp [consumed, read]
    dsimp only
    apply returns_bind
    intro nowMs
    split
    · exact returns_bind fun _ => returns_pure nothing
    · apply returns_bind
      intro laterMs
      split
      · apply returns_bind
        intro parked
        split
        · exact returns_pure nothing
        · exact returns_pure stamped
      · exact returns_pure stamped

theorem fields_of_deserialize {messageId : String} {fields : Fields} {job : OutboundJob}
    (parsed : deserializeOutboundJob env.rt env.codec messageId fields = .ok job) :
    requireField fields "jobId" messageId = .ok job.jobId ∧
      optionalJson env.rt fields "meta" = .ok job.metaJson := by
  unfold deserializeOutboundJob at parsed
  simp only [except_bind_ok] at parsed
  obtain ⟨jobId, idRead, activityId, _, actorUri, _, encoded, _, activity, _, targetInbox, _,
    targetDomain, _, attempt, _, maxAttempts, _, notBeforeMs, _, metaJson, metaRead, built⟩ := parsed
  cases built
  exact ⟨idRead, metaRead⟩

end MastopodFederation.Guarantees.OutboundCalls
