import MastopodFederation.Source.MediaStream

/-!
# What a pass over a media stream owes

A pass acknowledges only what it has settled, schedules only what has failed, with a counter
that is one higher, and never does anything else while it holds a message between ZPOPMIN and
the command that puts it back (`pass_obeys`).
-/
namespace MastopodFederation.Guarantees.MediaPasses
open Lib.Calls Source.SecureWorker Source.MediaStream
open Source.Fep3ab2ReplayStore (parseInt parseInt_toDigits)

structure Duty where
  hand : Option Message := none
  reads : List WorkerEnvelope := []
  settled : List Nat := []
  failed : Option Message := none

def messageOf (entry : RetryEntry) : Option Message :=
  (parseScheduledRetryMember entry.value).map (·.message)

def Settles (d : Duty) (id : String) : Prop :=
  ∃ envelope ∈ d.reads, envelope.id = id ∧ envelope.message.job ∈ d.settled

def Follows (failed next : Message) : Prop :=
  next.job = failed.job ∧ retryAttemptForMessage next = retryAttemptForMessage failed + 1

def Duty.allows (d : Duty) : Call → Prop
  | .pushBack entry => messageOf entry = d.hand
  | .requeue message => d.hand = some message
  | .schedule entry => d.hand = none ∧
      ∃ failed next, d.failed = some failed ∧ messageOf entry = some next ∧ Follows failed next
  | .handler message => d.hand = none ∧ ∃ envelope ∈ d.reads, envelope.message = message
  | .batchHandler messages => d.hand = none ∧ messages = d.reads
  | .xAck messageIds => d.hand = none ∧ ∀ id ∈ messageIds, Settles d id
  | _ => d.hand = none

def settledBy : (c : Call) → Reply c → List Nat
  | .schedule entry, .ok _ => (messageOf entry).toList.map (·.job)
  | .handler message, .ok _ => [message.job]
  | .batchHandler messages, .ok result => jobsOf messages (handledIds result)
  | .pushToDlq payload, .ok _ => [payload.job]
  | _, _ => []

def Duty.after (d : Duty) : (c : Call) → Reply c → Duty
  | .zPopMin, .ok (some (entry, _)) => { d with hand := messageOf entry }
  | .pushBack _, _ | .requeue _, _ => { d with hand := none }
  | .xAutoClaim _, .ok envelopes | .xReadGroup _, .ok envelopes => { reads := envelopes }
  | .handler message, .error _ => { d with failed := some message }
  | c, reply => { d with settled := settledBy c reply ++ d.settled }

def custody : Monitor Call Reply Duty := ⟨Duty.allows, Duty.after⟩

def Working (messages : List WorkerEnvelope) (d : Duty) : Prop :=
  d.hand = none ∧ d.reads = messages

def Settled (messages : List WorkerEnvelope) (job : Nat) (d : Duty) : Prop :=
  Working messages d ∧ job ∈ d.settled

variable {env : Environment} {cfg : Config} {messages : List WorkerEnvelope}
  {envelope : WorkerEnvelope} {stream : String}

theorem get_set (message : Message) (field value : String) :
    (message.set field value).get field = some value := by
  simp [Message.get, Message.set]

theorem get_set_other (message : Message) {field other : String} (value : String)
    (apart : other ≠ field) : (message.set field value).get other = message.get other := by
  unfold Message.get Message.set
  dsimp only
  rw [List.lookup_cons, beq_false_of_ne apart]
  dsimp only
  induction message.fields with
  | nil => rfl
  | cons first rest ih =>
    by_cases same : first.1 = field
    · have gone : ¬ other = first.1 := fun h => apart (h.trans same)
      rw [List.filter_cons_of_neg (by simpa using same), List.lookup_cons, beq_false_of_ne gone]
      exact ih
    · rw [List.filter_cons_of_pos (by simpa using same), List.lookup_cons, List.lookup_cons, ih]

variable {message : Message}

theorem retryAttempt_of_get {n : Nat}
    (carries : message.get retryAttemptField = some n.repr) : retryAttemptForMessage message = n := by
  have filled : n.repr ≠ "" := by
    intro empty
    have none_left : n.repr.toList = [] := by rw [empty]; rfl
    rw [Nat.toList_repr] at none_left
    exact Nat.toDigits_ne_nil none_left
  have text : fieldOr message retryAttemptField "0" = n.repr := by
    unfold fieldOr
    rw [carries]
    split
    next h => nomatch h
    next h => exact absurd (Option.some.inj h) filled
    next h => exact (Option.some.inj h).symm
  unfold retryAttemptForMessage
  rw [text, Nat.toList_repr, parseInt_toDigits]
  rfl

theorem scheduledMessage_follows (message : Message) (dueAtMs firstFailedAtMs : Int)
    (error : Thrown) : Follows message (scheduledMessage env message dueAtMs firstFailedAtMs error) := by
  refine ⟨rfl, retryAttempt_of_get ?_⟩
  unfold scheduledMessage
  dsimp only
  rw [get_set_other _ _ (by decide), get_set_other _ _ (by decide), get_set_other _ _ (by decide),
    get_set_other _ _ (by decide), get_set]

theorem retryAttempt_of_absent (absent : ∀ field ∈ message.fields, field.1 ≠ retryAttemptField) :
    retryAttemptForMessage message = 0 := by
  have missing : message.get retryAttemptField = none := by
    unfold Message.get
    rw [List.lookup_eq_none_iff]
    intro field listed
    simpa using fun same => absent field listed same.symm
  unfold retryAttemptForMessage fieldOr
  rw [missing]
  rfl

def Free (d : Duty) : Prop := d.hand = none

theorem drainLoop_free (limit : Int) (fuel : Nat) (drained : Int) :
    Keeps custody Free (drainLoop limit fuel drained) := by
  induction fuel generalizing drained with
  | zero => exact keeps_pure drained
  | succ fuel ih =>
    intro d free
    unfold drainLoop
    split
    · refine ⟨free, fun reply => ?_⟩
      cases reply with
      | error e => exact free
      | ok popped =>
        cases popped with
        | none => exact free
        | some found =>
          obtain ⟨entry, now⟩ := found
          change Meets custody (if entry.score > now then _ else _) _ { d with hand := messageOf entry }
          split
          · refine ⟨rfl, fun reply => ?_⟩
            cases reply with
            | error e => exact rfl
            | ok _ => exact rfl
          · cases parsed : parseScheduledRetryMember entry.value with
            | none =>
              have empty : messageOf entry = none := by rw [messageOf, parsed]; rfl
              exact ih drained _ empty
            | some member =>
              have held : messageOf entry = some member.message := by rw [messageOf, parsed]; rfl
              refine ⟨held, fun reply => ?_⟩
              cases reply with
              | error e => exact rfl
              | ok _ => exact ih (drained + 1) _ rfl
    · exact free

theorem drainDueRetries_free (fuel : Nat) (limit : Int) :
    Keeps custody Free (drainDueRetries fuel limit) := by
  unfold drainDueRetries
  split
  · exact keeps_pure 0
  · exact drainLoop_free limit fuel 0

variable {d : Duty} {post : Duty → Except Thrown Unit → Prop}

theorem ack_working {ids : List String} (working : Working messages d)
    (settles : ∀ id ∈ ids, Settles d id)
    (ends : ∀ outcome, post d outcome) : Meets custody (ackMessageIds ids) post d := by
  unfold ackMessageIds
  split
  · exact ends _
  · exact ⟨⟨working.1, settles⟩, fun reply => ends (reply.mapError .other)⟩

theorem ackOne (listed : envelope ∈ messages) (settled : Settled messages envelope.message.job d)
    (ends : ∀ outcome, post d outcome) : Meets custody (ackMessageIds [envelope.id]) post d := by
  apply ack_working settled.1 _ ends
  intro id same
  rw [List.mem_singleton] at same
  exact ⟨envelope, settled.1.2 ▸ listed, same.symm, settled.2⟩

theorem deadLetter_working (err : Thrown) (listed : envelope ∈ messages) :
    Keeps custody (Working messages) (deadLetter env cfg stream envelope err) := by
  unfold deadLetter
  intro d working
  refine ⟨working.1, fun now => ?_⟩
  refine ⟨working.1, fun reply => ?_⟩
  cases reply with
  | error e => exact working
  | ok _ =>
    have settled : Settled messages envelope.message.job
        { d with settled := envelope.message.job :: d.settled } := ⟨working, List.mem_cons_self⟩
    exact ackOne listed settled fun outcome => working

theorem scheduleRetry_settles (err : Thrown)
    (working : Working messages d) (failed : d.failed = some message)
    (stored : ∀ t, Settled messages message.job t → post t (.ok ()))
    (refused : ∀ t e, Working messages t → post t (.error e)) :
    Meets custody (scheduleRetry env cfg message err) post d := by
  unfold scheduleRetry
  refine ⟨working.1, fun delayMs => ⟨working.1, fun startedAt => ⟨working.1, fun firstFailedAt =>
    ⟨working.1, fun id => ⟨⟨working.1, message, _, failed, rfl, scheduledMessage_follows ..⟩,
      fun reply => ?_⟩⟩⟩⟩⟩
  cases reply with
  | error e => exact refused _ (.other e) working
  | ok _ => exact stored _ ⟨working, List.mem_cons_self⟩

theorem handleFailure_working (err : Thrown) (listed : envelope ∈ messages)
    (working : Working messages d) (failed : isRetryableError err = true →
      d.failed = some envelope.message) :
    Meets custody (handleFailure env cfg stream envelope err) (fun t _ => Working messages t) d := by
  unfold handleFailure
  split
  next retries =>
    rw [Bool.and_eq_true] at retries
    rw [meets_rescue, meets_bind]
    apply scheduleRetry_settles err working (failed retries.1)
    · intro t settled
      exact ackOne listed settled fun outcome => by
        cases outcome with
        | ok _ => exact settled.1
        | error e => exact deadLetter_working err listed t settled.1
    · intro t e still
      exact deadLetter_working err listed t still
  next => exact deadLetter_working err listed d working

theorem processMessage_working (listed : envelope ∈ messages) :
    Keeps custody (Working messages) (processMessage env cfg stream envelope) := by
  intro d working
  unfold processMessage
  rw [meets_rescue, meets_bind]
  refine ⟨⟨working.1, envelope, working.2 ▸ listed, rfl⟩, fun reply => ?_⟩
  cases reply with
  | error e =>
    have failed : Working messages { d with failed := some envelope.message } := working
    exact handleFailure_working e listed failed fun _ => rfl
  | ok _ =>
    have settled : Settled messages envelope.message.job
        { d with settled := envelope.message.job :: d.settled } := ⟨working, List.mem_cons_self⟩
    -- only the acknowledgement can fail now, with an error that is not retried
    unfold ackMessageIds
    split
    · exact working
    · refine ⟨⟨working.1, fun id same => ?_⟩, fun reply => ?_⟩
      · rw [List.mem_singleton] at same
        exact ⟨envelope, working.2 ▸ listed, same.symm, settled.2⟩
      · cases reply with
        | ok _ => exact working
        | error e =>
          apply handleFailure_working (.other e) listed _ fun retryable => nomatch retryable
          exact working

theorem processEach_working : ∀ {part : List WorkerEnvelope}, (∀ e ∈ part, e ∈ messages) →
    Keeps custody (Working messages) (processEach env cfg stream part)
  | [], _ => keeps_pure ()
  | envelope :: rest, given => by
    unfold processEach
    exact keeps_bind (processMessage_working (given envelope List.mem_cons_self)) fun _ =>
      processEach_working fun e later => given e (List.mem_cons_of_mem _ later)

theorem failedOf_given (result : Option (BatchHandlerResult messages)) :
    ∀ e ∈ failedOf result, e ∈ messages := by
  unfold failedOf
  cases result with
  | none => exact fun e listed => nomatch listed
  | some r =>
    intro e listed
    cases failed : r.failedMessages with
    | none => simp [failed] at listed
    | some given =>
      simp only [Option.bind_some, failed, Option.getD_some] at listed
      exact r.failedGiven given failed e listed

theorem handledIds_given (result : Option (BatchHandlerResult messages)) :
    ∀ id ∈ handledIds result, ∃ e ∈ messages, e.id = id := by
  unfold handledIds
  intro id listed
  cases result with
  | none => exact List.mem_map.mp listed
  | some r =>
    cases handled : r.handledMessageIds with
    | none =>
      simp only [Option.bind_some, handled, Option.getD_none] at listed
      exact List.mem_map.mp listed
    | some given =>
      simp only [Option.bind_some, handled, Option.getD_some] at listed
      exact r.handledGiven given handled id listed

theorem processBatch_working :
    Keeps custody (Working messages) (processBatch env cfg stream messages) := by
  intro d working
  unfold processBatch
  rw [meets_bind]
  refine ⟨⟨working.1, working.2.symm⟩, fun reply => ?_⟩
  cases reply with
  | error e => exact working
  | ok result =>
    rw [meets_done, then_ok, meets_bind]
    have still : Working messages
        { d with settled := jobsOf messages (handledIds result) ++ d.settled } := working
    apply ack_working (d := { d with settled := jobsOf messages (handledIds result) ++ d.settled })
      still
    · intro id handled
      obtain ⟨e, listed, same⟩ := handledIds_given result id handled
      refine ⟨e, working.2 ▸ listed, same, List.mem_append_left _ (List.mem_map.mpr ⟨e, ?_, rfl⟩)⟩
      rw [List.mem_filter, List.contains_iff_mem, same]
      exact ⟨listed, handled⟩
    · intro outcome
      cases outcome with
      | error e => exact still
      | ok _ => exact processEach_working (failedOf_given result) _ still

theorem processMessages_working (params : Params) :
    Keeps custody (Working messages) (processMessages env cfg params messages) := by
  unfold processMessages
  split
  · exact keeps_rescue processBatch_working fun _ => processEach_working fun e listed => listed
  · exact processEach_working fun e listed => listed

theorem afterRead {params : Params} {next : Program Unit} (rest : Keeps custody Free next) :
    Meets custody (processMessages env cfg params messages >>= fun _ => next)
      (fun t _ => Free t) { reads := messages } := by
  rw [meets_bind]
  have start : Working messages { reads := messages } := ⟨rfl, rfl⟩
  apply (processMessages_working params _ start).imp
  intro t outcome working
  cases outcome with
  | error e => exact working.1
  | ok _ => exact rest t working.1

theorem readGroup_free (params : Params) :
    Keeps custody Free (xReadGroup params.readCount >>= processMessages env cfg params) := by
  intro d free
  refine ⟨free, fun reply => ?_⟩
  cases reply with
  | error e => exact free
  | ok messages =>
    have start : Working messages { reads := messages } := ⟨rfl, rfl⟩
    exact (processMessages_working params _ start).imp fun t _ working => working.1

theorem pass_obeys (params : Params) (fuel : Nat) :
    Meets custody (pass env cfg params fuel) (fun t _ => Free t) {} := by
  have claims : Keeps custody Free (xAutoClaim (max params.readCount cfg.pendingClaimBatchSize)
      >>= fun reclaimed => processMessages env cfg params reclaimed >>= fun _ =>
        xReadGroup params.readCount >>= processMessages env cfg params) := by
    intro d free
    refine ⟨free, fun reply => ?_⟩
    cases reply with
    | error e => exact free
    | ok messages => exact afterRead (readGroup_free params)
  exact keeps_bind (drainDueRetries_free fuel _) (fun _ => claims) _ rfl

end MastopodFederation.Guarantees.MediaPasses
