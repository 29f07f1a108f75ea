import MastopodFederation.Guarantees.MediaPasses

/-!
# Retry counters of media messages

What a worker has read stays in the stream under its id, whatever the commands of all
workers do (`Linked`). A copy of a message never counts more retries than its job has
failures, and so neither does a message that is handed to a handler (`counters_bounded`).
-/
namespace MastopodFederation.Guarantees.MediaCounters
open Lib.Calls Lib.WorkerPool Lib.GuardedRun Source.SecureWorker Source.MediaStream MediaPasses

variable {env : Environment} {cfg : Config} {s after : Store} {c : Call} {reply : Reply c}
  {d : Duty} {duties : Nat → Option (Unit × Duty)} {i : Nat}

def Listed (s : Store) (id : String) (message : Message) : Prop :=
  ∃ entry ∈ s.stream, entry.id = id ∧ entry.message = message

def Distinct (s : Store) : Prop := (s.stream.map (·.id)).Nodup

variable (affected : StreamEntry → Bool)

theorem ids_setStatus (status : EntryStatus) :
    (s.setStatus affected status).stream.map (·.id) = s.stream.map (·.id) := by
  unfold Store.setStatus
  rw [List.map_map]
  apply List.map_congr_left
  intro entry _
  dsimp only [Function.comp]
  split <;> rfl

variable {id : String} {message : Message}

theorem listed_setStatus (status : EntryStatus) : Listed (s.setStatus affected status) id message ↔ Listed s id message := by
  constructor
  · rintro ⟨entry, listed, rfl, rfl⟩
    obtain ⟨before, there, rfl⟩ := List.mem_map.mp listed
    refine ⟨before, there, ?_⟩
    split <;> exact ⟨rfl, rfl⟩
  · rintro ⟨entry, listed, rfl, rfl⟩
    refine ⟨_, List.mem_map_of_mem listed, ?_⟩
    split <;> exact ⟨rfl, rfl⟩

theorem distinct_append (distinct : Distinct s)
    (fresh : Fresh s id) : Distinct (s.append id message) := by
  unfold Distinct Store.append
  rw [List.map_append, List.nodup_append]
  refine ⟨distinct, List.pairwise_singleton _ _, ?_⟩
  rintro a there b (_ | ⟨_, ⟨⟩⟩)
  obtain ⟨entry, listed, rfl⟩ := List.mem_map.mp there
  exact fresh entry listed

theorem listed_append {other : String} {m : Message}
    (listed : Listed (s.append id message) other m) :
    Listed s other m ∨ (other = id ∧ m = message) := by
  obtain ⟨entry, there, rfl, rfl⟩ := listed
  rcases List.mem_append.mp there with old | new
  · exact .inl ⟨entry, old, rfl, rfl⟩
  · rw [List.mem_singleton] at new
    exact .inr ⟨by rw [new], by rw [new]⟩

theorem Listed.append {other : String} {m : Message} (listed : Listed s other m) :
    Listed (s.append id message) other m := by
  obtain ⟨entry, there, same⟩ := listed
  exact ⟨entry, List.mem_append_left _ there, same⟩

theorem distinct_setStatus (status : EntryStatus)
    (distinct : Distinct s) : Distinct (s.setStatus affected status) := by
  unfold Distinct
  rw [ids_setStatus]
  exact distinct

theorem distinct_congr (same : after.stream = s.stream) (distinct : Distinct s) :
    Distinct after := by
  unfold Distinct
  rw [same]
  exact distinct

theorem listed_congr (same : after.stream = s.stream) :
    Listed after id message ↔ Listed s id message := by
  unfold Listed
  rw [same]

theorem stream_afterHandler {reply : Except Thrown Unit} :
    (afterHandler s message reply).stream = s.stream := by
  cases reply <;> rfl

theorem stream_afterBatch {messages : List WorkerEnvelope}
    {reply : Except Thrown (Option (BatchHandlerResult messages))} :
    (afterBatch s messages reply).stream = s.stream := by
  cases reply <;> rfl

theorem distinct_applies (applies : Applies c s reply after) (distinct : Distinct s) :
    Distinct after := by
  cases applies with
  | requeue fresh => exact distinct_append distinct fresh
  | xReadGroup reads => exact distinct_setStatus _ _ distinct
  | xAck => exact distinct_setStatus _ _ distinct
  | handler => exact distinct_congr stream_afterHandler distinct
  | batchHandler => exact distinct_congr stream_afterBatch distinct
  | _ => exact distinct

theorem listed_applies (applies : Applies c s reply after)
    (listed : Listed s id message) : Listed after id message := by
  cases applies with
  | requeue fresh => exact listed.append
  | xReadGroup reads => exact (listed_setStatus _ _).mpr listed
  | xAck => exact (listed_setStatus _ _).mpr listed
  | handler => exact (listed_congr stream_afterHandler).mpr listed
  | batchHandler => exact (listed_congr stream_afterBatch).mpr listed
  | _ => exact listed

theorem listed_of_applies (applies : Applies c s reply after)
    (listed : Listed after id message) : Listed s id message ∨ c = .requeue message := by
  cases applies with
  | requeue fresh =>
    rcases listed_append listed with old | new
    · exact .inl old
    · exact .inr (congrArg _ new.2.symm)
  | xReadGroup reads => exact .inl ((listed_setStatus _ _).mp listed)
  | xAck => exact .inl ((listed_setStatus _ _).mp listed)
  | handler => exact .inl ((listed_congr stream_afterHandler).mp listed)
  | batchHandler => exact .inl ((listed_congr stream_afterBatch).mp listed)
  | _ => exact .inl listed

structure Linked (s : Store) (duties : Nat → Option (Unit × Duty)) : Prop where
  distinct : Distinct s
  reads : ∀ i d, duties i = some ((), d) → ∀ e ∈ d.reads, Listed s e.id e.message

/-- A command whose reply is an error only empties the hands, and that only where it puts
something back. -/
theorem after_threw (failed : threw c reply = true) (command : isCommand c = true) :
    d.after c reply = d ∨ d.after c reply = { d with hand := none } := by
  cases c with
  | now | randomUUID | jitter _ => nomatch failed
  | handler _ | batchHandler _ => nomatch command
  | pushBack _ | requeue _ => exact .inr rfl
  | zPopMin =>
    cases reply with
    | ok _ => nomatch failed
    | error _ => exact .inl rfl
  | schedule _ =>
    cases reply with
    | ok _ => nomatch failed
    | error _ => exact .inl rfl
  | xAutoClaim _ =>
    cases reply with
    | ok _ => nomatch failed
    | error _ => exact .inl rfl
  | xReadGroup _ =>
    cases reply with
    | ok _ => nomatch failed
    | error _ => exact .inl rfl
  | pushToDlq _ =>
    cases reply with
    | ok _ => nomatch failed
    | error _ => exact .inl rfl
  | xAck _ =>
    cases reply with
    | ok _ => nomatch failed
    | error _ => exact .inl rfl

theorem listed_of_reads {status : EntryStatus} {envelopes : List WorkerEnvelope}
    (reads : Reads s status envelopes) : ∀ e ∈ envelopes, Listed s e.id e.message :=
  fun e listed => ⟨_, reads e listed, rfl, rfl⟩

theorem reads_applies (applies : Applies c s reply after)
    (reads : ∀ e ∈ d.reads, Listed s e.id e.message) :
    ∀ e ∈ (d.after c reply).reads, Listed after e.id e.message := by
  have kept : ∀ e ∈ d.reads, Listed after e.id e.message :=
    fun e listed => listed_applies applies (reads e listed)
  cases applies with
  | xAutoClaim found => exact listed_of_reads found
  | xReadGroup found =>
    exact fun e listed => (listed_setStatus _ _).mpr (listed_of_reads found e listed)
  | handler =>
    rename_i message reply
    cases reply <;> exact kept
  | _ => exact kept

theorem reads_effect (effect : Effect c s reply after)
    (reads : ∀ e ∈ d.reads, Listed s e.id e.message) :
    ∀ e ∈ (d.after c reply).reads, Listed after e.id e.message := by
  cases effect with
  | applied up applies => exact reads_applies applies reads
  | refused command down failed =>
    rcases after_threw (d := d) failed command with same | same <;> rw [same] <;> exact reads
  | replyLost command lossy applies failed =>
    have kept : ∀ e ∈ d.reads, Listed after e.id e.message :=
      fun e listed => listed_applies applies (reads e listed)
    rcases after_threw (d := d) failed command with same | same <;> rw [same] <;> exact kept

theorem linked_call (effect : Effect c s reply after) (linked : Linked s duties)
    (duty : duties i = some ((), d)) :
    Linked after (setDuty duties i (some ((), d.after c reply))) := by
  have grows : Distinct after ∧ ∀ id message, Listed s id message → Listed after id message := by
    cases effect with
    | applied up applies =>
      exact ⟨distinct_applies applies linked.distinct, fun _ _ => listed_applies applies⟩
    | refused command down failed => exact ⟨linked.distinct, fun _ _ listed => listed⟩
    | replyLost command lossy applies failed =>
      exact ⟨distinct_applies applies linked.distinct, fun _ _ => listed_applies applies⟩
  refine ⟨grows.1, fun j d' held e listed => ?_⟩
  rcases setDuty_some held with ⟨-, same⟩ | ⟨-, old⟩
  · cases same
    exact reads_effect effect (linked.reads i d duty) e listed
  · exact grows.2 _ _ (linked.reads j d' old e listed)

theorem linked_stop (linked : Linked s duties) : Linked s (setDuty duties i none) :=
  ⟨linked.distinct, fun j d' held => linked.reads j d' (of_setDuty_none held)⟩

theorem linked_start (linked : Linked s duties) : Linked s (setDuty duties i (some ((), {}))) := by
  refine ⟨linked.distinct, fun j d' held => ?_⟩
  rcases setDuty_some held with ⟨-, same⟩ | ⟨-, old⟩
  · cases same
    exact fun e listed => nomatch listed
  · exact linked.reads j d' old

theorem linked_act {event : Event} (acts : Acts event s after) (linked : Linked s duties) :
    Linked after duties := by
  cases acts with
  | enqueue fresh first =>
    exact ⟨distinct_append linked.distinct fresh,
      fun j d' held e listed => (linked.reads j d' held e listed).append⟩
  | connection => exact ⟨linked.distinct, linked.reads⟩

def Counts (s : Store) (message : Message) : Prop :=
  retryAttemptForMessage message ≤ s.failures message.job

structure StoreCounted (s : Store) : Prop where
  entries : ∀ id message, Listed s id message → Counts s message
  members : ∀ entry ∈ s.retrySet, ∀ message, messageOf entry = some message → Counts s message
  handed : ∀ h ∈ s.handed, retryAttemptForMessage h.message ≤ h.failures

structure DutyCounted (s : Store) (d : Duty) : Prop where
  hand : ∀ message, d.hand = some message → Counts s message
  failed : ∀ message, d.failed = some message →
    retryAttemptForMessage message + 1 ≤ s.failures message.job

theorem failures_applies (applies : Applies c s reply after) (job : Nat) :
    s.failures job ≤ after.failures job := by
  cases applies with
  | handler =>
    rename_i message reply
    cases reply with
    | ok _ => exact Nat.le_refl _
    | error e =>
      change s.failures job ≤ if job = message.job then s.failures job + 1 else s.failures job
      split <;> omega
  | batchHandler =>
    rename_i messages reply
    cases reply <;> exact Nat.le_refl _
  | _ => exact Nat.le_refl _

theorem Counts.mono (counts : Counts s message)
    (grows : ∀ job, s.failures job ≤ after.failures job) : Counts after message :=
  Nat.le_trans counts (grows message.job)

theorem DutyCounted.mono (counted : DutyCounted s d)
    (grows : ∀ job, s.failures job ≤ after.failures job) : DutyCounted after d where
  hand message held := (counted.hand message held).mono grows
  failed message held := Nat.le_trans (counted.failed message held) (grows message.job)

theorem mem_zAdd {entry other : RetryEntry} (there : other ∈ (s.zAdd entry).retrySet) :
    other = entry ∨ other ∈ s.retrySet := by
  rcases List.mem_cons.mp there with same | old
  · exact .inl same
  · exact .inr (List.mem_filter.mp old).1

theorem members_applies (applies : Applies c s reply after) {entry : RetryEntry}
    (there : entry ∈ after.retrySet) :
    entry ∈ s.retrySet ∨ c = .pushBack entry ∨ c = .schedule entry := by
  cases applies with
  | pop lowest => exact .inl (List.mem_filter.mp there).1
  | pushBack =>
    rcases mem_zAdd there with rfl | old
    · exact .inr (.inl rfl)
    · exact .inl old
  | schedule =>
    rcases mem_zAdd there with rfl | old
    · exact .inr (.inr rfl)
    · exact .inl old
  | handler =>
    rename_i message reply
    cases reply <;> exact .inl there
  | batchHandler =>
    rename_i messages reply
    cases reply <;> exact .inl there
  | _ => exact .inl there

theorem handed_applies (applies : Applies c s reply after) {h : Handing} (there : h ∈ after.handed) :
    h ∈ s.handed ∨ (c = .handler h.message ∧ h.failures = s.failures h.message.job) ∨
      ∃ messages, c = .batchHandler messages ∧ h.failures = s.failures h.message.job ∧
        ∃ e ∈ messages, e.message = h.message := by
  cases applies with
  | handler =>
    rename_i message reply
    have listed : h ∈ (s.handOver [message]).handed := by cases reply <;> exact there
    rcases List.mem_cons.mp listed with rfl | old
    · exact .inr (.inl ⟨rfl, rfl⟩)
    · exact .inl old
  | batchHandler =>
    rename_i messages reply
    have listed : h ∈ (s.handOver (messages.map (·.message))).handed := by
      cases reply <;> exact there
    rcases List.mem_append.mp listed with new | old
    · obtain ⟨m, given, rfl⟩ := List.mem_map.mp new
      obtain ⟨e, member, rfl⟩ := List.mem_map.mp given
      exact .inr (.inr ⟨messages, rfl, rfl, e, member, rfl⟩)
    · exact .inl old
  | _ => exact .inl there

theorem storeCounted_applies (applies : Applies c s reply after) (allowed : d.allows c)
    (reads : ∀ e ∈ d.reads, Listed s e.id e.message) (counted : StoreCounted s)
    (duty : DutyCounted s d) : StoreCounted after where
  entries id message listed := by
    rcases listed_of_applies applies listed with old | rfl
    · exact (counted.entries id message old).mono (failures_applies applies)
    · exact (duty.hand message allowed).mono (failures_applies applies)
  members entry there message parses := by
    rcases members_applies applies there with old | rfl | rfl
    · exact (counted.members entry old message parses).mono (failures_applies applies)
    · exact (duty.hand message (allowed.symm.trans parses)).mono (failures_applies applies)
    · obtain ⟨-, failed, next, held, same, follows⟩ := allowed
      cases parses.symm.trans same
      have above := duty.failed failed held
      have grows := failures_applies applies failed.job
      unfold Counts
      rw [follows.1, follows.2]
      omega
  handed h there := by
    rcases handed_applies applies there with old | ⟨rfl, now⟩ | ⟨messages, rfl, now, e, given, same⟩
    · exact counted.handed h old
    · obtain ⟨-, e, read, same⟩ := allowed
      rw [now, ← same]
      exact counted.entries e.id e.message (reads e read)
    · rw [now, ← same]
      exact counted.entries e.id e.message (reads e (allowed.2 ▸ given))

theorem dutyCounted_applies (applies : Applies c s reply after) (allowed : d.allows c)
    (reads : ∀ e ∈ d.reads, Listed s e.id e.message) (counted : StoreCounted s)
    (duty : DutyCounted s d) : DutyCounted after (d.after c reply) := by
  have kept : DutyCounted after d := duty.mono (failures_applies applies)
  cases applies with
  | pop lowest =>
    exact ⟨fun message parses => counted.members _ lowest.1 message parses, kept.failed⟩
  | pushBack | requeue => exact ⟨nofun, kept.failed⟩
  | xAutoClaim | xReadGroup =>
    exact ⟨nofun, nofun⟩
  | handler =>
    rename_i message reply
    cases reply with
    | ok _ => exact ⟨kept.hand, kept.failed⟩
    | error e =>
      refine ⟨kept.hand, fun m same => ?_⟩
      cases same
      obtain ⟨-, e, read, same⟩ := allowed
      have counts : Counts s message := same ▸ counted.entries e.id e.message (reads e read)
      have once : ((s.handOver [message]).countFailure message.job).failures message.job =
          s.failures message.job + 1 := if_pos rfl
      exact Nat.le_trans (Nat.succ_le_succ counts) (Nat.le_of_eq once.symm)
  | _ => exact ⟨kept.hand, kept.failed⟩

theorem dutyCounted_threw (failed : threw c reply = true) (command : isCommand c = true)
    (duty : DutyCounted s d) : DutyCounted s (d.after c reply) := by
  rcases after_threw (d := d) failed command with same | same
  · rw [same]
    exact duty
  · rw [same]
    exact ⟨nofun, duty.failed⟩

def Counted (s : Store) (duties : Nat → Option (Unit × Duty)) : Prop :=
  Linked s duties ∧ StoreCounted s ∧ ∀ i d, duties i = some ((), d) → DutyCounted s d

theorem counted_call (effect : Effect c s reply after) (allowed : d.allows c)
    (counted : Counted s duties) (duty : duties i = some ((), d)) :
    Counted after (setDuty duties i (some ((), d.after c reply))) := by
  obtain ⟨linked, store, each⟩ := counted
  have reads := linked.reads i d duty
  have mine := each i d duty
  have kept : StoreCounted after ∧ DutyCounted after (d.after c reply) ∧
      ∀ job, s.failures job ≤ after.failures job := by
    cases effect with
    | applied up applies =>
      exact ⟨storeCounted_applies applies allowed reads store mine,
        dutyCounted_applies applies allowed reads store mine, failures_applies applies⟩
    | refused command down failed =>
      exact ⟨store, dutyCounted_threw failed command mine, fun job => Nat.le_refl _⟩
    | replyLost command lossy applies failed =>
      exact ⟨storeCounted_applies applies allowed reads store mine,
        dutyCounted_threw failed command (mine.mono (failures_applies applies)),
        failures_applies applies⟩
  refine ⟨linked_call effect linked duty, kept.1, fun j d' held => ?_⟩
  rcases setDuty_some held with ⟨-, same⟩ | ⟨-, old⟩
  · cases same
    exact kept.2.1
  · exact (each j d' old).mono kept.2.2

theorem counted_act {event : Event} (acts : Acts event s after) (counted : Counted s duties) :
    Counted after duties := by
  obtain ⟨linked, store, each⟩ := counted
  refine ⟨linked_act acts linked, ?_⟩
  cases acts with
  | enqueue fresh first =>
    refine ⟨⟨fun id message listed => ?_, store.members, store.handed⟩,
      fun j d' held => (each j d' held).mono fun job => Nat.le_refl _⟩
    rcases listed_append listed with old | ⟨-, rfl⟩
    · exact store.entries id message old
    · exact Nat.le_trans (Nat.le_of_eq (retryAttempt_of_absent first)) (Nat.zero_le _)
  | connection =>
    exact ⟨⟨store.entries, store.members, store.handed⟩,
      fun j d' held => (each j d' held).mono fun job => Nat.le_refl _⟩

theorem counted_preserved : PreservesAt (mediaSystem env cfg) always custody Free Counted where
  call _ _ _ _ _ _ _ _ _ _ counted _ duty allowed effect := counted_call effect allowed counted duty
  stop pool duties i _ counted _ :=
    ⟨linked_stop counted.1, counted.2.1, fun j d' held => counted.2.2 j d' (of_setDuty_none held)⟩
  start pool duties i worker _ counted _ starts := by
    obtain ⟨params, fuel⟩ := starts
    refine ⟨{}, pass_obeys _ _, linked_start counted.1, counted.2.1, fun j d' held => ?_⟩
    rcases setDuty_some held with ⟨-, same⟩ | ⟨-, old⟩
    · cases same
      exact ⟨nofun, nofun⟩
    · exact counted.2.2 j d' old
  act _ _ _ _ _ counted acts := counted_act acts counted

theorem counted_initial : Counted .initial fun _ => none :=
  ⟨⟨List.nodup_nil, nofun⟩,
    ⟨nofun, nofun,
      nofun⟩,
    nofun⟩

theorem counters_bounded {pool : MediaPool}
    (run : Reaches (Step (mediaSystem env cfg)) always (Pool.idle .initial) pool) :
    ∀ h ∈ pool.shared.handed, retryAttemptForMessage h.message ≤ h.failures := by
  obtain ⟨duties, counted⟩ := invariantAt counted_preserved counted_initial run
  exact counted.2.1.handed

end MastopodFederation.Guarantees.MediaCounters
