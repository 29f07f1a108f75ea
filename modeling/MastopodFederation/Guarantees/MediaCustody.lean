import MastopodFederation.Guarantees.MediaCounters

/-!
# Media jobs and their copies

As long as nothing goes wrong between the ZPOPMIN of a drain and the command that puts the
member back, every job that was not handled keeps an entry, a member of the retry set or a dead
letter, or is in the hands of a drain at that very moment (`job_accounted`). A drain that is
interrupted there loses it (`drained_and_lost`).
-/
namespace MastopodFederation.Guarantees.MediaCustody
open Lib.Calls Lib.WorkerPool Lib.GuardedRun Lib.PoolRuns Source.SecureWorker Source.MediaStream
open MediaPasses MediaCounters

variable {env : Environment} {cfg : Config} {s after : Store} {c : Call} {reply : Reply c}
  {d : Duty} {duties : Nat → Option (Unit × Duty)} {i job : Nat}

def Stored (s : Store) (job : Nat) : Prop :=
  (∃ entry ∈ s.retrySet, ∃ message, messageOf entry = some message ∧ message.job = job) ∨
    ∃ payload ∈ s.dlq, payload.job = job

def Unacknowledged (s : Store) (job : Nat) : Prop :=
  ∃ entry ∈ s.stream, entry.status ≠ .acked ∧ entry.message.job = job

/-- The job has an entry that is not acknowledged, a member of the retry set or a dead
letter. -/
def Held (s : Store) (job : Nat) : Prop := Unacknowledged s job ∨ Stored s job

def Unsettled (duties : Nat → Option (Unit × Duty)) (id : String) (job : Nat) : Prop :=
  ∀ i d, duties i = some ((), d) → job ∈ d.settled → ∀ e ∈ d.reads, e.id ≠ id

inductive Accounted (s : Store) (duties : Nat → Option (Unit × Duty)) (job : Nat) : Prop where
  | handled (done : job ∈ s.handled)
  | stored (there : Stored s job)
  | inHand (i : Nat) (d : Duty) (message : Message) (duty : duties i = some ((), d))
      (held : d.hand = some message) (same : message.job = job)
  | waiting (entry : StreamEntry) (listed : entry ∈ s.stream) (open_ : entry.status ≠ .acked)
      (same : entry.message.job = job) (unsettled : Unsettled duties entry.id job)

def Kept (s : Store) (duties : Nat → Option (Unit × Duty)) : Prop :=
  Linked s duties ∧ ∀ job < s.enqueued, Accounted s duties job

theorem handled_applies (applies : Applies c s reply after) (done : job ∈ s.handled) :
    job ∈ after.handled := by
  cases applies with
  | handler =>
    rename_i message reply
    cases reply with
    | ok _ => exact List.mem_append_right _ done
    | error e => exact done
  | batchHandler =>
    rename_i messages reply
    cases reply with
    | ok result => exact List.mem_append_right _ done
    | error e => exact done
  | _ => exact done

theorem letters_applies (applies : Applies c s reply after) {payload : DlqPayload}
    (there : payload ∈ s.dlq) : payload ∈ after.dlq := by
  cases applies with
  | pushToDlq => exact List.mem_cons_of_mem _ there
  | handler =>
    rename_i message reply
    cases reply <;> exact there
  | batchHandler =>
    rename_i messages reply
    cases reply <;> exact there
  | _ => exact there

theorem value_zAdd {entry other : RetryEntry} (there : other ∈ s.retrySet) :
    ∃ member ∈ (s.zAdd entry).retrySet, member.value = other.value := by
  by_cases same : other.value = entry.value
  · exact ⟨entry, List.mem_cons_self, same.symm⟩
  · exact ⟨other, List.mem_cons_of_mem _ (List.mem_filter.mpr ⟨there, by simpa using same⟩), rfl⟩

theorem members_stay (applies : Applies c s reply after) {entry : RetryEntry}
    (there : entry ∈ s.retrySet) :
    (∃ member ∈ after.retrySet, member.value = entry.value) ∨
      c = .zPopMin ∧ ∀ d : Duty, (d.after c reply).hand = messageOf entry := by
  have still : entry ∈ s.retrySet ∧ entry.value = entry.value := ⟨there, rfl⟩
  cases applies with
  | pop lowest =>
    rename_i popped now
    by_cases same : entry.value = popped.value
    · exact .inr ⟨rfl, fun d => by rw [messageOf, same]; rfl⟩
    · exact .inl ⟨entry, List.mem_filter.mpr ⟨there, by simpa using same⟩, rfl⟩
  | pushBack => exact .inl (value_zAdd there)
  | schedule => exact .inl (value_zAdd there)
  | handler =>
    rename_i message reply
    cases reply <;> exact .inl ⟨entry, still⟩
  | batchHandler =>
    rename_i messages reply
    cases reply <;> exact .inl ⟨entry, still⟩
  | _ => exact .inl ⟨entry, still⟩

variable {message : Message}

theorem stored_of_value {member entry : RetryEntry}
    (there : member ∈ s.retrySet) (same : member.value = entry.value)
    (parses : messageOf entry = some message) (of : message.job = job) : Stored s job :=
  .inl ⟨member, there, message, by rw [messageOf, same]; exact parses, of⟩

variable {entry : StreamEntry}

theorem mem_setStatus {affected : StreamEntry → Bool} {status : EntryStatus}
    (listed : entry ∈ s.stream) :
    ∃ later ∈ (s.setStatus affected status).stream, later.id = entry.id ∧
      later.message = entry.message ∧
      later.status = if affected entry then status else entry.status := by
  refine ⟨_, List.mem_map_of_mem listed, ?_⟩
  split <;> exact ⟨rfl, rfl, rfl⟩

theorem entries_stay (applies : Applies c s reply after)
    (listed : entry ∈ s.stream) (open_ : entry.status ≠ .acked) :
    (∃ later ∈ after.stream, later.id = entry.id ∧ later.message = entry.message ∧
      later.status ≠ .acked) ∨ ∃ ids, c = .xAck ids ∧ entry.id ∈ ids := by
  have still : entry ∈ s.stream ∧ entry.id = entry.id ∧ entry.message = entry.message ∧
      entry.status ≠ .acked := ⟨listed, rfl, rfl, open_⟩
  cases applies with
  | requeue fresh => exact .inl ⟨entry, List.mem_append_left _ listed, still.2⟩
  | xReadGroup reads =>
    obtain ⟨later, there, same, message, status⟩ := mem_setStatus (s := s) listed
    refine .inl ⟨later, there, same, message, ?_⟩
    rw [status]
    split
    · decide
    · exact open_
  | xAck =>
    rename_i ids
    by_cases named : entry.id ∈ ids
    · exact .inr ⟨ids, rfl, named⟩
    · obtain ⟨later, there, same, message, status⟩ := mem_setStatus (s := s) listed
      refine .inl ⟨later, there, same, message, ?_⟩
      rw [status, if_neg (by simp [named])]
      exact open_
  | handler => exact .inl ⟨entry, stream_afterHandler (s := s).symm ▸ listed, still.2⟩
  | batchHandler => exact .inl ⟨entry, stream_afterBatch (s := s).symm ▸ listed, still.2⟩
  | _ => exact .inl ⟨entry, still⟩

theorem settledBy_applies (applies : Applies c s reply after) (settled : job ∈ settledBy c reply) :
    job ∈ after.handled ∨ Stored after job := by
  cases applies with
  | schedule =>
    rename_i entry
    obtain ⟨message, parses, rfl⟩ := List.mem_map.mp settled
    rw [Option.mem_toList] at parses
    exact .inr (.inl ⟨entry, List.mem_cons_self, message, parses, rfl⟩)
  | handler =>
    rename_i message reply
    cases reply with
    | ok _ => exact .inl (List.mem_append_left _ settled)
    | error e => nomatch settled
  | batchHandler =>
    rename_i messages reply
    cases reply with
    | ok result => exact .inl (List.mem_append_left _ settled)
    | error e => nomatch settled
  | pushToDlq =>
    rename_i payload
    exact .inr (.inr ⟨payload, List.mem_cons_self, (List.mem_singleton.mp settled).symm⟩)
  | _ => nomatch settled

theorem settled_after (settled : job ∈ (d.after c reply).settled) :
    (job ∈ d.settled ∧ (d.after c reply).reads = d.reads) ∨ job ∈ settledBy c reply := by
  have split : job ∈ settledBy c reply ++ d.settled →
      (job ∈ d.settled ∧ d.reads = d.reads) ∨ job ∈ settledBy c reply := by
    intro either
    rcases List.mem_append.mp either with new | old
    · exact .inr new
    · exact .inl ⟨old, rfl⟩
  cases c with
  | pushBack _ | requeue _ => exact .inl ⟨settled, rfl⟩
  | zPopMin =>
    rcases reply with e | _ | ⟨entry, now⟩
    · exact split settled
    · exact split settled
    · exact .inl ⟨settled, rfl⟩
  | xAutoClaim _ =>
    cases reply with
    | ok _ => nomatch settled
    | error _ => exact split settled
  | xReadGroup _ =>
    cases reply with
    | ok _ => nomatch settled
    | error _ => exact split settled
  | handler _ =>
    cases reply with
    | ok _ => exact split settled
    | error _ => exact .inl ⟨settled, rfl⟩
  | _ => exact split settled

/-- The command is not one that a drain must not fail in: a ZPOPMIN does not lose its reply
and what puts a member back is not refused. -/
def Steady : Connection → Call → Prop
  | .losesReply, .zPopMin => False
  | .refuses, .pushBack _ | .refuses, .requeue _ => False
  | _, _ => True

instance : ∀ connection c, Decidable (Steady connection c) := by
  intro connection c
  cases connection <;> cases c <;> first | exact .isTrue trivial | exact .isFalse id

/-- The job of the member that the worker's drain holds, between ZPOPMIN and the command that
puts the member back. -/
def inHand : Option (Worker Unit Call Reply Thrown Unit) → Option Nat
  | some ⟨_, .call (.pushBack entry) _⟩ => (messageOf entry).map (·.job)
  | some ⟨_, .call (.requeue message) _⟩ => some message.job
  | _ => none

def SteadyAt (connection : Connection) : Option (Worker Unit Call Reply Thrown Unit) → Prop
  | some ⟨_, .call c _⟩ => Steady connection c
  | _ => True

instance (connection : Connection) :
    ∀ worker, Decidable (SteadyAt connection worker)
  | some ⟨_, .call c _⟩ => inferInstanceAs (Decidable (Steady connection c))
  | some ⟨_, .done _⟩ => .isTrue trivial
  | none => .isTrue trivial

/-- No drain is interrupted, by a crash or by the connection, between ZPOPMIN and the
command that puts the member back. -/
def Uninterrupted (pool : MediaPool) : MediaLabel → Prop
  | .call i => SteadyAt pool.shared.connection (pool.workers i)
  | .stop i => inHand (pool.workers i) = none
  | _ => True

instance (pool : MediaPool) : ∀ label, Decidable (Uninterrupted pool label)
  | .call i => inferInstanceAs (Decidable (SteadyAt _ (pool.workers i)))
  | .stop i => inferInstanceAs (Decidable (inHand (pool.workers i) = none))
  | .start .. => .isTrue trivial
  | .act _ => .isTrue trivial

theorem waiting_stays (linked : Linked s duties)
    (duty : duties i = some ((), d)) (allowed : d.allows c) (applies : Applies c s reply after)
    (listed : entry ∈ s.stream) (open_ : entry.status ≠ .acked) (same : entry.message.job = job)
    (unsettled : Unsettled duties entry.id job) :
    ∃ later ∈ after.stream, later.id = entry.id ∧ later.message = entry.message ∧
      later.status ≠ .acked := by
  rcases entries_stay applies listed open_ with stays | ⟨ids, rfl, named⟩
  · exact stays
  · obtain ⟨e, read, id, settled⟩ := allowed.2 entry.id named
    obtain ⟨other, there, otherId, message⟩ := linked.reads i d duty e read
    have one : other = entry :=
      List.inj_on_of_nodup_map linked.distinct there listed (otherId.trans id)
    rw [one] at message
    rw [← message, same] at settled
    exact absurd id (unsettled i d duty settled e read)

theorem unsettled_of_fresh {id : String} (unused : Fresh s id)
    (reads : ∀ i d, duties i = some ((), d) → ∀ e ∈ d.reads, ∃ m, Listed s e.id m) :
    Unsettled duties id job := by
  intro k other held _ e read taken
  obtain ⟨m, entry, listed, id, -⟩ := reads k other held e read
  exact unused entry listed (id.trans taken)

theorem unsettled_after {id : String} {d' : Duty} (unsettled : Unsettled duties id job)
    (mine : job ∈ d'.settled → ∀ e ∈ d'.reads, e.id ≠ id) :
    Unsettled (setDuty duties i (some ((), d'))) id job := by
  intro j other held
  rcases setDuty_some held with ⟨-, same⟩ | ⟨-, old⟩
  · cases same
    exact mine
  · exact unsettled j other old

theorem inHand_after {j : Nat} {other d' : Duty}
    (duty : duties j = some ((), other)) (held : other.hand = some message)
    (same : message.job = job) (mine : j = i → d'.hand = some message) :
    Accounted after (setDuty duties i (some ((), d'))) job := by
  by_cases here : j = i
  · refine .inHand i d' message ?_ (mine here) same
    exact if_pos rfl
  · refine .inHand j other message ?_ held same
    exact (if_neg here).trans duty

theorem accounted_applies {d' : Duty} (linked : Linked s duties)
    (duty : duties i = some ((), d)) (allowed : d.allows c) (applies : Applies c s reply after)
    (reads : ∀ m, c = .requeue m → d'.reads = d.reads)
    (popped : c = .zPopMin → d' = d.after c reply)
    (settles : job ∈ d'.settled →
      (job ∈ d.settled ∧ d'.reads = d.reads) ∨ job ∈ settledBy c reply)
    (accounted : Accounted s duties job) :
    Accounted after (setDuty duties i (some ((), d'))) job := by
  cases accounted with
  | handled done => exact .handled (handled_applies applies done)
  | stored there =>
    rcases there with ⟨entry, member, message, parses, of⟩ | ⟨payload, letter, of⟩
    · rcases members_stay applies member with ⟨later, kept, value⟩ | ⟨rfl, hand⟩
      · exact .stored (stored_of_value kept value parses of)
      · refine .inHand i d' message (if_pos rfl) ?_ of
        rw [popped rfl, hand d, parses]
    · exact .stored (.inr ⟨payload, letters_applies applies letter, of⟩)
  | inHand j other message held hand same =>
    by_cases here : j = i
    · rw [here, duty] at held
      cases held
      -- with full hands the worker can only put the member back
      cases c with
      | pushBack entry =>
        cases applies
        exact .stored (.inl ⟨entry, List.mem_cons_self, message, allowed.trans hand, same⟩)
      | requeue m =>
        have one : m = message := Option.some.inj (allowed.symm.trans hand)
        cases applies with
        | requeue unused =>
          rename_i id
          have new : (⟨id, m, .unread⟩ : StreamEntry) ∈ (s.append id m).stream :=
            List.mem_append_right _ (List.mem_singleton.mpr rfl)
          refine .waiting _ new EntryStatus.noConfusion (one ▸ same) (unsettled_of_fresh unused ?_)
          intro k other held' e read
          rcases setDuty_some held' with ⟨-, mine⟩ | ⟨-, old⟩
          · cases mine
            exact ⟨_, linked.reads i d duty e (reads m rfl ▸ read)⟩
          · exact ⟨_, linked.reads k other old e read⟩
      | schedule entry => exact nomatch allowed.1.symm.trans hand
      | handler m => exact nomatch allowed.1.symm.trans hand
      | batchHandler m => exact nomatch allowed.1.symm.trans hand
      | xAck ids => exact nomatch allowed.1.symm.trans hand
      | _ => exact nomatch (allowed : d.hand = none).symm.trans hand
    · exact inHand_after held hand same fun h => absurd h here
  | waiting entry listed open_ same unsettled =>
    obtain ⟨later, there, id, message, status⟩ :=
      waiting_stays linked duty allowed applies listed open_ same unsettled
    by_cases now : job ∈ settledBy c reply
    · rcases settledBy_applies applies now with done | stored
      · exact .handled done
      · exact .stored stored
    · refine .waiting later there status (message ▸ same) ?_
      rw [id]
      apply unsettled_after unsettled
      intro settled e read
      rcases settles settled with ⟨old, reads⟩ | new
      · exact unsettled i d duty old e (reads ▸ read)
      · exact absurd new now

theorem popped_steady (steady : Steady s.connection c) (lossy : s.connection = .losesReply) :
    c ≠ .zPopMin := by
  rintro rfl
  rw [lossy] at steady
  exact steady

theorem hand_of_refused (steady : Steady s.connection c) (down : s.connection = .refuses)
    (failed : threw c reply = true) (command : isCommand c = true) : d.after c reply = d := by
  rw [down] at steady
  cases c with
  | pushBack _ | requeue _ => exact steady.elim
  | handler _ | batchHandler _ => nomatch command
  | now | randomUUID | jitter _ => nomatch failed
  | zPopMin | schedule _ | xAutoClaim _ | xReadGroup _ | pushToDlq _ | xAck _ =>
    cases reply with
    | ok _ => nomatch failed
    | error _ => rfl

theorem accounted_effect (linked : Linked s duties) (duty : duties i = some ((), d))
    (allowed : d.allows c) (steady : Steady s.connection c) (effect : Effect c s reply after)
    (accounted : Accounted s duties job) :
    Accounted after (setDuty duties i (some ((), d.after c reply))) job := by
  cases effect with
  | applied up applies =>
    apply accounted_applies linked duty allowed applies _ (fun _ => rfl) settled_after accounted
    rintro m rfl
    rfl
  | refused command down failed =>
    rw [hand_of_refused steady down failed command, ← duty, setDuty_self]
    exact accounted
  | replyLost command lossy applies failed =>
    have kept : (d.after c reply).reads = d.reads ∧ (d.after c reply).settled = d.settled := by
      rcases after_threw (d := d) failed command with same | same <;> rw [same] <;>
        exact ⟨rfl, rfl⟩
    apply accounted_applies linked duty allowed applies (fun _ _ => kept.1)
      (fun pops => absurd pops (popped_steady steady lossy)) _ accounted
    intro settled
    exact .inl ⟨kept.2 ▸ settled, kept.1⟩

theorem enqueued_applies (applies : Applies c s reply after) : after.enqueued = s.enqueued := by
  cases applies with
  | handler =>
    rename_i message reply
    cases reply <;> rfl
  | batchHandler =>
    rename_i messages reply
    cases reply <;> rfl
  | _ => rfl

theorem enqueued_effect (effect : Effect c s reply after) : after.enqueued = s.enqueued := by
  cases effect with
  | applied up applies => exact enqueued_applies applies
  | refused command down failed => rfl
  | replyLost command lossy applies failed => exact enqueued_applies applies

variable {worker : Option (Worker Unit Call Reply Thrown Unit)}

theorem inHand_of_hand {duty : Option (Unit × Duty)} (matched : Matches custody Free duty worker)
    (held : duty = some ((), d)) (hand : d.hand = some message) : inHand worker = some message.job := by
  cases worker with
  | none => exact nomatch held.symm.trans matched
  | some w =>
    obtain ⟨tag, program⟩ := w
    obtain ⟨t, same, obeys⟩ := matched
    cases held.symm.trans same
    cases program with
    | done outcome => exact nomatch (obeys : d.hand = none).symm.trans hand
    | call c next =>
      have allowed : d.allows c := obeys.1
      cases c with
      | pushBack entry =>
        have parses : messageOf entry = some message := Eq.trans allowed hand
        simp [inHand, parses]
      | requeue m =>
        have same : some m = some message := Eq.trans allowed.symm hand
        exact congrArg (Option.map (·.job)) same
      | schedule _ | handler _ | batchHandler _ | xAck _ => exact nomatch allowed.1.symm.trans hand
      | _ => exact nomatch (allowed : d.hand = none).symm.trans hand

theorem Accounted.stop (accounted : Accounted s duties job)
    (free : ∀ d, duties i = some ((), d) → d.hand = none) :
    Accounted s (setDuty duties i none) job := by
  cases accounted with
  | handled done => exact .handled done
  | stored there => exact .stored there
  | inHand j d message duty held same =>
    have other : j ≠ i := by
      rintro rfl
      exact nomatch (free d duty).symm.trans held
    exact .inHand j d message ((if_neg other).trans duty) held same
  | waiting entry listed open_ same unsettled =>
    exact .waiting entry listed open_ same fun j d held => unsettled j d (of_setDuty_none held)

theorem Accounted.start (accounted : Accounted s duties job) (unused : duties i = none) :
    Accounted s (setDuty duties i (some ((), {}))) job := by
  cases accounted with
  | handled done => exact .handled done
  | stored there => exact .stored there
  | inHand j d message duty held same =>
    have other : j ≠ i := by
      rintro rfl
      exact nomatch unused.symm.trans duty
    exact .inHand j d message ((if_neg other).trans duty) held same
  | waiting entry listed open_ same unsettled =>
    exact .waiting entry listed open_ same (unsettled_after unsettled nofun)

theorem accounted_act {event : Event} (acts : Acts event s after) (linked : Linked s duties)
    (accounted : ∀ job < s.enqueued, Accounted s duties job) :
    ∀ job < after.enqueued, Accounted after duties job := by
  cases acts with
  | enqueue fresh first =>
    intro job early
    rcases Nat.lt_succ_iff_lt_or_eq.mp early with old | rfl
    · cases accounted job old with
      | handled done => exact .handled done
      | stored there => exact .stored there
      | inHand j d message duty held same => exact .inHand j d message duty held same
      | waiting entry listed open_ same unsettled =>
        exact .waiting entry (List.mem_append_left _ listed) open_ same unsettled
    · refine .waiting _ (List.mem_append_right _ (List.mem_singleton.mpr rfl))
        EntryStatus.noConfusion rfl (unsettled_of_fresh fresh ?_)
      exact fun k d held e read => ⟨_, linked.reads k d held e read⟩
  | connection =>
    intro job early
    cases accounted job early with
    | handled done => exact .handled done
    | stored there => exact .stored there
    | inHand j d message duty held same => exact .inHand j d message duty held same
    | waiting entry listed open_ same unsettled =>
      exact .waiting entry listed open_ same unsettled

theorem kept_preserved : PreservesAt (mediaSystem env cfg) Uninterrupted custody Free Kept where
  call pool duties i tag d c next reply after guarded kept running duty allowed effect := by
    simp only [Uninterrupted, running, SteadyAt] at guarded
    refine ⟨linked_call effect kept.1 duty, fun job early => ?_⟩
    rw [enqueued_effect effect] at early
    exact accounted_effect kept.1 duty allowed guarded effect (kept.2 job early)
  stop pool duties i guarded kept matched := by
    refine ⟨linked_stop kept.1, fun job early => (kept.2 job early).stop fun d duty => ?_⟩
    cases hand : d.hand with
    | none => rfl
    | some message => exact nomatch guarded.symm.trans (inHand_of_hand matched duty hand)
  start pool duties i worker _ kept unused starts := by
    obtain ⟨params, fuel⟩ := starts
    exact ⟨{}, pass_obeys _ _, linked_start kept.1, fun job early => (kept.2 job early).start unused⟩
  act _ _ _ _ _ kept acts := ⟨linked_act acts kept.1, accounted_act acts kept.1 kept.2⟩

theorem kept_initial : Kept .initial fun _ => none :=
  ⟨counted_initial.1, fun _ early => absurd early (Nat.not_lt_zero _)⟩

/-- In a run without interrupted drains every job was handled or is held, unless a drain holds
it at that moment. -/
theorem job_accounted {pool : MediaPool}
    (run : Reaches (Step (mediaSystem env cfg)) Uninterrupted (Pool.idle .initial) pool)
    (job : Nat) (enqueued : job < pool.shared.enqueued)
    (put : ∀ i, inHand (pool.workers i) ≠ some job) :
    job ∈ pool.shared.handled ∨ Held pool.shared job := by
  obtain ⟨duties, kept, matched⟩ :=
    watchedAt_run kept_preserved run (watchedTo_idle (m := custody) kept_initial)
  cases kept.2 job enqueued with
  | handled done => exact .inl done
  | stored there => exact .inr (.inr there)
  | inHand i d message duty held same =>
    exact absurd (same ▸ inHand_of_hand (matched i) duty held) (put i)
  | waiting entry listed open_ same unsettled => exact .inr (.inl ⟨entry, listed, open_, same⟩)

/-- No media job is lost, and none is handed over with too high a retry counter. -/
theorem media_jobs_kept (env : Environment) (cfg : Config) :
    (∀ pool, Reaches (Step (mediaSystem env cfg)) always (Pool.idle .initial) pool →
      ∀ h ∈ pool.shared.handed, retryAttemptForMessage h.message ≤ h.failures) ∧
    ∀ pool, Reaches (Step (mediaSystem env cfg)) Uninterrupted (Pool.idle .initial) pool →
      ∀ job < pool.shared.enqueued, (∀ i, inHand (pool.workers i) ≠ some job) →
        job ∈ pool.shared.handled ∨ Held pool.shared job :=
  ⟨fun _ run => counters_bounded run, fun _ run => job_accounted run⟩

def performed : (c : Call) → Store → Option (Reply c × Store)
  | .now, s => some (0, s)
  | .jitter _, s => some (0, s)
  | .randomUUID, s => some ("retry", s)
  | .zPopMin, s =>
    match s.retrySet with
    | [] => some (.ok none, s)
    | [entry] => some (.ok (some (entry, entry.score)), s.zRem entry)
    | _ => none
  | .pushBack entry, s => some (.ok (), s.zAdd entry)
  | .requeue message, s =>
    if s.stream.all (·.id ≠ "2-0") then some (.ok (), s.append "2-0" message) else none
  | .schedule entry, s => some (.ok (), s.zAdd entry)
  | .xAutoClaim _, s => some (.ok [], s)
  | .xReadGroup _, s =>
    let unread := (s.stream.filter (·.status = .unread)).map fun e => ⟨e.id, e.message⟩
    some (.ok unread, s.deliver (unread.map (·.id)))
  | .handler message, s =>
    let reply := .error (.pipeline "FETCH_TRANSIENT_FAILURE" "503" true (some 503))
    some (reply, afterHandler s message reply)
  | .batchHandler messages, s => some (.ok none, afterBatch s messages (.ok none))
  | .pushToDlq payload, s => some (.ok (), s.letter payload)
  | .xAck ids, s => some (.ok (), s.acknowledge ids)

def plainEnv : Environment := ⟨fun ms => toString ms, fun _ => "\x7b\x7d"⟩

def plainCfg : Config := ⟨4, 1000, 60000, 50⟩

def failingWorker : Schedule Store Unit Event Call Reply Thrown Unit where
  perform _ c s := if s.connection = .answers then performed c s else none
  boot _ := pass plainEnv plainCfg ⟨"media:fetch", 10, false⟩ 3
  admits _ _ := true
  react event s :=
    match event with
    | .enqueue id fields =>
      if s.stream.all (·.id ≠ id) && fields.all (·.1 ≠ retryAttemptField) then
        some { s.append id ⟨s.enqueued, fields⟩ with enqueued := s.enqueued + 1 }
      else none
    | .connection _ => none

theorem applies_performed (c : Call) {reply : Reply c} (done : performed c s = some (reply, after)) :
    Applies c s reply after := by
  cases c with
  | now => cases done; exact .now
  | jitter _ => cases done; exact .jitter
  | randomUUID => cases done; exact .randomUUID
  | zPopMin =>
    dsimp only [performed] at done
    split at done
    next empty =>
      cases done
      exact .popNothing empty
    next entry one =>
      cases done
      refine .pop ⟨by simp [one], fun other there => ?_⟩
      rw [one, List.mem_singleton] at there
      exact Int.le_of_eq (by rw [there])
    next => nomatch done
  | pushBack _ => cases done; exact .pushBack
  | requeue _ =>
    dsimp only [performed] at done
    split at done
    next unused =>
      cases done
      exact .requeue fun entry listed => by simpa using List.all_eq_true.mp unused entry listed
    next => nomatch done
  | schedule _ => cases done; exact .schedule
  | xAutoClaim _ => cases done; exact .xAutoClaim nofun
  | xReadGroup _ =>
    cases done
    refine .xReadGroup fun envelope listed => ?_
    obtain ⟨entry, unread, rfl⟩ := List.mem_map.mp listed
    obtain ⟨there, status⟩ := List.mem_filter.mp unread
    rw [← of_decide_eq_true status]
    exact there
  | handler _ => cases done; exact .handler
  | batchHandler _ => cases done; exact .batchHandler
  | pushToDlq _ => cases done; exact .pushToDlq
  | xAck _ => cases done; exact .xAck

theorem failingWorker_follows : failingWorker.Follows (mediaSystem plainEnv plainCfg) where
  perform tag c s reply after done := by
    change (if s.connection = .answers then performed c s else none) = some (reply, after) at done
    split at done
    next up => exact .applied (fun _ => up) (applies_performed c done)
    next => nomatch done
  admits _ _ _ := .pass
  react event s after done := by
    cases event with
    | enqueue id fields =>
      change (if _ then some _ else none) = some after at done
      split at done
      next allowed =>
        cases done
        rw [Bool.and_eq_true] at allowed
        refine .enqueue (fun entry listed => ?_) fun field listed => ?_
        · simpa using List.all_eq_true.mp allowed.1 entry listed
        · simpa using List.all_eq_true.mp allowed.2 field listed
      next => nomatch done
    | connection _ => nomatch done

/-- A job is enqueued and read, its handler fails, the retry is scheduled, and another pass
pops it from the retry set. -/
def drained : List (Turn Unit Event) :=
  [.act (.enqueue "1-0" [("sourceUrl", "https://remote.example/cat.png")]), .start 0 ()] ++
    List.replicate 10 (.call 0) ++ [.stop 0, .start 1 (), .call 1]

def remains (pool : MediaPool) : Nat × List Nat × List EntryStatus × Nat × Nat × Bool :=
  (pool.shared.enqueued, pool.shared.handled, pool.shared.stream.map (·.status),
    pool.shared.retrySet.length, pool.shared.dlq.length,
    (List.range 2).all fun j => finished (pool.workers j))

theorem inHand_of_finished (ended : finished worker = true) : inHand worker = none := by
  match worker with
  | none => rfl
  | some ⟨_, .done _⟩ => rfl
  | some ⟨_, .call ..⟩ => nomatch ended

/-- The drain crashes with the retry in its hands, which nothing else holds. -/
theorem drained_and_lost :
    ∃ pool, Reaches (Step (mediaSystem plainEnv plainCfg)) always (Pool.idle .initial) pool ∧
      (∀ i, inHand (pool.workers i) = none) ∧
      ∃ job < pool.shared.enqueued, job ∉ pool.shared.handled ∧ ¬Held pool.shared job := by
  have ran : (follow failingWorker always (Pool.idle .initial) (drained ++ [.stop 1])).map remains =
      some (1, [], [.acked], 0, 0, true) := by decide +kernel
  obtain ⟨pool, followed, left⟩ := Option.map_eq_some_iff.mp ran
  simp only [remains, Prod.mk.injEq] at left
  obtain ⟨enqueued, handled, stream, retrySet, dlq, ended⟩ := left
  refine ⟨pool, reaches_of_follow failingWorker_follows followed, fun i => ?_, 0, ?_, ?_, ?_⟩
  · exact inHand_of_finished (quiet_of_follow followed (by decide) ended i)
  · omega
  · rw [handled]
    exact List.not_mem_nil
  · rw [List.length_eq_zero_iff] at retrySet dlq
    rintro (⟨entry, listed, open_, -⟩ | ⟨entry, there, -⟩ | ⟨payload, there, -⟩)
    · have status : entry.status ∈ pool.shared.stream.map (·.status) := List.mem_map_of_mem listed
      rw [stream, List.mem_singleton] at status
      exact open_ status
    · exact nomatch retrySet ▸ there
    · exact nomatch dlq ▸ there

theorem media_jobs_kept_requeued :
    ∃ pool, Reaches (Step (mediaSystem plainEnv plainCfg)) Uninterrupted (Pool.idle .initial) pool ∧
      ((0 ∈ pool.shared.handled ∨ Held pool.shared 0) ∧
        ∀ h ∈ pool.shared.handed, retryAttemptForMessage h.message ≤ h.failures) ∧
      pool.shared.handled = [] := by
  have ran : (follow failingWorker Uninterrupted (Pool.idle .initial)
      (drained ++ [.call 1, .stop 1])).map remains =
        some (1, [], [.acked, .unread], 0, 0, true) := by decide +kernel
  obtain ⟨pool, followed, left⟩ := Option.map_eq_some_iff.mp ran
  simp only [remains, Prod.mk.injEq] at left
  obtain ⟨enqueued, handled, stream, retrySet, dlq, ended⟩ := left
  have run := reaches_of_follow failingWorker_follows followed
  have kept := media_jobs_kept plainEnv plainCfg
  have unguarded : Reaches (Step (mediaSystem plainEnv plainCfg)) always (Pool.idle .initial) pool :=
    Relation.ReflTransGen.mono (fun _ _ ⟨label, _, step⟩ => ⟨label, trivial, step⟩) _ _ run
  refine ⟨pool, run, ⟨kept.2 pool run 0 (by omega) fun i => ?_, kept.1 pool unguarded⟩, handled⟩
  rw [inHand_of_finished (quiet_of_follow followed (by decide) ended i)]
  exact nofun

end MastopodFederation.Guarantees.MediaCustody
