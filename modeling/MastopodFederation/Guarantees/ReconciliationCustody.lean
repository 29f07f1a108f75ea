import MastopodFederation.Lib.WorkerPool
import MastopodFederation.Source.OriginReconciliationWorker

/-!
# Where a reconciliation job is

A processing that moves its job acknowledges the entry first and writes the job afterwards, so
the job is accounted for in every state of exactly the runs in which no such branch
acknowledges the last copy (`jobs_accounted`); where it does, the job is in the hands of the
worker until the write.
-/
namespace MastopodFederation.Guarantees.ReconciliationCustody
open Lib.Calls Lib.WorkerPool Lib.GuardedRun Source.OriginReconciliationWorker
open Source.RepliesBackfillService (Entries RemoteResponse)

structure Entry where
  messageId : String
  job : OriginReconciliationJob
  /-- the status under which the entry was acknowledged -/
  acked : Option Status

structure Store where
  entries : List Entry
  dead : List OriginReconciliationJob

namespace Store

def empty : Store := ⟨[], []⟩

def ids (s : Store) : List String := s.entries.map (·.messageId)

def add (s : Store) (messageId : String) (job : OriginReconciliationJob) : Store :=
  { s with entries := s.entries ++ [⟨messageId, job, none⟩] }

def bury (s : Store) (job : OriginReconciliationJob) : Store := { s with dead := s.dead ++ [job] }

def acknowledge (s : Store) (messageId : String) (status : Status) : Store :=
  { s with
    entries := s.entries.map fun entry =>
      if entry.messageId = messageId ∧ entry.acked = none then { entry with acked := some status }
      else entry }

def without (s : Store) (messageId : String) : Store :=
  { s with entries := s.entries.filter fun entry => entry.messageId ≠ messageId }

end Store

def Moves : Status → Prop
  | .deferred | .retry | .dlq => True
  | .expired | .stable | .notFound | .gone => False

instance : DecidablePred Moves := fun status => by
  cases status <;> unfold Moves <;> infer_instance

def Enqueued (s : Store) (jobId : String) : Prop := ∃ entry ∈ s.entries, entry.job.jobId = jobId

def Entry.Finished (entry : Entry) : Prop := ∃ status, entry.acked = some status ∧ ¬ Moves status

def Accounted (s : Store) (jobId : String) : Prop :=
  (∃ entry ∈ s.entries, entry.job.jobId = jobId ∧ (entry.acked = none ∨ entry.Finished)) ∨
    ∃ job ∈ s.dead, job.jobId = jobId

inductive Writes : Call → Store → Store → Prop where
  | ack (messageId : String) (status : Status) (s : Store) :
      Writes (.ack messageId status) s (s.acknowledge messageId status)
  | addJob {s : Store} {messageId : String} (job : OriginReconciliationJob)
      (fresh : messageId ∉ s.ids) : Writes (.addJob job) s (s.add messageId job)
  | moveToDlq (job : OriginReconciliationJob) (reason : String) (s : Store) :
      Writes (.moveToDlq job reason) s (s.bury job)

def isWrite : Call → Bool
  | .ack .. | .addJob _ | .moveToDlq .. => true
  | _ => false

def threw : (c : Call) → Reply c → Bool
  | .ack .., .error _ | .addJob _, .error _ | .moveToDlq .., .error _ => true
  | _, _ => false

/-- A write takes effect, whatever is replied, or throws without effect; the other calls
leave the queue alone. -/
inductive Effect : (c : Call) → Store → Reply c → Store → Prop where
  | applied {c : Call} {s after : Store} (writes : Writes c s after) (reply : Reply c) :
      Effect c s reply after
  | refused {c : Call} {reply : Reply c} (s : Store) (failed : threw c reply = true) :
      Effect c s reply s
  | elsewhere {c : Call} (quiet : isWrite c = false) (s : Store) (reply : Reply c) :
      Effect c s reply s

structure Task where
  messageId : String
  jobId : String

structure Scheduled where
  messageId : String
  job : OriginReconciliationJob

abbrev JobPool := Pool Store Task Call Reply String Unit

def reconciliationSystem (env : Environment) (cfg : Config) :
    System Store Task Scheduled Call Reply String Unit where
  effect _ := Effect
  starts s worker := ∃ entry ∈ s.entries, worker =
    ⟨⟨entry.messageId, entry.job.jobId⟩, processJob env cfg entry.messageId entry.job⟩
  acts event s after := event.messageId ∉ s.ids ∧
    after = s.add event.messageId event.job.throughStream

def SparesLast (pool : JobPool) (label : Label Task Scheduled Call Reply String Unit) : Prop :=
  ∀ i tag messageId status next, label = .call i →
    pool.workers i = some ⟨tag, .call (.ack messageId status) next⟩ → Moves status →
    ∀ entry ∈ pool.shared.entries, entry.messageId = messageId → entry.acked = none →
      Accounted (pool.shared.without messageId) entry.job.jobId

section Accounting
variable {s : Store} {jobId messageId : String} {status : Status}

variable {job : OriginReconciliationJob}

theorem accounted_add (accounted : Accounted s jobId) :
    Accounted (s.add messageId job) jobId := by
  rcases accounted with ⟨entry, mem, carries⟩ | dead
  · exact .inl ⟨entry, List.mem_append_left _ mem, carries⟩
  · exact .inr dead

theorem accounted_added :
    Accounted (s.add messageId job) job.jobId :=
  .inl ⟨_, List.mem_append_right _ List.mem_cons_self, rfl, .inl rfl⟩

theorem accounted_bury (accounted : Accounted s jobId) :
    Accounted (s.bury job) jobId := by
  rcases accounted with entry | ⟨dead, mem, carries⟩
  · exact .inl entry
  · exact .inr ⟨dead, List.mem_append_left _ mem, carries⟩

theorem accounted_buried : Accounted (s.bury job) job.jobId :=
  .inr ⟨job, List.mem_append_right _ List.mem_cons_self, rfl⟩

theorem accounted_of_without (accounted : Accounted (s.without messageId) jobId) :
    Accounted (s.acknowledge messageId status) jobId := by
  rcases accounted with ⟨entry, mem, carries⟩ | dead
  · obtain ⟨mem, other⟩ := List.mem_filter.mp mem
    have other : entry.messageId ≠ messageId := by simpa using other
    left
    refine ⟨entry, List.mem_map.mpr ⟨entry, mem, ?_⟩, carries⟩
    rw [if_neg fun both => other both.1]
  · exact .inr dead

/-- Every way in which a job can be accounted for outlives an acknowledgement, but for the
acknowledged entry. -/
theorem accounted_acknowledge (accounted : Accounted s jobId)
    (spared : Moves status → ∀ entry ∈ s.entries, entry.messageId = messageId →
      entry.acked = none → entry.job.jobId = jobId → Accounted (s.without messageId) jobId) :
    Accounted (s.acknowledge messageId status) jobId := by
  rcases accounted with ⟨entry, mem, carries, held⟩ | dead
  · by_cases hit : entry.messageId = messageId ∧ entry.acked = none
    · by_cases moves : Moves status
      · exact accounted_of_without (spared moves entry mem hit.1 hit.2 carries)
      · left
        refine ⟨{ entry with acked := some status }, List.mem_map.mpr ⟨entry, mem, if_pos hit⟩,
          carries, .inr ⟨status, rfl, moves⟩⟩
    · exact .inl ⟨entry, List.mem_map.mpr ⟨entry, mem, if_neg hit⟩, carries, held⟩
  · exact .inr dead

theorem accounted_without (unique : s.ids.Nodup) (moves : Moves status)
    (pending : ∃ entry ∈ s.entries, entry.messageId = messageId ∧ entry.acked = none)
    (accounted : Accounted (s.acknowledge messageId status) jobId) :
    Accounted (s.without messageId) jobId := by
  obtain ⟨target, present, named, waiting⟩ := pending
  rcases accounted with ⟨entry, mem, carries, held⟩ | dead
  · obtain ⟨before, earlier, rfl⟩ := List.mem_map.mp mem
    by_cases same : before.messageId = messageId
    · have here : before = target :=
        List.inj_on_of_nodup_map unique earlier present (same.trans named.symm)
      rw [here, if_pos ⟨named, waiting⟩] at held
      rcases held with missing | ⟨other, acked, finished⟩
      · cases missing
      · cases acked
        exact absurd moves finished
    · left
      rw [if_neg fun both => same both.1] at carries held
      refine ⟨before, List.mem_filter.mpr ⟨earlier, ?_⟩, carries, held⟩
      simpa using same
  · exact .inr dead

theorem mem_acknowledge {entry : Entry} (mem : entry ∈ (s.acknowledge messageId status).entries) :
    ∃ before ∈ s.entries, before.messageId = entry.messageId ∧ before.job = entry.job := by
  obtain ⟨before, earlier, rfl⟩ := List.mem_map.mp mem
  refine ⟨before, earlier, ?_⟩
  split <;> exact ⟨rfl, rfl⟩

theorem enqueued_acknowledge (enqueued : Enqueued (s.acknowledge messageId status) jobId) :
    Enqueued s jobId := by
  obtain ⟨entry, mem, carries⟩ := enqueued
  obtain ⟨before, earlier, -, sameJob⟩ := mem_acknowledge mem
  exact ⟨before, earlier, by rw [sameJob]; exact carries⟩

theorem enqueued_add
    (enqueued : Enqueued (s.add messageId job) jobId) : Enqueued s jobId ∨ jobId = job.jobId := by
  obtain ⟨entry, mem, carries⟩ := enqueued
  rcases List.mem_append.mp mem with mem | new
  · exact .inl ⟨entry, mem, carries⟩
  · rw [List.mem_singleton.mp new] at carries
    exact .inr carries.symm

end Accounting

def AllAccounted (s : Store) : Prop := ∀ jobId, Enqueued s jobId → Accounted s jobId

theorem allAccounted_add {s : Store} {messageId : String} {job : OriginReconciliationJob}
    (all : AllAccounted s) : AllAccounted (s.add messageId job) := by
  intro jobId enqueued
  rcases enqueued_add enqueued with before | rfl
  · exact accounted_add (all jobId before)
  · exact accounted_added

section Spared
variable {env : Environment} {cfg : Config} {pool after : JobPool}
  {label : Label Task Scheduled Call Reply String Unit}

theorem allAccounted_step (step : Step (reconciliationSystem env cfg) pool label after)
    (spares : SparesLast pool label) (all : AllAccounted pool.shared) :
    AllAccounted after.shared := by
  cases step with
  | call running performs =>
    cases performs with
    | refused _ _ => exact all
    | elsewhere _ _ _ => exact all
    | applied writes _ =>
      cases writes with
      | addJob job fresh => exact allAccounted_add all
      | moveToDlq job reason => exact fun jobId enqueued => accounted_bury (all jobId enqueued)
      | ack messageId status =>
        intro jobId enqueued
        apply accounted_acknowledge (all jobId (enqueued_acknowledge enqueued))
        intro moves entry mem named waiting carries
        rw [← carries]
        exact spares _ _ _ _ _ rfl running moves entry mem named waiting
  | stop i => exact all
  | start free starts => exact all
  | act acted =>
    obtain ⟨fresh, rfl⟩ := acted
    exact allAccounted_add all

theorem allAccounted_run
    (run : Reaches (Step (reconciliationSystem env cfg)) SparesLast (Pool.idle Store.empty) pool) :
    AllAccounted pool.shared := by
  apply run.invariant (I := fun pool => AllAccounted pool.shared)
  · exact fun _ _ _ all spares step => allAccounted_step step spares all
  · rintro jobId ⟨entry, mem, _⟩
    cases mem

end Spared

/-- A worker may acknowledge its entry; once it has done so in a branch that moves the job,
it owes the job a write. A command that throws then is excluded. -/
inductive Duty where
  | settles (messageId jobId : String)
  | owes (jobId : String)
  | settled
  | excluded

def Duty.allows : Duty → Call → Prop
  | .settles messageId _, .ack id _ => id = messageId
  | .settles .., .addJob _ | .settles .., .moveToDlq .. => False
  | .owes jobId, .addJob job | .owes jobId, .moveToDlq job _ => job.jobId = jobId
  | .owes _, _ => False
  | .settled, .ack .. | .settled, .addJob _ | .settled, .moveToDlq .. => False
  | _, _ => True

def Duty.after : Duty → (c : Call) → Reply c → Duty
  | .settles _ jobId, .ack _ status, .ok _ => if Moves status then .owes jobId else .settled
  | .settles .., .ack .., .error _ => .settled
  | .owes _, .addJob _, .ok _ | .owes _, .moveToDlq .., .ok _ => .settled
  | .owes _, .addJob _, .error _ | .owes _, .moveToDlq .., .error _ => .excluded
  | duty, _, _ => duty

def custody : Monitor Call Reply Duty := ⟨Duty.allows, Duty.after⟩

def Duty.Ended (duty : Duty) : Prop := ∀ jobId, duty ≠ .owes jobId

section Handler
variable {messageId jobId : String} {job : OriginReconciliationJob}

abbrev Aside (c : Call) : Prop := isWrite c = false

variable {duty : Duty} {c : Call}

theorem aside_duty (ended : duty.Ended) (aside : Aside c) :
    duty.allows c ∧ ∀ reply, duty.after c reply = duty := by
  cases duty with
  | owes jobId => exact absurd rfl (ended jobId)
  | settles messageId jobId => cases c <;> first | exact ⟨trivial, fun _ => rfl⟩ | cases aside
  | settled => cases c <;> first | exact ⟨trivial, fun _ => rfl⟩ | cases aside
  | excluded => cases c <;> exact ⟨trivial, fun _ => rfl⟩

theorem meets_aside {α : Type} {x : Program α} (only : Only Aside x)
    (ended : duty.Ended) {post : Duty → Except String α → Prop}
    (next : ∀ outcome, post duty outcome) : Meets custody x post duty := by
  induction x with
  | done outcome => exact next outcome
  | call c rest ih =>
    obtain ⟨allowed, stays⟩ := aside_duty ended only.1
    refine ⟨allowed, fun r => ?_⟩
    change Meets custody (rest r) post (duty.after c r)
    rw [stays r]
    exact ih r (only.2 r)

theorem meets_aside_bind {α β : Type} {x : Program α} {f : α → Program β} (only : Only Aside x)
    (ended : duty.Ended) (next : ∀ a, Meets custody (f a) (fun t _ => t.Ended) duty) :
    Meets custody (x >>= f) (fun t _ => t.Ended) duty := by
  rw [meets_bind]
  apply meets_aside only ended
  intro outcome
  cases outcome with
  | ok a => exact next a
  | error e => exact ended

theorem settles_ended : (Duty.settles messageId jobId).Ended := fun _ same => nomatch same

theorem settled_ended : Duty.settled.Ended := fun _ same => nomatch same

theorem excluded_ended : Duty.excluded.Ended := fun _ same => nomatch same

variable {status : Status}

theorem meets_ack_bind {f : Unit → Program Unit}
    (next : Meets custody (f ()) (fun t _ => t.Ended)
      (if Moves status then .owes jobId else .settled)) :
    Meets custody (ack messageId status >>= f) (fun t _ => t.Ended)
      (.settles messageId jobId) := by
  rw [meets_bind]
  refine ⟨rfl, fun r => ?_⟩
  cases r with
  | ok _ => exact next
  | error e => exact settled_ended

theorem meets_finish (finishes : ¬ Moves status) :
    Meets custody (ack messageId status) (fun t _ => t.Ended) (.settles messageId jobId) := by
  refine ⟨rfl, fun r => ?_⟩
  cases r with
  | ok _ =>
    change (if Moves status then Duty.owes jobId else .settled).Ended
    rw [if_neg finishes]
    exact settled_ended
  | error e => exact settled_ended

theorem meets_write (allowed : (Duty.owes jobId).allows c) {next : Reply c → Program Unit}
    (last : ∀ r, ∃ outcome, next r = .done outcome) :
    Meets custody (.call c next) (fun t _ => t.Ended) (.owes jobId) := by
  refine ⟨allowed, fun r => ?_⟩
  obtain ⟨outcome, done⟩ := last r
  rw [done]
  cases c with
  | addJob _ => cases r <;> first | exact settled_ended | exact excluded_ended
  | moveToDlq _ _ => cases r <;> first | exact settled_ended | exact excluded_ended
  | _ => cases allowed

theorem meets_rescheduleJob (same : job.jobId = jobId) (moves : Moves status) :
    Meets custody (rescheduleJob messageId job status) (fun t _ => t.Ended)
      (.settles messageId jobId) := by
  apply meets_ack_bind
  rw [if_pos moves]
  apply meets_write
  · exact same
  · exact fun r => ⟨r, rfl⟩

theorem only_ask {α : Type} {f : Reply c → Except String α} (aside : Aside c) :
    Only Aside (.call c fun r => .done (f r)) := only_call aside fun _ => trivial

section Delays
variable {P : Call → Prop} (admitted : P .random)
include admitted

theorem only_applyJitter (baseMs : Int) : Only P (applyJitter baseMs) :=
  only_bind (only_call admitted fun _ => only_done _) fun _ => only_pure _

theorem only_fullJitterDelayMs (baseMs maxMs : Int) (attempt : Nat) :
    Only P (fullJitterDelayMs baseMs maxMs attempt) :=
  only_bind (only_call admitted fun _ => only_done _) fun _ => only_pure _

theorem only_nextReconciliationDelayMs (nextAttempt : Int) :
    Only P (nextReconciliationDelayMs nextAttempt) := by
  unfold nextReconciliationDelayMs
  split
  · exact only_applyJitter admitted _
  · split
    · exact only_applyJitter admitted _
    · split
      · exact only_applyJitter admitted _
      · exact only_applyJitter admitted _

end Delays

variable (env : Environment)

theorem only_readResponse (response : RemoteResponse) (lastAttempt : Bool) :
    Only Aside (readResponse env response lastAttempt) := by
  have dumps {α : Type} {f : Unit → Program α} (next : Only Aside (f ())) :
      Only Aside (dump >>= f) := only_bind (only_ask rfl) fun _ => next
  unfold readResponse
  split
  · exact dumps (only_pure _)
  · split
    · exact dumps (only_pure _)
    · split
      · exact dumps (only_pure _)
      · split
        · apply dumps
          split
          · exact only_pure _
          · exact only_pure _
        · apply only_bind (only_ask rfl)
          intro body
          cases body with
          | none => exact only_pure _
          | some body => exact only_pure _

theorem only_fetchOnce (cfg : Config) (url : String) (lastAttempt : Bool) :
    Only Aside (fetchOnce env cfg url lastAttempt) := by
  apply only_bind (only_ask rfl)
  intro signing
  cases signing with
  | error code message permanent => exact only_pure _
  | ok signed => exact only_bind (only_ask rfl) fun _ => only_readResponse _ _ _

theorem only_fetchAttempts (env : Environment) (cfg : Config) (url : String) :
    ∀ remaining attempt, Only Aside (fetchAttempts env cfg url remaining attempt)
  | 0, _ => only_pure _
  | remaining + 1, attempt => by
    have again : Only Aside (do
        sleepBeforeRetry cfg attempt
        fetchAttempts env cfg url remaining (attempt + 1)) := by
      apply only_bind
      · exact only_bind (only_fullJitterDelayMs (P := Aside) rfl _ _ _) fun _ => only_ask rfl
      · exact fun _ => only_fetchAttempts env cfg url remaining (attempt + 1)
    unfold fetchAttempts
    apply only_bind (only_attempt (only_fetchOnce env cfg url _))
    intro outcome
    match outcome with
    | .ok (some result) => exact only_pure _
    | .ok none => exact again
    | .error message =>
      dsimp only
      split
      · exact only_pure _
      · exact again

theorem only_fetchRemoteObject (cfg : Config) (url : String) :
    Only Aside (fetchRemoteObject env cfg url) := by
  unfold fetchRemoteObject
  split
  · exact only_pure _
  · exact only_fetchAttempts env cfg url _ _

theorem only_enqueueSyntheticUpdate (object : Entries) :
    Only Aside (enqueueSyntheticUpdate env job object) := by
  unfold enqueueSyntheticUpdate
  split
  · exact only_pure _
  · apply only_bind (only_ask rfl)
    intro uuid
    apply only_bind (only_ask rfl)
    intro envelopeId
    exact only_bind (only_ask rfl) fun _ => only_ask rfl

theorem meets_handleFailedFetch (same : job.jobId = jobId) (classification : Classification)
    (error : Option String) :
    Meets custody (handleFailedFetch messageId job classification error) (fun t _ => t.Ended)
      (.settles messageId jobId) := by
  have buries : Meets custody (do
      ack messageId .dlq
      .call (.moveToDlq
        { job with
          attempt := job.attempt + 1
          lastError := some (error.getD classification.text) }
        (error.getD classification.text)) .done) (fun t _ => t.Ended)
      (.settles messageId jobId) := by
    apply meets_ack_bind
    rw [if_pos (by decide)]
    apply meets_write
    · exact same
    · exact fun r => ⟨r, rfl⟩
  cases classification with
  | transient =>
    apply meets_aside_bind (only_ask rfl) settles_ended
    intro nowMs
    apply meets_aside_bind (only_fullJitterDelayMs (P := Aside) rfl _ _ _) settles_ended
    exact fun _ => meets_rescheduleJob same trivial
  | notFound =>
    have confirms : Only Aside (confirmsLater job) := by
      unfold confirmsLater
      split
      · exact only_bind (only_ask rfl) fun _ => only_pure _
      · exact only_pure _
    apply meets_aside_bind confirms settles_ended
    intro later
    split
    · apply meets_aside_bind (only_ask rfl) settles_ended
      exact fun _ => meets_rescheduleJob same trivial
    · exact meets_finish id
  | gone => exact meets_finish id
  | blocked => exact buries
  | permanent => exact buries

theorem meets_reconcile (cfg : Config) (same : job.jobId = jobId) :
    Meets custody (reconcile env cfg messageId job) (fun t _ => t.Ended)
      (.settles messageId jobId) := by
  apply meets_aside_bind (only_fetchRemoteObject env cfg _) settles_ended
  intro result
  cases result with
  | failed classification error => exact meets_handleFailedFetch same classification error
  | ok body fingerprint =>
    dsimp only
    split
    · unfold handleUnchanged
      dsimp only
      split
      · exact meets_finish id
      · apply meets_aside_bind (only_ask rfl) settles_ended
        intro nowMs
        apply meets_aside_bind (only_nextReconciliationDelayMs (P := Aside) rfl _) settles_ended
        exact fun _ => meets_rescheduleJob same trivial
    · have reschedules : Meets custody (do
          let nowMs ← clock
          let notBeforeMs := nowMs + (← nextReconciliationDelayMs (job.attempt + 1))
          rescheduleJob messageId
            { job with
              attempt := job.attempt + 1
              unchangedSuccesses := 0
              notFoundCount := 0
              lastFingerprint := some fingerprint
              notBeforeMs
              lastError := some "" } .retry) (fun t _ => t.Ended)
          (.settles messageId jobId) := by
        apply meets_aside_bind (only_ask rfl) settles_ended
        intro nowMs
        apply meets_aside_bind (only_nextReconciliationDelayMs (P := Aside) rfl _) settles_ended
        exact fun _ => meets_rescheduleJob same trivial
      unfold handleChanged
      apply meets_aside_bind (only_ask rfl) settles_ended
      intro shouldApply
      split
      · exact meets_aside_bind (only_enqueueSyntheticUpdate env body) settles_ended
          fun _ => reschedules
      · exact reschedules

theorem meets_withDomainSlot {domain : String} {body : Program Unit}
    (met : Meets custody body (fun t _ => t.Ended) duty) :
    Meets custody (withDomainSlot domain body) (fun t _ => t.Ended) duty := by
  unfold withDomainSlot
  rw [meets_bind, meets_attempt]
  apply met.imp
  intro t outcome ended
  rw [then_ok]
  apply meets_aside_bind (only_ask rfl) ended
  intro _
  exact ended

theorem meets_processJob (cfg : Config) (same : job.jobId = jobId) :
    Meets custody (processJob env cfg messageId job) (fun t _ => t.Ended)
      (.settles messageId jobId) := by
  unfold processJob
  split
  · exact settles_ended
  · have dues : Only Aside (isNotDue job) := by
      unfold isNotDue
      split
      · exact only_bind (only_ask rfl) fun _ => only_pure _
      · exact only_pure _
    have defers (delayMs : Int) (reason : String) :
        Meets custody (deferJob messageId job delayMs reason) (fun t _ => t.Ended)
          (.settles messageId jobId) := by
      apply meets_aside_bind (only_ask rfl) settles_ended
      exact fun _ => meets_rescheduleJob same trivial
    dsimp only
    apply meets_aside_bind dues settles_ended
    intro notDue
    split
    · exact meets_rescheduleJob same trivial
    · apply meets_aside_bind (only_bind (only_ask rfl) fun _ => only_pure _) settles_ended
      intro expired
      split
      · exact meets_finish id
      · apply meets_aside_bind (only_ask rfl) settles_ended
        intro rateAllowed
        split
        · exact defers _ _
        · apply meets_aside_bind (only_ask rfl) settles_ended
          intro acquiredSlot
          split
          · exact defers _ _
          · exact meets_withDomainSlot (meets_reconcile env cfg same)

end Handler

/-- No command throws between an acknowledgement that moves a job and the write of the
job. -/
def Steady : (c : Call) → Reply c → Store → Store → Prop
  | .ack _ status, .error _, s, after => Moves status → after = s
  | .addJob _, .error _, _, _ | .moveToDlq .., .error _, _, _ => False
  | _, _, _, _ => True

def steadySystem (env : Environment) (cfg : Config) :
    System Store Task Scheduled Call Reply String Unit :=
  { reconciliationSystem env cfg with
    effect := fun _ c s reply after => Effect c s reply after ∧ Steady c reply s after }

def Writing (jobId : String) (worker : Worker Task Call Reply String Unit) : Prop :=
  match worker.program with
  | .call (.addJob job) _ | .call (.moveToDlq job _) _ => job.jobId = jobId
  | _ => False

def InHand (pool : JobPool) (jobId : String) : Prop :=
  ∃ i worker, pool.workers i = some worker ∧ Writing jobId worker

/-- No worker crashes between an acknowledgement that moves a job and the write of the
job. -/
def SparesHands (pool : JobPool) (label : Label Task Scheduled Call Reply String Unit) : Prop :=
  ∀ i worker jobId, label = .stop i → pool.workers i = some worker → ¬ Writing jobId worker

abbrev Duties := Nat → Option (Task × Duty)

structure Custody (s : Store) (duties : Duties) : Prop where
  unique : s.ids.Nodup
  sources : ∀ i task messageId jobId, duties i = some (task, .settles messageId jobId) →
    messageId ∈ s.ids ∧
      ∀ entry ∈ s.entries, entry.messageId = messageId → entry.job.jobId = jobId
  included : ∀ i task, duties i ≠ some (task, .excluded)
  held : ∀ jobId, Enqueued s jobId →
    Accounted s jobId ∨ ∃ i task, duties i = some (task, .owes jobId)

section Custody
variable {s after : Store} {duties : Duties} {i : Nat} {task : Task} {messageId jobId : String}

theorem ids_acknowledge {status : Status} : (s.acknowledge messageId status).ids = s.ids := by
  unfold Store.ids Store.acknowledge
  rw [List.map_map]
  apply List.map_congr_left
  intro entry _
  dsimp only [Function.comp]
  split <;> rfl

variable {job : OriginReconciliationJob}

theorem unique_add (unique : s.ids.Nodup)
    (fresh : messageId ∉ s.ids) : (s.add messageId job).ids.Nodup := by
  unfold Store.ids Store.add
  rw [List.map_append]
  exact List.Nodup.append unique (List.nodup_singleton _) (List.disjoint_singleton.mpr fresh)

variable {duty : Option (Task × Duty)}

theorem sources_set (custody : Custody s duties)
    (own : ∀ task messageId jobId, duty = some (task, .settles messageId jobId) →
      messageId ∈ s.ids ∧ ∀ entry ∈ s.entries, entry.messageId = messageId →
        entry.job.jobId = jobId) :
    ∀ j task messageId jobId, setDuty duties i duty j = some (task, .settles messageId jobId) →
      messageId ∈ s.ids ∧ ∀ entry ∈ s.entries, entry.messageId = messageId →
        entry.job.jobId = jobId := by
  intro j task messageId jobId held
  unfold setDuty at held
  split at held
  · exact own task messageId jobId held
  · exact custody.sources j task messageId jobId held

theorem included_set (custody : Custody s duties)
    (own : ∀ task, duty ≠ some (task, .excluded)) :
    ∀ j task, setDuty duties i duty j ≠ some (task, .excluded) := by
  intro j task
  unfold setDuty
  split
  · exact own task
  · exact custody.included j task

theorem owed_set {j : Nat}
    (owed : duties j = some (task, .owes jobId)) (other : j ≠ i) :
    ∃ k task, setDuty duties i duty k = some (task, .owes jobId) :=
  ⟨j, task, by rw [setDuty, if_neg other, owed]⟩

theorem custody_acknowledge {status : Status} {next : Duty} (custody : Custody s duties)
    (duty : duties i = some (task, .settles messageId jobId))
    (moved : Moves status → next = .owes jobId)
    (owed : next ≠ .excluded ∧ ∀ other id, next ≠ .settles other id) :
    Custody (s.acknowledge messageId status) (setDuty duties i (some (task, next))) := by
  refine ⟨by rw [ids_acknowledge]; exact custody.unique, ?_, ?_, ?_⟩
  · intro j other id carried held
    unfold setDuty at held
    split at held
    · cases held
      exact absurd rfl (owed.2 id carried)
    · obtain ⟨present, named⟩ := custody.sources j other id carried held
      refine ⟨by rw [ids_acknowledge]; exact present, fun entry mem same => ?_⟩
      obtain ⟨before, earlier, sameId, sameJob⟩ := mem_acknowledge mem
      rw [← sameJob]
      exact named before earlier (sameId.trans same)
  · apply included_set custody
    intro other same
    cases same
    exact owed.1 rfl
  · intro wanted enqueued
    rcases custody.held wanted (enqueued_acknowledge enqueued) with accounted | ⟨j, other, held⟩
    · by_cases mine : Moves status ∧ wanted = jobId
      · right
        refine ⟨i, task, ?_⟩
        rw [setDuty, if_pos rfl, moved mine.1, mine.2]
      · left
        apply accounted_acknowledge accounted
        intro moves entry mem named _ carries
        have here := (custody.sources i task messageId jobId duty).2 entry mem named
        exact absurd ⟨moves, carries.symm.trans here⟩ mine
    · right
      apply owed_set held
      intro same
      rw [same, duty] at held
      cases held

theorem custody_add
    (custody : Custody s duties) (fresh : messageId ∉ s.ids)
    (own : duty = duties i ∨ ∃ task, duties i = some (task, .owes job.jobId) ∧
      duty = some (task, .settled)) :
    Custody (s.add messageId job) (setDuty duties i duty) := by
  have kept : ∀ task other carried, duty = some (task, .settles other carried) →
      duties i = some (task, .settles other carried) := by
    intro task other carried same
    rcases own with unchanged | ⟨_, _, written⟩
    · exact unchanged ▸ same
    · rw [written] at same
      cases same
  refine ⟨unique_add custody.unique fresh, ?_, ?_, ?_⟩
  · intro j other id carried held
    have before : duties j = some (other, .settles id carried) := by
      unfold setDuty at held
      split at held
      next here => rw [here]; exact kept other id carried held
      next => exact held
    obtain ⟨present, named⟩ := custody.sources j other id carried before
    refine ⟨?_, fun entry mem same => ?_⟩
    · unfold Store.ids Store.add
      rw [List.map_append]
      exact List.mem_append_left _ present
    · rcases List.mem_append.mp mem with mem | new
      · exact named entry mem same
      · rw [List.mem_singleton.mp new] at same
        have taken : messageId ∈ s.ids := by rw [show messageId = id from same]; exact present
        exact absurd taken fresh
  · apply included_set custody
    intro other same
    rcases own with unchanged | ⟨_, _, written⟩
    · exact custody.included i other (unchanged ▸ same)
    · rw [written] at same
      cases same
  · intro wanted enqueued
    rcases enqueued_add enqueued with before | rfl
    · rcases custody.held wanted before with accounted | ⟨j, other, owed⟩
      · exact .inl (accounted_add accounted)
      · by_cases here : j = i
        · rcases own with unchanged | ⟨_, owes, _⟩
          · right
            refine ⟨i, other, ?_⟩
            rw [setDuty, if_pos rfl, unchanged, ← here, owed]
          · rw [here, owes] at owed
            cases owed
            exact .inl accounted_added
        · exact .inr (owed_set owed here)
    · exact .inl accounted_added

theorem custody_bury (custody : Custody s duties)
    (owes : duties i = some (task, .owes job.jobId)) :
    Custody (s.bury job) (setDuty duties i (some (task, .settled))) := by
  refine ⟨custody.unique, ?_, ?_, ?_⟩
  · apply sources_set custody
    intro _ _ _ same
    cases same
  · apply included_set custody
    intro _ same
    cases same
  · intro wanted enqueued
    rcases custody.held wanted enqueued with accounted | ⟨j, other, owed⟩
    · exact .inl (accounted_bury accounted)
    · by_cases here : j = i
      · rw [here, owes] at owed
        cases owed
        exact .inl accounted_buried
      · exact .inr (owed_set owed here)

theorem custody_set (custody : Custody s duties)
    (own : ∀ task messageId jobId, duty = some (task, .settles messageId jobId) →
      messageId ∈ s.ids ∧ ∀ entry ∈ s.entries, entry.messageId = messageId →
        entry.job.jobId = jobId)
    (included : ∀ task, duty ≠ some (task, .excluded))
    (idle : ∀ task jobId, duties i = some (task, .owes jobId) → duty = duties i) :
    Custody s (setDuty duties i duty) := by
  refine ⟨custody.unique, sources_set custody own, included_set custody included, ?_⟩
  intro wanted enqueued
  rcases custody.held wanted enqueued with accounted | ⟨j, other, owed⟩
  · exact .inl accounted
  · right
    by_cases here : j = i
    · refine ⟨i, other, ?_⟩
      rw [setDuty, if_pos rfl, idle other wanted (here ▸ owed), ← here, owed]
    · exact owed_set owed here

theorem custody_drop (custody : Custody s duties)
    (idle : ∀ task jobId, duties i ≠ some (task, .owes jobId))
    (dropped : duty = none ∨ ∃ task, duty = some (task, .settled)) :
    Custody s (setDuty duties i duty) := by
  apply custody_set custody
  · intro _ _ _ same
    rcases dropped with rfl | ⟨_, rfl⟩ <;> cases same
  · intro _ same
    rcases dropped with rfl | ⟨_, rfl⟩ <;> cases same
  · exact fun other jobId owes => absurd owes (idle other jobId)

theorem custody_call (inv : Custody s duties) {c : Call} {reply : Reply c} {duty : Duty}
    (held : duties i = some (task, duty)) (allowed : duty.allows c) (effect : Effect c s reply after)
    (steady : Steady c reply s after) :
    Custody after (setDuty duties i (some (task, duty.after c reply))) := by
  cases effect with
  | elsewhere quiet s reply =>
    have same : duty.after c reply = duty := by
      cases c <;> first | (cases duty <;> rfl) | cases quiet
    rw [same, ← held, setDuty_self]
    exact inv
  | refused s failed =>
    cases c with
    | ack id status =>
      cases duty with
      | settles messageId jobId =>
        cases reply with
        | ok _ => cases failed
        | error e =>
          refine custody_drop inv (fun _ _ owes => ?_) (.inr ⟨task, rfl⟩)
          rw [held] at owes
          cases owes
      | excluded => exact absurd held (inv.included i task)
      | _ => cases allowed
    | addJob job =>
      cases reply with
      | ok _ => cases failed
      | error e => cases steady
    | moveToDlq job reason =>
      cases reply with
      | ok _ => cases failed
      | error e => cases steady
    | _ => cases failed
  | applied writes reply =>
    cases writes with
    | ack id status =>
      cases duty with
      | settles messageId jobId =>
        cases allowed
        cases reply with
        | ok _ =>
          apply custody_acknowledge inv held
          · exact fun moves => if_pos moves
          · change (if Moves status then Duty.owes jobId else .settled) ≠ _ ∧ ∀ other id,
              (if Moves status then Duty.owes jobId else .settled) ≠ _
            split
            · exact ⟨fun same => (nomatch same), fun _ _ same => (nomatch same)⟩
            · exact ⟨fun same => (nomatch same), fun _ _ same => (nomatch same)⟩
        | error e =>
          by_cases moves : Moves status
          · rw [steady moves]
            refine custody_drop inv (fun _ _ owes => ?_) (.inr ⟨task, rfl⟩)
            rw [held] at owes
            cases owes
          · apply custody_acknowledge inv held
            · exact fun moved => absurd moved moves
            · exact ⟨fun same => (nomatch same), fun _ _ same => (nomatch same)⟩
      | excluded => exact absurd held (inv.included i task)
      | _ => cases allowed
    | addJob job fresh =>
      cases duty with
      | owes jobId =>
        cases allowed
        cases reply with
        | error e => cases steady
        | ok _ => exact custody_add inv fresh (.inr ⟨task, held, rfl⟩)
      | excluded => exact absurd held (inv.included i task)
      | _ => cases allowed
    | moveToDlq job reason =>
      cases duty with
      | owes jobId =>
        cases allowed
        cases reply with
        | error e => cases steady
        | ok _ => exact custody_bury inv held
      | excluded => exact absurd held (inv.included i task)
      | _ => cases allowed

theorem writing_of_owes {worker : Option (Worker Task Call Reply String Unit)}
    (matched : Matches custody Duty.Ended (some (task, .owes jobId)) worker) :
    ∃ running, worker = some running ∧ Writing jobId running := by
  cases worker with
  | none => cases matched
  | some worker =>
    obtain ⟨duty, same, obeys⟩ := matched
    cases same
    refine ⟨worker, rfl, ?_⟩
    obtain ⟨tag, program⟩ := worker
    cases program with
    | done outcome => exact absurd rfl (obeys jobId)
    | call c next => cases c <;> exact obeys.1

theorem custody_preserved (env : Environment) (cfg : Config) :
    PreservesTo (steadySystem env cfg) SparesHands custody Duty.Ended Custody where
  call _ _ _ _ _ _ _ _ _ inv held allowed effect :=
    custody_call inv held allowed effect.1 effect.2
  stop pool duties i spares inv matched := by
    refine custody_drop inv (fun task jobId owes => ?_) (.inl rfl)
    rw [owes] at matched
    obtain ⟨worker, running, writing⟩ := writing_of_owes matched
    exact spares i worker jobId rfl running writing
  start pool duties i worker _ inv free starts := by
    obtain ⟨entry, present, rfl⟩ := starts
    refine ⟨.settles entry.messageId entry.job.jobId, meets_processJob env cfg rfl, ?_⟩
    have named : ∀ other ∈ pool.shared.entries, other.messageId = entry.messageId →
        other.job.jobId = entry.job.jobId := by
      intro other mem same
      rw [List.inj_on_of_nodup_map inv.unique mem present same]
    apply custody_set inv
    · rintro task messageId jobId ⟨⟩
      exact ⟨List.mem_map_of_mem present, named⟩
    · exact fun _ same => nomatch same
    · intro _ _ owes
      rw [free] at owes
      cases owes
  act pool duties event after _ inv acts := by
    obtain ⟨fresh, rfl⟩ := acts
    rw [← setDuty_self duties 0]
    exact custody_add inv fresh (.inl rfl)

end Custody

section Main
variable {env : Environment} {cfg : Config} {pool after : JobPool}
  {label : Label Task Scheduled Call Reply String Unit}

theorem accounted_or_inHand
    (run : Reaches (Step (steadySystem env cfg)) SparesHands (Pool.idle Store.empty) pool)
    {jobId : String} (enqueued : Enqueued pool.shared jobId) :
    Accounted pool.shared jobId ∨ InHand pool jobId := by
  have empty : Custody Store.empty fun _ => none := by
    refine ⟨List.nodup_nil, fun _ _ _ _ none => (nomatch none), fun _ _ none => (nomatch none), ?_⟩
    rintro jobId ⟨entry, mem, _⟩
    cases mem
  obtain ⟨duties, inv, obeyed⟩ :=
    watchedTo_run (custody_preserved env cfg) run (watchedTo_idle empty)
  rcases inv.held jobId enqueued with accounted | ⟨i, task, owes⟩
  · exact .inl accounted
  · have matched := obeyed i
    rw [owes] at matched
    obtain ⟨worker, running, writing⟩ := writing_of_owes matched
    exact .inr ⟨i, worker, running, writing⟩

theorem unique_step (step : Step (reconciliationSystem env cfg) pool label after)
    (unique : pool.shared.ids.Nodup) : after.shared.ids.Nodup := by
  cases step with
  | call running performs =>
    cases performs with
    | refused _ _ => exact unique
    | elsewhere _ _ _ => exact unique
    | applied writes _ =>
      cases writes with
      | addJob job fresh => exact unique_add unique fresh
      | moveToDlq job reason => exact unique
      | ack messageId status =>
        rw [ids_acknowledge]
        exact unique
  | stop i => exact unique
  | start free starts => exact unique
  | act acted =>
    obtain ⟨fresh, rfl⟩ := acted
    exact unique_add unique fresh

theorem unique_run
    (run : Reaches (Step (reconciliationSystem env cfg)) always (Pool.idle Store.empty) pool) :
    pool.shared.ids.Nodup := by
  apply run.invariant (I := fun pool => pool.shared.ids.Nodup)
  · exact fun _ _ _ unique _ step => unique_step step unique
  · exact List.nodup_nil

theorem unaccounted_step
    (run : Reaches (Step (reconciliationSystem env cfg)) always (Pool.idle Store.empty) pool)
    (step : Step (reconciliationSystem env cfg) pool label after)
    (breaks : ¬ SparesLast pool label) (effective : after.shared ≠ pool.shared) :
    ¬ AllAccounted after.shared := by
  unfold SparesLast at breaks
  push Not at breaks
  obtain ⟨i, tag, messageId, status, next, rfl, running, moves, entry, mem, named, waiting, last⟩ :=
    breaks
  cases step with
  | call running' performs =>
    rw [running] at running'
    cases running'
    cases performs with
    | refused _ _ => exact absurd rfl effective
    | elsewhere quiet _ _ => cases quiet
    | applied writes _ =>
      cases writes with
      | ack messageId status =>
        intro all
        apply last
        apply accounted_without (unique_run run) moves ⟨entry, mem, named, waiting⟩
        apply all
        refine ⟨_, List.mem_map_of_mem mem, ?_⟩
        split <;> rfl

end Main

def sampleEnvironment : Environment where
  isHttpUrl _ := true
  isAllowedRemoteFetchUrl _ := true
  host _ := "remote.example"
  stringify _ := ""
  urlHost _ := some "remote.example"
  hostname _ := some "remote.example"
  sha256Hex text := text

def sampleConfig : Config where
  signerActorUri := "https://social.example/users/relay"
  requestRetries := 0
  requestRetryBaseDelayMs := 100
  requestRetryMaxDelayMs := 1000
  userAgent := "Fedify-Sidecar/Test"
  perOriginConcurrency := 2
  perOriginBurstLimit := 5
  perOriginBurstWindowSeconds := 300
  maxUnchangedSuccesses := 2
  applyIdempotencyTtlSeconds := 600

def sampleJob : OriginReconciliationJob where
  jobId := "reconcile-001"
  originObjectUrl := "https://remote.example/objects/1"
  canonicalObjectId := some "https://remote.example/objects/1"
  actorUriHint := some "https://remote.example/users/alice"
  reason := "conversation-hydration"
  createdAt := 1000
  attempt := 0
  maxAttempts := 5
  notBeforeMs := 31000
  windowExpiresAt := 1801000
  lastFingerprint := none
  unchangedSuccesses := 0
  notFoundCount := 0
  lastError := none

def scheduled : Store := Store.empty.add "1000-0" sampleJob

def sampleTask : Task := ⟨"1000-0", "reconcile-001"⟩

abbrev sampleSystem : System Store Task Scheduled Call Reply String Unit :=
  reconciliationSystem sampleEnvironment sampleConfig

theorem acts_scheduled : sampleSystem.acts ⟨"1000-0", sampleJob⟩ Store.empty scheduled := by
  refine ⟨List.not_mem_nil, ?_⟩
  simp [scheduled, OriginReconciliationJob.throughStream, readBack, sampleJob, Option.filter]

theorem starts_sample : sampleSystem.starts scheduled
    ⟨sampleTask, processJob sampleEnvironment sampleConfig "1000-0" sampleJob⟩ :=
  ⟨_, List.mem_singleton_self _, rfl⟩

theorem reaches_notDue {guard : JobPool → Label Task Scheduled Call Reply String Unit → Prop}
    (admitted : guard (Pool.idle Store.empty) (.act ⟨"1000-0", sampleJob⟩))
    (starts : guard (Pool.idle scheduled)
      (.start 0 ⟨sampleTask, processJob sampleEnvironment sampleConfig "1000-0" sampleJob⟩))
    (reads : guard (Pool.single scheduled sampleTask
      (processJob sampleEnvironment sampleConfig "1000-0" sampleJob)) (.call 0)) :
    Reaches (Step sampleSystem) guard (Pool.idle Store.empty)
      (Pool.single scheduled sampleTask (rescheduleJob "1000-0" sampleJob .deferred)) := by
  have started := reaches_start (reaches_act Reaches.refl admitted acts_scheduled) starts
    starts_sample
  have performs : sampleSystem.effect sampleTask .now scheduled (1000 : Int) scheduled :=
    Effect.elsewhere rfl _ _
  exact reaches_call started reads performs

theorem acknowledges : sampleSystem.effect sampleTask (.ack "1000-0" .deferred) scheduled (.ok ())
    (scheduled.acknowledge "1000-0" .deferred) := Effect.applied (.ack _ _ _) _

theorem unaccounted : ¬ AllAccounted (scheduled.acknowledge "1000-0" .deferred) := by
  intro all
  rcases all "reconcile-001" ⟨_, List.mem_singleton_self _, rfl⟩ with ⟨entry, mem, -, held⟩ | dead
  · rw [List.mem_singleton.mp mem] at held
    rcases held with waiting | ⟨status, acked, finished⟩
    · cases waiting
    · cases acked
      exact finished trivial
  · obtain ⟨job, mem, -⟩ := dead
    cases mem

end MastopodFederation.Guarantees.ReconciliationCustody
