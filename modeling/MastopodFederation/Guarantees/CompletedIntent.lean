import MastopodFederation.Guarantees.FanOutOnce

/-!
# Dead letters of a completed intent

Once its completion is marked, a run can still write a dead letter in two ways: the age of the
intent is checked before its completion is, and the catch block treats a failed acknowledgement,
or a failed read of the state, like a failed attempt. There is no third way.
-/
namespace MastopodFederation.Guarantees.CompletedIntent
open Lib.LuaTable Lib.Calls Source.DelayedQueue Source.OutboxIntentWorker
open Source.OutboxIntentQueue FanOutOnce

structure Run where
  messageId : String
  intent : OutboxIntent
  events : List (Event Call Reply)

structure Watch where
  /-- the last HSET marked the completion -/
  marking : Bool
  /-- `markOutboxIntentCompleted` has succeeded -/
  marked : Bool
  /-- `moveToDlq` was called after that -/
  late : Bool

def Watch.see (w : Watch) : (c : Call) → Reply c → Watch
  | .hSet _ values, r => { w with marking := sets values "completedAt" && !isError r }
  | .expire .., r => { w with marking := false, marked := w.marked || (w.marking && !isError r) }
  | .moveToDlq .., _ => { w with late := w.late || w.marked }
  | _, _ => w

def completion : Monitor Call Reply Watch where
  allows _ _ := True
  after := Watch.see

def Run.watch (marked : Bool) (run : Run) : Watch :=
  completion.follow ⟨false, marked, false⟩ run.events

def faultOf : (c : Call) → Reply c → Bool
  | .hGetAll _, r => isError r
  | .ack _, r => isError r
  | _, _ => false

def Run.faulted (run : Run) : Bool := run.events.any fun e => faultOf e.called e.reply

def readingOf : (c : Call) → Reply c → Option Int
  | .now, value => some value
  | _, _ => none

def Run.startedAt (run : Run) : Option Int :=
  run.events.findSome? fun e => readingOf e.called e.reply

def isWithinHorizon (env : Environment) (intent : OutboxIntent) (nowMs : Int) : Bool :=
  match withinReplayHorizon env intent "processing start" nowMs with
  | .ok _ => true
  | .error _ => false

def showsCompletion (env : Environment) : (c : Call) → Reply c → Bool
  | .hGetAll _, .ok raw => truthy (parsedField env raw "completedAt")
  | _, _ => true

/-- Runs of `processIntent` for one intent id; once the completion is marked, every read
of the state shows it. -/
def Processed (env : Environment) (cfg : Config) (intentId : String) :
    Bool → List Run → Prop
  | _, [] => True
  | marked, run :: rest =>
    run.intent.intentId = intentId ∧
    (∃ outcome, Trace (processIntent env cfg run.messageId run.intent) run.events outcome) ∧
    (marked = true → ∀ e ∈ run.events, showsCompletion env e.called e.reply = true) ∧
    Processed env cfg intentId (run.watch marked).marked rest

def NeverLettered : Bool → List Run → Prop
  | _, [] => True
  | marked, run :: rest =>
    (run.watch marked).late = false ∧ NeverLettered (run.watch marked).marked rest

/-- A run of a completed intent starts within the replay horizon, and in a run that has
the last attempt neither the state read nor the acknowledgement throws. -/
def Harmless (env : Environment) : Bool → List Run → Prop
  | _, [] => True
  | marked, run :: rest =>
    (marked = true → ∀ nowMs, run.startedAt = some nowMs →
      isWithinHorizon env run.intent nowMs = true) ∧
    ((run.watch marked).marked = true →
      run.intent.attempt + 1 < run.intent.maxAttempts ∨ run.faulted = false) ∧
    Harmless env (run.watch marked).marked rest

structure Trail where
  watch : Watch
  faulted : Bool
  startedAt : Option Int
  /-- every read showed the completion -/
  shown : Bool

def Trail.see (env : Environment) (t : Trail) (c : Call) (r : Reply c) : Trail where
  watch := t.watch.see c r
  faulted := t.faulted || faultOf c r
  startedAt := t.startedAt.or (readingOf c r)
  shown := t.shown && showsCompletion env c r

def trail (env : Environment) : Monitor Call Reply Trail where
  allows _ _ := True
  after := Trail.see env

def Trail.start (marked : Bool) : Trail := ⟨⟨false, marked, false⟩, false, none, true⟩

section Program
variable {env : Environment} {cfg : Config} {intent : OutboxIntent} {messageId : String}
  {marked : Bool} {t : Trail} {α : Type}

theorem follow_trail (events : List (Event Call Reply)) (t : Trail) :
    (trail env).follow t events =
      ⟨completion.follow t.watch events,
        t.faulted || events.any fun e => faultOf e.called e.reply,
        t.startedAt.or (events.findSome? fun e => readingOf e.called e.reply),
        t.shown && events.all fun e => showsCompletion env e.called e.reply⟩ := by
  induction events generalizing t with
  | nil => simp [Monitor.follow]
  | cons e rest ih =>
    have first : (trail env).follow t (e :: rest) =
        (trail env).follow (t.see env e.called e.reply) rest := rfl
    rw [first, ih]
    cases read : readingOf e.called e.reply <;>
      simp [Trail.see, Monitor.follow, completion, read, Bool.or_assoc,
        Bool.and_assoc]

def LastAttempt (intent : OutboxIntent) : Prop := intent.maxAttempts ≤ intent.attempt + 1

/-- A dead letter is late exactly where the run is not harmless, as far as the reads show
the completion. -/
def Judged (env : Environment) (intent : OutboxIntent) (marked : Bool) (t : Trail) : Prop :=
  (marked = true → t.shown = true) → (t.watch.late = false ↔
    (marked = true → ∀ nowMs, t.startedAt = some nowMs → isWithinHorizon env intent nowMs = true) ∧
    (t.watch.marked = true → ¬ LastAttempt intent ∨ t.faulted = false))

structure Going (env : Environment) (intent : OutboxIntent) (marked : Bool) (t : Trail) :
    Prop where
  inTime : t.watch.late = false
  started : t.startedAt.isSome = true
  within : marked = true → ∀ nowMs, t.startedAt = some nowMs →
    isWithinHorizon env intent nowMs = true

theorem judged_of_going (going : Going env intent marked t)
    (clean : t.watch.marked = true → ¬ LastAttempt intent ∨ t.faulted = false) :
    Judged env intent marked t :=
  fun _ => ⟨fun _ => ⟨going.within, clean⟩, fun _ => going.inTime⟩

def Hidden (marked : Bool) (t : Trail) : Prop := marked = true ∧ t.shown = false

theorem judged_of_hidden (hidden : Hidden marked t) : Judged env intent marked t := by
  intro judging
  have shown := judging hidden.1
  rw [hidden.2] at shown
  cases shown

theorem keeps_hidden {ε : Type} (x : Prog Call Reply ε α) :
    Keeps (trail env) (Hidden marked) x := by
  apply (only_any x).keeps
  · exact fun _ _ _ _ => trivial
  · rintro t c r - ⟨known, hidden⟩
    refine ⟨known, ?_⟩
    change (t.shown && _) = false
    rw [hidden, Bool.false_and]

def Failed (env : Environment) (intent : OutboxIntent) (marked : Bool) (e : Failure)
    (t : Trail) : Prop :=
  Hidden marked t ∨ (Going env intent marked t ∧
    (t.watch.marked = true → t.faulted = true ∧ isPermanentFailure e = false))

theorem startedAt_see (started : t.startedAt.isSome = true) (c : Call) (r : Reply c) :
    (t.see env c r).startedAt = t.startedAt := by
  obtain ⟨first, known⟩ := Option.isSome_iff_exists.mp started
  unfold Trail.see
  rw [known]
  rfl

theorem going_see (going : Going env intent marked t) {c : Call} {r : Reply c}
    (inTime : (t.watch.see c r).late = false) : Going env intent marked (t.see env c r) where
  inTime := inTime
  started := by rw [startedAt_see going.started]; exact going.started
  within := by rw [startedAt_see going.started]; exact going.within

def early : Call → Bool
  | .now | .publishTombstone _ | .publishToStream1 _ | .fanOut .. | .expire .. => true
  | .hSet _ values => !sets values "completedAt"
  | _ => false

abbrev Early (c : Call) : Prop := early c = true

structure Unmarked (env : Environment) (intent : OutboxIntent) (marked : Bool) (t : Trail) :
    Prop extends Going env intent marked t where
  unmarked : t.watch.marked = false
  unmarking : t.watch.marking = false
  clean : t.faulted = false

theorem unmarked_see (going : Unmarked env intent marked t) {c : Call} (early : Early c)
    (r : Reply c) : Unmarked env intent marked (t.see env c r) := by
  have kept : (t.watch.see c r).late = false ∧ (t.watch.see c r).marked = false ∧
      (t.watch.see c r).marking = false ∧ faultOf c r = false := by
    cases c with
    | now | publishTombstone | publishToStream1 | fanOut =>
      exact ⟨going.inTime, going.unmarked, going.unmarking, rfl⟩
    | expire => exact ⟨going.inTime, by simp [Watch.see, going.unmarked, going.unmarking], rfl, rfl⟩
    | hSet intentId values =>
      have other : sets values "completedAt" = false := by simpa [Early, CompletedIntent.early] using early
      exact ⟨going.inTime, going.unmarked, by simp [Watch.see, other], rfl⟩
    | hGetAll | persistAndAck | moveToDlq | ack => cases early
  obtain ⟨inTime, unmarked, unmarking, noFault⟩ := kept
  refine ⟨going_see going.toGoing inTime, unmarked, unmarking, ?_⟩
  change (t.faulted || faultOf c r) = false
  rw [going.clean, noFault]
  rfl

theorem keeps_unmarked {ε : Type} {x : Prog Call Reply ε α} (only : Only Early x) :
    Keeps (trail env) (Unmarked env intent marked) x := by
  apply only.keeps
  · exact fun _ _ _ _ => trivial
  · exact fun t c r early going => unmarked_see going early r

theorem early_setState {intentId : String} {values : Fields}
    (other : sets values "completedAt" = false) : Only Early (setState intentId values) := by
  unfold setState
  apply only_bind
  · exact only_call (by simp [Early, early, other]) fun _ => only_done _
  · exact fun _ => only_call rfl fun _ => only_done _

theorem early_clock : Only Early clock := only_call rfl fun _ => only_done _

theorem early_observe (activity : List (String × Json)) (state : OutboxIntentState) :
    Only Early (observe env cfg intent activity state) := by
  unfold observe
  split
  · exact only_pure _
  · apply only_bind
    · apply (only_publishEventLog intent activity).imp
      intro c ignored
      cases c <;> first | rfl | cases ignored
    · intro _
      unfold markOutboxIntentEventLogPublished
      exact only_bind early_clock fun _ => early_setState rfl

theorem early_enqueue (jobs : List OutboundJob) :
    Only Early (enqueueOutboundBatchForIntent env intent.intentId jobs) := by
  unfold enqueueOutboundBatchForIntent
  split
  · apply only_bind early_clock
    intro nowMs
    exact only_bind (early_setState rfl) fun _ => only_pure _
  · apply only_bind early_clock
    intro nowMs
    apply only_bind (only_done _)
    intro batch
    apply only_bind
    · exact only_call rfl fun _ => only_done _
    · exact fun _ => only_pure _

theorem early_fanOut (activity : List (String × Json)) :
    Only Early (fanOut env cfg intent activity) := by
  unfold fanOut
  split
  · exact early_enqueue []
  · unfold fanOutJobs assertIntentWithinReplayHorizon
    apply only_bind (only_done _)
    intro targets
    apply only_bind (only_done _)
    intro outboundJobs
    apply only_bind
    · exact only_bind early_clock fun _ => only_done _
    · exact fun _ => early_enqueue outboundJobs

theorem ends_early {x : Program α} (only : Only Early x)
    (going : Unmarked env intent marked t) :
    Meets (trail env) x (Ends (Failed env intent marked) fun _ => Unmarked env intent marked) t := by
  apply (keeps_unmarked only t going).imp
  intro t' outcome going
  cases outcome with
  | ok a => exact going
  | error e =>
    refine .inr ⟨going.toGoing, fun set => ?_⟩
    rw [going.unmarked] at set
    cases set

theorem ends_ack (going : Going env intent marked t) (clean : t.faulted = false) :
    Meets (trail env) (ack messageId)
      (Ends (Failed env intent marked) fun _ => Judged env intent marked) t := by
  unfold Source.OutboxIntentWorker.ack
  rw [meets_call]
  refine ⟨trivial, fun r => ?_⟩
  have later : Going env intent marked ((trail env).after t (.ack messageId) r) :=
    going_see going going.inTime
  cases r with
  | ok u =>
    apply judged_of_going later
    intro _
    refine .inr ?_
    change (t.faulted || false) = false
    rw [clean]
    rfl
  | error e =>
    refine .inr ⟨later, fun _ => ⟨?_, rfl⟩⟩
    exact Bool.or_true _

theorem ends_markCompleted (going : Unmarked env intent marked t) :
    Meets (trail env) (markOutboxIntentCompleted env intent.intentId)
      (Ends (Failed env intent marked) fun _ t' =>
        Going env intent marked t' ∧ t'.faulted = false) t := by
  unfold markOutboxIntentCompleted
  apply ends_bind (ends_early early_clock going)
  intro completedAt t going
  unfold setState
  rw [meets_bind, meets_call]
  refine ⟨trivial, fun r => ?_⟩
  have set : Going env intent marked ((trail env).after t (.hSet intent.intentId
      [("completedAt", env.rt.numberToString completedAt)]) r) :=
    going_see going.toGoing going.inTime
  have clean : (t.faulted || false) = false := by rw [going.clean]; rfl
  cases r with
  | error e =>
    refine .inr ⟨set, fun isMarked => ?_⟩
    have before : t.watch.marked = true := isMarked
    rw [going.unmarked] at before
    cases before
  | ok u =>
    refine ⟨trivial, fun r' => ?_⟩
    have later : Going env intent marked ((trail env).after _
        (.expire intent.intentId stateRetentionSeconds) r') := going_see set set.inTime
    cases r' with
    | ok u' => exact ⟨later, by change ((t.faulted || false) || false) = false; rw [clean]; rfl⟩
    | error e =>
      refine .inr ⟨later, fun marked => ?_⟩
      have unmarked : (t.watch.marked || (_ && !isError (Except.error e : Except String Unit))) =
        true := marked
      rw [going.unmarked] at unmarked
      simp [isError] at unmarked

theorem ends_processDue (going : Going env intent marked t) (clean : t.faulted = false)
    (same : t.watch.marked = marked) (unmarking : t.watch.marking = false) :
    Meets (trail env) (processDue env cfg messageId intent)
      (Ends (Failed env intent marked) fun _ => Judged env intent marked) t := by
  unfold processDue getOutboxIntentState
  rw [meets_bind, meets_bind, meets_call]
  refine ⟨trivial, fun r => ?_⟩
  have read : Going env intent marked ((trail env).after t (.hGetAll intent.intentId) r) :=
    going_see going going.inTime
  cases r with
  | error e => exact .inr ⟨read, fun _ => ⟨Bool.or_true _, rfl⟩⟩
  | ok raw =>
    have stillClean : (t.faulted || false) = false := by rw [clean]; rfl
    change Meets (trail env) (if truthy (parsedField env raw "completedAt") = true then _ else _) _ _
    split
    next completed => exact ends_ack read stillClean
    next pending =>
      cases marked with
      | true =>
        have hidden : Hidden true ((trail env).after t (.hGetAll intent.intentId) (.ok raw)) := by
          refine ⟨rfl, ?_⟩
          change (t.shown && truthy (parsedField env raw "completedAt")) = false
          rw [Bool.eq_false_iff.mpr pending, Bool.and_false]
        apply (keeps_hidden _ _ hidden).imp
        intro t' outcome hidden
        cases outcome with
        | ok u => exact judged_of_hidden hidden
        | error e => exact .inl hidden
      | false =>
        have unmarked : Unmarked env intent false
            ((trail env).after t (.hGetAll intent.intentId) (.ok raw)) :=
          ⟨read, same, unmarking, stillClean⟩
        apply ends_bind (ends_early (only_done _) unmarked)
        intro activity t going
        apply ends_bind (ends_early (early_observe activity _) going)
        intro _ t going
        apply ends_bind (ends_early (early_fanOut activity) going)
        intro _ t going
        apply ends_bind (ends_markCompleted going)
        rintro _ t ⟨going, clean⟩
        exact ends_ack going clean

theorem see_now (started : t.startedAt.isSome = true) (value : Int) :
    t.see env .now value = t := by
  obtain ⟨first, known⟩ := Option.isSome_iff_exists.mp started
  cases t
  simp_all [Trail.see, Watch.see, faultOf, readingOf, showsCompletion]

theorem see_persist (replacement : OutboxIntent) (r : Except String Unit) :
    t.see env (.persistAndAck messageId replacement) r = t := by
  cases t
  simp [Trail.see, Watch.see, faultOf, readingOf, showsCompletion]

theorem unchanged_clock (started : t.startedAt.isSome = true) :
    Meets (trail env) clock (fun t' _ => t' = t) t := by
  unfold clock
  rw [meets_call]
  exact ⟨trivial, fun value => see_now started value⟩

theorem unchanged_persist (started : t.startedAt.isSome = true) (replacement : OutboxIntent) :
    Meets (trail env) (persistDelayedReplacementAndAck cfg messageId replacement)
      (fun t' _ => t' = t) t := by
  unfold persistDelayedReplacementAndAck persistReplacementAndAck
  split
  · rw [meets_bind]
    apply (unchanged_clock started).imp
    rintro t' outcome rfl
    cases outcome with
    | error e => exact rfl
    | ok nowMs =>
      rw [then_ok]
      split
      · exact rfl
      · rw [meets_call]
        refine ⟨trivial, fun r => ?_⟩
        cases r with
        | ok u => exact see_persist replacement _
        | error e => exact see_persist replacement _
  · exact rfl

theorem meets_letter (letter : OutboxIntent) (reason : String) {post : Trail → Prop}
    (after : ∀ t' : Trail, t'.watch.late = (t.watch.late || t.watch.marked) →
      t'.watch.marked = t.watch.marked → (t.faulted = true → t'.faulted = true) →
      t'.startedAt = t.startedAt → post t')
    (started : t.startedAt.isSome = true) :
    Meets (trail env) (do moveToDlq letter reason; ack messageId) (fun t' _ => post t') t := by
  have first : ∀ r, (t.see env (.moveToDlq letter reason) r).startedAt = t.startedAt :=
    fun r => startedAt_see started _ r
  have faulted : ∀ r, (t.see env (.moveToDlq letter reason) r).faulted = t.faulted :=
    fun r => Bool.or_false _
  unfold moveToDlq Source.OutboxIntentWorker.ack
  rw [meets_bind, meets_call]
  refine ⟨trivial, fun r => ?_⟩
  cases r with
  | error e => exact after _ rfl rfl (fun set => (faulted _).trans set) (first _)
  | ok u =>
    refine ⟨trivial, fun r' => ?_⟩
    have known : ((t.see env (.moveToDlq letter reason) (.ok u)).startedAt).isSome = true := by
      rw [first]
      exact started
    have ends : post ((t.see env (.moveToDlq letter reason) (.ok u)).see env (.ack messageId) r') := by
      refine after _ rfl rfl (fun set => ?_) ((startedAt_see known _ r').trans (first _))
      change ((t.see env (.moveToDlq letter reason) (.ok u)).faulted || _) = true
      rw [faulted, set]
      rfl
    cases r' with
    | ok u' => exact ends
    | error e => exact ends

theorem judged_recover {thrown : Thrown} (failed : Failed env intent marked thrown.failure t)
    (unparked : thrown.parkingAlreadyFutureIntent = false) :
    Meets (trail env) (recover cfg messageId intent thrown)
      (fun t' _ => Judged env intent marked t') t := by
  rcases failed with hidden | ⟨going, kind⟩
  · exact (keeps_hidden _ t hidden).imp fun _ _ hidden => judged_of_hidden hidden
  · unfold recover
    rw [unparked, if_neg Bool.false_ne_true]
    dsimp only
    split
    next letters =>
      apply meets_letter _ _ _ going.started
      intro t' late sameMark faulted first
      rw [going.inTime, Bool.false_or] at late
      cases was : t.watch.marked with
      | false =>
        rw [was] at late sameMark
        apply judged_of_going ⟨late, by rw [first]; exact going.started,
          by rw [first]; exact going.within⟩
        intro set
        rw [sameMark] at set
        cases set
      | true =>
        obtain ⟨fault, passing⟩ := kind was
        rw [was] at late sameMark
        rw [passing, Bool.false_or, decide_eq_true_eq] at letters
        refine fun _ => ⟨fun inTime => ?_, fun harmless => ?_⟩
        · rw [late] at inTime
          cases inTime
        · rcases harmless.2 sameMark with left | clean
          · exact absurd letters left
          · rw [faulted fault] at clean
            cases clean
    next retries =>
      rw [Bool.or_eq_true, not_or, decide_eq_true_eq] at retries
      rw [meets_bind]
      apply (unchanged_clock going.started).imp
      rintro t' outcome rfl
      have judged := judged_of_going going fun _ => .inl retries.2
      cases outcome with
      | error e => exact judged
      | ok nowMs =>
        rw [then_ok]
        apply (unchanged_persist going.started _).imp
        rintro t'' outcome rfl
        exact judged

theorem permanent_of_withinReplayHorizon {boundary : String} {nowMs : Int} {e : Failure}
    (failed : withinReplayHorizon env intent boundary nowMs = .error e) :
    isPermanentFailure e = true := by
  unfold withinReplayHorizon at failed
  split at failed
  · cases failed
    rfl
  · split at failed
    · cases failed
      rfl
    · cases failed

theorem judged_expired {nowMs : Int} {e : Failure}
    (failed : withinReplayHorizon env intent "processing start" nowMs = .error e)
    (first : t.startedAt = some nowMs) (inTime : t.watch.late = false)
    (same : t.watch.marked = marked) :
    Meets (trail env) (recover cfg messageId intent ⟨false, e⟩)
      (fun t' _ => Judged env intent marked t') t := by
  unfold recover
  rw [if_neg Bool.false_ne_true]
  dsimp only
  rw [permanent_of_withinReplayHorizon failed, Bool.true_or, if_pos rfl]
  apply meets_letter
  · intro t' late sameMark _ first'
    rw [inTime, same, Bool.false_or] at late
    rw [same] at sameMark
    rw [first] at first'
    intro _
    rw [late, sameMark]
    refine ⟨fun unmarked => ⟨fun set => ?_, fun set => ?_⟩, fun harmless => ?_⟩
    · rw [unmarked] at set
      cases set
    · rw [unmarked] at set
      cases set
    · rw [Bool.eq_false_iff]
      intro set
      have within := harmless.1 set nowMs first'
      simp [isWithinHorizon, failed] at within
  · rw [first]
    rfl

theorem meets_notYetDue (started : t.startedAt.isSome = true) :
    Meets (trail env) (notYetDue intent) (fun t' outcome => t' = t ∧ ∃ due, outcome = .ok due) t := by
  unfold notYetDue
  split
  · unfold clock
    rw [meets_bind, meets_call]
    exact ⟨trivial, fun nowMs => ⟨see_now started nowMs, _, rfl⟩⟩
  · exact ⟨rfl, _, rfl⟩

theorem judged_afterCheck (going : Going env intent marked t) (clean : t.faulted = false)
    (same : t.watch.marked = marked) (unmarking : t.watch.marking = false) :
    Meets (trail env)
      (do
        if ← parking false (notYetDue intent) then
          parking true (persistDelayedReplacementAndAck cfg messageId intent)
        else parking false (processDue env cfg messageId intent))
      (Rescued (trail env) (recover cfg messageId intent) fun t' _ => Judged env intent marked t')
      t := by
  unfold parking
  rw [meets_bind, meets_mapError]
  apply (meets_notYetDue going.started).imp
  rintro t' outcome ⟨rfl, due, rfl⟩
  change Meets (trail env) (if due = true then _ else _) _ t'
  have judged : Judged env intent marked t' := judged_of_going going fun _ => .inr clean
  split
  · rw [meets_mapError]
    apply (unchanged_persist going.started intent).imp
    rintro t'' outcome rfl
    cases outcome with
    | ok u => exact judged
    | error e => exact judged
  · rw [meets_mapError]
    apply (ends_processDue going clean same unmarking).imp
    intro t'' outcome ended
    cases outcome with
    | ok u => exact ended
    | error e =>
      have failed : Failed env intent marked (Thrown.mk false e).failure t'' := ended
      exact judged_recover failed rfl

theorem judged_processIntent (marked : Bool) :
    Meets (trail env) (processIntent env cfg messageId intent)
      (fun t _ => Judged env intent marked t) (Trail.start marked) := by
  unfold processIntent attemptIntent
  rw [meets_rescue, meets_bind]
  unfold parking assertIntentWithinReplayHorizon
  rw [meets_mapError, meets_bind]
  unfold clock
  rw [meets_call]
  refine ⟨trivial, fun nowMs => ?_⟩
  rw [meets_done, then_ok, meets_done]
  cases within : withinReplayHorizon env intent "processing start" nowMs with
  | error e => exact judged_expired within rfl rfl rfl
  | ok u =>
    have going : Going env intent marked
        ((trail env).after (Trail.start marked) .now nowMs) := by
      refine ⟨rfl, rfl, fun _ reading first => ?_⟩
      cases first
      simp [isWithinHorizon, within]
    exact judged_afterCheck going rfl rfl rfl

theorem late_iff (run : Run) {outcome : Except Failure Unit}
    (trace : Trace (processIntent env cfg run.messageId run.intent) run.events outcome)
    (shows : marked = true → ∀ e ∈ run.events, showsCompletion env e.called e.reply = true) :
    (run.watch marked).late = false ↔
      (marked = true → ∀ nowMs, run.startedAt = some nowMs →
        isWithinHorizon env run.intent nowMs = true) ∧
      ((run.watch marked).marked = true →
        run.intent.attempt + 1 < run.intent.maxAttempts ∨ run.faulted = false) := by
  have judged := Meets.sound trace (judged_processIntent marked)
  rw [follow_trail] at judged
  have shown : marked = true → ((Trail.start marked).shown &&
      run.events.all fun e => showsCompletion env e.called e.reply) = true :=
    fun known => List.all_eq_true.mpr (shows known)
  have attempts : ¬ LastAttempt run.intent ↔ run.intent.attempt + 1 < run.intent.maxAttempts :=
    not_le
  rw [← attempts]
  exact judged shown

end Program

/-- Once its completion is marked, an intent is dead-lettered exactly where a run starts
outside the replay horizon, or a read of the state or an acknowledgement throws in a run
that has the last attempt. -/
theorem never_lettered_iff (env : Environment) (cfg : Config) (intentId : String)
    (marked : Bool) (history : List Run) (processed : Processed env cfg intentId marked history) :
    NeverLettered marked history ↔ Harmless env marked history := by
  induction history generalizing marked with
  | nil => exact Iff.rfl
  | cons run rest ih =>
    obtain ⟨-, ⟨outcome, trace⟩, shows, others⟩ := processed
    unfold NeverLettered Harmless
    rw [late_iff run trace shows, ih _ others, and_assoc]

def succeeding (nowMs : Int) (state : Hash) : (c : Call) → Reply c
  | .now => nowMs
  | .hGetAll _ => .ok state
  | .fanOut .. => .ok ("1", "0")
  | .publishTombstone _ | .publishToStream1 _ | .hSet .. | .expire .. | .persistAndAck ..
  | .moveToDlq .. | .ack _ => .ok ()

def succeedingRun (messageId : String) (nowMs : Int) (state : Hash) : Run where
  messageId := messageId
  intent := observedIntent
  events := ((processIntent observedEnvironment observedConfig messageId observedIntent).run
    (succeeding nowMs state)).1

def expiredHistory : List Run :=
  [succeedingRun "1-0" 1 fun _ => none, succeedingRun "2-0" 172800002 fun _ => some "1"]

theorem processed_expiredHistory :
    Processed observedEnvironment observedConfig "intent-1" false expiredHistory := by
  refine ⟨rfl, ⟨_, trace_run _ _⟩, nofun, rfl, ⟨_, trace_run _ _⟩, fun _ => ?_, trivial⟩
  exact List.all_eq_true.mp (by decide +kernel)

theorem expired_lettered :
    ¬ ∀ (env : Environment) (cfg : Config) (intentId : String) (history : List Run),
      Processed env cfg intentId false history → NeverLettered false history := by
  intro claimed
  obtain ⟨-, inTime, -⟩ := claimed _ _ _ _ processed_expiredHistory
  have late : ((succeedingRun "2-0" 172800002 fun _ => some "1").watch
      ((succeedingRun "1-0" 1 fun _ => none).watch false).marked).late = true := by
    decide +kernel
  rw [late] at inTime
  cases inTime

theorem never_lettered_iff_expired :
    NeverLettered false expiredHistory ↔ Harmless observedEnvironment false expiredHistory :=
  never_lettered_iff observedEnvironment observedConfig "intent-1" false expiredHistory
    processed_expiredHistory

end MastopodFederation.Guarantees.CompletedIntent
