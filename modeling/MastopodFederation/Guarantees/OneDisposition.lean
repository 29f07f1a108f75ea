import MastopodFederation.Guarantees.OutboundCalls
import Mathlib.Data.List.Induction

/-!
# Dispositions of one delivery attempt

A run of `processJob` may persist the completed marker, enqueue a copy of the job
or write a dead letter. Whatever its calls reply, it does at most one of the three
unless an acknowledgement or a slot release fails after the marker was persisted or
a copy enqueued: the outer catch block then writes a dead letter on top.
-/
namespace MastopodFederation.Guarantees.OneDisposition
open Lib.Calls Source.DelayedQueue Source.OutboundWorker
open OutboundCalls

inductive Disposition where
  /-- the completed marker is set -/
  | completed
  /-- a retry or deferral copy is enqueued -/
  | copied
  /-- a dead letter is written -/
  | dead
  deriving DecidableEq

def disposition : Event Call Reply → Option Disposition
  | ⟨.complete .., .ok _⟩ => some .completed
  | ⟨.addReady _, .ok _⟩ | ⟨.storeDelayedOutbound _, .ok _⟩ => some .copied
  | ⟨.moveToDlq .., .ok _⟩ => some .dead
  | _ => none

def Commits (e : Event Call Reply) : Prop :=
  disposition e = some .completed ∨ disposition e = some .copied

def faults : Event Call Reply → Bool
  | ⟨.ack _, .error _⟩ | ⟨.releaseDomainSlot _, .error _⟩ => true
  | _ => false

def Single (events : List (Event Call Reply)) : Prop :=
  ∀ e ∈ events, ∀ other ∈ events, ∀ d d', disposition e = some d → disposition other = some d' →
    d = d'

/-- A failing acknowledgement or slot release follows a completion or copy, and a dead
letter is written after it. -/
def BuriedAfterFault (events : List (Event Call Reply)) : Prop :=
  ∃ c f d, [c, f, d].Sublist events ∧ Commits c ∧ faults f = true ∧ disposition d = some .dead

structure Ledger where
  completed : Bool := false
  copied : Bool := false
  dead : Bool := false
  /-- an ack or slot release failed after the job was completed or copied -/
  faulted : Bool := false
  /-- a dead letter was written after such a failure -/
  buried : Bool := false
  deriving DecidableEq

def Ledger.committed (l : Ledger) : Bool := l.completed || l.copied

def Ledger.after (l : Ledger) (c : Call) (reply : Reply c) : Ledger :=
  { completed := l.completed || disposition ⟨c, reply⟩ = some .completed
    copied := l.copied || disposition ⟨c, reply⟩ = some .copied
    dead := l.dead || disposition ⟨c, reply⟩ = some .dead
    faulted := l.faulted || faults ⟨c, reply⟩ && l.committed
    buried := l.buried || disposition ⟨c, reply⟩ = some .dead && l.faulted }

def ledger : Monitor Call Reply Ledger := ⟨fun _ _ => True, Ledger.after⟩

theorem follow_append {events : List (Event Call Reply)} {e : Event Call Reply} {l : Ledger} :
    ledger.follow l (events ++ [e]) = (ledger.follow l events).after e.called e.reply := by
  simp [Monitor.follow, ledger]

theorem sublist_snoc {α : Type} {a last : α} {short long : List α} :
    (short ++ [a]).Sublist (long ++ [last]) ↔
      (short ++ [a]).Sublist long ∨ a = last ∧ short.Sublist long := by
  rw [← List.reverse_sublist, List.reverse_append, List.reverse_append]
  simp only [List.reverse_singleton, List.singleton_append, List.sublist_cons_iff, List.cons.injEq]
  have turned : (a :: short.reverse).Sublist long.reverse ↔ (short ++ [a]).Sublist long := by
    rw [← List.reverse_sublist, List.reverse_reverse, List.reverse_cons, List.reverse_reverse]
  rw [← turned]
  constructor
  · rintro (inside | ⟨r, ⟨rfl, rfl⟩, inside⟩)
    · exact .inl inside
    · exact .inr ⟨rfl, List.reverse_sublist.mp inside⟩
  · rintro (inside | ⟨rfl, inside⟩)
    · exact .inl inside
    · exact .inr ⟨_, ⟨rfl, rfl⟩, List.reverse_sublist.mpr inside⟩

def Ledger.has (l : Ledger) : Disposition → Bool
  | .completed => l.completed
  | .copied => l.copied
  | .dead => l.dead

theorem after_has (l : Ledger) (e : Event Call Reply) (d : Disposition) :
    (l.after e.called e.reply).has d = (l.has d || disposition e = some d) := by
  cases d <;> rfl

variable (events : List (Event Call Reply))

theorem has_iff (d : Disposition) :
    (ledger.follow {} events).has d = true ↔ ∃ e ∈ events, disposition e = some d := by
  induction events using List.reverseRecOn with
  | nil => cases d <;> simp [Monitor.follow, Ledger.has]
  | append_singleton before e ih =>
    rw [follow_append, after_has, Bool.or_eq_true, ih, decide_eq_true_eq]
    simp [or_and_right, exists_or]

theorem committed_iff : (ledger.follow {} events).committed = true ↔ ∃ c ∈ events, Commits c := by
  have completed := has_iff events .completed
  have copied := has_iff events .copied
  simp only [Ledger.has] at completed copied
  simp only [Ledger.committed, Bool.or_eq_true, completed, copied, Commits, and_or_left, exists_or]

theorem faulted_iff : (ledger.follow {} events).faulted = true ↔
      ∃ c f, [c, f].Sublist events ∧ Commits c ∧ faults f = true := by
  induction events using List.reverseRecOn with
  | nil => simp [Monitor.follow]
  | append_singleton before e ih =>
    rw [follow_append]
    have snoc : ∀ c f, [c, f].Sublist (before ++ [e]) ↔
        [c, f].Sublist before ∨ f = e ∧ c ∈ before := by
      intro c f
      rw [show [c, f] = [c] ++ [f] from rfl, sublist_snoc, List.singleton_sublist]
    simp only [Ledger.after, Bool.or_eq_true, Bool.and_eq_true, ih, committed_iff, snoc]
    constructor
    · rintro (⟨c, f, early, commits, fault⟩ | ⟨fault, c, mem, commits⟩)
      · exact ⟨c, f, .inl early, commits, fault⟩
      · exact ⟨c, e, .inr ⟨rfl, mem⟩, commits, fault⟩
    · rintro ⟨c, f, early | ⟨rfl, mem⟩, commits, fault⟩
      · exact .inl ⟨c, f, early, commits, fault⟩
      · exact .inr ⟨fault, c, mem, commits⟩

theorem buried_iff : (ledger.follow {} events).buried = true ↔ BuriedAfterFault events := by
  unfold BuriedAfterFault
  induction events using List.reverseRecOn with
  | nil => simp [Monitor.follow]
  | append_singleton before e ih =>
    rw [follow_append]
    have snoc : ∀ c f d, [c, f, d].Sublist (before ++ [e]) ↔
        [c, f, d].Sublist before ∨ d = e ∧ [c, f].Sublist before := by
      intro c f d
      rw [show [c, f, d] = [c, f] ++ [d] from rfl, sublist_snoc]
    simp only [Ledger.after, Bool.or_eq_true, Bool.and_eq_true, decide_eq_true_eq, ih, faulted_iff,
      snoc]
    constructor
    · rintro (⟨c, f, d, early, marks⟩ | ⟨dead, c, f, early, commits, fault⟩)
      · exact ⟨c, f, d, .inl early, marks⟩
      · exact ⟨c, f, e, .inr ⟨rfl, early⟩, commits, fault, dead⟩
    · rintro ⟨c, f, d, early | ⟨rfl, early⟩, commits, fault, dead⟩
      · exact .inl ⟨c, f, d, early, commits, fault, dead⟩
      · exact .inr ⟨dead, c, f, early, commits, fault⟩

theorem single_iff : Single events ↔ ∀ d d', (ledger.follow {} events).has d = true →
      (ledger.follow {} events).has d' = true → d = d' := by
  simp only [has_iff]
  constructor
  · rintro single d d' ⟨e, mem, is⟩ ⟨e', mem', is'⟩
    exact single e mem e' mem' d d' is is'
  · intro single e mem e' mem' d d' is is'
    exact single d d' ⟨e, mem, is⟩ ⟨e', mem', is'⟩

section Parts
variable (env : Environment) (cfg : Config)

@[simp]
def succeeded {ε α : Type} : Except ε α → Bool
  | .ok _ => true
  | .error _ => false

def Ledger.completedOnly : Ledger := { completed := true }
def Ledger.copiedOnly : Ledger := { copied := true }
def Ledger.deadOnly : Ledger := { dead := true }
def Ledger.faultyCompleted : Ledger := { completed := true, faulted := true }
def Ledger.faultyCopied : Ledger := { copied := true, faulted := true }

/-- The ledgers in which the try block of `processJob` can end: a failure after a
completion or a copy is one of an acknowledgement or slot release. -/
def Ends (returned : Bool) (l : Ledger) : Prop :=
  if returned then l ∈ [{}, .deadOnly, .copiedOnly, .completedOnly]
  else l ∈ [{}, .deadOnly, .faultyCopied, .faultyCompleted]

def Settled {ε α : Type} (l : Ledger) (outcome : Except ε α) : Prop := Ends (succeeded outcome) l

theorem after_quiet (l : Ledger) {c : Call} {reply : Reply c} (undisposed : disposition ⟨c, reply⟩ = none)
    (sound : faults ⟨c, reply⟩ = false) : l.after c reply = l := by
  simp [Ledger.after, undisposed, sound]

variable {α : Type}

theorem silent_of_aside {x : Program α} (only : Only Aside x) : Silent ledger x := by
  apply only.silent
  intro l c quiet
  refine ⟨trivial, fun r => ?_⟩
  cases c <;> first | exact after_quiet l rfl rfl | cases quiet

variable {l : Ledger} {post : Ledger → Except Failure Unit → Prop}

theorem meets_release (jobId claimToken : String)
    (ends : ∀ outcome, post l outcome) :
    Meets ledger (release jobId claimToken) post l := by
  refine ⟨trivial, fun r => ?_⟩
  have same : ledger.after l (.release jobId claimToken) r = l := by
    cases r <;> exact after_quiet l rfl rfl
  rw [same]
  exact ends r

variable {hook : Program Unit}

theorem meets_callAdapter (quiet : Silent ledger hook)
    (ends : post l (.ok ())) : Meets ledger (callAdapter hook) post l := by
  unfold callAdapter
  rw [meets_rescue]
  apply quiet.meets
  intro outcome
  cases outcome with
  | ok _ => exact ends
  | error _ => exact ends

theorem meets_moveToDlq (job : OutboundJob) (reason : String)
    (written : post { l with dead := true, buried := l.buried || l.faulted } (.ok ()))
    (failed : ∀ e, post l (.error e)) : Meets ledger (moveToDlq job reason) post l := by
  refine ⟨trivial, fun r => ?_⟩
  cases r with
  | ok _ => simpa [ledger, Ledger.after, disposition, faults] using written
  | error e => simpa [ledger, Ledger.after, disposition, faults] using failed e

def Ledger.fault (l : Ledger) : Ledger := { l with faulted := l.faulted || l.committed }

theorem meets_ack (messageId : String)
    (acked : post l (.ok ())) (failed : ∀ e, post l.fault (.error e)) :
    Meets ledger (ack messageId) post l := by
  refine ⟨trivial, fun r => ?_⟩
  cases r with
  | ok _ => simpa [ledger, Ledger.after, disposition, faults] using acked
  | error e => simpa [ledger, Ledger.after, disposition, faults, Ledger.fault] using failed e

theorem meets_deadLetter (messageId : String) (job : OutboundJob) (reason : String)
    (settled : post .deadOnly (.ok ()))
    (failed : ∀ l e, Settled l (.error e : Except Failure Unit) → post l (.error e)) :
    Meets ledger (deadLetter messageId job reason) post {} := by
  unfold deadLetter
  rw [meets_bind]
  apply meets_moveToDlq
  · apply meets_ack
    · exact settled
    · intro e
      exact failed _ e (by simp [Settled, succeeded, Ends, Ledger.fault, Ledger.committed, Ledger.deadOnly])
  · intro e
    exact failed _ e (by simp [Settled, succeeded, Ends])

theorem meets_enqueueOutbound (job : OutboundJob)
    (copied : post .copiedOnly (.ok ())) (failed : ∀ e, post {} (.error e)) :
    Meets ledger (enqueueOutbound env job) post {} := by
  rw [enqueueOutbound_eq, meets_bind]
  apply (silent_of_aside only_clock).meets
  intro reading
  cases reading with
  | error e => exact failed e
  | ok nowMs =>
    rw [then_ok]
    unfold enqueueOne
    split
    · refine ⟨trivial, fun r => ?_⟩
      cases r with
      | ok _ => exact copied
      | error e => exact failed e
    · split
      · refine ⟨trivial, fun r => ?_⟩
        cases r with
        | ok _ => exact copied
        | error e => exact failed e
      · exact failed _

theorem meets_deferOrParkJob (job : OutboundJob) (reason : String) (baseDelayMs : Int)
    (copied : post .copiedOnly (.ok ()))
    (dead : post .deadOnly (.ok ())) (failed : ∀ e, post {} (.error e)) :
    Meets ledger (deferOrParkJob env cfg job reason baseDelayMs) post {} := by
  unfold deferOrParkJob
  dsimp only
  split
  · exact meets_moveToDlq _ _ dead failed
  · rw [meets_bind]
    apply (silent_of_aside (only_notReadyJitter cfg)).meets
    intro jitter
    cases jitter with
    | error e => exact failed e
    | ok jitterMs =>
      rw [then_ok, meets_bind]
      apply (silent_of_aside only_clock).meets
      intro reading
      cases reading with
      | error e => exact failed e
      | ok nowMs => exact meets_enqueueOutbound env _ copied failed

theorem meets_defer (messageId : String) (job : OutboundJob) (reason : String) (baseDelayMs : Int) :
    Meets ledger (defer env cfg messageId job reason baseDelayMs) Settled {} := by
  unfold defer
  rw [meets_bind]
  apply meets_deferOrParkJob
  · apply meets_ack
    · simp [Settled, succeeded, Ends]
    · simp [Settled, succeeded, Ends, Ledger.fault, Ledger.committed, Ledger.copiedOnly,
        Ledger.faultyCopied]
  · apply meets_ack
    · simp [Settled, succeeded, Ends]
    · simp [Settled, succeeded, Ends, Ledger.fault, Ledger.committed, Ledger.deadOnly]
  · simp [Settled, succeeded, Ends]

theorem settled_mapError {ε ε' : Type} {f : ε → ε'} {outcome : Except ε α} :
    Settled l (outcome.mapError f) ↔ Settled l outcome := by
  cases outcome <;> exact Iff.rfl

variable {held : Bool}

theorem meets_claimHeld {body : Program α} {post : Ledger → Except Thrown α → Prop} :
    Meets ledger (claimHeld held body) post l ↔
      Meets ledger body (fun t outcome => post t (outcome.mapError fun failure => ⟨held, failure⟩)) l :=
  meets_mapError

theorem settles_claimHeld {body : Program α}
    (settles : Meets ledger body Settled l) : Meets ledger (claimHeld held body) Settled l := by
  rw [meets_claimHeld]
  apply settles.imp
  intro t outcome settled
  exact settled_mapError.mpr settled

theorem settles_after_silent {β : Type} {first : Program α}
    {rest : α → Guarded β} (quiet : Silent ledger first)
    (settles : ∀ a, Meets ledger (rest a) Settled {}) :
    Meets ledger (claimHeld held first >>= rest) Settled {} := by
  rw [meets_bind, meets_claimHeld]
  apply quiet.meets
  intro outcome
  cases outcome with
  | ok a => exact settles a
  | error e => simp [Except.mapError, Settled, succeeded, Ends]

theorem settles_after_release {β : Type} (jobId claimToken : String)
    {rest : Unit → Guarded β} (settles : ∀ u, Meets ledger (rest u) Settled {}) :
    Meets ledger (claimHeld held (release jobId claimToken) >>= rest) Settled {} := by
  rw [meets_bind, meets_claimHeld]
  apply meets_release
  intro outcome
  cases outcome with
  | ok u => exact settles u
  | error e => simp [Except.mapError, Settled, succeeded, Ends]

theorem settles_deadLetter (messageId : String) (job : OutboundJob) (reason : String) :
    Meets ledger (deadLetter messageId job reason) Settled {} := by
  apply meets_deadLetter
  · simp [Settled, succeeded, Ends]
  · exact fun l e settled => settled

theorem settles_deadLetter_hook (messageId : String) (job : OutboundJob) (reason : String)
    (quiet : Silent ledger hook) :
    Meets ledger (deadLetter messageId job reason >>= fun _ => callAdapter hook) Settled {} := by
  rw [meets_bind]
  apply meets_deadLetter
  · rw [then_ok]
    apply meets_callAdapter quiet
    simp [Settled, succeeded, Ends]
  · exact fun l e settled => settled

variable (messageId claimToken : String)

theorem settles_settleFailure (job : OutboundJob) (result : DeliveryResult) :
    Meets ledger (settleFailure env messageId claimToken job result) Settled {} := by
  unfold settleFailure
  apply settles_after_release
  intro _
  apply settles_claimHeld
  split
  · exact settles_deadLetter_hook _ _ _ (silent_of_aside (only_ask rfl))
  · dsimp only
    split
    · exact settles_deadLetter_hook _ _ _ (silent_of_aside (only_ask rfl))
    · rw [meets_bind]
      apply (silent_of_aside only_clock).meets
      intro reading
      cases reading with
      | error e => simp [Settled, succeeded, Ends]
      | ok nowMs =>
        rw [then_ok, meets_bind]
        apply meets_enqueueOutbound
        · apply meets_ack
          · simp [Settled, succeeded, Ends]
          · simp [Settled, succeeded, Ends, Ledger.fault, Ledger.committed, Ledger.copiedOnly,
              Ledger.faultyCopied]
        · simp [Settled, succeeded, Ends]

theorem settles_settleSuccess (job : OutboundJob) (result : DeliveryResult) :
    Meets ledger (settleSuccess cfg messageId claimToken job result) Settled {} := by
  unfold settleSuccess
  rw [meets_bind, meets_attempt]
  refine ⟨trivial, fun r => ?_⟩
  cases r with
  | error e => simp [ledger, Ledger.after, disposition, faults, Settled, succeeded, Ends]
  | ok u =>
    have marked : ledger.after {} (.complete job.jobId claimToken cfg.deliveryCompletedTtlMs)
        (.ok u) = .completedOnly := rfl
    rw [meets_done, then_ok, marked, meets_bind, meets_claimHeld]
    apply meets_ack
    · change Meets ledger (claimHeld false (callAdapter _) >>= _) Settled .completedOnly
      rw [meets_bind, meets_claimHeld]
      apply meets_callAdapter (silent_of_aside (only_ask rfl))
      change Ends true _
      simp [Ends]
    · intro e
      change Ends false _
      simp [Ends, Ledger.fault, Ledger.committed, Ledger.completedOnly,
        Ledger.faultyCompleted]

theorem settles_deliverInSlot (job : OutboundJob) :
    Meets ledger (deliverInSlot env cfg messageId claimToken job) Settled {} := by
  unfold deliverInSlot
  apply settles_after_silent (silent_of_aside only_clock)
  intro nowMs
  split
  · apply settles_after_release
    intro _
    rw [meets_bind]
    apply (settles_claimHeld (settles_deadLetter _ _ _)).imp
    intro l outcome settled
    cases outcome with
    | ok _ => exact settled
    | error _ => exact settled
  · apply settles_after_silent (silent_of_aside (only_deliver env cfg job))
    intro result
    split
    · exact settles_settleSuccess cfg _ _ _ _
    · rw [meets_bind]
      apply (settles_settleFailure env _ _ _ _).imp
      intro l outcome settled
      cases outcome with
      | ok _ => exact settled
      | error _ => exact settled

theorem ends_fault {returned : Bool} (ends : Ends returned l) :
    Ends false l.fault := by
  cases returned <;>
  · simp only [Ends, if_true, Bool.false_eq_true, if_false, List.mem_cons,
      List.not_mem_nil, or_false] at ends ⊢
    rcases ends with rfl | rfl | rfl | rfl <;> decide

theorem settles_withDomainSlot (job : OutboundJob) :
    Meets ledger (withDomainSlot env cfg messageId claimToken job) Settled {} := by
  unfold withDomainSlot
  rw [meets_bind, meets_attempt]
  apply (settles_deliverInSlot env cfg messageId claimToken job).imp
  intro l outcome settled
  rw [then_ok, meets_bind, meets_claimHeld]
  refine ⟨trivial, fun r => ?_⟩
  cases r with
  | ok _ =>
    have same : ledger.after l (.releaseDomainSlot job.targetDomain) (.ok ()) = l :=
      after_quiet l rfl rfl
    rw [same]
    cases outcome with
    | ok _ => exact settled
    | error _ => exact settled
  | error e =>
    have marked : ledger.after l (.releaseDomainSlot job.targetDomain) (.error e) = l.fault := by
      simp [ledger, Ledger.after, disposition, faults, Ledger.fault]
    rw [marked]
    exact ends_fault settled

theorem settles_processClaimed (job : OutboundJob) :
    Meets ledger (processClaimed env cfg messageId claimToken job) Settled {} := by
  unfold processClaimed
  apply settles_after_silent (silent_of_aside (only_ask rfl))
  intro blocked
  split
  · apply settles_after_release
    exact fun _ => settles_claimHeld (settles_deadLetter _ _ _)
  · apply settles_after_silent (silent_of_aside (only_ask rfl))
    intro withinLimit
    split
    · apply settles_after_release
      exact fun _ => settles_claimHeld (meets_defer env cfg _ _ _ _)
    · apply settles_after_silent (silent_of_aside (only_ask rfl))
      intro slot
      split
      · apply settles_after_release
        exact fun _ => settles_claimHeld (meets_defer env cfg _ _ _ _)
      · exact settles_withDomainSlot env cfg _ _ _

theorem settles_claimAndProcess (job : OutboundJob) :
    Meets ledger (claimAndProcess env cfg messageId claimToken job) Settled {} := by
  unfold claimAndProcess
  have quiet : Silent ledger (.call (.claim job.jobId claimToken cfg.deliveryClaimTtlMs) .done :
      Program DeliveryClaimResult) := by
    intro l
    refine ⟨trivial, fun r => ?_⟩
    cases r <;> exact after_quiet l rfl rfl
  apply settles_after_silent quiet
  intro claimState
  cases claimState with
  | claimed => exact settles_processClaimed env cfg _ _ _
  | completed =>
    apply settles_claimHeld
    apply meets_ack
    · simp [Settled, succeeded, Ends]
    · simp [Settled, succeeded, Ends, Ledger.fault, Ledger.committed]
  | inFlight => exact settles_claimHeld (meets_defer env cfg _ _ _ _)

theorem settles_attemptJob (startedAt : Int) (job : OutboundJob) :
    Meets ledger (attemptJob env cfg messageId claimToken startedAt job) Settled {} := by
  unfold attemptJob
  split
  · exact settles_claimHeld (settles_deadLetter _ _ _)
  · have gating : Only Aside (capabilityGate cfg) := only_capabilityGate cfg
    apply settles_after_silent (silent_of_aside gating)
    intro gate
    split
    · exact settles_claimHeld (settles_deadLetter _ _ _)
    · apply settles_after_silent (silent_of_aside (only_waitUntilReady job))
      intro pending
      split
      · simp [Settled, succeeded, Ends]
      · exact settles_claimAndProcess env cfg _ _ _

def Fair (l : Ledger) : Prop :=
  (∀ d d', l.has d = true → l.has d' = true → d = d') ↔ l.buried = false

theorem fair_of_ends (returned : Bool) (ends : Ends returned l) : Fair l := by
  have single : ∀ l ∈ [({} : Ledger), .deadOnly, .copiedOnly, .completedOnly, .faultyCopied,
      .faultyCompleted], Fair l := by
    simp only [List.mem_cons, List.not_mem_nil, or_false, forall_eq_or_imp, forall_eq]
    refine ⟨?_, ?_, ?_, ?_, ?_, ?_⟩ <;>
    · refine ⟨fun _ => rfl, fun _ d d' has has' => ?_⟩
      cases d <;> cases d' <;>
        first | rfl | exact absurd has (by decide) | exact absurd has' (by decide)
  cases returned <;> simp only [Ends, if_true, Bool.false_eq_true, if_false] at ends <;>
  · apply single
    simp only [List.mem_cons, List.not_mem_nil, or_false] at ends ⊢
    tauto

theorem fair_of_buried (ends : Ends false l) :
    Fair { l with dead := true, buried := l.buried || l.faulted } := by
  simp only [Ends, Bool.false_eq_true, if_false, List.mem_cons, List.not_mem_nil, or_false] at ends
  rcases ends with rfl | rfl | rfl | rfl
  · exact fair_of_ends true (by simp [Ends, Ledger.deadOnly])
  · exact fair_of_ends true (by simp [Ends, Ledger.deadOnly])
  · refine ⟨fun single => absurd (single .copied .dead rfl rfl) (by decide), fun h => ?_⟩
    cases h
  · refine ⟨fun single => absurd (single .completed .dead rfl rfl) (by decide), fun h => ?_⟩
    cases h

theorem fair_fault : Fair l.fault ↔ Fair l := by
  have same : ∀ d, l.fault.has d = l.has d := fun d => by cases d <;> rfl
  simp only [Fair, same]
  exact Iff.rfl

theorem meets_recover (job : OutboundJob) (thrown : Thrown) (ends : Ends false l) :
    Meets ledger (recover env messageId claimToken job thrown) (fun t _ => Fair t) l := by
  have buries : Meets ledger (do
      moveToDlq { job with lastError := some (env.sanitizeErrorText thrown.failure.message) }
        ("Worker processing error: " ++ env.sanitizeErrorText thrown.failure.message)
      ack messageId) (fun t _ => Fair t) l := by
    rw [meets_bind]
    apply meets_moveToDlq
    · apply meets_ack
      · exact fair_of_buried ends
      · exact fun _ => fair_fault.mpr (fair_of_buried ends)
    · exact fun _ => fair_of_ends _ ends
  unfold recover
  dsimp only
  split
  · rw [meets_bind]
    have released : Silent ledger (release job.jobId claimToken) :=
      fun t => meets_release _ _ fun _ => rfl
    exact meets_callAdapter released buries
  · exact buries

theorem meets_processJob (messageId : String) (job : OutboundJob) :
    Meets ledger (processJob env cfg messageId job) (fun t _ => Fair t) {} := by
  unfold processJob
  rw [meets_bind]
  apply (silent_of_aside only_clock).meets
  intro reading
  cases reading with
  | error e => exact fair_of_ends true (by simp [Ends])
  | ok startedAt =>
    rw [then_ok, meets_bind]
    apply (silent_of_aside (only_ask rfl)).meets
    intro drawn
    cases drawn with
    | error e => exact fair_of_ends true (by simp [Ends])
    | ok claimToken =>
      rw [then_ok, meets_rescue]
      apply (settles_attemptJob env cfg messageId claimToken startedAt job).imp
      intro l outcome settled
      cases outcome with
      | ok _ => exact fair_of_ends _ settled
      | error thrown => exact meets_recover env messageId claimToken job thrown settled

end Parts

def plainRuntime : Runtime where
  stringify _ := ""
  parse _ := .error "unused"
  cjsonDecode _ := none
  cjsonEncode _ := ""
  reprint n := n
  numberToString _ := ""
  parseInt _ := 0
  luaToString _ := ""
  numeral _ := false

def plainEnvironment : Environment where
  rt := plainRuntime
  codec := ⟨.ok, .ok⟩
  testMode := false
  isSafeTargetInboxUrl _ := true
  host url := url
  sanitizeErrorText text := text
  parseRetryAfterMs _ _ := none
  isFollowersAddressedActivity _ _ := false
  extractActorIdentifier _ := none
  normalizeOutboundTargetUrl url := some url
  sidecarOwnedActor _ := none

def plainConfig : Config where
  maxConcurrentPerDomain := 10
  userAgent := "sidecar"
  notReadyMaxRequeues := 32
  notReadyMinDelayMs := 500
  notReadyJitterMs := 250
  deliveryClaimTtlMs := 120000
  deliveryCompletedTtlMs := 86400000
  capabilityGate := false
  adapterDelivers := false
  followersSyncService := false
  permanentFailureStatusCodes := []

def deliverableJob : OutboundJob :=
  ⟨"note::inbox", "note", "https://a.example/alice", "\x7b\x7d", "https://b.example/inbox",
    "b.example", 0, 10, 0, none, none, some (.obj [("apdmFirstQueuedAtMs", .num 1)])⟩

def ackFails : (c : Call) → Reply c
  | .now => 1
  | .jitter _ => 0
  | .randomUUID => "token"
  | .sleep _ => ()
  | .capabilityGate _ => .ok ⟨true, none, none⟩
  | .claim .. => .ok .claimed
  | .isDomainBlocked _ => .ok false
  | .checkDomainRateLimit _ | .acquireDomainSlot .. => .ok true
  | .signOne .. => .ok (.ok ⟨"now", none, "signed"⟩)
  | .localSign .. => .ok ⟨"now", none, "signed"⟩
  | .buildSyncHeader .. => .ok none
  | .request .. => .ok ⟨202, none⟩
  | .readBody => .ok none
  | .ack _ => .error (.other "connection lost")
  | .complete .. | .release .. | .releaseDomainSlot _ | .validateActivityPubTarget _
  | .addReady _ | .storeDelayedOutbound _ | .parkDelayedOutbound .. | .moveToDlq ..
  | .onOutboundDelivered .. | .onOutboundPermanentFailure .. => .ok ()

end MastopodFederation.Guarantees.OneDisposition
