import Mathlib
import MastopodFederation.Lib.WorkerPool

/-!
# Running a pool along a schedule

A pool whose calls and events are computed by functions, and whose workers run a program
given by their tag, is a machine: a list of turns either leads to a state or is refused.
What it leads to, the pool reaches.
-/
namespace MastopodFederation.Lib.PoolRuns
open Calls GuardedRun WorkerPool

variable {C : Type} {R : C → Type} {ε α σ τ η : Type}

structure Schedule (σ τ η : Type) (C : Type) (R : C → Type) (ε α : Type) where
  perform : τ → (c : C) → σ → Option (R c × σ)
  boot : τ → Prog C R ε α
  admits : σ → τ → Bool
  react : η → σ → Option σ

inductive Turn (τ η : Type) where
  | call (i : Nat)
  | stop (i : Nat)
  | start (i : Nat) (tag : τ)
  | act (event : η)

variable {schedule : Schedule σ τ η C R ε α} {system : System σ τ η C R ε α}

structure Schedule.Follows (schedule : Schedule σ τ η C R ε α) (system : System σ τ η C R ε α) :
    Prop where
  perform : ∀ tag c shared reply after, schedule.perform tag c shared = some (reply, after) →
    system.effect tag c shared reply after
  admits : ∀ shared tag, schedule.admits shared tag = true →
    system.starts shared ⟨tag, schedule.boot tag⟩
  react : ∀ event shared after, schedule.react event shared = some after →
    system.acts event shared after

def Turn.label (schedule : Schedule σ τ η C R ε α) : Turn τ η → Label τ η C R ε α
  | .call i => .call i
  | .stop i => .stop i
  | .start i tag => .start i ⟨tag, schedule.boot tag⟩
  | .act event => .act event

def next (schedule : Schedule σ τ η C R ε α) (pool : Pool σ τ C R ε α) :
    Turn τ η → Option (Pool σ τ C R ε α)
  | .call i =>
    match pool.workers i with
    | some ⟨tag, .call c k⟩ =>
      (schedule.perform tag c pool.shared).map fun outcome =>
        ⟨outcome.2, setWorker pool.workers i (some ⟨tag, k outcome.1⟩)⟩
    | _ => none
  | .stop i => some ⟨pool.shared, setWorker pool.workers i none⟩
  | .start i tag =>
    if (pool.workers i).isNone && schedule.admits pool.shared tag then
      some ⟨pool.shared, setWorker pool.workers i (some ⟨tag, schedule.boot tag⟩)⟩
    else none
  | .act event => (schedule.react event pool.shared).map fun shared => ⟨shared, pool.workers⟩

theorem step_of_next (follows : schedule.Follows system) {pool after : Pool σ τ C R ε α}
    {turn : Turn τ η} (moved : next schedule pool turn = some after) :
    Step system pool (turn.label schedule) after := by
  cases turn with
  | call i =>
    simp only [next] at moved
    split at moved
    next tag c k running =>
      obtain ⟨⟨reply, shared⟩, picked, rfl⟩ := Option.map_eq_some_iff.mp moved
      exact .call running (follows.perform _ _ _ _ _ picked)
    next => nomatch moved
  | stop i =>
    cases moved
    exact .stop i
  | start i tag =>
    simp only [next, Bool.and_eq_true, Option.isNone_iff_eq_none] at moved
    split at moved
    next free =>
      cases moved
      exact .start free.1 (follows.admits _ _ free.2)
    next => nomatch moved
  | act event =>
    obtain ⟨shared, picked, rfl⟩ := Option.map_eq_some_iff.mp moved
    exact .act (follows.react _ _ _ picked)

section Run
variable {guard : Pool σ τ C R ε α → Label τ η C R ε α → Prop}
  [∀ pool turn, Decidable (guard pool (Turn.label schedule turn))]

def follow (schedule : Schedule σ τ η C R ε α)
    (guard : Pool σ τ C R ε α → Label τ η C R ε α → Prop)
    [∀ pool turn, Decidable (guard pool (Turn.label schedule turn))] (pool : Pool σ τ C R ε α)
    (turns : List (Turn τ η)) : Option (Pool σ τ C R ε α) :=
  runGuarded (next schedule) (fun p turn => guard p (Turn.label schedule turn)) pool turns

variable {pool after : Pool σ τ C R ε α} {turns : List (Turn τ η)}

theorem reaches_of_follow (follows : schedule.Follows system)
    (ran : follow schedule guard pool turns = some after) :
    Reaches (Step system) guard pool after := by
  have run := reaches_of_runGuarded turns pool after ran
  clear ran
  induction run with
  | refl => exact .refl
  | tail _ last before =>
    obtain ⟨turn, admitted, moved⟩ := last
    exact before.tail admitted (step_of_next follows moved)

theorem reaches_of_schedule {ν : Type} (view : σ → ν) (follows : schedule.Follows system)
    {seen : ν} (turns : List (Turn τ η))
    (ran : (follow schedule guard pool turns).map (fun p => view p.shared) = some seen) :
    ∃ after, Reaches (Step system) guard pool after ∧ view after.shared = seen := by
  obtain ⟨after, reached, ends⟩ := Option.map_eq_some_iff.mp ran
  exact ⟨after, reaches_of_follow follows reached, ends⟩

theorem reaches_of_schedules {ν : Type} (view : σ → ν) (follows : schedule.Follows system)
    {seen later : ν} (first second : List (Turn τ η))
    (ran : ((follow schedule guard pool first).bind fun p =>
      (follow schedule guard p second).map fun q => (view p.shared, view q.shared)) =
        some (seen, later)) : ∃ before after, Reaches (Step system) guard pool before ∧
      Reaches (Step system) guard before after ∧ view before.shared = seen ∧
      view after.shared = later := by
  obtain ⟨before, reached, rest⟩ := Option.bind_eq_some_iff.mp ran
  obtain ⟨after, continued, ends⟩ := Option.map_eq_some_iff.mp rest
  cases ends
  exact ⟨before, after, reaches_of_follow follows reached, reaches_of_follow follows continued,
    rfl, rfl⟩

def finished : Option (Worker τ C R ε α) → Bool
  | none | some ⟨_, .done _⟩ => true
  | some ⟨_, .call ..⟩ => false

theorem ends_of_finished {m : Monitor C R S} {ends : S → Prop} {duty : Option (τ × S)}
    {worker : Option (Worker τ C R ε α)} {d : τ × S} (matched : Matches m ends duty worker)
    (ended : finished worker = true) (held : duty = some d) : ends d.2 := by
  cases worker with
  | none =>
    rw [(matched : duty = none)] at held
    nomatch held
  | some worker =>
    obtain ⟨tag, program⟩ := worker
    obtain ⟨s, same, obeys⟩ := matched
    rw [same] at held
    cases held
    cases program with
    | done outcome => exact obeys
    | call c next => nomatch ended

theorem untouched_of_next {turn : Turn τ η} {j : Nat}
    (moved : next schedule pool turn = some after) (idle : pool.workers j = none)
    (other : ∀ tag, turn ≠ .start j tag) : after.workers j = none := by
  cases turn with
  | call i =>
    simp only [next] at moved
    split at moved
    next tag c k running =>
      obtain ⟨outcome, -, rfl⟩ := Option.map_eq_some_iff.mp moved
      have apart : j ≠ i := by
        rintro rfl
        rw [idle] at running
        cases running
      simpa [setWorker, apart] using idle
    next => cases moved
  | stop i =>
    cases moved
    simp only [setWorker]
    split
    · rfl
    · exact idle
  | start i tag =>
    simp only [next] at moved
    split at moved
    next =>
      cases moved
      have apart : j ≠ i := by
        rintro rfl
        exact other tag rfl
      simpa [setWorker, apart] using idle
    next => cases moved
  | act event =>
    obtain ⟨shared, -, rfl⟩ := Option.map_eq_some_iff.mp moved
    exact idle

theorem untouched_of_follow {j : Nat} :
    ∀ (turns : List (Turn τ η)) {pool after : Pool σ τ C R ε α},
      follow schedule guard pool turns = some after → pool.workers j = none →
      (∀ tag, .start j tag ∉ turns) → after.workers j = none
  | [], pool, after, ran, idle, _ => by
    cases ran
    exact idle
  | turn :: turns, pool, after, ran, idle, other => by
    simp only [follow, runGuarded, Option.ite_none_right_eq_some, Option.bind_eq_some_iff] at ran
    obtain ⟨-, mid, first, later⟩ := ran
    have still : mid.workers j = none := untouched_of_next first idle fun tag same =>
      other tag (same ▸ List.mem_cons_self)
    exact untouched_of_follow turns later still fun tag listed =>
      other tag (List.mem_cons_of_mem _ listed)

def Turn.below (n : Nat) : Turn τ η → Bool
  | .start i _ => i < n
  | _ => true

theorem vacant_of_next {turn : Turn τ η} {n : Nat}
    (moved : next schedule pool turn = some after) (below : Turn.below n turn = true)
    (vacant : ∀ j, n ≤ j → pool.workers j = none) (j : Nat) (above : n ≤ j) :
    after.workers j = none := by
  apply untouched_of_next moved (vacant j above)
  rintro tag rfl
  have early : j < n := of_decide_eq_true below
  omega

/-- A schedule that only gives work to places below a number, under a guard that follows from
one the machine can evaluate because all other places are vacant. -/
theorem reaches_of_follow_below {n : Nat}
    {wide : Pool σ τ C R ε α → Label τ η C R ε α → Prop} (follows : schedule.Follows system)
    (implies : ∀ pool label, (∀ j, n ≤ j → pool.workers j = none) → guard pool label →
      wide pool label) :
    ∀ (turns : List (Turn τ η)) {pool after : Pool σ τ C R ε α},
      (∀ j, n ≤ j → pool.workers j = none) → turns.all (Turn.below n) = true →
      follow schedule guard pool turns = some after → Reaches (Step system) wide pool after
  | [], pool, after, _, _, ran => by
    cases ran
    exact .refl
  | turn :: turns, pool, after, vacant, below, ran => by
    simp only [follow, runGuarded, Option.ite_none_right_eq_some, Option.bind_eq_some_iff] at ran
    obtain ⟨admitted, mid, first, later⟩ := ran
    rw [List.all_cons, Bool.and_eq_true] at below
    have one : Reaches (Step system) wide pool mid :=
      Reaches.refl.tail (implies pool _ vacant admitted) (step_of_next follows first)
    exact one.trans (reaches_of_follow_below follows implies turns
      (vacant_of_next first below.1 vacant) below.2 later)

theorem quiet_of_follow {shared : σ} {n : Nat}
    (ran : follow schedule guard (Pool.idle shared) turns = some after)
    (below : turns.all (Turn.below n) = true)
    (ended : (List.range n).all (fun j => finished (after.workers j)) = true) (j : Nat) :
    finished (after.workers j) = true := by
  by_cases early : j < n
  · exact List.all_eq_true.mp ended j (List.mem_range.mpr early)
  · have unstarted : ∀ tag, Turn.start j tag ∉ turns := by
      intro tag listed
      have started := List.all_eq_true.mp below _ listed
      exact early (of_decide_eq_true started)
    rw [untouched_of_follow turns ran rfl unstarted]
    rfl

end Run

def serve (perform : (c : C) → σ → Option (R c × σ)) :
    Prog C R ε α → σ → Option (Except ε α × σ)
  | .done outcome, shared => some (outcome, shared)
  | .call c next, shared =>
    (perform c shared).bind fun outcome => serve perform (next outcome.1) outcome.2

theorem reaches_served {guard : Pool σ τ C R ε α → Label τ η C R ε α → Prop} {tag : τ}
    {perform : (c : C) → σ → Option (R c × σ)}
    (follows : ∀ c shared reply after, perform c shared = some (reply, after) →
      system.effect tag c shared reply after)
    (admitted : ∀ pool, guard pool (.call 0)) :
    ∀ (program : Prog C R ε α) (shared after : σ) (outcome : Except ε α),
      serve perform program shared = some (outcome, after) →
      Reaches (Step system) guard (Pool.single shared tag program)
        (Pool.single after tag (.done outcome)) := by
  intro program
  induction program with
  | done outcome =>
    intro shared after ending served
    cases served
    exact .refl
  | call c next ih =>
    intro shared after outcome served
    obtain ⟨⟨reply, middle⟩, performed, later⟩ := Option.bind_eq_some_iff.mp served
    have first : Reaches (Step system) guard (Pool.single shared tag (.call c next))
        (Pool.single middle tag (next reply)) :=
      reaches_call .refl (admitted _) (follows c shared reply middle performed)
    exact first.trans (ih reply middle after outcome later)

end MastopodFederation.Lib.PoolRuns
