import MastopodFederation.Lib.Calls
import MastopodFederation.Lib.GuardedRun

/-!
# Workers that share a state

Workers run programs whose calls read and change a shared state, one call at a time and in any
order; a worker can crash before any call, new workers can start and the environment can act.
The invariant rule reduces a property of all reachable states to one fact for each call a
monitor allows.
-/
namespace MastopodFederation.Lib.WorkerPool
open Calls GuardedRun

variable {C : Type} {R : C → Type} {ε α σ τ η S : Type}

structure Worker (τ : Type) (C : Type) (R : C → Type) (ε α : Type) where
  tag : τ
  program : Prog C R ε α

structure Pool (σ τ : Type) (C : Type) (R : C → Type) (ε α : Type) where
  shared : σ
  workers : Nat → Option (Worker τ C R ε α)

/-- What the calls do to the shared state, which workers can start and what the
environment does. -/
structure System (σ τ η : Type) (C : Type) (R : C → Type) (ε α : Type) where
  effect : τ → (c : C) → σ → R c → σ → Prop
  starts : σ → Worker τ C R ε α → Prop
  acts : η → σ → σ → Prop

inductive Label (τ η : Type) (C : Type) (R : C → Type) (ε α : Type) where
  /-- the worker makes its next call -/
  | call (i : Nat)
  /-- the worker crashes, or is forgotten after its end -/
  | stop (i : Nat)
  | start (i : Nat) (worker : Worker τ C R ε α)
  | act (event : η)

def setWorker (workers : Nat → Option (Worker τ C R ε α)) (i : Nat)
    (worker : Option (Worker τ C R ε α)) : Nat → Option (Worker τ C R ε α) :=
  fun j => if j = i then worker else workers j

inductive Step (system : System σ τ η C R ε α) :
    Pool σ τ C R ε α → Label τ η C R ε α → Pool σ τ C R ε α → Prop where
  | call {pool : Pool σ τ C R ε α} {i : Nat} {tag : τ} {c : C} {next : R c → Prog C R ε α}
      {reply : R c} {shared : σ} (running : pool.workers i = some ⟨tag, .call c next⟩)
      (performs : system.effect tag c pool.shared reply shared) :
      Step system pool (.call i) ⟨shared, setWorker pool.workers i (some ⟨tag, next reply⟩)⟩
  | stop {pool : Pool σ τ C R ε α} (i : Nat) :
      Step system pool (.stop i) ⟨pool.shared, setWorker pool.workers i none⟩
  | start {pool : Pool σ τ C R ε α} {i : Nat} {worker : Worker τ C R ε α}
      (free : pool.workers i = none) (admitted : system.starts pool.shared worker) :
      Step system pool (.start i worker) ⟨pool.shared, setWorker pool.workers i (some worker)⟩
  | act {pool : Pool σ τ C R ε α} {event : η} {shared : σ}
      (acted : system.acts event pool.shared shared) :
      Step system pool (.act event) ⟨shared, pool.workers⟩

def Pool.idle (shared : σ) : Pool σ τ C R ε α := ⟨shared, fun _ => none⟩

section Runs
variable {system : System σ τ η C R ε α} {guard : Pool σ τ C R ε α → Label τ η C R ε α → Prop}
  {pool : Pool σ τ C R ε α} {shared after : σ}

theorem reaches_act {before : Pool σ τ C R ε α} (run : Reaches (Step system) guard pool before)
    {event : η} (admitted : guard before (.act event))
    (acted : system.acts event before.shared after) :
    Reaches (Step system) guard pool ⟨after, before.workers⟩ :=
  run.tail admitted (.act acted)

def Pool.single (shared : σ) (tag : τ) (program : Prog C R ε α) : Pool σ τ C R ε α :=
  ⟨shared, fun j => if j = 0 then some ⟨tag, program⟩ else none⟩

variable {tag : τ} {program : Prog C R ε α}

theorem reaches_start (run : Reaches (Step system) guard pool (Pool.idle shared))
    (admitted : guard (Pool.idle shared) (.start 0 ⟨tag, program⟩))
    (starts : system.starts shared ⟨tag, program⟩) :
    Reaches (Step system) guard pool (Pool.single shared tag program) :=
  run.tail admitted (.start rfl starts)

theorem reaches_call {c : C} {next : R c → Prog C R ε α} {r : R c}
    (run : Reaches (Step system) guard pool (Pool.single shared tag (.call c next)))
    (admitted : guard (Pool.single shared tag (.call c next)) (.call 0))
    (performs : system.effect tag c shared r after) :
    Reaches (Step system) guard pool (Pool.single after tag (next r)) := by
  have step : Step system (Pool.single shared tag (.call c next)) (.call 0) _ :=
    .call rfl performs
  have same : setWorker (Pool.single shared tag (.call c next)).workers 0 (some ⟨tag, next r⟩) =
      (Pool.single after tag (next r)).workers := by
    funext j
    by_cases only : j = 0 <;> simp [setWorker, Pool.single, only]
  rw [same] at step
  exact run.tail admitted step

theorem reaches_stop (run : Reaches (Step system) guard pool (Pool.single shared tag program))
    (admitted : guard (Pool.single shared tag program) (.stop 0)) :
    Reaches (Step system) guard pool (Pool.idle shared) := by
  have step : Step system (Pool.single shared tag program) (.stop 0) _ := .stop 0
  have same : setWorker (Pool.single shared tag program).workers 0 none = fun _ => none := by
    funext j
    by_cases only : j = 0 <;> simp [setWorker, Pool.single, only]
  rw [same] at step
  exact run.tail admitted step

end Runs

section Invariant
variable {system : System σ τ η C R ε α} {guard : Pool σ τ C R ε α → Label τ η C R ε α → Prop}
  {m : Monitor C R S} {I : σ → (Nat → Option (τ × S)) → Prop}

def setDuty (duties : Nat → Option (τ × S)) (i : Nat) (duty : Option (τ × S)) :
    Nat → Option (τ × S) :=
  fun j => if j = i then duty else duties j

theorem setDuty_some {duties : Nat → Option (τ × S)} {i j : Nat} {duty : Option (τ × S)}
    {d : τ × S} (held : setDuty duties i duty j = some d) :
    (j = i ∧ duty = some d) ∨ (j ≠ i ∧ duties j = some d) := by
  unfold setDuty at held
  split at held
  next same => exact .inl ⟨same, held⟩
  next other => exact .inr ⟨other, held⟩

theorem of_setDuty_none {duties : Nat → Option (τ × S)} {i j : Nat} {d : τ × S}
    (held : setDuty duties i none j = some d) : duties j = some d := by
  rcases setDuty_some held with ⟨-, none⟩ | ⟨-, before⟩
  · nomatch none
  · exact before

theorem setDuty_self (duties : Nat → Option (τ × S)) (i : Nat) :
    setDuty duties i (duties i) = duties := by
  funext j
  unfold setDuty
  split
  next same => rw [same]
  next => rfl

def Obeys (m : Monitor C R S) (program : Prog C R ε α) (s : S) : Prop :=
  Meets m program (fun _ _ => True) s

def ObeysTo (m : Monitor C R S) (ends : S → Prop) (program : Prog C R ε α) (s : S) : Prop :=
  Meets m program (fun t _ => ends t) s

/-- Every worker runs a program that obeys the monitor from a state of its own, and the
shared state and these states meet the invariant. -/
def Watched (m : Monitor C R S) (I : σ → (Nat → Option (τ × S)) → Prop)
    (pool : Pool σ τ C R ε α) : Prop :=
  ∃ duties : Nat → Option (τ × S), I pool.shared duties ∧
    ∀ i, match pool.workers i with
      | none => duties i = none
      | some worker => ∃ s, duties i = some (worker.tag, s) ∧ Obeys m worker.program s

/-- The duty is that of a worker whose program obeys the monitor and ends in one of these
states. -/
def Matches (m : Monitor C R S) (ends : S → Prop) (duty : Option (τ × S)) :
    Option (Worker τ C R ε α) → Prop
  | none => duty = none
  | some worker => ∃ s, duty = some (worker.tag, s) ∧ ObeysTo m ends worker.program s

def WatchedTo (m : Monitor C R S) (ends : S → Prop) (I : σ → (Nat → Option (τ × S)) → Prop)
    (pool : Pool σ τ C R ε α) : Prop :=
  ∃ duties : Nat → Option (τ × S), I pool.shared duties ∧
    ∀ i, Matches m ends (duties i) (pool.workers i)

/-- What a system has to guarantee for an invariant of the shared state and the monitors
of the workers. -/
structure Preserves (system : System σ τ η C R ε α)
    (guard : Pool σ τ C R ε α → Label τ η C R ε α → Prop) (m : Monitor C R S)
    (I : σ → (Nat → Option (τ × S)) → Prop) : Prop where
  call : ∀ shared duties i tag s c reply after, I shared duties → duties i = some (tag, s) →
    m.allows s c → system.effect tag c shared reply after →
    I after (setDuty duties i (some (tag, m.after s c reply)))
  stop : ∀ shared duties i, I shared duties → I shared (setDuty duties i none)
  start : ∀ pool duties i worker, guard pool (.start i worker) → I pool.shared duties →
    duties i = none → system.starts pool.shared worker →
    ∃ s, Obeys m worker.program s ∧ I pool.shared (setDuty duties i (some (worker.tag, s)))
  act : ∀ pool duties event after, guard pool (.act event) → I pool.shared duties →
    system.acts event pool.shared after → I after duties

structure PreservesMoves (system : System σ τ η C R ε α)
    (guard : Pool σ τ C R ε α → Label τ η C R ε α → Prop) (m : Monitor C R S) (ends : S → Prop)
    (I : σ → (Nat → Option (τ × S)) → Prop) : Prop where
  stop : ∀ pool duties i, guard pool (.stop i) → I pool.shared duties →
    Matches m ends (duties i) (pool.workers i) → I pool.shared (setDuty duties i none)
  start : ∀ pool duties i worker, guard pool (.start i worker) → I pool.shared duties →
    duties i = none → system.starts pool.shared worker →
    ∃ s, ObeysTo m ends worker.program s ∧
      I pool.shared (setDuty duties i (some (worker.tag, s)))
  act : ∀ pool duties event after, guard pool (.act event) → I pool.shared duties →
    system.acts event pool.shared after → I after duties

structure PreservesTo (system : System σ τ η C R ε α)
    (guard : Pool σ τ C R ε α → Label τ η C R ε α → Prop) (m : Monitor C R S) (ends : S → Prop)
    (I : σ → (Nat → Option (τ × S)) → Prop) : Prop extends PreservesMoves system guard m ends I where
  call : ∀ pool duties i tag s c reply after, guard pool (.call i) → I pool.shared duties →
    duties i = some (tag, s) → m.allows s c → system.effect tag c pool.shared reply after →
    I after (setDuty duties i (some (tag, m.after s c reply)))

structure PreservesAt (system : System σ τ η C R ε α)
    (guard : Pool σ τ C R ε α → Label τ η C R ε α → Prop) (m : Monitor C R S) (ends : S → Prop)
    (I : σ → (Nat → Option (τ × S)) → Prop) : Prop extends PreservesMoves system guard m ends I where
  call : ∀ pool duties i tag s c next reply after, guard pool (.call i) → I pool.shared duties →
    pool.workers i = some ⟨tag, .call c next⟩ → duties i = some (tag, s) → m.allows s c →
    system.effect tag c pool.shared reply after →
    I after (setDuty duties i (some (tag, m.after s c reply)))

structure PreservesAll (system : System σ τ η C R ε α)
    (guard : Pool σ τ C R ε α → Label τ η C R ε α → Prop) (m : Monitor C R S) (ends : S → Prop)
    (I : σ → (Nat → Option (τ × S)) → Prop) : Prop extends PreservesMoves system guard m ends I where
  call : ∀ pool duties i tag s c next reply after, guard pool (.call i) → I pool.shared duties →
    (∀ j, Matches m ends (duties j) (pool.workers j)) →
    pool.workers i = some ⟨tag, .call c next⟩ → duties i = some (tag, s) → m.allows s c →
    system.effect tag c pool.shared reply after →
    I after (setDuty duties i (some (tag, m.after s c reply)))

variable {ends : S → Prop}

theorem PreservesAt.at_all (preserves : PreservesAt system guard m ends I) :
    PreservesAll system guard m ends I where
  call _ _ _ _ _ _ _ _ _ admitted inv _ := preserves.call _ _ _ _ _ _ _ _ _ admitted inv
  stop := preserves.stop
  start := preserves.start
  act := preserves.act

theorem PreservesTo.at_calls (preserves : PreservesTo system guard m ends I) :
    PreservesAt system guard m ends I where
  call _ _ _ _ _ _ _ _ _ admitted inv _ := preserves.call _ _ _ _ _ _ _ _ admitted inv
  stop := preserves.stop
  start := preserves.start
  act := preserves.act

variable {pool : Pool σ τ C R ε α}

theorem watched_iff :
    Watched m I pool ↔ WatchedTo m (fun _ => True) I pool := by
  unfold Watched WatchedTo
  apply exists_congr
  intro duties
  apply and_congr_right'
  apply forall_congr'
  intro i
  cases pool.workers i <;> exact Iff.rfl

theorem Preserves.unguarded (preserves : Preserves system guard m I) :
    PreservesTo system guard m (fun _ => True) I where
  call _ _ _ _ _ _ _ _ _ := preserves.call _ _ _ _ _ _ _ _
  stop _ _ _ _ inv _ := preserves.stop _ _ _ inv
  start := preserves.start
  act := preserves.act

section Ends
variable {ends : S → Prop}

variable {pool : Pool σ τ C R ε α}

theorem watched_set {duties : Nat → Option (τ × S)} {shared : σ}
    {i : Nat} {worker : Option (Worker τ C R ε α)} {duty : Option (τ × S)}
    (watched : ∀ j, Matches m ends (duties j) (pool.workers j))
    (kept : I shared (setDuty duties i duty)) (here : Matches m ends duty worker) :
    WatchedTo m ends I (⟨shared, setWorker pool.workers i worker⟩ : Pool σ τ C R ε α) := by
  refine ⟨_, kept, fun j => ?_⟩
  by_cases same : j = i
  · simp only [setWorker, setDuty, if_pos same]
    exact here
  · simp only [setWorker, setDuty, if_neg same]
    exact watched j

variable {after : Pool σ τ C R ε α}

theorem watchedAll_step (preserves : PreservesAll system guard m ends I)
    {label : Label τ η C R ε α} (admitted : guard pool label)
    (step : Step system pool label after) (watched : WatchedTo m ends I pool) :
    WatchedTo m ends I after := by
  obtain ⟨duties, kept, obeyed⟩ := watched
  cases step with
  | call running performs =>
    rename_i i tag c next reply shared
    have obeying := obeyed i
    rw [running] at obeying
    obtain ⟨s, duty, allowed, later⟩ := obeying
    have kept' :=
      preserves.call _ _ _ _ _ _ _ _ _ admitted kept obeyed running duty allowed performs
    exact watched_set obeyed kept' ⟨_, rfl, later reply⟩
  | stop i => exact watched_set obeyed (preserves.stop _ _ i admitted kept (obeyed i)) rfl
  | start free starts =>
    rename_i i worker
    have unused := obeyed i
    rw [free] at unused
    obtain ⟨s, obeys, started⟩ := preserves.start _ _ _ _ admitted kept unused starts
    exact watched_set obeyed started ⟨s, rfl, obeys⟩
  | act acted => exact ⟨duties, preserves.act _ _ _ _ admitted kept acted, obeyed⟩

theorem watchedAll_run (preserves : PreservesAll system guard m ends I)
    (run : Reaches (Step system) guard pool after)
    (watched : WatchedTo m ends I pool) : WatchedTo m ends I after := by
  apply run.invariant (I := WatchedTo m ends I)
  · exact fun s e t watched admitted step => watchedAll_step preserves admitted step watched
  · exact watched

theorem watchedAt_run (preserves : PreservesAt system guard m ends I)
    (run : Reaches (Step system) guard pool after)
    (watched : WatchedTo m ends I pool) : WatchedTo m ends I after :=
  watchedAll_run preserves.at_all run watched

theorem watchedTo_run (preserves : PreservesTo system guard m ends I)
    (run : Reaches (Step system) guard pool after)
    (watched : WatchedTo m ends I pool) : WatchedTo m ends I after :=
  watchedAt_run preserves.at_calls run watched

theorem watchedTo_idle {shared : σ} (start : I shared fun _ => none) :
    WatchedTo m ends I (Pool.idle shared : Pool σ τ C R ε α) :=
  ⟨fun _ => none, start, fun _ => rfl⟩

end Ends

theorem watched_run (preserves : Preserves system guard m I) {after : Pool σ τ C R ε α}
    (run : Reaches (Step system) guard pool after) (watched : Watched m I pool) :
    Watched m I after := by
  rw [watched_iff] at watched ⊢
  exact watchedTo_run preserves.unguarded run watched

variable {shared : σ}

theorem watched_idle (start : I shared fun _ => none) :
    Watched m I (Pool.idle shared : Pool σ τ C R ε α) :=
  ⟨fun _ => none, start, fun _ => rfl⟩

theorem invariantAt (preserves : PreservesAt system guard m ends I)
    (start : I shared fun _ => none)
    (run : Reaches (Step system) guard (Pool.idle shared) pool) :
    ∃ duties, I pool.shared duties := by
  obtain ⟨duties, kept, -⟩ := watchedAt_run preserves run (watchedTo_idle (m := m) start)
  exact ⟨duties, kept⟩

theorem invariant (preserves : Preserves system guard m I)
    (start : I shared fun _ => none)
    (run : Reaches (Step system) guard (Pool.idle shared) pool) :
    ∃ duties, I pool.shared duties := by
  obtain ⟨duties, kept, -⟩ := watched_run preserves run (watched_idle (m := m) start)
  exact ⟨duties, kept⟩

end Invariant

end MastopodFederation.Lib.WorkerPool
