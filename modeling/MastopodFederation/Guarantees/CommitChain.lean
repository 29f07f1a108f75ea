import MastopodFederation.Guarantees.CommitRequests
import MastopodFederation.Lib.PoolRuns

/-!
# One chain of commits

The state of a repo is read, a commit is built on it and the state is written back without a lock,
and a failed write is swallowed. As long as an event publishes only while the state it has read is
what the last commit of the repo left, the commits of a repo form one chain.
-/
namespace MastopodFederation.Guarantees.CommitChain
open Lib.GuardedRun Lib.WorkerPool Lib.PoolRuns Source.AtProjectionWorker CommitRequests

def commitsOf (commits : List AtCommit) (did : String) : List AtCommit :=
  commits.filter (·.did = did)

structure Linear (commits : List AtCommit) : Prop where
  revs : commits.Pairwise fun newer older => older.rev < newer.rev
  chained : commits.IsChain fun newer older => newer.prevCommitCid = some older.commitCid

def Latest (commits : List AtCommit) (state : RepositoryState) : Prop :=
  ∀ last ∈ (commitsOf commits state.did).head?,
    state.rev = last.rev ∧ state.rootCid = some last.commitCid

instance (commits : List AtCommit) (state : RepositoryState) : Decidable (Latest commits state) := by
  unfold Latest
  infer_instance

structure Handling where
  place : Nat
  delivery : Delivery
  deriving DecidableEq

structure Shared where
  server : Server
  /-- the places that have read the latest state of a repo since its last commit -/
  current : String → List Nat

namespace Shared

def start (server : Server) : Shared := ⟨server, fun _ => []⟩

def read (s : Shared) (place : Nat) (state : RepositoryState) (did : String) : List Nat :=
  if did = state.did then
    if Latest s.server.commits state then (s.current did).insert place
    else (s.current did).filter (· ≠ place)
  else s.current did

def clear (s : Shared) (repo did : String) : List Nat := if did = repo then [] else s.current did

def note (s : Shared) (place : Nat) (fate : Fate) : Call → String → List Nat
  | .getRepoState _ did =>
    match fate, s.server.repoState did with
    | .answered, some state => s.read place state
    | _, _ => s.current
  | .publishCommit commit => if fate = .refused then s.current else s.clear commit.did
  | _ => s.current

def suffer (s : Shared) (place : Nat) (fate : Fate) (c : Call) : Reply c × Shared :=
  ((s.server.suffer c fate).1, ⟨(s.server.suffer c fate).2, s.note place fate c⟩)

end Shared

inductive Change where
  /-- the identity binding of an account changes -/
  | bind (accountId : String) (binding : Option IdentityBinding)
  /-- the registry entry of a repo expires -/
  | expire (did : String)

def Shared.change (s : Shared) : Change → Shared
  | .bind accountId binding =>
    { s with server := { s.server with
        bindings := fun id => if id = accountId then binding else s.server.bindings id } }
  | .expire did =>
    { s with server := { s.server with
        repos := fun other => if other = did then none else s.server.repos other } }

def projectionSystem (env : Environment) :
    System Shared Handling Change Call Reply Failure Unit where
  effect handling c s reply after := ∃ fate, s.suffer handling.place fate c = (reply, after)
  starts _ worker := worker.program = worker.tag.delivery.program env
  acts event s after := s.change event = after

abbrev ProjectionPool := Pool Shared Handling Call Reply Failure Unit

abbrev ProjectionLabel := Label Handling Change Call Reply Failure Unit

/-- An event publishes only while the state it has read is what the last commit of the repo left,
and before the revs of the repo reach the largest exact number. -/
def Serial (pool : ProjectionPool) : ProjectionLabel → Prop
  | .call i =>
    match pool.workers i with
    | some ⟨handling, .call (.publishCommit commit) _⟩ =>
      handling.place ∈ pool.shared.current commit.did ∧
        ∀ last ∈ (commitsOf pool.shared.server.commits commit.did).head?, last.rev < 2 ^ 53
    | _ => True
  | .start i worker => worker.tag.place = i
  | _ => True

instance (pool : ProjectionPool) (label : ProjectionLabel) : Decidable (Serial pool label) := by
  unfold Serial
  split
  · split
    · infer_instance
    · infer_instance
  all_goals infer_instance

abbrev Duties := Nat → Option (Handling × Held)

structure Chained (s : Shared) (duties : Duties) : Prop where
  linear : ∀ did, Linear (commitsOf s.server.commits did)
  current : ∀ i handling held, duties i = some (handling, held) → handling.place = i ∧
    ∀ state, held = some state → i ∈ s.current state.did → Latest s.server.commits state

section Commits
variable {commits : List AtCommit} {commit : AtCommit} {did : String}

@[simp] theorem commitsOf_nil : commitsOf [] did = [] := rfl

theorem commitsOf_own : commitsOf (commit :: commits) commit.did = commit :: commitsOf commits commit.did := by
  simp [commitsOf]

theorem commitsOf_other (other : did ≠ commit.did) :
    commitsOf (commit :: commits) did = commitsOf commits did := by
  simp [commitsOf, Ne.symm other]

theorem linear_nil : Linear [] := ⟨.nil, .nil⟩

theorem Linear.cons {state : RepositoryState} (linear : Linear (commitsOf commits commit.did))
    (latest : Latest commits state)
    (builds : BuiltOn state commit.did commit.rev commit.prevCommitCid)
    (exact_ : ∀ last ∈ (commitsOf commits commit.did).head?, last.rev < 2 ^ 53) :
    Linear (commit :: commitsOf commits commit.did) := by
  have follows : ∀ last ∈ (commitsOf commits commit.did).head?,
      last.rev < commit.rev ∧ commit.prevCommitCid = some last.commitCid := by
    intro last there
    obtain ⟨rev, root⟩ := latest last (builds.did ▸ there)
    have small := exact_ last there
    refine ⟨?_, builds.prev.trans root⟩
    rw [builds.rev, rev]
    unfold nextRev
    rw [if_pos small]
    omega
  cases own : commitsOf commits commit.did with
  | nil => exact ⟨List.pairwise_singleton .., .singleton _⟩
  | cons last earlier =>
    rw [own] at linear
    obtain ⟨later, prev⟩ := follows last (by rw [own]; rfl)
    refine ⟨List.pairwise_cons.mpr ⟨fun older there => ?_, linear.revs⟩, ?_⟩
    · rcases List.mem_cons.mp there with rfl | there
      · exact later
      · exact Nat.lt_trans ((List.pairwise_cons.mp linear.revs).1 older there) later
    · exact List.isChain_cons_cons.mpr ⟨prev, linear.chained⟩

end Commits

section Steps
variable {s : Shared} {duties : Duties} {i : Nat} {handling : Handling} {held : Held} {fate : Fate}

theorem commits_suffer {server : Server} {c : Call} (other : ∀ commit, c ≠ .publishCommit commit) :
    (server.suffer c fate).2.commits = server.commits := by
  cases fate with
  | refused => rfl
  | answered | unanswered =>
    cases c with
    | publishCommit commit => exact absurd rfl (other commit)
    | _ => rfl

theorem Chained.frame (chained : Chained s duties) {after : Shared}
    (commits : after.server.commits = s.server.commits) (current : after.current = s.current)
    (duty : duties i = some (handling, held)) :
    Chained after (setDuty duties i (some (handling, held))) := by
  rw [← duty, setDuty_self]
  refine ⟨fun did => commits ▸ chained.linear did, fun j other read there => ?_⟩
  rw [commits, current]
  exact chained.current j other read there

variable {place : Nat} {state : RepositoryState}

theorem mem_read
    (listed : place ∈ s.read place state state.did) : Latest s.server.commits state := by
  unfold Shared.read at listed
  rw [if_pos rfl] at listed
  split at listed
  next latest => exact latest
  next => simp at listed

theorem mem_read_other {j : Nat} {did : String} (apart : j ≠ place)
    (listed : j ∈ s.read place state did) : j ∈ s.current did := by
  unfold Shared.read at listed
  split at listed
  · split at listed
    · exact (List.mem_insert_iff.mp listed).resolve_left apart
    · exact List.mem_of_mem_filter listed
  · exact listed

theorem mem_clear {j : Nat} {repo did : String} (listed : j ∈ s.clear repo did) :
    did ≠ repo ∧ j ∈ s.current did := by
  unfold Shared.clear at listed
  split at listed
  · nomatch listed
  next other => exact ⟨other, listed⟩

theorem Chained.holds (chained : Chained s duties)
    (duty : duties i = some (handling, held)) {current : String → List Nat}
    (here : i ∈ current state.did → Latest s.server.commits state)
    (others : ∀ j did, j ≠ i → j ∈ current did → j ∈ s.current did) :
    Chained ⟨s.server, current⟩ (setDuty duties i (some (handling, some state))) := by
  refine ⟨chained.linear, fun j other read there => ?_⟩
  rcases setDuty_some there with ⟨rfl, same⟩ | ⟨apart, before⟩
  · cases same
    refine ⟨(chained.current j _ _ duty).1, ?_⟩
    rintro _ ⟨⟩ listed
    exact here listed
  · obtain ⟨own, latest⟩ := chained.current j other read before
    exact ⟨own, fun held' same listed => latest held' same (others j _ apart listed)⟩

theorem Chained.read (chained : Chained s duties) (duty : duties i = some (handling, held))
    (registered : Bool) (did : String) :
    Chained (s.suffer handling.place fate (.getRepoState registered did)).2
      (setDuty duties i (some (handling, Held.after held (.getRepoState registered did)
        (s.suffer handling.place fate (.getRepoState registered did)).1))) := by
  obtain ⟨here, -⟩ := chained.current i handling held duty
  cases fate with
  | refused => exact chained.frame rfl rfl duty
  | unanswered => exact chained.frame rfl rfl duty
  | answered =>
    have kept : Held.after held (.getRepoState registered did)
        (s.suffer handling.place .answered (.getRepoState registered did)).1 =
          (s.server.repoState did).or held := by
      simp only [Shared.suffer, Server.suffer, Server.answer]
      cases s.server.repoState did <;> rfl
    rw [kept]
    cases stored : s.server.repoState did with
    | none =>
      refine chained.frame rfl ?_ duty
      simp only [Shared.suffer, Shared.note, stored]
    | some state =>
      have current : s.note handling.place .answered (.getRepoState registered did) =
          s.read i state := by
        simp only [Shared.note, stored, here]
      change Chained ⟨s.server, s.note handling.place .answered (.getRepoState registered did)⟩ _
      rw [current]
      exact chained.holds duty mem_read fun j did' => mem_read_other

theorem Chained.publish (chained : Chained s duties) (duty : duties i = some (handling, held))
    {commit : AtCommit} (allowed : held.allows (.publishCommit commit))
    (listed : i ∈ s.current commit.did)
    (exact_ : ∀ last ∈ (commitsOf s.server.commits commit.did).head?, last.rev < 2 ^ 53) :
    Chained (s.suffer handling.place fate (.publishCommit commit)).2
      (setDuty duties i (some (handling, held))) := by
  obtain ⟨state, rfl, builds⟩ := allowed
  have latest : Latest s.server.commits state :=
    (chained.current i handling _ duty).2 state rfl (builds.did ▸ listed)
  have published : Chained ⟨s.server.publish commit, s.clear commit.did⟩
      (setDuty duties i (some (handling, some state))) := by
    rw [← duty, setDuty_self]
    refine ⟨fun did => ?_, fun j other read there => ?_⟩
    · by_cases own : did = commit.did
      · subst own
        rw [show commitsOf (s.server.publish commit).commits commit.did = _ from commitsOf_own]
        exact (chained.linear commit.did).cons latest builds exact_
      · rw [show commitsOf (s.server.publish commit).commits did = _ from commitsOf_other own]
        exact chained.linear did
    · obtain ⟨place, before⟩ := chained.current j other read there
      refine ⟨place, fun held' same now => ?_⟩
      obtain ⟨own, listed⟩ := mem_clear now
      intro last there'
      rw [show commitsOf (s.server.publish commit).commits held'.did = _ from commitsOf_other own]
        at there'
      exact before held' same listed last there'
  cases fate with
  | refused => exact chained.frame rfl rfl duty
  | answered => exact published
  | unanswered => exact published

theorem Chained.other (chained : Chained s duties) (duty : duties i = some (handling, held)) {c : Call}
    (reads : ∀ registered did, c ≠ .getRepoState registered did)
    (publishes : ∀ commit, c ≠ .publishCommit commit) :
    Chained (s.suffer handling.place fate c).2
      (setDuty duties i (some (handling, Held.after held c (s.suffer handling.place fate c).1))) := by
  have kept : ∀ reply, Held.after held c reply = held := by
    intro reply
    cases c with
    | getRepoState registered did => exact absurd rfl (reads registered did)
    | _ => rfl
  have current : s.note handling.place fate c = s.current := by
    cases c with
    | getRepoState registered did => exact absurd rfl (reads registered did)
    | publishCommit commit => exact absurd rfl (publishes commit)
    | _ => rfl
  rw [kept]
  exact chained.frame (commits_suffer publishes) current duty

theorem Chained.drop (chained : Chained s duties) : Chained s (setDuty duties i none) where
  linear := chained.linear
  current j handling held there := chained.current j handling held (of_setDuty_none there)

theorem Chained.begin (chained : Chained s duties) {delivery : Delivery} (here : place = i) :
    Chained s (setDuty duties i (some (⟨place, delivery⟩, none))) where
  linear := chained.linear
  current j handling held there := by
    rcases setDuty_some there with ⟨rfl, same⟩ | ⟨-, before⟩
    · cases same
      exact ⟨here, fun _ none => nomatch none⟩
    · exact chained.current j handling held before

theorem Chained.change (chained : Chained s duties) (event : Change) :
    Chained (s.change event) duties := by
  cases event with
  | bind => exact ⟨chained.linear, chained.current⟩
  | expire => exact ⟨chained.linear, chained.current⟩

end Steps

theorem chained_preserved (env : Environment) :
    PreservesAt (projectionSystem env) Serial projectionMonitor (fun _ => True) Chained where
  call pool duties i handling held c next reply after admitted chained running duty allowed
      performed := by
    obtain ⟨fate, performs⟩ := performed
    cases performs
    simp only [Serial, running] at admitted
    cases c with
    | getRepoState registered did => exact chained.read duty registered did
    | publishCommit commit =>
      have guarded : handling.place ∈ pool.shared.current commit.did ∧
          ∀ last ∈ (commitsOf pool.shared.server.commits commit.did).head?, last.rev < 2 ^ 53 :=
        admitted
      rw [(chained.current i handling held duty).1] at guarded
      exact chained.publish duty allowed guarded.1 guarded.2
    | _ => exact chained.other duty (fun _ _ other => nomatch other) fun _ other => nomatch other
  stop pool duties i _ chained _ := chained.drop
  start pool duties i worker here chained _ starts :=
    ⟨none, starts ▸ delivery_obeys env worker.tag.delivery none, chained.begin here⟩
  act pool duties event after _ chained acted := acted ▸ chained.change event

theorem chained_start {server : Server} (unpublished : server.commits = []) :
    Chained (.start server) fun _ => none where
  linear did := by
    change Linear (commitsOf server.commits did)
    rw [unpublished]
    exact linear_nil
  current _ _ _ none := nomatch none

/-- In every run in which events publish only on the state that the last commit of the repo left,
the commits of each repo form one chain. -/
theorem commits_linear (env : Environment) (bindings : String → Option IdentityBinding)
    (pool : ProjectionPool)
    (run : Reaches (Step (projectionSystem env)) Serial (Pool.idle (.start (.empty bindings))) pool)
    (did : String) : Linear (commitsOf pool.shared.server.commits did) := by
  have watched : WatchedTo projectionMonitor (fun _ => True) Chained pool :=
    watchedAt_run (chained_preserved env) run (watchedTo_idle (chained_start rfl))
  obtain ⟨_, chained, -⟩ := watched
  exact chained.linear did

def plainly : Environment := ⟨fun rkey => "t-" ++ rkey⟩

def owner : IdentityBinding := ⟨"acc", some "did:plc:a", some "a.example", true, by decide⟩

def accounts (accountId : String) : Option IdentityBinding :=
  if accountId = "acc" then some owner else none

def note (id : String) : Delivery := ⟨.postCreated ⟨id, "acc", false, .public_⟩ none false, "key-" ++ id⟩

/-- Calls are answered, except that the registry is out of reach for these places when they write
to it. -/
def fateAt (unreachable : List Nat) (place : Nat) : Call → Fate
  | .previousRepo _ => if place ∈ unreachable then .refused else .answered
  | _ => .answered

def worker (unreachable : List Nat) : Schedule Shared Handling Change Call Reply Failure Unit where
  perform handling c s := some (s.suffer handling.place (fateAt unreachable handling.place c) c)
  boot handling := handling.delivery.program plainly
  admits _ _ := true
  react event s := some (s.change event)

theorem worker_follows (unreachable : List Nat) :
    (worker unreachable).Follows (projectionSystem plainly) where
  perform _ _ _ _ _ performed := ⟨_, Option.some.inj performed⟩
  admits _ _ _ := rfl
  react _ _ _ reacted := Option.some.inj reacted

def handle (place : Nat) (delivery : Delivery) (calls : Nat) : List (Turn Handling Change) :=
  .start place ⟨place, delivery⟩ :: List.replicate calls (.call place)

def chain (pool : ProjectionPool) : List (Nat × Option Nat) :=
  pool.shared.server.commits.map fun commit => (commit.rev, commit.prevCommitCid)

def inTurn : List (Turn Handling Change) :=
  handle 0 (note "p") 21 ++ handle 1 (note "q") 2 ++ handle 2 (note "r") 18 ++ .stop 1 ::
    handle 3 (note "s") 17

theorem commits_linear_inTurn :
    ∃ pool, Reaches (Step (projectionSystem plainly)) Serial
        (Pool.idle (.start (.empty accounts))) pool ∧
      chain pool = [(3, some 1), (2, some 0), (1, none)] ∧
      Linear (commitsOf pool.shared.server.commits "did:plc:a") := by
  have looks : (follow (worker [3]) Serial (Pool.idle (.start (.empty accounts))) inTurn).map chain =
      some [(3, some 1), (2, some 0), (1, none)] := by decide +kernel
  obtain ⟨pool, ran, seen⟩ := Option.map_eq_some_iff.mp looks
  have run := reaches_of_follow (worker_follows [3]) ran
  exact ⟨pool, run, seen, commits_linear plainly accounts pool run "did:plc:a"⟩

def overlapping : List (Turn Handling Change) :=
  handle 0 (note "p") 21 ++ handle 1 (note "q") 2 ++ handle 2 (note "r") 18 ++
    List.replicate 16 (.call 1)

theorem commits_forked :
    ¬ ∀ (env : Environment) (bindings : String → Option IdentityBinding) (pool : ProjectionPool),
      Reaches (Step (projectionSystem env)) always (Pool.idle (.start (.empty bindings))) pool →
        ∀ did, Linear (commitsOf pool.shared.server.commits did) := by
  intro linear
  have looks : (follow (worker []) always (Pool.idle (.start (.empty accounts))) overlapping).map
      (fun pool => (commitsOf pool.shared.server.commits "did:plc:a").map (·.rev)) =
        some [2, 2, 1] := by decide +kernel
  obtain ⟨pool, ran, seen⟩ := Option.map_eq_some_iff.mp looks
  have run := reaches_of_follow (worker_follows []) ran
  have revs := (linear plainly accounts pool run "did:plc:a").revs
  have ordered : (((commitsOf pool.shared.server.commits "did:plc:a").map (·.rev))).Pairwise
      fun newer older => older < newer := List.pairwise_map.mpr revs
  rw [seen] at ordered
  revert ordered
  decide

end MastopodFederation.Guarantees.CommitChain
