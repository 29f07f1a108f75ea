import Mathlib
import MastopodFederation.Source.AtprotoWriteGatewayPort

/-!
# Retried batches

A retry runs the whole batch again. It is one failure-free run in effect as long as every command
that already took effect resolves to the same operations when it is executed again. A command
that draws its key or its id resolves to others, and a delete whose alias is gone is refused.
-/
namespace MastopodFederation.Guarantees.BatchRetry
open Lib.LuaTable Lib.Assignments Source.Retry Source.ProtocolBridgeRuntime
  Source.AtprotoWriteGatewayPort

variable {env : Environment} {s t : State}

theorem commit_append (first second : List Op) (s : State) :
    commit (first ++ second) s = commit second (commit first s) := by
  simp [commit, OrderedMap.putAll, assign]

theorem commit_commit (ops : List Op) (s : State) : commit ops (commit ops s) = commit ops s := by
  simp [commit, OrderedMap.putAll_putAll, assign_assign]

def commitAll (writes : List Written) (s : State) : State :=
  commit (writes.flatMap Written.ops) s

theorem commitAll_cons (w : Written) (writes : List Written) (s : State) :
    commitAll (w :: writes) s = commitAll writes (commit w.ops s) := by
  rw [commitAll, List.flatMap_cons, commit_append, commitAll]

theorem commitAll_replay {part writes : List Written} (first : part <+: writes) (s : State) :
    commitAll writes (commitAll part s) = commitAll writes s := by
  obtain ⟨rest, rfl⟩ := first
  rw [commitAll, commitAll, List.flatMap_append, commit_append, commit_commit, ← commit_append,
    commitAll, List.flatMap_append]

def tookEffect (env : Environment) (call : Call) (cmd : Command) (s : State) : Option Written :=
  match call.failure with
  | some (.before _) => none
  | _ => (gatewayWrite env cmd call.draws s).toOption

def effects (env : Environment) : Attempt → List Command → State → List Written
  | _, [], _ => []
  | calls, cmd :: rest, s =>
    match tookEffect env (calls 0) cmd s with
    | none => []
    | some w =>
      match gatewayCall env (calls 0) cmd s with
      | (after, .ok ()) => w :: effects env (fun i => calls (i + 1)) rest after
      | (_, .error _) => [w]

def Repeats (env : Environment) : List Written → Attempt → List Command → State → Prop
  | w :: known, calls, cmd :: rest, s =>
    match (calls 0).failure with
    | some (.before _) => True
    | _ =>
      gatewayWrite env cmd (calls 0).draws s = .ok w ∧
        ((gatewayCall env (calls 0) cmd s).2 = .ok () →
          Repeats env known (fun i => calls (i + 1)) rest (commit w.ops s))
  | _, _, _, _ => True

def longer (known writes : List Written) : List Written :=
  if known.length ≤ writes.length then writes else known

def TransientFailures (calls : Attempt) : Prop :=
  ∀ i, match (calls i).failure with
    | some (.before e) | some (.after e) => isTransient e = true
    | none => True

def Finished (outcome : Except Thrown Unit) : Prop :=
  ∀ e, outcome = .error e → isTransient e = false

inductive CallResult (env : Environment) (call : Call) (cmd : Command) (s : State) : Prop where
  | before (e : Thrown) (failed : call.failure = some (.before e))
      (result : gatewayCall env call cmd s = (s, .error e))
  | refused (e : Thrown) (executed : ∀ e, call.failure ≠ some (.before e))
      (refusal : gatewayWrite env cmd call.draws s = .error e)
      (result : gatewayCall env call cmd s = (s, .error e))
  | after (w : Written) (e : Thrown) (failed : call.failure = some (.after e))
      (wrote : gatewayWrite env cmd call.draws s = .ok w)
      (result : gatewayCall env call cmd s = (commit w.ops s, .error e))
  | unpublished (w : Written) (executed : call.failure = none)
      (wrote : gatewayWrite env cmd call.draws s = .ok w)
      (waiting : isPublished w (commit w.ops s) = false)
      (result : gatewayCall env call cmd s = (commit w.ops s, .error writeTimeout))
  | done (w : Written) (executed : call.failure = none)
      (wrote : gatewayWrite env cmd call.draws s = .ok w)
      (published : isPublished w (commit w.ops s) = true)
      (result : gatewayCall env call cmd s = (commit w.ops s, .ok ()))

theorem callResult (env : Environment) (call : Call) (cmd : Command) (s : State) :
    CallResult env call cmd s := by
  cases failed : call.failure with
  | none =>
    cases wrote : gatewayWrite env cmd call.draws s with
    | error e => exact .refused e (by simp [failed]) wrote (by simp [gatewayCall, failed, wrote])
    | ok w =>
      cases published : isPublished w (commit w.ops s) with
      | false =>
        exact .unpublished w failed wrote published (by simp [gatewayCall, failed, wrote, published])
      | true => exact .done w failed wrote published (by simp [gatewayCall, failed, wrote, published])
  | some failure =>
    cases failure with
    | before e => exact .before e failed (by simp [gatewayCall, failed])
    | after e =>
      cases wrote : gatewayWrite env cmd call.draws s with
      | error e => exact .refused e (by simp [failed]) wrote (by simp [gatewayCall, failed, wrote])
      | ok w => exact .after w e failed wrote (by simp [gatewayCall, failed, wrote])

section Attempts
variable {calls : Attempt} {cmd : Command} {rest commands : List Command} {w : Written}
  {known : List Written}

theorem effects_none (rest : List Command) (took : tookEffect env (calls 0) cmd s = none) :
    effects env calls (cmd :: rest) s = [] := by
  simp [effects, took]

variable {e : Thrown} {after : State}

theorem effects_last (rest : List Command) (took : tookEffect env (calls 0) cmd s = some w)
    (result : gatewayCall env (calls 0) cmd s = (after, .error e)) :
    effects env calls (cmd :: rest) s = [w] := by
  simp [effects, took, result]

theorem effects_step (rest : List Command) (took : tookEffect env (calls 0) cmd s = some w)
    (result : gatewayCall env (calls 0) cmd s = (after, .ok ())) :
    effects env calls (cmd :: rest) s = w :: effects env (fun i => calls (i + 1)) rest after := by
  simp [effects, took, result]

theorem repeats_head (repeats : Repeats env (w :: known) calls (cmd :: rest) s)
    (executed : ∀ e, (calls 0).failure ≠ some (.before e)) :
    gatewayWrite env cmd (calls 0).draws s = .ok w ∧
      ((gatewayCall env (calls 0) cmd s).2 = .ok () →
        Repeats env known (fun i => calls (i + 1)) rest (commit w.ops s)) := by
  unfold Repeats at repeats
  split at repeats
  next e failed => exact absurd failed (executed e)
  · exact repeats

theorem repeats_nil (calls : Attempt) (commands : List Command) (s : State) :
    Repeats env [] calls commands s := by
  unfold Repeats
  trivial

inductive Once (env : Environment) : List Command → State → State → Except Thrown Unit → Prop where
  | done (s : State) : Once env [] s s (.ok ())
  | step {cmd : Command} {rest : List Command} {draws : Draws} {s t : State} {w : Written}
      {outcome : Except Thrown Unit} (wrote : gatewayWrite env cmd draws s = .ok w)
      (published : isPublished w (commit w.ops s) = true)
      (later : Once env rest (commit w.ops s) t outcome) : Once env (cmd :: rest) s t outcome
  | refused {cmd : Command} {rest : List Command} {draws : Draws} {s : State} {e : Thrown}
      (refusal : gatewayWrite env cmd draws s = .error e) :
      Once env (cmd :: rest) s s (.error e)
  | timeout {cmd : Command} {rest : List Command} {draws : Draws} {s : State} {w : Written}
      (wrote : gatewayWrite env cmd draws s = .ok w)
      (waiting : isPublished w (commit w.ops s) = false) :
      Once env (cmd :: rest) s (commit w.ops s) (.error writeTimeout)

inductive Begins (env : Environment) : List Command → State → List Written → Prop where
  | nil (commands : List Command) (s : State) : Begins env commands s []
  | last {cmd : Command} {draws : Draws} {s : State} {w : Written} (rest : List Command)
      (wrote : gatewayWrite env cmd draws s = .ok w) : Begins env (cmd :: rest) s [w]
  | step {cmd : Command} {rest : List Command} {draws : Draws} {s : State} {w : Written}
      {writes : List Written} (wrote : gatewayWrite env cmd draws s = .ok w)
      (published : isPublished w (commit w.ops s) = true)
      (later : Begins env rest (commit w.ops s) writes) :
      Begins env (cmd :: rest) s (w :: writes)

variable {outcome : Except Thrown Unit}

theorem Once.attempt (once : Once env commands s t outcome) :
    ∃ calls : Attempt, (∀ i, (calls i).failure = none) ∧
      applyCommands env calls commands s = (t, outcome) := by
  induction once with
  | done s => exact ⟨fun _ => ⟨⟨"", ""⟩, none⟩, fun _ => rfl, rfl⟩
  | @step cmd rest draws s t w outcome wrote published later ih =>
    obtain ⟨calls, free, applied⟩ := ih
    refine ⟨fun i => i.casesOn ⟨draws, none⟩ calls, fun i => ?_, ?_⟩
    · cases i with
      | zero => rfl
      | succ i => exact free i
    · simpa [applyCommands, gatewayCall, wrote, published] using applied
  | @refused cmd rest draws s e refusal =>
    refine ⟨fun _ => ⟨draws, none⟩, fun _ => rfl, ?_⟩
    simp [applyCommands, gatewayCall, refusal]
  | @timeout cmd rest draws s w wrote waiting =>
    refine ⟨fun _ => ⟨draws, none⟩, fun _ => rfl, ?_⟩
    simp [applyCommands, gatewayCall, wrote, waiting]

/-- What earlier attempts made of the first state cannot be told from it by writes that
begin with the known ones. -/
structure Agree (known : List Written) (s t : State) : Prop where
  writes : ∀ writes, known <+: writes → commitAll writes t = commitAll writes s
  order : ∀ id ∈ s.aliases.order, id ∈ t.aliases.order

theorem agree_refl (known : List Written) (s : State) : Agree known s s :=
  ⟨fun _ _ => rfl, fun _ listed => listed⟩

theorem agree_nil (agree : Agree [] s t) : t = s := agree.writes [] (List.prefix_refl [])

theorem order_commit {ops : List Op} (ordered : ∀ id ∈ s.aliases.order, id ∈ t.aliases.order) :
    ∀ id ∈ (commit ops s).aliases.order, id ∈ (commit ops t).aliases.order := by
  intro id listed
  unfold commit at listed ⊢
  rw [OrderedMap.mem_order_putAll] at listed ⊢
  exact listed.imp_left (ordered id)

theorem agree_tail (agree : Agree (w :: known) s t) :
    Agree known (commit w.ops s) (commit w.ops t) := by
  refine ⟨?_, order_commit agree.order⟩
  intro writes begins
  rw [← commitAll_cons, ← commitAll_cons]
  exact agree.writes (w :: writes) (List.cons_prefix_cons.mpr ⟨rfl, begins⟩)

theorem published_of_order (ordered : ∀ id ∈ s.aliases.order, id ∈ t.aliases.order)
    (published : isPublished w s = true) : isPublished w t = true := by
  unfold isPublished at published ⊢
  split at published
  next id awaited =>
    simp only [Bool.and_eq_true, decide_eq_true_eq] at published ⊢
    exact ⟨published.1, ordered id published.2⟩
  · rfl

theorem longer_nil (writes : List Written) : longer [] writes = writes := if_pos (Nat.zero_le _)

theorem longer_cons (w : Written) (known writes : List Written) :
    longer (w :: known) (w :: writes) = w :: longer known writes := by
  unfold longer
  simp only [List.length_cons, Nat.add_le_add_iff_right]
  split
  · rfl
  · rfl

theorem longer_of_nil (known : List Written) : longer known [] = known := by
  cases known with
  | nil => rfl
  | cons w rest => rfl

theorem longer_one (w : Written) (known : List Written) : longer (w :: known) [w] = w :: known := by
  rw [longer_cons, longer_of_nil]

def Passed (calls : Attempt) (outcome : Except Thrown Unit) : Prop :=
  Finished outcome ∨ ∀ i, (calls i).failure = none

/-- An attempt adds to what was done before, and if it is not stopped it is one
failure-free run. -/
structure Merged (env : Environment) (known : List Written) (calls : Attempt)
    (commands : List Command) (s t : State) : Prop where
  committed : (applyCommands env calls commands t).1 = commitAll (effects env calls commands t) t
  compatible : known <+: longer known (effects env calls commands t) ∧
    effects env calls commands t <+: longer known (effects env calls commands t)
  begins : Begins env commands s (longer known (effects env calls commands t))
  once : Passed calls (applyCommands env calls commands t).2 →
    Once env commands s (applyCommands env calls commands t).1 (applyCommands env calls commands t).2

theorem transient_tail (transient : TransientFailures calls) :
    TransientFailures fun i => calls (i + 1) := fun i => transient (i + 1)

theorem passed_tail (passed : Passed calls outcome) :
    Passed (fun i => calls (i + 1)) outcome := passed.imp_right fun free i => free (i + 1)

theorem not_passed {P : Prop} (failed : (calls 0).failure ≠ none)
    (transient : isTransient e = true) (passed : Passed calls (.error e)) : P := by
  rcases passed with finished | free
  · have permanent := finished e rfl
    rw [transient] at permanent
    cases permanent
  · exact absurd (free 0) failed

theorem applyCommands_error (rest : List Command)
    (result : gatewayCall env (calls 0) cmd t = (after, .error e)) :
    applyCommands env calls (cmd :: rest) t = (after, .error e) := by
  simp [applyCommands, result]

theorem applyCommands_ok (rest : List Command)
    (result : gatewayCall env (calls 0) cmd t = (after, .ok ())) :
    applyCommands env calls (cmd :: rest) t =
      applyCommands env (fun i => calls (i + 1)) rest after := by
  simp [applyCommands, result]

theorem merged_unwritten (begins : Begins env (cmd :: rest) s known)
    (took : tookEffect env (calls 0) cmd t = none)
    (result : gatewayCall env (calls 0) cmd t = (t, .error e))
    (once : Passed calls (.error e) → Once env (cmd :: rest) s t (.error e)) :
    Merged env known calls (cmd :: rest) s t := by
  have none := effects_none rest took
  have stops := applyCommands_error rest result
  constructor
  · rw [stops, none]
    rfl
  · rw [none, longer_of_nil]
    exact ⟨List.prefix_refl _, List.nil_prefix⟩
  · rw [none, longer_of_nil]
    exact begins
  · rw [stops]
    exact once

theorem merged_written (begins : Begins env (cmd :: rest) s (longer known [w]))
    (compatible : known <+: longer known [w] ∧ [w] <+: longer known [w])
    (took : tookEffect env (calls 0) cmd t = some w)
    (result : gatewayCall env (calls 0) cmd t = (commit w.ops t, .error e))
    (once : Passed calls (.error e) → Once env (cmd :: rest) s (commit w.ops t) (.error e)) :
    Merged env known calls (cmd :: rest) s t := by
  have one := effects_last rest took result
  have stops := applyCommands_error rest result
  constructor
  · rw [stops, one, commitAll_cons]
    rfl
  · rw [one]
    exact compatible
  · rw [one]
    exact begins
  · rw [stops]
    exact once

theorem merged_step {knownRest : List Written} (begins : Begins env (cmd :: rest) s (w :: longer
      knownRest (effects env (fun i => calls (i + 1)) rest (commit w.ops t))))
    (known_eq : known = w :: knownRest ∨ known = [] ∧ knownRest = [])
    (took : tookEffect env (calls 0) cmd t = some w)
    (result : gatewayCall env (calls 0) cmd t = (commit w.ops t, .ok ()))
    (once : Passed calls (applyCommands env (fun i => calls (i + 1)) rest (commit w.ops t)).2 →
      Once env (cmd :: rest) s
        (applyCommands env (fun i => calls (i + 1)) rest (commit w.ops t)).1
        (applyCommands env (fun i => calls (i + 1)) rest (commit w.ops t)).2)
    (later : Merged env knownRest (fun i => calls (i + 1)) rest (commit w.ops s) (commit w.ops t)) :
    Merged env known calls (cmd :: rest) s t := by
  have more := effects_step rest took result
  have goes := applyCommands_ok rest result
  have longer_eq : longer known (effects env calls (cmd :: rest) t) =
      w :: longer knownRest (effects env (fun i => calls (i + 1)) rest (commit w.ops t)) := by
    rw [more]
    rcases known_eq with rfl | ⟨rfl, rfl⟩
    · exact longer_cons _ _ _
    · rw [longer_nil, longer_nil]
  constructor
  · rw [goes, more, commitAll_cons]
    exact later.committed
  · rw [longer_eq, more]
    obtain ⟨knownFirst, writtenFirst⟩ := later.compatible
    refine ⟨?_, List.cons_prefix_cons.mpr ⟨rfl, writtenFirst⟩⟩
    rcases known_eq with rfl | ⟨rfl, rfl⟩
    · exact List.cons_prefix_cons.mpr ⟨rfl, knownFirst⟩
    · exact List.nil_prefix
  · rw [longer_eq]
    exact begins
  · rw [goes]
    exact once

theorem took_none {call : Call} (executed : ∀ e, call.failure ≠ some (.before e)) :
    tookEffect env call cmd s = (gatewayWrite env cmd call.draws s).toOption := by
  unfold tookEffect
  split
  next e failed => exact absurd failed (executed e)
  · rfl

theorem begins_head {writes : List Written} (begins : Begins env (cmd :: rest) s (w :: writes)) :
    ∃ draws, gatewayWrite env cmd draws s = .ok w ∧ Begins env rest (commit w.ops s) writes ∧
      (writes = [] ∨ isPublished w (commit w.ops s) = true) := by
  cases begins with
  | last _ wrote => exact ⟨_, wrote, .nil _ _, .inl rfl⟩
  | step wrote published later => exact ⟨_, wrote, later, .inr published⟩

theorem attempt_merges (transient : TransientFailures calls) (begins : Begins env commands s known)
    (agree : Agree known s t) (repeats : Repeats env known calls commands t) :
    Merged env known calls commands s t := by
  induction commands generalizing known calls s t with
  | nil =>
    cases begins
    have same := agree_nil agree
    subst same
    exact ⟨rfl, ⟨List.prefix_refl _, List.prefix_refl _⟩, .nil _ _, fun _ => .done _⟩
  | cons cmd rest ih =>
    have first := transient 0
    cases known with
    | nil =>
      -- nothing took effect yet: both states are the same
      have same := agree_nil agree
      subst same
      cases callResult env (calls 0) cmd t with
      | before e failed result =>
        rw [failed] at first
        apply merged_unwritten begins (by simp [tookEffect, failed]) result
        exact not_passed (by simp [failed]) first
      | refused e executed refusal result =>
        have took : tookEffect env (calls 0) cmd t = none := by rw [took_none executed, refusal]; rfl
        exact merged_unwritten begins took result fun _ => .refused refusal
      | after w e failed wrote result =>
        rw [failed] at first
        have took : tookEffect env (calls 0) cmd t = some w := by
          simp [tookEffect, failed, wrote, Except.toOption]
        exact merged_written (.last rest wrote) ⟨List.nil_prefix, List.prefix_refl _⟩ took result
          (not_passed (by simp [failed]) first)
      | unpublished w executed wrote waiting result =>
        have took : tookEffect env (calls 0) cmd t = some w := by
          simp [tookEffect, executed, wrote, Except.toOption]
        exact merged_written (.last rest wrote) ⟨List.nil_prefix, List.prefix_refl _⟩ took result
          fun _ => .timeout wrote waiting
      | done w executed wrote published result =>
        have took : tookEffect env (calls 0) cmd t = some w := by
          simp [tookEffect, executed, wrote, Except.toOption]
        have later := ih (transient_tail transient) (.nil rest (commit w.ops t))
          (agree_refl [] _) (repeats_nil _ rest (commit w.ops t))
        exact merged_step (.step wrote published later.begins) (.inr ⟨rfl, rfl⟩) took result
          (fun passed => .step wrote published (later.once (passed_tail passed))) later
    | cons w known =>
      obtain ⟨draws, wroteBefore, beginsRest, publishedBefore⟩ := begins_head begins
      cases callResult env (calls 0) cmd t with
      | before e failed result =>
        rw [failed] at first
        apply merged_unwritten begins (by simp [tookEffect, failed]) result
        exact not_passed (by simp [failed]) first
      | refused e executed refusal result =>
        have again := (repeats_head repeats executed).1
        rw [refusal] at again
        cases again
      | after v e failed wrote result =>
        rw [failed] at first
        have again := (repeats_head repeats (by simp [failed])).1
        rw [wrote] at again
        cases again
        have took : tookEffect env (calls 0) cmd t = some w := by
          simp [tookEffect, failed, wrote, Except.toOption]
        rw [← longer_one w known] at begins
        exact merged_written begins (by rw [longer_one]; exact ⟨List.prefix_refl _, by simp⟩) took
          result (not_passed (by simp [failed]) first)
      | unpublished v executed wrote waiting result =>
        have again := (repeats_head repeats (by simp [executed])).1
        rw [wrote] at again
        cases again
        have took : tookEffect env (calls 0) cmd t = some w := by
          simp [tookEffect, executed, wrote, Except.toOption]
        have agreeRest := agree_tail agree
        -- a result that was found before is found again
        have once : Once env (cmd :: rest) s (commit w.ops t) (.error writeTimeout) := by
          rcases publishedBefore with rfl | published
          · rw [agree_nil agreeRest] at waiting ⊢
            exact .timeout wroteBefore waiting
          · rw [published_of_order agreeRest.order published] at waiting
            cases waiting
        rw [← longer_one w known] at begins
        exact merged_written begins (by rw [longer_one]; exact ⟨List.prefix_refl _, by simp⟩) took
          result fun _ => once
      | done v executed wrote published result =>
        obtain ⟨again, repeatsRest⟩ := repeats_head repeats (by simp [executed])
        rw [wrote] at again
        cases again
        have took : tookEffect env (calls 0) cmd t = some w := by
          simp [tookEffect, executed, wrote, Except.toOption]
        have agreeRest := agree_tail agree
        -- at the end of what is known both states are the same again
        have publishedOnce : isPublished w (commit w.ops s) = true := by
          rcases publishedBefore with rfl | published
          · rw [← agree_nil agreeRest]
            exact published
          · exact published
        have later := ih (transient_tail transient) beginsRest agreeRest
          (repeatsRest (by rw [result]))
        exact merged_step (.step wroteBefore publishedOnce later.begins) (.inl rfl) took result
          (fun passed => .step wroteBefore publishedOnce (later.once (passed_tail passed))) later

theorem agree_next {known writes all : List Written} (agree : Agree known s t)
    (knownFirst : known <+: all) (writtenFirst : writes <+: all) :
    Agree all s (commitAll writes t) := by
  constructor
  · intro more begins
    rw [commitAll_replay (writtenFirst.trans begins), agree.writes more (knownFirst.trans begins)]
  · intro id listed
    unfold commitAll commit
    rw [OrderedMap.mem_order_putAll]
    exact Or.inl (agree.order id listed)

def RunRepeats (env : Environment) (maxAttempts : Nat) (prepared : List Command) :
    Nat → List Written → List Attempt → State → Prop
  | _, _, [], _ => True
  | attempt, known, calls :: later, s =>
    Repeats env known calls prepared s ∧
      ∀ e, (applyCommands env calls prepared s).2 = .error e → isTransient e = true →
        attempt < maxAttempts →
          RunRepeats env maxAttempts prepared (attempt + 1)
            (longer known (effects env calls prepared s)) later
            (applyCommands env calls prepared s).1

section Runs
variable {maxAttempts attempt : Nat} {prepared : List Command} {later : List Attempt}

theorem withRetry_finished (prepares : prepareBatch env commands = .ok prepared)
    (finished : Finished (applyCommands env calls prepared t).2) :
    withRetry env maxAttempts commands attempt (calls :: later) t =
      some (applyCommands env calls prepared t) := by
  simp only [withRetry, apply, prepares]
  generalize applyCommands env calls prepared t = result at finished ⊢
  obtain ⟨after, outcome⟩ := result
  cases outcome with
  | ok _ => rfl
  | error e => simp [finished e rfl]

theorem withRetry_again {e : Thrown} (prepares : prepareBatch env commands = .ok prepared)
    (failed : (applyCommands env calls prepared t).2 = .error e) (transient : isTransient e = true)
    (within : attempt < maxAttempts) :
    withRetry env maxAttempts commands attempt (calls :: later) t =
      withRetry env maxAttempts commands (attempt + 1) later
        (applyCommands env calls prepared t).1 := by
  simp only [withRetry, apply, prepares]
  generalize applyCommands env calls prepared t = result at failed ⊢
  obtain ⟨after, outcome⟩ := result
  cases failed
  simp [transient, within]

theorem retry_prepared {failed : List Attempt} {last : Attempt}
    (prepares : prepareBatch env commands = .ok prepared)
    (failures : ∀ calls ∈ failed, TransientFailures calls) (free : ∀ i, (last i).failure = none)
    (within : attempt + failed.length ≤ maxAttempts) (begins : Begins env prepared s known)
    (agree : Agree known s t)
    (repeats : RunRepeats env maxAttempts prepared attempt known (failed ++ [last]) t) :
    ∃ u outcome, Once env prepared s u outcome ∧ (Finished outcome →
      withRetry env maxAttempts commands attempt (failed ++ [last]) t = some (u, outcome)) := by
  induction failed generalizing known t attempt with
  | nil =>
    have quiet : TransientFailures last := by
      intro i
      rw [free i]
      trivial
    have merged := attempt_merges quiet begins agree repeats.1
    exact ⟨_, _, merged.once (.inr free), withRetry_finished prepares⟩
  | cons calls failed ih =>
    obtain ⟨first, failures⟩ := List.forall_mem_cons.mp failures
    rw [List.length_cons] at within
    have merged := attempt_merges first begins agree repeats.1
    cases result : (applyCommands env calls prepared t).2 with
    | ok done =>
      have finished : Finished (applyCommands env calls prepared t).2 := by
        rw [result]
        intro e failed
        cases failed
      exact ⟨_, _, merged.once (.inl finished), withRetry_finished prepares⟩
    | error e =>
      cases transient : isTransient e with
      | true =>
        have agreeNext := agree_next agree merged.compatible.1 merged.compatible.2
        rw [← merged.committed] at agreeNext
        have admitted : attempt < maxAttempts := by omega
        obtain ⟨u, outcome, once, runs⟩ :=
          ih failures (by omega) merged.begins agreeNext (repeats.2 e result transient admitted)
        refine ⟨u, outcome, once, fun finished => ?_⟩
        rw [List.cons_append, withRetry_again prepares result transient admitted]
        exact runs finished
      | false =>
        have finished : Finished (applyCommands env calls prepared t).2 := by
          rw [result]
          intro thrown same
          cases same
          exact transient
        exact ⟨_, _, merged.once (.inl finished), withRetry_finished prepares⟩

end Runs

/-- The retried run ends as one failure-free run of `apply` does: it succeeds where that
succeeds, with the same aliases and records, and it is refused where that is. -/
def RetryEqualsOnce (env : Environment) (maxAttempts : Nat) (commands : List Command)
    (attempts : List Attempt) (s : State) : Prop :=
  ∃ calls t outcome, (∀ i, (calls i).failure = none) ∧ apply env calls commands s = (t, outcome) ∧
    (Finished outcome → withRetry env maxAttempts commands 1 attempts s = some (t, outcome))

end Attempts

theorem lookup_filter_ne {key other : String} (entries : Entries) (different : other ≠ key) :
    (entries.filter (·.1 ≠ key)).lookup other = entries.lookup other := by
  induction entries with
  | nil => rfl
  | cons entry rest ih =>
    by_cases dropped : entry.1 = key
    · have differs : (other == entry.1) = false := by simpa [dropped] using different
      rw [List.filter_cons_of_neg (by simpa using dropped), List.lookup_cons, differs]
      exact ih
    · rw [List.filter_cons_of_pos (by simpa using dropped), List.lookup_cons, List.lookup_cons, ih]

theorem lookup_setEntry_ne {key other : String} (value : Json) (entries : Entries)
    (different : other ≠ key) : (setEntry key value entries).lookup other = entries.lookup other := by
  rw [setEntry, List.lookup_cons, beq_false_of_ne different]
  exact lookup_filter_ne entries different

structure Named (env : Environment) (cmd : Command) : Prop where
  rkey : (filled cmd.rkey).isSome
  canonicalRefId : ∀ record, buildNativeRecord env cmd = .ok record →
    (textField record "_bridgeCanonicalRefId").isSome

variable {cmd : Command}

theorem createRefId_named {record : Entries} (draws draws' : Draws)
    (operation : String) (named : Named env cmd) (built : buildNativeRecord env cmd = .ok record) :
    createRefId (payloadOf env cmd operation record) draws =
      createRefId (payloadOf env cmd operation record) draws' := by
  obtain ⟨rkey, keyed⟩ := Option.isSome_iff_exists.mp named.rkey
  obtain ⟨id, given⟩ := Option.isSome_iff_exists.mp (named.canonicalRefId record built)
  have kept : textField (payloadOf env cmd operation record) "_bridgeCanonicalRefId" =
      textField record "_bridgeCanonicalRefId" := by
    unfold textField payloadOf
    rw [keyed]
    simp only [Option.map_some, setOptional]
    rw [lookup_setEntry_ne _ _ (by decide), lookup_setEntry_ne _ _ (by decide),
      lookup_setEntry_ne _ _ (by decide), lookup_setEntry_ne _ _ (by decide)]
  unfold createRefId
  rw [kept, given]
  rfl

theorem requestedRkey_named (draws draws' : Draws) (operation : String)
    (record : Entries) (named : Named env cmd) :
    requestedRkey (payloadOf env cmd operation record) draws =
      requestedRkey (payloadOf env cmd operation record) draws' := by
  obtain ⟨rkey, keyed⟩ := Option.isSome_iff_exists.mp named.rkey
  have present : rkey ≠ "" := by simpa using (Option.filter_eq_some_iff.mp keyed).2
  have kept : textField (payloadOf env cmd operation record) "_rkey" = some rkey := by
    unfold textField payloadOf
    rw [keyed]
    simp [setOptional, setEntry]
  have chosen : filled (some rkey) = some rkey := by
    rw [filled, Option.filter_some, if_pos (by simpa using present)]
  rw [requestedRkey, requestedRkey, kept, chosen]
  rfl

theorem named_create_repeats (draws draws' : Draws) (s t : State)
    (create : cmd.kind = .createRecord) (notLike : cmd.collection ≠ .like)
    (notRepost : cmd.collection ≠ .repost) (named : Named env cmd) :
    gatewayWrite env cmd draws s = gatewayWrite env cmd draws' t := by
  unfold gatewayWrite writeRecord
  rw [create]
  cases built : buildNativeRecord env cmd with
  | error e => rfl
  | ok record =>
    have ids := createRefId_named draws draws' "create" named built
    have keys := requestedRkey_named draws draws' "create" record named
    simp only [bind, Except.bind, Bool.false_eq_true, if_false]
    cases collection : cmd.collection with
    | post => simp only [onPostCreated, ids, keys]
    | document => simp only [onPostCreated, ids, keys]
    | profile => rfl
    | follow => simp only [applyFollowCreate, onSocialCreated, ids, keys]
    | like => exact absurd collection notLike
    | repost => exact absurd collection notRepost
    | emojiReaction => simp only [applyEmojiReactionCreate, onSocialCreated, ids, keys]

def Steady (env : Environment) (prepared : List Command) : Prop :=
  ∀ cmd ∈ prepared, ∀ draws draws' s t,
    gatewayWrite env cmd draws s = gatewayWrite env cmd draws' t

section Steady
variable {prepared : List Command} {known : List Written}

theorem repeats_of_steady {calls : Attempt} (steady : Steady env prepared)
    (begins : Begins env prepared s known) : Repeats env known calls prepared t := by
  induction prepared generalizing known calls s t with
  | nil =>
    cases begins
    exact repeats_nil _ _ _
  | cons cmd rest ih =>
    obtain ⟨here, later⟩ := List.forall_mem_cons.mp steady
    cases known with
    | nil => exact repeats_nil _ _ _
    | cons w known =>
      obtain ⟨draws, wrote, beginsRest, -⟩ := begins_head begins
      unfold Repeats
      split
      · trivial
      · refine ⟨?_, fun _ => ih later beginsRest⟩
        rw [here (calls 0).draws draws t s]
        exact wrote

theorem runRepeats_of_steady {maxAttempts attempt : Nat} {attempts : List Attempt}
    (steady : Steady env prepared) (failures : ∀ calls ∈ attempts, TransientFailures calls)
    (begins : Begins env prepared s known) (agree : Agree known s t) :
    RunRepeats env maxAttempts prepared attempt known attempts t := by
  induction attempts generalizing known t attempt with
  | nil => trivial
  | cons calls later ih =>
    obtain ⟨first, failures⟩ := List.forall_mem_cons.mp failures
    have repeats : Repeats env known calls prepared t := repeats_of_steady steady begins
    have merged := attempt_merges first begins agree repeats
    have agreeNext := agree_next agree merged.compatible.1 merged.compatible.2
    rw [← merged.committed] at agreeNext
    exact ⟨repeats, fun _ _ _ _ => ih failures merged.begins agreeNext⟩

end Steady

def plainEnvironment : Environment where
  did := "did:plc:alice"
  canonicalAccountId := "alice"
  allowPostEditing := false
  maxCommandsPerBatch := 8
  sanitize := .ok
  attachMedia _ record := .ok record
  followedDid := some
  parseEmojiReaction _ := none
  postRecord _ payload := .obj payload
  teaserRecord payload := .obj payload
  profileRecord payload := .obj payload
  teaserRkey rkey := rkey

def publishedPost : State where
  aliases := ⟨["post-1"], fun id =>
    if id = "post-1" then some ⟨"did:plc:alice", .post, "3k2a", true⟩ else none⟩
  live key := if key = (.post, "3k2a") then some .null else none

def deletePost : Command :=
  { kind := .deleteRecord, collection := .post, rkey := some "3k2a",
    canonicalRefIdHint := some "post-1" }

def createPost : Command :=
  { kind := .createRecord, collection := .post, rkey := some "3k2a", record := some [],
    canonicalRefIdHint := some "post-1" }

def timedOut : Attempt := fun _ => ⟨⟨"drawn", "drawn"⟩, some (.after writeTimeout)⟩

def untroubled : Attempt := fun _ => ⟨⟨"drawn again", "drawn again"⟩, none⟩

theorem transient_timedOut : ∀ calls ∈ [timedOut], TransientFailures calls := by
  intro calls listed i
  cases List.mem_singleton.mp listed
  exact (by decide +kernel : isTransient writeTimeout = true)

theorem withRetry_failed {env : Environment} {calls later : Attempt}
    (first : (apply env calls commands s).2 ≠ .ok ())
    (second : (apply env later commands (apply env calls commands s).1).2 ≠ .ok ()) :
    (withRetry env maxAttempts commands attempt [calls, later] s).map (·.2) ≠ some (.ok ()) := by
  obtain ⟨after, outcome, ran⟩ : ∃ t o, apply env calls commands s = (t, o) := ⟨_, _, rfl⟩
  obtain ⟨last, refused, again⟩ : ∃ t o, apply env later commands after = (t, o) := ⟨_, _, rfl⟩
  rw [ran] at first second
  rw [again] at second
  cases outcome with
  | ok => exact absurd rfl first
  | error e =>
    cases refused with
    | ok => exact absurd rfl second
    | error e' =>
      simp only [withRetry, ran, again]
      split
      · split <;> simp
      · simp

end MastopodFederation.Guarantees.BatchRetry
