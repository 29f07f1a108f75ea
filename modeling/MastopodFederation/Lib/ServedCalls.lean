import MastopodFederation.Lib.Calls

/-!
# Calls that a service answers

A service has a state, answers each call from it, and has a reply for the call that
fails. A call may be answered, may fail before it had its effect, or may fail after it. A run
fixes what becomes of every call; what holds at the end of every run is computed from the
program, one rule for each way of building it.
-/
namespace MastopodFederation.Lib.ServedCalls
open Calls

variable {C : Type} {R : C → Type} {ε ε' α β S : Type}

structure Service (C : Type) (R : C → Type) (S : Type) where
  answer : S → (c : C) → R c × S
  refuse : (c : C) → R c

inductive Fate where
  | answered
  /-- it fails and has no effect -/
  | refused
  /-- it has its effect, and fails all the same -/
  | unanswered
  deriving DecidableEq

def undisturbed : C → Fate := fun _ => .answered

namespace Service
variable (v : Service C R S)

def suffer (s : S) (c : C) : Fate → R c × S
  | .answered => v.answer s c
  | .refused => (v.refuse c, s)
  | .unanswered => (v.refuse c, (v.answer s c).2)

def run (fates : C → Fate) : Prog C R ε α → S → Except ε α × S
  | .done outcome, s => (outcome, s)
  | .call c next, s => run fates (next (v.suffer s c (fates c)).1) (v.suffer s c (fates c)).2

end Service

variable {v : Service C R S} {s t : S} {post : S → Except ε α → Prop}

section Run
variable {fates : C → Fate}

@[simp] theorem run_pure (a : α) : v.run fates (pure a : Prog C R ε α) s = (.ok a, s) := rfl

@[simp] theorem run_fail (e : ε) : v.run fates (Prog.fail e : Prog C R ε α) s = (.error e, s) :=
  rfl

theorem run_prog_bind (x : Prog C R ε α) (f : α → Prog C R ε β) (s : S) :
    v.run fates (x.bind f) s =
      match v.run fates x s with
      | (.ok a, t) => v.run fates (f a) t
      | (.error e, t) => (.error e, t) := by
  induction x generalizing s with
  | done outcome =>
    cases outcome with
    | ok a => rfl
    | error e => rfl
  | call c next ih => exact ih _ _

theorem run_bind (x : Prog C R ε α) (f : α → Prog C R ε β) (s : S) :
    v.run fates (x >>= f) s =
      match v.run fates x s with
      | (.ok a, t) => v.run fates (f a) t
      | (.error e, t) => (.error e, t) := run_prog_bind x f s

variable {x : Prog C R ε α} {f : α → Prog C R ε β} {a : α}

theorem run_bind_ok
    (first : v.run fates x s = (.ok a, t)) : v.run fates (x >>= f) s = v.run fates (f a) t := by
  rw [run_bind, first]

theorem run_bind_error {e : ε}
    (first : v.run fates x s = (.error e, t)) : v.run fates (x >>= f) s = (.error e, t) := by
  rw [run_bind, first]

theorem run_attempt (x : Prog C R ε α) (s : S) :
    v.run fates (x.attempt : Prog C R ε' (Except ε α)) s =
      (.ok (v.run fates x s).1, (v.run fates x s).2) := by
  induction x generalizing s with
  | done outcome => rfl
  | call c next ih => exact ih _ _

def Gives (v : Service C R S) (x : Prog C R ε α) (s : S) (a : α) (t : S) : Prop :=
  v.run undisturbed x s = (.ok a, t)

theorem gives_pure {b : α} : Gives v (pure a : Prog C R ε α) s b t ↔ b = a ∧ t = s := by
  simp [Gives, eq_comm]

theorem not_gives_fail {e : ε} : ¬ Gives v (Prog.fail e : Prog C R ε α) s a t := by
  simp [Gives]

theorem gives_bind {b : β} :
    Gives v (x >>= f) s b t ↔ ∃ a r, Gives v x s a r ∧ Gives v (f a) r b t := by
  unfold Gives
  rw [run_bind]
  constructor
  · intro ran
    cases first : v.run undisturbed x s with
    | mk outcome r =>
      rw [first] at ran
      cases outcome with
      | ok a => exact ⟨a, r, rfl, ran⟩
      | error e => simp at ran
  · intro ⟨a, r, first, second⟩
    rw [first]
    exact second

theorem gives_rescue {handler : ε → Prog C R ε' α} (failed : ∀ e r, ¬ Gives v (handler e) r a t) :
    Gives v (x.rescue handler) s a t ↔ Gives v x s a t := by
  unfold Gives Prog.rescue
  rw [run_prog_bind, run_attempt]
  cases v.run undisturbed x s with
  | mk outcome r =>
    cases outcome with
    | ok b =>
      constructor
      · intro ran
        cases ran
        rfl
      · intro ran
        cases ran
        rfl
    | error e => exact iff_of_false (failed e r) (by simp)

end Run

end MastopodFederation.Lib.ServedCalls
