import Mathlib.Tactic.TypeStar

/-!
# Programs that make calls

A program ends with a result or a failure, or makes a call and goes on with the reply. A trace
lists the calls and the replies; any reply of the right type is possible. A monitor is a state
that follows the calls and may refuse one; the rules compute what a program meets under a
monitor and are sound for every trace.
-/
namespace MastopodFederation.Lib.Calls

variable {C : Type} {R : C → Type} {ε ε' α β S : Type}

inductive Prog (C : Type) (R : C → Type) (ε α : Type) where
  | done (outcome : Except ε α)
  | call (c : C) (next : R c → Prog C R ε α)

namespace Prog

def bind : Prog C R ε α → (α → Prog C R ε β) → Prog C R ε β
  | .done (.ok a), f => f a
  | .done (.error e), _ => .done (.error e)
  | .call c next, f => .call c fun r => bind (next r) f

instance : Monad (Prog C R ε) where
  pure a := .done (.ok a)
  bind := bind

def fail (e : ε) : Prog C R ε α := .done (.error e)

def attempt : Prog C R ε α → Prog C R ε' (Except ε α)
  | .done outcome => .done (.ok outcome)
  | .call c next => .call c fun r => attempt (next r)

def rescue (body : Prog C R ε α) (handler : ε → Prog C R ε' α) : Prog C R ε' α :=
  body.attempt.bind fun
    | .ok a => .done (.ok a)
    | .error e => handler e

def mapError (f : ε → ε') (body : Prog C R ε α) : Prog C R ε' α :=
  body.rescue fun e => .done (.error (f e))

end Prog

structure Monitor (C : Type) (R : C → Type) (S : Type) where
  allows : S → C → Prop
  after : S → (c : C) → R c → S

/-- Every call the program makes from this state of the monitor on is allowed, and
every end it reaches meets the postcondition. -/
def Meets (m : Monitor C R S) : Prog C R ε α → (S → Except ε α → Prop) → S → Prop
  | .done outcome, post, s => post s outcome
  | .call c next, post, s => m.allows s c ∧ ∀ r, Meets m (next r) post (m.after s c r)

section Rules
variable {m : Monitor C R S} {s : S} {post : S → Except ε α → Prop} {outcome : Except ε α}

@[simp] theorem meets_done : Meets m (.done outcome) post s ↔ post s outcome := Iff.rfl

@[simp] theorem meets_pure {a : α} :
    Meets m (pure a : Prog C R ε α) post s ↔ post s (.ok a) := Iff.rfl

@[simp] theorem meets_fail {e : ε} :
    Meets m (Prog.fail e : Prog C R ε α) post s ↔ post s (.error e) := Iff.rfl

@[simp] theorem meets_call {c : C} {next : R c → Prog C R ε α} :
    Meets m (.call c next) post s ↔
      m.allows s c ∧ ∀ r, Meets m (next r) post (m.after s c r) := Iff.rfl

def Then (m : Monitor C R S) (f : α → Prog C R ε β) (post : S → Except ε β → Prop) :
    S → Except ε α → Prop
  | s, .ok a => Meets m (f a) post s
  | s, .error e => post s (.error e)

variable {f : α → Prog C R ε β}

@[simp] theorem then_ok {post : S → Except ε β → Prop} {a : α} :
    Then m f post s (.ok a) ↔ Meets m (f a) post s := Iff.rfl

@[simp] theorem then_error {post : S → Except ε β → Prop} {e : ε} :
    Then m f post s (.error e) ↔ post s (.error e) := Iff.rfl

variable {x : Prog C R ε α}

theorem meets_prog_bind {post : S → Except ε β → Prop} :
    Meets m (x.bind f) post s ↔ Meets m x (Then m f post) s := by
  induction x generalizing s with
  | done outcome =>
    cases outcome with
    | ok a => exact Iff.rfl
    | error e => exact Iff.rfl
  | call c next ih =>
    simp only [Prog.bind, meets_call]
    exact and_congr_right fun _ => forall_congr' fun r => ih r

@[simp] theorem meets_bind {post : S → Except ε β → Prop} :
    Meets m (x >>= f) post s ↔ Meets m x (Then m f post) s := meets_prog_bind

@[simp] theorem meets_attempt {post : S → Except ε' (Except ε α) → Prop} :
    Meets m (x.attempt : Prog C R ε' (Except ε α)) post s ↔
      Meets m x (fun t outcome => post t (.ok outcome)) s := by
  induction x generalizing s with
  | done outcome => exact Iff.rfl
  | call c next ih =>
    simp only [Prog.attempt, meets_call]
    exact and_congr_right fun _ => forall_congr' fun r => ih r

theorem Meets.imp {weaker : S → Except ε α → Prop}
    (met : Meets m x post s) (weakens : ∀ t outcome, post t outcome → weaker t outcome) :
    Meets m x weaker s := by
  induction x generalizing s with
  | done outcome => exact weakens _ _ met
  | call c next ih => exact ⟨met.1, fun r => ih r (met.2 r)⟩

theorem meets_congr {other : S → Except ε α → Prop}
    (same : ∀ t outcome, post t outcome ↔ other t outcome) : Meets m x post s ↔ Meets m x other s :=
  ⟨fun met => met.imp fun t outcome => (same t outcome).mp,
    fun met => met.imp fun t outcome => (same t outcome).mpr⟩

def Rescued (m : Monitor C R S) (handler : ε → Prog C R ε' α) (post : S → Except ε' α → Prop) :
    S → Except ε α → Prop
  | s, .ok a => post s (.ok a)
  | s, .error e => Meets m (handler e) post s

variable {handler : ε → Prog C R ε' α}

@[simp] theorem rescued_error {post : S → Except ε' α → Prop}
    {e : ε} : Rescued m handler post s (.error e) ↔ Meets m (handler e) post s := Iff.rfl

variable {body : Prog C R ε α}

@[simp] theorem meets_rescue {post : S → Except ε' α → Prop} :
    Meets m (body.rescue handler) post s ↔ Meets m body (Rescued m handler post) s := by
  unfold Prog.rescue
  rw [meets_prog_bind, meets_attempt]
  apply meets_congr
  intro t outcome
  cases outcome with
  | ok a => exact Iff.rfl
  | error e => exact Iff.rfl

@[simp] theorem meets_mapError {f : ε → ε'} {post : S → Except ε' α → Prop} :
    Meets m (body.mapError f) post s ↔
      Meets m body (fun t outcome => post t (outcome.mapError f)) s := by
  unfold Prog.mapError
  rw [meets_rescue]
  apply meets_congr
  intro t outcome
  cases outcome with
  | ok a => exact Iff.rfl
  | error e => exact Iff.rfl

theorem meets_ignored {c : C} {next : R c → Prog C R ε α} (allowed : m.allows s c)
    (stays : ∀ r, m.after s c r = s) (met : ∀ r, Meets m (next r) post s) :
    Meets m (.call c pure >>= next) post s := by
  refine ⟨allowed, fun r => ?_⟩
  change Meets m (next r) post (m.after s c r)
  rw [stays r]
  exact met r

def Silent (m : Monitor C R S) (x : Prog C R ε α) : Prop :=
  ∀ s, Meets m x (fun t _ => t = s) s

theorem Silent.meets (silent : Silent m x)
    (ends : ∀ outcome, post s outcome) : Meets m x post s := by
  apply (silent s).imp
  intro t outcome same
  rw [same]
  exact ends outcome

theorem Silent.bind {post : S → Except ε β → Prop}
    (silent : Silent m x) (next : ∀ a, Meets m (f a) post s) (failed : ∀ e, post s (.error e)) :
    Meets m (x >>= f) post s := by
  rw [meets_bind]
  apply silent.meets
  intro outcome
  cases outcome with
  | ok a => exact next a
  | error e => exact failed e

def Ends (P : ε → S → Prop) (Q : α → S → Prop) : S → Except ε α → Prop
  | s, .ok a => Q a s
  | s, .error e => P e s

variable {Q : α → S → Prop}

theorem ends_bind {P : ε → S → Prop} {Q' : β → S → Prop} (first : Meets m x (Ends P Q) s)
    (second : ∀ a t, Q a t → Meets m (f a) (Ends P Q') t) : Meets m (x >>= f) (Ends P Q') s := by
  rw [meets_bind]
  apply first.imp
  intro t outcome ended
  cases outcome with
  | ok a => exact second a t ended
  | error e => exact ended

theorem ends_done {P : ε → S → Prop}
    (failed : ∀ e, outcome = .error e → P e s) (met : ∀ a, outcome = .ok a → Q a s) :
    Meets m (.done outcome) (Ends P Q) s := by
  cases outcome with
  | ok a => exact met a rfl
  | error e => exact failed e rfl

def Keeps (m : Monitor C R S) (P : S → Prop) (x : Prog C R ε α) : Prop :=
  ∀ s, P s → Meets m x (fun t _ => P t) s

variable {P : S → Prop}

theorem keeps_done (outcome : Except ε α) : Keeps m P (.done outcome : Prog C R ε α) :=
  fun _ inside => inside

theorem keeps_pure (a : α) : Keeps m P (pure a : Prog C R ε α) := keeps_done (.ok a)

theorem keeps_fail (e : ε) : Keeps m P (.fail e : Prog C R ε α) := keeps_done (.error e)

theorem Silent.keeps (silent : Silent m x) : Keeps m P x :=
  fun _ inside => silent.meets fun _ => inside

theorem keeps_bind (first : Keeps m P x) (second : ∀ a, Keeps m P (f a)) : Keeps m P (x >>= f) := by
  intro s inside
  rw [meets_bind]
  apply (first s inside).imp
  intro t outcome kept
  cases outcome with
  | ok a => exact second a t kept
  | error e => exact kept

theorem keeps_attempt (body : Keeps m P x) : Keeps m P (x.attempt : Prog C R ε' (Except ε α)) := by
  intro s inside
  rw [meets_attempt]
  exact body s inside

theorem keeps_rescue (body : Keeps m P x)
    (handled : ∀ e, Keeps m P (handler e)) : Keeps m P (x.rescue handler) := by
  intro s inside
  rw [meets_rescue]
  apply (body s inside).imp
  intro t outcome kept
  cases outcome with
  | ok a => exact kept
  | error e => exact handled e t kept

theorem keeps_mapError {f : ε → ε'} (body : Keeps m P x) : Keeps m P (x.mapError f) :=
  keeps_rescue body fun _ => keeps_done _

end Rules

section Only
variable {P : C → Prop}

def Only (P : C → Prop) : Prog C R ε α → Prop
  | .done _ => True
  | .call c next => P c ∧ ∀ r, Only P (next r)

theorem only_any (x : Prog C R ε α) : Only (fun _ => True) x := by
  induction x with
  | done outcome => trivial
  | call c next ih => exact ⟨trivial, ih⟩

theorem only_done (outcome : Except ε α) : Only P (.done outcome : Prog C R ε α) := trivial

theorem only_pure (a : α) : Only P (pure a : Prog C R ε α) := trivial

theorem only_fail (e : ε) : Only P (.fail e : Prog C R ε α) := trivial

theorem only_call {c : C} {next : R c → Prog C R ε α} (admitted : P c)
    (rest : ∀ r, Only P (next r)) : Only P (.call c next) := ⟨admitted, rest⟩

variable {x : Prog C R ε α}

theorem Only.imp {Q : C → Prop} (only : Only P x) (imp : ∀ c, P c → Q c) :
    Only Q x := by
  induction x with
  | done outcome => trivial
  | call c next ih => exact ⟨imp c only.1, fun r => ih r (only.2 r)⟩

variable {f : α → Prog C R ε β}

theorem only_prog_bind (first : Only P x) (second : ∀ a, Only P (f a)) : Only P (x.bind f) := by
  induction x with
  | done outcome =>
    cases outcome with
    | ok a => exact second a
    | error e => trivial
  | call c next ih => exact ⟨first.1, fun r => ih r (first.2 r)⟩

theorem only_bind (first : Only P x)
    (second : ∀ a, Only P (f a)) : Only P (x >>= f) := only_prog_bind first second

theorem only_done_bind {outcome : Except ε α}
    (next : ∀ a, outcome = .ok a → Only P (f a)) : Only P (.done outcome >>= f) := by
  cases outcome with
  | ok a => exact next a rfl
  | error e => trivial

theorem only_attempt (body : Only P x) :
    Only P (x.attempt : Prog C R ε' (Except ε α)) := by
  induction x with
  | done outcome => trivial
  | call c next ih => exact ⟨body.1, fun r => ih r (body.2 r)⟩

theorem only_rescue {handler : ε → Prog C R ε' α} (body : Only P x)
    (handled : ∀ e, Only P (handler e)) : Only P (x.rescue handler) := by
  apply only_prog_bind (only_attempt body)
  intro outcome
  cases outcome with
  | ok a => trivial
  | error e => exact handled e

variable {m : Monitor C R S}

theorem Only.meets {s : S} (only : Only P x)
    (allowed : ∀ c, P c → m.allows s c) (stays : ∀ c r, m.after s c r = s) :
    Meets m x (fun t _ => t = s) s := by
  induction x with
  | done outcome => rfl
  | call c next ih =>
    refine ⟨allowed c only.1, fun r => ?_⟩
    rw [stays c r]
    exact ih r (only.2 r)

theorem Only.keeps {I : S → Prop} (only : Only P x) (allowed : ∀ s c, P c → I s → m.allows s c)
    (stays : ∀ s c r, P c → I s → I (m.after s c r)) : Keeps m I x := by
  induction x with
  | done outcome => exact fun _ inside => inside
  | call c next ih =>
    intro s inside
    exact ⟨allowed s c only.1 inside, fun r => ih r (only.2 r) _ (stays s c r only.1 inside)⟩

theorem Only.silent (only : Only P x)
    (ignored : ∀ s c, P c → m.allows s c ∧ ∀ r, m.after s c r = s) : Silent m x := by
  induction x with
  | done outcome => exact fun s => rfl
  | call c next ih =>
    intro s
    obtain ⟨admitted, stays⟩ := ignored s c only.1
    refine ⟨admitted, fun r => ?_⟩
    rw [stays r]
    exact ih r (only.2 r) s

end Only

section Returns
variable {Q : α → Prop} {m : Monitor C R S} {P : S → Prop}

def Returns (Q : α → Prop) : Prog C R ε α → Prop
  | .done outcome => ∀ a, outcome = .ok a → Q a
  | .call _ next => ∀ r, Returns Q (next r)

theorem returns_pure {a : α} (met : Q a) : Returns Q (pure a : Prog C R ε α) := by
  intro b same
  cases same
  exact met

theorem returns_bind {β : Type} {x : Prog C R ε β} {f : β → Prog C R ε α}
    (second : ∀ b, Returns Q (f b)) : Returns Q (x >>= f) := by
  change Returns Q (x.bind f)
  induction x with
  | done outcome =>
    cases outcome with
    | ok b => exact second b
    | error e => exact fun _ failed => nomatch failed
  | call c next ih => exact fun r => ih r

variable {f : α → Prog C R ε β}

theorem Keeps.bind_returns {x : Prog C R ε α} (first : Keeps m P x)
    (returns : Returns Q x) (second : ∀ a, Q a → Keeps m P (f a)) : Keeps m P (x >>= f) := by
  intro s inside
  have kept := first s inside
  change Meets m (x.bind f) _ s
  clear first inside
  induction x generalizing s with
  | done outcome =>
    cases outcome with
    | ok a => exact second a (returns a rfl) s kept
    | error e => exact kept
  | call c next ih => exact ⟨kept.1, fun r => ih r (returns r) _ (kept.2 r)⟩

theorem Only.bind_returns {P : C → Prop} {x : Prog C R ε α}
    (first : Only P x) (returns : Returns Q x) (second : ∀ a, Q a → Only P (f a)) :
    Only P (x >>= f) := by
  change Only P (x.bind f)
  induction x with
  | done outcome =>
    cases outcome with
    | ok a => exact second a (returns a rfl)
    | error e => trivial
  | call c next ih => exact ⟨first.1, fun r => ih r (first.2 r) (returns r)⟩

end Returns

structure Event (C : Type) (R : C → Type) where
  called : C
  reply : R called

inductive Trace : Prog C R ε α → List (Event C R) → Except ε α → Prop where
  | done (outcome : Except ε α) : Trace (.done outcome) [] outcome
  | call (c : C) (next : R c → Prog C R ε α) (r : R c) {events : List (Event C R)}
      {outcome : Except ε α} (rest : Trace (next r) events outcome) :
      Trace (.call c next) (⟨c, r⟩ :: events) outcome

def Prog.run (answer : (c : C) → R c) : Prog C R ε α → List (Event C R) × Except ε α
  | .done outcome => ([], outcome)
  | .call c next =>
    let rest := Prog.run answer (next (answer c))
    (⟨c, answer c⟩ :: rest.1, rest.2)

theorem trace_run (answer : (c : C) → R c) (x : Prog C R ε α) :
    Trace x (x.run answer).1 (x.run answer).2 := by
  induction x with
  | done outcome => exact .done outcome
  | call c next ih => exact .call c next (answer c) (ih (answer c))

def Monitor.follow (m : Monitor C R S) (s : S) (events : List (Event C R)) : S :=
  events.foldl (fun t e => m.after t e.called e.reply) s

theorem Meets.sound {m : Monitor C R S} {x : Prog C R ε α} {post : S → Except ε α → Prop}
    {events : List (Event C R)} {outcome : Except ε α} (trace : Trace x events outcome) :
    ∀ {s : S}, Meets m x post s → post (m.follow s events) outcome := by
  induction trace with
  | done outcome => exact fun met => met
  | call c next r rest ih => exact fun met => ih (met.2 r)

end MastopodFederation.Lib.Calls
