import Mathlib.Tactic.TypeStar

/-!
# Fallible computations that log what they touch

A computation returns a result or fails, and in both cases leaves the list of the
entries it logged, in order. The rules below make statements about all entries of a log.
-/
namespace MastopodFederation.Lib.Logged

universe u
variable {ω ε : Type u}

theorem except_bind_ok {α β : Type u} {x : Except ε α} {f : α → Except ε β} {b : β} :
    x >>= f = .ok b ↔ ∃ a, x = .ok a ∧ f a = .ok b := by
  cases x <;> simp [bind, Except.bind]

structure Logged (ω ε α : Type u) where
  result : Except ε α
  log : List ω

namespace Logged

variable {α β : Type u}

def bind (x : Logged ω ε α) (f : α → Logged ω ε β) : Logged ω ε β :=
  match x.result with
  | .error e => ⟨.error e, x.log⟩
  | .ok a => ⟨(f a).result, x.log ++ (f a).log⟩

instance : Monad (Logged ω ε) where
  pure a := ⟨.ok a, []⟩
  bind := bind

def fail (e : ε) : Logged ω ε α := ⟨.error e, []⟩

def attempt (x : Logged ω ε α) : Logged ω ε (Except ε α) := ⟨.ok x.result, x.log⟩

def touch (e : ω) : Logged ω ε PUnit := ⟨.ok ⟨⟩, [e]⟩

def reply (e : ω) (result : Except ε α) : Logged ω ε α := ⟨result, [e]⟩

def ofExcept (result : Except ε α) : Logged ω ε α := ⟨result, []⟩

@[simp] theorem result_pure (a : α) : (pure a : Logged ω ε α).result = .ok a := rfl
@[simp] theorem log_pure (a : α) : (pure a : Logged ω ε α).log = [] := rfl
@[simp] theorem result_fail (e : ε) : (fail e : Logged ω ε α).result = .error e := rfl
@[simp] theorem log_fail (e : ε) : (fail e : Logged ω ε α).log = [] := rfl
@[simp] theorem result_attempt (x : Logged ω ε α) : (attempt x).result = .ok x.result := rfl
@[simp] theorem log_attempt (x : Logged ω ε α) : (attempt x).log = x.log := rfl
@[simp] theorem result_touch (e : ω) : (touch e : Logged ω ε PUnit).result = .ok ⟨⟩ := rfl
@[simp] theorem log_touch (e : ω) : (touch e : Logged ω ε PUnit).log = [e] := rfl
@[simp] theorem result_reply (e : ω) (r : Except ε α) : (reply e r).result = r := rfl
@[simp] theorem log_reply (e : ω) (r : Except ε α) : (reply e r).log = [e] := rfl
@[simp] theorem result_ofExcept (r : Except ε α) :
    (ofExcept r : Logged ω ε α).result = r := rfl
@[simp] theorem log_ofExcept (r : Except ε α) : (ofExcept r : Logged ω ε α).log = [] := rfl

variable {x : Logged ω ε α} {f : α → Logged ω ε β}

theorem bind_ok {b : β} :
    (x >>= f).result = .ok b ↔ ∃ a, x.result = .ok a ∧ (f a).result = .ok b := by
  change (bind x f).result = .ok b ↔ _
  unfold bind
  split
  next e failed => simp [failed]
  next a returned => simp [returned]

theorem bind_of_ok {a : α} (returned : x.result = .ok a) :
    x >>= f = ⟨(f a).result, x.log ++ (f a).log⟩ := by
  change bind x f = _
  simp [bind, returned]

theorem bind_of_error {e : ε} (failed : x.result = .error e) :
    x >>= f = ⟨.error e, x.log⟩ := by
  change bind x f = _
  simp [bind, failed]

theorem mem_log_bind {e : ω} :
    e ∈ (x >>= f).log ↔ e ∈ x.log ∨ ∃ a, x.result = .ok a ∧ e ∈ (f a).log := by
  cases h : x.result with
  | error failure => simp [bind_of_error h]
  | ok a => simp [bind_of_ok h]

def Emits (P : ω → Prop) (x : Logged ω ε α) : Prop := ∀ e ∈ x.log, P e

variable {P : ω → Prop}

theorem emits_pure (a : α) : Emits P (pure a : Logged ω ε α) := by simp [Emits]

theorem emits_ofExcept (r : Except ε α) : Emits P (ofExcept r : Logged ω ε α) := by simp [Emits]

theorem emits_reply {e : ω} {r : Except ε α} (h : P e) : Emits P (reply e r) := by
  simpa [Emits] using h

theorem emits_bind (first : Emits P x) (second : ∀ a, x.result = .ok a → Emits P (f a)) :
    Emits P (x >>= f) := by
  intro e mem
  rcases mem_log_bind.mp mem with early | ⟨a, returned, late⟩
  · exact first e early
  · exact second a returned e late

theorem emits_attempt (body : Emits P x) : Emits P (attempt x) := body

theorem emits_forM {γ : Type u} {g : γ → Logged ω ε PUnit} :
    ∀ (items : List γ), (∀ c ∈ items, Emits P (g c)) → Emits P (forM items g)
  | [], _ => by simpa using emits_pure (P := P) (ω := ω) (ε := ε) PUnit.unit
  | c :: rest, each => by
    rw [List.forM_cons]
    exact emits_bind (each c (by simp)) fun _ _ =>
      emits_forM rest fun c mem => each c (by simp [mem])

section Meets

variable {p q : α → Prop} {admits : ε → Prop} {then' : β → Prop}

def Meets (post : α → Prop) (admits : ε → Prop) (x : Logged ω ε α) : Prop :=
  (∀ a, x.result = .ok a → post a) ∧ ∀ e, x.result = .error e → admits e

theorem meets_pure {a : α} (met : p a) : Meets p admits (pure a : Logged ω ε α) := by
  simpa [Meets] using met

theorem meets_fail {e : ε} (admitted : admits e) :
    Meets p admits (fail e : Logged ω ε α) := by
  simpa [Meets] using admitted

theorem meets_ofExcept {r : Except ε α} (returned : ∀ a, r = .ok a → p a)
    (failed : ∀ e, r = .error e → admits e) :
    Meets p admits (ofExcept r : Logged ω ε α) := ⟨returned, failed⟩

theorem Meets.imp (weaker : ∀ a, x.result = .ok a → q a → p a)
    (met : Meets q admits x) : Meets p admits x :=
  ⟨fun a returned => weaker a returned (met.1 a returned), met.2⟩

theorem Meets.bind (first : Meets q admits x)
    (second : ∀ a, x.result = .ok a → q a → Meets then' admits (f a)) :
    Meets then' admits (x >>= f) := by
  cases outcome : x.result with
  | error e =>
    rw [bind_of_error outcome]
    simpa [Meets] using first.2 e outcome
  | ok a =>
    rw [bind_of_ok outcome]
    have later := second a outcome (first.1 a outcome)
    exact ⟨later.1, later.2⟩

end Meets

section Spends

variable {p q : α → Prop} {admits : ε → Prop} {then' : β → Prop} {n more : Nat}

def Spends (budget : Nat) (post : α → Prop) (admits : ε → Prop) (x : Logged ω ε α) : Prop :=
  x.log.length ≤ budget ∧ Meets post admits x

theorem spends_pure {a : α} (met : p a) :
    Spends n p admits (pure a : Logged ω ε α) := ⟨by simp, meets_pure met⟩

theorem spends_fail {e : ε} (admitted : admits e) :
    Spends n p admits (fail e : Logged ω ε α) := ⟨by simp, meets_fail admitted⟩

theorem spends_ofExcept {r : Except ε α} (returned : ∀ a, r = .ok a → p a)
    (failed : ∀ e, r = .error e → admits e) :
    Spends n p admits (ofExcept r : Logged ω ε α) :=
  ⟨by simp, meets_ofExcept returned failed⟩

theorem Spends.imp (weaker : ∀ a, x.result = .ok a → q a → p a)
    (spends : Spends n q admits x) : Spends n p admits x :=
  ⟨spends.1, spends.2.imp weaker⟩

theorem Spends.mono (le : n ≤ more) (spends : Spends n p admits x) :
    Spends more p admits x :=
  ⟨Nat.le_trans spends.1 le, spends.2⟩

theorem Spends.bind (first : Spends n q admits x)
    (second : ∀ a, x.result = .ok a → q a → Spends more then' admits (f a)) :
    Spends (n + more) then' admits (x >>= f) := by
  refine ⟨?_, first.2.bind fun a returned met => (second a returned met).2⟩
  have early := first.1
  cases outcome : x.result with
  | error e =>
    rw [bind_of_error outcome]
    exact Nat.le_trans early (Nat.le_add_right _ _)
  | ok a =>
    have late := (second a outcome (first.2.1 a outcome)).1
    rw [bind_of_ok outcome, List.length_append]
    exact Nat.add_le_add early late

theorem Spends.freeBind (first : Spends 0 q admits x)
    (second : ∀ a, x.result = .ok a → q a → Spends n then' admits (f a)) :
    Spends n then' admits (x >>= f) :=
  (first.bind second).mono (Nat.le_of_eq (Nat.zero_add n))

theorem Spends.bindFree (first : Spends n q admits x)
    (second : ∀ a, x.result = .ok a → q a → Spends 0 then' admits (f a)) :
    Spends n then' admits (x >>= f) := first.bind second

end Spends

end Logged

end MastopodFederation.Lib.Logged
