import MastopodFederation.Lib.Calls

/-!
# Programs alone with a state

The calls of a program read and change a state through a relation, which may leave replies open.
`Sure` is the weakest condition under which every execution ends as required, with one rule for
each way of building a program.
-/
namespace MastopodFederation.Lib.CallEffects
open Calls

variable {C : Type} {R : C → Type} {ε ε' α β σ : Type}

inductive Executes (effect : (c : C) → σ → R c → σ → Prop) :
    Prog C R ε α → σ → Except ε α → σ → Prop where
  | done (outcome : Except ε α) (s : σ) : Executes effect (.done outcome) s outcome s
  | call {c : C} {next : R c → Prog C R ε α} {s t u : σ} {reply : R c} {outcome : Except ε α}
      (performed : effect c s reply t) (later : Executes effect (next reply) t outcome u) :
      Executes effect (.call c next) s outcome u

def Sure (effect : (c : C) → σ → R c → σ → Prop) :
    Prog C R ε α → (σ → Except ε α → Prop) → σ → Prop
  | .done outcome, post, s => post s outcome
  | .call c next, post, s => ∀ reply t, effect c s reply t → Sure effect (next reply) post t

variable {effect : (c : C) → σ → R c → σ → Prop} {x : Prog C R ε α} {s : σ}

theorem Sure.sound {post : σ → Except ε α → Prop} {t : σ}
    {outcome : Except ε α} (sure : Sure effect x post s) (executed : Executes effect x s outcome t) :
    post t outcome := by
  induction executed with
  | done => exact sure
  | call performed _ ih => exact ih (sure _ _ performed)

theorem Sure.imp {post weaker : σ → Except ε α → Prop}
    (sure : Sure effect x post s) (weakens : ∀ t outcome, post t outcome → weaker t outcome) :
    Sure effect x weaker s := by
  induction x generalizing s with
  | done outcome => exact weakens s outcome sure
  | call c next ih => exact fun reply t performed => ih reply (sure reply t performed)

variable {post : σ → Except ε β → Prop} {f : α → Prog C R ε β}

theorem sure_prog_bind (first : Sure effect x (fun t outcome => match outcome with
      | .ok a => Sure effect (f a) post t
      | .error e => post t (.error e)) s) :
    Sure effect (x.bind f) post s := by
  induction x generalizing s with
  | done outcome => cases outcome <;> exact first
  | call c next ih => exact fun reply t performed => ih reply (first reply t performed)

variable {middle : σ → Except ε α → Prop}

theorem sure_bind (first : Sure effect x middle s)
    (onward : ∀ t a, middle t (.ok a) → Sure effect (f a) post t)
    (failed : ∀ t e, middle t (.error e) → post t (.error e)) : Sure effect (x >>= f) post s := by
  refine sure_prog_bind (first.imp fun t outcome ended => ?_)
  cases outcome with
  | ok a => exact onward t a ended
  | error e => exact failed t e ended

theorem sure_attempt {post : σ → Except ε' (Except ε α) → Prop}
    (body : Sure effect x (fun t outcome => post t (.ok outcome)) s) :
    Sure effect (x.attempt : Prog C R ε' (Except ε α)) post s := by
  induction x generalizing s with
  | done outcome => exact body
  | call c next ih => exact fun reply t performed => ih reply (body reply t performed)

theorem sure_rescue {handler : ε → Prog C R ε' α} {post : σ → Except ε' α → Prop}
    (body : Sure effect x middle s) (fine : ∀ t a, middle t (.ok a) → post t (.ok a))
    (handled : ∀ t e, middle t (.error e) → Sure effect (handler e) post t) :
    Sure effect (x.rescue handler) post s := by
  refine sure_prog_bind (sure_attempt (body.imp fun t outcome ended => ?_))
  cases outcome with
  | ok a => exact fine t a ended
  | error e => exact handled t e ended

theorem executes_of_total (total : ∀ c s, ∃ reply t, effect c s reply t) (x : Prog C R ε α)
    (s : σ) : ∃ outcome t, Executes effect x s outcome t := by
  induction x generalizing s with
  | done outcome => exact ⟨outcome, s, .done outcome s⟩
  | call c next ih =>
    obtain ⟨reply, t, performed⟩ := total c s
    obtain ⟨outcome, u, later⟩ := ih reply t
    exact ⟨outcome, u, .call performed later⟩

end MastopodFederation.Lib.CallEffects
