import Mathlib.Tactic.TypeStar

/-!
# Partial functions that invert each other

A directory names a place for some ids and the places remember their ids. Setting or clearing
one pair on both sides keeps the two views the same, as long as the id names no other place and
no other id names the place.
-/
namespace MastopodFederation.Lib.Correspondence

variable {ι κ : Type*} [DecidableEq ι] [DecidableEq κ]

def Corresponds (held : κ → Option ι) (named : ι → Option κ) : Prop :=
  ∀ place id, held place = some id ↔ named id = some place

def change {α β : Type*} [DecidableEq α] (f : α → β) (a : α) (b : β) : α → β :=
  fun x => if x = a then b else f x

@[simp] theorem change_same {α β : Type*} [DecidableEq α] (f : α → β) (a : α) (b : β) :
    change f a b a = b := if_pos rfl

theorem change_other {α β : Type*} [DecidableEq α] {f : α → β} {a x : α} {b : β} (other : x ≠ a) :
    change f a b x = f x := if_neg other

structure Free (named : ι → Option κ) (id : ι) (place : κ) : Prop where
  only : ∀ other, named id = some other → other = place
  alone : ∀ other, named other = some place → other = id

variable {held : κ → Option ι} {named : ι → Option κ} {id : ι} {place : κ}

theorem Corresponds.change (corresponds : Corresponds held named) (free : Free named id place)
    (kept : Bool) :
    Corresponds (change held place (if kept then some id else none))
      (change named id (if kept then some place else none)) := by
  intro there other
  by_cases here : there = place
  · subst here
    rw [change_same]
    by_cases own : other = id
    · subst own
      rw [change_same]
      cases kept <;> simp
    · rw [change_other own]
      constructor
      · intro taken
        cases kept
        · nomatch taken
        · cases taken
          exact absurd rfl own
      · exact fun taken => absurd (free.alone other taken) own
  · rw [change_other here]
    by_cases own : other = id
    · subst own
      rw [change_same, corresponds there other]
      constructor
      · exact fun taken => absurd (free.only there taken) here
      · intro taken
        cases kept
        · nomatch taken
        · cases taken
          exact absurd rfl here
    · rw [change_other own]
      exact corresponds there other

theorem Free.change {id' : ι} {place' : κ} (free : Free named id place) (ids : id ≠ id')
    (places : place ≠ place') (kept : Bool) :
    Free (Correspondence.change named id' (if kept then some place' else none)) id place where
  only other there := by
    rw [change_other ids] at there
    exact free.only other there
  alone other there := by
    by_cases own : other = id'
    · subst own
      rw [change_same] at there
      cases kept
      · nomatch there
      · cases there
        exact absurd rfl places
    · rw [change_other own] at there
      exact free.alone other there

end MastopodFederation.Lib.Correspondence
