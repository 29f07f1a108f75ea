import Mathlib

/-!
# Lists without blanks at their ends
-/
namespace MastopodFederation.Lib.Trimmed

variable {α : Type} (blank : α → Bool)

def trimmed (text : List α) : List α := (text.dropWhile blank).rdropWhile blank

theorem dropWhile_of_initial {part text : List α} (initial : part <+: text)
    (start : text.dropWhile blank = text) : part.dropWhile blank = part := by
  cases part with
  | nil => rfl
  | cons x xs =>
    obtain ⟨rest, rfl⟩ := initial
    rw [List.cons_append] at start
    rw [List.dropWhile_eq_self_iff] at start ⊢
    intro _
    exact start (by simp)

theorem trimmed_of_forall {text : List α} (filled : ∀ x ∈ text, blank x = false) :
    trimmed blank text = text := by
  have first : text.dropWhile blank = text := by
    rw [List.dropWhile_eq_self_iff]
    intro _
    simp [filled]
  rw [trimmed, first, List.rdropWhile_eq_self_iff]
  intro _
  simp [filled]

theorem trimmed_trimmed (text : List α) : trimmed blank (trimmed blank text) = trimmed blank text := by
  unfold trimmed
  rw [dropWhile_of_initial blank (List.rdropWhile_prefix _ _) (List.dropWhile_idempotent _ _),
    List.rdropWhile_idempotent]

end MastopodFederation.Lib.Trimmed

/-!
# ASCII lower case

Lower case changes letters alone: a test that no letter passes does not see it.
-/
namespace MastopodFederation.Lib.AsciiCase

variable {c : Char}

theorem isUpper_iff : c.isUpper = true ↔ 65 ≤ c.toNat ∧ c.toNat ≤ 90 := by
  simp only [Char.isUpper, decide_eq_true_eq]
  rfl

theorem isLower_iff : c.isLower = true ↔ 97 ≤ c.toNat ∧ c.toNat ≤ 122 := by
  simp only [Char.isLower, Bool.and_eq_true, decide_eq_true_eq]
  rfl

theorem isDigit_iff : c.isDigit = true ↔ 48 ≤ c.toNat ∧ c.toNat ≤ 57 := by
  simp only [Char.isDigit, Bool.and_eq_true, decide_eq_true_eq]
  rfl

theorem isAlpha_iff : c.isAlpha = true ↔
    (65 ≤ c.toNat ∧ c.toNat ≤ 90) ∨ (97 ≤ c.toNat ∧ c.toNat ≤ 122) := by
  simp [Char.isAlpha, isUpper_iff, isLower_iff]

theorem toLower_of_not_isUpper (other : ¬ c.isUpper) : c.toLower = c := by
  unfold Char.toLower
  rw [dif_neg]
  simpa [Char.isUpper] using other

theorem toNat_toLower (upper : c.isUpper) : c.toLower.toNat = c.toNat + 32 := by
  have bounds := isUpper_iff.mp upper
  unfold Char.toLower
  rw [dif_pos (by simpa [Char.isUpper] using upper)]
  change (c.val + ('a'.val - 'A'.val)).toNat = _
  rw [UInt32.toNat_add]
  have : ('a'.val - 'A'.val).toNat = 32 := rfl
  exact Nat.mod_eq_of_lt (by have : c.val.toNat = c.toNat := rfl; omega)

theorem isUpper_toLower (c : Char) : ¬ c.toLower.isUpper := by
  by_cases upper : c.isUpper = true
  · have bounds := isUpper_iff.mp upper
    rw [isUpper_iff, toNat_toLower upper]
    omega
  · rwa [toLower_of_not_isUpper upper]

theorem toLower_idem (c : Char) : c.toLower.toLower = c.toLower :=
  toLower_of_not_isUpper (isUpper_toLower c)

theorem alpha_toLower (c : Char) : c.toLower.isAlpha = c.isAlpha := by
  by_cases upper : c.isUpper = true
  · have bounds := isUpper_iff.mp upper
    rw [Bool.eq_iff_iff, isAlpha_iff, isAlpha_iff, toNat_toLower upper]
    omega
  · rw [toLower_of_not_isUpper upper]

theorem toLower_lt (ascii : c.toNat < 128) : c.toLower.toNat < 128 := by
  by_cases upper : c.isUpper = true
  · have bounds := isUpper_iff.mp upper
    rw [toNat_toLower upper]
    omega
  · rwa [toLower_of_not_isUpper upper]

theorem toLower_inert {P : Char → Bool} (other : ∀ c, P c = true → c.isAlpha = false) (c : Char) :
    P c.toLower = P c := by
  by_cases upper : c.isUpper = true
  · have alpha : c.isAlpha = true := by simp [Char.isAlpha, upper]
    have refused : ∀ d : Char, d.isAlpha = true → P d = false := by
      intro d letter
      by_contra holds
      simp [other d (by simpa using holds)] at letter
    rw [refused c alpha, refused _ ((alpha_toLower c).trans alpha)]
  · rw [toLower_of_not_isUpper upper]

theorem toLower_mem {symbols : List Char} (other : symbols.all fun d => !d.isAlpha) (c : Char) :
    c.toLower ∈ symbols ↔ c ∈ symbols := by
  simpa using toLower_inert (P := fun c => decide (c ∈ symbols)) (by simpa using other) c

theorem isDigit_toLower (c : Char) : c.toLower.isDigit = c.isDigit := by
  apply toLower_inert
  intro c digit
  have bounds := isDigit_iff.mp digit
  rw [← Bool.not_eq_true, isAlpha_iff]
  omega

end MastopodFederation.Lib.AsciiCase
