import Mathlib

/-!
# Numerals of a fixed width

The digits of a number in a base, most significant first and padded to a width. Where
the width holds the numbers, their order is that of the numerals, read as words over
the ordered digits, and a numeral gives its number back.
-/
namespace MastopodFederation.Lib.FixedDigits

variable {α : Type} (base : Nat) (digit : Nat → α)

def numeral : (width : Nat) → Nat → List α
  | 0, _ => []
  | width + 1, n => numeral width (n / base) ++ [digit (n % base)]

def value (valueOf : α → Nat) (digits : List α) : Nat :=
  digits.foldl (fun n d => n * base + valueOf d) 0

variable {base digit}

@[simp] theorem length_numeral (width n : Nat) : (numeral base digit width n).length = width := by
  induction width generalizing n with
  | zero => rfl
  | succ width ih => simp [numeral, ih]

theorem mem_numeral {width n : Nat} {d : α} (mem : d ∈ numeral base digit width n) :
    ∃ m, d = digit (m % base) := by
  induction width generalizing n with
  | zero => cases mem
  | succ width ih =>
    rcases List.mem_append.mp mem with earlier | last
    · exact ih earlier
    · exact ⟨n, List.mem_singleton.mp last⟩

theorem numeral_zero (width : Nat) :
    numeral base digit width 0 = List.replicate width (digit 0) := by
  induction width with
  | zero => rfl
  | succ width ih => rw [numeral, Nat.zero_div, Nat.zero_mod, ih, ← List.replicate_succ']

theorem numeral_pad {width n : Nat} (positive : 0 < base) (extra : Nat) (fits : n < base ^ width) :
    numeral base digit (extra + width) n =
      List.replicate extra (digit 0) ++ numeral base digit width n := by
  induction width generalizing n with
  | zero =>
    have zero : n = 0 := by simpa using fits
    subst zero
    simp [numeral_zero, numeral]
  | succ width ih =>
    have fits' : n / base < base ^ width := by
      rw [Nat.div_lt_iff_lt_mul positive, ← Nat.pow_succ]
      exact fits
    rw [← Nat.add_assoc, numeral, numeral, ih fits', List.append_assoc]

theorem value_numeral {valueOf : α → Nat} (positive : 0 < base)
    (back : ∀ d < base, valueOf (digit d) = d) {width n : Nat} (fits : n < base ^ width) :
    value base valueOf (numeral base digit width n) = n := by
  induction width generalizing n with
  | zero =>
    have zero : n = 0 := by simpa using fits
    subst zero
    rfl
  | succ width ih =>
    have fits' : n / base < base ^ width := by
      rw [Nat.div_lt_iff_lt_mul positive, ← Nat.pow_succ]
      exact fits
    have step : value base valueOf (numeral base digit (width + 1) n) =
        value base valueOf (numeral base digit width (n / base)) * base +
          valueOf (digit (n % base)) := by
      simp [value, numeral, List.foldl_append]
    rw [step, ih fits', back _ (Nat.mod_lt n positive), Nat.mul_comm, Nat.div_add_mod]

variable [LT α]

theorem append_lt {xs ys : List α} (same : xs.length = ys.length) (less : xs < ys)
    (xs' ys' : List α) : xs ++ xs' < ys ++ ys' := by
  induction less with
  | nil => simp at same
  | rel less => exact List.Lex.rel less
  | cons _ ih => exact List.Lex.cons (ih (by simpa using same))

theorem numeral_lt (ordered : ∀ d e, d < e → e < base → digit d < digit e) (positive : 0 < base)
    {width m n : Nat} (less : m < n) (fits : n < base ^ width) :
    numeral base digit width m < numeral base digit width n := by
  induction width generalizing m n with
  | zero =>
    have : n < 1 := by simpa using fits
    omega
  | succ width ih =>
    have fits' : n / base < base ^ width := by
      rw [Nat.div_lt_iff_lt_mul positive, ← Nat.pow_succ]
      exact fits
    rcases Nat.lt_or_ge (m / base) (n / base) with high | high
    · exact append_lt (by simp) (ih high fits') _ _
    · -- the higher digits agree, so that the last one decides
      have same : m / base = n / base := Nat.le_antisymm (Nat.div_le_div_right less.le) high
      have last : m % base < n % base := by
        have hm := Nat.div_add_mod m base
        have hn := Nat.div_add_mod n base
        rw [same] at hm
        omega
      rw [numeral, numeral, same]
      exact List.append_left_lt
        (List.Lex.rel (ordered _ _ last (Nat.mod_lt n positive)))

end MastopodFederation.Lib.FixedDigits
