import MastopodFederation.Lib.FixedDigits
import MastopodFederation.Source.AtRkeyService

/-!
# Record keys sort by publication time

The key of a post is the numeral of its time and ten random bits in thirteen digits of
base 32, so that keys of different times are ordered as the times are and give the
times back.
-/
namespace MastopodFederation.Guarantees.RecordKeyOrder
open Lib.FixedDigits Source.AtRkeyService

def lastTime : Nat := 8640000000000000

structure IsTid (tid : String) : Prop where
  length : tid.toList.length = 13
  letters : ∀ c ∈ tid.toList, c ∈ alphabet

def timeOf (tid : String) : Nat := value 32 alphabet.idxOf tid.toList >>> 10

theorem digitOf_mod (n : Nat) : digitOf (n % 32) = digitOf n := by
  have low (m : Nat) : m &&& 31 = m % 32 := Nat.and_two_pow_sub_one_eq_mod m 5
  simp [digitOf, low]

theorem digitOf_lt (d e : Nat) (less : d < e) (small : e < 32) : digitOf d < digitOf e := by
  have table : ∀ e < 32, ∀ d < e, digitOf d < digitOf e := by decide +kernel
  exact table e small d less

theorem idxOf_digitOf : ∀ d < 32, alphabet.idxOf (digitOf d) = d := by decide +kernel

theorem digitOf_mem (n : Nat) : digitOf n ∈ alphabet := by
  have small : ∀ d < 32, digitOf d ∈ alphabet := by decide +kernel
  rw [← digitOf_mod]
  exact small _ (Nat.mod_lt n (by decide))

theorem encodeDigits_eq {width n : Nat} (fits : n < 32 ^ width) (result : List Char) :
    encodeDigits n result =
        (encodeDigits n []) ++ result ∧
      padStart (encodeDigits n []) width '2' = numeral 32 digitOf width n := by
  induction width generalizing n result with
  | zero =>
    have zero : n = 0 := by simpa using fits
    subst zero
    simp [encodeDigits, padStart, numeral]
  | succ width ih =>
    by_cases zero : n = 0
    · subst zero
      constructor
      · simp [encodeDigits]
      · rw [numeral_zero, encodeDigits, if_pos rfl]
        exact List.append_nil _
    · have fits' : n >>> 5 < 32 ^ width := by
        rw [Nat.shiftRight_eq_div_pow, Nat.div_lt_iff_lt_mul (by decide), ← Nat.pow_succ]
        exact fits
      have last := (ih fits' [digitOf n]).1
      rw [encodeDigits, encodeDigits.eq_def n [], if_neg zero, if_neg zero]
      refine ⟨?_, ?_⟩
      · rw [(ih fits' (digitOf n :: result)).1, last]
        simp
      · rw [last, numeral, digitOf_mod, ← Nat.shiftRight_eq_div_pow n 5, ← (ih fits' []).2]
        simp [padStart]

variable {timestamp : Nat}

theorem tidOf_eq (dated : timestamp ≤ lastTime) (randomBits : Fin 1024) :
    (tidOf timestamp randomBits).toList =
      numeral 32 digitOf 13 (timestamp * 1024 + randomBits) := by
  have joined : (Int.lor ((timestamp : Int) <<< 10) (randomBits.val : Int)).toNat =
      timestamp * 1024 + randomBits := by
    change timestamp <<< 10 ||| randomBits.val = _
    rw [← Nat.shiftLeft_add_eq_or_of_lt randomBits.isLt, Nat.shiftLeft_eq]
  rw [tidOf, encodeBase32, joined, String.toList_ofList]
  refine (encodeDigits_eq ?_ []).2
  have := randomBits.isLt
  unfold lastTime at dated
  omega

theorem isTid_tidOf (dated : timestamp ≤ lastTime) (randomBits : Fin 1024) :
    IsTid (tidOf timestamp randomBits) where
  length := by rw [tidOf_eq dated, length_numeral]
  letters c mem := by
    rw [tidOf_eq dated] at mem
    obtain ⟨n, rfl⟩ := mem_numeral mem
    exact digitOf_mem _

theorem timeOf_tidOf (dated : timestamp ≤ lastTime) (randomBits : Fin 1024) :
    timeOf (tidOf timestamp randomBits) = timestamp := by
  have := randomBits.isLt
  rw [timeOf, tidOf_eq dated, value_numeral (by decide) idxOf_digitOf, Nat.shiftRight_eq_div_pow]
  · omega
  · unfold lastTime at dated
    omega

/-- Keys of different times are keys, are ordered as the times are, and give the times
back. -/
theorem keys_sort_by_time {getTime : String → Option Int} {earlier later : String}
    {t₁ t₂ : Nat} (published₁ : getTime earlier = some (t₁ : Int))
    (published₂ : getTime later = some (t₂ : Int)) (before : t₁ < t₂) (dated : t₂ ≤ lastTime)
    (random₁ random₂ : Fin 1024) :
    ∃ tid₁ tid₂, generateTidFromTimestamp getTime earlier random₁ = .ok tid₁ ∧
      generateTidFromTimestamp getTime later random₂ = .ok tid₂ ∧ IsTid tid₁ ∧ IsTid tid₂ ∧
      tid₁ < tid₂ ∧ timeOf tid₁ = t₁ ∧ timeOf tid₂ = t₂ := by
  have dated₁ : t₁ ≤ lastTime := before.le.trans dated
  refine ⟨tidOf t₁ random₁, tidOf t₂ random₂, by simp [generateTidFromTimestamp, published₁],
    by simp [generateTidFromTimestamp, published₂], isTid_tidOf dated₁ random₁,
    isTid_tidOf dated random₂, ?_, timeOf_tidOf dated₁ random₁, timeOf_tidOf dated random₂⟩
  rw [String.lt_iff, tidOf_eq dated₁, tidOf_eq dated]
  have := random₁.isLt
  have := random₂.isLt
  unfold lastTime at dated
  exact numeral_lt digitOf_lt (by decide) (by omega) (by omega)

def firstDates (text : String) : Option Int :=
  if text = "1970-01-01T00:00:00.000Z" then some 0
  else if text = "1970-01-01T00:00:00.001Z" then some 1
  else none

theorem keys_sort_by_time_firstDates :
    ∃ tid₁ tid₂,
      generateTidFromTimestamp firstDates "1970-01-01T00:00:00.000Z" 1023 = .ok tid₁ ∧
      generateTidFromTimestamp firstDates "1970-01-01T00:00:00.001Z" 0 = .ok tid₂ ∧
      IsTid tid₁ ∧ IsTid tid₂ ∧ tid₁ < tid₂ ∧ timeOf tid₁ = 0 ∧ timeOf tid₂ = 1 :=
  keys_sort_by_time (by decide +kernel) (by decide +kernel) (by decide) (by decide) 1023 0

end MastopodFederation.Guarantees.RecordKeyOrder
