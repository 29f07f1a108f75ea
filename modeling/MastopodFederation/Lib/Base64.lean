import Mathlib.Data.List.Nodup
import Mathlib.Data.List.TakeWhile

/-!
# Base64 text of a list of bytes

Three bytes make four digits; a last group of one or two bytes is padded. The decoder
reads up to the first padding character, accepts both alphabets and skips every other
character, as lenient decoders do. What was encoded is decoded to the same bytes.
-/
namespace MastopodFederation.Lib.Base64

def sextets : List UInt8 → List Nat
  | a :: b :: c :: rest =>
    a.toNat / 4 :: (a.toNat % 4 * 16 + b.toNat / 16) :: (b.toNat % 16 * 4 + c.toNat / 64) ::
      c.toNat % 64 :: sextets rest
  | [a, b] => [a.toNat / 4, a.toNat % 4 * 16 + b.toNat / 16, b.toNat % 16 * 4]
  | [a] => [a.toNat / 4, a.toNat % 4 * 16]
  | [] => []

def padding (bytes : List UInt8) : List Char :=
  List.replicate ((3 - bytes.length % 3) % 3) '='

def bytesOf : List Nat → List UInt8
  | a :: b :: c :: d :: rest =>
    UInt8.ofNat (a * 4 + b / 16) :: UInt8.ofNat (b % 16 * 16 + c / 4) ::
      UInt8.ofNat (c % 4 * 64 + d) :: bytesOf rest
  | [a, b, c] => [UInt8.ofNat (a * 4 + b / 16), UInt8.ofNat (b % 16 * 16 + c / 4)]
  | [a, b] => [UInt8.ofNat (a * 4 + b / 16)]
  | _ => []

def alphabet : List Char :=
  "ABCDEFGHIJKLMNOPQRSTUVWXYZabcdefghijklmnopqrstuvwxyz0123456789+/".toList

def digit (value : Nat) : Char := alphabet.getD value 'A'

def value? (c : Char) : Option Nat :=
  if c = '-' then some 62
  else if c = '_' then some 63
  else if c ∈ alphabet then some (alphabet.idxOf c)
  else none

def encode (bytes : List UInt8) : List Char := (sextets bytes).map digit ++ padding bytes

def decode (text : List Char) : List UInt8 :=
  bytesOf ((text.takeWhile (· ≠ '=')).filterMap value?)

theorem alphabet_spec : alphabet.length = 64 ∧ alphabet.Nodup ∧
    '-' ∉ alphabet ∧ '_' ∉ alphabet ∧ '=' ∉ alphabet := by
  have chars : alphabet = _ := String.toList_ofList
  have distinct : (alphabet.map Char.toNat).Nodup := by
    rw [chars]
    decide +kernel
  refine ⟨by rw [chars]; rfl, List.Nodup.of_map _ distinct, ?_⟩
  rw [chars]
  decide +kernel

theorem digit_spec (value : Fin 64) : value? (digit value) = some value.val ∧
    digit value ≠ '=' := by
  obtain ⟨size, distinct, minus, underscore, pad⟩ := alphabet_spec
  have inside : value.val < alphabet.length := by omega
  have here : digit value = alphabet[value.val] := by
    rw [digit, List.getD_eq_getElem?_getD, List.getElem?_eq_getElem inside, Option.getD_some]
  have listed : digit value ∈ alphabet := here ▸ List.getElem_mem inside
  have others : digit value ≠ '-' ∧ digit value ≠ '_' ∧ digit value ≠ '=' :=
    ⟨fun same => minus (same ▸ listed), fun same => underscore (same ▸ listed),
      fun same => pad (same ▸ listed)⟩
  refine ⟨?_, others.2.2⟩
  rw [value?, if_neg others.1, if_neg others.2.1, if_pos listed, here, distinct.idxOf_getElem]

variable (bytes : List UInt8)

theorem sextets_lt : ∀ value ∈ sextets bytes, value < 64 := by
  induction bytes using sextets.induct with
  | case1 a b c rest ih =>
    have := a.toNat_lt
    have := b.toNat_lt
    have := c.toNat_lt
    simp only [sextets, List.mem_cons, forall_eq_or_imp]
    exact ⟨by omega, by omega, by omega, by omega, ih⟩
  | case2 a b =>
    have := a.toNat_lt
    have := b.toNat_lt
    simp only [sextets, List.mem_cons, List.not_mem_nil, or_false, forall_eq_or_imp, forall_eq]
    omega
  | case3 a =>
    have := a.toNat_lt
    simp only [sextets, List.mem_cons, List.not_mem_nil, or_false, forall_eq_or_imp, forall_eq]
    omega
  | case4 => simp [sextets]

theorem ofNat_eq {value : Nat} {byte : UInt8} (same : value = byte.toNat) :
    UInt8.ofNat value = byte := by
  rw [same, UInt8.ofNat_toNat]

theorem bytesOf_sextets : bytesOf (sextets bytes) = bytes := by
  induction bytes using sextets.induct with
  | case1 a b c rest ih =>
    have := a.toNat_lt
    have := b.toNat_lt
    have := c.toNat_lt
    simp only [sextets, bytesOf, ih, List.cons.injEq, and_true]
    exact ⟨ofNat_eq (by omega), ofNat_eq (by omega), ofNat_eq (by omega)⟩
  | case2 a b =>
    have := a.toNat_lt
    have := b.toNat_lt
    simp only [sextets, bytesOf, List.cons.injEq, and_true]
    exact ⟨ofNat_eq (by omega), ofNat_eq (by omega)⟩
  | case3 a =>
    have := a.toNat_lt
    simp only [sextets, bytesOf, List.cons.injEq, and_true]
    exact ofNat_eq (by omega)
  | case4 => rfl

theorem takeWhile_padding : (padding bytes).takeWhile (· ≠ '=') = [] := by
  unfold padding
  cases (3 - bytes.length % 3) % 3 with
  | zero => rfl
  | succ n => simp [List.replicate_succ]

theorem filterMap_value_digit {values : List Nat} (small : ∀ value ∈ values, value < 64) :
    (values.map digit).filterMap value? = values := by
  induction values with
  | nil => rfl
  | cons value rest ih =>
    have read := (digit_spec ⟨value, small value List.mem_cons_self⟩).1
    rw [List.map_cons, List.filterMap_cons_some read,
      ih fun other listed => small other (List.mem_cons_of_mem value listed)]

@[simp] theorem decode_encode : decode (encode bytes) = bytes := by
  have digits : ∀ c ∈ (sextets bytes).map digit, decide (c ≠ '=') = true := by
    intro c listed
    obtain ⟨value, made, rfl⟩ := List.mem_map.mp listed
    simpa using (digit_spec ⟨value, sextets_lt bytes value made⟩).2
  unfold decode encode
  rw [List.takeWhile_append_of_pos digits, takeWhile_padding, List.append_nil,
    filterMap_value_digit (sextets_lt bytes), bytesOf_sextets]

def urlDigit (value : Nat) : Char :=
  if value = 62 then '-' else if value = 63 then '_' else digit value

def encodeUrl (bytes : List UInt8) : List Char := (sextets bytes).map urlDigit

theorem urlDigit_spec (value : Fin 64) : value? (urlDigit value) = some value.val ∧
    urlDigit value ≠ '=' := by
  by_cases minus : value.val = 62
  · rw [urlDigit, if_pos minus, minus]
    decide
  by_cases underscore : value.val = 63
  · rw [urlDigit, if_neg minus, if_pos underscore, underscore]
    decide
  rw [urlDigit, if_neg minus, if_neg underscore]
  exact digit_spec value

@[simp] theorem decode_encodeUrl : decode (encodeUrl bytes) = bytes := by
  have small := sextets_lt bytes
  have digits : ∀ c ∈ encodeUrl bytes, decide (c ≠ '=') = true := by
    intro c listed
    obtain ⟨value, made, rfl⟩ := List.mem_map.mp listed
    simpa using (urlDigit_spec ⟨value, small value made⟩).2
  have read : ∀ values : List Nat, (∀ value ∈ values, value < 64) →
      (values.map urlDigit).filterMap value? = values := by
    intro values bounded
    induction values with
    | nil => rfl
    | cons value rest ih =>
      have own := (urlDigit_spec ⟨value, bounded value List.mem_cons_self⟩).1
      rw [List.map_cons, List.filterMap_cons_some own,
        ih fun other listed => bounded other (List.mem_cons_of_mem value listed)]
  unfold decode
  rw [List.takeWhile_eq_self_iff.mpr digits, encodeUrl, read _ small, bytesOf_sextets]

theorem length_sextets : (sextets bytes).length = (bytes.length * 4 + 2) / 3 := by
  induction bytes using sextets.induct with
  | case1 a b c rest ih =>
    simp only [sextets, List.length_cons, ih]
    omega
  | case2 | case3 | case4 => simp [sextets]

end MastopodFederation.Lib.Base64
