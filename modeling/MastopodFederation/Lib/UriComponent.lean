import Mathlib.Data.List.Basic

/-!
# Percent-encoded components

A character outside the unreserved set is written as the hexadecimal digits of its
UTF-8 bytes, and decoding reads the bytes back. The two are inverse, so the encoding
is injective, and it writes unreserved characters and percent signs only.
-/
namespace MastopodFederation.Lib.UriComponent

def unreserved (c : Char) : Bool :=
  c.isAlphanum || ['-', '_', '.', '!', '~', '*', '\x27', '(', ')'].contains c

def hexDigit (n : Nat) : Char := Char.ofNat (if n < 10 then 48 + n else 55 + n)

def percentByte (b : UInt8) : List Char :=
  ['%', hexDigit (b.toNat / 16), hexDigit (b.toNat % 16)]

def encodeChar (c : Char) : List Char :=
  if unreserved c then [c] else (String.utf8EncodeChar c).flatMap percentByte

def encodeURIComponent (s : String) : String := String.ofList (s.toList.flatMap encodeChar)

def hexValue (c : Char) : Option Nat :=
  if '0' ≤ c ∧ c ≤ '9' then some (c.toNat - 48)
  else if 'A' ≤ c ∧ c ≤ 'F' then some (c.toNat - 55)
  else if 'a' ≤ c ∧ c ≤ 'f' then some (c.toNat - 87)
  else none

def componentBytes : List Char → Option (List UInt8)
  | [] => some []
  | '%' :: a :: b :: rest =>
    (hexValue a).bind fun high => (hexValue b).bind fun low =>
      (componentBytes rest).map (UInt8.ofNat (16 * high + low) :: ·)
  | '%' :: _ => none
  | c :: rest => (componentBytes rest).map (String.utf8EncodeChar c ++ ·)

def decodeURIComponent (s : String) : Option String :=
  (componentBytes s.toList).bind fun bytes => String.fromUTF8? bytes.toByteArray

theorem hexValue_hexDigit : ∀ n < 16, hexValue (hexDigit n) = some n := by decide

theorem componentBytes_percentByte (b : UInt8) (rest : List Char) :
    componentBytes (percentByte b ++ rest) = (componentBytes rest).map (b :: ·) := by
  have high := hexValue_hexDigit (b.toNat / 16) (by have := b.toNat_lt; omega)
  have low := hexValue_hexDigit (b.toNat % 16) (by omega)
  have whole : UInt8.ofNat (16 * (b.toNat / 16) + b.toNat % 16) = b := by
    rw [Nat.div_add_mod, UInt8.ofNat_toNat]
  simp only [percentByte, List.cons_append, List.nil_append, componentBytes, high, low,
    Option.bind_some, whole]

theorem componentBytes_bytes (bytes : List UInt8) (rest : List Char) :
    componentBytes (bytes.flatMap percentByte ++ rest)
      = (componentBytes rest).map (bytes ++ ·) := by
  induction bytes with
  | nil => simp
  | cons b bytes ih =>
    rw [List.flatMap_cons, List.append_assoc, componentBytes_percentByte, ih]
    simp [Function.comp_def]

theorem componentBytes_encodeChar (c : Char) (rest : List Char) :
    componentBytes (encodeChar c ++ rest)
      = (componentBytes rest).map (String.utf8EncodeChar c ++ ·) := by
  unfold encodeChar
  split
  · next free =>
    have plain : c ≠ '%' := by
      rintro rfl
      simp [unreserved] at free
    rw [List.singleton_append, componentBytes]
    · rintro a b rest' rfl
      exact absurd rfl plain
    · exact plain
  · exact componentBytes_bytes _ rest

theorem componentBytes_encoded (s : List Char) :
    componentBytes (s.flatMap encodeChar) = some (s.flatMap String.utf8EncodeChar) := by
  induction s with
  | nil => rfl
  | cons c s ih => rw [List.flatMap_cons, componentBytes_encodeChar, ih]; rfl

@[simp] theorem decodeURIComponent_encodeURIComponent (s : String) :
    decodeURIComponent (encodeURIComponent s) = some s := by
  have bytes : (s.toList.flatMap String.utf8EncodeChar).toByteArray = s.toByteArray :=
    String.utf8Encode_toList
  rw [decodeURIComponent, encodeURIComponent, String.toList_ofList, componentBytes_encoded,
    Option.bind_some, bytes, String.fromUTF8?, dif_pos s.isValidUTF8]
  rfl

theorem encodeURIComponent_injective : Function.Injective encodeURIComponent := by
  intro s t same
  have decoded := congrArg decodeURIComponent same
  simpa using decoded

theorem mem_encodeChar {c d : Char} (written : d ∈ encodeChar c) :
    unreserved d ∨ d = '%' := by
  have digits : ∀ n < 16, unreserved (hexDigit n) := by decide
  unfold encodeChar at written
  split at written
  · next free => exact .inl (List.mem_singleton.mp written ▸ free)
  · obtain ⟨b, -, digit⟩ := List.mem_flatMap.mp written
    have high := digits (b.toNat / 16) (by have := b.toNat_lt; omega)
    have low := digits (b.toNat % 16) (by omega)
    simp only [percentByte, List.mem_cons, List.not_mem_nil, or_false] at digit
    rcases digit with rfl | rfl | rfl
    · exact .inr rfl
    · exact .inl high
    · exact .inl low

theorem colon_not_mem (s : String) : ':' ∉ (encodeURIComponent s).toList := by
  intro written
  rw [encodeURIComponent, String.toList_ofList] at written
  obtain ⟨c, -, inside⟩ := List.mem_flatMap.mp written
  have := mem_encodeChar inside
  simp [unreserved] at this

end MastopodFederation.Lib.UriComponent
