import MastopodFederation.Source.SigningService

/-!
# Which signatures can be compacted

A DER integer whose top bit is set has a 33rd byte, and there is no room for it: the
signature is converted exactly if both of its components are below 2^255.
-/
namespace MastopodFederation.Guarantees.CompactSignatures
open Lib.FixedDigits Source.CompactSignature

def byteCount (n : Nat) : Nat := Nat.log 256 n + 1

def derInteger (n : Nat) : List UInt8 :=
  if 128 * 256 ^ Nat.log 256 n ≤ n then 0 :: toBytes (byteCount n) n else toBytes (byteCount n) n

def der (r s : Nat) : List UInt8 :=
  let component (n : Nat) := 0x02 :: UInt8.ofNat (derInteger n).length :: derInteger n
  0x30 :: UInt8.ofNat (component r ++ component s).length :: (component r ++ component s)

def compact (r s : Nat) : List UInt8 := toBytes 32 r ++ toBytes 32 (min s (secp256k1N - s))

section
variable {n r s : Nat}

theorem byteCount_le (bounded : n < 2 ^ 256) : byteCount n ≤ 32 := by
  rcases Nat.eq_zero_or_pos n with rfl | positive
  · simp [byteCount]
  · exact Nat.log_lt_of_lt_pow (by omega) (by norm_num; exact bounded)

theorem lt_byteCount : n < 256 ^ byteCount n := Nat.lt_pow_succ_log_self (by decide) n

theorem toBytes_pad (extra : Nat) :
    toBytes (extra + byteCount n) n = List.replicate extra 0 ++ toBytes (byteCount n) n :=
  numeral_pad (by decide) extra lt_byteCount

theorem length_derInteger :
    (derInteger n).length = byteCount n + if 128 * 256 ^ Nat.log 256 n ≤ n then 1 else 0 := by
  unfold derInteger
  split <;> simp [toBytes]

theorem fits_iff (bounded : n < 2 ^ 256) : (derInteger n).length ≤ 32 ↔ n < 2 ^ 255 := by
  rw [length_derInteger]
  have few := byteCount_le bounded
  have most := lt_byteCount (n := n)
  unfold byteCount at few most ⊢
  rcases Nat.lt_or_ge (Nat.log 256 n) 31 with less | full
  · have small : n < 2 ^ 255 := by
      calc n < 256 ^ (Nat.log 256 n + 1) := most
        _ ≤ 256 ^ 31 := Nat.pow_le_pow_right (by decide) less
        _ < 2 ^ 255 := by norm_num
    refine iff_of_true ?_ small
    split <;> omega
  · have last : Nat.log 256 n = 31 := by omega
    rw [last]
    norm_num

theorem pad_derInteger {width : Nat} (room : (derInteger n).length ≤ width) :
    List.replicate (width - (derInteger n).length) 0 ++ derInteger n = toBytes width n := by
  rw [length_derInteger] at room ⊢
  obtain ⟨extra, rfl⟩ := Nat.exists_eq_add_of_le' (le_trans (Nat.le_add_right _ _) room)
  rw [toBytes_pad]
  unfold derInteger
  split
  · next signed =>
    rw [if_pos signed] at room
    obtain ⟨more, rfl⟩ : ∃ more, extra = more + 1 := ⟨extra - 1, by omega⟩
    rw [show more + 1 + byteCount n - (byteCount n + 1) = more by omega, List.replicate_succ',
      List.append_assoc]
    rfl
  · simp

theorem padded_derInteger (bounded : n < 2 ^ 256) :
    padded (derInteger n) = if n < 2 ^ 255 then .ok (toBytes 32 n) else .error .outOfRange := by
  have room := fits_iff bounded
  unfold padded
  by_cases small : n < 2 ^ 255
  · rw [if_neg (Nat.not_lt.mpr (room.mpr small)), if_pos small, pad_derInteger (room.mpr small)]
  · rw [if_pos (Nat.lt_of_not_le (room.not.mpr small)), if_neg small]

theorem finalS_toBytes (inside : s < secp256k1N) :
    finalS (toBytes 32 s) = toBytes 32 (min s (secp256k1N - s)) := by
  have back : toInt (toBytes 32 s) = s := by
    refine value_numeral (by decide) (fun d small => ?_) (inside.trans (by decide))
    simpa using small
  have odd : secp256k1N = 2 * (secp256k1N / 2) + 1 := by decide
  unfold finalS
  rw [back]
  dsimp only
  split
  · rw [if_pos (by omega), Nat.min_eq_right (by omega)]
  · rw [Nat.min_eq_left (by omega)]

theorem derToCompact_der (inside : r < secp256k1N) (inside' : s < secp256k1N) :
    derToCompact (der r s) =
      if r < 2 ^ 255 ∧ s < 2 ^ 255 then .ok (compact r s) else .error .outOfRange := by
  have bounded {n : Nat} (inside : n < secp256k1N) : n < 2 ^ 256 := inside.trans (by decide)
  have length {n : Nat} (inside : n < secp256k1N) :
      (UInt8.ofNat (derInteger n).length).toNat = (derInteger n).length := by
    have few := byteCount_le (bounded inside)
    rw [UInt8.toNat_ofNat', Nat.mod_eq_of_lt]
    rw [length_derInteger]
    split <;> omega
  unfold derToCompact der
  simp only [List.drop_succ_cons, List.drop_zero, List.cons_append, length inside,
    List.take_left, List.drop_left, compactTail, length inside', List.take_length,
    padded_derInteger (bounded inside), padded_derInteger (bounded inside')]
  by_cases small : r < 2 ^ 255
  · by_cases small' : s < 2 ^ 255
    · simp only [small, small', if_true, and_self, bind, Except.bind, finalS_toBytes inside',
        compact]
    · simp only [small, small', if_true, if_false, and_false, bind, Except.bind]
  · simp only [small, if_false, false_and, bind, Except.bind]

/-- Conversion succeeds with both components, `s` in its low form, if and only if neither has
its top bit set. -/
theorem compacted_iff (inside : 1 ≤ r ∧ r < secp256k1N) (inside' : 1 ≤ s ∧ s < secp256k1N) :
    derToCompact (der r s) = .ok (compact r s) ↔ r < 2 ^ 255 ∧ s < 2 ^ 255 := by
  rw [derToCompact_der inside.2 inside'.2]
  split <;> simp_all
end

theorem compacted_iff_one : derToCompact (der 1 1) = .ok (compact 1 1) ↔ 1 < 2 ^ 255 ∧ 1 < 2 ^ 255 :=
  compacted_iff (by decide) (by decide)

theorem top_bit_throws : (1 ≤ 2 ^ 255 ∧ 2 ^ 255 < secp256k1N) ∧
    derToCompact (der (2 ^ 255) 1) = .error .outOfRange := by
  refine ⟨by decide, ?_⟩
  rw [derToCompact_der (by decide) (by decide), if_neg (by decide)]

end MastopodFederation.Guarantees.CompactSignatures
