import Mathlib.Data.Int.Bitwise

/-!
# Record keys of posts

`generateTidFromTimestamp` and `encodeBase32` of at-adapter/repo/AtRkeyService.ts. The
parsing of a date is a parameter: the milliseconds since 1970, or NaN. The draw of
`Math.random` is an argument.
-/
namespace MastopodFederation.Source.AtRkeyService

def alphabet : List Char := "234567abcdefghijklmnopqrstuvwxyz".toList

/-- `alphabet[Number(n & 31n)]` -/
def digitOf (n : Nat) : Char := alphabet.getD (n &&& 31) '2'

/-- The while loop: the lowest digit is put in front of the result. -/
def encodeDigits (n : Nat) (result : List Char) : List Char :=
  if n = 0 then result else encodeDigits (n >>> 5) (digitOf n :: result)
termination_by n
decreasing_by
  rw [Nat.shiftRight_eq_div_pow]
  omega

def padStart (text : List Char) (length : Nat) (fill : Char) : List Char :=
  List.replicate (length - text.length) fill ++ text

/-- The loop does not run for a negative value. -/
def encodeBase32 (value : Int) : String :=
  String.ofList (padStart (encodeDigits value.toNat []) 13 '2')

def tidOf (timestamp : Int) (randomBits : Fin 1024) : String :=
  encodeBase32 (Int.lor (timestamp <<< 10) randomBits.val)

/-- `BigInt(NaN)` throws. -/
def generateTidFromTimestamp (getTime : String → Option Int) (publishedAt : String)
    (randomBits : Fin 1024) : Except String String :=
  match getTime publishedAt with
  | none => .error "RangeError"
  | some timestamp => .ok (tidOf timestamp randomBits)

end MastopodFederation.Source.AtRkeyService
