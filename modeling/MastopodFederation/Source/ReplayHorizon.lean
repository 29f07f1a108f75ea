import Mathlib.Tactic.Linarith

/-!
# Replay horizons

delivery/apdm-replay-horizon.ts: the residence limits, the age of a timestamp and
the timestamp of a Redis stream id. Times are milliseconds; a timestamp that comes
from JSON is any number, a clock reading is an integer. `outboundMessageResidenceMs`
has no caller and is left out.
-/
namespace MastopodFederation.Source.ReplayHorizon

def outboxIntentMaxAgeMs : Int := 48 * 60 * 60 * 1000
def outboundMessageMaxResidenceMs : Int := 48 * 60 * 60 * 1000
def completedDeliveryMinRetentionMs : Int := 8 * 24 * 60 * 60 * 1000
def maxClockSkewMs : Int := 5 * 60 * 1000
def maxSafeInteger : Nat := 2 ^ 53 - 1

/-- The age of a timestamp; none where it is not positive or too far in the future. -/
def outboxIntentAgeMs (createdAt : Rat) (nowMs : Int) : Option Rat :=
  if createdAt ≤ 0 then none
  else
    let age := nowMs - createdAt
    if age < -maxClockSkewMs then none else some (max 0 age)

theorem le_of_outboxIntentAgeMs {createdAt age : Rat} {nowMs limit : Int}
    (known : outboxIntentAgeMs createdAt nowMs = some age) (within : age ≤ limit) :
    0 < createdAt ∧ (nowMs : Rat) ≤ createdAt + limit := by
  unfold outboxIntentAgeMs at known
  dsimp only at known
  split at known
  · cases known
  next positive =>
    split at known
    · cases known
    · cases known
      have aged : (nowMs : Rat) - createdAt ≤ limit := le_trans (le_max_right _ _) within
      exact ⟨not_le.mp positive, by linarith⟩

/-- `\d+` -/
def decimal (digits : List Char) : Option Nat :=
  if digits ≠ [] && digits.all Char.isDigit then
    some (digits.foldl (fun value digit => 10 * value + (digit.toNat - '0'.toNat)) 0)
  else none

/-- The milliseconds of an id `<ms>-<seq>`. -/
def redisStreamMessageTimestampMs (messageId : String) : Option Int :=
  let ms := messageId.toList.takeWhile (· ≠ '-')
  match messageId.toList.drop ms.length with
  | '-' :: rest =>
    match decimal ms, decimal rest with
    | some timestamp, some sequence =>
      if 0 < timestamp && timestamp ≤ maxSafeInteger && sequence ≤ maxSafeInteger then
        some timestamp
      else none
    | _, _ => none
  | _ => none

example : redisStreamMessageTimestampMs "1700000000000-3" = some 1700000000000 := by decide

end MastopodFederation.Source.ReplayHorizon
