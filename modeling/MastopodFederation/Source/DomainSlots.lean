import MastopodFederation.Lib.GuardedRun
import Mathlib.Algebra.Order.Group.Int

/-!
# Concurrency slots and rate limit of a domain

`acquireDomainSlot`, `releaseDomainSlot` and `checkDomainRateLimit` of
queue/sidecar-redis-queue-core.ts for one domain: a counter key that expires, changed by one script and one DECR. A key
without a value counts as zero. Which workers hold slots is stored nowhere; here it
is part of the state.
-/
namespace MastopodFederation.Source.DomainSlots

/-- The counter key. -/
structure SlotKey where
  value : Int
  expiresAt : Option Int
  deriving DecidableEq

def slotTtlMs : Int := 3600 * 1000

section Commands
variable (nowMs : Int) (key : Option SlotKey)

/-- The key as commands see it. -/
def readKey : Option SlotKey :=
  key.filter fun k => match k.expiresAt with
    | some expiry => nowMs ≤ expiry
    | none => true

/-- INCRBY; a new key does not expire. -/
def incrBy (amount : Int) : SlotKey :=
  match readKey nowMs key with
  | some k => { k with value := k.value + amount }
  | none => ⟨amount, none⟩

/-- EXPIRE where the counter is 1 -/
def expireFirst (current : SlotKey) : SlotKey :=
  if current.value = 1 then { current with expiresAt := some (nowMs + slotTtlMs) } else current

/-- The script of `acquireDomainSlot`. -/
def acquireDomainSlot (maxConcurrent : Nat) : Bool × SlotKey :=
  let current := expireFirst nowMs (incrBy nowMs key 1)
  if maxConcurrent < current.value then (false, { current with value := current.value - 1 })
  else (true, current)

/-- DECR -/
def releaseDomainSlot : SlotKey := incrBy nowMs key (-1)

/-- The script of `checkDomainRateLimit`, for a window of at least one second. -/
def checkDomainRateLimit (limit windowSeconds : Nat) : Bool × SlotKey :=
  let incremented := incrBy nowMs key 1
  let current := if incremented.value = 1 then
      { incremented with expiresAt := some (nowMs + windowSeconds * 1000) }
    else incremented
  (current.value ≤ limit, current)

def storedCounter : Int :=
  match readKey nowMs key with
  | some k => k.value
  | none => 0

end Commands

structure Slots (W : Type) where
  nowMs : Int
  key : Option SlotKey
  held : List W
  deriving DecidableEq

inductive Event (W : Type) where
  | acquire (worker : W)
  | release (worker : W)
  | tick (nowMs : Int)

section Runs
variable {W : Type} [DecidableEq W]

def Slots.initial : Slots W := ⟨0, none, []⟩

/-- A release is made by a worker that holds a slot. -/
def step (maxConcurrent : Nat) (s : Slots W) : Event W → Option (Slots W)
  | .acquire worker =>
    let result := acquireDomainSlot s.nowMs s.key maxConcurrent
    some { s with key := result.2, held := if result.1 then worker :: s.held else s.held }
  | .release worker =>
    if worker ∈ s.held then
      some { s with key := releaseDomainSlot s.nowMs s.key, held := s.held.erase worker }
    else none
  | .tick nowMs => if s.nowMs ≤ nowMs then some { s with nowMs } else none

end Runs

end MastopodFederation.Source.DomainSlots
