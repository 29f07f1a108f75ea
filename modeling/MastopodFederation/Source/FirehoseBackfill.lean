import MastopodFederation.Source.FirehoseCursorStore

/-!
# Backfill and replay from the cursor store

at-adapter/firehose/AtFirehoseBackfillService.ts, and attach with _replayBacklog of
AtFirehoseSubscriptionManager.ts on a store that does not change while they run. Commands and
sends succeed; `fuel` bounds the batches of a replay.
-/
namespace MastopodFederation.Source.FirehoseBackfill
open FirehoseCursorStore

structure BackfillResult where
  events : List FirehoseEventEnvelope
  tooOld : Bool
  latestSeq : Nat

def backfill (store : RedisAtFirehoseCursorStore) (cursorExclusive limit : Int) :
    Except String BackfillResult :=
  if cursorExclusive < 0 then .error s!"Invalid cursor: {cursorExclusive}"
  else if limit < 1 ∨ 1000 < limit then .error s!"Invalid limit: {limit}"
  else
    let latestSeq := store.latestSeq
    let events := store.readFrom cursorExclusive limit
    let tooOld := events.length = 0 && cursorExclusive < latestSeq
    .ok { events, tooOld, latestSeq }

def replayBatchSize : Nat := 100

/-- The events sent; `none` where the fuel is used up. -/
def replayBacklog (store : RedisAtFirehoseCursorStore) :
    Nat → Int → Option (List FirehoseEventEnvelope)
  | 0, _ => none
  | fuel + 1, cursor =>
    let batch := store.readFrom cursor replayBatchSize
    match batch.getLast? with
    | none => some []
    | some last =>
      if batch.length < replayBatchSize then some batch
      else (replayBacklog store fuel last.seq).map (batch ++ ·)

/-- What attaching did with the connection. -/
structure Attached where
  subscribed : Bool
  sent : List FirehoseEventEnvelope := []
  closed : Option (Nat × String) := none

def wsClosePolicyViolation : Nat := 1008

def attach (store : RedisAtFirehoseCursorStore) (fuel : Nat) : Option Int → Option Attached
  | none => some { subscribed := true }
  | some cursor =>
    if cursor < 0 then some
      { subscribed := false
        closed := some (wsClosePolicyViolation, "Invalid cursor: must be a non-negative integer") }
    else (replayBacklog store fuel cursor).map fun sent => { subscribed := true, sent }

end MastopodFederation.Source.FirehoseBackfill
