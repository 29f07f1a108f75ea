import MastopodFederation.Lib.GuardedRun
import MastopodFederation.Source.FirehoseCursorStore

/-!
# Publishing the firehose and serving its subscribers

at-adapter/firehose/AtFirehosePublisher.ts (`publishCommit`, `_doPublishCommit`,
`publishIdentity`, `publishAccount`, `_appendAndBroadcast`, `_nextSeq`) and
AtFirehoseSubscriptionManager.ts (`attach`, `detach`, `broadcast`, `_replayBacklog`)
over the Redis cursor store. A label is one await that completes, so the work of
several calls interleaves between any two of them. Appends and sends succeed. The
encoder is a parameter; a subscriber is sent the `encoded` bytes of an envelope, and
what it received is kept as the envelopes themselves.
-/
namespace MastopodFederation.Source.FirehosePublisher
open Lib.GuardedRun FirehoseCursorStore

inductive RepoAction where
  | create
  | update
  | delete
  deriving DecidableEq, Repr

structure RepoDiffOp where
  action : RepoAction
  path : String
  cid : Option String
  prev : Option String
  deriving DecidableEq, Repr

/-- `RepoDiffBuildResult` -/
structure RepoDiff where
  commitCid : String
  prevData : Option String
  ops : List RepoDiffOp
  carSlice : Bytes
  deriving DecidableEq, Repr

/-- The members of an AtCommitV1 the publisher itself reads. -/
structure AtCommit where
  did : String
  rev : String
  deriving DecidableEq, Repr

structure AtIdentity where
  did : String
  handle : Option String
  deriving DecidableEq, Repr

structure AtAccount where
  did : String
  status : String
  deriving DecidableEq, Repr

/-- The events given to the encoder. A commit has no `since`, is not `tooBig` and lists
no blobs. -/
inductive FirehoseEvent where
  | commit (seq : Nat) (time repo rev commit : String) (blocks : Bytes) (ops : List RepoDiffOp)
      (prevData : Option String)
  | identity (seq : Nat) (time did : String) (handle : Option String)
  | account (seq : Nat) (time did : String) (active : Bool) (status : Option String)
  deriving DecidableEq, Repr

def commitEvent (evt : AtCommit) (seq : Nat) (time : String) (diff : RepoDiff) : FirehoseEvent :=
  .commit seq time evt.did evt.rev diff.commitCid diff.carSlice diff.ops diff.prevData

def identityEvent (evt : AtIdentity) (seq : Nat) (time : String) : FirehoseEvent :=
  .identity seq time evt.did evt.handle

def accountEvent (evt : AtAccount) (seq : Nat) (time : String) : FirehoseEvent :=
  .account seq time evt.did (evt.status = "active")
    (if evt.status = "active" then none else some evt.status)

/-- Where a call that has its sequence number stands. -/
inductive Stage where
  /-- `buildFromCommit` is awaited -/
  | building (evt : AtCommit) (time : String)
  /-- `cursorStore.append` is awaited -/
  | appending (envelope : FirehoseEventEnvelope)
  /-- appended; the broadcast comes next -/
  | broadcasting (envelope : FirehoseEventEnvelope)
  deriving DecidableEq, Repr

/-- A call in flight. `serialised` is the DID in whose queue it runs. -/
structure Publication where
  seq : Nat
  serialised : Option String
  stage : Stage
  deriving DecidableEq, Repr

inductive Replay where
  /-- `readFrom(cursor, REPLAY_BATCH_SIZE)` is awaited -/
  | reading (cursor : Nat)
  /-- the rest of a batch is sent one by one; `more` if the batch was full -/
  | sending (cursor : Nat) (batch : List FirehoseEventEnvelope) (more : Bool)
  /-- there is nothing to replay any more -/
  | finished
  deriving DecidableEq, Repr

def Replay.running : Replay → Bool
  | .finished => false
  | _ => true

/-- One `attach` call and what its subscriber was sent since. -/
structure Subscription where
  id : String
  cursor : Option Nat
  replay : Replay
  received : List FirehoseEventEnvelope
  deriving DecidableEq, Repr

/-- `history` lists every event ever appended, oldest first; nothing reads it. -/
structure Firehose where
  store : RedisAtFirehoseCursorStore
  seqCounter : Option Nat
  /-- commits that wait for their turn in the queue of their DID -/
  waiting : List AtCommit
  publications : List Publication
  subscriptions : List Subscription
  /-- the map of the subscription manager, to the latest `attach` call of an id -/
  subscribers : String → Option Nat
  history : List FirehoseEventEnvelope

def initial (maxEvents : Nat) : Firehose :=
  ⟨.empty maxEvents, none, [], [], [], fun _ => none, []⟩

inductive Label where
  /-- `ensureSeqCounterInitialised` has read the latest number -/
  | seqCounterInitialised
  | publishCommit (evt : AtCommit)
  /-- `_doPublishCommit` takes the next number for the first commit waiting in a queue -/
  | commitStarted (did : String) (time : String)
  | diffBuilt (seq : Nat) (diff : RepoDiff)
  | diffFailed (seq : Nat)
  | publishIdentity (evt : AtIdentity) (time : String)
  | publishAccount (evt : AtAccount) (time : String)
  | appended (seq : Nat)
  | broadcast (seq : Nat)
  | attach (id : String) (cursor : Option Int)
  /-- the batch that attachment `i` waits for arrives -/
  | batchRead (i : Nat)
  /-- attachment `i` is sent the next event of its batch -/
  | replayed (i : Nat)
  | detach (id : String)
  /-- the process dies and starts again over the same store -/
  | restart
  deriving DecidableEq, Repr

def REPLAY_BATCH_SIZE : Nat := 100

def envelopeOf (encode : FirehoseEvent → Bytes) (seq : Nat) (type : FrameType)
    (event : FirehoseEvent) (emittedAt : String) : FirehoseEventEnvelope :=
  ⟨seq, type, encode event, emittedAt⟩

def Firehose.publication (s : Firehose) (seq : Nat) : Option Publication :=
  s.publications.find? fun p => p.seq = seq

def Firehose.finish (s : Firehose) (seq : Nat) : List Publication :=
  s.publications.filter fun p => p.seq ≠ seq

/-- The attachment with this index is in the map of the manager. -/
def Firehose.registered (s : Firehose) (i : Nat) (sub : Subscription) : Bool :=
  s.subscribers sub.id = some i

/-- A call takes the next number and starts. -/
def Firehose.begin (s : Firehose) (counter : Nat) (serialised : Option String)
    (stage : Nat → Stage) : Firehose :=
  let seq := nextSeq counter
  { s with
    seqCounter := some seq
    publications := s.publications ++ [⟨seq, serialised, stage seq⟩] }

def Firehose.setStage (s : Firehose) (seq : Nat) (stage : Stage) : List Publication :=
  s.publications.map fun p => if p.seq = seq then { p with stage } else p

def setReplay (sub : Subscription) (replay : Replay) : Subscription := { sub with replay }

def receive (sub : Subscription) (envelope : FirehoseEventEnvelope) : Subscription :=
  { sub with received := sub.received ++ [envelope] }

/-- Every attachment in the map is sent the envelope. -/
def Firehose.sendAll (s : Firehose) (envelope : FirehoseEventEnvelope) : List Subscription :=
  s.subscriptions.mapIdx fun i sub => if s.registered i sub then receive sub envelope else sub

/-- The loop of `_replayBacklog` after an event of a batch was sent. -/
def afterSent (cursor : Nat) (more : Bool) : List FirehoseEventEnvelope → Replay
  | [] => if more then .reading cursor else .finished
  | batch => .sending cursor batch more

def step (encode : FirehoseEvent → Bytes) (s : Firehose) : Label → Option Firehose
  | .seqCounterInitialised =>
    match s.seqCounter with
    | some _ => none
    | none => some { s with seqCounter := some (initialSeqCounter s.store.latestSeq) }
  | .publishCommit evt => do
    let _ ← s.seqCounter
    pure { s with waiting := s.waiting ++ [evt] }
  | .commitStarted did time => do
    let counter ← s.seqCounter
    let evt ← s.waiting.find? fun evt => evt.did = did
    if s.publications.any fun p => p.serialised = some did then none
    else
      pure ({ s with waiting := s.waiting.erase evt }.begin counter (some did) fun _ =>
        .building evt time)
  | .diffBuilt seq diff => do
    let p ← s.publication seq
    match p.stage with
    | .building evt time =>
      let envelope := envelopeOf encode seq .commit (commitEvent evt seq time diff) time
      pure { s with publications := s.setStage seq (.appending envelope) }
    | _ => none
  | .diffFailed seq => do
    let p ← s.publication seq
    match p.stage with
    | .building _ _ => pure { s with publications := s.finish seq }
    | _ => none
  | .publishIdentity evt time => do
    let counter ← s.seqCounter
    pure (s.begin counter none fun seq =>
      .appending (envelopeOf encode seq .identity (identityEvent evt seq time) time))
  | .publishAccount evt time => do
    let counter ← s.seqCounter
    pure (s.begin counter none fun seq =>
      .appending (envelopeOf encode seq .account (accountEvent evt seq time) time))
  | .appended seq => do
    let p ← s.publication seq
    match p.stage with
    | .appending envelope =>
      pure { s with
        store := s.store.append envelope
        history := s.history ++ [envelope]
        publications := s.setStage seq (.broadcasting envelope) }
    | _ => none
  | .broadcast seq => do
    let p ← s.publication seq
    match p.stage with
    | .broadcasting envelope =>
      pure { s with subscriptions := s.sendAll envelope, publications := s.finish seq }
    | _ => none
  | .attach id cursor =>
    if id = "" then none
    else
      let attached (cursor : Option Nat) (replay : Replay) : Firehose :=
        { s with
          subscriptions := s.subscriptions ++ [⟨id, cursor, replay, []⟩]
          subscribers := fun other =>
            if other = id then some s.subscriptions.length else s.subscribers other }
      match cursor with
      | none => some (attached none .finished)
      -- an invalid cursor closes the socket
      | some (.negSucc _) => some s
      | some (.ofNat cursor) => some (attached (some cursor) (.reading cursor))
  | .batchRead i => do
    let sub ← s.subscriptions[i]?
    match sub.replay with
    | .reading cursor =>
      let batch := s.store.readFrom cursor REPLAY_BATCH_SIZE
      let replay :=
        if batch.length = 0 then .finished
        else .sending cursor batch (¬batch.length < REPLAY_BATCH_SIZE)
      pure { s with subscriptions := s.subscriptions.set i (setReplay sub replay) }
    | _ => none
  | .replayed i => do
    let sub ← s.subscriptions[i]?
    match sub.replay with
    | .sending _ (event :: batch) more =>
      let sent := setReplay (receive sub event) (afterSent event.seq more batch)
      pure { s with subscriptions := s.subscriptions.set i sent }
    | _ => none
  | .detach id =>
    some { s with
      subscribers := fun other => if other = id then none else s.subscribers other }
  | .restart =>
    some { s with
      seqCounter := none
      waiting := []
      publications := []
      subscriptions := s.subscriptions.map fun sub => setReplay sub .finished
      subscribers := fun _ => none }

/-- Every state a publisher and its subscribers can be in. -/
def Reachable (encode : FirehoseEvent → Bytes) (maxEvents : Nat) (s : Firehose) : Prop :=
  Reaches (ofFunction (step encode)) always (initial maxEvents) s

end MastopodFederation.Source.FirehosePublisher
