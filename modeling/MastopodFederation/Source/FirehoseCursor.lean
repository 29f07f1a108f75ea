import MastopodFederation.Lib.GuardedRun

/-!
# Firehose consumer: frame handlers and resume cursors of one source

at-adapter/ingress/AtFirehoseConsumer.ts (`connectAndWait`, `handleFrame`,
`commitCursorSafely`) and AtFirehoseCursorManager.ts (`setHotCursor`,
`commitCursor`, `getResumeCursor`), with the checkpoint store behind them.

`on('message')` starts one `handleFrame` per frame and never waits for the previous one; a label
below is one await of a handler completing, with its outcome. The upstream is its log of sequence
numbers: a connection opened with a cursor is offered the log above it in order, one opened
without a cursor the whole log. Frames without a sequence number reach no cursor.
-/
namespace MastopodFederation.Source.FirehoseCursor
open Lib.GuardedRun

/-- The two persisted cursors of the source: Redis and the checkpoint store. -/
structure CursorStore where
  hot : Option Nat
  committed : Option Nat
  deriving DecidableEq, Repr

def setHotCursor (store : CursorStore) (seq : Nat) : CursorStore := { store with hot := some seq }

def commitCursor (store : CursorStore) (seq : Nat) : CursorStore :=
  { store with committed := some seq }

/-- Prefers the durable cursor over the hot one. -/
def getResumeCursor (store : CursorStore) : Option Nat :=
  match store.committed with
  | some committed => some committed
  | none => store.hot

/-- Where a running `handleFrame` call stands. -/
inductive Handler where
  /-- the publish to at.firehose.raw.v1 is awaited -/
  | publishing (seq : Nat)
  /-- acknowledged; `setHotCursor` is awaited -/
  | acknowledged (seq : Nat)
  /-- the hot cursor write is over; `lastAckedSeq` is assigned next -/
  | hotCursorSet (seq : Nat)
  deriving DecidableEq, Repr

/-- Process memory, persisted cursors and what the upstream and the topic have
seen. `position` is the last sequence number offered on the open socket, `none`
inside it being the start of the log. -/
structure Connection where
  store : CursorStore
  lastAckedSeq : Option Nat
  position : Option (Option Nat)
  handlers : List Handler
  commits : List Nat
  received : List Nat
  published : List Nat
  deriving DecidableEq, Repr

def initial : Connection :=
  ⟨⟨none, none⟩, none, none, [], [], [], []⟩

inductive Event where
  /-- `connectAndWait` loads the resume cursor and opens the socket -/
  | connect
  /-- the socket delivers a frame and a handler starts publishing it -/
  | deliver (seq : Nat)
  | publishAcked (seq : Nat)
  /-- the publish is rejected: the handler terminates the socket -/
  | publishFailed (seq : Nat)
  /-- the Redis write of `setHotCursor` settles; its failure is swallowed -/
  | hotCursorSettled (seq : Nat) (ok : Bool)
  | lastAckedAssigned (seq : Nat)
  /-- `commitCursorSafely` captures `lastAckedSeq`, from the timer or from `stop` -/
  | commitStarted
  /-- the checkpoint write settles; its failure is swallowed -/
  | commitSettled (seq : Nat) (ok : Bool)
  | socketClosed
  /-- the process dies and starts again with the persisted cursors only -/
  | restart
  deriving DecidableEq, Repr

/-- `seq` is the frame the upstream offers next after `position`. -/
def isNext (log : Nat → Bool) (position : Option Nat) (seq : Nat) : Bool :=
  log seq && (position.all (· < seq)) &&
    (List.range seq).all fun r => !log r || !(position.all (· < r))

def step (log : Nat → Bool) (c : Connection) : Event → Option Connection
  | .connect =>
    match c.position with
    | none => some { c with position := some (getResumeCursor c.store) }
    | some _ => none
  | .deliver seq =>
    match c.position with
    | none => none
    | some position =>
      if isNext log position seq then
        some { c with
          position := some (some seq)
          handlers := .publishing seq :: c.handlers
          received := seq :: c.received }
      else none
  | .publishAcked seq =>
    if .publishing seq ∈ c.handlers then
      some { c with
        handlers := .acknowledged seq :: c.handlers.erase (.publishing seq)
        published := seq :: c.published }
    else none
  | .publishFailed seq =>
    if .publishing seq ∈ c.handlers then
      some { c with handlers := c.handlers.erase (.publishing seq), position := none }
    else none
  | .hotCursorSettled seq ok =>
    if .acknowledged seq ∈ c.handlers then
      some { c with
        store := if ok then setHotCursor c.store seq else c.store
        handlers := .hotCursorSet seq :: c.handlers.erase (.acknowledged seq) }
    else none
  | .lastAckedAssigned seq =>
    if .hotCursorSet seq ∈ c.handlers then
      some { c with
        lastAckedSeq := some seq
        handlers := c.handlers.erase (.hotCursorSet seq) }
    else none
  | .commitStarted =>
    match c.lastAckedSeq with
    | none => none
    | some seq => some { c with commits := seq :: c.commits }
  | .commitSettled seq ok =>
    if seq ∈ c.commits then
      some { c with
        store := if ok then commitCursor c.store seq else c.store
        commits := c.commits.erase seq }
    else none
  | .socketClosed => some { c with position := none }
  | .restart =>
    some { c with lastAckedSeq := none, position := none, handlers := [], commits := [] }

/-- Every state the consumer of one source can be in. -/
def Reachable (log : Nat → Bool) (c : Connection) : Prop :=
  Reaches (ofFunction (step log)) always initial c

/-- The cursor a reconnect or restart would resume from lies below every received
frame that is not published, and below every frame the upstream still owes. -/
def ResumesBelowUnpublished (log : Nat → Bool) (c : Connection) : Prop :=
  ∀ cursor, getResumeCursor c.store = some cursor →
    (∀ seq ∈ c.received, seq ∉ c.published → cursor < seq) ∧
      ∀ seq, log seq = true → seq ∉ c.published → cursor < seq

end MastopodFederation.Source.FirehoseCursor
