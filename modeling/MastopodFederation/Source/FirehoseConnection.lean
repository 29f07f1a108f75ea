import Mathlib.Data.List.Basic

/-!
# The connection of a firehose source

`FirehoseConnection` of at-adapter/ingress/AtFirehoseConsumer.ts: the loop, its sockets and its
timers. Timers are the entries of the runtime's list, which the three timer fields name or no
longer name; a timer runs no earlier than it is due and in the order of the due times. A socket
opens at most once and may fail or close at any time before it is closed. What follows a settled
promise runs before the next event. The backoff delay comes with the event that starts it.
-/
namespace MastopodFederation.Source.FirehoseConnection

def cursorCommitIntervalMs : Nat := 10000

def wsPingIntervalMs : Nat := 30000

def wsPongTimeoutMs : Nat := 10000

inductive Kind where
  | commit | ping | pong | backoff
  deriving DecidableEq

structure Timer where
  id : Nat
  kind : Kind
  due : Nat
  deriving DecidableEq

inductive SocketState where
  | connecting | opened | closing | closed
  deriving DecidableEq

/-- Where the loop is. -/
inductive Phase where
  | created
  /-- awaits the resume cursor -/
  | loading
  /-- awaits the end of this socket -/
  | waiting (socket : Nat)
  /-- awaits this timer -/
  | backoff (timer : Nat)
  | ended
  deriving DecidableEq

structure Connection where
  isRunning : Bool
  /-- `stop` was called -/
  stopped : Bool
  phase : Phase
  ws : Option Nat
  sockets : List SocketState
  pingInterval : Option Nat
  pongTimeout : Option Nat
  commitInterval : Option Nat
  armed : List Timer
  nextId : Nat
  now : Nat
  deriving DecidableEq

namespace Connection

def fresh : Connection := ⟨false, false, .created, none, [], none, none, none, [], 0, 0⟩

def arm (s : Connection) (kind : Kind) (delay : Nat) : Connection :=
  { s with armed := s.armed ++ [⟨s.nextId, kind, s.now + delay⟩], nextId := s.nextId + 1 }

/-- `if (timer) clearInterval(timer)` -/
def disarm (armed : List Timer) (timer : Option Nat) : List Timer :=
  armed.filter fun t => some t.id ≠ timer

def cleanupTimers (s : Connection) : Connection :=
  { s with
    armed := disarm (disarm (disarm s.armed s.pingInterval) s.pongTimeout) s.commitInterval
    pingInterval := none
    pongTimeout := none
    commitInterval := none }

/-- An interval timer that has run. -/
def rearm (s : Connection) (id delay : Nat) : Connection :=
  { s with armed := s.armed.map fun t => if t.id = id then { t with due := s.now + delay } else t }

def setSocket (s : Connection) (socket : Nat) (state : SocketState) : Connection :=
  { s with sockets := s.sockets.set socket state }

/-- `close` or `terminate` of a socket that is not closing yet. -/
def terminate (s : Connection) (socket : Nat) : Connection :=
  match s.sockets[socket]? with
  | some .connecting | some .opened => s.setSocket socket .closing
  | _ => s

def terminateWs (s : Connection) : Connection := s.ws.elim s s.terminate

def setupPingPong (s : Connection) : Connection :=
  match s.ws with
  | none => s
  | some _ => { s.arm .ping wsPingIntervalMs with pingInterval := some s.nextId }

/-- The head of the loop: `while (this.isRunning)`, and the cleanup after it. -/
def loop (s : Connection) : Connection :=
  if s.isRunning then { s with phase := .loading } else { s.cleanupTimers with phase := .ended }

/-- `connectAndWait` threw. -/
def afterFailure (s : Connection) (delay : Nat) : Connection :=
  if s.isRunning then { s.arm .backoff delay with phase := .backoff s.nextId }
  else { s.cleanupTimers with phase := .ended }

/-- A timer runs. -/
def fire (s : Connection) (timer : Timer) : Connection :=
  match timer.kind with
  | .commit => s.rearm timer.id cursorCommitIntervalMs
  | .ping =>
    let s := s.rearm timer.id wsPingIntervalMs
    if s.ws.bind (s.sockets[·]?) = some .opened then
      { s.arm .pong wsPongTimeoutMs with pongTimeout := some s.nextId }
    else s
  | .pong => { s with armed := disarm s.armed (some timer.id) }.terminateWs
  | .backoff =>
    let s := { s with armed := disarm s.armed (some timer.id) }
    if s.phase = .backoff timer.id then s.loop else s

end Connection

inductive Event where
  | startLoop
  /-- the resume cursor is there and the socket is made -/
  | connecting
  /-- the cursor could not be read or the socket not be made -/
  | notConnected (delay : Nat)
  | opened (socket : Nat)
  | closed (socket : Nat)
  | failed (socket : Nat) (delay : Nat)
  | pong
  /-- a frame could not be handled -/
  | badFrame
  | fires (timer : Timer) (now : Nat)
  | stop

open Connection

/-- The next state, where the event can happen. -/
def next (s : Connection) : Event → Option Connection
  | .startLoop =>
    if s.phase = .created then
      some { s.arm .commit cursorCommitIntervalMs with
        isRunning := true, commitInterval := some s.nextId, phase := .loading }
    else none
  | .connecting =>
    if s.phase = .loading then
      some { s with
        sockets := s.sockets ++ [.connecting]
        ws := some s.sockets.length
        phase := .waiting s.sockets.length }
    else none
  | .notConnected delay => if s.phase = .loading then some (s.afterFailure delay) else none
  | .opened socket =>
    if s.sockets[socket]? = some .connecting then some (s.setSocket socket .opened).setupPingPong
    else none
  | .closed socket =>
    if s.sockets[socket]?.any (· ≠ .closed) then
      let s := (s.setSocket socket .closed).cleanupTimers
      some (if s.phase = .waiting socket then s.loop else s)
    else none
  | .failed socket delay =>
    if s.sockets[socket]?.any (· ≠ .closed) then
      let s := (s.setSocket socket .closing).cleanupTimers
      some (if s.phase = .waiting socket then s.afterFailure delay else s)
    else none
  | .pong =>
    if .opened ∈ s.sockets then
      some { s with armed := disarm s.armed s.pongTimeout, pongTimeout := none }
    else none
  | .badFrame => if .opened ∈ s.sockets then some s.terminateWs else none
  | .fires timer now =>
    if timer ∈ s.armed ∧ timer.due ≤ now ∧ s.now ≤ now ∧ ∀ t ∈ s.armed, timer.due ≤ t.due then
      some ({ s with now := now }.fire timer)
    else none
  | .stop =>
    if s.phase = .created then none
    else
      let s := { s with isRunning := false, stopped := true }.cleanupTimers
      some { s.terminateWs with ws := none }

end MastopodFederation.Source.FirehoseConnection
