import MastopodFederation.Lib.GuardedRun
import MastopodFederation.Source.FirehoseConnection

/-!
# Timers of a firehose connection

While the loop runs the commit timer should be armed, and one ping timer while a socket is open;
after `stop` no timer should be. One cleanup function serves the socket and the loop, so this holds
along a run exactly when no socket closes or fails before `stop`, none opens after it, and `stop`
does not fall into a backoff.
-/
namespace MastopodFederation.Guarantees.ConnectionTimers
open Source.FirehoseConnection Connection

def armedCount (s : Connection) (kind : Kind) : Nat := s.armed.countP (·.kind = kind)

/-- The commit timer is armed while the loop runs, with one ping timer while a socket is open; no
timer is armed after `stop`. -/
structure Kept (s : Connection) : Prop where
  commit : s.isRunning → armedCount s .commit = 1
  ping : s.isRunning → .opened ∈ s.sockets → armedCount s .ping = 1
  stopped : s.stopped → s.armed = []

/-- A socket ends only after `stop` and opens only before it, and `stop` does not fall into a
backoff. -/
def Careful (s : Connection) : Event → Prop
  | .closed _ | .failed .. => s.isRunning = false
  | .opened _ => s.isRunning = true
  | .stop => ∀ timer, s.phase ≠ .backoff timer
  | _ => True

def Along (P : Connection → Prop) : Connection → List Event → Prop
  | s, [] => P s
  | s, e :: rest => P s ∧ ∀ t, next s e = some t → Along P t rest

def Steps (guard : Connection → Event → Prop) : Connection → List Event → Prop
  | _, [] => True
  | s, e :: rest => ∀ t, next s e = some t → guard s e ∧ Steps guard t rest

def running (phase : Phase) (ws : Option Nat) (sockets : List SocketState) (ping pong : Option Nat)
    (commit : Nat) (armed : List Timer) (nextId now : Nat) : Connection :=
  ⟨true, false, phase, ws, sockets, ping, pong, some commit, armed, nextId, now⟩

inductive Sound : Connection → Prop where
  | created : Sound fresh
  | loading {c d n now : Nat} (fresh : c < n) :
      Sound (running .loading none [] none none c [⟨c, .commit, d⟩] n now)
  | backoff {c d b d' n now : Nat} (apart : c < b) (fresh : b < n) :
      Sound (running (.backoff b) none [] none none c [⟨c, .commit, d⟩, ⟨b, .backoff, d'⟩] n now)
  | connecting {c d n now : Nat} (fresh : c < n) :
      Sound (running (.waiting 0) (some 0) [.connecting] none none c [⟨c, .commit, d⟩] n now)
  /-- the pong timer has not been armed, or has run -/
  | up {st : SocketState} {c d p d' n now : Nat} {pong : Option Nat} (on : st = .opened ∨ st = .closing)
      (apart : c < p) (fresh : p < n) (stale : ∀ q, pong = some q → p < q ∧ q < n) :
      Sound (running (.waiting 0) (some 0) [st] (some p) pong c [⟨c, .commit, d⟩, ⟨p, .ping, d'⟩] n now)
  /-- the pong timer is due before the next ping -/
  | pinged {st : SocketState} {c d p d' q d'' n now : Nat} (on : st = .opened ∨ st = .closing)
      (apart : c < p) (next : p < q) (fresh : q < n) (first : d'' < d') :
      Sound (running (.waiting 0) (some 0) [st] (some p) (some q) c
        [⟨c, .commit, d⟩, ⟨p, .ping, d'⟩, ⟨q, .pong, d''⟩] n now)
  | stopped {s : Connection} (off : s.isRunning = false) (done : s.stopped = true)
      (clear : s.armed = []) (started : s.phase ≠ .created) (awake : ∀ b, s.phase ≠ .backoff b)
      (named : ∀ k, s.sockets[k]? = some .connecting → s.ws = some k ∧ s.phase = .waiting k) : Sound s

variable {s t : Connection} {e : Event}

theorem Sound.kept (sound : Sound s) : Kept s := by
  cases sound with
  | created => exact ⟨nofun, nofun, nofun⟩
  | loading => exact ⟨fun _ => rfl, nofun, nofun⟩
  | backoff => exact ⟨fun _ => rfl, nofun, nofun⟩
  | connecting => exact ⟨fun _ => rfl, by simp [running], nofun⟩
  | up => exact ⟨fun _ => rfl, fun _ _ => rfl, nofun⟩
  | pinged => exact ⟨fun _ => rfl, fun _ _ => rfl, nofun⟩
  | stopped off done clear => exact ⟨by simp [off], by simp [off], fun _ => clear⟩

theorem connecting_set {sockets : List SocketState} {k socket : Nat} {state : SocketState}
    (found : (sockets.set socket state)[k]? = some .connecting) (ended : state ≠ .connecting) :
    k ≠ socket ∧ sockets[k]? = some .connecting := by
  by_cases same : socket = k
  · subst same
    have bound := (List.getElem?_eq_some_iff.mp found).1
    rw [List.length_set] at bound
    rw [List.getElem?_set_self bound] at found
    cases found
    exact absurd rfl ended
  · rw [List.getElem?_set_ne same] at found
    exact ⟨fun eq => same eq.symm, found⟩

theorem connecting_terminateWs {k : Nat}
    (found : s.terminateWs.sockets[k]? = some .connecting) :
    s.sockets[k]? = some .connecting ∧ s.ws ≠ some k := by
  unfold terminateWs at found
  cases ws : s.ws with
  | none =>
    rw [ws] at found
    exact ⟨found, nofun⟩
  | some socket =>
    rw [ws] at found
    simp only [Option.elim_some, terminate] at found
    split at found
    · obtain ⟨ne, before⟩ := connecting_set found (by simp)
      exact ⟨before, by simpa using ne.symm⟩
    · obtain ⟨ne, before⟩ := connecting_set found (by simp)
      exact ⟨before, by simpa using ne.symm⟩
    next other _ =>
      refine ⟨found, fun same => ?_⟩
      cases same
      exact other found

theorem terminateWs_eq : s.terminateWs = { s with sockets := s.terminateWs.sockets } := by
  obtain ⟨isRunning, stopped, phase, ws, sockets, ping, pong, commit, armed, nextId, now⟩ := s
  cases ws with
  | none => rfl
  | some socket =>
    simp only [terminateWs, Option.elim_some, terminate]
    split <;> rfl

@[simp] theorem terminateWs_armed : s.terminateWs.armed = s.armed := by rw [terminateWs_eq]

@[simp] theorem terminateWs_ws : s.terminateWs.ws = s.ws := by rw [terminateWs_eq]

@[simp] theorem terminateWs_phase : s.terminateWs.phase = s.phase := by rw [terminateWs_eq]

@[simp] theorem terminateWs_isRunning : s.terminateWs.isRunning = s.isRunning := by
  rw [terminateWs_eq]

@[simp] theorem terminateWs_stopped : s.terminateWs.stopped = s.stopped := by rw [terminateWs_eq]

theorem stop_sound (started : s.phase ≠ .created) (awake : ∀ b, s.phase ≠ .backoff b)
    (clear : s.cleanupTimers.armed = [])
    (named : ∀ k, s.sockets[k]? = some .connecting → s.ws = some k)
    (moved : next s .stop = some t) : Sound t := by
  rw [next, if_neg started, Option.some.injEq] at moved
  subst moved
  refine .stopped ?_ ?_ ?_ ?_ ?_ ?_
  · simp [cleanupTimers]
  · simp [cleanupTimers]
  · simpa [cleanupTimers] using clear
  · simpa [cleanupTimers] using started
  · simpa [cleanupTimers] using awake
  · intro k found
    obtain ⟨before, other⟩ := connecting_terminateWs found
    exact absurd (named k before) other

theorem loop_off (off : s.isRunning = false) :
    s.loop = { s.cleanupTimers with phase := .ended } := by
  simp [loop, off]

theorem afterFailure_off (off : s.isRunning = false) (delay : Nat) :
    s.afterFailure delay = { s.cleanupTimers with phase := .ended } := by
  simp [afterFailure, off]

theorem stopped_step (off : s.isRunning = false) (done : s.stopped = true) (clear : s.armed = [])
    (started : s.phase ≠ .created) (awake : ∀ b, s.phase ≠ .backoff b)
    (named : ∀ k, s.sockets[k]? = some .connecting → s.ws = some k ∧ s.phase = .waiting k)
    (careful : Careful s e) (moved : next s e = some t) : Sound t := by
  have cleaned : s.cleanupTimers.armed = [] := by simp [cleanupTimers, clear, disarm]
  have ended : ∀ socket state, state ≠ SocketState.connecting →
      (s.phase = .waiting socket →
        Sound { (s.setSocket socket state).cleanupTimers.cleanupTimers with phase := .ended }) ∧
      (s.phase ≠ .waiting socket → Sound (s.setSocket socket state).cleanupTimers) := by
    intro socket state kind
    constructor
    · intro here
      refine .stopped off done (by simp [cleanupTimers, setSocket, clear, disarm]) (by simp)
        (by simp) fun k found => ?_
      obtain ⟨ne, before⟩ := connecting_set found kind
      rw [(named k before).2] at here
      cases here
      exact absurd rfl ne
    · intro elsewhere
      refine .stopped off done (by simp [cleanupTimers, setSocket, clear, disarm]) started awake
        fun k found => named k (connecting_set found kind).2
  cases e with
  | startLoop => simp [next, started] at moved
  | connecting =>
    simp only [next, Option.ite_none_right_eq_some, Option.some.injEq] at moved
    obtain ⟨loading, rfl⟩ := moved
    refine .stopped off done clear (by simp) (by simp) fun k found => ?_
    by_cases last : k < s.sockets.length
    · rw [List.getElem?_append_left last] at found
      rw [(named k found).2] at loading
      cases loading
    · have here : k = s.sockets.length := by
        have bound := (List.getElem?_eq_some_iff.mp found).1
        simp only [List.length_append, List.length_singleton] at bound
        omega
      simp [here]
  | notConnected delay =>
    simp only [next, Option.ite_none_right_eq_some, Option.some.injEq] at moved
    obtain ⟨loading, rfl⟩ := moved
    simp only [afterFailure, off, Bool.false_eq_true, if_false]
    refine .stopped off done cleaned (by simp) (by simp) fun k found => ?_
    rw [(named k found).2] at loading
    cases loading
  | opened socket =>
    have on : s.isRunning = true := careful
    rw [off] at on
    cases on
  | closed socket =>
    simp only [next, Option.ite_none_right_eq_some, Option.some.injEq] at moved
    obtain ⟨-, rfl⟩ := moved
    have finished := ended socket .closed (by simp)
    split
    next here =>
      rw [loop_off (s := (s.setSocket socket .closed).cleanupTimers) off]
      exact finished.1 here
    next elsewhere => exact finished.2 elsewhere
  | failed socket delay =>
    simp only [next, Option.ite_none_right_eq_some, Option.some.injEq] at moved
    obtain ⟨-, rfl⟩ := moved
    have finished := ended socket .closing (by simp)
    split
    next here =>
      rw [afterFailure_off (s := (s.setSocket socket .closing).cleanupTimers) off]
      exact finished.1 here
    next elsewhere => exact finished.2 elsewhere
  | pong =>
    simp only [next, Option.ite_none_right_eq_some, Option.some.injEq] at moved
    obtain ⟨-, rfl⟩ := moved
    exact .stopped off done (by simp [clear, disarm]) started awake named
  | badFrame =>
    simp only [next, Option.ite_none_right_eq_some, Option.some.injEq] at moved
    obtain ⟨-, rfl⟩ := moved
    refine .stopped (by simpa) (by simpa) (by simpa) (by simpa) (by simpa) fun k found => ?_
    obtain ⟨before, -⟩ := connecting_terminateWs found
    simpa using named k before
  | fires timer now =>
    simp only [next, Option.ite_none_right_eq_some, clear] at moved
    simp at moved
  | stop => exact stop_sound started awake cleaned (fun k found => (named k found).1) moved

section Running
variable {phase : Phase} {ws : Option Nat} {sockets : List SocketState} {ping pong : Option Nat}
  {c d n now : Nat} {armed rest : List Timer}

theorem ends_careless {P : Prop}
    (off : (running phase ws sockets ping pong c armed n now).isRunning = false) : P := by
  cases off

theorem fires_iff {timer : Timer} {now' : Nat} :
    next s (.fires timer now') = some t ↔
      (timer ∈ s.armed ∧ timer.due ≤ now' ∧ s.now ≤ now' ∧ ∀ t ∈ s.armed, timer.due ≤ t.due) ∧
        { s with now := now' }.fire timer = t := by
  simp only [next, Option.ite_none_right_eq_some, Option.some.injEq]

theorem fire_commit (now' : Nat) (others : ∀ t ∈ rest, t.id ≠ c) :
    { running phase ws sockets ping pong c (⟨c, .commit, d⟩ :: rest) n now with now := now' }.fire
      ⟨c, .commit, d⟩ =
    running phase ws sockets ping pong c (⟨c, .commit, now' + cursorCommitIntervalMs⟩ :: rest) n
      now' := by
  have same : rest.map (fun t => if t.id = c then { t with due := now' + cursorCommitIntervalMs }
      else t) = rest := by
    refine (List.map_congr_left fun t mem => ?_).trans (List.map_id _)
    rw [if_neg (others t mem)]
    rfl
  simp only [running, Connection.fire, rearm, List.map_cons, if_true, same]

variable {st : SocketState}

theorem fire_ping {p d' : Nat} (now' : Nat) (apart : c < p) (others : ∀ t ∈ rest, t.id ≠ p) :
    { running phase (some 0) [st] ping pong c (⟨c, .commit, d⟩ :: ⟨p, .ping, d'⟩ :: rest) n now with
      now := now' }.fire ⟨p, .ping, d'⟩ =
    if st = .opened then
      running phase (some 0) [st] ping (some n) c (⟨c, .commit, d⟩ ::
        ⟨p, .ping, now' + wsPingIntervalMs⟩ :: rest ++ [⟨n, .pong, now' + wsPongTimeoutMs⟩]) (n + 1) now'
    else running phase (some 0) [st] ping pong c
      (⟨c, .commit, d⟩ :: ⟨p, .ping, now' + wsPingIntervalMs⟩ :: rest) n now' := by
  have same : rest.map (fun t => if t.id = p then { t with due := now' + wsPingIntervalMs }
      else t) = rest := by
    refine (List.map_congr_left fun t mem => ?_).trans (List.map_id _)
    rw [if_neg (others t mem)]
    rfl
  have ne : c ≠ p := Nat.ne_of_lt apart
  simp [running, Connection.fire, rearm, same, ne, arm]

theorem not_connecting {k : Nat} (on : st = .opened ∨ st = .closing)
    (found : [st][k]? = some .connecting) : False := by
  have mem := List.mem_of_getElem? found
  rw [List.mem_singleton] at mem
  subst mem
  rcases on with on | on <;> cases on

theorem terminateWs_single (on : st = .opened ∨ st = .closing) :
    (running phase (some 0) [st] ping pong c armed n now).terminateWs =
      running phase (some 0) [.closing] ping pong c armed n now := by
  rcases on with rfl | rfl <;> rfl

end Running

theorem Sound.step (sound : Sound s) (careful : Careful s e) (moved : next s e = some t) :
    Sound t := by
  cases sound with
  | stopped off done clear started awake named =>
    exact stopped_step off done clear started awake named careful moved
  | created =>
    cases e <;> simp [next, fresh, arm] at moved
    subst moved
    exact .loading (by omega)
  | @loading c d n now fresh =>
    cases e with
    | connecting =>
      cases moved
      exact .connecting fresh
    | notConnected delay =>
      cases moved
      exact .backoff fresh (Nat.lt_succ_self n)
    | fires timer now' =>
      obtain ⟨⟨mem, -⟩, rfl⟩ := fires_iff.mp moved
      obtain rfl : timer = ⟨c, .commit, d⟩ := by simpa [running] using mem
      rw [fire_commit now' (by simp)]
      exact .loading fresh
    | stop =>
      refine stop_sound (by simp [running]) (by simp [running]) ?_ (by simp [running]) moved
      simp [running, cleanupTimers, disarm]
    | _ => cases moved
  | @backoff c d b d' n now apart fresh =>
    cases e with
    | fires timer now' =>
      obtain ⟨⟨mem, -⟩, rfl⟩ := fires_iff.mp moved
      have which : timer = ⟨c, .commit, d⟩ ∨ timer = ⟨b, .backoff, d'⟩ := by
        simpa [running] using mem
      rcases which with rfl | rfl
      · rw [fire_commit now' (by simp; omega)]
        exact .backoff apart fresh
      · have kept : disarm [⟨c, .commit, d⟩, ⟨b, .backoff, d'⟩] (some b) = [⟨c, .commit, d⟩] := by
          simp [disarm, Nat.ne_of_lt apart]
        simp only [running, Connection.fire, kept, if_true, loop]
        exact .loading (Nat.lt_trans apart fresh)
    | stop => exact absurd rfl (careful _)
    | _ => cases moved
  | @connecting c d n now fresh =>
    cases e with
    | closed => exact ends_careless careful
    | failed => exact ends_careless careful
    | opened socket =>
      simp only [next, Option.ite_none_right_eq_some, Option.some.injEq] at moved
      obtain ⟨found, rfl⟩ := moved
      obtain rfl : socket = 0 := by
        have bound := (List.getElem?_eq_some_iff.mp found).1
        simpa [running] using bound
      exact .up (.inl rfl) fresh (Nat.lt_succ_self n) nofun
    | fires timer now' =>
      obtain ⟨⟨mem, -⟩, rfl⟩ := fires_iff.mp moved
      obtain rfl : timer = ⟨c, .commit, d⟩ := by simpa [running] using mem
      rw [fire_commit now' (by simp)]
      exact .connecting fresh
    | stop =>
      refine stop_sound (by simp [running]) (by simp [running]) ?_ ?_ moved
      · simp [running, cleanupTimers, disarm]
      · intro k found
        have bound := (List.getElem?_eq_some_iff.mp found).1
        simp only [running, List.length_singleton, Nat.lt_one_iff] at bound
        rw [bound]
        rfl
    | pong => simp [next, running] at moved
    | badFrame => simp [next, running] at moved
    | _ => cases moved
  | @up st c d p d' n now pong on apart fresh stale =>
    cases e with
    | closed => exact ends_careless careful
    | failed => exact ends_careless careful
    | opened socket =>
      simp only [next, Option.ite_none_right_eq_some] at moved
      exact (not_connecting on moved.1).elim
    | pong =>
      simp only [next, Option.ite_none_right_eq_some, Option.some.injEq] at moved
      obtain ⟨-, rfl⟩ := moved
      have kept : disarm [⟨c, .commit, d⟩, ⟨p, .ping, d'⟩] pong =
          [⟨c, .commit, d⟩, ⟨p, .ping, d'⟩] := by
        refine List.filter_eq_self.mpr fun t mem => decide_eq_true fun same => ?_
        have later := (stale t.id same.symm).1
        have which : t.id = c ∨ t.id = p := by
          rcases List.mem_pair.mp mem with rfl | rfl
          · exact .inl rfl
          · exact .inr rfl
        omega
      simp only [running, kept]
      exact .up on apart fresh nofun
    | badFrame =>
      simp only [next, Option.ite_none_right_eq_some, Option.some.injEq] at moved
      obtain ⟨-, rfl⟩ := moved
      rw [terminateWs_single on]
      exact .up (.inr rfl) apart fresh stale
    | fires timer now' =>
      obtain ⟨⟨mem, -⟩, rfl⟩ := fires_iff.mp moved
      have which : timer = ⟨c, .commit, d⟩ ∨ timer = ⟨p, .ping, d'⟩ := by
        simpa [running] using mem
      rcases which with rfl | rfl
      · rw [fire_commit now' (by simp; omega)]
        exact .up on apart fresh stale
      · rw [fire_ping now' apart (by simp)]
        split
        · exact .pinged on apart fresh (Nat.lt_succ_self n) (Nat.add_lt_add_left (by decide) now')
        · exact .up on apart fresh stale
    | stop =>
      refine stop_sound (by simp [running]) (by simp [running]) ?_ ?_ moved
      · have first : c ≠ p := Nat.ne_of_lt apart
        simp [running, cleanupTimers, disarm, first]
      · intro k found
        exact (not_connecting on found).elim
    | _ => cases moved
  | @pinged st c d p d' q d'' n now on apart next' fresh first =>
    cases e with
    | closed => exact ends_careless careful
    | failed => exact ends_careless careful
    | opened socket =>
      simp only [next, Option.ite_none_right_eq_some] at moved
      exact (not_connecting on moved.1).elim
    | pong =>
      simp only [next, Option.ite_none_right_eq_some, Option.some.injEq] at moved
      obtain ⟨-, rfl⟩ := moved
      have kept : disarm [⟨c, .commit, d⟩, ⟨p, .ping, d'⟩, ⟨q, .pong, d''⟩] (some q) =
          [⟨c, .commit, d⟩, ⟨p, .ping, d'⟩] := by
        have one : c ≠ q := by omega
        have other : p ≠ q := by omega
        simp [disarm, one, other]
      simp only [running, kept]
      exact .up on apart (Nat.lt_trans next' fresh) nofun
    | badFrame =>
      simp only [next, Option.ite_none_right_eq_some, Option.some.injEq] at moved
      obtain ⟨-, rfl⟩ := moved
      rw [terminateWs_single on]
      exact .pinged (.inr rfl) apart next' fresh first
    | fires timer now' =>
      obtain ⟨⟨mem, -, -, earliest⟩, rfl⟩ := fires_iff.mp moved
      have which : timer = ⟨c, .commit, d⟩ ∨ timer = ⟨p, .ping, d'⟩ ∨ timer = ⟨q, .pong, d''⟩ := by
        simpa [running] using mem
      rcases which with rfl | rfl | rfl
      · rw [fire_commit now' (by simp; omega)]
        exact .pinged on apart next' fresh first
      · have before := earliest ⟨q, .pong, d''⟩ (by simp [running])
        exact absurd first (Nat.not_lt.mpr before)
      · have kept : disarm [⟨c, .commit, d⟩, ⟨p, .ping, d'⟩, ⟨q, .pong, d''⟩] (some q) =
            [⟨c, .commit, d⟩, ⟨p, .ping, d'⟩] := by
          have one : c ≠ q := by omega
          have other : p ≠ q := by omega
          simp [disarm, one, other]
        have ran : { running (.waiting 0) (some 0) [st] (some p) (some q) c
              [⟨c, .commit, d⟩, ⟨p, .ping, d'⟩, ⟨q, .pong, d''⟩] n now with now := now' }.fire
              ⟨q, .pong, d''⟩ =
            (running (.waiting 0) (some 0) [st] (some p) (some q) c
              [⟨c, .commit, d⟩, ⟨p, .ping, d'⟩] n now').terminateWs := by
          simp only [running, Connection.fire, kept]
        rw [ran, terminateWs_single on]
        exact .up (.inr rfl) apart (Nat.lt_trans next' fresh) fun r same => by
          cases same
          exact ⟨next', fresh⟩
    | stop =>
      refine stop_sound (by simp [running]) (by simp [running]) ?_ ?_ moved
      · have one : c ≠ p := by omega
        have other : c ≠ q := by omega
        have third : q ≠ p := by omega
        simp [running, cleanupTimers, disarm, one, other, third]
      · intro k found
        exact (not_connecting on found).elim
    | _ => cases moved

theorem Sound.cleaned (sound : Sound s) (on : s.isRunning = true) :
    armedCount s.cleanupTimers .commit = 0 := by
  cases sound with
  | created => cases on
  | stopped off => exact absurd on (by simp [off])
  | _ => simp [armedCount, running, cleanupTimers, disarm]

theorem not_kept_of_uncommitted (on : s.isRunning = true) (gone : armedCount s .commit = 0) :
    ¬ Kept s := by
  intro kept
  have one := kept.commit on
  omega

theorem Sound.broken (sound : Sound s) (careless : ¬ Careful s e) (moved : next s e = some t) :
    ¬ Kept t := by
  cases e with
  | closed socket =>
    have on : s.isRunning = true := by simpa [Careful] using careless
    have gone := sound.cleaned on
    simp only [next, Option.ite_none_right_eq_some, Option.some.injEq] at moved
    obtain ⟨-, rfl⟩ := moved
    split
    · have looped : ((s.setSocket socket .closed).cleanupTimers).loop =
          { (s.setSocket socket .closed).cleanupTimers with phase := .loading } := if_pos on
      rw [looped]
      exact not_kept_of_uncommitted on gone
    · exact not_kept_of_uncommitted on gone
  | failed socket delay =>
    have on : s.isRunning = true := by simpa [Careful] using careless
    have gone := sound.cleaned on
    simp only [next, Option.ite_none_right_eq_some, Option.some.injEq] at moved
    obtain ⟨-, rfl⟩ := moved
    split
    · refine not_kept_of_uncommitted ?_ ?_
      · simp [afterFailure, arm, cleanupTimers, setSocket, on]
      · simpa [afterFailure, arm, armedCount, cleanupTimers, setSocket, on] using gone
    · exact not_kept_of_uncommitted on gone
  | opened socket =>
    have off : s.isRunning = false := by simpa [Careful] using careless
    simp only [next, Option.ite_none_right_eq_some, Option.some.injEq] at moved
    obtain ⟨found, rfl⟩ := moved
    cases sound with
    | created => simp [fresh] at found
    | stopped _ done clear _ _ named =>
      have known := (named socket found).1
      intro kept
      have none := kept.stopped (by simpa [setupPingPong, setSocket, known, arm] using done)
      simp [setupPingPong, setSocket, known, arm] at none
    | _ => cases off
  | stop =>
    have asleep : ∃ timer, s.phase = .backoff timer := by simpa [Careful] using careless
    obtain ⟨timer, asleep⟩ := asleep
    cases sound with
    | stopped _ _ _ _ awake => exact absurd asleep (awake timer)
    | @backoff c d b d' n now apart =>
      cases moved
      intro kept
      have none := kept.stopped rfl
      have ne : b ≠ c := Nat.ne_of_gt apart
      simp [terminateWs, cleanupTimers, disarm, running, ne] at none
    | _ => cases asleep
  | _ => exact absurd trivial careless

/-- The timers are kept along a run exactly when each of its events is careful: a socket closes or
fails only after `stop` and opens only before it, and `stop` does not fall into a backoff. -/
theorem timers_kept_iff (events : List Event) :
    Along Kept fresh events ↔ Steps Careful fresh events := by
  have each : ∀ s, Sound s → (Along Kept s events ↔ Steps Careful s events) := by
    induction events with
    | nil =>
      intro s sound
      exact iff_of_true sound.kept trivial
    | cons e rest ih =>
      intro s sound
      constructor
      · intro ⟨_, later⟩ t moved
        by_cases careful : Careful s e
        · exact ⟨careful, (ih t (sound.step careful moved)).mp (later t moved)⟩
        · have kept : Kept t := by
            have along := later t moved
            cases rest with
            | nil => exact along
            | cons => exact along.1
          exact absurd kept (sound.broken careful moved)
      · intro steps
        refine ⟨sound.kept, fun t moved => ?_⟩
        obtain ⟨careful, later⟩ := steps t moved
        exact (ih t (sound.step careful moved)).mpr later
  exact each fresh .created

def reconnect : List Event :=
  [.startLoop, .connecting, .opened 0, .closed 0, .connecting, .opened 1]

/-- After the first reconnect the loop runs over an open socket without a commit timer. -/
theorem reconnect_uncommitted :
    (∃ s, Lib.GuardedRun.runLabels next fresh reconnect = some s ∧ s.isRunning = true ∧
      .opened ∈ s.sockets ∧ armedCount s .commit = 0) ∧ ¬ Along Kept fresh reconnect := by
  refine ⟨⟨_, rfl, rfl, by decide, by decide⟩, fun along => ?_⟩
  have kept := ((((along.2 _ rfl).2 _ rfl).2 _ rfl).2 _ rfl).1
  have one := kept.commit rfl
  revert one
  decide

end MastopodFederation.Guarantees.ConnectionTimers
