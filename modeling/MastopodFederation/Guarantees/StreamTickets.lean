import MastopodFederation.Source.Fep3ab2SessionStore
import MastopodFederation.Lib.SingleUse

/-!
# How often a stream ticket is used

The marker of a used ticket outlives the session it was claimed for, but a revocation deletes
both. A call that has read the session before can claim it again after that.
-/
namespace MastopodFederation.Guarantees.StreamTickets
open Lib.Calls Lib.GuardedRun Lib.WorkerPool Lib.PoolRuns Lib.SingleUse
open Source.Fep3ab2SessionStore

def IsOpen (s : Store) (sessionId : String) : Bool :=
  (s.live (s.sessions sessionId)).any fun record => s.clock < record.expiresAt

def ClaimsOpen (pool : Pool Store Request Call Reply SessionStoreError Unit) :
    Label Request Event Call Reply SessionStoreError Unit → Prop
  | .call i =>
    match pool.workers i with
    | some ⟨_, .call (.claim _ sessionId _) _⟩ => IsOpen pool.shared sessionId = true
    | _ => True
  | _ => True

instance (pool : Pool Store Request Call Reply SessionStoreError Unit)
    (label : Label Request Event Call Reply SessionStoreError Unit) :
    Decidable (ClaimsOpen pool label) := by
  unfold ClaimsOpen
  split
  · split <;> infer_instance
  · infer_instance

section Only
variable {config : Config} {P : Call → Prop} {sessionId : String}

theorem assertTopicCount_only (topicCount : Nat) :
    Only P (assertTopicCountWithinLimit config topicCount) := by
  unfold assertTopicCountWithinLimit
  split <;> trivial

theorem ensureSessionExists_only (ttl : P (.sessionTtl sessionId)) :
    Only P (ensureSessionExists sessionId) := by
  have ended : ∀ ttl : Int, Only P
      (if ttl = -2 then Prog.fail missingTicket else pure ttl : Run Int) := by
    intro ttl
    split <;> trivial
  exact only_call (c := Call.sessionTtl sessionId) ttl ended

theorem listTopics_only (ttl : P (.sessionTtl sessionId)) (card : P (.topicsCard sessionId))
    (members : P (.topicsMembers sessionId)) : Only P (listTopics config sessionId) := by
  unfold listTopics
  apply only_bind (ensureSessionExists_only ttl)
  intro _
  refine only_call (c := Call.topicsCard sessionId) card fun topicCount => ?_
  apply only_bind (assertTopicCount_only topicCount)
  intro _
  refine only_call (c := Call.topicsMembers sessionId) members fun raw => ?_
  apply only_bind (assertTopicCount_only raw.length)
  exact fun _ => trivial

end Only

/-- What a call knows about its ticket; `gone` that the session was not open at some point,
`won` that it has claimed the ticket and not returned yet. -/
structure Knows where
  ticketHash : String
  found : Option String
  seen : Option SessionRecord
  readAt : Nat
  gone : Bool
  won : Bool
  deriving DecidableEq

namespace Knows

def start (ticketHash : String) : Knows := ⟨ticketHash, none, none, 0, false, false⟩

def lookedUp (u : Knows) (reply : Option String) : Knows :=
  match reply.filter (· ≠ "") with
  | none => { u with gone := true }
  | some sessionId => { u with found := some sessionId }

def read (u : Knows) (sessionId : String) (reply : Option SessionRecord) : Knows :=
  match reply.filter fun record =>
      record.ticketHash = u.ticketHash ∧ record.sessionId = sessionId with
  | none => { u with gone := true }
  | some record => { u with seen := some record }

def clocked (u : Knows) (current : Nat) : Knows :=
  { u with
    readAt := current
    gone := u.gone || u.seen.any fun record => record.expiresAt ≤ current }

variable {sessionId : String}

theorem read_own {u : Knows} {record : SessionRecord}
    (own : record.ticketHash = u.ticketHash ∧ record.sessionId = sessionId) :
    u.read sessionId (some record) = { u with seen := some record } := by
  unfold read
  rw [Option.filter_some, if_pos (decide_eq_true own)]

theorem read_none {u : Knows} : u.read sessionId none = { u with gone := true } := rfl

theorem read_other {u : Knows} {record : SessionRecord}
    (other : ¬(record.ticketHash = u.ticketHash ∧ record.sessionId = sessionId)) :
    u.read sessionId (some record) = { u with gone := true } := by
  unfold read
  rw [Option.filter_some, if_neg (by simpa using other)]

end Knows

def ticketMonitor : Monitor Call Reply Knows where
  allows u
    | .ticketGet ticketHash => ticketHash = u.ticketHash
    | .ticketDel ticketHash => u.gone = true ∧ ticketHash = u.ticketHash
    | .sessionGet sessionId => u.found = some sessionId
    | .claim ticketHash sessionId ttlSeconds =>
      u.won = false ∧ ticketHash = u.ticketHash ∧ ∃ record, u.seen = some record ∧
        sessionId = record.sessionId ∧ record.expiresAt ≤ u.readAt + ttlSeconds * 1000
    | .sessionRevoke sessionId ticketHash =>
      ticketHash = u.ticketHash ∧ ∃ record, u.seen = some record ∧ sessionId = record.sessionId
    | .succeeded ticketHash => u.won = true ∧ ticketHash = u.ticketHash
    | .revoked ticketHash => u.gone = true ∧ ticketHash = u.ticketHash
    | _ => True
  after u
    | .now, current => u.clocked current
    | .ticketGet _, reply => u.lookedUp reply
    | .sessionGet sessionId, reply => u.read sessionId reply
    | .claim .., reply => { u with won := reply }
    | .sessionRevoke .., _ => { u with gone := true }
    | .succeeded _, _ => { u with won := false }
    | _, _ => u

abbrev Topical : Call → Prop
  | .sessionTtl _ | .topicsCard _ | .topicsMembers _ | .topicsReplace .. | .topicsAdd ..
  | .topicsRemove .. | .publish _ | .registerConnection .. | .replyError _ => True
  | _ => False

variable {config : Config} {ticket : String} {α : Type} {u : Knows}

theorem topical_silent {x : Run α} (only : Only Topical x) : Silent ticketMonitor x := by
  apply only.silent
  intro u c topical
  cases c with
  | now | ticketGet | ticketDel | sessionGet | claim | sessionRevoke | succeeded | revoked =>
    nomatch topical
  | _ => exact ⟨trivial, fun _ => rfl⟩

section Calls
variable {post : Knows → Except SessionStoreError α → Prop}

theorem meets_now {next : Nat → Run α} :
    Meets ticketMonitor (now >>= next) post u ↔
      ∀ current, Meets ticketMonitor (next current) post (u.clocked current) := by
  exact ⟨fun met => met.2, fun met => ⟨trivial, met⟩⟩

theorem meets_ticketGet {ticketHash : String} {next : Option String → Run α} :
    Meets ticketMonitor (ticketGet ticketHash >>= next) post u ↔
      ticketHash = u.ticketHash ∧
        ∀ reply, Meets ticketMonitor (next reply) post (u.lookedUp reply) := Iff.rfl

theorem meets_sessionGet {sessionId : String} {next : Option SessionRecord → Run α} :
    Meets ticketMonitor (sessionGet sessionId >>= next) post u ↔
      u.found = some sessionId ∧
        ∀ reply, Meets ticketMonitor (next reply) post (u.read sessionId reply) := Iff.rfl

end Calls

theorem replaceTopics_only (sessionId : String) (topics : List String) :
    Only Topical (replaceTopics config sessionId topics) := by
  unfold replaceTopics
  apply only_bind (ensureSessionExists_only trivial)
  intro _
  apply only_bind (assertTopicCount_only _)
  exact fun _ => ⟨trivial, fun _ => ⟨trivial, fun _ => trivial⟩⟩

theorem addTopics_only (sessionId : String) (topics : List String) :
    Only Topical (addTopics config sessionId topics) := by
  unfold addTopics
  dsimp only
  split
  · exact listTopics_only trivial trivial trivial
  apply only_bind (assertTopicCount_only _)
  intro _
  refine only_call (c := Call.topicsAdd _ _ _) trivial fun reply => ?_
  obtain ⟨status, observedCount⟩ : Int × Nat := reply
  change Only Topical (if _ then _ else _)
  split
  · trivial
  split
  · trivial
  apply only_bind (listTopics_only trivial trivial trivial)
  exact fun _ => ⟨trivial, fun _ => trivial⟩

theorem removeTopic_only (sessionId topic : String) :
    Only Topical (removeTopic config sessionId topic) := by
  unfold removeTopic
  apply only_bind (ensureSessionExists_only trivial)
  intro _
  refine only_call (c := Call.topicsRemove sessionId topic) trivial fun _ => ?_
  apply only_bind (listTopics_only trivial trivial trivial)
  exact fun _ => ⟨trivial, fun _ => trivial⟩

def Resolved (config : Config) (ticket : String) : Option ResolvedSession → Knows → Prop
  | none, u => ∀ ticketHash, ticketHashOf config ticket = some ticketHash →
      u.ticketHash = ticketHash ∧ u.gone = true
  | some session, u => ticketHashOf config ticket = some session.record.ticketHash ∧
      u.ticketHash = session.record.ticketHash ∧ u.seen = some session.record ∧ u.won = false

def startOf (config : Config) (ticket : String) : Knows :=
  .start ((ticketHashOf config ticket).getD "")

theorem resolveSession_meets : Meets ticketMonitor (resolveSession config ticket)
    (Ends (fun _ _ => True) (Resolved config ticket)) (startOf config ticket) := by
  unfold resolveSession startOf ticketHashOf
  cases normal : normalizeTicket ticket with
  | none =>
    intro ticketHash hashed
    rw [ticketHashOf, normal] at hashed
    nomatch hashed
  | some normalizedTicket =>
    have own : ticketHashOf config ticket = some (config.hashTicket normalizedTicket) := by
      rw [ticketHashOf, normal]
      rfl
    have lost : ∀ u : Knows, u.ticketHash = config.hashTicket normalizedTicket →
        u.gone = true → Resolved config ticket none u := by
      intro u same gone ticketHash hashed
      rw [own] at hashed
      cases hashed
      exact ⟨same, gone⟩
    refine meets_ticketGet.mpr ⟨rfl, fun reply => ?_⟩
    unfold Knows.lookedUp
    cases reply.filter (· ≠ "") with
    | none => exact lost _ rfl rfl
    | some sessionId =>
    refine meets_sessionGet.mpr ⟨rfl, fun stored => ?_⟩
    cases stored with
    | none =>
      rw [Knows.read_none]
      exact ⟨⟨rfl, rfl⟩, fun _ => lost _ rfl rfl⟩
    | some parsed =>
    dsimp only
    by_cases matching : parsed.ticketHash = config.hashTicket normalizedTicket ∧
        parsed.sessionId = sessionId
    · rw [Knows.read_own matching]
      obtain ⟨hash, id⟩ := matching
      rw [if_neg (by simp [hash, id])]
      refine meets_now.mpr fun current => ?_
      split
      next finished =>
        apply lost _ rfl
        rw [Knows.clocked, Option.any_some, decide_eq_true finished, Bool.or_true]
      next =>
        refine (topical_silent (listTopics_only trivial trivial trivial)).bind (fun topics => ?_) fun _ => trivial
        exact ⟨by rw [own, hash], hash.symm, rfl, rfl⟩
    · rw [Knows.read_other matching]
      rw [if_pos (by simpa [imp_iff_not_or] using matching)]
      exact lost _ rfl rfl

theorem consumeStreamTicket_meets {constraints : ConsumeConstraints} :
    Meets ticketMonitor (consumeStreamTicket config ticket constraints)
      (fun _ _ => True) (startOf config ticket) := by
  unfold consumeStreamTicket
  rw [meets_bind]
  refine Meets.imp resolveSession_meets fun u outcome ended => ?_
  cases outcome with
  | error e => trivial
  | ok resolved =>
  cases resolved with
  | none => trivial
  | some session =>
  obtain ⟨-, hash, seen, idle⟩ := ended
  rw [then_ok]
  dsimp only
  cases validateSessionConstraints config session.record constraints with
  | error e => trivial
  | ok _ =>
  refine meets_now.mpr fun current => ?_
  refine ⟨⟨idle, hash.symm, session.record, seen, rfl, ?_⟩, fun won => ?_⟩
  · unfold markerTtl Knows.clocked
    dsimp only
    omega
  · cases won with
    | false => trivial
    | true => exact ⟨⟨rfl, hash.symm⟩, fun _ => trivial⟩

theorem revocationReturns_meets {post : Knows → Except SessionStoreError Unit → Prop}
    (gone : ∀ ticketHash, ticketHashOf config ticket = some ticketHash →
      u.ticketHash = ticketHash ∧ u.gone = true) (ends : ∀ u, post u (.ok ())) :
    Meets ticketMonitor (revocationReturns config ticket) post u := by
  unfold revocationReturns
  split
  · exact ends u
  next ticketHash hashed =>
    obtain ⟨same, left⟩ := gone ticketHash hashed
    exact ⟨⟨left, same.symm⟩, fun _ => ends _⟩

theorem revokeByTicket_meets {principal : Option String} :
    Meets ticketMonitor (revokeByTicket config ticket principal)
      (fun _ _ => True) (startOf config ticket) := by
  unfold revokeByTicket
  rw [meets_bind]
  refine Meets.imp resolveSession_meets fun u outcome ended => ?_
  cases outcome with
  | error e => trivial
  | ok resolved =>
  cases resolved with
  | none =>
    rw [then_ok]
    dsimp only
    exact revocationReturns_meets ended fun _ => trivial
  | some session =>
  obtain ⟨own, hash, seen, -⟩ := ended
  rw [then_ok]
  dsimp only
  split
  · trivial
  refine ⟨⟨hash.symm, session.record, seen, rfl⟩, fun _ => ⟨trivial, fun _ => ?_⟩⟩
  apply revocationReturns_meets _ fun _ => trivial
  intro ticketHash hashed
  rw [own] at hashed
  cases hashed
  exact ⟨hash, rfl⟩

def ticketOf : Request → String
  | .consume ticket _ | .revoke ticket _ | .stream ticket _ => ticket
  | .replace .. | .add .. | .remove .. => ""

theorem serve_obeys (request : Request) :
    Obeys ticketMonitor (Source.Fep3ab2SessionStore.serve config request) (startOf config (ticketOf request)) := by
  unfold Obeys
  have quiet : ∀ {β : Type} {x : Run β}, Only Topical x →
      Meets ticketMonitor (x >>= fun _ => pure () : Run Unit) (fun _ _ => True)
        (startOf config (ticketOf request)) :=
    fun only => (topical_silent (only_bind only fun _ => only_pure ())).meets fun _ => trivial
  cases request with
  | consume ticket constraints =>
    unfold Source.Fep3ab2SessionStore.serve
    rw [meets_bind]
    refine Meets.imp consumeStreamTicket_meets fun u outcome _ => ?_
    cases outcome <;> trivial
  | revoke ticket principal => exact revokeByTicket_meets
  | stream ticket constraints =>
    unfold Source.Fep3ab2SessionStore.serve openStream
    rw [meets_bind, meets_attempt]
    refine Meets.imp consumeStreamTicket_meets fun u outcome _ => ?_
    cases outcome with
    | error e => exact ⟨trivial, fun _ => trivial⟩
    | ok session => exact ⟨trivial, fun _ => trivial⟩
  | replace sessionId topics =>
    exact quiet (replaceTopics_only sessionId topics)
  | add sessionId topics => exact quiet (addTopics_only sessionId topics)
  | remove sessionId topic => exact quiet (removeTopic_only sessionId topic)

def claimed (_ : Request) (u : Knows) : Option String := if u.won then some u.ticketHash else none

def Opened (record : SessionRecord) (s : Store) : Prop :=
  s.sessions record.sessionId ≠ none ∧ s.clock < record.expiresAt

structure Knows.Right (record : SessionRecord) (s : Store) (u : Knows) : Prop where
  found : ∀ sessionId, u.found = some sessionId →
    u.ticketHash = record.ticketHash ∧ sessionId = record.sessionId
  seen : ∀ other, u.seen = some other → other = record ∧ u.ticketHash = record.ticketHash
  readAt : u.readAt ≤ s.clock
  gone : u.gone = true → u.ticketHash = record.ticketHash → ¬Opened record s

/-- Only the created session is stored, a ticket that is claimed has a marker that outlives the
open session, and the session of a revoked ticket is closed. -/
structure Tickets (record : SessionRecord) (s : Store) (duties : Nat → Option (Request × Knows)) :
    Prop where
  session : ∀ sessionId entry, s.sessions sessionId = some entry →
    sessionId = record.sessionId ∧ entry.1 = record ∧ record.expiresAt ≤ entry.2
  ticket : ∀ ticketHash entry, s.tickets ticketHash = some entry →
    ticketHash = record.ticketHash ∧ entry.1 = record.sessionId ∧ record.expiresAt ≤ entry.2
  paired : s.tickets record.ticketHash = none → ¬Opened record s
  right : ∀ i request u, duties i = some (request, u) → u.Right record s
  exclusive : Exclusive (rights claimed duties) s.successes
  marked : ∀ ticketHash,
    ticketHash ∈ s.successes ∨ (∃ i, rights claimed duties i = some ticketHash) →
    ticketHash = record.ticketHash ∧
      (Opened record s → ∃ entry, s.consumed ticketHash = some entry ∧ record.expiresAt ≤ entry.2)
  revoked : record.ticketHash ∈ s.revocations → ¬Opened record s
  late : s.late = []

section Tickets
variable {record : SessionRecord} {s t : Store} {duties : Nat → Option (Request × Knows)} {i : Nat}
  {request : Request} {u v : Knows} {c : Call}

theorem Knows.Right.keep (right : u.Right record s) (time : s.clock ≤ t.clock)
    (opened : Opened record t → Opened record s) : u.Right record t where
  found := right.found
  seen := right.seen
  readAt := Nat.le_trans right.readAt time
  gone gone own later := right.gone gone own (opened later)

structure Loses (record : SessionRecord) (s t : Store) : Prop where
  time : s.clock ≤ t.clock
  sessions : ∀ sessionId entry, t.sessions sessionId = some entry →
    s.sessions sessionId = some entry
  tickets : ∀ ticketHash entry, t.tickets ticketHash = some entry →
    s.tickets ticketHash = some entry
  paired : t.tickets record.ticketHash = none → s.tickets record.ticketHash = none ∨
    ¬Opened record t
  markers : t.consumed = s.consumed ∨ ¬Opened record t
  successes : t.successes = s.successes
  revocations : t.revocations = s.revocations
  late : t.late = s.late

theorem loses_none (time : s.clock ≤ t.clock) (tickets : t.tickets = s.tickets)
    (sessions : t.sessions = s.sessions) (consumed : t.consumed = s.consumed)
    (successes : t.successes = s.successes) (revocations : t.revocations = s.revocations)
    (late : t.late = s.late) : Loses record s t where
  time := time
  sessions _ _ there := sessions ▸ there
  tickets _ _ there := tickets ▸ there
  paired missing := .inl (tickets ▸ missing)
  markers := .inl consumed
  successes := successes
  revocations := revocations
  late := late

theorem Loses.opened (loses : Loses record s t) (opened : Opened record t) : Opened record s := by
  obtain ⟨there, early⟩ := opened
  obtain ⟨entry, entered⟩ := Option.ne_none_iff_exists'.mp there
  refine ⟨?_, Nat.lt_of_le_of_lt loses.time early⟩
  rw [loses.sessions _ _ entered]
  exact Option.some_ne_none entry

variable {duty : Option (Request × Knows)}

theorem Tickets.frame (tickets : Tickets record s duties) (loses : Loses record s t)
    (right : ∀ request u, duty = some (request, u) → u.Right record t)
    (held : rights claimed duties i = (duty.bind fun d => claimed d.1 d.2)) :
    Tickets record t (setDuty duties i duty) := by
  have same : rights claimed (setDuty duties i duty) = rights claimed duties := by
    rw [rights_setDuty, ← held, setRight_self]
  constructor
  · exact fun sessionId entry there => tickets.session _ _ (loses.sessions _ _ there)
  · exact fun ticketHash entry there => tickets.ticket _ _ (loses.tickets _ _ there)
  · intro gone
    rcases loses.paired gone with before | shut
    · exact fun later => tickets.paired before (loses.opened later)
    · exact shut
  · intro j request u held
    rcases setDuty_some held with ⟨-, here⟩ | ⟨-, before⟩
    · exact right request u here
    · exact (tickets.right j request u before).keep loses.time loses.opened
  · rw [same, loses.successes]
    exact tickets.exclusive
  · intro ticketHash used
    rw [same, loses.successes] at used
    obtain ⟨own, marker⟩ := tickets.marked ticketHash used
    refine ⟨own, fun later => ?_⟩
    rcases loses.markers with kept | shut
    · rw [kept]
      exact marker (loses.opened later)
    · exact absurd later shut
  · intro listed later
    rw [loses.revocations] at listed
    exact tickets.revoked listed (loses.opened later)
  · rw [loses.late]
    exact tickets.late

theorem Tickets.know (tickets : Tickets record s duties) (duty : duties i = some (request, u))
    (won : claimed request v = claimed request u) (right : v.Right record s) :
    Tickets record s (setDuty duties i (some (request, v))) := by
  apply tickets.frame (loses_none (Nat.le_refl _) rfl rfl rfl rfl rfl rfl)
  · intro _ _ here
    cases here
    exact right
  · rw [rights, duty, Option.bind_some, Option.bind_some, won]

theorem Tickets.lose (tickets : Tickets record s duties) (loses : Loses record s t)
    (duty : duties i = some (request, u)) {gone : Bool}
    (closed : gone = true → u.gone = true ∨ ¬Opened record t)
    (same : v = { u with gone := gone }) :
    Tickets record t (setDuty duties i (some (request, v))) := by
  have right := tickets.right i request u duty
  rw [same]
  apply tickets.frame loses
  · intro _ _ here
    cases here
    refine ⟨right.found, right.seen, Nat.le_trans right.readAt loses.time, fun left own later => ?_⟩
    rcases closed left with before | shut
    · exact right.gone before own (loses.opened later)
    · exact shut later
  · rw [rights, duty]
    rfl

theorem live_some {α : Type} {kept : Kept α} {value : α} (there : s.live kept = some value) :
    ∃ deadline, kept = some (value, deadline) ∧ s.clock < deadline := by
  obtain ⟨entry, found, rfl⟩ := Option.map_eq_some_iff.mp there
  obtain ⟨rfl, early⟩ := Option.filter_eq_some_iff.mp found
  exact ⟨entry.2, rfl, of_decide_eq_true early⟩

theorem live_none {α : Type} {kept : Kept α} (gone : s.live kept = none) {entry : α × Nat}
    (there : kept = some entry) : entry.2 ≤ s.clock := by
  have late := Option.filter_eq_none_iff.mp (Option.map_eq_none_iff.mp gone) entry there
  simpa using late

theorem opened_of_isOpen (tickets : Tickets record s duties)
    (isOpen : IsOpen s record.sessionId = true) : Opened record s := by
  obtain ⟨other, there, early⟩ := (Option.any_eq_true _ _).mp isOpen
  obtain ⟨deadline, stored, -⟩ := live_some there
  obtain ⟨-, same, -⟩ := tickets.session _ _ stored
  cases (same : other = record)
  exact ⟨by rw [stored]; exact Option.some_ne_none _, of_decide_eq_true early⟩

theorem Tickets.ticketGet (tickets : Tickets record s duties) (named : record.sessionId ≠ "")
    (duty : duties i = some (request, u)) :
    Tickets record s
      (setDuty duties i (some (request, u.lookedUp (s.live (s.tickets u.ticketHash))))) := by
  have right := tickets.right i request u duty
  unfold Knows.lookedUp
  split
  next missing =>
    apply tickets.know duty (by rfl)
    refine ⟨right.found, right.seen, right.readAt, fun _ own opened => ?_⟩
    cases stored : s.tickets record.ticketHash with
    | none => exact tickets.paired stored opened
    | some entry =>
      obtain ⟨-, id, late⟩ := tickets.ticket _ _ stored
      cases reply : s.live (s.tickets record.ticketHash) with
      | none => exact absurd opened.2 (by have := live_none reply stored; omega)
      | some sessionId =>
        obtain ⟨deadline, there, -⟩ := live_some reply
        rw [stored] at there
        cases there
        have rejected := Option.filter_eq_none_iff.mp (own ▸ missing) sessionId reply
        have unnamed : sessionId ≠ "" := by
          rw [show sessionId = record.sessionId from id]
          exact named
        exact rejected (decide_eq_true unnamed)
  next sessionId found =>
    apply tickets.know duty (by rfl)
    refine ⟨fun other same => ?_, right.seen, right.readAt, right.gone⟩
    cases same
    obtain ⟨there, -⟩ := Option.filter_eq_some_iff.mp found
    obtain ⟨deadline, stored, -⟩ := live_some there
    obtain ⟨own, id, -⟩ := tickets.ticket _ _ stored
    exact ⟨own, id⟩

theorem Tickets.sessionGet (tickets : Tickets record s duties)
    (duty : duties i = some (request, u)) {sessionId : String}
    (found : u.found = some sessionId) :
    Tickets record s
      (setDuty duties i (some (request, u.read sessionId (s.live (s.sessions sessionId))))) := by
  have right := tickets.right i request u duty
  obtain ⟨hash, rfl⟩ := right.found sessionId found
  cases reply : s.live (s.sessions record.sessionId) with
  | none =>
    rw [Knows.read_none]
    apply tickets.know duty (by rfl)
    refine ⟨right.found, right.seen, right.readAt, fun _ _ opened => ?_⟩
    obtain ⟨entry, stored⟩ := Option.ne_none_iff_exists'.mp opened.1
    obtain ⟨-, -, late⟩ := tickets.session _ _ stored
    have finished := live_none reply stored
    exact absurd opened.2 (by omega)
  | some other =>
    obtain ⟨deadline, stored, -⟩ := live_some reply
    obtain ⟨-, same, -⟩ := tickets.session _ _ stored
    cases (same : other = record)
    rw [Knows.read_own ⟨hash.symm, rfl⟩]
    apply tickets.know duty (by rfl)
    refine ⟨right.found, fun other same => ?_, right.readAt, right.gone⟩
    cases same
    exact ⟨rfl, hash⟩

theorem Tickets.clocked (tickets : Tickets record s duties)
    (duty : duties i = some (request, u)) :
    Tickets record s (setDuty duties i (some (request, u.clocked s.clock))) := by
  have right := tickets.right i request u duty
  apply tickets.know duty (by rfl)
  refine ⟨right.found, right.seen, Nat.le_refl _, fun gone own opened => ?_⟩
  rcases Bool.or_eq_true_iff.mp gone with before | finished
  · exact right.gone before own opened
  · obtain ⟨other, seen, expired⟩ := (Option.any_eq_true _ _).mp finished
    obtain ⟨rfl, -⟩ := right.seen other seen
    have late := of_decide_eq_true expired
    exact absurd opened.2 (by omega)

theorem Tickets.claim (tickets : Tickets record s duties) (duty : duties i = some (request, u))
    (own : u.ticketHash = record.ticketHash) (opened : Opened record s) {ttlSeconds : Nat}
    (lasts : record.expiresAt ≤ u.readAt + ttlSeconds * 1000)
    (free : s.live (s.consumed record.ticketHash) = none) {late : List String}
    (same : late = s.late) :
    Tickets record { s with
        consumed := Store.set s.consumed record.ticketHash
          (some (record.sessionId, s.clock + ttlSeconds * 1000))
        late := late }
      (setDuty duties i (some (request, { u with won := true }))) := by
  have right := tickets.right i request u duty
  have unused : ¬(record.ticketHash ∈ s.successes ∨
      ∃ j, rights claimed duties j = some record.ticketHash) := by
    intro used
    obtain ⟨entry, marker, late⟩ := (tickets.marked _ used).2 opened
    have finished := live_none free marker
    exact absurd opened.2 (by omega)
  rw [not_or] at unused
  have changed : rights claimed (setDuty duties i (some (request, { u with won := true }))) =
      setRight (rights claimed duties) i (some record.ticketHash) := by
    rw [rights_setDuty, ← own]
    rfl
  have marker : record.expiresAt ≤ s.clock + ttlSeconds * 1000 := by
    have early := right.readAt
    omega
  constructor
  · exact tickets.session
  · exact tickets.ticket
  · exact tickets.paired
  · intro j q w held
    rcases setDuty_some held with ⟨-, ⟨⟩⟩ | ⟨-, before⟩
    · exact ⟨right.found, right.seen, right.readAt, right.gone⟩
    · have kept := tickets.right j q w before
      exact ⟨kept.found, kept.seen, kept.readAt, kept.gone⟩
  · rw [changed]
    exact tickets.exclusive.acquire unused.1 fun j held => unused.2 ⟨j, held⟩
  · intro ticketHash used
    have name : ticketHash = record.ticketHash := by
      rw [changed] at used
      rcases used with before | ⟨j, held⟩
      · exact (tickets.marked _ (.inl before)).1
      · rcases setRight_some held with ⟨-, ⟨⟩⟩ | ⟨-, before⟩
        · rfl
        · exact (tickets.marked _ (.inr ⟨j, before⟩)).1
    exact ⟨name, fun _ => ⟨_, by rw [name]; exact if_pos rfl, marker⟩⟩
  · exact tickets.revoked
  · rw [same]
    exact tickets.late

theorem Tickets.succeed (tickets : Tickets record s duties)
    (duty : duties i = some (request, u)) (won : u.won = true) :
    Tickets record { s with successes := u.ticketHash :: s.successes }
      (setDuty duties i (some (request, { u with won := false }))) := by
  have right := tickets.right i request u duty
  have held : rights claimed duties i = some u.ticketHash := by
    rw [rights, duty, Option.bind_some, claimed, won, if_pos rfl]
  have changed := rights_setDuty claimed duties i (some (request, { u with won := false }))
  rw [Option.bind_some, claimed, if_neg Bool.false_ne_true] at changed
  constructor
  · exact tickets.session
  · exact tickets.ticket
  · exact tickets.paired
  · intro j q w held
    rcases setDuty_some held with ⟨-, ⟨⟩⟩ | ⟨-, before⟩
    · exact ⟨right.found, right.seen, right.readAt, right.gone⟩
    · have kept := tickets.right j q w before
      exact ⟨kept.found, kept.seen, kept.readAt, kept.gone⟩
  · rw [changed]
    exact tickets.exclusive.use held
  · intro ticketHash used
    apply tickets.marked
    rcases used with listed | ⟨j, later⟩
    · rcases List.mem_cons.mp listed with rfl | before
      · exact .inr ⟨i, held⟩
      · exact .inl before
    · rw [changed] at later
      rcases setRight_some later with ⟨-, ⟨⟩⟩ | ⟨-, before⟩
      exact .inr ⟨j, before⟩
  · exact tickets.revoked
  · exact tickets.late

theorem set_none {α : Type} {entries : String → Kept α} {key other : String} {entry : α × Nat}
    (there : Store.set entries key none other = some entry) : entries other = some entry := by
  unfold Store.set at there
  split at there
  · nomatch there
  · exact there

theorem Tickets.call {reply : Reply c} (tickets : Tickets record s duties)
    (named : record.sessionId ≠ "") (duty : duties i = some (request, u))
    (allowed : ticketMonitor.allows u c) (performed : Store.perform c s = (reply, t))
    (isOpen : ∀ ticketHash sessionId ttlSeconds, c = .claim ticketHash sessionId ttlSeconds →
      IsOpen s sessionId = true) :
    Tickets record t (setDuty duties i (some (request, ticketMonitor.after u c reply))) := by
  have right := tickets.right i request u duty
  cases c with
  | now =>
    cases performed
    exact tickets.clocked duty
  | ticketGet ticketHash =>
    cases performed
    rw [(allowed : ticketHash = u.ticketHash)]
    exact tickets.ticketGet named duty
  | sessionGet sessionId =>
    cases performed
    exact tickets.sessionGet duty allowed
  | ticketDel ticketHash =>
    obtain ⟨gone, rfl⟩ := allowed
    cases performed
    refine tickets.lose ⟨Nat.le_refl _, fun _ _ there => there, fun _ _ => set_none, fun missing => ?_,
      .inl rfl, rfl, rfl, rfl⟩ duty .inl rfl
    simp only [Store.set] at missing
    split at missing
    next own => exact .inr (right.gone gone own.symm)
    next => exact .inl missing
  | claim ticketHash sessionId ttlSeconds =>
    obtain ⟨idle, rfl, other, seen, rfl, lasts⟩ := allowed
    obtain ⟨rfl, own⟩ := right.seen other seen
    have opened := opened_of_isOpen tickets (isOpen _ _ _ rfl)
    simp only [Store.perform] at performed
    split at performed
    next =>
      cases performed
      apply tickets.know duty (by rw [claimed, claimed, idle]; rfl)
      exact ⟨right.found, right.seen, right.readAt, right.gone⟩
    next free =>
      cases performed
      rw [own] at free ⊢
      apply tickets.claim duty own opened lasts free
      exact if_neg fun listed => tickets.revoked listed opened
  | sessionRevoke sessionId ticketHash =>
    obtain ⟨rfl, other, seen, rfl⟩ := allowed
    obtain ⟨rfl, own⟩ := right.seen other seen
    cases performed
    have shut : ∀ {t : Store}, t.sessions = Store.set s.sessions other.sessionId none →
        ¬Opened other t := by
      intro t same opened
      apply opened.1
      rw [same]
      exact if_pos rfl
    exact tickets.lose ⟨Nat.le_refl _, fun _ _ => set_none, fun _ _ => set_none,
      fun _ => .inr (shut rfl), .inr (shut rfl), rfl, rfl, rfl⟩ duty (fun _ => .inr (shut rfl)) rfl
  | succeeded ticketHash =>
    obtain ⟨won, rfl⟩ := allowed
    cases performed
    exact tickets.succeed duty won
  | revoked ticketHash =>
    obtain ⟨gone, rfl⟩ := allowed
    cases performed
    have kept : Tickets record s (setDuty duties i (some (request, u))) :=
      tickets.know duty rfl right
    refine ⟨kept.session, kept.ticket, kept.paired, fun j q w held => ?_, kept.exclusive, kept.marked,
      fun listed => ?_, kept.late⟩
    · have before := kept.right j q w held
      exact ⟨before.found, before.seen, before.readAt, before.gone⟩
    · rcases List.mem_cons.mp listed with own | before
      · exact right.gone gone own.symm
      · exact tickets.revoked before
  | _ =>
    cases performed
    exact tickets.lose (loses_none (Nat.le_refl _) rfl rfl rfl rfl rfl rfl) duty .inl rfl

theorem Tickets.dropped (tickets : Tickets record s duties)
    (fresh : ∀ request u, duty = some (request, u) → ∃ ticketHash, u = .start ticketHash) :
    Tickets record s (setDuty duties i duty) := by
  have none : (duty.bind fun d => claimed d.1 d.2) = none := by
    cases duty with
    | none => rfl
    | some d =>
      obtain ⟨ticketHash, same⟩ := fresh d.1 d.2 rfl
      rw [Option.bind_some, same]
      rfl
  have changed := rights_setDuty claimed duties i duty
  rw [none] at changed
  refine ⟨tickets.session, tickets.ticket, tickets.paired, fun j q w held => ?_, ?_,
    fun ticketHash used => ?_, tickets.revoked, tickets.late⟩
  · rcases setDuty_some held with ⟨-, here⟩ | ⟨-, before⟩
    · obtain ⟨ticketHash, rfl⟩ := fresh q w here
      exact ⟨fun _ none => (nomatch none), fun _ none => (nomatch none), Nat.zero_le _,
        fun none => (nomatch none)⟩
    · exact tickets.right j q w before
  · rw [changed]
    exact tickets.exclusive.drop
  · apply tickets.marked
    refine used.imp id ?_
    rintro ⟨j, held⟩
    rw [changed] at held
    rcases setRight_some held with ⟨-, ⟨⟩⟩ | ⟨-, before⟩
    exact ⟨j, before⟩

theorem Tickets.react (tickets : Tickets record s duties) {event : Event}
    (acted : Store.react event s = some t) : Tickets record t duties := by
  have loses : Loses record s t := by
    cases event with
    | elapse milliseconds =>
      cases acted
      exact loses_none (Nat.le_add_right _ _) rfl rfl rfl rfl rfl rfl
    | deliver =>
      simp only [Store.react] at acted
      split at acted
      · nomatch acted
      next mutation rest _ =>
        cases acted
        cases mutation <;> exact loses_none (Nat.le_refl _) rfl rfl rfl rfl rfl rfl
  have kept := tickets.frame (i := 0) loses
    (fun request u held => (tickets.right 0 request u held).keep loses.time loses.opened) rfl
  rwa [setDuty_self] at kept

end Tickets

variable {record : SessionRecord}

theorem tickets_preserved (config : Config) (admitted : Request → Prop)
    (named : record.sessionId ≠ "") :
    PreservesAt (sessionSystem config admitted) ClaimsOpen ticketMonitor (fun _ => True)
      (Tickets record) where
  call pool duties i request u c next reply t open' tickets running duty allowed performed := by
    apply tickets.call named duty allowed performed
    rintro ticketHash sessionId ttlSeconds rfl
    have guarded : ClaimsOpen pool (.call i) := open'
    simpa only [ClaimsOpen, running] using guarded
  stop pool duties i _ tickets _ := tickets.dropped fun _ _ none => nomatch none
  start pool duties i worker _ tickets _ starts := by
    refine ⟨startOf config (ticketOf worker.tag), ?_, ?_⟩
    · rw [starts.2]
      exact serve_obeys worker.tag
    · apply tickets.dropped
      intro _ _ here
      cases here
      exact ⟨_, rfl⟩
  act pool duties event after _ tickets acted := tickets.react acted

theorem tickets_created {clock deadline : Nat} (lasts : record.expiresAt ≤ deadline) :
    Tickets record (Store.created clock record deadline) fun _ => none := by
  constructor
  · intro sessionId entry there
    simp only [Store.created, Option.ite_none_right_eq_some, Option.some.injEq] at there
    obtain ⟨own, rfl⟩ := there
    exact ⟨own, rfl, lasts⟩
  · intro ticketHash entry there
    simp only [Store.created, Option.ite_none_right_eq_some, Option.some.injEq] at there
    obtain ⟨own, rfl⟩ := there
    exact ⟨own, rfl, lasts⟩
  · intro missing
    simp [Store.created] at missing
  · exact fun _ _ _ none => nomatch none
  · exact exclusive_none
  · rintro ticketHash (⟨⟨⟩⟩ | ⟨_, ⟨⟩⟩)
  · exact fun none => nomatch none
  · rfl

/-- In every run in which tickets are claimed for open sessions only, a ticket is used at most
once, and not after a revocation of it returned. -/
theorem ticket_used_once (config : Config) (clock deadline : Nat) (record : SessionRecord)
    (pool : Pool Store Request Call Reply SessionStoreError Unit) (named : record.sessionId ≠ "")
    (lasts : record.expiresAt ≤ deadline)
    (run : Reaches (Step (sessionSystem config fun _ => True)) ClaimsOpen
      (Pool.idle (Store.created clock record deadline)) pool) :
    pool.shared.successes.Nodup ∧ pool.shared.late = [] := by
  obtain ⟨duties, tickets⟩ :=
    invariantAt (tickets_preserved config _ named) (tickets_created lasts) run
  exact ⟨tickets.exclusive.once, tickets.late⟩

def plain : Config := ⟨id, id, fun a b => decide (a ≤ b), 10⟩

def sessions : Schedule Store Request Event Call Reply SessionStoreError Unit where
  perform _ c s := some (s.perform c)
  boot := Source.Fep3ab2SessionStore.serve plain
  admits _ _ := true
  react := Store.react

theorem sessions_follows : sessions.Follows (sessionSystem plain fun _ => True) where
  perform _ _ _ _ _ performed := Option.some.inj performed
  admits _ _ _ := ⟨trivial, rfl⟩
  react _ _ _ picked := picked

def session : SessionRecord := ⟨"11111111-1111-4111-8111-111111111111", "p", "t", 60000, none, none⟩

def consuming : Request := .consume "t" ⟨none, none, none⟩

def steps (i count : Nat) : List (Turn Request Event) := List.replicate count (.call i)

def used (s : Store) : List String × List String := (s.successes, s.late)

def inTurn : List (Turn Request Event) :=
  .start 0 consuming :: steps 0 9 ++ .start 1 consuming :: steps 1 8 ++
    .start 2 (.revoke "t" none) :: steps 2 9

theorem ticket_used_once_inTurn :
    ∃ pool, Reaches (Step (sessionSystem plain fun _ => True)) ClaimsOpen
        (Pool.idle (Store.created 0 session 60000)) pool ∧ used pool.shared = (["t"], []) ∧
      pool.shared.successes.Nodup ∧ pool.shared.late = [] := by
  obtain ⟨pool, run, ends⟩ : ∃ pool, Reaches (Step (sessionSystem plain fun _ => True)) ClaimsOpen
      (Pool.idle (Store.created 0 session 60000)) pool ∧ used pool.shared = (["t"], []) :=
    reaches_of_schedule used sessions_follows inTurn (by decide +kernel)
  exact ⟨pool, run, ends, ticket_used_once plain 0 60000 session pool (by decide) (by decide) run⟩

/-- The first call has read the session when the second one uses the ticket and a third one
revokes it. -/
def overlapping : List (Turn Request Event) :=
  .start 0 consuming :: steps 0 7 ++ .start 1 consuming :: steps 1 9 ++
    .start 2 (.revoke "t" none) :: steps 2 9 ++ steps 0 2

theorem ticket_used_twice :
    ¬ ∀ (config : Config) (clock deadline : Nat) (record : SessionRecord)
      (pool : Pool Store Request Call Reply SessionStoreError Unit), record.sessionId ≠ "" →
      record.expiresAt ≤ deadline →
      Reaches (Step (sessionSystem config fun _ => True)) always
        (Pool.idle (Store.created clock record deadline)) pool →
      pool.shared.successes.Nodup ∧ pool.shared.late = [] := by
  intro once
  obtain ⟨pool, run, ends⟩ : ∃ pool, Reaches (Step (sessionSystem plain fun _ => True)) always
      (Pool.idle (Store.created 0 session 60000)) pool ∧
      used pool.shared = (["t", "t"], ["t"]) :=
    reaches_of_schedule used sessions_follows overlapping (by decide +kernel)
  have single := (once plain 0 60000 session pool (by decide) (by decide) run).1
  rw [show pool.shared.successes = ["t", "t"] from congrArg (·.1) ends] at single
  exact absurd single (by decide)

end MastopodFederation.Guarantees.StreamTickets
