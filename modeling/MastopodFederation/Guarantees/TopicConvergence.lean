import MastopodFederation.Guarantees.TopicRequests

/-!
# Which topics a connection ends up with

A mutation changes the stored topics, reads them and publishes what it read; a connection is
registered with the topics that were read when its ticket was resolved. The hub follows the
store as long as nothing changes a session between such a read and what is done with it.
-/
namespace MastopodFederation.Guarantees.TopicConvergence
open Lib.Calls Lib.GuardedRun Lib.WorkerPool Lib.PoolRuns
open Source.Fep3ab2SessionStore TopicRequests

abbrev SessionPool := Pool Store Request Call Reply SessionStoreError Unit

abbrev SessionLabel := Label Request Event Call Reply SessionStoreError Unit

abbrev SessionWorker := Worker Request Call Reply SessionStoreError Unit

def isOpeningCall : Call → Bool
  | .now | .topicsCard _ | .topicsMembers _ | .claim .. | .succeeded _ | .registerConnection ..
  | .replyError _ => true
  | _ => false

def isOpening : Option SessionWorker → Bool
  | some ⟨.stream .., .call c _⟩ => isOpeningCall c
  | _ => false

def isPublishing (sessionId : String) : Option SessionWorker → Bool
  | some ⟨_, .call (.publish (.subscriptionsUpdated other _)) _⟩ => other = sessionId
  | _ => false

def Spares (places : Nat → Prop) (pool : SessionPool) : Call → Prop
  | .topicsReplace sessionId _ | .topicsAdd sessionId .. | .topicsRemove sessionId _ =>
    ∀ j, places j → isOpening (pool.workers j) = false ∧
      isPublishing sessionId (pool.workers j) = false
  | .sessionRevoke .. => ∀ j, places j → isOpening (pool.workers j) = false
  | _ => True

/-- No call makes stale what another one has read, calls run to their end, and the session does
not expire. -/
def InTurn (places : Nat → Prop) (record : SessionRecord) (pool : SessionPool) :
    SessionLabel → Prop
  | .call i =>
    match pool.workers i with
    | some ⟨_, .call c _⟩ => Spares places pool c
    | _ => True
  | .stop i => finished (pool.workers i) = true
  | .start .. => True
  | .act (.elapse milliseconds) => pool.shared.clock + milliseconds < record.expiresAt
  | .act .deliver => True

def updates (sessionId : String) (channel : List SessionMutationEvent) : List (List String) :=
  channel.filterMap fun
    | .subscriptionsUpdated other topics => if other = sessionId then some topics else none
    | .revoked _ => none

def Current (s : Store) (sessionId : String) : Prop :=
  match (updates sessionId s.channel).getLast? with
  | some topics => Same topics (s.topics sessionId)
  | none => ∀ topics, s.connections sessionId = some topics → Same topics (s.topics sessionId)

def Someone (duties : Nat → Option (Request × Duty)) (P : Phase → Prop) : Prop :=
  ∃ i request u, duties i = some (request, u) ∧ P u.phase

/-- The topics are those of `parseSubscriptionTopic`, within the limit, and of a session that is
open or whose connection is about to be closed. -/
structure Converges (config : Config) (record : SessionRecord) (s : Store)
    (duties : Nat → Option (Request × Duty)) : Prop where
  early : s.clock < record.expiresAt
  lasts : ∀ sessionId entry, s.sessions sessionId = some entry → record.expiresAt ≤ entry.2
  parsed : ∀ sessionId, Parsed (s.topics sessionId)
  bounded : ∀ sessionId, (s.topics sessionId).length ≤ config.maxTopicsPerSession
  right : ∀ i request u, duties i = some (request, u) → u.Right s request
  unbroken : ∀ sessionId, s.sessions sessionId ≠ none →
    Someone duties (Phase.Owes sessionId) ∨ Current s sessionId
  closed : ∀ sessionId, s.sessions sessionId = none → s.connections sessionId = none ∨
    .revoked sessionId ∈ s.channel ∨ Someone duties (· = .revoking sessionId)

section Converges
variable {config : Config} {record : SessionRecord} {s t : Store}
  {duties : Nat → Option (Request × Duty)} {i : Nat} {request : Request} {u v : Duty}
  {sessionId : String} {phase : Phase}

theorem someone_setDuty {P : Phase → Prop} (someone : Someone duties P)
    (duty : duties i = some (request, u)) {streaming : Bool} (stays : P u.phase → P phase) :
    Someone (setDuty duties i (some (request, ⟨streaming, phase⟩))) P := by
  obtain ⟨j, q, w, held, inside⟩ := someone
  by_cases same : j = i
  · rw [same, duty] at held
    cases held
    exact ⟨i, request, _, if_pos rfl, stays inside⟩
  · exact ⟨j, q, w, by rw [setDuty, if_neg same]; exact held, inside⟩

theorem stored_of_ttl (there : s.ttl sessionId ≠ -2) : s.sessions sessionId ≠ none := by
  intro gone
  apply there
  unfold Store.ttl
  rw [gone]
  rfl

theorem Converges.ttl (converges : Converges config record s duties)
    (stored : s.sessions sessionId ≠ none) : s.ttl sessionId ≠ -2 := by
  obtain ⟨entry, there⟩ := Option.ne_none_iff_exists'.mp stored
  have later := converges.lasts _ _ there
  have live : s.clock < entry.2 := Nat.lt_of_lt_of_le converges.early later
  unfold Store.ttl
  rw [there, Option.filter_some, if_pos (decide_eq_true live)]
  dsimp only
  omega

theorem Converges.move (converges : Converges config record s duties)
    (duty : duties i = some (request, u)) (clock : t.clock = s.clock)
    (sessions : t.sessions = s.sessions) (topics : t.topics = s.topics)
    (channel : t.channel = s.channel) (connections : t.connections = s.connections)
    (opens : phase.Opens → u.streaming = true) (holds : phase.Holds s)
    (owes : ∀ sessionId, s.sessions sessionId ≠ none → u.phase.Owes sessionId →
      phase.Owes sessionId)
    (revoking : ∀ sessionId, u.phase = .revoking sessionId → phase = .revoking sessionId) :
    Converges config record t (setDuty duties i (some (request, ⟨u.streaming, phase⟩))) := by
  have same : ∀ phase : Phase, phase.Holds s → phase.Holds t := by
    intro phase
    unfold Phase.Holds
    rw [sessions, topics]
    exact id
  constructor
  · rw [clock]
    exact converges.early
  · rw [sessions]
    exact converges.lasts
  · rw [topics]
    exact converges.parsed
  · rw [topics]
    exact converges.bounded
  · intro j q w held
    rcases setDuty_some held with ⟨-, ⟨⟩⟩ | ⟨-, before⟩
    · exact ⟨(converges.right i request u duty).own, opens, same _ holds⟩
    · obtain ⟨own, opened, held⟩ := converges.right j q w before
      exact ⟨own, opened, same _ held⟩
  · intro sessionId stored
    rw [sessions] at stored
    refine (converges.unbroken sessionId stored).imp
      (someone_setDuty · duty (owes sessionId stored)) fun current => ?_
    unfold Current at current ⊢
    rw [channel, topics, connections]
    exact current
  · intro sessionId gone
    rw [sessions] at gone
    rw [channel, connections]
    exact (converges.closed sessionId gone).imp id
      (.imp id (someone_setDuty · duty (revoking sessionId)))

variable {worker : Option SessionWorker}

theorem isOpening_of_opens
    (matched : Matches (topicMonitor config) Settled (some (request, u)) worker)
    (right : u.Right s request) (opens : u.phase.Opens) : isOpening worker = true := by
  cases worker with
  | none => nomatch matched
  | some worker =>
    obtain ⟨tag, program⟩ := worker
    obtain ⟨w, same, obeys⟩ := matched
    cases same
    have streaming := right.own.symm.trans (right.opens opens)
    cases tag with
    | stream ticket constraints =>
      obtain ⟨streaming, phase⟩ := u
      cases program with
      | done outcome =>
        rcases (obeys : Settled _) with idle | broken
        · cases idle
          nomatch opens
        · cases broken
          nomatch opens
      | call c next =>
        have allowed : phase.allows config c := obeys.1
        cases phase with
        | opening | read => cases c <;> first | rfl | nomatch allowed
        | _ => nomatch opens
    | _ => nomatch streaming

variable {topics : List String}

theorem isPublishing_of_holds
    (matched : Matches (topicMonitor config) Settled (some (request, u)) worker)
    (holds : u.phase = .holds sessionId topics) : isPublishing sessionId worker = true := by
  cases worker with
  | none => nomatch matched
  | some worker =>
    obtain ⟨tag, program⟩ := worker
    obtain ⟨w, same, obeys⟩ := matched
    cases same
    obtain ⟨streaming, phase⟩ := u
    cases holds
    cases program with
    | done outcome =>
      have settled : Settled ⟨streaming, .holds sessionId topics⟩ := obeys
      exact settled.elim (fun idle => nomatch idle) fun broken => nomatch broken
    | call c next =>
      have allowed : (Phase.holds sessionId topics).allows config c := obeys.1
      cases c with
      | publish event =>
        rw [(allowed : event = _)]
        exact decide_eq_true rfl
      | _ => nomatch allowed

theorem setTopics_same : (s.setTopics sessionId topics).topics sessionId = topics := if_pos rfl

theorem setTopics_other {key : String} (apart : key ≠ sessionId) :
    (s.setTopics sessionId topics).topics key = s.topics key := if_neg apart

theorem Converges.change (converges : Converges config record s duties)
    (duty : duties i = some (request, u)) (idle : u.phase = .idle)
    (parsed : Parsed topics) (bounded : topics.length ≤ config.maxTopicsPerSession)
    (spared : ∀ j q w, duties j = some (q, w) → ¬w.phase.Opens ∧
      ∀ held, w.phase ≠ .holds sessionId held)
    (opens : ¬phase.Opens) (owes : phase.Owes sessionId) (holds : phase.Holds (s.setTopics sessionId topics)) :
    Converges config record (s.setTopics sessionId topics)
      (setDuty duties i (some (request, ⟨u.streaming, phase⟩))) := by
  constructor
  · exact converges.early
  · exact converges.lasts
  · intro key
    by_cases same : key = sessionId
    · rw [same, setTopics_same]
      exact parsed
    · rw [setTopics_other same]
      exact converges.parsed key
  · intro key
    by_cases same : key = sessionId
    · rw [same, setTopics_same]
      exact bounded
    · rw [setTopics_other same]
      exact converges.bounded key
  · intro j q w held
    rcases setDuty_some held with ⟨-, ⟨⟩⟩ | ⟨-, before⟩
    · exact ⟨(converges.right i request u duty).own, fun open' => absurd open' opens, holds⟩
    · obtain ⟨own, opened, holding⟩ := converges.right j q w before
      obtain ⟨shut, released⟩ := spared j q w before
      refine ⟨own, opened, ?_⟩
      obtain ⟨streaming, phase⟩ := w
      cases phase with
      | opening | read => exact absurd trivial shut
      | holds key topics =>
        intro stored
        have apart : key ≠ sessionId := by
          rintro rfl
          exact released topics rfl
        rw [setTopics_other apart]
        exact holding stored
      | _ => trivial
  · intro key stored
    by_cases same : key = sessionId
    · exact .inl ⟨i, request, _, if_pos rfl, same ▸ owes⟩
    · refine (converges.unbroken key stored).imp (someone_setDuty · duty ?_) fun current => ?_
      · rw [idle]
        exact fun none => none.elim
      · unfold Current at current ⊢
        rw [setTopics_other same]
        exact current
  · intro key gone
    refine (converges.closed key gone).imp id (.imp id (someone_setDuty · duty ?_))
    rw [idle]
    exact fun none => nomatch none

variable {event : SessionMutationEvent}

theorem updates_append {channel : List SessionMutationEvent} :
    updates sessionId (channel ++ [event]) =
      updates sessionId channel ++ updates sessionId [event] := by
  unfold updates
  rw [List.filterMap_append]

theorem Converges.publish (converges : Converges config record s duties)
    (duty : duties i = some (request, u)) (phase : u.phase = .holds sessionId topics) :
    Converges config record
      { s with channel := s.channel ++ [.subscriptionsUpdated sessionId topics] }
      (setDuty duties i (some (request, ⟨u.streaming, .idle⟩))) := by
  have right := converges.right i request u duty
  refine ⟨converges.early, converges.lasts, converges.parsed, converges.bounded, ?_, ?_, ?_⟩
  · intro j q w held
    rcases setDuty_some held with ⟨-, ⟨⟩⟩ | ⟨-, before⟩
    · exact ⟨right.own, fun none => none.elim, trivial⟩
    · obtain ⟨own, opened, held⟩ := converges.right j q w before
      exact ⟨own, opened, held⟩
  · intro key stored
    by_cases same : key = sessionId
    · right
      have current : Phase.Holds s (.holds sessionId topics) := phase ▸ right.holds
      unfold Current
      rw [updates_append, same]
      simp only [updates, List.filterMap_cons, if_pos, List.filterMap_nil, List.getLast?_append,
        List.getLast?_singleton, Option.some_or]
      exact current (same ▸ stored)
    · refine (converges.unbroken key stored).imp (someone_setDuty · duty ?_) fun current => ?_
      · rw [phase]
        exact fun own => absurd own.symm same
      · have none : updates key [.subscriptionsUpdated sessionId topics] = [] := by
          simp only [updates, List.filterMap_cons, if_neg (Ne.symm same), List.filterMap_nil]
        unfold Current at current ⊢
        rw [updates_append, none, List.append_nil]
        exact current
  · intro key gone
    refine (converges.closed key gone).imp id
      (.imp (List.mem_append_left _) (someone_setDuty · duty ?_))
    rw [phase]
    exact fun none => nomatch none

theorem Converges.publishRevoked (converges : Converges config record s duties)
    (duty : duties i = some (request, u)) (phase : u.phase = .revoking sessionId) :
    Converges config record { s with channel := s.channel ++ [.revoked sessionId] }
      (setDuty duties i (some (request, ⟨u.streaming, .idle⟩))) := by
  have right := converges.right i request u duty
  refine ⟨converges.early, converges.lasts, converges.parsed, converges.bounded, ?_, ?_, ?_⟩
  · intro j q w held
    rcases setDuty_some held with ⟨-, ⟨⟩⟩ | ⟨-, before⟩
    · exact ⟨right.own, fun none => none.elim, trivial⟩
    · obtain ⟨own, opened, held⟩ := converges.right j q w before
      exact ⟨own, opened, held⟩
  · intro key stored
    refine (converges.unbroken key stored).imp (someone_setDuty · duty ?_) fun current => ?_
    · rw [phase]
      exact fun none => none.elim
    · unfold Current at current ⊢
      rw [updates_append, show updates key [.revoked sessionId] = [] from rfl, List.append_nil]
      exact current
  · intro key gone
    by_cases same : key = sessionId
    · exact .inr (.inl (same ▸ List.mem_append_right _ (List.mem_singleton_self _)))
    · refine (converges.closed key gone).imp id
        (.imp (List.mem_append_left _) (someone_setDuty · duty ?_))
      rw [phase]
      exact fun own => absurd (Phase.revoking.inj own).symm same

theorem Converges.revoke (converges : Converges config record s duties)
    (duty : duties i = some (request, u)) (idle : u.phase = .idle) {ticketHash : String}
    (spared : ∀ j q w, duties j = some (q, w) → ¬w.phase.Opens) :
    Converges config record (Store.perform (.sessionRevoke sessionId ticketHash) s).2
      (setDuty duties i (some (request, ⟨u.streaming, .revoking sessionId⟩))) := by
  have right := converges.right i request u duty
  have kept : ∀ {key entry}, Store.set s.sessions sessionId none key = some entry →
      key ≠ sessionId ∧ s.sessions key = some entry := by
    intro key entry there
    unfold Store.set at there
    split at there
    · cases there
    next apart => exact ⟨apart, there⟩
  constructor
  · exact converges.early
  · exact fun key entry there => converges.lasts key entry (kept there).2
  · intro key topic listed
    by_cases same : key = sessionId
    · rw [same] at listed
      have empty : topic ∈ (s.setTopics sessionId []).topics sessionId := listed
      rw [setTopics_same] at empty
      cases empty
    · exact converges.parsed key topic (setTopics_other same ▸ listed)
  · intro key
    by_cases same : key = sessionId
    · rw [same]
      change ((s.setTopics sessionId []).topics sessionId).length ≤ _
      rw [setTopics_same]
      exact Nat.zero_le _
    · exact (congrArg List.length (setTopics_other same)).le.trans (converges.bounded key)
  · intro j q w held
    rcases setDuty_some held with ⟨-, ⟨⟩⟩ | ⟨-, before⟩
    · exact ⟨right.own, fun none => none.elim, trivial⟩
    · obtain ⟨own, opened, holding⟩ := converges.right j q w before
      refine ⟨own, opened, ?_⟩
      have shut := spared j q w before
      obtain ⟨streaming, phase⟩ := w
      cases phase with
      | opening | read => exact absurd trivial shut
      | holds key topics =>
        intro stored
        obtain ⟨entry, there⟩ := Option.ne_none_iff_exists'.mp stored
        obtain ⟨apart, before⟩ := kept there
        have same : Same topics (s.topics key) := holding (by rw [before]; exact Option.some_ne_none _)
        rw [← setTopics_other apart] at same
        exact same
      | _ => trivial
  · intro key stored
    obtain ⟨entry, there⟩ := Option.ne_none_iff_exists'.mp stored
    obtain ⟨apart, before⟩ := kept there
    refine (converges.unbroken key (by rw [before]; exact Option.some_ne_none _)).imp
      (someone_setDuty · duty ?_) fun current => ?_
    · rw [idle]
      exact fun none => none.elim
    · unfold Current at current ⊢
      rw [← setTopics_other apart] at current
      exact current
  · intro key gone
    by_cases same : key = sessionId
    · exact .inr (.inr ⟨i, request, _, if_pos rfl, by rw [same]⟩)
    · have before : s.sessions key = none := by
        have there : Store.set s.sessions sessionId none key = none := gone
        rwa [Store.set, if_neg same] at there
      refine (converges.closed key before).imp id (.imp id (someone_setDuty · duty ?_))
      rw [idle]
      exact fun none => by cases none

theorem Converges.register (converges : Converges config record s duties)
    (duty : duties i = some (request, u)) {raw : List String} (phase : u.phase = .read sessionId raw) :
    Converges config record { s with
        connections := fun other =>
          if other = sessionId then some (normalizeTopics config raw) else s.connections other }
      (setDuty duties i (some (request, ⟨u.streaming, .idle⟩))) := by
  have right := converges.right i request u duty
  have holds : Phase.Holds s (.read sessionId raw) := phase ▸ right.holds
  obtain ⟨stored, same⟩ := holds
  have fits : Same (normalizeTopics config raw) (s.topics sessionId) := by
    have parsed : Parsed raw := fun topic listed =>
      converges.parsed sessionId topic ((same topic).mp listed)
    exact fun topic => (mem_normalizeTopics_of_parsed parsed).trans (same topic)
  refine ⟨converges.early, converges.lasts, converges.parsed, converges.bounded, ?_, ?_, ?_⟩
  · intro j q w held
    rcases setDuty_some held with ⟨-, ⟨⟩⟩ | ⟨-, before⟩
    · exact ⟨right.own, fun none => none.elim, trivial⟩
    · obtain ⟨own, opened, held⟩ := converges.right j q w before
      exact ⟨own, opened, held⟩
  · intro key there
    refine (converges.unbroken key there).imp (someone_setDuty · duty ?_) fun current => ?_
    · rw [phase]
      exact fun none => none.elim
    · unfold Current at current ⊢
      dsimp only
      split
      next topics last =>
        rw [last] at current
        exact current
      next empty =>
        rw [empty] at current
        intro topics connected
        split at connected
        next here =>
          cases connected
          rw [here]
          exact fits
        next => exact current topics connected
  · intro key gone
    have apart : key ≠ sessionId := by
      rintro rfl
      exact stored gone
    dsimp only
    rw [if_neg apart]
    refine (converges.closed key gone).imp id (.imp id (someone_setDuty · duty ?_))
    rw [phase]
    exact fun none => nomatch none

theorem Converges.deliver (converges : Converges config record s duties)
    {rest : List SessionMutationEvent} (channel : s.channel = event :: rest) :
    Converges config record ({ s with channel := rest }.handle event) duties := by
  cases event with
  | subscriptionsUpdated sessionId topics =>
    refine ⟨converges.early, converges.lasts, converges.parsed, converges.bounded, ?_, ?_, ?_⟩
    · intro j q w held
      obtain ⟨own, opened, held⟩ := converges.right j q w held
      exact ⟨own, opened, held⟩
    · intro key there
      refine (converges.unbroken key there).imp id fun current => ?_
      unfold Current at current ⊢
      rw [channel] at current
      by_cases same : key = sessionId
      · rw [same] at current ⊢
        simp only [updates, List.filterMap_cons, if_pos, List.getLast?_cons] at current
        simp only [Store.handle, if_pos]
        change match (updates sessionId rest).getLast? with
          | some topics => _
          | none => _
        split
        next last ends =>
          have held : (updates sessionId rest).getLast? = some last := ends
          unfold updates at held
          rw [held] at current
          exact current
        next empty =>
          have held : (updates sessionId rest).getLast? = none := empty
          unfold updates at held
          rw [held] at current
          intro other connected
          obtain ⟨_, _, rfl⟩ := Option.map_eq_some_iff.mp connected
          exact current
      · simp only [updates, List.filterMap_cons, if_neg (Ne.symm same)] at current
        simp only [Store.handle, if_neg same]
        exact current
    · intro key gone
      rcases converges.closed key gone with none | waiting | revoking
      · left
        simp only [Store.handle]
        split
        next same => rw [← same, none, Option.map_none]
        next => exact none
      · rw [channel] at waiting
        rcases List.mem_cons.mp waiting with same | later
        · cases same
        · exact .inr (.inl later)
      · exact .inr (.inr revoking)
  | revoked sessionId =>
    refine ⟨converges.early, converges.lasts, converges.parsed, converges.bounded, ?_, ?_, ?_⟩
    · intro j q w held
      obtain ⟨own, opened, held⟩ := converges.right j q w held
      exact ⟨own, opened, held⟩
    · intro key there
      refine (converges.unbroken key there).imp id fun current => ?_
      unfold Current at current ⊢
      rw [channel] at current
      simp only [updates, List.filterMap_cons] at current
      simp only [Store.handle]
      change match (updates key rest).getLast? with
        | some topics => _
        | none => _
      unfold updates
      split
      next last ends =>
        rw [ends] at current
        exact current
      next empty =>
        rw [empty] at current
        intro topics connected
        split at connected
        · cases connected
        · exact current topics connected
    · intro key gone
      by_cases same : key = sessionId
      · exact .inl (if_pos same)
      · rcases converges.closed key gone with none | waiting | revoking
        · exact .inl ((if_neg same).trans none)
        · rw [channel] at waiting
          rcases List.mem_cons.mp waiting with here | later
          · exact absurd (SessionMutationEvent.revoked.inj here) same
          · exact .inr (.inl later)
        · exact .inr (.inr revoking)

theorem setTopics_self : s.setTopics sessionId (s.topics sessionId) = s := by
  unfold Store.setTopics
  congr 1
  funext other
  split
  next same => rw [same]
  next => rfl

theorem mem_union {members added : List String} {topic : String} :
    topic ∈ Store.union members added ↔ topic ∈ members ∨ topic ∈ added := by
  unfold Store.union
  rw [List.mem_append, List.mem_filter, List.mem_dedup, decide_eq_true_eq]
  by_cases known : topic ∈ members
  · simp [known]
  · simp [known]

theorem addTopics_fits {maxTopics : Nat} (done : (s.addTopics sessionId maxTopics topics).1.1 = 1) :
    (s.addTopics sessionId maxTopics topics).2 = Store.union (s.topics sessionId) topics ∧
      (Store.union (s.topics sessionId) topics).length ≤ maxTopics := by
  unfold Store.addTopics at done ⊢
  dsimp only at done ⊢
  split at done
  · nomatch done
  split at done
  · nomatch done
  split at done
  · nomatch done
  next open' _ fits =>
    rw [if_neg open', if_neg (by assumption), if_neg fits]
    refine ⟨rfl, ?_⟩
    unfold Store.union
    have shorter : (topics.dedup.filter (· ∉ s.topics sessionId)).length ≤
        (topics.filter (· ∉ s.topics sessionId)).length :=
      ((List.dedup_sublist topics).filter _).length_le
    rw [List.length_append]
    omega

theorem addTopics_refused {maxTopics : Nat}
    (refused : (s.addTopics sessionId maxTopics topics).1.1 ≠ 1) :
    (s.addTopics sessionId maxTopics topics).2 = s.topics sessionId := by
  unfold Store.addTopics at refused ⊢
  dsimp only at refused ⊢
  split
  · rfl
  split
  · rfl
  split
  · rfl
  next open' finished fits =>
    rw [if_neg open', if_neg finished, if_neg fits] at refused
    exact absurd rfl refused

variable {pool : SessionPool}

theorem spared_of_guard (converges : Converges config record pool.shared duties)
    (matched : ∀ j, Matches (topicMonitor config) Settled (duties j) (pool.workers j))
    (spares : ∀ j, isOpening (pool.workers j) = false ∧
      isPublishing sessionId (pool.workers j) = false) (j : Nat) (q : Request) (w : Duty)
    (held : duties j = some (q, w)) :
    ¬w.phase.Opens ∧ ∀ topics, w.phase ≠ .holds sessionId topics := by
  have mine := matched j
  rw [held] at mine
  constructor
  · intro opens
    have opening := isOpening_of_opens mine (converges.right j q w held) opens
    rw [(spares j).1] at opening
    nomatch opening
  · intro topics holds
    have publishing := isPublishing_of_holds mine holds
    rw [(spares j).2] at publishing
    nomatch publishing

theorem shut_of_guard (converges : Converges config record pool.shared duties)
    (matched : ∀ j, Matches (topicMonitor config) Settled (duties j) (pool.workers j))
    (spares : ∀ j, isOpening (pool.workers j) = false) (j : Nat) (q : Request) (w : Duty)
    (held : duties j = some (q, w)) : ¬w.phase.Opens := by
  intro opens
  have mine := matched j
  rw [held] at mine
  have opening := isOpening_of_opens mine (converges.right j q w held) opens
  rw [spares j] at opening
  nomatch opening

theorem Converges.call (converges : Converges config record pool.shared duties)
    {c : Call} {reply : Reply c} {t : Store}
    (matched : ∀ j, Matches (topicMonitor config) Settled (duties j) (pool.workers j))
    (duty : duties i = some (request, u)) (allowed : u.phase.allows config c)
    (performed : Store.perform c pool.shared = (reply, t))
    (spares : Spares (fun _ => True) pool c) : Converges config record t
      (setDuty duties i (some (request, (topicMonitor config).after u c reply))) := by
  have right := converges.right i request u duty
  obtain ⟨streaming, phase⟩ := u
  cases c with
  | sessionTtl sessionId =>
    cases performed
    cases phase with
    | idle =>
      simp only [topicMonitor, Duty.after]
      split
      next opened =>
        exact converges.move duty rfl rfl rfl rfl rfl (fun _ => opened.1) (stored_of_ttl opened.2)
          (fun _ _ none => none.elim) fun _ none => by cases none
      next =>
        exact converges.move duty rfl rfl rfl rfl rfl (fun none => none.elim) trivial
          (fun _ _ none => none.elim) fun _ none => by cases none
    | owes other =>
      simp only [topicMonitor, Duty.after]
      split
      next gone =>
        refine converges.move duty rfl rfl rfl rfl rfl (fun none => none.elim) trivial ?_
          fun _ none => by cases none
        intro key stored own
        have same : key = sessionId := own.symm.trans (allowed : sessionId = other).symm
        exact absurd gone (converges.ttl (same ▸ stored))
      next =>
        exact converges.move duty rfl rfl rfl rfl rfl right.opens right.holds (fun _ _ => id)
          fun _ => id
    | _ => cases allowed
  | topicsCard sessionId =>
    cases performed
    cases phase with
    | owes other =>
      simp only [topicMonitor, Duty.after]
      rw [if_neg (Nat.not_lt.mpr (converges.bounded sessionId))]
      exact converges.move duty rfl rfl rfl rfl rfl right.opens right.holds (fun _ _ => id)
        fun _ => id
    | _ =>
      exact converges.move duty rfl rfl rfl rfl rfl right.opens right.holds (fun _ _ => id)
        fun _ => id
  | topicsMembers sessionId =>
    cases performed
    cases phase with
    | opening other =>
      cases (allowed : sessionId = other)
      exact converges.move duty rfl rfl rfl rfl rfl right.opens ⟨right.holds, fun _ => Iff.rfl⟩
        (fun _ _ none => none.elim) fun _ none => by cases none
    | owes other =>
      cases (allowed : sessionId = other)
      simp only [topicMonitor, Duty.after]
      rw [if_neg (Nat.not_lt.mpr (converges.bounded sessionId))]
      exact converges.move duty rfl rfl rfl rfl rfl (fun none => none.elim)
        (fun _ _ => mem_normalizeTopics_of_parsed (converges.parsed sessionId))
        (fun _ _ own => own) fun _ none => by cases none
    | _ =>
      exact converges.move duty rfl rfl rfl rfl rfl right.opens right.holds (fun _ _ => id)
        fun _ => id
  | topicsReplace sessionId topics =>
    cases performed
    cases phase with
    | idle =>
      have spared := spared_of_guard converges matched fun j => spares j trivial
      refine converges.change duty rfl ?_ ?_ spared ?_ ?_ ?_
      · exact fun topic listed => allowed.1 topic (List.mem_dedup.mp listed)
      · exact (List.dedup_sublist topics).length_le.trans allowed.2
      · exact fun none => none.elim
      · exact rfl
      · intro _ topic
        rw [setTopics_same, List.mem_dedup]
    | _ => cases allowed
  | topicsAdd sessionId maxTopics topics =>
    have outcome : ((pool.shared.addTopics sessionId maxTopics topics).1,
        pool.shared.setTopics sessionId (pool.shared.addTopics sessionId maxTopics topics).2) =
        ((reply : Int × Nat), t) := performed
    obtain ⟨rfl, rfl⟩ := Prod.mk.inj outcome
    clear performed outcome
    cases phase with
    | idle =>
      obtain ⟨parsed, rfl⟩ := allowed
      simp only [topicMonitor, Duty.after]
      split
      next done =>
        have spared := spared_of_guard converges matched fun j => spares j trivial
        obtain ⟨same, fits⟩ := addTopics_fits done
        rw [same]
        refine converges.change duty rfl ?_ fits spared ?_ ?_ trivial
        · intro topic listed
          rcases mem_union.mp listed with before | added
          · exact converges.parsed sessionId topic before
          · exact parsed topic added
        · exact fun none => none.elim
        · exact rfl
      next refused =>
        rw [addTopics_refused refused, setTopics_self]
        exact converges.move duty rfl rfl rfl rfl rfl right.opens right.holds (fun _ _ => id)
          fun _ => id
    | _ => cases allowed
  | topicsRemove sessionId topic =>
    cases performed
    cases phase with
    | idle =>
      have spared := spared_of_guard converges matched fun j => spares j trivial
      refine converges.change duty rfl ?_ ?_ spared ?_ ?_ trivial
      · exact fun topic listed => converges.parsed sessionId topic (List.mem_filter.mp listed).1
      · exact (List.length_filter_le _ _).trans (converges.bounded sessionId)
      · exact fun none => none.elim
      · exact rfl
    | _ => cases allowed
  | sessionRevoke sessionId ticketHash =>
    cases performed
    cases phase with
    | idle =>
      exact converges.revoke duty rfl (shut_of_guard converges matched fun j => spares j trivial)
    | _ => cases allowed
  | publish event =>
    cases performed
    cases phase with
    | holds sessionId topics =>
      cases (allowed : event = _)
      exact converges.publish duty rfl
    | revoking sessionId =>
      cases (allowed : event = _)
      exact converges.publishRevoked duty rfl
    | _ => cases allowed
  | registerConnection sessionId principal topics =>
    cases performed
    cases phase with
    | read other raw =>
      obtain ⟨rfl, rfl⟩ := allowed
      exact converges.register duty rfl
    | _ => cases allowed
  | replyError error =>
    cases performed
    cases phase with
    | idle | opening | read =>
      exact converges.move duty rfl rfl rfl rfl rfl (fun none => none.elim) trivial
        (fun _ _ none => none.elim) fun _ none => by cases none
    | _ => cases allowed
  | claim ticketHash sessionId ttlSeconds =>
    simp only [Store.perform] at performed
    split at performed <;> cases performed <;>
      exact converges.move duty rfl rfl rfl rfl rfl right.opens right.holds (fun _ _ => id)
        fun _ => id
  | _ =>
    cases performed
    exact converges.move duty rfl rfl rfl rfl rfl right.opens right.holds (fun _ _ => id)
      fun _ => id

variable {duty : Option (Request × Duty)}

theorem Converges.dropped (converges : Converges config record s duties)
    (settled : ∀ request u, duties i = some (request, u) → Settled u)
    (fresh : ∀ request u, duty = some (request, u) → u = startOf request) :
    Converges config record s (setDuty duties i duty) := by
  have kept : ∀ {P : Phase → Prop}, ¬P .idle → ¬P .broken → Someone duties P →
      Someone (setDuty duties i duty) P := by
    rintro P idle broken ⟨j, q, w, held, inside⟩
    refine ⟨j, q, w, ?_, inside⟩
    rw [setDuty, if_neg]
    · exact held
    · rintro rfl
      rcases settled q w held with same | same
      · exact idle (same ▸ inside)
      · exact broken (same ▸ inside)
  refine ⟨converges.early, converges.lasts, converges.parsed, converges.bounded, ?_, ?_, ?_⟩
  · intro j q w held
    rcases setDuty_some held with ⟨-, here⟩ | ⟨-, before⟩
    · rw [fresh q w here]
      refine ⟨rfl, fun opens => ?_, ?_⟩
      · cases q <;> cases opens
      · cases q <;> trivial
    · exact converges.right j q w before
  · exact fun key stored =>
      (converges.unbroken key stored).imp (kept (fun none => none.elim) fun none => none.elim) id
  · exact fun key gone =>
      (converges.closed key gone).imp id
        (.imp id (kept (fun none => by cases none) fun none => by cases none))

theorem Converges.elapse (converges : Converges config record s duties) {milliseconds : Nat}
    (early : s.clock + milliseconds < record.expiresAt) :
    Converges config record { s with clock := s.clock + milliseconds } duties where
  early := early
  lasts := converges.lasts
  parsed := converges.parsed
  bounded := converges.bounded
  right i request u held := by
    obtain ⟨own, opens, holds⟩ := converges.right i request u held
    exact ⟨own, opens, holds⟩
  unbroken := converges.unbroken
  closed := converges.closed

end Converges

theorem converges_preserved (config : Config) (admitted : Request → Prop) (record : SessionRecord) :
    PreservesAll (sessionSystem config admitted) (InTurn (fun _ => True) record)
      (topicMonitor config) Settled (Converges config record) where
  call pool duties i request u c next reply t spared converges matched running duty allowed
      performed := by
    have guarded : InTurn (fun _ => True) record pool (.call i) := spared
    simp only [InTurn, running] at guarded
    exact converges.call matched duty allowed performed guarded
  stop pool duties i ended converges matched :=
    converges.dropped (fun _ _ => ends_of_finished matched ended) fun _ _ none => by cases none
  start pool duties i worker _ converges idle starts := by
    refine ⟨startOf worker.tag, ?_, ?_⟩
    · rw [starts.2]
      exact serve_obeys worker.tag
    · apply converges.dropped
      · rw [idle]
        exact fun _ _ none => by cases none
      · intro _ _ here
        cases here
        rfl
  act pool duties event after admitted converges acted := by
    cases event with
    | elapse milliseconds =>
      cases (acted : some _ = some after)
      exact converges.elapse admitted
    | deliver =>
      have delivered : Store.react .deliver pool.shared = some after := acted
      simp only [Store.react] at delivered
      split at delivered
      · cases delivered
      next channel =>
        cases delivered
        exact converges.deliver channel

theorem converges_created {config : Config} {clock deadline : Nat} {record : SessionRecord}
    (early : clock < record.expiresAt) (lasts : record.expiresAt ≤ deadline) :
    Converges config record (Store.created clock record deadline) fun _ => none := by
  refine ⟨early, ?_, fun _ _ none => (nomatch none), fun _ => Nat.zero_le _,
    fun _ _ _ none => (nomatch none), fun _ _ => .inr fun _ none => (nomatch none), fun _ _ => .inl rfl⟩
  intro sessionId entry there
  simp only [Store.created, Option.ite_none_right_eq_some, Option.some.injEq] at there
  obtain ⟨-, rfl⟩ := there
  exact lasts

/-- In every run in which no call makes stale what another one has read, once all calls have ended
and all mutations are delivered, every connection has the topics that are stored, and a revoked
session has none. -/
theorem connections_converge (config : Config) (clock deadline : Nat) (record : SessionRecord)
    (pool : SessionPool) (early : clock < record.expiresAt) (lasts : record.expiresAt ≤ deadline)
    (run : Reaches (Step (sessionSystem config fun _ => True)) (InTurn (fun _ => True) record)
      (Pool.idle (Store.created clock record deadline)) pool)
    (ended : ∀ i, finished (pool.workers i) = true) (delivered : pool.shared.channel = []) :
    ∀ sessionId,
      (pool.shared.sessions sessionId = none → pool.shared.connections sessionId = none) ∧
      ∀ topics, pool.shared.connections sessionId = some topics →
        Same topics (pool.shared.topics sessionId) := by
  obtain ⟨duties, converges, matched⟩ :=
    watchedAll_run (converges_preserved config _ record) run
      (watchedTo_idle (converges_created early lasts))
  have nobody : ∀ {P : Phase → Prop}, ¬P .idle → ¬P .broken → ¬Someone duties P := by
    rintro P idle broken ⟨j, q, w, held, inside⟩
    rcases ends_of_finished (matched j) (ended j) held with same | same
    · exact idle (same ▸ inside)
    · exact broken (same ▸ inside)
  intro sessionId
  have closed : pool.shared.sessions sessionId = none →
      pool.shared.connections sessionId = none := by
    intro gone
    rcases converges.closed sessionId gone with none | waiting | revoking
    · exact none
    · rw [delivered] at waiting
      nomatch waiting
    · exact absurd revoking (nobody (fun none => nomatch none) fun none => nomatch none)
  refine ⟨closed, fun topics connected => ?_⟩
  by_cases stored : pool.shared.sessions sessionId = none
  · rw [closed stored] at connected
    nomatch connected
  · rcases converges.unbroken sessionId stored with owing | current
    · exact absurd owing (nobody (fun none => none.elim) fun none => none.elim)
    · unfold Current at current
      rw [delivered] at current
      exact current topics connected

def streaming : Request := .stream "t" ⟨none, none, none⟩

def adding : Request := .add StreamTickets.session.sessionId ["notifications"]

def removing : Request := .remove StreamTickets.session.sessionId "notifications"

/-- The topics that are stored for the session and those of its connection, and what is not
delivered. -/
def known (s : Store) : List String × Option (List String) × List SessionMutationEvent :=
  (s.topics StreamTickets.session.sessionId, s.connections StreamTickets.session.sessionId,
    s.channel)

section Places
variable {n : Nat} {record : SessionRecord} {pool : SessionPool} {label : SessionLabel}

instance (c : Call) : Decidable (Spares (fun j => j < n) pool c) := by
  unfold Spares
  split <;> infer_instance

instance : Decidable (InTurn (fun j => j < n) record pool label) := by
  unfold InTurn
  split
  · split <;> infer_instance
  all_goals infer_instance

theorem inTurn_of_below (vacant : ∀ j, n ≤ j → pool.workers j = none)
    (inTurn : InTurn (fun j => j < n) record pool label) :
    InTurn (fun _ => True) record pool label := by
  have spares : ∀ c, Spares (fun j => j < n) pool c → Spares (fun _ => True) pool c := by
    intro c spared
    cases c with
    | topicsReplace | topicsAdd | topicsRemove =>
      intro j _
      by_cases early : j < n
      · exact spared j early
      · rw [vacant j (Nat.le_of_not_lt early)]
        exact ⟨rfl, rfl⟩
    | sessionRevoke =>
      intro j _
      by_cases early : j < n
      · exact spared j early
      · rw [vacant j (Nat.le_of_not_lt early)]
        rfl
    | _ => trivial
  cases label with
  | call i =>
    simp only [InTurn] at inTurn ⊢
    split at inTurn
    · exact spares _ inTurn
    · trivial
  | act event => cases event <;> exact inTurn
  | _ => exact inTurn

end Places

def oneByOne : List (Turn Request Event) :=
  .start 0 streaming :: StreamTickets.steps 0 10 ++ .start 1 adding :: StreamTickets.steps 1 5 ++
    [.act .deliver]

theorem connections_converge_oneByOne :
    ∃ pool, Reaches (Step (sessionSystem StreamTickets.plain fun _ => True))
        (InTurn (fun _ => True) StreamTickets.session)
        (Pool.idle (Store.created 0 StreamTickets.session 60000)) pool ∧
      known pool.shared = (["notifications"], some ["notifications"], []) ∧
      ∀ sessionId,
        (pool.shared.sessions sessionId = none → pool.shared.connections sessionId = none) ∧
        ∀ topics, pool.shared.connections sessionId = some topics →
          Same topics (pool.shared.topics sessionId) := by
  have looks : (follow StreamTickets.sessions (InTurn (fun j => j < 2) StreamTickets.session)
      (Pool.idle (Store.created 0 StreamTickets.session 60000)) oneByOne).map
        (fun pool => (known pool.shared, (List.range 2).all fun j => finished (pool.workers j))) =
      some ((["notifications"], some ["notifications"], []), true) := by decide +kernel
  obtain ⟨pool, ran, seen⟩ := Option.map_eq_some_iff.mp looks
  have run := reaches_of_follow_below StreamTickets.sessions_follows
    (fun _ _ => inTurn_of_below) oneByOne (fun _ _ => rfl) (by decide) ran
  have ended := quiet_of_follow ran (n := 2) (by decide) (congrArg (·.2) seen)
  have ends : known pool.shared = (["notifications"], some ["notifications"], []) :=
    congrArg (·.1) seen
  exact ⟨pool, run, ends, connections_converge StreamTickets.plain 0 60000 StreamTickets.session
    pool (by decide) (by decide) run ended (congrArg (·.2.2) ends)⟩

def overtaken : List (Turn Request Event) :=
  .start 0 streaming :: StreamTickets.steps 0 10 ++ .start 1 adding :: StreamTickets.steps 1 4 ++
    .start 2 removing :: StreamTickets.steps 2 6 ++ [.call 1, .act .deliver, .act .deliver]

theorem removed_topic_delivered :
    ¬ ∀ (config : Config) (clock deadline : Nat) (record : SessionRecord) (pool : SessionPool),
      clock < record.expiresAt → record.expiresAt ≤ deadline →
      Reaches (Step (sessionSystem config fun _ => True)) always
        (Pool.idle (Store.created clock record deadline)) pool →
      (∀ i, finished (pool.workers i) = true) → pool.shared.channel = [] →
      ∀ sessionId,
        (pool.shared.sessions sessionId = none → pool.shared.connections sessionId = none) ∧
        ∀ topics, pool.shared.connections sessionId = some topics →
          Same topics (pool.shared.topics sessionId) := by
  intro converge
  have looks : (follow StreamTickets.sessions always
      (Pool.idle (Store.created 0 StreamTickets.session 60000)) overtaken).map
        (fun pool => (known pool.shared, (List.range 3).all fun j => finished (pool.workers j))) =
      some (([], some ["notifications"], []), true) := by decide +kernel
  obtain ⟨pool, ran, seen⟩ := Option.map_eq_some_iff.mp looks
  have ended := quiet_of_follow ran (n := 3) (by decide) (congrArg (·.2) seen)
  have ends : known pool.shared = ([], some ["notifications"], []) := congrArg (·.1) seen
  have same := (converge StreamTickets.plain 0 60000 StreamTickets.session pool (by decide)
    (by decide) (reaches_of_follow StreamTickets.sessions_follows ran) ended
    (congrArg (·.2.2) ends) StreamTickets.session.sessionId).2 _ (congrArg (·.2.1) ends)
  have listed := (same "notifications").mp List.mem_cons_self
  rw [show pool.shared.topics StreamTickets.session.sessionId = [] from congrArg (·.1) ends]
    at listed
  nomatch listed

end MastopodFederation.Guarantees.TopicConvergence
