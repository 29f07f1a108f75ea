import MastopodFederation.Guarantees.StreamTickets

/-!
# What requests do with the topics of a session

A mutation reads the topics again after its change and publishes what it read; a stream holds
the topics that were read when its ticket was resolved until it registers its connection.
-/
namespace MastopodFederation.Guarantees.TopicRequests
open Lib.Calls Lib.WorkerPool Source.Fep3ab2SessionStore

inductive Phase where
  | idle
  /-- the stream has found the session -/
  | opening (sessionId : String)
  /-- the stream has read the topics -/
  | read (sessionId : String) (raw : List String)
  /-- the topics were changed and not read again -/
  | owes (sessionId : String)
  | holds (sessionId : String) (topics : List String)
  /-- the session was deleted and the mutation is not published -/
  | revoking (sessionId : String)
  /-- the session or its topics are no longer what they were after the change -/
  | broken
  deriving DecidableEq

structure Duty where
  streaming : Bool
  phase : Phase
  deriving DecidableEq

def Parsed (topics : List String) : Prop := ∀ topic ∈ topics, parseSubscriptionTopic topic = some topic

theorem dropWhile_of_initial {α : Type} {p : α → Bool} {a b : List α} (pre : a <+: b)
    (start : b.dropWhile p = b) : a.dropWhile p = a := by
  cases a with
  | nil => rfl
  | cons x xs =>
    obtain ⟨rest, rfl⟩ := pre
    rw [List.cons_append] at start
    rw [List.dropWhile_eq_self_iff] at start ⊢
    intro _
    exact start (by simp)

theorem trim_trim (text : List Char) : Source.Fep3ab2Topics.trim (Source.Fep3ab2Topics.trim text) =
    Source.Fep3ab2Topics.trim text := by
  have pre := List.rdropWhile_prefix Source.Fep3ab2Topics.isSpace
    (text.dropWhile Source.Fep3ab2Topics.isSpace)
  unfold List.rdropWhile at pre
  unfold Source.Fep3ab2Topics.trim
  rw [dropWhile_of_initial pre (List.dropWhile_idempotent _ _), List.reverse_reverse,
    List.dropWhile_idempotent]

theorem trimText_trimText (text : String) : trimText (trimText text) = trimText text := by
  unfold trimText
  rw [String.toList_ofList, trim_trim]

theorem boundedText_some {maxLength : Nat} {value text : String}
    (bounded : boundedText maxLength value = some text) : boundedText maxLength text = some text := by
  unfold boundedText at bounded ⊢
  dsimp only at bounded ⊢
  split at bounded
  · nomatch bounded
  next fits =>
    cases bounded
    rw [trimText_trimText, if_neg fits]

theorem parseSubscriptionTopic_some {topic parsed : String}
    (found : parseSubscriptionTopic topic = some parsed) :
    parseSubscriptionTopic parsed = some parsed := by
  unfold parseSubscriptionTopic at found ⊢
  obtain ⟨bounded, valid⟩ := Option.filter_eq_some_iff.mp found
  exact Option.filter_eq_some_iff.mpr ⟨boundedText_some bounded, valid⟩

section Topics
variable {config : Config} {topics : List String} {topic : String}

theorem mem_addIfNew {kept : List String} :
    topic ∈ topics.foldl normalizeTopics.addIfNew kept ↔ topic ∈ kept ∨ topic ∈ topics := by
  induction topics generalizing kept with
  | nil => simp
  | cons first rest ih =>
    rw [List.foldl_cons, ih, normalizeTopics.addIfNew]
    split
    next known =>
      rw [List.mem_cons, or_left_comm]
      exact ⟨.inr, fun h => h.elim (fun same => .inl (same ▸ known)) id⟩
    next => rw [List.mem_append, List.mem_singleton, List.mem_cons, or_assoc]

theorem mem_normalizeTopics : topic ∈ normalizeTopics config topics ↔
    ∃ raw ∈ topics, parseSubscriptionTopic raw = some topic := by
  unfold normalizeTopics
  rw [List.mem_mergeSort, List.mem_filterMap]
  apply exists_congr
  intro raw
  rw [mem_addIfNew, or_iff_right List.not_mem_nil]

theorem normalizeTopics_parsed : Parsed (normalizeTopics config topics) := by
  intro topic listed
  obtain ⟨raw, -, found⟩ := mem_normalizeTopics.mp listed
  exact parseSubscriptionTopic_some found

theorem mem_normalizeTopics_of_parsed (parsed : Parsed topics) :
    topic ∈ normalizeTopics config topics ↔ topic ∈ topics := by
  rw [mem_normalizeTopics]
  constructor
  · rintro ⟨raw, listed, found⟩
    rw [parsed raw listed] at found
    cases found
    exact listed
  · exact fun listed => ⟨topic, listed, parsed topic listed⟩

end Topics

section Monitor
variable (config : Config)

def Phase.allows : Phase → Call → Prop
  | .idle, .topicsReplace _ topics =>
    Parsed topics ∧ topics.length ≤ config.maxTopicsPerSession
  | .idle, .topicsAdd _ maxTopics topics =>
    Parsed topics ∧ maxTopics = config.maxTopicsPerSession
  | .idle, .publish _ | .idle, .registerConnection .. => False
  | .idle, _ => True
  | .opening sessionId, .topicsCard other | .opening sessionId, .topicsMembers other =>
    other = sessionId
  | .read .., .now | .read .., .claim .. | .read .., .succeeded _ => True
  | .read sessionId raw, .registerConnection other _ topics =>
    other = sessionId ∧ topics = normalizeTopics config raw
  | .opening _, .replyError _ | .read .., .replyError _ => True
  | .owes sessionId, .sessionTtl other | .owes sessionId, .topicsCard other
  | .owes sessionId, .topicsMembers other => other = sessionId
  | .holds sessionId topics, .publish event => event = .subscriptionsUpdated sessionId topics
  | .revoking sessionId, .publish event => event = .revoked sessionId
  | _, _ => False

def Duty.after (u : Duty) : (c : Call) → Reply c → Phase
  | .sessionTtl sessionId, (ttl : Int) =>
    match u.phase with
    | .idle => if u.streaming = true ∧ ttl ≠ -2 then .opening sessionId else .idle
    | phase => if ttl = -2 then .broken else phase
  | .topicsCard _, (topicCount : Nat) =>
    match u.phase with
    | .owes sessionId =>
      if topicCount > config.maxTopicsPerSession then .broken else .owes sessionId
    | phase => phase
  | .topicsMembers _, (raw : List String) =>
    match u.phase with
    | .opening sessionId => .read sessionId raw
    | .owes sessionId =>
      if raw.length > config.maxTopicsPerSession then .broken
      else .holds sessionId (normalizeTopics config raw)
    | phase => phase
  | .topicsReplace sessionId topics, _ => .holds sessionId topics
  | .topicsAdd sessionId .., (reply : Int × Nat) =>
    if reply.1 = 1 then .owes sessionId else .idle
  | .topicsRemove sessionId _, _ => .owes sessionId
  | .sessionRevoke sessionId _, _ => .revoking sessionId
  | .publish _, _ | .registerConnection .., _ | .replyError _, _ => .idle
  | _, _ => u.phase

def topicMonitor : Monitor Call Reply Duty where
  allows u c := u.phase.allows config c
  after u c reply := ⟨u.streaming, u.after config c reply⟩

end Monitor

def Settled (u : Duty) : Prop := u.phase = .idle ∨ u.phase = .broken

section Requests
variable {config : Config} {ticket sessionId : String} {α : Type} {u : Duty} {streaming : Bool}
  {post : Duty → Except SessionStoreError α → Prop} {next : Nat → Run α}

theorem meets_now : Meets (topicMonitor config) (now >>= next) post u ↔
      u.phase.allows config .now ∧ ∀ current, Meets (topicMonitor config) (next current) post u :=
  Iff.rfl

theorem meets_ticketGet {ticketHash : String} {next : Option String → Run α} :
    Meets (topicMonitor config) (ticketGet ticketHash >>= next) post u ↔
      u.phase.allows config (.ticketGet ticketHash) ∧
        ∀ reply, Meets (topicMonitor config) (next reply) post u := Iff.rfl

theorem meets_sessionGet {next : Option SessionRecord → Run α} :
    Meets (topicMonitor config) (sessionGet sessionId >>= next) post u ↔
      u.phase.allows config (.sessionGet sessionId) ∧
        ∀ reply, Meets (topicMonitor config) (next reply) post u := Iff.rfl

theorem meets_sessionTtl {next : Int → Run α} :
    Meets (topicMonitor config) (sessionTtl sessionId >>= next) post u ↔
      u.phase.allows config (.sessionTtl sessionId) ∧ ∀ ttl : Int, Meets (topicMonitor config)
        (next ttl) post ⟨u.streaming, u.after config (.sessionTtl sessionId) ttl⟩ := Iff.rfl

theorem meets_topicsCard : Meets (topicMonitor config) (topicsCard sessionId >>= next) post u ↔
      u.phase.allows config (.topicsCard sessionId) ∧ ∀ count : Nat, Meets (topicMonitor config)
        (next count) post ⟨u.streaming, u.after config (.topicsCard sessionId) count⟩ := Iff.rfl

theorem meets_topicsMembers {next : List String → Run α} :
    Meets (topicMonitor config) (topicsMembers sessionId >>= next) post u ↔
      u.phase.allows config (.topicsMembers sessionId) ∧
        ∀ raw : List String, Meets (topicMonitor config) (next raw) post
          ⟨u.streaming, u.after config (.topicsMembers sessionId) raw⟩ := Iff.rfl

variable {topics : List String}

theorem meets_topicsAdd {maxTopics : Nat} {next : Int × Nat → Run α} :
    Meets (topicMonitor config) (topicsAdd sessionId maxTopics topics >>= next) post u ↔
      u.phase.allows config (.topicsAdd sessionId maxTopics topics) ∧
        ∀ reply : Int × Nat, Meets (topicMonitor config) (next reply) post
          ⟨u.streaming, u.after config (.topicsAdd sessionId maxTopics topics) reply⟩ := Iff.rfl

theorem listTopics_owes : Meets (topicMonitor config) (listTopics config sessionId)
    (Ends (fun _ t => t = ⟨streaming, .broken⟩) fun topics t =>
      t = ⟨streaming, .holds sessionId topics⟩) ⟨streaming, .owes sessionId⟩ := by
  unfold listTopics ensureSessionExists assertTopicCountWithinLimit
  rw [meets_bind]
  refine meets_sessionTtl.mpr ⟨rfl, fun ttl => ?_⟩
  simp only [Duty.after]
  split
  · rfl
  refine meets_topicsCard.mpr ⟨rfl, fun count => ?_⟩
  simp only [Duty.after]
  split
  · rfl
  refine meets_topicsMembers.mpr ⟨rfl, fun raw => ?_⟩
  simp only [Duty.after]
  split
  · rfl
  · rfl

def Refusable (u : Duty) : Prop :=
  u.streaming = true ∧ (u.phase = .idle ∨ (∃ id, u.phase = .opening id) ∨
    ∃ id raw, u.phase = .read id raw)

theorem Refusable.refuses (refusable : Refusable u) {error : SessionStoreError} :
    u.phase.allows config (.replyError error) := by
  obtain ⟨-, idle | ⟨_, opening⟩ | ⟨_, _, read⟩⟩ := refusable
  · rw [idle]
    trivial
  · rw [opening]
    trivial
  · rw [read]
    trivial

theorem listTopics_opens : Meets (topicMonitor config) (listTopics config sessionId)
    (Ends (fun _ => Refusable) fun topics t =>
      ∃ raw, t = ⟨true, .read sessionId raw⟩ ∧ topics = normalizeTopics config raw)
    ⟨true, .idle⟩ := by
  unfold listTopics ensureSessionExists assertTopicCountWithinLimit
  rw [meets_bind]
  refine meets_sessionTtl.mpr ⟨trivial, fun ttl => ?_⟩
  simp only [Duty.after]
  split
  next gone =>
    rw [if_neg fun there => there.2 gone]
    exact ⟨rfl, .inl rfl⟩
  next there =>
    rw [if_pos ⟨trivial, there⟩]
    refine meets_topicsCard.mpr ⟨rfl, fun count => ?_⟩
    simp only [Duty.after]
    split
    · exact ⟨rfl, .inr (.inl ⟨_, rfl⟩)⟩
    refine meets_topicsMembers.mpr ⟨rfl, fun raw => ?_⟩
    simp only [Duty.after]
    split
    · exact ⟨rfl, .inr (.inr ⟨_, _, rfl⟩)⟩
    · exact ⟨raw, rfl, rfl⟩

def Opened (config : Config) : Option ResolvedSession → Duty → Prop
  | none, u => u = ⟨true, .idle⟩
  | some session, u => ∃ raw, u = ⟨true, .read session.record.sessionId raw⟩ ∧
      session.topics = normalizeTopics config raw

theorem resolveSession_opens : Meets (topicMonitor config) (resolveSession config ticket)
    (Ends (fun _ => Refusable) (Opened config)) ⟨true, .idle⟩ := by
  unfold resolveSession
  split
  · rfl
  refine meets_ticketGet.mpr ⟨trivial, fun reply => ?_⟩
  split
  · rfl
  refine meets_sessionGet.mpr ⟨trivial, fun stored => ?_⟩
  cases stored with
  | none => exact ⟨trivial, fun _ => rfl⟩
  | some parsed =>
    dsimp only
    split
    · rfl
    refine meets_now.mpr ⟨trivial, fun current => ?_⟩
    split
    · rfl
    apply ends_bind listTopics_opens
    rintro topics t ⟨raw, rfl, rfl⟩
    exact ⟨raw, rfl, rfl⟩

variable {constraints : ConsumeConstraints}

theorem consumeStreamTicket_opens :
    Meets (topicMonitor config) (consumeStreamTicket config ticket constraints)
      (Ends (fun _ => Refusable) fun session => Opened config (some session)) ⟨true, .idle⟩ := by
  unfold consumeStreamTicket
  refine ends_bind resolveSession_opens fun resolved t opened => ?_
  cases resolved with
  | none =>
    rw [(opened : t = _)]
    exact ⟨rfl, .inl rfl⟩
  | some session =>
    obtain ⟨raw, rfl, topics⟩ := opened
    dsimp only
    split
    · exact ⟨rfl, .inr (.inr ⟨_, _, rfl⟩)⟩
    refine meets_now.mpr ⟨trivial, fun current => ⟨trivial, fun claimed => ?_⟩⟩
    cases claimed with
    | false => exact ⟨rfl, .inr (.inr ⟨_, _, rfl⟩)⟩
    | true => exact ⟨trivial, fun _ => ⟨raw, rfl, topics⟩⟩

theorem openStream_meets :
    Meets (topicMonitor config) (openStream config ticket constraints) (fun t _ => Settled t)
      ⟨true, .idle⟩ := by
  unfold openStream
  rw [meets_bind, meets_attempt]
  refine Meets.imp consumeStreamTicket_opens fun t outcome ended => ?_
  cases outcome with
  | error e =>
    exact ⟨ended.refuses, fun _ => .inl rfl⟩
  | ok session =>
    obtain ⟨raw, rfl, topics⟩ := ended
    exact ⟨⟨rfl, topics⟩, fun _ => .inl rfl⟩

abbrev Reads : Call → Prop
  | .topicsReplace .. | .topicsAdd .. | .topicsRemove .. | .sessionRevoke .. | .publish _
  | .registerConnection .. | .replyError _ => False
  | _ => True

theorem reads_keeps {x : Run α} (only : Only Reads x) :
    Keeps (topicMonitor config) (· = ⟨false, .idle⟩) x := by
  apply only.keeps
  · rintro s c reads rfl
    cases c with
    | topicsReplace | topicsAdd | topicsRemove | sessionRevoke | publish | registerConnection
    | replyError => nomatch reads
    | _ => trivial
  · rintro s c reply reads rfl
    cases c with
    | topicsReplace | topicsAdd | topicsRemove | sessionRevoke | publish | registerConnection
    | replyError => nomatch reads
    | sessionTtl =>
      simp only [topicMonitor, Duty.after]
      rw [if_neg fun both => Bool.false_ne_true both.1]
    | _ => rfl

section Rules
variable {P : Call → Prop}

theorem only_now {next : Nat → Run α} (admitted : P .now) (rest : ∀ current, Only P (next current)) :
    Only P (now >>= next) := ⟨admitted, rest⟩

theorem only_ticketGet {ticketHash : String} {next : Option String → Run α}
    (admitted : P (.ticketGet ticketHash)) (rest : ∀ reply, Only P (next reply)) :
    Only P (ticketGet ticketHash >>= next) := ⟨admitted, rest⟩

theorem only_sessionGet {next : Option SessionRecord → Run α}
    (admitted : P (.sessionGet sessionId)) (rest : ∀ reply, Only P (next reply)) :
    Only P (sessionGet sessionId >>= next) := ⟨admitted, rest⟩

end Rules

theorem resolveSession_reads : Only Reads (resolveSession config ticket) := by
  unfold resolveSession
  split
  · trivial
  refine only_ticketGet trivial fun reply => ?_
  split
  · trivial
  refine only_sessionGet trivial fun stored => ?_
  split
  · exact ⟨trivial, fun _ => trivial⟩
  split
  · trivial
  refine only_now trivial fun current => ?_
  split
  · trivial
  · apply only_bind (StreamTickets.listTopics_only trivial trivial trivial)
    exact fun _ => trivial

theorem consumeStreamTicket_reads : Only Reads (consumeStreamTicket config ticket constraints) := by
  unfold consumeStreamTicket
  apply only_bind resolveSession_reads
  intro resolved
  split
  · trivial
  split
  · trivial
  refine only_now trivial fun current => ?_
  refine only_call (c := Call.claim _ _ _) trivial fun claimed => ?_
  cases claimed with
  | false => trivial
  | true => exact ⟨trivial, fun _ => trivial⟩

theorem ensured {next : Int → Run α} (ends : ∀ e, post ⟨false, .idle⟩ (.error e))
    (met : ∀ ttl, Meets (topicMonitor config) (next ttl) post ⟨false, .idle⟩) :
    Meets (topicMonitor config) (ensureSessionExists sessionId >>= next) post ⟨false, .idle⟩ := by
  rw [meets_bind]
  apply ((reads_keeps (StreamTickets.ensureSessionExists_only trivial)) _ rfl).imp
  rintro t outcome rfl
  cases outcome with
  | ok ttl => exact met ttl
  | error e => exact ends e

theorem republished : Meets (topicMonitor config) (do
      let topics ← listTopics config sessionId
      publishMutation (.subscriptionsUpdated sessionId topics)
      pure topics) (fun t _ => Settled t) ⟨streaming, .owes sessionId⟩ := by
  rw [meets_bind]
  refine Meets.imp listTopics_owes fun t outcome ended => ?_
  cases outcome with
  | error e =>
    rw [(ended : t = _)]
    exact .inr rfl
  | ok topics =>
    rw [(ended : t = _)]
    exact ⟨rfl, fun _ => .inl rfl⟩

theorem replaceTopics_meets :
    Meets (topicMonitor config) (replaceTopics config sessionId topics) (fun t _ => Settled t)
      ⟨false, .idle⟩ := by
  unfold replaceTopics
  apply ensured fun _ => .inl rfl
  intro ttl
  unfold assertTopicCountWithinLimit
  split
  · exact .inl rfl
  next fits =>
    refine ⟨⟨normalizeTopics_parsed, Nat.le_of_not_gt fits⟩, fun _ => ⟨rfl, fun _ => .inl rfl⟩⟩

theorem addTopics_meets :
    Meets (topicMonitor config) (addTopics config sessionId topics) (fun t _ => Settled t)
      ⟨false, .idle⟩ := by
  unfold addTopics
  dsimp only
  split
  · apply (reads_keeps (StreamTickets.listTopics_only trivial trivial trivial) _ rfl).imp
    rintro t _ rfl
    exact .inl rfl
  unfold assertTopicCountWithinLimit
  split
  · exact .inl rfl
  refine meets_topicsAdd.mpr ⟨⟨normalizeTopics_parsed, rfl⟩, fun reply => ?_⟩
  obtain ⟨status, observedCount⟩ := reply
  simp only [Duty.after]
  split
  next missing =>
    rw [if_neg (by rw [missing]; decide)]
    exact .inl rfl
  split
  next refused => exact .inl rfl
  next done =>
    rw [if_pos (not_not.mp done)]
    exact republished

theorem removeTopic_meets {topic : String} :
    Meets (topicMonitor config) (removeTopic config sessionId topic) (fun t _ => Settled t)
      ⟨false, .idle⟩ := by
  unfold removeTopic
  apply ensured fun _ => .inl rfl
  exact fun ttl => ⟨trivial, fun _ => republished⟩

theorem revokeByTicket_settles {principal : Option String} :
    Meets (topicMonitor config) (revokeByTicket config ticket principal) (fun t _ => Settled t)
      ⟨false, .idle⟩ := by
  unfold revokeByTicket
  rw [meets_bind]
  apply (reads_keeps resolveSession_reads _ rfl).imp
  rintro t outcome rfl
  have returned : Meets (topicMonitor config) (revocationReturns config ticket)
      (fun t _ => Settled t) ⟨false, .idle⟩ := by
    unfold revocationReturns
    split
    · exact .inl rfl
    · exact ⟨trivial, fun _ => .inl rfl⟩
  cases outcome with
  | error e => exact .inl rfl
  | ok resolved =>
    cases resolved with
    | none => exact returned
    | some session =>
      rw [then_ok]
      dsimp only
      split
      · exact .inl rfl
      · exact ⟨trivial, fun _ => ⟨rfl, fun _ => returned⟩⟩

def startOf : Request → Duty
  | .stream .. => ⟨true, .idle⟩
  | _ => ⟨false, .idle⟩

theorem meets_forget {x : Run α} (settles : Meets (topicMonitor config) x (fun t _ => Settled t) u) :
    Meets (topicMonitor config) (x >>= fun _ => pure () : Run Unit) (fun t _ => Settled t) u := by
  rw [meets_bind]
  apply settles.imp
  intro t outcome settled
  cases outcome <;> exact settled

theorem serve_obeys (request : Request) :
    ObeysTo (topicMonitor config) Settled (Source.Fep3ab2SessionStore.serve config request)
      (startOf request) := by
  unfold ObeysTo Source.Fep3ab2SessionStore.serve startOf
  cases request with
  | consume ticket constraints =>
    apply meets_forget
    apply (reads_keeps consumeStreamTicket_reads _ rfl).imp
    rintro t _ rfl
    exact .inl rfl
  | revoke ticket principal => exact revokeByTicket_settles
  | stream ticket constraints => exact openStream_meets
  | replace sessionId topics => exact meets_forget replaceTopics_meets
  | add sessionId topics => exact meets_forget addTopics_meets
  | remove sessionId topic => exact meets_forget removeTopic_meets

end Requests

def Same (topics others : List String) : Prop := ∀ topic, topic ∈ topics ↔ topic ∈ others

def Phase.Owes (sessionId : String) : Phase → Prop
  | .owes other | .holds other _ => other = sessionId
  | _ => False

def Phase.Holds (s : Store) : Phase → Prop
  | .opening sessionId => s.sessions sessionId ≠ none
  | .read sessionId raw => s.sessions sessionId ≠ none ∧ Same raw (s.topics sessionId)
  | .holds sessionId topics => s.sessions sessionId ≠ none → Same topics (s.topics sessionId)
  | _ => True

def Phase.Opens : Phase → Prop
  | .opening _ | .read .. => True
  | _ => False

structure Duty.Right (s : Store) (request : Request) (u : Duty) : Prop where
  own : u.streaming = (startOf request).streaming
  opens : u.phase.Opens → u.streaming = true
  holds : u.phase.Holds s

end MastopodFederation.Guarantees.TopicRequests
