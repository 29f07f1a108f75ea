import MastopodFederation.Source.Fep3ab2Topics

/-!
# Reserved topics

What a payload spells shares one name space with the reserved topics of the service. An
envelope stays within the reserved topics of its own stream exactly when no URI that is
read from its payload spells another one, up to the blanks around it.
-/
namespace MastopodFederation.Guarantees.TopicIsolation
open Lib.LuaTable Source.Fep3ab2Topics

def ownTopics : DurableStreamName → List String
  | .stream1 => ["feeds/public/local", localFeedTopic]
  | .stream2 => ["feeds/public/remote"]
  | .canonical => ["feeds/public/canonical"]
  | .unified => ["feeds/public/unified", globalFeedTopic]
  | .firehose => []

def Foreign (stream : DurableStreamName) (topic : String) : Prop :=
  topic ∈ phase1StaticTopics ∧ topic ∉ ownTopics stream

instance (stream : DurableStreamName) (topic : String) : Decidable (Foreign stream topic) :=
  inferInstanceAs (Decidable (_ ∧ _))

/-- No event names a foreign reserved topic, and a connection that subscribes to such topics
only receives none. -/
structure Contained (stream : DurableStreamName) (events : List FepDispatchEvent) : Prop where
  published : ∀ event ∈ events, ¬ Foreign stream event.topic
  delivered : ∀ event ∈ events, ∀ principal topics, (∀ topic ∈ topics, Foreign stream topic) →
    isRecipient principal topics event = false

section
variable (env : Environment)

mutual
def uriTexts (depth : Nat) (keyHint : Option String) : Json → List String
  | .str text => if depth > 5 then [] else if mayHoldUri keyHint then [text] else []
  | .arr items => if depth > 5 then [] else itemTexts (depth + 1) keyHint 16 items
  | .obj entries =>
    if depth > 5 then [] else (objectId entries).toList ++ entryTexts depth 40 entries
  | _ => []

def itemTexts (depth : Nat) (keyHint : Option String) : Nat → List Json → List String
  | 0, _ | _, [] => []
  | count + 1, item :: rest => uriTexts depth keyHint item ++ itemTexts depth keyHint count rest

def entryTexts (depth : Nat) : Nat → List (String × Json) → List String
  | 0, _ | _, [] => []
  | count + 1, (rawKey, child) :: rest =>
    let key := normalizeFieldKey env rawKey
    (if uriFieldKeys.contains key || depth < 2 then uriTexts (depth + 1) (some key) child else []) ++
      entryTexts depth count rest
end

def gather (topics texts : List String) : List String :=
  texts.foldl (fun topics text =>
    if topics.length ≥ 32 then topics else addTopic topics (uriToTopic env text)) topics

def Read (payload : Json) (text : String) : Prop :=
  ∃ before after, uriTexts env 0 none payload = before ++ text :: after ∧
    (gather env [] before).length < 32

/-- The URI of a host, a path and a fragment that spell a foreign reserved topic, up to the
blanks around it. -/
def SpellsForeign (stream : DurableStreamName) (text : String) : Prop :=
  ∃ url, env.parseUrl text = some url ∧ (url.protocol = "http:" ∨ url.protocol = "https:") ∧
    url.host ≠ "" ∧ Foreign stream (String.ofList (trim (topicOf env url).toList))

end

section Walk
variable {env : Environment}

theorem gather_append (topics first second : List String) :
    gather env topics (first ++ second) = gather env (gather env topics first) second :=
  List.foldl_append

variable {topics : List String}

theorem gather_full (full : topics.length ≥ 32) : ∀ texts, gather env topics texts = topics := by
  intro texts
  induction texts with
  | nil => rfl
  | cons text texts ih =>
    have here : gather env topics (text :: texts) = gather env topics texts := by
      simp [gather, full]
    rw [here, ih]

theorem gather_one (room : ¬ topics.length ≥ 32) (text : String) :
    gather env topics [text] = addTopic topics (uriToTopic env text) := by
  simp [gather, room]

mutual
theorem visit_eq_gather (topics : List String) (depth : Nat) (keyHint : Option String) :
    ∀ value, visit env topics depth keyHint value =
      gather env topics (uriTexts env depth keyHint value)
  | .str text => by
    unfold visit uriTexts
    by_cases full : topics.length ≥ 32
    · simp [full, gather_full full]
    · by_cases deep : depth > 5
      · simp [deep, gather]
      · simp only [deep, full, decide_false, Bool.or_false, Bool.false_eq_true, if_false]
        split
        · rw [gather_one full]
        · rfl
  | .arr items => by
    unfold visit uriTexts
    by_cases full : topics.length ≥ 32
    · simp [full, gather_full full]
    · by_cases deep : depth > 5
      · simp [deep, gather]
      · simp only [deep, full, decide_false, Bool.or_false, Bool.false_eq_true, if_false]
        exact visitItems_eq_gather topics (depth + 1) keyHint 16 items
  | .obj entries => by
    unfold visit uriTexts
    by_cases full : topics.length ≥ 32
    · simp [full, gather_full full]
    · by_cases deep : depth > 5
      · simp [deep, gather]
      · simp only [deep, full, decide_false, Bool.or_false, Bool.false_eq_true, if_false]
        rw [gather_append, visitEntries_eq_gather]
        congr 1
        cases objectId entries with
        | none => rfl
        | some id => exact (gather_one full id).symm
  | .null => rfl
  | .bool _ => rfl
  | .num _ => rfl

theorem visitItems_eq_gather (topics : List String) (depth : Nat) (keyHint : Option String) :
    ∀ count items, visitItems env topics depth keyHint count items =
      gather env topics (itemTexts env depth keyHint count items)
  | 0, _ => by simp [visitItems, itemTexts, gather]
  | count + 1, [] => rfl
  | count + 1, item :: rest => by
    unfold visitItems itemTexts
    rw [gather_append, visit_eq_gather topics depth keyHint item, visitItems_eq_gather]

theorem visitEntries_eq_gather (topics : List String) (depth : Nat) :
    ∀ count entries, visitEntries env topics depth count entries =
      gather env topics (entryTexts env depth count entries)
  | 0, _ => by simp [visitEntries, entryTexts, gather]
  | count + 1, [] => rfl
  | count + 1, (rawKey, child) :: rest => by
    unfold visitEntries entryTexts
    rw [gather_append, visitEntries_eq_gather]
    congr 1
    split
    · exact visit_eq_gather topics (depth + 1) (some (normalizeFieldKey env rawKey)) child
    · rfl
end

variable {topic : String}

theorem mem_addTopic {made : Option String} :
    topic ∈ addTopic topics made ↔ topic ∈ topics ∨ made = some topic := by
  unfold addTopic
  cases made with
  | none => simp
  | some new =>
    simp only [Option.some.injEq]
    split
    next here =>
      constructor
      · exact Or.inl
      · rintro (before | rfl)
        · exact before
        · exact here
    next => simp [eq_comm]

theorem mem_gather {texts : List String} :
    topic ∈ gather env [] texts ↔ ∃ before text after, texts = before ++ text :: after ∧
      (gather env [] before).length < 32 ∧ uriToTopic env text = some topic := by
  induction texts using List.reverseRecOn with
  | nil => simp [gather]
  | append_singleton texts last ih =>
    rw [gather_append]
    constructor
    · intro gathered
      by_cases full : (gather env [] texts).length ≥ 32
      · rw [gather_full full] at gathered
        obtain ⟨before, text, after, rfl, room, made⟩ := ih.mp gathered
        exact ⟨before, text, after ++ [last], by simp, room, made⟩
      · rw [gather_one full, mem_addTopic] at gathered
        rcases gathered with earlier | made
        · obtain ⟨before, text, after, rfl, room, made⟩ := ih.mp earlier
          exact ⟨before, text, after ++ [last], by simp, room, made⟩
        · exact ⟨texts, last, [], rfl, by omega, made⟩
    · intro ⟨before, text, after, cut, room, made⟩
      rcases List.eq_nil_or_concat after with rfl | ⟨after', last', rfl⟩
      · obtain ⟨rfl, ⟨⟩⟩ := List.append_inj' cut rfl
        rw [gather_one (by omega), mem_addTopic]
        exact Or.inr made
      · rw [List.concat_eq_append, ← List.cons_append, ← List.append_assoc] at cut
        obtain ⟨rfl, same⟩ := List.append_inj' cut rfl
        have earlier := ih.mpr ⟨before, text, after', rfl, room, made⟩
        by_cases full : (gather env [] (before ++ text :: after')).length ≥ 32
        · rw [gather_full full]
          exact earlier
        · rw [gather_one full, mem_addTopic]
          exact Or.inl earlier

theorem mem_collected {payload : Json} : topic ∈ collectUriDerivedTopicsFromPayload env payload ↔
      ∃ text, Read env payload text ∧ uriToTopic env text = some topic := by
  unfold collectUriDerivedTopicsFromPayload
  rw [List.mem_mergeSort, visit_eq_gather, mem_gather]
  constructor
  · intro ⟨before, text, after, cut, room, made⟩
    exact ⟨text, ⟨before, after, cut, room⟩, made⟩
  · intro ⟨text, ⟨before, after, cut, room⟩, made⟩
    exact ⟨before, text, after, cut, room, made⟩

end Walk

section Match
variable {static topic : String}

theorem split_of_trim (same : trim topic.toList = trim static.toList) :
    splitTopicSegments topic = splitTopicSegments static := by
  unfold splitTopicSegments
  rw [same]

structure Plain (static : String) (segments : List Segment) : Prop where
  trimmed : trim static.toList = static.toList
  split : splitTopicSegments static = some segments
  valid : segments.all isValidSegment = true
  exact : segments.all (fun segment => !isWildcard segment) = true

theorem plain_static : ∀ static ∈ phase1StaticTopics,
    Plain static (static.toList.splitOn '/') := by
  intro static reserved
  simp only [phase1StaticTopics, List.mem_cons, List.not_mem_nil, or_false] at reserved
  rcases reserved with rfl | rfl | rfl | rfl | rfl | rfl | rfl | rfl <;>
    exact ⟨by decide, by decide, by decide, by decide⟩

variable {segments : List Segment}

theorem segmentsMatch_exact (exact : segments.all (fun segment => !isWildcard segment) = true) :
    ∀ published, segmentsMatch segments published = true ↔ segments = published := by
  induction segments with
  | nil =>
    intro published
    cases published <;> simp [segmentsMatch]
  | cons segment segments ih =>
    simp only [List.all_cons, Bool.and_eq_true, Bool.not_eq_true', isWildcard, Bool.or_eq_false_iff,
      decide_eq_false_iff_not] at exact
    obtain ⟨⟨plus, hash⟩, rest⟩ := exact
    intro published
    cases published with
    | nil => simp [segmentsMatch, hash]
    | cons first others =>
      rw [segmentsMatch, if_neg hash, if_neg plus]
      by_cases same : segment = first
      · rw [if_neg (not_not.mpr same), ih (by simpa [isWildcard] using rest), same, List.cons.injEq]
        simp
      · simp [same]

theorem trim_of_split (split : splitTopicSegments topic = some segments) :
    ['/'].intercalate segments = trim topic.toList := by
  unfold splitTopicSegments at split
  dsimp only at split
  split at split
  next => simp at split
  next =>
    split at split
    next => simp at split
    next =>
      cases split
      exact List.intercalate_splitOn '/'

theorem valid_static (reserved : static ∈ phase1StaticTopics) :
    isValidPublishedTopic static = true := by
  simp [isValidPublishedTopic, isPhase1StaticTopic, reserved]

theorem split_static (reserved : static ∈ phase1StaticTopics)
    (spelled : trim topic.toList = static.toList) :
    splitTopicSegments topic = some (static.toList.splitOn '/') := by
  have plain := plain_static static reserved
  rw [split_of_trim (spelled.trans plain.trimmed.symm), plain.split]

theorem valid_of_trim (reserved : static ∈ phase1StaticTopics)
    (spelled : trim topic.toList = static.toList) : isValidPublishedTopic topic = true := by
  simp [isValidPublishedTopic, split_static reserved spelled, (plain_static static reserved).valid]

/-- A published topic reaches the subscribers of a reserved one exactly if it is that topic up
to the blanks around it. -/
theorem topicMatches_static (reserved : static ∈ phase1StaticTopics) :
    topicMatches static topic = true ↔
      isValidPublishedTopic topic = true ∧ trim topic.toList = static.toList := by
  have plain := plain_static static reserved
  have valid := valid_static reserved
  unfold topicMatches
  constructor
  · intro found
    split at found
    next => simp at found
    next accepted =>
      simp only [isValidSubscriptionTopic, valid, Bool.true_or, Bool.not_true, Bool.false_or,
        Bool.not_eq_true', Bool.not_eq_false] at accepted
      refine ⟨accepted, ?_⟩
      split at found
      next same => rw [← same, plain.trimmed]
      next =>
        rw [plain.split] at found
        split at found
        next segments published split_ split_topic =>
          cases split_
          have same := (segmentsMatch_exact plain.exact published).mp found
          rw [← trim_of_split split_topic, ← same, trim_of_split plain.split, plain.trimmed]
        next => simp at found
  · intro ⟨published, spelled⟩
    simp only [isValidSubscriptionTopic, valid, published, Bool.true_or, Bool.not_true,
      Bool.or_self, Bool.false_eq_true, if_false]
    split
    next => rfl
    next =>
      rw [plain.split, split_static reserved spelled]
      exact (segmentsMatch_exact plain.exact _).mpr rfl

end Match

section Envelope
variable {env : Environment} {envelope : StreamEnvelope} {event : FepDispatchEvent} {topic : String}

theorem uriToTopic_eq_some {text : String} :
    uriToTopic env text = some topic ↔ ∃ url, env.parseUrl text = some url ∧
      (url.protocol = "http:" ∨ url.protocol = "https:") ∧ url.host ≠ "" ∧
      topic = topicOf env url ∧ isValidPublishedTopic topic = true := by
  unfold uriToTopic
  cases parsed : env.parseUrl text with
  | none => simp
  | some url =>
    simp only [Option.ite_none_left_eq_some, Option.ite_none_right_eq_some, Option.some.injEq,
      Bool.and_eq_true, decide_eq_true_eq, not_and_or, not_not]
    constructor
    · intro ⟨http, host, valid, same⟩
      exact ⟨url, rfl, http, host, same.symm, same ▸ valid⟩
    · intro ⟨_, same, http, host, topic, valid⟩
      cases same
      exact ⟨http, host, topic ▸ valid, topic.symm⟩

theorem alias_own (stream : DurableStreamName) :
    ∀ topic ∈ (publicFeedTopicByStream stream).toList, topic ∈ ownTopics stream := by
  cases stream <;> decide

theorem own_static (stream : DurableStreamName) :
    ∀ topic ∈ ownTopics stream, topic ∈ phase1StaticTopics := by
  cases stream <;> decide

/-- Every event carries no principal, and its topic belongs to the stream or was spelled by
a text of the payload. -/
theorem mem_handled : event ∈ handleStreamEnvelope env envelope →
    event.principal = none ∧ (event.topic ∈ ownTopics envelope.stream ∨
      ∃ text, Read env envelope.payload text ∧ uriToTopic env text = some event.topic) := by
  intro handled
  unfold handleStreamEnvelope at handled
  simp only [List.mem_append, List.mem_map] at handled
  rcases handled with ((⟨topic, fixed, rfl⟩ | ⟨topic, collected, rfl⟩) | refresh) | refresh
  · exact ⟨rfl, Or.inl (alias_own envelope.stream topic fixed)⟩
  · exact ⟨rfl, Or.inr (mem_collected.mp collected)⟩
  · split at refresh
    next local_ =>
      rw [List.mem_singleton.mp refresh, local_]
      exact ⟨rfl, Or.inl (List.mem_cons_of_mem _ List.mem_cons_self)⟩
    next => simp at refresh
  · split at refresh
    next unified =>
      rw [List.mem_singleton.mp refresh, unified]
      exact ⟨rfl, Or.inl (List.mem_cons_of_mem _ List.mem_cons_self)⟩
    next => simp at refresh

theorem handled_of_read {text : String} (read : Read env envelope.payload text)
    (made : uriToTopic env text = some topic) :
    payloadEvent envelope topic ∈ handleStreamEnvelope env envelope := by
  have collected := mem_collected.mpr ⟨text, read, made⟩
  unfold handleStreamEnvelope
  simp only [List.mem_append, List.mem_map]
  exact Or.inl (Or.inl (Or.inr ⟨topic, collected, rfl⟩))

theorem own_of_matches {stream : DurableStreamName} {own static : String}
    (belongs : own ∈ ownTopics stream) (reserved : static ∈ phase1StaticTopics)
    (found : topicMatches static own = true) : static ∈ ownTopics stream := by
  have own_reserved := own_static stream own belongs
  have spelled := ((topicMatches_static reserved).mp found).2
  rw [(plain_static own own_reserved).trimmed] at spelled
  rw [← String.toList_injective spelled]
  exact belongs

theorem isRecipient_payloadEvent {static : String} (found : topicMatches static topic = true) :
    isRecipient "" [static] (payloadEvent envelope topic) = true := by
  change (true && (topicMatches static topic || false)) = true
  rw [found]
  rfl

/-- An envelope keeps to the reserved topics of its stream exactly when no text that is read
from its payload spells another one. -/
theorem contained_iff_spells (env : Environment) (envelope : StreamEnvelope) :
    Contained envelope.stream (handleStreamEnvelope env envelope) ↔
      ∀ text, Read env envelope.payload text → ¬ SpellsForeign env envelope.stream text := by
  constructor
  · intro contained text read ⟨url, parsed, http, host, reserved, foreign⟩
    have spelled : trim (topicOf env url).toList =
        (String.ofList (trim (topicOf env url).toList)).toList := by simp
    have valid := valid_of_trim reserved spelled
    have made : uriToTopic env text = some (topicOf env url) :=
      uriToTopic_eq_some.mpr ⟨url, parsed, http, host, rfl, valid⟩
    have refused := contained.delivered _ (handled_of_read read made) "" [_] (by
      intro topic listed
      rw [List.mem_singleton.mp listed]
      exact ⟨reserved, foreign⟩)
    have reaches := (topicMatches_static reserved).mpr ⟨valid, spelled⟩
    rw [isRecipient_payloadEvent reaches] at refused
    cases refused
  · intro condition
    have reaches : ∀ event ∈ handleStreamEnvelope env envelope, ∀ static,
        Foreign envelope.stream static → topicMatches static event.topic = false := by
      intro event handled static ⟨reserved, foreign⟩
      by_contra found
      rw [Bool.not_eq_false] at found
      obtain ⟨_, belongs | ⟨text, read, made⟩⟩ := mem_handled handled
      · exact foreign (own_of_matches belongs reserved found)
      · obtain ⟨url, parsed, http, host, topic, _⟩ := uriToTopic_eq_some.mp made
        have spelled := ((topicMatches_static reserved).mp found).2
        have same : String.ofList (trim (topicOf env url).toList) = static := by
          rw [← topic, spelled, String.ofList_toList]
        exact condition text read ⟨url, parsed, http, host, same ▸ ⟨reserved, foreign⟩⟩
    constructor
    · intro event handled foreign
      have refused := reaches event handled event.topic foreign
      have plain := plain_static event.topic foreign.1
      rw [(topicMatches_static foreign.1).mpr ⟨valid_static foreign.1, plain.trimmed⟩] at refused
      cases refused
    · intro event handled principal topics all
      unfold isRecipient
      rw [Bool.and_eq_false_iff, List.any_eq_false]
      right
      intro subscription listed
      simp [reaches event handled subscription (all subscription listed)]

end Envelope

def notificationsHost : String := "https://notifications/"

def oneHost : Environment where
  parseUrl text :=
    if text = notificationsHost then some ⟨"https:", "notifications", "/", ""⟩ else none
  decodeURIComponent := some
  toLowerCase := id
  codeUnitLe first second := first ≤ second

def remoteNote : StreamEnvelope where
  stream := .stream2
  eventId := "1"
  occurredAt := "2026-01-01T00:00:00Z"
  schema := "activity.v1"
  payload := .obj [("id", .str notificationsHost)]

/-- An object of this id is published to every subscriber of `notifications`. -/
theorem notifications_reached :
    ¬ Contained remoteNote.stream (handleStreamEnvelope oneHost remoteNote) := by
  intro contained
  have read : Read oneHost remoteNote.payload notificationsHost :=
    ⟨[], [notificationsHost], by decide, by decide⟩
  have made : uriToTopic oneHost notificationsHost = some notificationsTopic := by decide
  exact contained.published _ (handled_of_read read made) ⟨by decide, by decide⟩

end MastopodFederation.Guarantees.TopicIsolation
