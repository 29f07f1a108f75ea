import MastopodFederation.Source.Fep3ab2ReplayStore
import MastopodFederation.Guarantees.TopicIsolation
import MastopodFederation.Guarantees.TopicRequests

/-!
# What is read back of a persisted event

The record of an event that is persisted passes its own schema, keeps its sequence and is
subscribed to exactly as the event is, although the schema trims its topic. A wire id is read
back as the sequence it was built from.
-/
namespace MastopodFederation.Guarantees.ReplayRecords
open Source.Fep3ab2Topics Source.Fep3ab2SessionStore Source.Fep3ab2ReplayStore
open TopicIsolation TopicRequests

section Topics
variable {topic : String}

theorem split_trimText : splitTopicSegments (trimText topic) = splitTopicSegments topic := by
  apply split_of_trim
  unfold trimText
  rw [String.toList_ofList, trim_trim]

theorem segmentsMatch_self (segments : List Segment) : segmentsMatch segments segments = true := by
  induction segments with
  | nil => rfl
  | cons segment segments ih =>
    unfold segmentsMatch
    split
    · rfl
    · rw [if_neg (not_not.mpr rfl), ih]
      split <;> rfl

variable {segments : List Segment}

theorem topicMatches_of_split (split : splitTopicSegments topic = some segments)
    (valid : isValidPublishedTopic topic = true) (subscription : String) :
    topicMatches subscription topic = (isValidSubscriptionTopic subscription &&
      match splitTopicSegments subscription with
      | some pattern => segmentsMatch pattern segments
      | none => false) := by
  unfold topicMatches
  cases isValidSubscriptionTopic subscription with
  | false => rfl
  | true =>
    rw [valid]
    simp only [Bool.not_true, Bool.or_false, Bool.false_eq_true, if_false, Bool.true_and]
    split
    next same =>
      rw [same, split]
      exact (segmentsMatch_self segments).symm
    next =>
      rw [split]
      cases splitTopicSegments subscription <;> rfl

theorem segments_of_derived (derived : isUriDerivedTopic topic = true) :
    ∃ segments, splitTopicSegments topic = some segments ∧ segments.all isValidSegment = true := by
  unfold isUriDerivedTopic at derived
  split at derived
  · nomatch derived
  · split at derived
    next segments split => exact ⟨segments, split, derived⟩
    next => nomatch derived

theorem valid_of_split (split : splitTopicSegments topic = some segments)
    (valid : segments.all isValidSegment = true) : isValidPublishedTopic topic = true := by
  unfold isValidPublishedTopic
  rw [split]
  simp only [valid, Bool.or_true]

theorem split_replayable (replayable : isReplayableTopic topic = true) :
    ∃ segments, splitTopicSegments topic = some segments ∧ segments.all isValidSegment = true := by
  rcases Bool.or_eq_true_iff.mp replayable with static | derived
  · have reserved : topic ∈ phase1StaticTopics := by
      have listed := List.contains_iff_mem.mp static
      revert listed
      unfold replayableStaticTopics phase1StaticTopics
      simp only [List.mem_cons, List.not_mem_nil]
      tauto
    have plain := plain_static topic reserved
    exact ⟨_, plain.split, plain.valid⟩
  · exact segments_of_derived derived

theorem parse_replayable (replayable : isReplayableTopic topic = true) :
    parsePublishedTopic topic = some (trimText topic) := by
  obtain ⟨segments, split, valid⟩ := split_replayable replayable
  have bounded : boundedText maxTopicLength topic = some (trimText topic) := by
    unfold splitTopicSegments at split
    dsimp only at split
    split at split
    · nomatch split
    next fits =>
      simp only [Bool.or_eq_true, List.isEmpty_iff, decide_eq_true_eq, not_or] at fits
      unfold boundedText
      dsimp only
      rw [if_neg]
      simp only [trimText, Bool.or_eq_true, decide_eq_true_eq, String.toList_ofList, not_or]
      refine ⟨fun empty => fits.1 ?_, fits.2⟩
      have chars := congrArg String.toList (of_decide_eq_true empty)
      rwa [String.toList_ofList] at chars
  unfold parsePublishedTopic
  rw [bounded, Option.filter_some, if_pos (valid_of_split (split_trimText.trans split) valid)]

theorem isSubscribed_trimText (replayable : isReplayableTopic topic = true)
    (subscriptions : List String) :
    isSubscribed subscriptions (trimText topic) = isSubscribed subscriptions topic := by
  obtain ⟨segments, split, valid⟩ := split_replayable replayable
  have split' := split_trimText.trans split
  have same : (fun subscription => topicMatches subscription (trimText topic)) =
      fun subscription => topicMatches subscription topic := by
    funext subscription
    rw [topicMatches_of_split split (valid_of_split split valid),
      topicMatches_of_split split' (valid_of_split split' valid)]
  unfold isSubscribed
  rw [same]

end Topics

def Readable (record : StoredReplayEvent) : Prop :=
  ∃ read, parseRecord record = some read ∧ read.sequence = record.sequence ∧
    ∀ subscriptions, isSubscribed subscriptions read.topic = isSubscribed subscriptions record.topic

theorem readable_recordOf {event : FepDispatchEvent} {sequence : Nat}
    (persisted : shouldPersist event = true) (named : sseEventNames.contains event.event = true)
    (positive : 0 < sequence) (safe : isSafeInteger sequence = true) :
    Readable (recordOf event sequence) := by
  have replayable : isReplayableTopic event.topic = true := (Bool.and_eq_true_iff.mp persisted).2
  refine ⟨{ recordOf event sequence with topic := trimText event.topic }, ?_, rfl,
    isSubscribed_trimText replayable⟩
  unfold parseRecord recordOf
  dsimp only
  rw [safe, named, if_neg (by simp; omega), parse_replayable replayable]
  rfl

theorem trim_of_ends {text : List Char} (start : ∀ c ∈ text.head?, isSpace c = false)
    (finish : ∀ c ∈ text.getLast?, isSpace c = false) : trim text = text := by
  have front : text.dropWhile isSpace = text := by
    cases text with
    | nil => rfl
    | cons c rest =>
      rw [List.dropWhile_cons, if_neg]
      rw [start c rfl]
      exact Bool.false_ne_true
  unfold trim
  rw [front]
  have back : text.reverse.dropWhile isSpace = text.reverse := by
    cases reversed : text.reverse with
    | nil => rfl
    | cons c rest =>
      have last : text.getLast? = some c := by
        rw [← List.head?_reverse, reversed]
        rfl
      rw [List.dropWhile_cons, if_neg]
      rw [finish c last]
      exact Bool.false_ne_true
  rw [back, List.reverse_reverse]

theorem parse_build {sequence : Nat} (positive : 0 < sequence) (safe : isSafeInteger sequence = true) :
    parseReplayEventId (some (buildReplayEventId sequence)) = some sequence := by
  have text : (buildReplayEventId sequence).toList =
      replayEventIdPrefix.toList ++ Nat.toDigits 10 sequence := by
    rw [buildReplayEventId, String.toList_append, Nat.toList_repr]
  have digits : ∀ c ∈ Nat.toDigits 10 sequence, c.isDigit = true :=
    fun c listed => Nat.isDigit_of_mem_toDigits (by decide) (by decide) listed
  have trimmed : trim (buildReplayEventId sequence).toList = (buildReplayEventId sequence).toList := by
    apply trim_of_ends
    · rw [text]
      intro c first
      cases (first : some 'f' = some c)
      decide
    · intro c last
      rw [text, List.getLast?_append_of_ne_nil _ Nat.toDigits_ne_nil] at last
      exact not_isSpace_of_isDigit (digits c (List.mem_of_getLast? last))
  have after : (replayEventIdPrefix.toList ++ Nat.toDigits 10 sequence).drop
      replayEventIdPrefix.length = Nat.toDigits 10 sequence := List.drop_left
  unfold parseReplayEventId
  dsimp only
  rw [trimmed, text, after, parseInt_toDigits, if_neg (by simp), Option.filter_some, if_pos]
  rw [safe, Bool.true_and]
  exact decide_eq_true positive

end MastopodFederation.Guarantees.ReplayRecords
