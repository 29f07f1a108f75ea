import MastopodFederation.Guarantees.TopicIsolation
import MastopodFederation.Source.StreamingTopicAuthorization

/-!
# Wildcard subscriptions

A subscription matches the topics that replace each of its `+` by one segment and a final
`#` by any number of segments. It stays below its first segment, and a `#` in the place of
its last segments matches no less.
-/
namespace MastopodFederation.Guarantees.TopicMatching
open Source.Fep3ab2Topics

def segmentsOf (topic : String) : List Segment := (trim topic.toList).splitOn '/'

inductive Replaces : List Segment → List Segment → Prop where
  | nil : Replaces [] []
  | literal {segment : Segment} {subscription segments : List Segment}
      (exact : isWildcard segment = false) (rest : Replaces subscription segments) :
      Replaces (segment :: subscription) (segment :: segments)
  | plus {subscription segments : List Segment} (segment : Segment)
      (rest : Replaces subscription segments) : Replaces (['+'] :: subscription) (segment :: segments)
  | hash (segments : List Segment) : Replaces [['#']] segments

variable {subscription segments initial tail : List Segment}

theorem segmentsMatch_iff (bounded : ['#'] ∉ subscription.dropLast) :
    segmentsMatch subscription segments = true ↔ Replaces subscription segments := by
  induction subscription generalizing segments with
  | nil =>
    cases segments with
    | nil => simp [segmentsMatch, Replaces.nil]
    | cons segment segments =>
      refine iff_of_false (by simp [segmentsMatch]) fun replaces => ?_
      cases replaces
  | cons first subscription ih =>
    by_cases hash : first = ['#']
    · subst hash
      have last : subscription = [] := by
        cases subscription with
        | nil => rfl
        | cons => simp at bounded
      subst last
      exact iff_of_true (by cases segments <;> simp [segmentsMatch]) (.hash segments)
    · have inner : ['#'] ∉ subscription.dropLast := by
        cases subscription with
        | nil => simp
        | cons => exact fun listed => bounded (by simp [listed])
      cases segments with
      | nil =>
        refine iff_of_false (by simp [segmentsMatch, hash]) fun replaces => ?_
        cases replaces
        exact hash rfl
      | cons segment segments =>
        rw [segmentsMatch, if_neg hash]
        by_cases plus : first = ['+']
        · subst plus
          rw [if_pos rfl, ih inner]
          refine ⟨.plus segment, fun replaces => ?_⟩
          cases replaces with
          | literal exact' => simp [isWildcard] at exact'
          | plus _ rest => exact rest
        · rw [if_neg plus]
          by_cases same : first = segment
          · subst same
            rw [if_neg (by simp), ih inner]
            refine ⟨.literal (by simp [isWildcard, plus, hash]), fun replaces => ?_⟩
            cases replaces with
            | literal _ rest => exact rest
            | plus => exact absurd rfl plus
            | hash => exact absurd rfl hash
          · rw [if_pos (by simpa using same)]
            refine iff_of_false (by simp) fun replaces => ?_
            cases replaces with
            | literal => exact same rfl
            | plus => exact plus rfl
            | hash => exact hash rfl

theorem replaces_self (exact : ∀ segment ∈ segments, isWildcard segment = false) :
    Replaces segments segments := by
  induction segments with
  | nil => exact .nil
  | cons segment segments ih =>
    exact .literal (exact segment (by simp)) (ih fun other listed => exact other (by simp [listed]))

theorem Replaces.widen (replaces : Replaces (initial ++ tail) segments)
    (bounded : ['#'] ∉ initial) : Replaces (initial ++ [['#']]) segments := by
  induction initial generalizing segments with
  | nil => exact .hash segments
  | cons first initial ih =>
    simp only [List.mem_cons, not_or] at bounded
    rw [List.cons_append] at replaces ⊢
    generalize whole : initial ++ tail = more at replaces
    cases replaces with
    | literal exact rest => exact .literal exact (ih (whole ▸ rest) bounded.2)
    | plus segment rest => exact .plus segment (ih (whole ▸ rest) bounded.2)
    | hash => exact absurd rfl bounded.1

variable {topic published : String}

theorem split_segmentsOf (split : splitTopicSegments topic = some segments) :
    segments = segmentsOf topic := by
  unfold splitTopicSegments at split
  grind [segmentsOf]

theorem exact_of_valid (valid : segments.all isValidSegment = true) :
    ∀ segment ∈ segments, isWildcard segment = false := by
  intro segment listed
  have checked := List.all_eq_true.mp valid segment listed
  by_contra wildcard
  simp only [isWildcard, Bool.or_eq_true, decide_eq_true_eq, Bool.not_eq_false] at wildcard
  rcases wildcard with rfl | rfl <;> exact absurd checked (by decide)

theorem published_spec (valid : isValidPublishedTopic topic = true) :
    splitTopicSegments topic = some (segmentsOf topic) ∧
      ∀ segment ∈ segmentsOf topic, isWildcard segment = false := by
  unfold isValidPublishedTopic at valid
  by_cases reserved : topic ∈ phase1StaticTopics
  · have plain := TopicIsolation.plain_static topic reserved
    rw [← split_segmentsOf plain.split]
    exact ⟨plain.split, exact_of_valid plain.valid⟩
  · have outside : isPhase1StaticTopic topic = false := by simpa [isPhase1StaticTopic] using reserved
    rw [outside, Bool.false_or] at valid
    split at valid
    · next segments split =>
      rw [← split_segmentsOf split]
      exact ⟨split, exact_of_valid valid⟩
    · cases valid

theorem subscription_spec (valid : isValidSubscriptionTopic topic = true) :
    splitTopicSegments topic = some (segmentsOf topic) ∧ ['#'] ∉ (segmentsOf topic).dropLast ∧
      ∀ first ∈ (segmentsOf topic).head?, isWildcard first = false := by
  rcases Bool.or_eq_true_iff.mp valid with published | bounded
  · obtain ⟨split, exact'⟩ := published_spec published
    refine ⟨split, fun listed => ?_, fun first start => exact' first (List.mem_of_mem_head? start)⟩
    exact absurd (exact' ['#'] (List.dropLast_subset _ listed)) (by decide)
  · unfold isBoundedWildcardSubscription at bounded
    split at bounded
    · next first rest split =>
      rw [← split_segmentsOf split]
      simp only [Bool.and_eq_true, Bool.not_eq_true'] at bounded
      exact ⟨split, by simpa using bounded.1.1.2, by simpa using bounded.1.1.1⟩
    · cases bounded

theorem topicMatches_iff (valid : isValidSubscriptionTopic topic = true)
    (valid' : isValidPublishedTopic published = true) :
    topicMatches topic published = true ↔ Replaces (segmentsOf topic) (segmentsOf published) := by
  obtain ⟨split, bounded, -⟩ := subscription_spec valid
  obtain ⟨split', exact'⟩ := published_spec valid'
  rw [← segmentsMatch_iff bounded]
  unfold topicMatches
  rw [valid, valid', split, split']
  by_cases same : topic = published
  · subst same
    simpa using (segmentsMatch_iff bounded).mpr (replaces_self exact')
  · simp [same]

/-- Matching replaces wildcards, stays below the first segment of a subscription, and grows
when its last segments become a `#`. -/
theorem matches_wildcards (valid : isValidSubscriptionTopic topic = true)
    (valid' : isValidPublishedTopic published = true) :
    (topicMatches topic published = true ↔ Replaces (segmentsOf topic) (segmentsOf published)) ∧
    (topicMatches topic published = true →
      (segmentsOf published).head? = (segmentsOf topic).head?) ∧
    ∀ wider initial tail, isValidSubscriptionTopic wider = true →
      segmentsOf topic = initial ++ tail → segmentsOf wider = initial ++ [['#']] →
      topicMatches topic published = true → topicMatches wider published = true := by
  refine ⟨topicMatches_iff valid valid', fun found => ?_,
    fun wider initial tail validWider parts widened found => ?_⟩
  · obtain ⟨-, -, first⟩ := subscription_spec valid
    have replaces := (topicMatches_iff valid valid').mp found
    generalize segmentsOf topic = pattern, segmentsOf published = segments at *
    revert first
    cases replaces with
    | nil => simp
    | literal => simp
    | plus => exact fun first => absurd (first ['+'] rfl) (by decide)
    | hash => exact fun first => absurd (first ['#'] rfl) (by decide)
  · have replaces := (topicMatches_iff valid valid').mp found
    obtain ⟨-, bounded, -⟩ := subscription_spec validWider
    rw [topicMatches_iff validWider valid', widened]
    rw [parts] at replaces
    exact replaces.widen (by simpa [widened] using bounded)

theorem matches_wildcards_note :
    (topicMatches "a/+" "a/b" = true ↔ Replaces (segmentsOf "a/+") (segmentsOf "a/b")) ∧
    (topicMatches "a/+" "a/b" = true → (segmentsOf "a/b").head? = (segmentsOf "a/+").head?) ∧
    ∀ wider initial tail, isValidSubscriptionTopic wider = true →
      segmentsOf "a/+" = initial ++ tail → segmentsOf wider = initial ++ [['#']] →
      topicMatches "a/+" "a/b" = true → topicMatches wider "a/b" = true :=
  matches_wildcards (by decide) (by decide)

end MastopodFederation.Guarantees.TopicMatching

/-!
# Topics that both sides accept

What the backend allows is a valid subscription. It allows a valid topic without wildcards,
and so a published one, if the first segment is a host name with an optional port, and it
answers for the first 32 topics of a request.
-/
namespace MastopodFederation.Guarantees.TopicAuthorization
open Source.Fep3ab2Topics Source.StreamingTopicAuthorization TopicMatching

variable {topic : String} {segments : List Segment}

def PlainHosts (env : Environment) : Prop :=
  ∀ uri parsed, env.parseUrl uri = some parsed → parsed.host ≠ "" →
    '/' ∉ parsed.host.toList ∧ ∀ c ∈ parsed.host.toList, isSpace c = false

def AnsweredOnce (response : Response) (topic : String) : Prop :=
  response.allowedTopics.count topic + (response.deniedTopics.map Denied.topic).count topic = 1

theorem denied_topic {denied : Denied} (decided : authorizeTopic topic = some denied) :
    denied.topic = topic := by
  unfold authorizeTopic at decided
  dsimp only at decided
  split at decided
  · cases decided
  · split at decided
    · cases decided
    · split at decided
      · split at decided
        · cases decided; rfl
        · split at decided <;> cases decided
          rfl
      · cases decided; rfl

theorem valid_of_exact (exact : isExactUriTopic topic = true) : isValidPublishedTopic topic = true := by
  unfold isExactUriTopic at exact
  split at exact
  · cases exact
  · split at exact
    · next authority rest split =>
      simp only [looksLikeAuthoritySegment, Bool.and_eq_true] at exact
      simp [isValidPublishedTopic, split, exact.1.1, exact.2]
    · cases exact

theorem bounded_of_bounded (bounded : isBoundedWildcardTopic topic = true) :
    isBoundedWildcardSubscription topic = true := by
  unfold isBoundedWildcardTopic at bounded
  split at bounded
  · cases bounded
  · split at bounded
    · next first rest split =>
      simp only [Bool.and_eq_true] at bounded
      simp only [isBoundedWildcardSubscription, split, Bool.and_eq_true]
      exact ⟨⟨bounded.1.1.1, bounded.1.2⟩, bounded.2⟩
    · cases bounded

theorem valid_of_allowed (allowed : authorizeTopic topic = none) :
    isValidSubscriptionTopic topic = true := by
  unfold authorizeTopic at allowed
  unfold isValidSubscriptionTopic
  split at allowed
  · next reserved => simp [isValidPublishedTopic, reserved]
  · split at allowed
    · next exact' => simp [valid_of_exact exact']
    · split at allowed
      · next bounded => simp [bounded_of_bounded bounded]
      · cases allowed

theorem isHost_static : ∀ static ∈ phase1StaticTopics,
    (segmentsOf static).head?.any isHost = true := by
  intro static reserved
  simp only [phase1StaticTopics, List.mem_cons, List.not_mem_nil, or_false] at reserved
  rcases reserved with rfl | rfl | rfl | rfl | rfl | rfl | rfl | rfl <;> decide

theorem authorizeTopic_exact (exact : hasWildcardSegments topic = false)
    (valid : isValidSubscriptionTopic topic = true) :
    authorizeTopic topic = none ↔ (segmentsOf topic).head?.any isHost = true := by
  by_cases reserved : topic ∈ phase1StaticTopics
  · refine iff_of_true ?_ (isHost_static topic reserved)
    simp [authorizeTopic, isPhase1StaticTopic, reserved]
  · have outside : isPhase1StaticTopic topic = false := by simpa [isPhase1StaticTopic] using reserved
    have bounded : isBoundedWildcardTopic topic = false := by simp [isBoundedWildcardTopic, exact]
    obtain ⟨split, -⟩ := subscription_spec valid
    have published : isValidPublishedTopic topic = true := by
      rcases Bool.or_eq_true_iff.mp valid with published | wildcards
      · exact published
      · rw [isBoundedWildcardSubscription, split] at wildcards
        rw [hasWildcardSegments, split] at exact
        cases parts : segmentsOf topic with
        | nil => simp [parts] at wildcards
        | cons first rest =>
          rw [parts] at wildcards exact
          simp only [Bool.and_eq_true, decide_eq_true_eq] at wildcards
          have none' : (first :: rest).countP isWildcard = 0 := by
            rw [List.countP_eq_zero]
            simpa using exact
          omega
    rw [isValidPublishedTopic, outside, Bool.false_or, split] at published
    have filled : topic ≠ "" := by
      rintro rfl
      exact absurd split (by decide)
    cases parts : segmentsOf topic with
    | nil => simp [authorizeTopic, outside, bounded, isExactUriTopic, filled, exact, split, parts]
    | cons first rest =>
      simp only [parts, List.all_cons, Bool.and_eq_true] at published
      simp [authorizeTopic, outside, bounded, isExactUriTopic, filled, exact, split, parts,
        looksLikeAuthoritySegment, published.1, published.2]

theorem trimEnd_append {first rest : List Char} (plain : ∀ c ∈ first, isSpace c = false) :
    ∃ kept, (first ++ rest).rdropWhile isSpace = first ++ kept ∧ kept <+: rest := by
  induction rest using List.reverseRecOn with
  | nil =>
    refine ⟨[], ?_, List.nil_prefix⟩
    simp only [List.append_nil]
    rw [List.rdropWhile_eq_self_iff]
    intro filled
    simp [plain _ (List.getLast_mem filled)]
  | append_singleton rest c ih =>
    rw [← List.append_assoc, List.rdropWhile_concat]
    split
    · obtain ⟨kept, same, initial⟩ := ih
      exact ⟨kept, same, initial.trans (List.prefix_append _ _)⟩
    · exact ⟨rest ++ [c], by simp, List.prefix_rfl⟩

theorem head_segmentsOf {host rest : List Char} (filled : host ≠ []) (whole : '/' ∉ host)
    (plain : ∀ c ∈ host, isSpace c = false) (ends : ∀ c ∈ rest.head?, c = '/')
    (text : topic.toList = host ++ rest) : (segmentsOf topic).head? = some host := by
  have start : topic.toList.dropWhile isSpace = topic.toList := by
    rw [text, List.dropWhile_eq_self_iff]
    intro _
    obtain ⟨first, more, rfl⟩ := List.exists_cons_of_ne_nil filled
    simp [plain first (by simp)]
  obtain ⟨kept, same, initial⟩ : ∃ kept, (host ++ rest).rdropWhile isSpace = host ++ kept ∧
      kept <+: rest := trimEnd_append plain
  have trimmed : trim topic.toList = host ++ kept := by
    rw [trim, start, text, ← same]
    rfl
  have alone : host.splitOn '/' = [host] := List.splitOn_eq_singleton whole
  rw [segmentsOf, trimmed]
  cases kept with
  | nil => simp [alone]
  | cons c kept =>
    obtain ⟨more, rfl⟩ := initial
    obtain rfl := ends c rfl
    rw [List.splitOn_append_cons_self, alone]
    rfl

theorem toList_topicOf (env : Environment) (parsed : Url) : ∃ rest : List Char,
    (topicOf env parsed).toList = parsed.host.toList ++ rest ∧ ∀ c ∈ rest.head?, c = '/' := by
  obtain ⟨more, made⟩ : ∃ more, topicOf env parsed = "/".intercalate (parsed.host :: more) :=
    ⟨_, rfl⟩
  rw [made]
  cases more with
  | nil => exact ⟨[], by simp, by simp⟩
  | cons next more =>
    refine ⟨'/' :: ("/".intercalate (next :: more)).toList, ?_, by simp⟩
    rw [String.intercalate_cons_of_ne_nil (by simp), String.toList_append, String.toList_append,
      List.append_assoc]
    rfl

theorem uriToTopic_allowed_iff {env : Environment} {uri : String} (hosts : PlainHosts env) :
    (∀ topic, uriToTopic env uri = some topic → authorizeTopic topic = none) ↔
      ∀ parsed, env.parseUrl uri = some parsed → uriToTopic env uri ≠ none →
        isHost parsed.host.toList = true := by
  have each {topic : String} (made : uriToTopic env uri = some topic) :
      ∃ parsed, env.parseUrl uri = some parsed ∧
        (authorizeTopic topic = none ↔ isHost parsed.host.toList = true) := by
    obtain ⟨parsed, read, -, named, spelled, valid⟩ := TopicIsolation.uriToTopic_eq_some.mp made
    obtain ⟨split, exact'⟩ := published_spec valid
    obtain ⟨whole, plain⟩ := hosts uri parsed read named
    have exact : hasWildcardSegments topic = false := by
      simpa [hasWildcardSegments, split] using exact'
    have first : (segmentsOf topic).head? = some parsed.host.toList := by
      rw [spelled]
      obtain ⟨rest, text, ends⟩ := toList_topicOf env parsed
      exact head_segmentsOf (by simpa using named) whole plain ends text
    refine ⟨parsed, read, ?_⟩
    rw [authorizeTopic_exact exact (by simp [isValidSubscriptionTopic, valid]), first]
    rfl
  constructor
  · intro allowed parsed read made
    obtain ⟨topic, made⟩ := Option.ne_none_iff_exists'.mp made
    obtain ⟨parsed', read', same⟩ := each made
    cases read.symm.trans read'
    exact same.mp (allowed topic made)
  · intro hosted topic made
    obtain ⟨parsed, read, same⟩ := each made
    exact same.mpr (hosted parsed read (by simp [made]))

theorem count_answers (requested : List String) :
    (requested.filter fun topic => authorizeTopic topic = none).count topic +
      ((requested.filterMap authorizeTopic).map Denied.topic).count topic =
        requested.count topic := by
  induction requested with
  | nil => rfl
  | cons first requested ih =>
    cases decision : authorizeTopic first with
    | none =>
      simp only [List.filter_cons, decision, decide_true, if_true, List.filterMap_cons_none decision,
        List.count_cons]
      omega
    | some denied =>
      simp only [List.filter_cons, decision, reduceCtorEq, decide_false, Bool.false_eq_true, if_false,
        List.filterMap_cons_some decision, List.map_cons, denied_topic decision, List.count_cons]
      omega

theorem answeredOnce_iff {env : Environment} {topics : List String} {response : Response}
    (answered : authorizeTopics env topics = some response) :
    AnsweredOnce response topic ↔ topic ∈ (trimmedTopics topics).take 32 := by
  unfold authorizeTopics at answered
  dsimp only at answered
  split at answered
  · cases answered
  · cases answered
    have once : (normalizeTopics env topics).count topic =
        ((trimmedTopics topics).take 32).dedup.count topic :=
      (List.mergeSort_perm _ _).count_eq topic
    rw [AnsweredOnce, count_answers, once, ← List.mem_dedup]
    by_cases listed : topic ∈ ((trimmedTopics topics).take 32).dedup
    · simp [List.count_eq_one_of_mem (List.nodup_dedup _) listed, listed]
    · simp [List.count_eq_zero.mpr listed, listed]

/-- What the two sides agree on, for any topic, any URI and any list of topics. -/
theorem topics_agree {env : Environment} (hosts : PlainHosts env) (topic uri : String)
    (topics : List String) :
    (authorizeTopic topic = none → isValidSubscriptionTopic topic = true) ∧
    (hasWildcardSegments topic = false → isValidSubscriptionTopic topic = true →
      (authorizeTopic topic = none ↔ (segmentsOf topic).head?.any isHost = true)) ∧
    ((∀ made, uriToTopic env uri = some made → authorizeTopic made = none) ↔
      ∀ parsed, env.parseUrl uri = some parsed → uriToTopic env uri ≠ none →
        isHost parsed.host.toList = true) ∧
    ∀ response, authorizeTopics env topics = some response →
      ∀ topic ∈ trimmedTopics topics,
        (AnsweredOnce response topic ↔ topic ∈ (trimmedTopics topics).take 32) :=
  ⟨valid_of_allowed, authorizeTopic_exact, uriToTopic_allowed_iff hosts,
    fun _ answered _ _ => answeredOnce_iff answered⟩

def loopback : Environment where
  parseUrl uri := if uri = "http://[::1]/a" then some ⟨"http:", "[::1]", "/a", ""⟩ else none
  decodeURIComponent := some
  toLowerCase := id
  codeUnitLe _ _ := true

theorem plainHosts_loopback : PlainHosts loopback := by
  intro uri parsed read _
  change (if uri = "http://[::1]/a" then _ else _) = _ at read
  have plain : "[::1]".toList.all (isSpace · = false) = true := by decide
  split at read
  · cases read
    exact ⟨by decide, by simpa using plain⟩
  · cases read

theorem topics_agree_loopback :
    PlainHosts loopback ∧
      ((∀ made, uriToTopic loopback "http://[::1]/a" = some made → authorizeTopic made = none) ↔
        ∀ parsed, loopback.parseUrl "http://[::1]/a" = some parsed →
          uriToTopic loopback "http://[::1]/a" ≠ none → isHost parsed.host.toList = true) :=
  ⟨plainHosts_loopback,
    (topics_agree plainHosts_loopback "[::1]/a" "http://[::1]/a" ["[::1]/a"]).2.2.1⟩

theorem loopback_refused :
    uriToTopic loopback "http://[::1]/a" = some "[::1]/a" ∧
      isValidSubscriptionTopic "[::1]/a" = true ∧ hasWildcardSegments "[::1]/a" = false ∧
      authorizeTopic "[::1]/a" ≠ none := by
  decide

end MastopodFederation.Guarantees.TopicAuthorization
