import MastopodFederation.Source.FollowersSync

/-!
# Reconciling followers

A complete collection removes exactly the followers it does not list and calls back once for
each unknown local actor it lists; anything else removes nobody. The code keeps to this exactly
when no follower is listed an even number of times or the digest is none of the two it could be
taken for, an incomplete collection lists every follower, and a complete one spells every actor
as the service does and no unknown actor in two ways.
-/
namespace MastopodFederation.Guarantees.FollowerReconciliation
open Lib.LuaTable Lib.XorDigest Source.DelayedQueue Source.FollowersSync

section
variable (env : Environment) (config : Config)

def SameUrl (uri other : String) : Prop :=
  ∃ url, env.parseUrl uri = some url ∧ env.parseUrl other = some url

def Listed (items : List String) (uri : String) : Prop := ∃ item ∈ items, SameUrl env item uri

inductive ItemUri : Json → String → Prop where
  | text (uri : String) : ItemUri (.str uri) uri
  | id {item : Entries} {uri : String} (given : item.lookup "id" = some (.str uri)) :
      ItemUri (.obj item) uri

structure WellFormed (uri : String) : Prop where
  nonempty : uri ≠ ""
  short : uri.utf8ByteSize ≤ config.maxRemoteFollowerUriBytes
  http : ∃ url, env.parseUrl uri = some url ∧ (url.protocol = "http:" ∨ url.protocol = "https:")

structure Given (response : Response) (body : Entries) (uris : List String) : Prop where
  ok : 200 ≤ response.statusCode ∧ response.statusCode < 300
  small : response.byteLength ≤ config.maxRemoteCollectionBytes
  object : response.parsed = some (.obj body)
  items : ∃ items, orElse (body.lookup "orderedItems") (body.lookup "items") = some (.arr items) ∧
    items.length ≤ config.maxRemoteCollectionItems ∧ List.Forall₂ ItemUri items uris
  wellFormed : ∀ uri ∈ uris, WellFormed env config uri

def pageId : Json → Option String
  | .str id => some id
  | .obj page => (page.lookup "id").bind itemUri
  | _ => none

def NamesOtherPage (body : Entries) : Prop :=
  ∃ key ∈ ["first", "next"], ∃ page, orElse (body.lookup key) none = some page ∧
    (pageId page = none ∨ pageId page ≠ pageId (.obj body))

def Truncated (body : Entries) (count : Nat) : Prop :=
  NamesOtherPage body ∨
    ∃ total : Rat, body.lookup "totalItems" = some (.num total) ∧ (count : Rat) < total

def Complete (response : Option Response) (uris : List String) : Prop :=
  ∃ given body, response = some given ∧ Given env config given body uris ∧
    ¬ Truncated body uris.length

def acceptedHeader (inbound : Inbound) : Option CollectionSyncParams :=
  (parseCollectionSyncHeader inbound.headerValue).filter fun params =>
    (validateCollectionSyncHeader env params
      (extractFollowersUri inbound.senderActorDoc inbound.senderActorUri)).isOk

def Describes (params : CollectionSyncParams) (followers : Finset String) : Prop :=
  params.digest = hexDigest (digestOf env.sha256 followers)

instance (params : CollectionSyncParams) (followers : Finset String) :
    Decidable (Describes env params followers) :=
  inferInstanceAs (Decidable (_ = _))

def removals (sender : String) (calls : List Outgoing) : List String :=
  calls.filterMap fun
    | .removeLocalFollow identifier remote => if remote = sender then some identifier else none
    | .onStaleRemoteEntry _ _ => none

def callbacks (sender : String) (calls : List Outgoing) : List String :=
  calls.filterMap fun
    | .onStaleRemoteEntry uri remote => if remote = sender then some uri else none
    | .removeLocalFollow _ _ => none

def OfSender (sender : String) : Outgoing → Prop
  | .removeLocalFollow _ remote | .onStaleRemoteEntry _ remote => remote = sender

abbrev urisOf (followers : List LocalActorFollowerRecord) : List String :=
  followers.map (·.actorUri)

structure Unknown (followers : List LocalActorFollowerRecord) (items : List String) (url : Url) :
    Prop where
  ours : url.origin = "https://" ++ config.domain
  listed : ∃ item ∈ items, env.parseUrl item = some url
  unknown : ∀ record ∈ followers, env.parseUrl record.actorUri ≠ some url

open Classical in
noncomputable def missing (followers : List LocalActorFollowerRecord) (items : List String) :
    List LocalActorFollowerRecord :=
  (localMap followers).filter fun record => ¬ Listed env items record.actorUri

def OnceEach (called : List String) (urls : Url → Prop) : Prop :=
  (called.map env.parseUrl).Nodup ∧ ∀ url, some url ∈ called.map env.parseUrl ↔ urls url

structure Reconciles (inbound : Inbound) (followers : List LocalActorFollowerRecord)
    (calls : List Outgoing) : Prop where
  sender : ∀ call ∈ calls, OfSender inbound.senderActorUri call
  invalid : acceptedHeader env inbound = none → calls = []
  /-- order and repetition do not matter -/
  equality : ∀ params, acceptedHeader env inbound = some params →
    (computePartialFollowersDigest env (urisOf followers) = params.digest ↔
      Describes env params (urisOf followers).toFinset)
  equal : ∀ params, acceptedHeader env inbound = some params →
    Describes env params (urisOf followers).toFinset → removals inbound.senderActorUri calls = []
  incomplete : ∀ params, acceptedHeader env inbound = some params →
    (¬ ∃ items, Complete env config (env.signedGet params.url inbound.localActorUri) items) →
      removals inbound.senderActorUri calls = []
  complete : ∀ params items, acceptedHeader env inbound = some params →
    ¬ Describes env params (urisOf followers).toFinset →
      Complete env config (env.signedGet params.url inbound.localActorUri) items →
        (removals inbound.senderActorUri calls).Perm
          ((missing env followers items).map (·.identifier)) ∧
        (config.cleansStaleEntries = true →
          OnceEach env (callbacks inbound.senderActorUri calls) (Unknown env config followers items))

/-- A complete collection spells the followers as the service does, and every unknown
actor of the service in one way. -/
structure Spelled (followers : List LocalActorFollowerRecord) (items : List String) : Prop where
  known : ∀ uri ∈ urisOf followers, Listed env items uri → uri ∈ items ∧ isLocal env config uri
  unknown : config.cleansStaleEntries = true → ∀ item ∈ items, isLocal env config item →
    item ∉ urisOf followers → ∀ other ∈ urisOf followers ++ items, SameUrl env item other →
      other = item

/-- For a valid header: repetition cancels nothing the digest could hide, and the collection
that is given does not mislead. -/
structure Fits (inbound : Inbound) (followers : List LocalActorFollowerRecord)
    (params : CollectionSyncParams) : Prop where
  counted : (∀ uri ∈ urisOf followers, Odd ((urisOf followers).count uri)) ∨
    (¬ Describes env params (urisOf followers).toFinset ∧
      ¬ Describes env params (oddly (urisOf followers)))
  truncated : ∀ response body items, ¬ Describes env params (oddly (urisOf followers)) →
    env.signedGet params.url inbound.localActorUri = some response →
      Given env config response body items → Truncated body items.length →
        ∀ uri ∈ urisOf followers, uri ∈ items ∧ isLocal env config uri
  spelled : ∀ response body items, ¬ Describes env params (oddly (urisOf followers)) →
    env.signedGet params.url inbound.localActorUri = some response →
      Given env config response body items → ¬ Truncated body items.length →
        Spelled env config followers items

end

section
variable {env : Environment} {config : Config}

theorem itemUri_eq_some {item : Json} {uri : String} : itemUri item = some uri ↔ ItemUri item uri := by
  constructor
  · intro found
    cases item with
    | str given =>
      cases found
      exact .text uri
    | obj entries =>
      simp only [itemUri] at found
      split at found
      next id given =>
        cases found
        exact .id given
      next => simp at found
    | null => simp [itemUri] at found
    | bool value => simp [itemUri] at found
    | num value => simp [itemUri] at found
    | arr items => simp [itemUri] at found
  · intro item
    cases item with
    | text => rfl
    | id given => simp [itemUri, given]

theorem isFollowerUri_iff {uri : String} :
    isFollowerUri env config.maxRemoteFollowerUriBytes uri = true ↔ WellFormed env config uri := by
  unfold isFollowerUri
  constructor
  · intro kept
    cases parsed : env.parseUrl uri with
    | none => simp [parsed] at kept
    | some url =>
      simp only [parsed, Bool.and_eq_true, Bool.or_eq_true, decide_eq_true_eq] at kept
      exact ⟨kept.1.1, kept.1.2, url, parsed, kept.2⟩
  · intro ⟨nonempty, short, url, parsed, http⟩
    simp [nonempty, short, parsed, http]

variable {uris : List String}

theorem mapM_uris {items : List Json} : (items.mapM fun item =>
      (itemUri item).filter (isFollowerUri env config.maxRemoteFollowerUriBytes)) = some uris ↔
        List.Forall₂ ItemUri items uris ∧ ∀ uri ∈ uris, WellFormed env config uri := by
  induction items generalizing uris with
  | nil => cases uris <;> simp
  | cons item items ih =>
    rw [List.mapM_cons]
    cases uris with
    | nil => simp [Option.bind_eq_some_iff]
    | cons uri uris =>
      simp only [Option.bind_eq_bind, Option.bind_eq_some_iff, Option.filter_eq_some_iff,
        itemUri_eq_some, isFollowerUri_iff, ih, List.forall₂_cons, List.forall_mem_cons]
      constructor
      · intro ⟨_, ⟨given, kept⟩, _, ⟨rest, wellFormed⟩, same⟩
        cases same
        exact ⟨⟨given, rest⟩, kept, wellFormed⟩
      · intro ⟨⟨given, rest⟩, kept, wellFormed⟩
        exact ⟨uri, ⟨given, kept⟩, uris, ⟨rest, wellFormed⟩, rfl⟩

variable {body : Entries}

theorem parse_eq_some :
    parseCompleteRemoteFollowersCollection env body config.maxRemoteCollectionItems
        config.maxRemoteFollowerUriBytes = some uris ↔
      (∃ items, orElse (body.lookup "orderedItems") (body.lookup "items") = some (.arr items) ∧
        items.length ≤ config.maxRemoteCollectionItems ∧ List.Forall₂ ItemUri items uris) ∧
      ∀ uri ∈ uris, WellFormed env config uri := by
  unfold parseCompleteRemoteFollowersCollection
  split
  next items given =>
    rw [given]
    by_cases many : items.length > config.maxRemoteCollectionItems
    · simp [many, Nat.not_le.mpr many]
    · rw [if_neg many, mapM_uris]
      constructor
      · intro ⟨rest, wellFormed⟩
        exact ⟨⟨items, rfl, Nat.not_lt.mp many, rest⟩, wellFormed⟩
      · intro ⟨⟨_, same, _, rest⟩, wellFormed⟩
        cases same
        exact ⟨rest, wellFormed⟩
  next other =>
    constructor
    · intro impossible
      cases impossible
    · intro ⟨⟨items, given, _⟩, _⟩
      exact absurd given (other items)

variable {response : Response}

theorem readBoundedJson_eq_some {maxBytes : Nat} : readBoundedJson maxBytes response = some body ↔
      (200 ≤ response.statusCode ∧ response.statusCode < 300) ∧ response.byteLength ≤ maxBytes ∧
        response.parsed = some (.obj body) := by
  unfold readBoundedJson
  split
  next refused =>
    simp only [Bool.or_eq_true, decide_eq_true_eq] at refused
    constructor
    · intro impossible
      cases impossible
    · intro ⟨⟨low, high⟩, small, _⟩
      omega
  next taken =>
    simp only [Bool.or_eq_true, decide_eq_true_eq] at taken
    have ok : (200 ≤ response.statusCode ∧ response.statusCode < 300) ∧
        response.byteLength ≤ maxBytes := by omega
    split
    next entries parsed => simp [ok, parsed]
    next other =>
      constructor
      · intro impossible
        cases impossible
      · intro ⟨_, _, parsed⟩
        exact absurd parsed (other body)

theorem fetch_eq_some {url signer : String} :
    fetchRemotePartialCollection env config url signer = some uris ↔
      ∃ response body, env.signedGet url signer = some response ∧
        Given env config response body uris := by
  simp only [fetchRemotePartialCollection, Option.bind_eq_bind, Option.bind_eq_some_iff,
    readBoundedJson_eq_some, parse_eq_some]
  constructor
  · intro ⟨response, answered, body, ⟨ok, small, object⟩, items, wellFormed⟩
    exact ⟨response, body, answered, ok, small, object, items, wellFormed⟩
  · intro ⟨response, body, answered, given⟩
    exact ⟨response, answered, body, ⟨given.ok, given.small, given.object⟩, given.items,
      given.wellFormed⟩

theorem Given.unique {other : Entries} {others : List String}
    (given : Given env config response body uris) (again : Given env config response other others) :
    body = other ∧ uris = others := by
  have bodies : body = other := by
    have object := given.object
    rw [again.object] at object
    cases object
    rfl
  subst bodies
  have first := parse_eq_some.mpr ⟨given.items, given.wellFormed⟩
  rw [parse_eq_some.mpr ⟨again.items, again.wellFormed⟩] at first
  cases first
  exact ⟨rfl, rfl⟩

theorem process_of_refused {inbound : Inbound} (refused : acceptedHeader env inbound = none) :
    processInboundSyncHeader env config inbound = ⟨[], []⟩ := by
  unfold acceptedHeader at refused
  unfold processInboundSyncHeader
  cases read : parseCollectionSyncHeader inbound.headerValue with
  | none => rfl
  | some params =>
    cases validated : validateCollectionSyncHeader env params
        (extractFollowersUri inbound.senderActorDoc inbound.senderActorUri) with
    | error reason => simp [validated]
    | ok u => simp [read, validated, Except.isOk, Except.toBool] at refused

theorem process_of_accepted {inbound : Inbound} {params : CollectionSyncParams}
    {followers : List LocalActorFollowerRecord} (accepted : acceptedHeader env inbound = some params)
    (known : getLocalFollowersOfRemote env inbound.senderActorUri = some followers) :
    processInboundSyncHeader env config inbound =
      if computePartialFollowersDigest env (urisOf followers) = params.digest then ⟨[], []⟩
      else
        match fetchRemotePartialCollection env config params.url inbound.localActorUri with
        | none => ⟨[], []⟩
        | some items => reconcile env config followers items := by
  unfold acceptedHeader at accepted
  rw [Option.filter_eq_some_iff] at accepted
  unfold processInboundSyncHeader
  rw [accepted.1]
  cases validated : validateCollectionSyncHeader env params
      (extractFollowersUri inbound.senderActorDoc inbound.senderActorUri) with
  | error reason => simp [validated, Except.isOk, Except.toBool] at accepted
  | ok u =>
    simp only [validated, known] <;> rfl

section Runners
variable {α : Type} {items : List α} {pool : Pool} {called : List α}

structure InOrder (items : List α) (pool : Pool) (called : List α) : Prop where
  first : called = items.take pool.nextIndex
  all : .returned ∈ pool.runners → items.length ≤ pool.nextIndex

theorem InOrder.turn (order : InOrder items pool called) (runner : Nat) :
    InOrder items (takeTurn items pool runner).1 (called ++ (takeTurn items pool runner).2) := by
  have grown : items.length ≤ pool.nextIndex → items.length ≤ pool.nextIndex + 1 := by omega
  unfold takeTurn
  split
  next ready =>
    split
    next item here =>
      obtain ⟨inside, at_index⟩ := List.getElem?_eq_some_iff.mp here
      constructor
      · rw [order.first, ← at_index, List.take_concat_get' items pool.nextIndex inside]
      · intro returned
        rcases List.mem_or_eq_of_mem_set returned with before | now
        · exact grown (order.all before)
        · cases now
    next finished =>
      have done : items.length ≤ pool.nextIndex := List.getElem?_eq_none_iff.mp finished
      constructor
      · rw [order.first, List.append_nil, List.take_of_length_le done,
          List.take_of_length_le (grown done)]
      · intro _
        exact grown done
  next working =>
    constructor
    · simpa using order.first
    · intro returned
      rcases List.mem_or_eq_of_mem_set returned with before | now
      · exact order.all before
      · cases now
  next => simpa using order

theorem InOrder.turns (turns : List Nat) (order : InOrder items pool called) :
    InOrder items (takeTurns items pool turns).1 (called ++ (takeTurns items pool turns).2) := by
  induction turns generalizing pool called with
  | nil => simpa [takeTurns] using order
  | cons runner turns ih =>
    have later := ih (order.turn runner)
    rw [List.append_assoc] at later
    exact later

theorem length_takeTurn (runner : Nat) :
    (takeTurn items pool runner).1.runners.length = pool.runners.length := by
  unfold takeTurn
  split
  · split <;> simp
  · simp
  · rfl

theorem length_takeTurns (turns : List Nat) :
    (takeTurns items pool turns).1.runners.length = pool.runners.length := by
  induction turns generalizing pool with
  | nil => rfl
  | cons runner turns ih =>
    have rest : (takeTurns items pool (runner :: turns)).1.runners.length =
        (takeTurn items pool runner).1.runners.length := ih
    rw [rest, length_takeTurn]

theorem calls_of_finished {concurrency : Nat} {turns : List Nat}
    (finished : (takeTurns items (startPool items concurrency) turns).1.finished = true) :
    (takeTurns items (startPool items concurrency) turns).2 = items := by
  have start : InOrder items (startPool items concurrency) [] := by
    constructor
    · rfl
    · intro returned
      have fresh := List.eq_of_mem_replicate returned
      cases fresh
  have order := start.turns turns
  rw [List.nil_append] at order
  by_cases empty : items = []
  · have none_left := order.first
    rw [empty] at none_left ⊢
    simpa using none_left
  · -- there is a runner, and it has returned
    have runners : (takeTurns items (startPool items concurrency) turns).1.runners.length =
        min items.length (max 1 concurrency) := by
      rw [length_takeTurns]
      simp [startPool]
    have some_items : 0 < items.length := List.length_pos_iff.mpr empty
    have some_runner : 0 < (takeTurns items (startPool items concurrency) turns).1.runners.length := by
      rw [runners]
      omega
    have first := List.getElem_mem some_runner
    have returned := List.all_eq_true.mp finished _ first
    rw [of_decide_eq_true returned] at first
    have through := order.first
    rw [List.take_of_length_le (order.all first)] at through
    exact through

end Runners

section Outgoing
variable {sender : String} {plan : Reconciliation} {turns : List Nat}

theorem ofSender_outgoing : ∀ call ∈ outgoing config sender plan turns, OfSender sender call := by
  intro call out
  rcases List.mem_append.mp out with removal | callback
  · obtain ⟨identifier, _, rfl⟩ := List.mem_map.mp removal
    rfl
  · obtain ⟨uri, _, rfl⟩ := List.mem_map.mp callback
    rfl

@[simp] theorem removals_outgoing :
    removals sender (outgoing config sender plan turns) = plan.removed := by
  simp [removals, outgoing, List.filterMap_append, List.filterMap_map]

theorem callbacks_outgoing (finished : (cleanUp config plan turns).1.finished = true) :
    callbacks sender (outgoing config sender plan turns) = plan.staleRemoteUris := by
  have all : (cleanUp config plan turns).2 = plan.staleRemoteUris := calls_of_finished finished
  simp [callbacks, outgoing, List.filterMap_append, List.filterMap_map, all]

theorem outgoing_nothing (finished : (cleanUp config ⟨[], []⟩ turns).1.finished = true) :
    outgoing config sender ⟨[], []⟩ turns = [] := by
  have none_called : (cleanUp config ⟨[], []⟩ turns).2 = [] := calls_of_finished finished
  simp [outgoing, none_called]

end Outgoing

section Collection
variable {followers : List LocalActorFollowerRecord} {items : List String} {uri : String}

theorem uris_setRecord {record : LocalActorFollowerRecord} :
    uri ∈ urisOf (setRecord record followers) ↔ uri = record.actorUri ∨ uri ∈ urisOf followers := by
  induction followers with
  | nil => simp [setRecord, urisOf]
  | cons first rest ih =>
    simp only [urisOf] at ih
    unfold setRecord
    split
    next same => simp [urisOf, same]
    next other =>
      simp only [urisOf, List.map_cons, List.mem_cons, ih]
      exact or_left_comm

theorem uris_localMap : uri ∈ urisOf (localMap followers) ↔ uri ∈ urisOf followers := by
  unfold localMap
  induction followers using List.reverseRecOn with
  | nil => rfl
  | append_singleton followers record ih =>
    rw [List.foldl_append, List.foldl_cons, List.foldl_nil, uris_setRecord, ih]
    simp [urisOf, or_comm]

theorem distinct_spec (uris : List String) :
    (distinct uris).Nodup ∧ ∀ uri, uri ∈ distinct uris ↔ uri ∈ uris := by
  unfold distinct
  induction uris using List.reverseRecOn with
  | nil => simp
  | append_singleton uris last ih =>
    rw [List.foldl_append, List.foldl_cons, List.foldl_nil]
    obtain ⟨nodup, members⟩ := ih
    split
    next here =>
      constructor
      · exact nodup
      · intro uri
        have listed := (members last).mp here
        rw [members, List.mem_append, List.mem_singleton]
        constructor
        · exact Or.inl
        · rintro (before | rfl)
          · exact before
          · exact listed
    next absent =>
      constructor
      · exact List.nodup_append.mpr ⟨nodup, List.nodup_singleton _, by
          intro uri before other now same
          rw [List.mem_singleton.mp now] at same
          exact absent (same ▸ before)⟩
      · intro uri
        rw [List.mem_append, members, List.mem_append]

def Kept (env : Environment) (config : Config) (items : List String) (uri : String) : Prop :=
  uri ∈ items ∧ isLocal env config uri

theorem mem_distinct_local :
    uri ∈ distinct (items.filter (isLocal env config)) ↔ Kept env config items uri := by
  rw [(distinct_spec _).2, List.mem_filter]
  rfl

theorem removed_eq_nil :
    (reconcile env config followers items).removed = [] ↔
      ∀ uri ∈ urisOf followers, Kept env config items uri := by
  unfold reconcile
  simp only [List.map_eq_nil_iff, List.filter_eq_nil_iff, mem_distinct_local, decide_not,
    Bool.not_eq_true', decide_eq_false_iff_not, not_not]
  constructor
  · intro kept uri listed
    obtain ⟨record, held, rfl⟩ := List.mem_map.mp (uris_localMap.mpr listed)
    exact kept record held
  · intro kept record held
    exact kept _ (uris_localMap.mp (List.mem_map_of_mem held))

theorem Kept.listed (parses : ∀ uri ∈ items, ∃ url, env.parseUrl uri = some url)
    (kept : Kept env config items uri) : Listed env items uri := by
  obtain ⟨url, parsed⟩ := parses uri kept.1
  exact ⟨uri, kept.1, url, parsed, parsed⟩

theorem iff_of_perm_map_filter {α β : Type} {members : List α} {wide narrow : α → Bool} {f : α → β}
    (within : ∀ x ∈ members, narrow x = true → wide x = true)
    (perm : ((members.filter wide).map f).Perm ((members.filter narrow).map f)) :
    ∀ x ∈ members, wide x = true → narrow x = true := by
  have both : (members.filter wide).filter narrow = members.filter narrow := by
    rw [List.filter_filter]
    apply List.filter_congr
    intro x member
    cases fits : narrow x with
    | false => rfl
    | true => simp [within x member fits]
  have lengths := perm.length_eq
  rw [List.length_map, List.length_map, ← both] at lengths
  intro x member is_wide
  exact List.length_filter_eq_length_iff.mp lengths.symm x (List.mem_filter.mpr ⟨member, is_wide⟩)

theorem removed_perm_missing (parses : ∀ uri ∈ items, ∃ url, env.parseUrl uri = some url) :
    (reconcile env config followers items).removed.Perm
        ((missing env followers items).map (·.identifier)) ↔
      ∀ uri ∈ urisOf followers, Listed env items uri → Kept env config items uri := by
  unfold reconcile missing
  constructor
  · intro perm uri listed found
    obtain ⟨record, held, rfl⟩ := List.mem_map.mp (uris_localMap.mpr listed)
    have agree := iff_of_perm_map_filter (by
      intro other _ absent
      simp only [decide_eq_true_eq, mem_distinct_local] at absent ⊢
      intro kept
      exact absent (kept.listed parses)) perm record held
    simp only [decide_eq_true_eq, mem_distinct_local] at agree
    exact Classical.byContradiction fun gone => agree gone found
  · intro spelled
    apply List.Perm.of_eq
    apply congrArg (List.map _)
    apply List.filter_congr
    intro record held
    rw [decide_eq_decide, mem_distinct_local, not_iff_not]
    constructor
    · exact Kept.listed parses
    · exact spelled _ (uris_localMap.mp (List.mem_map_of_mem held))

theorem SameUrl.isLocal {item other : String} (same : SameUrl env item other) :
    isLocal env config item = isLocal env config other := by
  obtain ⟨url, parsed, parsed'⟩ := same
  unfold Source.FollowersSync.isLocal
  rw [parsed, parsed']

theorem mem_stale (cleans : config.cleansStaleEntries = true) :
    uri ∈ (reconcile env config followers items).staleRemoteUris ↔
      Kept env config items uri ∧ uri ∉ urisOf followers := by
  have whole : (reconcile env config followers items).staleRemoteUris =
      (distinct (items.filter (isLocal env config))).filter
        fun uri => uri ∉ urisOf (localMap followers) := if_pos cleans
  rw [whole, List.mem_filter, mem_distinct_local, decide_eq_true_eq, uris_localMap]

theorem nodup_stale : (reconcile env config followers items).staleRemoteUris.Nodup := by
  unfold reconcile
  split
  · exact (distinct_spec _).1.filter _
  · exact List.nodup_nil

theorem onceEach_stale (cleans : config.cleansStaleEntries = true)
    (parses : ∀ uri ∈ items, ∃ url, env.parseUrl uri = some url) :
    OnceEach env (reconcile env config followers items).staleRemoteUris
        (Unknown env config followers items) ↔
      ∀ item ∈ items, isLocal env config item → item ∉ urisOf followers →
        ∀ other ∈ urisOf followers ++ items, SameUrl env item other → other = item := by
  constructor
  · intro ⟨nodup, members⟩ item given ours unknown other spelled same
    have called := (mem_stale cleans).mpr ⟨⟨given, ours⟩, unknown⟩
    obtain ⟨url, parsed, parsed'⟩ := same
    -- no record may have the URL that is called back for
    have nowhere := ((members url).mp (List.mem_map.mpr ⟨item, called, parsed⟩)).unknown
    have fresh : other ∉ urisOf followers := by
      intro known
      obtain ⟨record, held, rfl⟩ := List.mem_map.mp known
      exact nowhere record held parsed'
    rcases List.mem_append.mp spelled with known | given'
    · exact absurd known fresh
    · have ours' : isLocal env config other := by
        rw [← SameUrl.isLocal ⟨url, parsed, parsed'⟩]
        exact ours
      have called' := (mem_stale cleans).mpr ⟨⟨given', ours'⟩, fresh⟩
      exact List.inj_on_of_nodup_map nodup called' called (parsed'.trans parsed.symm)
  · intro spelled
    constructor
    · apply List.Nodup.map_on _ nodup_stale
      intro item called other called' same
      obtain ⟨⟨given, ours⟩, unknown⟩ := (mem_stale cleans).mp called
      obtain ⟨⟨given', _⟩, _⟩ := (mem_stale cleans).mp called'
      obtain ⟨url, parsed⟩ := parses item given
      exact (spelled item given ours unknown other (List.mem_append_right _ given')
        ⟨url, parsed, same ▸ parsed⟩).symm
    · intro url
      rw [List.mem_map]
      constructor
      · intro ⟨item, called, parsed⟩
        obtain ⟨⟨given, ours⟩, unknown⟩ := (mem_stale cleans).mp called
        constructor
        · simpa [isLocal, parsed] using ours
        · exact ⟨item, given, parsed⟩
        · intro record held parsed'
          have listed : record.actorUri ∈ urisOf followers := List.mem_map_of_mem held
          have one := spelled item given ours unknown _ (List.mem_append_left _ listed)
            ⟨url, parsed, parsed'⟩
          exact unknown (one ▸ listed)
      · intro entry
        obtain ⟨item, given, parsed⟩ := entry.listed
        have ours : isLocal env config item := by simpa [isLocal, parsed] using entry.ours
        refine ⟨item, (mem_stale cleans).mpr ⟨⟨given, ours⟩, ?_⟩, parsed⟩
        intro known
        obtain ⟨record, held, rfl⟩ := List.mem_map.mp known
        exact entry.unknown record held parsed

end Collection

section Digest
variable {params : CollectionSyncParams} {uris : List String}

theorem hexDigest_injective : Function.Injective hexDigest := fun _ _ same =>
  hex_injective (n := 64) same

theorem digest_eq_iff_describes :
    computePartialFollowersDigest env uris = params.digest ↔ Describes env params (oddly uris) := by
  unfold computePartialFollowersDigest Describes
  rw [digest_eq_digestOf]
  exact eq_comm

theorem describes_agree (independent : Independent env.sha256 uris.toFinset) :
    (Describes env params (oddly uris) ↔ Describes env params uris.toFinset) ↔
      (∀ uri ∈ uris, Odd (uris.count uri)) ∨
        (¬ Describes env params uris.toFinset ∧ ¬ Describes env params (oddly uris)) := by
  rw [← oddly_eq_toFinset]
  constructor
  · intro agree
    by_cases described : Describes env params uris.toFinset
    · left
      have both : hexDigest (digestOf env.sha256 (oddly uris)) =
          hexDigest (digestOf env.sha256 uris.toFinset) :=
        (agree.mpr described).symm.trans described
      exact independent _ oddly_subset _ (Finset.Subset.refl _) (hexDigest_injective both)
    · exact Or.inr ⟨described, fun other => described (agree.mp other)⟩
  · rintro (same | ⟨neither, nor⟩)
    · rw [same]
    · exact ⟨fun other => absurd other nor, fun described => absurd described neither⟩

end Digest

section
variable {inbound : Inbound} {followers : List LocalActorFollowerRecord}
  {params : CollectionSyncParams} {turns : List Nat} {items : List String}

theorem Given.parses {response : Response} {body : Entries}
    (given : Given env config response body items) :
    ∀ uri ∈ items, ∃ url, env.parseUrl uri = some url := by
  intro uri listed
  obtain ⟨url, parsed, _⟩ := (given.wellFormed uri listed).http
  exact ⟨url, parsed⟩

theorem Complete.of_given {response : Response} {body : Entries} {others : List String}
    (given : Given env config response body items)
    (complete : Complete env config (some response) others) :
    others = items ∧ ¬ Truncated body items.length := by
  obtain ⟨_, body', answered, given', whole⟩ := complete
  cases answered
  obtain ⟨bodies, same⟩ := given.unique given'
  subst bodies same
  exact ⟨rfl, whole⟩

theorem plan_of_described (accepted : acceptedHeader env inbound = some params)
    (known : getLocalFollowersOfRemote env inbound.senderActorUri = some followers)
    (described : Describes env params (oddly (urisOf followers))) :
    processInboundSyncHeader env config inbound = ⟨[], []⟩ := by
  rw [process_of_accepted accepted known, if_pos (digest_eq_iff_describes.mpr described)]

theorem plan_of_given {response : Response} {body : Entries}
    (accepted : acceptedHeader env inbound = some params)
    (known : getLocalFollowersOfRemote env inbound.senderActorUri = some followers)
    (differs : ¬ Describes env params (oddly (urisOf followers)))
    (answered : env.signedGet params.url inbound.localActorUri = some response)
    (given : Given env config response body items) :
    processInboundSyncHeader env config inbound = reconcile env config followers items := by
  rw [process_of_accepted accepted known, if_neg (mt digest_eq_iff_describes.mp differs),
    fetch_eq_some.mpr ⟨response, body, answered, given⟩]

theorem plan_cases (accepted : acceptedHeader env inbound = some params)
    (known : getLocalFollowersOfRemote env inbound.senderActorUri = some followers)
    (differs : ¬ Describes env params (oddly (urisOf followers))) :
    processInboundSyncHeader env config inbound = ⟨[], []⟩ ∨
      ∃ response body items, env.signedGet params.url inbound.localActorUri = some response ∧
        Given env config response body items := by
  rw [process_of_accepted accepted known, if_neg (mt digest_eq_iff_describes.mp differs)]
  cases fetched : fetchRemotePartialCollection env config params.url inbound.localActorUri with
  | none => exact Or.inl rfl
  | some items =>
    obtain ⟨response, body, answered, given⟩ := fetch_eq_some.mp fetched
    exact Or.inr ⟨response, body, items, answered, given⟩

section Accepted
variable (accepted : acceptedHeader env inbound = some params)
  (known : getLocalFollowersOfRemote env inbound.senderActorUri = some followers)
  (independent : Independent env.sha256 (urisOf followers).toFinset)
  (finished :
    (cleanUp config (processInboundSyncHeader env config inbound) turns).1.finished = true)
include accepted known independent finished

theorem fits_of_reconciles
    (reconciles : Reconciles env config inbound followers
      (outgoing config inbound.senderActorUri (processInboundSyncHeader env config inbound) turns)) :
    Fits env config inbound followers params := by
  have agree := digest_eq_iff_describes.symm.trans (reconciles.equality params accepted)
  constructor
  · exact (describes_agree independent).mp agree
  · intro response body items differs answered given truncated
    have none_removed := reconciles.incomplete params accepted (by
      intro ⟨others, complete⟩
      rw [answered] at complete
      exact (complete.of_given given).2 truncated)
    rw [removals_outgoing, plan_of_given accepted known differs answered given] at none_removed
    exact removed_eq_nil.mp none_removed
  · intro response body items differs answered given whole
    have complete : Complete env config (env.signedGet params.url inbound.localActorUri) items :=
      ⟨response, body, answered, given, whole⟩
    have exactly := reconciles.complete params items accepted (mt agree.mpr differs) complete
    rw [removals_outgoing, callbacks_outgoing finished,
      plan_of_given accepted known differs answered given] at exactly
    constructor
    · exact (removed_perm_missing given.parses).mp exactly.1
    · intro cleans
      exact (onceEach_stale cleans given.parses).mp (exactly.2 cleans)

theorem reconciles_of_fits (fits : Fits env config inbound followers params) :
    Reconciles env config inbound followers
      (outgoing config inbound.senderActorUri (processInboundSyncHeader env config inbound)
        turns) := by
  have agree := (describes_agree independent).mpr fits.counted
  constructor
  · exact ofSender_outgoing
  · intro refused
    rw [accepted] at refused
    cases refused
  · intro others accepted'
    cases accepted.symm.trans accepted'
    exact digest_eq_iff_describes.trans agree
  · intro others accepted' described
    cases accepted.symm.trans accepted'
    rw [removals_outgoing, plan_of_described accepted known (agree.mpr described)]
  · intro others accepted' incomplete
    cases accepted.symm.trans accepted'
    rw [removals_outgoing]
    by_cases described : Describes env params (oddly (urisOf followers))
    · rw [plan_of_described accepted known described]
    · rcases plan_cases accepted known described with nothing | ⟨response, body, items, answered, given⟩
      · rw [nothing]
      · rw [plan_of_given accepted known described answered given, removed_eq_nil]
        have truncated : Truncated body items.length := Classical.byContradiction fun whole =>
          incomplete ⟨items, response, body, answered, given, whole⟩
        exact fits.truncated response body items described answered given truncated
  · intro others items accepted' differs complete
    cases accepted.symm.trans accepted'
    obtain ⟨response, body, answered, given, whole⟩ := complete
    have spelled := fits.spelled response body items (mt agree.mp differs) answered given whole
    rw [removals_outgoing, callbacks_outgoing finished,
      plan_of_given accepted known (mt agree.mp differs) answered given]
    constructor
    · exact (removed_perm_missing given.parses).mpr spelled.known
    · intro cleans
      exact (onceEach_stale cleans given.parses).mpr (spelled.unknown cleans)

end Accepted

/-- A synchronization header reconciles exactly under the condition on what the sender
serves and the service has. -/
theorem reconciles_iff_fits (inbound : Inbound) (followers : List LocalActorFollowerRecord)
    (turns : List Nat)
    (known : getLocalFollowersOfRemote env inbound.senderActorUri = some followers)
    (independent : Independent env.sha256 (urisOf followers).toFinset)
    (finished :
      (cleanUp config (processInboundSyncHeader env config inbound) turns).1.finished = true) :
    Reconciles env config inbound followers
        (outgoing config inbound.senderActorUri (processInboundSyncHeader env config inbound)
          turns) ↔
      ∀ params, acceptedHeader env inbound = some params →
        Fits env config inbound followers params := by
  cases accepted : acceptedHeader env inbound with
  | none =>
    have nothing : processInboundSyncHeader env config inbound = ⟨[], []⟩ :=
      process_of_refused accepted
    constructor
    · intro _ params impossible
      cases impossible
    · intro _
      rw [nothing] at finished ⊢
      rw [outgoing_nothing finished]
      constructor <;> simp [accepted, removals]
  | some params =>
    constructor
    · intro reconciles other same
      cases same
      exact fits_of_reconciles accepted known independent finished reconciles
    · intro fits
      exact reconciles_of_fits accepted known independent finished (fits params rfl)

end

end

section Example

def alice : String := "https://p.org/alice"
def aliceInCapitals : String := "https://P.org/alice"
def dana : String := "https://p.org/dana"
def bob : String := "https://r.org/bob"
def bobFollowers : String := "https://r.org/f"

def urlOf (href origin : String) : Url := ⟨href, "https:", origin, "", ""⟩

def urls : List (String × Url) :=
  [(alice, urlOf alice "https://p.org"), (aliceInCapitals, urlOf alice "https://p.org"),
    (dana, urlOf dana "https://p.org"), (bobFollowers, urlOf bobFollowers "https://r.org")]

def hashOf (uri : String) : BitVec 256 := if uri = alice then 1#256 else 2#256

def actorRecord (uri : String) : Json :=
  .obj [("actorUri", .str uri), ("identifier", .str "alice")]

def serving (localActors : List Json) (collection : Entries) : Environment where
  parseUrl text := urls.lookup text
  sha256 := hashOf
  trim := id
  localFollowersOfRemote _ := some ⟨200, 100, some (.obj [("localActors", .arr localActors)])⟩
  signedGet _ _ := some ⟨200, 100, some (.obj collection)⟩

def service : Config := ⟨"p.org", 65536, 10, 256, 2, true⟩

def header (digest : String) : Inbound :=
  ⟨s!"collectionId=\x22{bobFollowers}\x22, url=\x22{bobFollowers}\x22, digest=\x22{digest}\x22",
    bob, [("followers", .str bobFollowers)], alice⟩

def aliceRecord : LocalActorFollowerRecord := ⟨alice, "alice"⟩

def firstPage : Entries :=
  [("orderedItems", .arr []), ("totalItems", .num 1), ("next", .str "https://r.org/2")]

def capitals : Entries := [("orderedItems", .arr [.str aliceInCapitals])]

def asListed : Entries := [("orderedItems", .arr [.str alice])]

def danas : Entries := [("orderedItems", .arr [.str dana])]

theorem independent_alice : Independent hashOf {alice} := by decide +kernel

def paramsOf (digest : String) : CollectionSyncParams := ⟨bobFollowers, bobFollowers, digest⟩

def ReconcilesFor (localActors : List Json) (collection : Entries) (digest : String)
    (followers : List LocalActorFollowerRecord) (turns : List Nat) : Prop :=
  Reconciles (serving localActors collection) service (header digest) followers
    (outgoing service bob
      (processInboundSyncHeader (serving localActors collection) service (header digest)) turns)

theorem whole_of_unpaged {body : Entries} {count : Nat} (first : body.lookup "first" = none)
    (next : body.lookup "next" = none) (total : body.lookup "totalItems" = none) :
    ¬ Truncated body count := by
  rintro (⟨key, among, page, found, _⟩ | ⟨number, found, _⟩)
  · simp only [List.mem_cons, List.not_mem_nil, or_false] at among
    rcases among with rfl | rfl
    · simp [first, orElse] at found
    · simp [next, orElse] at found
  · rw [total] at found
    cases found

/-- A complete collection of an unknown actor: alice is removed, and the callback is called
once. -/
theorem reconciles_with_danas :
    ReconcilesFor [actorRecord alice] danas "0" [aliceRecord] [0, 0, 0] := by
  have parsed : (serving [actorRecord alice] danas).parseUrl dana =
      some (urlOf dana "https://p.org") := by decide
  have given : Given (serving [actorRecord alice] danas) service
      ⟨200, 100, some (.obj danas)⟩ danas [dana] := by
    refine ⟨by decide, by decide, rfl, ⟨_, rfl, by decide, .cons (.text _) .nil⟩, ?_⟩
    intro uri listed
    rw [List.mem_singleton.mp listed]
    exact ⟨by decide, by decide, _, parsed, Or.inr rfl⟩
  have whole : ¬ Truncated danas [dana].length := whole_of_unpaged rfl rfl rfl
  have other : ¬ SameUrl (serving [actorRecord alice] danas) dana alice := by
    intro ⟨url, first, second⟩
    exact absurd (first.trans second.symm) (by decide)
  apply (reconciles_iff_fits (header "0") [aliceRecord] [0, 0, 0] (by decide +kernel)
    independent_alice (by decide +kernel)).mpr
  intro params accepted
  have valid : acceptedHeader (serving [actorRecord alice] danas) (header "0") =
      some (paramsOf "0") := by decide +kernel
  cases valid.symm.trans accepted
  constructor
  · exact Or.inl (by decide)
  · intro response body items _ answered found truncated
    cases answered
    obtain ⟨rfl, rfl⟩ := given.unique found
    exact absurd truncated whole
  · intro response body items _ answered found _
    cases answered
    obtain ⟨rfl, rfl⟩ := given.unique found
    constructor
    · intro uri known ⟨item, listed, same⟩
      rw [List.mem_singleton.mp listed, List.mem_singleton.mp known] at same
      exact absurd same other
    · intro _ item listed _ _ spelled among same
      rw [List.mem_singleton.mp listed] at same ⊢
      rcases List.mem_append.mp among with known | again
      · rw [List.mem_singleton.mp known] at same
        exact absurd same other
      · exact List.mem_singleton.mp again

/-- The guarantee fails: alice is removed though the page says that it is not the whole
collection, she is removed where the collection spells her host in capitals, and she is
removed though the digest is that of the set of followers, when she is returned twice. -/
theorem follower_removed_wrongly :
    ¬ ReconcilesFor [actorRecord alice] firstPage "0" [aliceRecord] [] ∧
      ¬ ReconcilesFor [actorRecord alice] capitals "0" [aliceRecord] [0, 0, 0] ∧
        ¬ ReconcilesFor [actorRecord alice, actorRecord alice] asListed (hexDigest 1#256)
          [aliceRecord, aliceRecord] [] := by
  refine ⟨?_, ?_, ?_⟩
  · intro reconciles
    have fits : Fits (serving [actorRecord alice] firstPage) service (header "0") [aliceRecord]
        (paramsOf "0") :=
      fits_of_reconciles (by decide +kernel) (by decide +kernel) independent_alice
        (by decide +kernel) reconciles
    have given : Given (serving [actorRecord alice] firstPage) service
        ⟨200, 100, some (.obj firstPage)⟩ firstPage [] :=
      ⟨by decide, by decide, rfl, ⟨[], rfl, by decide, .nil⟩, by simp⟩
    have kept := fits.truncated _ firstPage [] (by decide +kernel) rfl given
      (Or.inl ⟨"next", by decide, _, rfl, Or.inr (by decide)⟩) alice (by decide)
    exact absurd kept.1 (by decide)
  · intro reconciles
    have fits : Fits (serving [actorRecord alice] capitals) service (header "0") [aliceRecord]
        (paramsOf "0") :=
      fits_of_reconciles (by decide +kernel) (by decide +kernel) independent_alice
        (by decide +kernel) reconciles
    have parsed : (serving [actorRecord alice] capitals).parseUrl aliceInCapitals =
        some (urlOf alice "https://p.org") := by decide
    have given : Given (serving [actorRecord alice] capitals) service
        ⟨200, 100, some (.obj capitals)⟩ capitals [aliceInCapitals] := by
      refine ⟨by decide, by decide, rfl, ⟨_, rfl, by decide, .cons (.text _) .nil⟩, ?_⟩
      intro uri listed
      rw [List.mem_singleton.mp listed]
      exact ⟨by decide, by decide, _, parsed, Or.inr rfl⟩
    have spelled := fits.spelled _ capitals [aliceInCapitals] (by decide +kernel) rfl given
      (whole_of_unpaged rfl rfl rfl)
    have kept := spelled.known alice (by decide) ⟨aliceInCapitals, by decide, _, parsed, by decide⟩
    exact absurd kept.1 (by decide)
  · intro reconciles
    have fits : Fits (serving [actorRecord alice, actorRecord alice] asListed) service
        (header (hexDigest 1#256)) [aliceRecord, aliceRecord] (paramsOf (hexDigest 1#256)) :=
      fits_of_reconciles (by decide +kernel) (by decide +kernel) independent_alice
        (by decide +kernel) reconciles
    rcases fits.counted with odd | ⟨neither, _⟩
    · exact absurd (odd alice (by decide)) (by decide)
    · have same : digestOf hashOf {alice} = 1#256 := by decide
      exact neither (congrArg hexDigest same.symm)

end Example

end MastopodFederation.Guarantees.FollowerReconciliation
