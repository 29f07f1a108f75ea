import MastopodFederation.Source.RecipientResolution
import MastopodFederation.Lib.BreadthFirst

/-!
# Whom the resolution reaches

`Wanted` are the actors that an activity is addressed to, and the members of the sender's
followers collection however it is served. `Reached` are those that the resolution looks at:
recipients given as texts that `normalizeUrl` accepts, mentions, and the items of the first ten
documents of the collection in breadth-first order.
-/
namespace MastopodFederation.Guarantees.AddressedRecipients
open Lib.LuaTable (Json)
open Lib.BreadthFirst
open Lib.Trimmed (trimmed trimmed_trimmed)
open Source.SigningService (property whitespace)
open Source.RecipientResolution

section Spec
variable (env : Environment)

def nameOf : Json → Option String
  | .str text => some text
  | .obj entries =>
    match entries.lookup "id" with
    | some (.str id) => some id
    | _ => none
  | _ => none

def canonical (text : String) : Option String := (env.urls.parse (trim text)).map Url.href

inductive Listed : Json → Json → Prop
  | own {entries : List (String × Json)} {item : Json} (listed : item ∈ directItems entries) :
      Listed (.obj entries) item
  | embedded {payload page item : Json} (first : property payload "first" = some page)
      (inner : Listed page item) : Listed payload item
  | linked {payload page item : Json} {key link url : String} (known : key ∈ ["next", "first"])
      (given : property payload key = some (.str link)) (leads : canonical env link = some url)
      (fetched : env.fetchDocument url = some page) (inner : Listed page item) :
      Listed payload item

section Actor
variable (actorUri : String) (actor : Option Json)

def Follower (u : String) : Prop :=
  ∃ start ∈ buildFollowersCollectionUris env actorUri actor,
    ∃ payload, env.fetchDocument start = some payload ∧
      ∃ item, Listed env payload item ∧
        ∃ text, getActorUriFromCollectionItem item = some (.str text) ∧ canonical env text = some u ∧
          isPublicAudience u = false

variable (activity : Json)

def Addressed (u : String) : Prop :=
  ∃ value ∈ addressed activity, ∃ text, nameOf value = some text ∧ isPublicAudience text = false ∧
    canonical env text = some u

def Mentioned (u : String) : Prop :=
  ∃ entries, .obj entries ∈ tagsOf activity ∧ entries.lookup "type" = some (.str "Mention") ∧
    ∃ text, entries.lookup "href" = some (.str text) ∧ canonical env text = some u ∧
      isPublicAudience u = false

inductive Wanted (u : String) : Prop
  | addressed (given : Addressed env activity u)
      (actor : u ∉ buildFollowersCollectionUris env actorUri actor)
  | mentioned (given : Mentioned env activity u)
      (actor : u ∉ buildFollowersCollectionUris env actorUri actor)
  | follower (collection : ∃ f ∈ buildFollowersCollectionUris env actorUri actor,
      Addressed env activity f) (given : Follower env actorUri actor u)

def Delivers (u url : String) : Prop :=
  env.isLocal u = some false ∧ ∃ actorDoc inboxUrl, env.actorGet u = some actorDoc ∧
    normalizeUrl env (property actorDoc "inbox") = some inboxUrl ∧
    url = (normalizeUrl env (property (property actorDoc "endpoints") "sharedInbox")).getD inboxUrl

def AddressedByText (u : String) : Prop :=
  ∃ text, .str text ∈ addressed activity ∧ isPublicAudience text = false ∧
    normalizeUrl env (some (.str text)) = some u

def nextPages (url : String) : List String := (env.fetchDocument url).elim [] (linksOf env)

def firstPages : List String :=
  order (nextPages env) maxPages (buildFollowersCollectionUris env actorUri actor) []

def ListedFollower (u : String) : Prop :=
  ∃ page ∈ firstPages env actorUri actor, ∃ payload, env.fetchDocument page = some payload ∧
    ∃ item ∈ extractCollectionItems payload, followerOf env actorUri item = some u

inductive Reached (u : String) : Prop
  | addressed (given : AddressedByText env activity u)
      (actor : u ∉ buildFollowersCollectionUris env actorUri actor)
  | mentioned (given : ∃ tag ∈ tagsOf activity, mentionOf env tag = some u)
      (actor : u ∉ buildFollowersCollectionUris env actorUri actor)
  | follower (collection : ∃ f ∈ buildFollowersCollectionUris env actorUri actor,
      AddressedByText env activity f) (given : ListedFollower env actorUri actor u)

end Actor
end Spec

theorem trim_trim (text : String) : trim (trim text) = trim text := by
  unfold trim
  rw [String.toList_ofList, trimmed_trimmed]

theorem isPublicAudience_trim (text : String) : isPublicAudience (trim text) = isPublicAudience text := by
  unfold isPublicAudience
  rw [trim_trim]

section Urls
variable {env : Environment} {u : String}

theorem normalizeUrl_ok {value : Option Json} (accepted : normalizeUrl env value = some u) :
    ∃ text url, value = some (.str text) ∧ env.urls.parse (trim text) = some url ∧ url.href = u ∧
      (url.protocol = "https:" ∨ url.hostname ∈ localhostHostnames) := by
  unfold normalizeUrl at accepted
  split at accepted
  · rename_i text
    split at accepted
    · cases accepted
    split at accepted
    · cases accepted
    · rename_i url parsed
      split at accepted
      · rename_i secure
        cases accepted
        exact ⟨text, url, rfl, parsed, rfl, .inl secure⟩
      split at accepted
      · rename_i here
        cases accepted
        exact ⟨text, url, rfl, parsed, rfl, .inr here.2⟩
      · cases accepted
  · cases accepted

theorem normalizeUrl_canonical {text : String} (accepted : normalizeUrl env (some (.str text)) = some u) :
    canonical env text = some u := by
  obtain ⟨given, url, same, parsed, href, -⟩ := normalizeUrl_ok accepted
  cases same
  rw [canonical, parsed, ← href]
  rfl

theorem normalizeUrl_trim (text : String) :
    normalizeUrl env (some (.str (trim text))) = normalizeUrl env (some (.str text)) := by
  unfold normalizeUrl
  dsimp only
  rw [trim_trim]

theorem mem_add {value : String} {set : List String} : u ∈ add value set ↔ u ∈ set ∨ u = value := by
  unfold add
  split
  · rename_i listed
    exact ⟨.inl, fun either => either.elim id fun same => same ▸ listed⟩
  · simp

theorem mem_foldl_add {values set : List String} :
    u ∈ values.foldl (fun set value => add value set) set ↔ u ∈ set ∨ u ∈ values := by
  induction values generalizing set with
  | nil => simp
  | cons value rest ih => rw [List.foldl_cons, ih, mem_add, List.mem_cons, or_assoc]

theorem followersUri_ok {actorUri : String} {actor : Option Json} {f : String}
    (listed : f ∈ buildFollowersCollectionUris env actorUri actor) :
    ∃ value, normalizeUrl env value = some f := by
  unfold buildFollowersCollectionUris at listed
  dsimp only at listed
  cases derived : normalizeUrl env (some (.str (withoutSlash actorUri ++ "/followers"))) with
  | none =>
    cases named : normalizeUrl env (property actor "followers") with
    | none => simp [derived, named] at listed
    | some g =>
      simp only [derived, named, Option.elim_none, Option.elim_some, mem_add] at listed
      rcases listed with none_listed | rfl
      · cases none_listed
      · exact ⟨_, named⟩
  | some g =>
    cases named : normalizeUrl env (property actor "followers") with
    | none =>
      simp only [derived, named, Option.elim_none, Option.elim_some, mem_add] at listed
      rcases listed with none_listed | rfl
      · cases none_listed
      · exact ⟨_, derived⟩
    | some h =>
      simp only [derived, named, Option.elim_some, mem_add] at listed
      rcases listed with (none_listed | rfl) | rfl
      · cases none_listed
      · exact ⟨_, named⟩
      · exact ⟨_, derived⟩

end Urls

section Recipients
variable {env : Environment} {activity : Json} {actorUri : String} {actor : Option Json} {u : String}

theorem followersUri_normal {text : String} (filled : trim text ≠ "")
    (listed : trim text ∈ buildFollowersCollectionUris env actorUri actor) :
    normalizeUrl env (some (.str text)) = some (trim text) := by
  obtain ⟨value, accepted⟩ := followersUri_ok listed
  unfold normalizeUrl at accepted ⊢
  dsimp only
  rw [if_neg filled]
  split at accepted
  · rename_i given
    split at accepted
    · cases accepted
    cases parsed : env.urls.parse (trim given) with
    | none =>
      rw [parsed] at accepted
      cases accepted
    | some url =>
      rw [parsed] at accepted
      dsimp only at accepted
      have href : url.href = trim text := by
        split at accepted
        · exact Option.some.inj accepted
        split at accepted
        · exact Option.some.inj accepted
        · cases accepted
      have again := env.urls.reparse parsed
      rw [href] at again
      rw [again]
      exact accepted
  · cases accepted

theorem recipientOf_iff {value : Json} :
    recipientOf env (buildFollowersCollectionUris env actorUri actor) value = some u ↔
      ∃ text, value = .str text ∧ isPublicAudience text = false ∧
        normalizeUrl env (some (.str text)) = some u := by
  have blank (text : String) (empty : trim text = "") : normalizeUrl env (some (.str text)) = none := by
    unfold normalizeUrl
    dsimp only
    rw [if_pos empty]
  constructor
  · intro named
    unfold recipientOf at named
    split at named
    · rename_i text
      rw [isPublicAudience_trim, normalizeUrl_trim] at named
      split at named
      · cases named
      rename_i open_text
      rw [not_or, Bool.not_eq_true] at open_text
      refine ⟨text, rfl, open_text.2, ?_⟩
      split at named
      · rename_i listed
        rw [followersUri_normal open_text.1 listed]
        exact named
      · exact named
    · cases named
  · rintro ⟨text, rfl, unlisted, accepted⟩
    have filled : trim text ≠ "" := fun empty => by
      rw [blank text empty] at accepted
      cases accepted
    simp only [recipientOf, isPublicAudience_trim, normalizeUrl_trim, filled, unlisted, false_or,
      Bool.false_eq_true, if_false]
    split
    · rename_i listed
      rw [← accepted, followersUri_normal filled listed]
    · exact accepted

theorem mem_extractMentionUris :
    u ∈ extractMentionUris env activity ↔ ∃ tag ∈ tagsOf activity, mentionOf env tag = some u := by
  simp [extractMentionUris, mem_foldl_add]

theorem mem_extractRecipientUris :
    u ∈ extractRecipientUris env activity actorUri actor ↔
      AddressedByText env activity u ∨
        (∃ tag ∈ tagsOf activity, mentionOf env tag = some u) ∧
          u ∉ buildFollowersCollectionUris env actorUri actor := by
  simp only [extractRecipientUris, mem_foldl_add, List.not_mem_nil, false_or, List.mem_append,
    List.mem_filterMap, recipientOf_iff, List.mem_filter, mem_extractMentionUris,
    decide_eq_true_eq, AddressedByText]
  apply or_congr_left
  constructor
  · rintro ⟨value, listed, text, rfl, unlisted, accepted⟩
    exact ⟨text, listed, unlisted, accepted⟩
  · rintro ⟨text, listed, unlisted, accepted⟩
    exact ⟨_, listed, text, rfl, unlisted, accepted⟩

/-- The actors that are resolved: explicit ones, and followers where the collection is among the
recipients. -/
theorem mem_actorRecipients :
    u ∈ actorRecipients env activity actorUri actor ↔
      u ∈ extractRecipientUris env activity actorUri actor ∧
          u ∉ buildFollowersCollectionUris env actorUri actor ∨
        (∃ f ∈ buildFollowersCollectionUris env actorUri actor, AddressedByText env activity f) ∧
          u ∈ fetchFollowersActorUris env actorUri actor := by
  simp only [actorRecipients, mem_foldl_add, List.not_mem_nil, false_or, List.mem_flatMap]
  constructor
  · rintro ⟨uri, listed, inside⟩
    split at inside
    · rename_i collection
      refine .inr ⟨⟨uri, collection, ?_⟩, inside⟩
      rcases mem_extractRecipientUris.mp listed with given | ⟨-, outside⟩
      · exact given
      · exact absurd collection outside
    · rename_i outside
      rw [List.mem_singleton.mp inside]
      exact .inl ⟨listed, outside⟩
  · rintro (⟨listed, outside⟩ | ⟨⟨f, collection, given⟩, inside⟩)
    · refine ⟨u, listed, ?_⟩
      rw [if_neg outside]
      exact List.mem_singleton_self u
    · refine ⟨f, mem_extractRecipientUris.mpr (.inl given), ?_⟩
      rw [if_pos collection]
      exact inside

end Recipients

section Walk
variable {env : Environment} {actorUri : String} {members : List String}

structure Found (members actorUris : List String) : Prop where
  distinct : actorUris.Nodup
  inside : ∀ u ∈ actorUris, u ∈ members

variable {actorUris : List String}

theorem Found.all (found : Found members actorUris)
    (few : members.length ≤ maxFollowerActors) (enough : maxFollowerActors ≤ actorUris.length) :
    ∀ u ∈ members, u ∈ actorUris := by
  have part : actorUris.Subperm members := List.subperm_of_subset found.distinct found.inside
  have same : actorUris.Perm members := part.perm_of_length_le (few.trans enough)
  exact fun u member => same.mem_iff.mpr member

theorem Found.add {u : String} (found : Found members actorUris)
    (member : u ∈ members) : Found members (add u actorUris) := by
  refine ⟨?_, fun v listed => ?_⟩
  · unfold Source.RecipientResolution.add
    split
    · exact found.distinct
    · rename_i fresh
      exact List.nodup_append.mpr ⟨found.distinct, by simp, fun a listed b other same =>
        fresh (by rwa [← List.mem_singleton.mp other, ← same])⟩
  · rcases mem_add.mp listed with before | rfl
    · exact found.inside v before
    · exact member

theorem addItems_found (few : members.length ≤ maxFollowerActors) {items : List Json}
    (found : Found members actorUris)
    (inside : ∀ item ∈ items, ∀ u, followerOf env actorUri item = some u → u ∈ members) :
    Found members (addItems env actorUri items actorUris) ∧
      ∀ u, u ∈ addItems env actorUri items actorUris ↔
        u ∈ actorUris ∨ ∃ item ∈ items, followerOf env actorUri item = some u := by
  induction items generalizing actorUris with
  | nil => exact ⟨found, by simp [addItems]⟩
  | cons item rest ih =>
    have later : ∀ item ∈ rest, ∀ u, followerOf env actorUri item = some u → u ∈ members :=
      fun item listed => inside item (List.mem_cons_of_mem _ listed)
    have added : Found members ((followerOf env actorUri item).elim actorUris (add · actorUris)) ∧
        ∀ u, u ∈ (followerOf env actorUri item).elim actorUris (add · actorUris) ↔
          u ∈ actorUris ∨ followerOf env actorUri item = some u := by
      cases named : followerOf env actorUri item with
      | none => exact ⟨found, by simp⟩
      | some v =>
        refine ⟨found.add (inside item List.mem_cons_self v named), fun u => ?_⟩
        simp only [Option.elim_some, mem_add, Option.some.injEq, eq_comm]
    obtain ⟨found_next, mem_next⟩ := added
    unfold addItems
    dsimp only
    split
    · rename_i enough
      refine ⟨found_next, fun u => ?_⟩
      rw [mem_next]
      constructor
      · rintro (before | named)
        · exact .inl before
        · exact .inr ⟨item, List.mem_cons_self, named⟩
      · rintro (before | ⟨other, listed, named⟩)
        · exact .inl before
        · exact (mem_next u).mp (found_next.all few enough u (inside other listed u named))
    · obtain ⟨found_last, mem_last⟩ := ih found_next later
      refine ⟨found_last, fun u => ?_⟩
      rw [mem_last, mem_next]
      simp only [List.mem_cons, exists_eq_or_imp, or_assoc]

theorem mem_walk (few : members.length ≤ maxFollowerActors) {pages : Nat} {queue seen : List String}
    (found : Found members actorUris)
    (inside : ∀ page ∈ order (nextPages env) pages queue seen, ∀ payload,
      env.fetchDocument page = some payload → ∀ item ∈ extractCollectionItems payload,
        ∀ u, followerOf env actorUri item = some u → u ∈ members) (u : String) :
    u ∈ walk env actorUri pages queue seen actorUris ↔
      u ∈ actorUris ∨ ∃ page ∈ order (nextPages env) pages queue seen, ∃ payload,
        env.fetchDocument page = some payload ∧ ∃ item ∈ extractCollectionItems payload,
          followerOf env actorUri item = some u := by
  induction pages generalizing queue seen actorUris with
  | zero => simp [walk, order]
  | succ pages ih =>
    unfold walk
    split
    · rename_i enough
      constructor
      · exact .inl
      · rintro (before | ⟨page, listed, payload, fetched, item, among, named⟩)
        · exact before
        · exact found.all few enough u (inside page listed payload fetched item among u named)
    · unfold order at inside ⊢
      cases split : queue.dropWhile (· ∈ seen) with
      | nil => simp
      | cons url rest =>
        simp only [split] at inside ⊢
        have here := inside url List.mem_cons_self
        have later : ∀ page ∈ order (nextPages env) pages
            (rest ++ (nextPages env url).filter (· ∉ url :: seen)) (url :: seen), ∀ payload,
            env.fetchDocument page = some payload → ∀ item ∈ extractCollectionItems payload,
              ∀ u, followerOf env actorUri item = some u → u ∈ members :=
          fun page listed => inside page (List.mem_cons_of_mem _ listed)
        cases fetched : env.fetchDocument url with
        | none =>
          have no_links : nextPages env url = [] := by simp [nextPages, fetched]
          simp only [no_links, List.filter_nil, List.append_nil] at later ⊢
          rw [ih found later]
          simp [fetched]
        | some payload =>
          have links : nextPages env url = linksOf env payload := by simp [nextPages, fetched]
          obtain ⟨found_here, mem_here⟩ := addItems_found few found (here payload fetched)
          rw [links] at later ⊢
          dsimp only
          rw [ih found_here later, mem_here]
          simp only [List.mem_cons, exists_eq_or_imp, fetched, Option.some.injEq, exists_eq_left',
            or_assoc]

end Walk

section Members
variable {env : Environment} {actorUri : String} {actor : Option Json}

mutual
theorem listed_of_extracted (payload item : Json) (extracted : item ∈ extractCollectionItems payload) :
    Listed env payload item := by
  match payload with
  | .null | .bool _ | .num _ | .str _ | .arr _ => simp [extractCollectionItems] at extracted
  | .obj entries =>
    unfold extractCollectionItems at extracted
    split at extracted
    · obtain ⟨page, first, inner⟩ := listed_of_first entries item extracted
      exact .embedded (by simpa [property] using first) inner
    · exact .own extracted

theorem listed_of_first (entries : List (String × Json)) (item : Json)
    (extracted : item ∈ firstItems entries) :
    ∃ page, entries.lookup "first" = some page ∧ Listed env page item := by
  match entries with
  | [] => simp [firstItems] at extracted
  | (key, value) :: rest =>
    by_cases first : key = "first"
    · simp only [firstItems, first, if_true] at extracted
      exact ⟨value, by simp [first], listed_of_extracted value item extracted⟩
    · simp only [firstItems, first, if_false] at extracted
      have other : ("first" == key) = false := by simpa using Ne.symm first
      simpa [List.lookup_cons, other] using listed_of_first rest item extracted
end

theorem listed_of_link {a b : String} {page item : Json} (link : b ∈ nextPages env a)
    (fetched : env.fetchDocument b = some page) (inner : Listed env page item) :
    ∃ payload, env.fetchDocument a = some payload ∧ Listed env payload item := by
  cases document : env.fetchDocument a with
  | none => simp [nextPages, document] at link
  | some payload =>
    refine ⟨payload, rfl, ?_⟩
    simp only [nextPages, document, Option.elim_some, linksOf, List.mem_append, Option.mem_toList,
      getNextCollectionPageUrl, getFirstCollectionPageUrl, pageUrl] at link
    rcases link with next | first
    · split at next
      · rename_i text given
        exact .linked List.mem_cons_self given (normalizeUrl_canonical next) fetched inner
      · cases next
    · split at first
      · rename_i text given
        exact .linked (List.mem_cons_of_mem _ List.mem_cons_self) given
          (normalizeUrl_canonical first) fetched inner
      · cases first

theorem listed_of_reaches {a b : String} {page item : Json} (reaches : Reaches (nextPages env) a b)
    (fetched : env.fetchDocument b = some page) (inner : Listed env page item) :
    ∃ payload, env.fetchDocument a = some payload ∧ Listed env payload item := by
  induction reaches using Relation.ReflTransGen.head_induction_on with
  | refl => exact ⟨page, fetched, inner⟩
  | head link _ ih =>
    obtain ⟨payload, document, listed⟩ := ih
    exact listed_of_link link document listed

variable {u : String}

theorem ListedFollower.follower (listed : ListedFollower env actorUri actor u) :
    Follower env actorUri actor u := by
  obtain ⟨page, ordered, payload, fetched, item, extracted, named⟩ := listed
  obtain ⟨start, collection, reaches⟩ := mem_order _ ordered
  obtain ⟨first, document, inner⟩ :=
    listed_of_reaches reaches fetched (listed_of_extracted payload item extracted)
  unfold followerOf at named
  split at named
  · rename_i uri accepted
    split at named
    · cases named
    · rename_i unlisted
      cases named
      obtain ⟨text, url, given, -, -, -⟩ := normalizeUrl_ok accepted
      rw [given] at accepted
      rw [not_or, Bool.not_eq_true] at unlisted
      exact ⟨start, collection, first, document, item, inner, text, given,
        normalizeUrl_canonical accepted, unlisted.1⟩
  · cases named

def FewMembers (env : Environment) (actorUri : String) (actor : Option Json) : Prop :=
  ∃ members : List String, members.length ≤ maxFollowerActors ∧
    ∀ u, Follower env actorUri actor u → u ∈ members

theorem mem_fetchFollowersActorUris (few : FewMembers env actorUri actor) :
    u ∈ fetchFollowersActorUris env actorUri actor ↔ ListedFollower env actorUri actor u := by
  obtain ⟨members, bound, all⟩ := few
  have inside : ∀ page ∈ firstPages env actorUri actor, ∀ payload,
      env.fetchDocument page = some payload → ∀ item ∈ extractCollectionItems payload,
        ∀ u, followerOf env actorUri item = some u → u ∈ members :=
    fun page ordered payload fetched item extracted u named =>
      all u (ListedFollower.follower ⟨page, ordered, payload, fetched, item, extracted, named⟩)
  rw [fetchFollowersActorUris, mem_walk bound ⟨List.nodup_nil, nofun⟩ inside]
  simp only [List.not_mem_nil, false_or]
  rfl

variable {activity : Json}

theorem mem_actorRecipients_iff (few : FewMembers env actorUri actor) :
    u ∈ actorRecipients env activity actorUri actor ↔ Reached env actorUri actor activity u := by
  rw [mem_actorRecipients, mem_extractRecipientUris, mem_fetchFollowersActorUris few]
  constructor
  · rintro (⟨given | ⟨given, -⟩, outside⟩ | ⟨collection, given⟩)
    · exact .addressed given outside
    · exact .mentioned given outside
    · exact .follower collection given
  · rintro (⟨given, outside⟩ | ⟨given, outside⟩ | ⟨collection, given⟩)
    · exact .inl ⟨.inl given, outside⟩
    · exact .inl ⟨.inr ⟨given, outside⟩, outside⟩
    · exact .inr ⟨collection, given⟩

theorem AddressedByText.addressed (given : AddressedByText env activity u) :
    Addressed env activity u := by
  obtain ⟨text, listed, unlisted, accepted⟩ := given
  exact ⟨_, listed, text, rfl, unlisted, normalizeUrl_canonical accepted⟩

theorem mentioned_of_tag {tag : Json} (listed : tag ∈ tagsOf activity)
    (named : mentionOf env tag = some u) : Mentioned env activity u := by
  unfold mentionOf at named
  split at named
  · rename_i entries
    split at named
    · rename_i mention
      split at named
      · rename_i href accepted
        split at named
        · cases named
        · rename_i unlisted
          cases named
          obtain ⟨text, url, given, -, -, -⟩ := normalizeUrl_ok accepted
          rw [given] at accepted
          exact ⟨entries, listed, mention, text, given, normalizeUrl_canonical accepted,
            Bool.eq_false_iff.mpr unlisted⟩
      · cases named
    · cases named
  · cases named

theorem Reached.wanted (reached : Reached env actorUri actor activity u) :
    Wanted env actorUri actor activity u := by
  cases reached with
  | addressed given outside => exact .addressed given.addressed outside
  | mentioned given outside =>
    obtain ⟨tag, listed, named⟩ := given
    exact .mentioned (mentioned_of_tag listed named) outside
  | follower collection given =>
    obtain ⟨f, listed, addressed⟩ := collection
    exact .follower ⟨f, listed, addressed.addressed⟩ given.follower

end Members

end MastopodFederation.Guarantees.AddressedRecipients
