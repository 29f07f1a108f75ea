import MastopodFederation.Source.AccountLinkVerifier

/-!
# Which account links are verified

A link counts as naming a DID when its text contains the DID. Where every link that contains
the DID is one of its three spellings, a verified report has all four links and a document
that names only other DIDs is a conflict.
-/
namespace MastopodFederation.Guarantees.AccountLinks
open Lib.LuaTable Source.IdentityBindings Source.Retry Source.AccountLinkVerifier

def Denotes (did link : String) : Prop :=
  link = did ∨ link = "at://" ++ did ∨ link = "https://bsky.app/profile/" ++ did

instance (did link : String) : Decidable (Denotes did link) :=
  inferInstanceAs (Decidable (_ ∨ _))

def served (fetch : Fetch) (url accept : String) (read : Json → List String) : List String :=
  match fetch url accept with
  | .ok body => read body
  | .error _ => []

def servedByActor (fetch : Fetch) (binding : IdentityBinding) : List String :=
  served fetch binding.activityPubActorUri "application/activity+json, application/ld+json"
    actorAliases

def servedForDid (fetch : Fetch) (did : String) : List String :=
  match resolveDidDocumentUrl did with
  | some url => served fetch url "application/json" didAliases
  | none => []

def servedByWebId (fetch : Fetch) (binding : IdentityBinding) : List String :=
  served fetch binding.webId "application/ld+json, application/json" webIdLinks

structure SoundReport (uri did : String) (actor didDocument webId : List String)
    (report : LinkVerificationResult) : Prop where
  verified : report.status = .freshVerified →
    (∃ link ∈ actor, Denotes did link) ∧ (∃ link ∈ webId, Denotes did link) ∧
      uri ∈ didDocument ∧ uri ∈ webId
  counted : ∀ link ∈ actor ++ webId, matchesDidAlias link (some did) → Denotes did link
  conflict : ∀ links ∈ [actor, webId], hasExplicitDidReference links →
    (∀ link ∈ links, ¬ Denotes did link) → report.status = .conflict

theorem includes_of_denotes {did link : String} (denotes : Denotes did link) :
    includes link did := by
  rw [includes, decide_eq_true_eq]
  rcases denotes with rfl | rfl | rfl
  · exact List.infix_rfl
  · exact String.toList_append ▸ (List.suffix_append _ _).isInfix
  · exact String.toList_append ▸ (List.suffix_append _ _).isInfix

theorem matchesDidAlias_iff {did link : String} (named : did ≠ "") :
    matchesDidAlias link (some did) = true ↔ includes link did := by
  constructor
  · intro matched
    simp only [matchesDidAlias, named, ne_eq, not_false_eq_true, decide_true, Bool.true_and,
      Bool.or_eq_true, decide_eq_true_eq] at matched
    rcases matched with ((exact | record) | profile) | inside
    · exact includes_of_denotes (.inl exact)
    · exact includes_of_denotes (.inr (.inl record))
    · exact includes_of_denotes (.inr (.inr profile))
    · exact inside
  · intro inside
    simp [matchesDidAlias, named, inside]

section
variable {fetch : Fetch} {binding : IdentityBinding} {did : String}

theorem checkDocument_served {url accept : String} {read : Json → List String}
    {check : List String → LinkCheckResult} {result : LinkCheckResult}
    (silent : (check []).matched = false ∧ (check []).contradictory = false)
    (checked : checkDocument (fetchJsonDocument fetch url accept)
      (fun body => check (read body)) = some result) :
    result.matched = (check (served fetch url accept read)).matched ∧
      result.contradictory = (check (served fetch url accept read)).contradictory := by
  unfold checkDocument fetchJsonDocument at checked
  unfold served
  cases answer : fetch url accept with
  | error failure =>
    simp only [answer, Except.mapError, Option.some.injEq] at checked
    simp [← checked, silent]
  | ok body => cases body <;> simp_all [Except.mapError]

theorem checkDocument_returns {url accept : String} (check : Json → LinkCheckResult)
    (bodies : fetch url accept ≠ .ok .null) :
    ∃ result, checkDocument (fetchJsonDocument fetch url accept) check = some result := by
  unfold checkDocument fetchJsonDocument
  cases answer : fetch url accept with
  | error failure => simp [Except.mapError]
  | ok body => cases body <;> simp_all [Except.mapError]

theorem verifyAccountLink_returns (now : String) (named : binding.atprotoDid = some did)
    (resolves : (resolveDidDocumentUrl did).isSome)
    (bodies : ∀ url accept, fetch url accept ≠ .ok .null) :
    ∃ report, verifyAccountLink fetch binding now = some report := by
  obtain ⟨url, resolved⟩ := Option.isSome_iff_exists.mp resolves
  obtain ⟨actor, actorDone⟩ := checkDocument_returns
    (fun body => actorCheck binding (actorAliases body))
    (bodies binding.activityPubActorUri "application/activity+json, application/ld+json")
  obtain ⟨webId, webIdDone⟩ := checkDocument_returns
    (fun body => webIdCheck binding (webIdLinks body))
    (bodies binding.webId "application/ld+json, application/json")
  obtain ⟨didResult, didDone⟩ := checkDocument_returns
    (fun body => didCheck binding (didAliases body)) (bodies url "application/json")
  have didChecked : ∃ result, verifyDidDocument fetch binding = some result := by
    unfold verifyDidDocument
    rw [named]
    split
    · exact ⟨_, rfl⟩
    · exact ⟨_, rfl⟩
    · next did' _ same => cases same; exact ⟨didResult, by rw [resolved]; exact didDone⟩
  obtain ⟨didResult, didDone⟩ := didChecked
  exact ⟨_, by simp [verifyAccountLink, verifyActorDocument, verifyWebIdDocument, actorDone,
    didDone, webIdDone]; rfl⟩

theorem report_spec {now : String} {report : LinkVerificationResult} (named : did ≠ "")
    (bound : binding.atprotoDid = some did)
    (returned : verifyAccountLink fetch binding now = some report) :
    (report.status = .freshVerified →
      (actorCheck binding (servedByActor fetch binding)).matched ∧
      (didCheck binding (servedForDid fetch did)).matched ∧
      (webIdCheck binding (servedByWebId fetch binding)).matched) ∧
    ((actorCheck binding (servedByActor fetch binding)).contradictory ∨
      (webIdCheck binding (servedByWebId fetch binding)).contradictory →
      report.status = .conflict) := by
  simp only [verifyAccountLink, Option.bind_eq_some_iff, Option.map_eq_some_iff] at returned
  obtain ⟨actor, actorDone, didResult, didDone, webId, webIdDone, rfl⟩ := returned
  have actorSpec := checkDocument_served ⟨rfl, rfl⟩ actorDone
  have webIdSpec := checkDocument_served ⟨rfl, rfl⟩ webIdDone
  have didSpec : didResult.matched = (didCheck binding (servedForDid fetch did)).matched := by
    unfold verifyDidDocument at didDone
    rw [bound] at didDone
    split at didDone
    · next absent => cases absent
    · next empty => cases empty; exact absurd rfl named
    · next did' _ same =>
      cases same
      obtain ⟨url, resolved, checked⟩ := Option.bind_eq_some_iff.mp didDone
      have spec := (checkDocument_served ⟨rfl, rfl⟩ checked).1
      simpa [servedForDid, resolved] using spec
  simp only [servedByActor, servedByWebId, ← actorSpec.1, ← actorSpec.2, ← webIdSpec.1,
    ← webIdSpec.2, ← didSpec, Source.AccountLinkVerifier.report, resolveStatus]
  constructor
  · intro verified
    split at verified
    · cases verified
    · split at verified
      · cases verified
      · split at verified
        · next all => simpa [and_assoc] using all
        · cases verified
  · rintro (contradictory | contradictory) <;> simp [contradictory]

/-- Reports are sound exactly when every link with the DID in it is a spelling of the DID. -/
theorem sound_report_iff (fetch : Fetch) (binding : IdentityBinding) (now did : String)
    (named : did ≠ "") (bound : binding.atprotoDid = some did) :
    ((resolveDidDocumentUrl did).isSome → (∀ url accept, fetch url accept ≠ .ok .null) →
      ∃ report, verifyAccountLink fetch binding now = some report) ∧
    ∀ report, verifyAccountLink fetch binding now = some report →
      (SoundReport binding.activityPubActorUri did (servedByActor fetch binding)
          (servedForDid fetch did) (servedByWebId fetch binding) report ↔
        ∀ link ∈ servedByActor fetch binding ++ servedByWebId fetch binding,
          includes link did → Denotes did link) := by
  refine ⟨verifyAccountLink_returns now bound, fun report returned => ⟨?_, ?_⟩⟩
  · intro sound link listed inside
    exact sound.counted link listed ((matchesDidAlias_iff named).mpr inside)
  intro spelled
  obtain ⟨whenVerified, whenContradictory⟩ := report_spec named bound returned
  have denoted : ∀ link ∈ servedByActor fetch binding ++ servedByWebId fetch binding,
      matchesDidAlias link (some did) → Denotes did link := fun link listed matched =>
    spelled link listed ((matchesDidAlias_iff named).mp matched)
  have unmatched : ∀ links : List String, (∀ link ∈ links, ¬ Denotes did link) →
      (∀ link ∈ links, matchesDidAlias link (some did) → Denotes did link) →
      links.any (matchesDidAlias · (some did)) = false := by
    intro links silent counted
    rw [List.any_eq_false]
    exact fun link listed matched => silent link listed (counted link listed matched)
  refine ⟨?_, denoted, ?_⟩
  · intro verified
    obtain ⟨actor, didDocument, webId⟩ := whenVerified verified
    simp only [actorCheck, didCheck, webIdCheck, bound, List.any_eq_true, Bool.and_eq_true,
      decide_eq_true_eq, exists_eq_right] at actor didDocument webId
    obtain ⟨link, listed, matched⟩ := actor
    obtain ⟨lists, other, otherListed, otherMatched⟩ := webId
    exact ⟨⟨link, listed, denoted link (by simp [listed]) matched⟩,
      ⟨other, otherListed, denoted other (by simp [otherListed]) otherMatched⟩, didDocument, lists⟩
  · intro links document explicit silent
    simp only [List.mem_cons, List.not_mem_nil, or_false] at document
    apply whenContradictory
    rcases document with rfl | rfl
    · have none := unmatched _ silent fun link listed => denoted link (by simp [listed])
      exact .inl (by simp [actorCheck, bound, explicit, none])
    · have none := unmatched _ silent fun link listed => denoted link (by simp [listed])
      exact .inr (by simp [webIdCheck, bound, explicit, none])

end

def linked : IdentityBinding :=
  { canonicalAccountId := "a", contextId := "c", webId := "https://a.example/me"
    activityPubActorUri := "https://a.example/u", atprotoDid := some "did:plc:a"
    atprotoHandle := none, canonicalDidMethod := some .didPlc, atprotoPdsEndpoint := none
    atprotoSource := none, atprotoManaged := none, apSigningKeyRef := "k", atSigningKeyRef := none
    atRotationKeyRef := none, plc := none, didWeb := none }

def longerDid (_ _ : String) : Except String Json :=
  .ok (.obj [("alsoKnownAs", .arr [.str "https://a.example/u", .str "did:plc:ab"]),
    ("sameAs", .arr [.str "https://a.example/u", .str "did:plc:ab"])])

theorem sound_report_iff_linked :
    "did:plc:a" ≠ "" ∧ linked.atprotoDid = some "did:plc:a" ∧
    ∀ report, verifyAccountLink longerDid linked "now" = some report →
      (SoundReport "https://a.example/u" "did:plc:a" (servedByActor longerDid linked)
          (servedForDid longerDid "did:plc:a") (servedByWebId longerDid linked) report ↔
        ∀ link ∈ servedByActor longerDid linked ++ servedByWebId longerDid linked,
          includes link "did:plc:a" → Denotes "did:plc:a" link) :=
  ⟨by decide, rfl, (sound_report_iff longerDid linked "now" "did:plc:a" (by decide) rfl).2⟩

theorem longer_did_verified :
    ¬ ∀ report, verifyAccountLink longerDid linked "now" = some report →
      SoundReport "https://a.example/u" "did:plc:a" (servedByActor longerDid linked)
        (servedForDid longerDid "did:plc:a") (servedByWebId longerDid linked) report := by
  intro sound
  have reported : (verifyAccountLink longerDid linked "now").map (·.status)
      = some .freshVerified := by decide +kernel
  obtain ⟨report, returned, verified⟩ := Option.map_eq_some_iff.mp reported
  obtain ⟨⟨link, listed, denotes⟩, -⟩ := (sound report returned).verified verified
  have unnamed : ∀ link ∈ servedByActor longerDid linked, ¬ Denotes "did:plc:a" link := by decide
  exact unnamed link listed denotes

end MastopodFederation.Guarantees.AccountLinks
