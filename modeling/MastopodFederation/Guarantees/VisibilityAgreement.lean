import MastopodFederation.Source.VisibilityClassifiers

/-!
# Where the classifiers of visibility agree

Five classifiers read the recipients of `to` and `cc`, each with its own spellings of the
public collection and its own reading of lists and objects. They agree exactly where the
full address is a recipient of its own, and where no recipient names the public collection
in any of the ways that one of them knows.
-/
namespace MastopodFederation.Guarantees.VisibilityAgreement
open Lib.LuaTable Source.DelayedQueue Source.ProtocolBridgeRuntime
open Source.DeliveryPlanContract Source.VisibilityClassifiers

def isPublicVisibility (visibility : String) : Bool :=
  visibility = "public" || visibility = "unlisted"

structure Agree (env : Environment) (activity : Activity) : Prop where
  inbound : (determineVisibility activity).isPublic = isPublicActivity activity
  search : isPublicAddressed activity = isPublicActivity activity
  contract : isPublicVisibility (determineActivityVisibility env activity.entries) =
    isPublicActivity activity
  bridge : (deriveAudience (activity.field "to") (activity.field "cc")).isPublic =
    isPublicActivity activity

def entriesOf : Option Json → List Json
  | none => []
  | some (.arr values) => values
  | some value => [value]

def recipients (activity : Activity) : List Json :=
  entriesOf (activity.field "to") ++ entriesOf (activity.field "cc")

inductive SpellsPublic : Json → Prop where
  | text {text : String} (spelled : trim text ∈ publicAliases) : SpellsPublic (.str text)
  | node {record : Entries} {id : String} (named : nodeName record = some (.str id))
      (spelled : trim id ∈ publicAliases) : SpellsPublic (.obj record)

def IsPlainlyPublic (activity : Activity) : Prop := .str publicAudience ∈ recipients activity

def IsAddressing (activity : Activity) (key : String) : Prop :=
  let term := canonicalAddressingTerm key
    (buildContextState (activity.field "@context") initialContext)
  term = some "to" ∨ term = some "cc"

structure IsPlainlyPrivate (activity : Activity) : Prop where
  inRecipients : ∀ value ∈ recipients activity, ¬ SpellsPublic value
  elsewhere : ∀ key value, (key, value) ∈ activity.entries → key ≠ "to" → key ≠ "cc" →
    IsAddressing activity key → ∀ name ∈ normalizedAddresses value, name ∉ publicAddresses

section
variable {activity : Activity} {value : Json}

theorem field_eq_some {key : String} :
    activity.field key = some value ↔ (key, value) ∈ activity.entries := by
  constructor
  · exact mem_of_lookup
  · intro listed
    obtain ⟨before, after, split⟩ := List.append_of_mem listed
    have unique := activity.unique
    rw [split, List.map_append, List.map_cons, List.nodup_append] at unique
    refine List.lookup_eq_some_iff.mpr ⟨before, after, split, fun entry earlier => ?_⟩
    have apart := unique.2.2 entry.1 (List.mem_map_of_mem earlier) key List.mem_cons_self
    simpa using Ne.symm apart

variable {field : Option Json}

theorem mem_addressesOf (counts : jsTruthy value = true) :
    value ∈ addressesOf field ↔ value ∈ entriesOf field := by
  cases field with
  | none => rfl
  | some read =>
    cases truthy : jsTruthy read with
    | true => rw [addressesOf, Option.filter_some_pos truthy]; cases read <;> rfl
    | false =>
      have other : value ≠ read := fun same => by simp [← same, counts] at truthy
      have none : Option.filter jsTruthy (some read) = none := by simp [Option.filter, truthy]
      rw [addressesOf, none]
      cases read with
      | arr items => simp [jsTruthy] at truthy
      | _ => simp [entriesOf, other]

variable {texts : List String}

theorem isOneOf_eq_true : isOneOf texts value = true ↔ ∃ text ∈ texts, value = .str text := by
  cases value <;> simp [isOneOf]

theorem any_isOneOf (field : Option Json) (nonempty : "" ∉ texts) :
    (addressesOf field).any (isOneOf texts) = true ↔ ∃ text ∈ texts, .str text ∈ entriesOf field := by
  have counts : ∀ text ∈ texts, jsTruthy (.str text) = true := by
    intro text listed
    have : text ≠ "" := fun empty => nonempty (empty ▸ listed)
    simp [jsTruthy, this]
  rw [List.any_eq_true]
  constructor
  · rintro ⟨value, listed, one⟩
    obtain ⟨text, known, rfl⟩ := isOneOf_eq_true.mp one
    exact ⟨text, known, (mem_addressesOf (counts text known)).mp listed⟩
  · rintro ⟨text, known, listed⟩
    exact ⟨.str text, (mem_addressesOf (counts text known)).mpr listed,
      isOneOf_eq_true.mpr ⟨text, known, rfl⟩⟩

theorem exists_mem_recipients {found : Json → Prop} :
    (∃ value ∈ recipients activity, found value) ↔
      (∃ value ∈ entriesOf (activity.field "to"), found value) ∨
        ∃ value ∈ entriesOf (activity.field "cc"), found value := by
  simp [recipients, or_and_right, exists_or]

theorem isPublicActivity_iff :
    isPublicActivity activity = true ↔ ∃ text ∈ publicAliases, .str text ∈ recipients activity := by
  have nonempty : "" ∉ publicAliases := by decide
  have toNames := any_isOneOf (activity.field "to") nonempty
  have ccNames := any_isOneOf (activity.field "cc") nonempty
  unfold publicAliases at toNames ccNames ⊢
  rw [isPublicActivity, Bool.or_eq_true, toNames, ccNames]
  simp only [recipients, List.mem_append, and_or_left, exists_or]

theorem determineVisibility_isPublic :
    (determineVisibility activity).isPublic = true ↔
      ∃ text ∈ [publicAudience, "as:Public"], .str text ∈ recipients activity := by
  have nonempty : "" ∉ [publicAudience, "as:Public"] := by decide
  have toNames := any_isOneOf (activity.field "to") nonempty
  have ccNames := any_isOneOf (activity.field "cc") nonempty
  have split : (determineVisibility activity).isPublic =
      ((addressesOf (activity.field "to")).any (isOneOf [publicAudience, "as:Public"]) ||
        (addressesOf (activity.field "cc")).any (isOneOf [publicAudience, "as:Public"])) := by
    simp only [determineVisibility]
    split
    · simp_all [Visibility.isPublic]
    · split
      · simp_all [Visibility.isPublic]
      · split <;> simp_all [Visibility.isPublic]
  rw [split, Bool.or_eq_true, toNames, ccNames]
  simp only [recipients, List.mem_append, and_or_left, exists_or]

theorem mem_nodesOf (counts : value ≠ .null) : value ∈ nodesOf field ↔ value ∈ entriesOf field := by
  cases field with
  | none => rfl
  | some read => cases read <;> simp [nodesOf, entriesOf, counts]

variable {text : String}

theorem normalizeIri_public :
    normalizeIri (some (.str text)) = some publicAudience ↔ trim text ∈ publicAliases := by
  have nonempty : "" ∉ publicAliases := by decide
  have full : publicAudience ∈ publicAliases := by decide
  simp only [normalizeIri]
  split
  · rename_i empty
    simp [empty, nonempty]
  · rw [Option.some.injEq]
    by_cases known : trim text ∈ publicAliases
    · simp [known]
    · have other : trim text ≠ publicAudience := fun same => known (same ▸ full)
      simp [known, other]

theorem extractUriFromNode_public :
    extractUriFromNode value = some publicAudience ↔ SpellsPublic value := by
  constructor
  · intro read
    cases value with
    | str text =>
      refine .text (normalizeIri_public.mp ?_)
      cases direct : normalizeIri (some (.str text)) <;> simp_all [extractUriFromNode]
    | obj record =>
      have named : normalizeIri (nodeName record) = some publicAudience := read
      cases name : nodeName record with
      | none => simp [name, normalizeIri] at named
      | some id =>
        cases id with
        | str text => exact .node name (normalizeIri_public.mp (name ▸ named))
        | _ => simp [name, normalizeIri] at named
    | _ => simp [extractUriFromNode, normalizeIri] at read
  · intro spells
    cases spells with
    | text spelled => simp [extractUriFromNode, normalizeIri_public.mpr spelled]
    | @node record id named spelled =>
      have read : normalizeIri (nodeName record) = some publicAudience :=
        named ▸ normalizeIri_public.mpr spelled
      exact read

theorem isPublicAddressed_iff :
    isPublicAddressed activity = true ↔ ∃ value ∈ recipients activity, SpellsPublic value := by
  have reads : ∀ field, ((nodesOf field).any fun node =>
      extractUriFromNode node = some publicAudience) = true ↔
        ∃ value ∈ entriesOf field, SpellsPublic value := by
    intro field
    simp only [List.any_eq_true, decide_eq_true_eq, extractUriFromNode_public]
    refine exists_congr fun value => and_congr_left fun spells => mem_nodesOf ?_
    cases spells <;> simp
  rw [exists_mem_recipients, ← reads, ← reads]
  simp [isPublicAddressed]

theorem mem_toRecipientArray : text ∈ toRecipientArray field ↔ .str text ∈ entriesOf field := by
  cases field with
  | none => simp [toRecipientArray, entriesOf]
  | some read =>
    cases read with
    | arr values =>
      simp only [toRecipientArray, entriesOf, List.mem_filterMap]
      constructor
      · rintro ⟨value, listed, same⟩
        cases value <;> simp_all
      · exact fun listed => ⟨_, listed, rfl⟩
    | _ => simp [toRecipientArray, entriesOf]

theorem deriveAudience_isPublic :
    (deriveAudience (activity.field "to") (activity.field "cc")).isPublic = true ↔
      IsPlainlyPublic activity := by
  have listed : (toRecipientArray (activity.field "to") ++
      toRecipientArray (activity.field "cc")).contains publicAudience = true ↔
        IsPlainlyPublic activity := by
    simp [IsPlainlyPublic, recipients, mem_toRecipientArray]
  simp only [deriveAudience]
  split
  · rename_i found
    have plain := listed.mp found
    split <;> simp [Visibility.isPublic, plain]
  · rename_i absent
    have other : ¬ IsPlainlyPublic activity := fun plain => absent (listed.mpr plain)
    split
    · simp [Visibility.isPublic, other]
    · split <;> simp [Visibility.isPublic, other]

variable {name : String}

theorem mem_addressingValues {term : String} : name ∈ addressingValues activity.entries term ↔
      ∃ key value, (key, value) ∈ activity.entries ∧ canonicalAddressingTerm key
        (buildContextState (activity.field "@context") initialContext) = some term ∧
          name ∈ normalizedAddresses value := by
  simp only [addressingValues, List.mem_flatMap, Prod.exists, Activity.field]
  refine exists_congr fun key => exists_congr fun value => and_congr_right fun _ => ?_
  split <;> simp_all

theorem determineActivityVisibility_isPublic (env : Environment) :
    isPublicVisibility (determineActivityVisibility env activity.entries) = true ↔
      ∃ key value, (key, value) ∈ activity.entries ∧ IsAddressing activity key ∧
        ∃ name ∈ normalizedAddresses value, name ∈ publicAddresses := by
  have names : ∀ term, (addressingValues activity.entries term).any publicAddresses.contains =
      true ↔ ∃ name ∈ addressingValues activity.entries term, name ∈ publicAddresses := by
    simp
  have split : isPublicVisibility (determineActivityVisibility env activity.entries) = true ↔
      (∃ name ∈ addressingValues activity.entries "to", name ∈ publicAddresses) ∨
        ∃ name ∈ addressingValues activity.entries "cc", name ∈ publicAddresses := by
    rw [← names, ← names]
    simp only [determineActivityVisibility]
    split
    · simp_all [isPublicVisibility]
    · split
      · simp_all [isPublicVisibility]
      · split <;> simp_all [isPublicVisibility]
  rw [split]
  constructor
  · rintro (⟨name, found, spelled⟩ | ⟨name, found, spelled⟩)
    · obtain ⟨key, value, listed, term, named⟩ := mem_addressingValues.mp found
      exact ⟨key, value, listed, .inl term, name, named, spelled⟩
    · obtain ⟨key, value, listed, term, named⟩ := mem_addressingValues.mp found
      exact ⟨key, value, listed, .inr term, name, named, spelled⟩
  · rintro ⟨key, value, listed, term | term, name, named, spelled⟩
    · exact .inl ⟨name, mem_addressingValues.mpr ⟨key, value, listed, term, named⟩, spelled⟩
    · exact .inr ⟨name, mem_addressingValues.mpr ⟨key, value, listed, term, named⟩, spelled⟩

theorem nodeName_of_normalizeId {record : Entries}
    (read : normalizeId (some (.obj record)) = some name) : nodeName record = some (.str name) := by
  have first : orElse (record.lookup "id") (record.lookup "@id") = some (.str name) := by
    unfold normalizeId at read
    dsimp only at read
    cases id : record.lookup "id" with
    | none =>
      rw [id] at read
      dsimp only at read
      split at read <;> simp_all [orElse]
    | some value => cases value <;> simp_all [orElse]; split at read <;> simp_all
  rw [nodeName, first]
  rfl

theorem spellsPublic_of_normalizeId
    (read : normalizeId (some value) = some name) (spelled : name ∈ publicAddresses) :
    SpellsPublic value := by
  have whole : ∀ name ∈ publicAddresses, trim name ∈ publicAliases := by decide
  cases value with
  | str text =>
    obtain rfl : text = name := by simpa [normalizeId] using read
    exact .text (whole text spelled)
  | obj record => exact .node (nodeName_of_normalizeId read) (whole name spelled)
  | _ => simp [normalizeId] at read

theorem spellsPublic_of_normalizedAddresses
    (read : name ∈ normalizedAddresses value) (spelled : name ∈ publicAddresses) :
    ∃ entry ∈ entriesOf (some value), SpellsPublic entry := by
  cases value with
  | arr values =>
    obtain ⟨entry, listed, named⟩ := List.mem_filterMap.mp read
    exact ⟨entry, listed, spellsPublic_of_normalizeId named spelled⟩
  | _ =>
    refine ⟨_, List.mem_singleton_self _, spellsPublic_of_normalizeId ?_ spelled⟩
    simpa [normalizedAddresses] using read

theorem mem_normalizedAddresses
    (listed : .str text ∈ entriesOf (some value)) : text ∈ normalizedAddresses value := by
  cases value with
  | arr values => exact List.mem_filterMap.mpr ⟨.str text, listed, rfl⟩
  | _ => simp_all [entriesOf, normalizedAddresses, normalizeId]

theorem isAddressing_of_eq {key : String} (same : key = "to" ∨ key = "cc") :
    IsAddressing activity key := by
  rcases same with rfl | rfl
  · exact .inl rfl
  · exact .inr rfl

theorem mem_recipients : value ∈ recipients activity ↔ ∃ key read, (key = "to" ∨ key = "cc") ∧
      (key, read) ∈ activity.entries ∧ value ∈ entriesOf (some read) := by
  have read : ∀ key, value ∈ entriesOf (activity.field key) ↔
      ∃ read, (key, read) ∈ activity.entries ∧ value ∈ entriesOf (some read) := by
    intro key
    cases found : activity.field key with
    | none => simp [entriesOf, ← field_eq_some, found]
    | some read => simp [← field_eq_some, found]
  rw [recipients, List.mem_append, read, read]
  constructor
  · rintro (⟨found, listed⟩ | ⟨found, listed⟩)
    · exact ⟨"to", found, .inl rfl, listed⟩
    · exact ⟨"cc", found, .inr rfl, listed⟩
  · rintro ⟨key, found, rfl | rfl, listed⟩
    · exact .inl ⟨found, listed⟩
    · exact .inr ⟨found, listed⟩

theorem IsPlainlyPublic.agree (env : Environment) (plain : IsPlainlyPublic activity) :
    Agree env activity := by
  have publicly : isPublicActivity activity = true :=
    isPublicActivity_iff.mpr ⟨publicAudience, by decide, plain⟩
  have whole : trim publicAudience ∈ publicAliases := by decide
  constructor <;> rw [publicly]
  case inbound => exact determineVisibility_isPublic.mpr ⟨publicAudience, by decide, plain⟩
  case search => exact isPublicAddressed_iff.mpr ⟨_, plain, .text whole⟩
  case contract =>
    obtain ⟨key, value, addressing, entry, listed⟩ := mem_recipients.mp plain
    exact (determineActivityVisibility_isPublic env).mpr ⟨key, value, entry,
      isAddressing_of_eq addressing, publicAudience, mem_normalizedAddresses listed, by decide⟩
  case bridge => exact deriveAudience_isPublic.mpr plain

theorem IsPlainlyPrivate.agree (env : Environment) (plain : IsPlainlyPrivate activity) :
    Agree env activity := by
  have unlisted : ∀ text ∈ publicAliases, .str text ∉ recipients activity := by
    have whole : ∀ text ∈ publicAliases, trim text ∈ publicAliases := by decide
    exact fun text spelled listed => plain.inRecipients _ listed (.text (whole text spelled))
  have hidden : isPublicActivity activity = false := by
    rw [Bool.eq_false_iff, ne_eq, isPublicActivity_iff]
    rintro ⟨text, spelled, listed⟩
    exact unlisted text spelled listed
  constructor <;> rw [hidden, Bool.eq_false_iff, ne_eq]
  case inbound =>
    rw [determineVisibility_isPublic]
    rintro ⟨text, spelled, listed⟩
    have known : ∀ text ∈ [publicAudience, "as:Public"], text ∈ publicAliases := by decide
    exact unlisted text (known text spelled) listed
  case search =>
    rw [isPublicAddressed_iff]
    rintro ⟨value, listed, spells⟩
    exact plain.inRecipients value listed spells
  case contract =>
    rw [determineActivityVisibility_isPublic]
    rintro ⟨key, value, entry, addressing, name, named, spelled⟩
    by_cases same : key = "to" ∨ key = "cc"
    · obtain ⟨member, listed, spells⟩ := spellsPublic_of_normalizedAddresses named spelled
      exact plain.inRecipients member (mem_recipients.mpr ⟨key, value, same, entry, listed⟩) spells
    · obtain ⟨notTo, notCc⟩ := not_or.mp same
      exact plain.elsewhere key value entry notTo notCc addressing name named spelled
  case bridge =>
    rw [deriveAudience_isPublic]
    exact unlisted publicAudience (by decide)

/-- For every activity: the classifiers agree exactly on the plain ones. -/
theorem agree_iff (env : Environment) (activity : Activity) :
    Agree env activity ↔ IsPlainlyPublic activity ∨ IsPlainlyPrivate activity := by
  constructor
  · intro agree
    by_cases plain : IsPlainlyPublic activity
    · exact .inl plain
    · have hidden : ¬ isPublicActivity activity = true := by
        rw [← agree.bridge, deriveAudience_isPublic]
        exact plain
      refine .inr ⟨fun value listed spells => hidden ?_, fun key value listed _ _ addressing name
        named spelled => hidden ?_⟩
      · rw [← agree.search]
        exact isPublicAddressed_iff.mpr ⟨value, listed, spells⟩
      · rw [← agree.contract]
        exact (determineActivityVisibility_isPublic env).mpr
          ⟨key, value, listed, addressing, name, named, spelled⟩
  · rintro (plain | plain)
    · exact plain.agree env
    · exact plain.agree env

end

def compactlyPublic : Activity where
  entries := [("type", .str "Create"), ("actor", .str "https://a.example/alice"),
    ("to", .arr [.str "as:Public"])]
  unique := by decide

theorem compact_address_disagrees :
    compactlyPublic.field "@context" = none ∧ isPublicActivity compactlyPublic = true ∧
      determineVisibility compactlyPublic = .everyone ∧
        deriveAudience (compactlyPublic.field "to") (compactlyPublic.field "cc") = .direct ∧
          ¬ ∃ env, Agree env compactlyPublic := by
  have publicly : isPublicActivity compactlyPublic = true := by decide
  have bridged : deriveAudience (compactlyPublic.field "to") (compactlyPublic.field "cc") =
      .direct := by decide
  refine ⟨by decide, publicly, by decide, bridged, fun ⟨env, agree⟩ => ?_⟩
  have same := agree.bridge
  rw [publicly, bridged] at same
  exact absurd same (by decide)

end MastopodFederation.Guarantees.VisibilityAgreement
