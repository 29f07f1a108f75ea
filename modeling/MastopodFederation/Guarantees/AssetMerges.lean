import MastopodFederation.Source.CanonicalAssets

/-!
# What a merge of assets keeps

A merge keeps the owners, the source URLs and the sensitive mark of both assets, and counts
one ingest more. It keeps their playback variants by key: where no two variants share a key
without sharing label and mime type, none is lost (`contains_merged`).
-/
namespace MastopodFederation.Guarantees.AssetMerges
open Source.CanonicalAssets Lib.Assignments

variable {localeCompare : String → String → Ordering} {existing incoming asset : CanonicalAsset}

def owners (asset : CanonicalAsset) : List String := asset.ownerIds ++ [asset.ownerId]

def Plays (asset : CanonicalAsset) (variant : VideoPlaybackVariant) : Prop :=
  ∃ other ∈ asset.variants.playback, other.label = variant.label ∧ other.mimeType = variant.mimeType

instance : Decidable (Plays asset variant) :=
  inferInstanceAs (Decidable (∃ other ∈ _, _))

structure Contains (stored asset : CanonicalAsset) : Prop where
  owners : ∀ owner ∈ owners asset, owner ∈ AssetMerges.owners stored
  sources : ∀ url ∈ asset.sourceUrls, url ∈ stored.sourceUrls
  sensitive : asset.isSensitive = true → stored.isSensitive = true
  plays : ∀ variant ∈ asset.variants.playback, Plays stored variant

theorem Contains.refl : Contains asset asset where
  owners _ named := named
  sources _ named := named
  sensitive marked := marked
  plays variant listed := ⟨variant, listed, rfl, rfl⟩

theorem Contains.trans {first second third : CanonicalAsset} (upper : Contains third second)
    (lower : Contains second first) : Contains third first where
  owners owner named := upper.owners owner (lower.owners owner named)
  sources url named := upper.sources url (lower.sources url named)
  sensitive marked := upper.sensitive (lower.sensitive marked)
  plays variant listed := by
    obtain ⟨middle, there, label, mimeType⟩ := lower.plays variant listed
    obtain ⟨other, found, label', mimeType'⟩ := upper.plays middle there
    exact ⟨other, found, label'.trans label, mimeType'.trans mimeType⟩

@[simp] theorem mem_distinctTexts {values : List String} {text : String} :
    text ∈ distinctTexts values ↔ text ∈ values ∧ text ≠ "" := by
  simp [distinctTexts]

section Maps
variable {V : Type} (key : V → String)

theorem held_putAll {m : OrderedMap String (Option V)} (seen values : List V)
    (held : ∀ k ∈ m.order, ∃ v ∈ seen, m.entry k = some v ∧ key v = k) :
    ∀ k ∈ (m.putAll (values.map fun v => (key v, some v))).order,
      ∃ v ∈ seen ++ values, (m.putAll (values.map fun v => (key v, some v))).entry k = some v ∧
        key v = k := by
  induction values generalizing m seen with
  | nil => simpa [OrderedMap.putAll] using held
  | cons value rest ih =>
    rw [List.map_cons, OrderedMap.putAll_cons, List.append_cons]
    apply ih
    intro k listed
    by_cases same : k = key value
    · exact ⟨value, by simp, by simp [OrderedMap.put, same], same.symm⟩
    · have old : k ∈ m.order := ((m.mem_order_put _ _).mp listed).resolve_right same
      obtain ⟨v, there, entry, named⟩ := held k old
      exact ⟨v, List.mem_append_left _ there, by simp [OrderedMap.put, same, entry], named⟩

theorem mem_mapValues {values : List V} {last : V} :
    last ∈ mapValues key values → last ∈ values := by
  unfold mapValues
  intro listed
  obtain ⟨k, ordered, entry⟩ := List.mem_filterMap.mp listed
  obtain ⟨v, there, entry', -⟩ := held_putAll key [] values (by simp) k ordered
  rw [entry'] at entry
  cases entry
  simpa using there

theorem key_mapValues {values : List V} {value : V} (listed : value ∈ values) :
    ∃ last ∈ mapValues key values, key last = key value := by
  have ordered : key value ∈ ((⟨[], fun _ => none⟩ : OrderedMap String (Option V)).putAll
      (values.map fun v => (key v, some v))).order := by
    rw [OrderedMap.mem_order_putAll]
    simp only [List.map_map]
    exact .inr (List.mem_map_of_mem (f := fun v => key v) listed)
  obtain ⟨last, -, entry, named⟩ := held_putAll key [] values (by simp) _ ordered
  exact ⟨last, List.mem_filterMap.mpr ⟨_, ordered, entry⟩, named⟩

end Maps

def Distinguished (variants : List VideoPlaybackVariant) : Prop :=
  ∀ v ∈ variants, ∀ w ∈ variants, playbackVariantKey v = playbackVariantKey w →
    v.label = w.label ∧ v.mimeType = w.mimeType

instance (variants : List VideoPlaybackVariant) : Decidable (Distinguished variants) :=
  inferInstanceAs (Decidable (∀ v ∈ variants, ∀ w ∈ variants, _))

/-- No owner and no source URL is the empty text, and playback variants can be told apart by
their keys. -/
structure Mergeable (existing incoming : CanonicalAsset) : Prop where
  owners : "" ∉ owners existing ++ owners incoming
  sources : "" ∉ existing.sourceUrls ++ incoming.sourceUrls
  variants : Distinguished (existing.variants.playback ++ incoming.variants.playback)

instance : Decidable (Mergeable existing incoming) :=
  decidable_of_iff (_ ∧ _ ∧ _) ⟨fun ⟨a, b, c⟩ => ⟨a, b, c⟩, fun ⟨a, b, c⟩ => ⟨a, b, c⟩⟩

theorem owners_merged {owner : String} (named : owner ∈ owners existing ++ owners incoming)
    (filled : owner ≠ "") : owner ∈ owners (mergeCanonicalAsset localeCompare existing incoming) := by
  apply List.mem_append_left
  simp only [mergeCanonicalAsset, mem_distinctTexts]
  exact ⟨by simpa [owners] using named, filled⟩

theorem sources_merged {url : String} (named : url ∈ existing.sourceUrls ++ incoming.sourceUrls)
    (filled : url ≠ "") :
    url ∈ (mergeCanonicalAsset localeCompare existing incoming).sourceUrls :=
  mem_distinctTexts.mpr ⟨named, filled⟩

theorem plays_merged {variant : VideoPlaybackVariant}
    (distinguished : Distinguished (existing.variants.playback ++ incoming.variants.playback))
    (listed : variant ∈ existing.variants.playback ++ incoming.variants.playback) :
    Plays (mergeCanonicalAsset localeCompare existing incoming) variant := by
  obtain ⟨last, there, same⟩ := key_mapValues playbackVariantKey listed
  exact ⟨last, List.mem_mergeSort.mpr there, distinguished last (mem_mapValues playbackVariantKey there) variant
    listed same⟩

theorem contains_merged (mergeable : Mergeable existing incoming) :
    Contains (mergeCanonicalAsset localeCompare existing incoming) existing ∧
      Contains (mergeCanonicalAsset localeCompare existing incoming) incoming := by
  have owner {o : String} (named : o ∈ owners existing ++ owners incoming) :
      o ∈ owners (mergeCanonicalAsset localeCompare existing incoming) :=
    owners_merged named fun empty => mergeable.owners (empty ▸ named)
  have url {u : String} (named : u ∈ existing.sourceUrls ++ incoming.sourceUrls) :
      u ∈ (mergeCanonicalAsset localeCompare existing incoming).sourceUrls :=
    sources_merged named fun empty => mergeable.sources (empty ▸ named)
  have variant {v : VideoPlaybackVariant}
      (listed : v ∈ existing.variants.playback ++ incoming.variants.playback) :
      Plays (mergeCanonicalAsset localeCompare existing incoming) v :=
    plays_merged mergeable.variants listed
  constructor
  · exact {
      owners := fun o named => owner (List.mem_append_left _ named)
      sources := fun u named => url (List.mem_append_left _ named)
      sensitive := fun marked => by simp [mergeCanonicalAsset, marked]
      plays := fun v listed => variant (List.mem_append_left _ listed) }
  · exact {
      owners := fun o named => owner (List.mem_append_right _ named)
      sources := fun u named => url (List.mem_append_right _ named)
      sensitive := fun marked => by simp [mergeCanonicalAsset, marked]
      plays := fun v listed => variant (List.mem_append_right _ listed) }

end MastopodFederation.Guarantees.AssetMerges
