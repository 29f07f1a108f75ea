import MastopodFederation.Source.AtEventHandlers

/-!
# Which translator takes an input

An input that names its collection and whose record has that collection's type is left
to the one translator of the collection. Every intent has the provenance that the
`bridge` field of its input gives it.
-/
namespace MastopodFederation.Guarantees.AtTranslation
open Lib.LuaTable Lib.Schema Source Source.CanonicalIntent Source.AtEnvelope
open Source.BskyTranslators Source.SocialTranslators
open Source.AtEventHandlers

def Typed {R : Type} (type : String) (schema : SchemaOf R) : Prop :=
  ∀ {value : Option Json} {record : R}, schema value = some record →
    ∃ entries, value = some (.obj entries) ∧ entries.lookup "$type" = some (.str type)

theorem object_eq_some {α : Type} {fields : Fields → Option α} {value : Option Json} {a : α}
    (h : object fields value = some a) :
    ∃ entries, value = some (.obj entries) ∧ fields (fun key => entries.lookup key) = some a := by
  unfold object at h
  split at h
  case h_1 entries => exact ⟨entries, rfl, h⟩
  case h_2 => cases h

theorem typed_object {R : Type} {type : String} {rest : Fields → Option R} :
    Typed type (object fun field => do
      let _ ← literal type (field "$type")
      rest field) := by
  intro value record h
  obtain ⟨entries, rfl, h⟩ := object_eq_some h
  obtain ⟨text, checked, -⟩ := Option.bind_eq_some_iff.mp h
  exact ⟨entries, rfl, (literal_eq_some.mp checked).1⟩

section
variable {ctx : Context} {input : Json}

theorem typed_post : Typed "app.bsky.feed.post" (postRecordSchema ctx) := typed_object

theorem typed_profile : Typed "app.bsky.actor.profile" (profileRecordSchema ctx) := typed_object

theorem typed_document : Typed "site.standard.document" (documentRecordSchema ctx) := typed_object

variable {collection : String}

theorem typed_social {S : Type} {subject : SchemaOf S} :
    Typed collection (socialRecordSchema collection subject) := typed_object

theorem typed_emojiReaction :
    Typed "org.activitypods.emojiReaction" (emojiReactionRecordSchema ctx) := typed_object

variable {R : Type} {record : SchemaOf R}

theorem envelopeSchema_spec {e : Envelope R}
    (h : envelopeSchema record (some input) = some e) :
    ∃ entries, input = .obj entries ∧ record (entries.lookup "record") = some e.record ∧
      bridgeSchema (entries.lookup "bridge") = some e.bridge := by
  obtain ⟨entries, same, h⟩ := object_eq_some h
  simp only [Option.bind_eq_bind, Option.bind_eq_some_iff, Option.pure_def, Option.some.injEq] at h
  obtain ⟨_, -, _, -, _, -, _, -, _, -, _, -, _, bridge, _, record, rfl⟩ := h
  exact ⟨entries, Option.some.inj same, record, bridge⟩

theorem profileEnvelopeSchema_spec {e : ProfileEnvelope}
    (h : profileEnvelopeSchema ctx (some input) = some e) :
    ∃ entries, input = .obj entries ∧
      profileRecordSchema ctx (entries.lookup "record") = some e.record ∧
      bridgeSchema (entries.lookup "bridge") = some e.bridge := by
  obtain ⟨entries, same, h⟩ := object_eq_some h
  simp only [Option.bind_eq_bind, Option.bind_eq_some_iff, Option.pure_def, Option.some.injEq] at h
  obtain ⟨_, -, _, -, _, -, _, -, _, bridge, _, record, rfl⟩ := h
  exact ⟨entries, Option.some.inj same, record, bridge⟩

theorem deleteEnvelopeSchema_spec {e : DeleteEnvelope}
    (h : deleteEnvelopeSchema collection (some input) = some e) :
    ∃ entries, input = .obj entries ∧
      (optional (literal collection) (entries.lookup "collection")).isSome = true ∧
      bridgeSchema (entries.lookup "bridge") = some e.bridge := by
  obtain ⟨entries, same, h⟩ := object_eq_some h
  simp only [Option.bind_eq_bind, Option.bind_eq_some_iff, Option.pure_def, Option.some.injEq] at h
  obtain ⟨_, -, _, -, _, -, _, collection, _, -, _, -, _, bridge, rfl⟩ := h
  exact ⟨entries, Option.some.inj same, by simp [collection], bridge⟩

theorem gateEnvelopeSchema_spec {rules : String} {e : GateEnvelope}
    (h : gateEnvelopeSchema collection rules (some input) = some e) :
    ∃ entries, input = .obj entries ∧
      bridgeSchema (entries.lookup "bridge") = some e.bridge := by
  obtain ⟨entries, same, h⟩ := object_eq_some h
  simp only [Option.bind_eq_bind, Option.bind_eq_some_iff, Option.pure_def, Option.some.injEq] at h
  obtain ⟨_, -, _, -, _, -, _, -, _, -, _, bridge, _, -, rfl⟩ := h
  exact ⟨entries, Option.some.inj same, bridge⟩

structure BaseFields (ctx : Context) (entries : ProtocolBridgeRuntime.Entries)
    (e : BaseEnvelope) : Prop where
  repoDid : startsWith "did:" (entries.lookup "repoDid") = some e.repoDid
  uri : optional (startsWith "at://") (entries.lookup "uri") = some e.uri
  collection : optional string (entries.lookup "collection") = some e.collection
  subjectDid : optional (startsWith "did:") (entries.lookup "subjectDid") = some e.subjectDid
  subjectUri : optional (startsWith "at://") (entries.lookup "subjectUri") = some e.subjectUri
  subjectCid : optional string (entries.lookup "subjectCid") = some e.subjectCid
  reactionContent :
    optional nonempty (entries.lookup "reactionContent") = some e.reactionContent
  reactionEmoji :
    nullish (emojiDefinitionSchema ctx) (entries.lookup "reactionEmoji") = some e.reactionEmoji
  operation : optional operation (entries.lookup "operation") = some e.operation
  bridge : bridgeSchema (entries.lookup "bridge") = some e.bridge

theorem baseEnvelopeSchema_spec {e : BaseEnvelope}
    (h : baseEnvelopeSchema ctx (some input) = some e) :
    ∃ entries, input = .obj entries ∧ BaseFields ctx entries e := by
  obtain ⟨entries, same, h⟩ := object_eq_some h
  simp only [Option.bind_eq_bind, Option.bind_eq_some_iff, Option.pure_def, Option.some.injEq] at h
  obtain ⟨_, repoDid, _, uri, _, -, _, -, _, collection, _, -, _, subjectDid, _, subjectUri, _,
    subjectCid, _, reactionContent, _, reactionEmoji, _, operation, _, bridge, rfl⟩ := h
  exact ⟨entries, Option.some.inj same, repoDid, uri, collection, subjectDid, subjectUri,
    subjectCid, reactionContent, reactionEmoji, operation, bridge⟩

theorem recordEnvelope_spec {e : BaseEnvelope × R}
    (h : recordEnvelope ctx record input = some e) :
    ∃ entries, input = .obj entries ∧ BaseFields ctx entries e.1 ∧
      record (entries.lookup "record") = some e.2 := by
  simp only [recordEnvelope, Option.bind_eq_bind, Option.bind_eq_some_iff, Option.pure_def,
    Option.some.injEq] at h
  obtain ⟨envelope, base, record, read, rfl⟩ := h
  obtain ⟨entries, rfl, fields⟩ := baseEnvelopeSchema_spec base
  exact ⟨entries, rfl, fields, read⟩

theorem parseDeleteEnvelope_spec {e : BaseEnvelope}
    (h : parseDeleteEnvelope ctx collection input = some e) :
    (∃ entries, input = .obj entries ∧ BaseFields ctx entries e) ∧
      e.operation = some .delete ∧ e.collection = some collection := by
  obtain ⟨base, checked⟩ := Option.filter_eq_some_iff.mp h
  simp only [Bool.and_eq_true, decide_eq_true_eq] at checked
  exact ⟨baseEnvelopeSchema_spec base, checked⟩

theorem commitEnvelope_none {E : Type} {sourced : Bool} {operations : SchemaOf Operation}
    {extra : Fields → Option E}
    {entries : ProtocolBridgeRuntime.Entries} (direct : entries.lookup "eventType" = none) :
    commitEnvelope sourced operations collection record extra (some (.obj entries)) = none := by
  by_contra found
  obtain ⟨commit, h⟩ := Option.ne_none_iff_exists'.mp found
  simp only [commitEnvelope, object_obj, Option.bind_eq_bind, Option.bind_eq_some_iff] at h
  obtain ⟨_, -, _, event, -⟩ := h
  rw [direct] at event
  cases event

end

structure DirectInput (nsid : String) (entries : ProtocolBridgeRuntime.Entries) : Prop where
  direct : entries.lookup "eventType" = none
  collection : entries.lookup "collection" = some (.str nsid)
  record : ∀ value, entries.lookup "record" = some value →
    ∃ record, value = .obj record ∧ record.lookup "$type" = some (.str nsid)

def applied (translator : Translator) (input : Json) : Option Intent :=
  if translator.supports input then translator.translate input else none

variable {translator : Translator}

theorem applied_none {input : Json}
    (h : translator.supports input = false ∨ translator.translate input = none) :
    applied translator input = none := by
  rcases h with h | h <;> simp [applied, h]

section
variable {digests : Digests} {ctx : Context} {nsid : String}
variable {entries : ProtocolBridgeRuntime.Entries} (input : DirectInput nsid entries)
include input

variable {type : String} {R : Type} {schema : SchemaOf R}

theorem record_none (typed : Typed type schema)
    (other : nsid ≠ type) : schema (entries.lookup "record") = none := by
  by_contra found
  obtain ⟨record, h⟩ := Option.ne_none_iff_exists'.mp found
  obtain ⟨fields, value, ofType⟩ := typed h
  obtain ⟨fields', same, ofNsid⟩ := input.record _ value
  obtain rfl := Json.obj.inj same
  rw [ofType] at ofNsid
  exact other (Json.str.inj (Option.some.inj ofNsid)).symm

theorem envelope_none (typed : Typed type schema)
    (other : nsid ≠ type) : envelopeSchema schema (some (.obj entries)) = none := by
  by_contra found
  obtain ⟨e, h⟩ := Option.ne_none_iff_exists'.mp found
  obtain ⟨_, same, record, -⟩ := envelopeSchema_spec h
  obtain rfl := Json.obj.inj same
  rw [record_none input typed other] at record
  cases record

theorem delete_none (other : nsid ≠ type) :
    deleteEnvelopeSchema type (some (.obj entries)) = none := by
  by_contra found
  obtain ⟨e, h⟩ := Option.ne_none_iff_exists'.mp found
  obtain ⟨_, same, collection, -⟩ := deleteEnvelopeSchema_spec h
  obtain rfl := Json.obj.inj same
  simp [input.collection, literal, refine, other] at collection

theorem recordEnvelope_none
    (typed : Typed type schema) (other : nsid ≠ type) :
    recordEnvelope ctx schema (.obj entries) = none := by
  by_contra found
  obtain ⟨e, h⟩ := Option.ne_none_iff_exists'.mp found
  obtain ⟨_, same, -, record⟩ := recordEnvelope_spec h
  obtain rfl := Json.obj.inj same
  rw [record_none input typed other] at record
  cases record

theorem parseDelete_none (other : nsid ≠ type) :
    parseDeleteEnvelope ctx type (.obj entries) = none := by
  by_contra found
  obtain ⟨e, h⟩ := Option.ne_none_iff_exists'.mp found
  obtain ⟨⟨_, same, fields⟩, -, collection⟩ := parseDeleteEnvelope_spec h
  obtain rfl := Json.obj.inj same
  have read := fields.collection
  rw [input.collection, collection] at read
  simp only [optional_some, string_str, Option.map_some, Option.some.injEq] at read
  exact other read

theorem post_none (other : nsid ≠ "app.bsky.feed.post") :
    applied (bskyPostTranslator digests ctx) (.obj entries) = none := by
  refine applied_none (.inr ?_)
  simp [bskyPostTranslator, postEnvelope, envelope_none input typed_post other,
    commitEnvelope_none input.direct]

theorem document_none (other : nsid ≠ "site.standard.document") :
    applied (standardSiteDocumentTranslator digests ctx) (.obj entries) = none := by
  refine applied_none (.inr ?_)
  simp [standardSiteDocumentTranslator, documentEnvelope, documentCommit,
    envelope_none input typed_document other, commitEnvelope_none input.direct]

theorem profile_none (other : nsid ≠ "app.bsky.actor.profile") :
    applied (bskyProfileTranslator digests ctx) (.obj entries) = none := by
  refine applied_none (.inr ?_)
  have direct : profileEnvelopeSchema ctx (some (.obj entries)) = none := by
    by_contra found
    obtain ⟨e, h⟩ := Option.ne_none_iff_exists'.mp found
    obtain ⟨_, same, record, -⟩ := profileEnvelopeSchema_spec h
    obtain rfl := Json.obj.inj same
    rw [record_none input typed_profile other] at record
    cases record
  simp [bskyProfileTranslator, profileEnvelope, profileCommit, direct,
    commitEnvelope_none input.direct]

theorem postDelete_none (other : nsid ≠ "app.bsky.feed.post") :
    applied (bskyPostDeleteTranslator digests ctx) (.obj entries) = none := by
  refine applied_none (.inr ?_)
  simp [bskyPostDeleteTranslator, postDeleteEnvelope, delete_none input other]

theorem documentDelete_none (other : nsid ≠ "site.standard.document") :
    applied (standardSiteDocumentDeleteTranslator digests ctx) (.obj entries) = none := by
  refine applied_none (.inr ?_)
  simp [standardSiteDocumentDeleteTranslator, documentDeleteEnvelope, delete_none input other]

theorem gate_none {collection rules : String}
    {policies : Bool → Option GateRecord → Option ReplyPolicy × Option QuotePolicy}
    (other : nsid ≠ collection) :
    applied (gateTranslator digests ctx collection rules policies) (.obj entries) = none := by
  refine applied_none (.inl ?_)
  have direct : isDirectEnvelope collection (.obj entries) = false := by
    unfold isDirectEnvelope
    simp only [input.collection, defined]
    split <;> simp [ProtocolBridgeRuntime.isText, other]
  simp [gateTranslator, direct, isIngressEnvelope, input.direct, ProtocolBridgeRuntime.isText]

theorem social_none
    {build : BaseEnvelope × R → Option Intent} {buildDelete : BaseEnvelope → Option Intent}
    (typed : Typed type schema) (other : nsid ≠ type) :
    applied (socialTranslator ctx type (recordEnvelope ctx schema) build buildDelete)
      (.obj entries) = none := by
  refine applied_none (.inl ?_)
  simp [socialTranslator, recordEnvelope_none input typed other, parseDelete_none input other]

theorem like_none (other : nsid ≠ "app.bsky.feed.like") :
    applied (bskyLikeTranslator digests ctx) (.obj entries) = none :=
  social_none input typed_social other

theorem repost_none (other : nsid ≠ "app.bsky.feed.repost") :
    applied (bskyRepostTranslator digests ctx) (.obj entries) = none :=
  social_none input typed_social other

theorem follow_none (other : nsid ≠ "app.bsky.graph.follow") :
    applied (bskyFollowTranslator digests ctx) (.obj entries) = none :=
  social_none input typed_social other

theorem emojiReaction_none (other : nsid ≠ "org.activitypods.emojiReaction") :
    applied (activityPodsEmojiReactionTranslator digests ctx) (.obj entries) = none :=
  social_none input typed_emojiReaction other

end

inductive SocialCollection where
  | like | repost | follow | emojiReaction
  deriving DecidableEq

def SocialCollection.nsid : SocialCollection → String
  | .like => "app.bsky.feed.like"
  | .repost => "app.bsky.feed.repost"
  | .follow => "app.bsky.graph.follow"
  | .emojiReaction => "org.activitypods.emojiReaction"

def translateSocial (digests : Digests) (ctx : Context) : SocialCollection → Json → Option Intent
  | .like => translateLikeEnvelope digests ctx
  | .repost => translateRepostEnvelope digests ctx
  | .follow => translateFollowEnvelope digests ctx
  | .emojiReaction => translateEmojiReactionEnvelope digests ctx

section
variable (digests : Digests) (ctx : Context)

theorem translateSocial_like : translateSocial digests ctx .like =
    translateEnvelope ctx "app.bsky.feed.like"
      (recordEnvelope ctx (socialRecordSchema "app.bsky.feed.like" strongRefSchema))
      (fun e => some (buildReactionIntent digests ctx e.1 e.2))
      (buildReactionDeleteIntent digests ctx) := rfl

theorem translateSocial_repost : translateSocial digests ctx .repost =
    translateEnvelope ctx "app.bsky.feed.repost"
      (recordEnvelope ctx (socialRecordSchema "app.bsky.feed.repost" strongRefSchema))
      (fun e => some (buildShareIntent digests ctx e.1 e.2))
      (buildShareDeleteIntent digests ctx) := rfl

theorem translateSocial_follow : translateSocial digests ctx .follow =
    translateEnvelope ctx "app.bsky.graph.follow"
      (recordEnvelope ctx (socialRecordSchema "app.bsky.graph.follow" (startsWith "did:")))
      (fun e => some (buildFollowIntent digests ctx e.1 e.2))
      (buildFollowDeleteIntent digests ctx) := rfl

theorem translateSocial_emojiReaction : translateSocial digests ctx .emojiReaction =
    translateEnvelope ctx "org.activitypods.emojiReaction"
      (recordEnvelope ctx (emojiReactionRecordSchema ctx))
      (fun e => buildEmojiReactionIntent digests ctx e.1 e.2)
      (buildEmojiReactionDeleteIntent digests ctx) := rfl

end

section
variable {digests : Digests} {ctx : Context}

theorem applied_social {R : Type} {collection : String}
    {read : Json → Option (BaseEnvelope × R)} {build : BaseEnvelope × R → Option Intent}
    {buildDelete : BaseEnvelope → Option Intent} (input : Json) :
    applied (socialTranslator ctx collection read build buildDelete) input =
      translateEnvelope ctx collection read build buildDelete input := by
  cases found : read input with
  | some e => simp [applied, socialTranslator, translateEnvelope, found]
  | none =>
    cases deleted : parseDeleteEnvelope ctx collection input <;>
      simp [applied, socialTranslator, translateEnvelope, found, deleted]

def socialTranslatorOf (digests : Digests) (ctx : Context) : SocialCollection → Translator
  | .like => bskyLikeTranslator digests ctx
  | .repost => bskyRepostTranslator digests ctx
  | .follow => bskyFollowTranslator digests ctx
  | .emojiReaction => activityPodsEmojiReactionTranslator digests ctx

theorem applied_socialTranslatorOf (c : SocialCollection) (input : Json) :
    applied (socialTranslatorOf digests ctx c) input = translateSocial digests ctx c input := by
  cases c <;> exact applied_social input

theorem translate_social {c : SocialCollection} {entries : ProtocolBridgeRuntime.Entries}
    (input : DirectInput c.nsid entries) :
    translate digests ctx (.obj entries) = translateSocial digests ctx c (.obj entries) := by
  have registry : translate digests ctx (.obj entries) =
      (atprotoToCanonicalTranslators digests ctx).findSome? (applied · (.obj entries)) := rfl
  rw [registry, ← applied_socialTranslatorOf]
  simp only [atprotoToCanonicalTranslators, List.findSome?_cons, List.findSome?_nil,
    bskyThreadgateTranslator, bskyPostgateTranslator, socialTranslatorOf]
  cases c <;> simp only [SocialCollection.nsid] at input
  case like =>
    simp [post_none input, postDelete_none input, gate_none input, profile_none input,
      document_none input, documentDelete_none input,
      repost_none input, follow_none input, emojiReaction_none input]
    cases applied (bskyLikeTranslator digests ctx) (.obj entries) <;> rfl
  case repost =>
    simp [post_none input, postDelete_none input, gate_none input, profile_none input,
      document_none input, documentDelete_none input,
      like_none input, follow_none input, emojiReaction_none input]
    cases applied (bskyRepostTranslator digests ctx) (.obj entries) <;> rfl
  case follow =>
    simp [post_none input, postDelete_none input, gate_none input, profile_none input,
      document_none input, documentDelete_none input,
      like_none input, repost_none input, emojiReaction_none input]
    cases applied (bskyFollowTranslator digests ctx) (.obj entries) <;> rfl
  case emojiReaction =>
    simp [post_none input, postDelete_none input, gate_none input, profile_none input,
      document_none input, documentDelete_none input,
      like_none input, repost_none input, follow_none input]
    cases applied (activityPodsEmojiReactionTranslator digests ctx) (.obj entries) <;> rfl

end

def BridgedBy (entries : ProtocolBridgeRuntime.Entries) (intent : Intent) : Prop :=
  ∃ bridge fallbackEventId account, bridgeSchema (entries.lookup "bridge") = some bridge ∧
    intent.provenance = toProvenance bridge fallbackEventId account

theorem translate_of_applied {input : Json} {intent : Intent}
    (h : applied translator input = some intent) : translator.translate input = some intent := by
  unfold applied at h
  split at h
  · exact h
  · cases h

section
variable {digests : Digests} {ctx : Context} {entries : ProtocolBridgeRuntime.Entries}
variable {intent : Intent}

variable {collection : String}

theorem delete_bridged {canonicalUrl : DeleteEnvelope → Option String}
    {e : DeleteEnvelope} (read : deleteEnvelopeSchema collection (some (.obj entries)) = some e) :
    BridgedBy entries (translateDeleteEnvelope digests ctx collection canonicalUrl e) := by
  obtain ⟨_, same, -, bridge⟩ := deleteEnvelopeSchema_spec read
  obtain rfl := Json.obj.inj same
  exact ⟨_, _, _, bridge, rfl⟩

theorem postDelete_bridged
    (h : (bskyPostDeleteTranslator digests ctx).translate (.obj entries) = some intent) :
    BridgedBy entries intent := by
  obtain ⟨e, read, rfl⟩ := Option.map_eq_some_iff.mp h
  exact delete_bridged (Option.filter_eq_some_iff.mp read).1

theorem documentDelete_bridged
    (h : (standardSiteDocumentDeleteTranslator digests ctx).translate (.obj entries) =
      some intent) : BridgedBy entries intent := by
  obtain ⟨e, read, rfl⟩ := Option.map_eq_some_iff.mp h
  exact delete_bridged read

variable {nsid : String} {visibility : Audience} {createdAt : Option String} {e : BaseEnvelope}

theorem base_bridged
    {body : Body} (base : BaseFields ctx entries e) :
    BridgedBy entries (socialIntent digests ctx nsid visibility e createdAt body) :=
  ⟨_, _, _, base.bridge, rfl⟩

theorem social_bridged {R : Type} {schema : SchemaOf R}
    {build : BaseEnvelope × R → Option Intent} {buildDelete : BaseEnvelope → Option Intent}
    (builds : ∀ {e intent}, build e = some intent → ∃ nsid visibility createdAt body,
      intent = socialIntent digests ctx nsid visibility e.1 createdAt body)
    (deletes : ∀ {e intent}, buildDelete e = some intent → ∃ nsid visibility createdAt body,
      intent = socialIntent digests ctx nsid visibility e createdAt body)
    (h : translateEnvelope ctx collection (recordEnvelope ctx schema) build buildDelete
      (.obj entries) = some intent) : BridgedBy entries intent := by
  unfold translateEnvelope at h
  split at h
  case h_1 envelope read =>
    obtain ⟨_, same, base, -⟩ := recordEnvelope_spec read
    obtain rfl := Json.obj.inj same
    obtain ⟨_, _, _, _, rfl⟩ := builds h
    exact base_bridged base
  case h_2 =>
    obtain ⟨e, parsed, built⟩ := Option.bind_eq_some_iff.mp h
    obtain ⟨⟨_, same, base⟩, -⟩ := parseDeleteEnvelope_spec parsed
    obtain rfl := Json.obj.inj same
    obtain ⟨_, _, _, _, rfl⟩ := deletes built
    exact base_bridged base

theorem social_of_some
    {body : Body} {intent : Intent}
    (h : some (socialIntent digests ctx nsid visibility e createdAt body) = some intent) :
    ∃ nsid visibility createdAt body,
      intent = socialIntent digests ctx nsid visibility e createdAt body :=
  ⟨_, _, _, _, (Option.some.inj h).symm⟩

theorem social_of_map {S : Type} {named : Option S}
    {body : S → Body} {intent : Intent}
    (h : named.map (fun s => socialIntent digests ctx nsid visibility e createdAt (body s)) =
      some intent) :
    ∃ nsid visibility createdAt body,
      intent = socialIntent digests ctx nsid visibility e createdAt body := by
  obtain ⟨_, -, rfl⟩ := Option.map_eq_some_iff.mp h
  exact ⟨_, _, _, _, rfl⟩

variable (direct : entries.lookup "eventType" = none)
include direct

theorem post_bridged
    (h : (bskyPostTranslator digests ctx).translate (.obj entries) = some intent) :
    BridgedBy entries intent := by
  simp only [bskyPostTranslator, postEnvelope, commitEnvelope_none direct, Option.bind_none,
    Option.or_none] at h
  obtain ⟨e, read, rfl⟩ := Option.map_eq_some_iff.mp h
  obtain ⟨_, same, -, bridge⟩ := envelopeSchema_spec read
  obtain rfl := Json.obj.inj same
  exact ⟨_, _, _, bridge, rfl⟩

theorem document_bridged
    (h : (standardSiteDocumentTranslator digests ctx).translate (.obj entries) = some intent) :
    BridgedBy entries intent := by
  simp only [standardSiteDocumentTranslator, documentEnvelope, documentCommit,
    commitEnvelope_none direct, Option.bind_none, Option.or_none] at h
  obtain ⟨e, read, rfl⟩ := Option.map_eq_some_iff.mp h
  obtain ⟨_, same, -, bridge⟩ := envelopeSchema_spec read
  obtain rfl := Json.obj.inj same
  exact ⟨_, _, _, bridge, rfl⟩

theorem profile_bridged
    (h : (bskyProfileTranslator digests ctx).translate (.obj entries) = some intent) :
    BridgedBy entries intent := by
  simp only [bskyProfileTranslator, profileEnvelope, profileCommit, commitEnvelope_none direct,
    Option.bind_none, Option.or_none] at h
  obtain ⟨e, read, rfl⟩ := Option.map_eq_some_iff.mp h
  obtain ⟨_, same, -, bridge⟩ := profileEnvelopeSchema_spec read
  obtain rfl := Json.obj.inj same
  exact ⟨_, _, _, bridge, rfl⟩

theorem gate_bridged {rules : String}
    {policies : Bool → Option GateRecord → Option ReplyPolicy × Option QuotePolicy}
    (h : (gateTranslator digests ctx collection rules policies).translate (.obj entries) =
      some intent) : BridgedBy entries intent := by
  simp only [gateTranslator, gateCommit, commitEnvelope_none direct, Option.map_none,
    Option.none_or] at h
  obtain ⟨e, read, gate⟩ := Option.bind_eq_some_iff.mp h
  obtain ⟨_, same, bridge⟩ := gateEnvelopeSchema_spec read
  obtain rfl := Json.obj.inj same
  obtain ⟨_, -, rfl⟩ := Option.map_eq_some_iff.mp gate
  exact ⟨_, _, _, bridge, rfl⟩

theorem translate_bridged (h : translate digests ctx (.obj entries) = some intent) :
    BridgedBy entries intent := by
  obtain ⟨translator, listed, found⟩ := List.exists_of_findSome?_eq_some h
  have translated : translator.translate (.obj entries) = some intent :=
    translate_of_applied found
  simp only [atprotoToCanonicalTranslators, List.mem_cons, List.not_mem_nil, or_false] at listed
  rcases listed with rfl | rfl | rfl | rfl | rfl | rfl | rfl | rfl | rfl | rfl | rfl
  · exact post_bridged direct translated
  · exact postDelete_bridged translated
  · exact gate_bridged direct translated
  · exact gate_bridged direct translated
  · exact profile_bridged direct translated
  · exact social_bridged social_of_map social_of_map translated
  · exact social_bridged social_of_some social_of_map translated
  · exact social_bridged social_of_some social_of_map translated
  · exact social_bridged social_of_some social_of_map translated
  · exact document_bridged direct translated
  · exact documentDelete_bridged translated

end

end MastopodFederation.Guarantees.AtTranslation
