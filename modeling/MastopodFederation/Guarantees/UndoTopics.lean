import MastopodFederation.Guarantees.AtTranslation
import MastopodFederation.Guarantees.ReplaySuppression
import MastopodFederation.Source.ShareAddToApProjector

/-!
# Removals on the two AT topics

A delete has no record, so the subject of what it undoes has to be in the event. It is
translated to the removal of what its record added exactly when it comes by at.commit with the
subject.
-/
namespace MastopodFederation.Guarantees.UndoTopics
open Lib.LuaTable Lib.Schema Source Source.CanonicalIntent Source.AtEnvelope
open Source.BskyTranslators Source.SocialTranslators Source.AtToApProjectionWorker
open Source.AtEventHandlers Source.ProtocolBridgeRuntime Source.ShareAddToApProjector AtTranslation
open ReplaySuppression

structure SocialRecordOf where
  collection : SocialCollection
  did : String
  rkey : String
  canonicalRefId : String
  fields : Entries
  typed : fields.lookup "$type" = some (.str collection.nsid)
  keyed : rkey ≠ ""

def SocialRecordOf.uri (r : SocialRecordOf) : String := recordUri r.did r.collection.nsid r.rkey

def SocialRecordOf.createOp (r : SocialRecordOf) : RepoOp where
  did := r.did
  opType := .create
  collection := r.collection.nsid
  rkey := r.rkey
  canonicalRefId := r.canonicalRefId
  record := some (.obj r.fields)
  bridge := none

def SocialRecordOf.deleteOp (r : SocialRecordOf) : RepoOp where
  did := r.did
  opType := .delete
  collection := r.collection.nsid
  rkey := r.rkey
  canonicalRefId := r.canonicalRefId
  record := some .null
  bridge := none

inductive Topic where
  | atCommit (subject : AliasSubject) (cid : String) (bridge : Option Json)
  | verifiedIngress (cid : Option String)

def Topic.subject : Topic → AliasSubject
  | .atCommit subject _ _ => subject
  | .verifiedIngress _ => {}

def Topic.bridge : Topic → Option Json
  | .atCommit _ _ bridge => bridge
  | .verifiedIngress _ => none

section
variable (printed : Option Json → String)

def Topic.event (op : RepoOp) : Topic → Json
  | .atCommit subject cid bridge => atCommitEvent op.did [persistedOp { op with bridge } subject cid]
  | .verifiedIngress cid => atIngressEvent op cid

def Topic.handle (worker : Worker) (answer : Nat → Except Retry.Thrown Unit) (event : Json)
    (w : World) : Topic → World × Except Retry.Thrown Unit
  | .atCommit .. => handleAtCommitEvent worker printed (fun _ => answer) event w
  | .verifiedIngress _ => handleAtVerifiedIngressEvent worker answer event w

def Topic.input (op : RepoOp) : Topic → Json
  | .atCommit subject cid bridge =>
    commitInput printed op.did (persistedOp { op with bridge } subject cid)
  | .verifiedIngress cid => ingressInput
      { did := op.did
        operation := Operation.text op.opType
        collection := op.collection
        rkey := op.rkey
        cid
        canonicalRefId := none
        record := plainObject op.record }

theorem asAtCommitEvent_event (did : String) (ops : List Entries) :
    asAtCommitEvent (atCommitEvent did ops) = some (did, ops.map .obj) := by
  simp [asAtCommitEvent, atCommitEvent, List.lookup_cons]

theorem asAtVerifiedIngressEvent_event (op : RepoOp) (cid : Option String)
    (named : op.collection ≠ "") (keyed : op.rkey ≠ "") :
    asAtVerifiedIngressEvent (atIngressEvent op cid) = some
      { did := op.did
        operation := Operation.text op.opType
        collection := op.collection
        rkey := op.rkey
        cid
        canonicalRefId := none
        record := plainObject op.record } := by
  cases type : op.opType <;> cases cid <;> cases record : op.record <;>
    simp [asAtVerifiedIngressEvent, atIngressEvent, List.lookup_cons, textOf, plainObject,
      isText, named, keyed, type, record, Operation.text]

theorem processOps_single (worker : Worker) (did : String) (op : Entries)
    (answer : Nat → Except Retry.Thrown Unit) (w : World) :
    (processOps worker printed did (fun _ => answer) [.obj op] w).1 =
      (process worker answer (commitInput printed did op) w).1 := by
  cases h : process worker answer (commitInput printed did op) w with
  | mk after outcome => cases outcome <;> simp [processOps, opEntries, h]

theorem handle_event (worker : Worker) (answer : Nat → Except Retry.Thrown Unit) (w : World)
    (topic : Topic) (op : RepoOp) (named : op.collection ≠ "") (keyed : op.rkey ≠ "") :
    (topic.handle printed worker answer (topic.event op) w).1 =
      (process worker answer (topic.input printed op) w).1 := by
  cases topic with
  | atCommit subject cid bridge =>
    simp only [Topic.handle, Topic.event, Topic.input, handleAtCommitEvent,
      asAtCommitEvent_event]
    exact processOps_single printed ..
  | verifiedIngress cid =>
    simp only [Topic.handle, Topic.event, Topic.input, handleAtVerifiedIngressEvent,
      asAtVerifiedIngressEvent_event _ _ named keyed]
    split <;> simp_all

structure InputFields (topic : Topic) (op : RepoOp) (entries : Entries) : Prop where
  direct : entries.lookup "eventType" = none
  repoDid : entries.lookup "repoDid" = some (.str op.did)
  uri : entries.lookup "uri" = some (.str (recordUri op.did op.collection op.rkey))
  cid : ∃ cid : Option String, entries.lookup "cid" = cid.map .str
  rkey : entries.lookup "rkey" = some (.str op.rkey)
  collection : entries.lookup "collection" = some (.str op.collection)
  canonicalRefId : ∃ id : Option String, entries.lookup "canonicalRefId" = id.map .str
  subjectDid : entries.lookup "subjectDid" = topic.subject.subjectDid.map .str
  subjectUri : entries.lookup "subjectUri" = topic.subject.subjectUri.map .str
  subjectCid : entries.lookup "subjectCid" = topic.subject.subjectCid.map .str
  reactionContent : entries.lookup "reactionContent" = topic.subject.reactionContent.map .str
  reactionEmoji : entries.lookup "reactionEmoji" =
    topic.subject.reactionEmoji.filter DelayedQueue.jsTruthy
  operation : entries.lookup "operation" = some (.str (Operation.text op.opType))
  bridge : entries.lookup "bridge" = provenanceOf (topic.bridge.filter DelayedQueue.jsTruthy)
  record : entries.lookup "record" = (plainObject op.record).map .obj

def IsRecordValue (record : Option Json) : Prop :=
  record = some .null ∨ ∃ fields, record = some (.obj fields)

theorem defined_truthy (value : Option Json) :
    defined (value.filter DelayedQueue.jsTruthy) = value.filter DelayedQueue.jsTruthy := by
  cases h : value.filter DelayedQueue.jsTruthy with
  | none => rfl
  | some value =>
    have truthy := (Option.filter_eq_some_iff.mp h).2
    cases value <;> first | rfl | cases truthy

theorem input_fields (topic : Topic) (op : RepoOp) (value : IsRecordValue op.record) :
    ∃ entries, topic.input printed op = .obj entries ∧ InputFields topic op entries := by
  cases topic with
  | atCommit subject cid bridge =>
    refine ⟨_, rfl, ?_⟩
    constructor
    case cid => exact ⟨some cid, by simp [persistedOp, defined]⟩
    case canonicalRefId => exact ⟨some op.canonicalRefId, by simp [persistedOp]⟩
    case record =>
      rcases value with h | ⟨fields, h⟩ <;>
        simp [persistedOp, h, plainObject, isObjectValue]
    case reactionEmoji => simp [persistedOp, Topic.subject, defined_truthy]
    case bridge => simp [persistedOp, Topic.bridge]
    all_goals simp [persistedOp, defined, Topic.subject]
  | verifiedIngress cid =>
    refine ⟨_, rfl, ?_⟩
    constructor
    case cid => exact ⟨cid, by simp⟩
    case canonicalRefId => exact ⟨none, by simp⟩
    all_goals simp [Topic.subject, Topic.bridge, provenanceOf]

theorem create_input (topic : Topic) (r : SocialRecordOf) :
    ∃ entries, topic.input printed r.createOp = .obj entries ∧
      InputFields topic r.createOp entries ∧ DirectInput r.collection.nsid entries := by
  obtain ⟨entries, same, fields⟩ :=
    input_fields printed topic r.createOp (.inr ⟨r.fields, rfl⟩)
  refine ⟨entries, same, fields, fields.direct, fields.collection, fun value h => ?_⟩
  rw [fields.record] at h
  obtain rfl := Option.some.inj h
  exact ⟨r.fields, rfl, r.typed⟩

theorem delete_input (topic : Topic) (r : SocialRecordOf) :
    ∃ entries, topic.input printed r.deleteOp = .obj entries ∧
      InputFields topic r.deleteOp entries ∧ DirectInput r.collection.nsid entries := by
  obtain ⟨entries, same, fields⟩ := input_fields printed topic r.deleteOp (.inl rfl)
  refine ⟨entries, same, fields, fields.direct, fields.collection, fun value h => ?_⟩
  rw [fields.record] at h
  cases h

end

section
variable {digests : Digests} {ctx : Context} {topic : Topic} {op : RepoOp} {entries : Entries}
variable {e : BaseEnvelope}

theorem operation_text (type : Operation) :
    operation (some (.str (Operation.text type))) = some type := by
  cases type <;> decide

theorem repoDid_of_input (fields : InputFields topic op entries) (base : BaseFields ctx entries e) :
    e.repoDid = op.did ∧ hasPrefix "did:" op.did = true := by
  have read := base.repoDid
  rw [fields.repoDid, startsWith_eq_some] at read
  obtain ⟨same, start⟩ := read
  have same : op.did = e.repoDid := Json.str.inj (Option.some.inj same)
  exact ⟨same.symm, same ▸ start⟩

theorem uri_of_input (fields : InputFields topic op entries) (base : BaseFields ctx entries e) :
    e.uri = some (recordUri op.did op.collection op.rkey) := by
  have read := base.uri
  rw [fields.uri, optional_some, Option.map_eq_some_iff] at read
  obtain ⟨text, checked, same⟩ := read
  obtain ⟨value, -⟩ := startsWith_eq_some.mp checked
  rw [← same, ← Json.str.inj (Option.some.inj value)]

theorem operation_of_input (fields : InputFields topic op entries) (base : BaseFields ctx entries e) :
    e.operation = some op.opType := by
  have read := base.operation
  rw [fields.operation, optional_some, operation_text] at read
  exact (Option.some.inj read).symm

inductive Adds : SocialCollection → Body → Prop where
  | like (object : ObjectRef) : Adds .like (.reactionAdd object .like)
  | repost (object : ObjectRef) : Adds .repost (.shareAdd object)
  | follow (subject : ActorRef) : Adds .follow (.followAdd subject)
  | emojiReaction (object : ObjectRef) (content : Option String)
      (definition : Option CustomEmoji) :
      Adds .emojiReaction (.reactionAdd object (.emoji content definition))

structure About (ctx : Context) (r : SocialRecordOf) (intent : Intent) : Prop where
  sourceEventId : intent.sourceEventId = r.uri
  sourceAccountRef : intent.sourceAccountRef = ctx.resolveActorRef { did := r.did }

theorem about_socialIntent {r : SocialRecordOf} {nsid : String} {visibility : Audience}
    {createdAt : Option String} {body : Body} (repoDid : e.repoDid = r.did)
    (uri : e.uri = some r.uri) :
    About ctx r (socialIntent digests ctx nsid visibility e createdAt body) := by
  constructor
  · simp [socialIntent, Draft.finish, uri]
  · simp [socialIntent, Draft.finish, repoDid]

theorem created_envelope {R : Type} {type : String} {schema : SchemaOf R}
    {build : BaseEnvelope × R → Option Intent} {buildDelete : BaseEnvelope → Option Intent}
    {intent : Intent} (fields : InputFields topic op entries) (created : op.opType = .create)
    (h : translateEnvelope ctx type (recordEnvelope ctx schema) build buildDelete
      (.obj entries) = some intent) :
    ∃ e record, BaseFields ctx entries e ∧ build (e, record) = some intent := by
  unfold translateEnvelope at h
  split at h
  case h_1 envelope read =>
    obtain ⟨_, same, base, -⟩ := recordEnvelope_spec read
    obtain rfl := Json.obj.inj same
    exact ⟨envelope.1, envelope.2, base, h⟩
  case h_2 =>
    obtain ⟨e, parsed, -⟩ := Option.bind_eq_some_iff.mp h
    obtain ⟨⟨_, same, base⟩, deleted, -⟩ := parseDeleteEnvelope_spec parsed
    obtain rfl := Json.obj.inj same
    rw [operation_of_input fields base, created] at deleted
    cases deleted

theorem create_translated {r : SocialRecordOf} {intent : Intent}
    (fields : InputFields topic r.createOp entries)
    (h : translateSocial digests ctx r.collection (.obj entries) = some intent) :
    hasPrefix "did:" r.did = true ∧ About ctx r intent ∧ Adds r.collection intent.body := by
  have create {e} (base : BaseFields ctx entries e) : isDelete e = false := by
    simp [isDelete, operation_of_input fields base, SocialRecordOf.createOp]
  have about {e nsid visibility createdAt body} (base : BaseFields ctx entries e) :
      About ctx r (socialIntent digests ctx nsid visibility e createdAt body) := by
    refine about_socialIntent (repoDid_of_input fields base).1 ?_
    simpa only [SocialRecordOf.uri, SocialRecordOf.createOp] using uri_of_input fields base
  cases collection : r.collection
  case like =>
    rw [collection, translateSocial_like] at h
    obtain ⟨e, record, base, built⟩ := created_envelope fields rfl h
    obtain rfl := Option.some.inj built
    refine ⟨(repoDid_of_input fields base).2, about base, ?_⟩
    simp only [buildReactionIntent, socialIntent, Draft.finish, reactionBody, create base]
    exact .like _
  case repost =>
    rw [collection, translateSocial_repost] at h
    obtain ⟨e, record, base, built⟩ := created_envelope fields rfl h
    obtain rfl := Option.some.inj built
    refine ⟨(repoDid_of_input fields base).2, about base, ?_⟩
    simp only [buildShareIntent, socialIntent, Draft.finish, shareBody, create base]
    exact .repost _
  case follow =>
    rw [collection, translateSocial_follow] at h
    obtain ⟨e, record, base, built⟩ := created_envelope fields rfl h
    obtain rfl := Option.some.inj built
    refine ⟨(repoDid_of_input fields base).2, about base, ?_⟩
    simp only [buildFollowIntent, socialIntent, Draft.finish, followBody, create base]
    exact .follow _
  case emojiReaction =>
    rw [collection, translateSocial_emojiReaction] at h
    obtain ⟨e, record, base, built⟩ := created_envelope fields rfl h
    obtain ⟨content, -, rfl⟩ := Option.map_eq_some_iff.mp built
    refine ⟨(repoDid_of_input fields base).2, about base, ?_⟩
    simp only [socialIntent, Draft.finish, reactionBody, create base]
    exact .emojiReaction _ _ _

inductive Removes : Body → Body → Prop where
  | like {removed added : ObjectRef}
      (same : canonicalObjectIdentityKey removed = canonicalObjectIdentityKey added) :
      Removes (.reactionRemove removed .like) (.reactionAdd added .like)
  | emoji {removed added : ObjectRef} {content content' : Option String}
      {definition definition' : Option CustomEmoji}
      (same : canonicalObjectIdentityKey removed = canonicalObjectIdentityKey added) :
      Removes (.reactionRemove removed (.emoji content definition))
        (.reactionAdd added (.emoji content' definition'))
  | share {removed added : ObjectRef}
      (same : canonicalObjectIdentityKey removed = canonicalObjectIdentityKey added) :
      Removes (.shareRemove removed) (.shareAdd added)
  | follow {removed added : ActorRef}
      (same : canonicalActorIdentityKey removed = canonicalActorIdentityKey added) :
      Removes (.followRemove removed) (.followAdd added)

structure Undoes (removal addition : Intent) : Prop where
  record : removal.sourceEventId = addition.sourceEventId
  actor : removal.sourceAccountRef = addition.sourceAccountRef
  body : Removes removal.body addition.body

def namedTarget (ctx : Context) (subject : AliasSubject) : SocialCollection → Option String
  | .follow => subject.subjectDid.map fun did =>
      canonicalActorIdentityKey (ctx.resolveActorRef { did })
  | .like | .repost | .emojiReaction => subject.subjectUri.map fun uri =>
      canonicalObjectIdentityKey (resolveSubject ctx ⟨uri, subject.subjectCid⟩)

structure WellFormed (ctx : Context) (subject : AliasSubject) (bridge : Option Json) : Prop where
  subjectDid : subject.subjectDid.all (hasPrefix "did:") = true
  subjectUri : subject.subjectUri.all (hasPrefix "at://") = true
  reactionContent : subject.reactionContent ≠ some ""
  reactionEmoji : (nullish (emojiDefinitionSchema ctx)
    (subject.reactionEmoji.filter DelayedQueue.jsTruthy)).isSome = true
  bridge : (bridgeSchema (provenanceOf (bridge.filter DelayedQueue.jsTruthy))).isSome = true

theorem hasPrefix_recordUri (did collection rkey : String) :
    "at://".toList.isPrefixOf (recordUri did collection rkey).toList = true := by
  simp [recordUri, toString]

theorem subject_of_input (fields : InputFields topic op entries) (base : BaseFields ctx entries e) :
    e.subjectDid = topic.subject.subjectDid ∧ e.subjectUri = topic.subject.subjectUri ∧
      e.subjectCid = topic.subject.subjectCid := by
  have did := base.subjectDid
  have uri := base.subjectUri
  have cid := base.subjectCid
  rw [fields.subjectDid, startsWith, optional_refine_str] at did
  rw [fields.subjectUri, startsWith, optional_refine_str] at uri
  rw [fields.subjectCid, optional_string_str] at cid
  split at did <;> split at uri <;> simp_all

theorem wellFormed_of_base (fields : InputFields topic op entries)
    (base : BaseFields ctx entries e) : WellFormed ctx topic.subject topic.bridge := by
  have did := base.subjectDid
  have uri := base.subjectUri
  have content := base.reactionContent
  rw [fields.subjectDid, startsWith, optional_refine_str] at did
  rw [fields.subjectUri, startsWith, optional_refine_str] at uri
  rw [fields.reactionContent, nonempty, optional_refine_str] at content
  refine ⟨?_, ?_, ?_, ?_, ?_⟩
  · split at did
    · assumption
    · cases did
  · split at uri
    · assumption
    · cases uri
  · rintro h
    simp [h] at content
  · rw [← fields.reactionEmoji, base.reactionEmoji]
    rfl
  · rw [← fields.bridge, base.bridge]
    rfl

theorem base_of_wellFormed (fields : InputFields topic op entries)
    (did : hasPrefix "did:" op.did = true)
    (wellFormed : WellFormed ctx topic.subject topic.bridge) :
    ∃ e, baseEnvelopeSchema ctx (some (.obj entries)) = some e := by
  obtain ⟨cid, isCid⟩ := fields.cid
  obtain ⟨id, isId⟩ := fields.canonicalRefId
  obtain ⟨emoji, isEmoji⟩ := Option.isSome_iff_exists.mp wellFormed.reactionEmoji
  obtain ⟨bridge, isBridge⟩ := Option.isSome_iff_exists.mp wellFormed.bridge
  have content : topic.subject.reactionContent.all (fun text => text ≠ "") = true := by
    cases h : topic.subject.reactionContent with
    | none => rfl
    | some text => simpa [h] using wellFormed.reactionContent
  have repoDid : startsWith "did:" (some (.str op.did)) = some op.did :=
    startsWith_eq_some.mpr ⟨rfl, did⟩
  have uri : startsWith "at://" (some (.str (recordUri op.did op.collection op.rkey))) =
      some (recordUri op.did op.collection op.rkey) :=
    startsWith_eq_some.mpr ⟨rfl, hasPrefix_recordUri ..⟩
  have subjectDid : optional (startsWith "did:") (topic.subject.subjectDid.map .str) =
      some topic.subject.subjectDid := by
    rw [startsWith, optional_refine_str]
    exact if_pos wellFormed.subjectDid
  have subjectUri : optional (startsWith "at://") (topic.subject.subjectUri.map .str) =
      some topic.subject.subjectUri := by
    rw [startsWith, optional_refine_str]
    exact if_pos wellFormed.subjectUri
  have reactionContent : optional nonempty (topic.subject.reactionContent.map .str) =
      some topic.subject.reactionContent := by
    rw [nonempty, optional_refine_str]
    exact if_pos content
  simp only [baseEnvelopeSchema, object_obj, fields.repoDid, repoDid, fields.uri, optional_some,
    uri, isCid, optional_string_str, fields.rkey, string_str, fields.collection, isId,
    fields.subjectDid, subjectDid, fields.subjectUri, subjectUri, fields.subjectCid,
    fields.reactionContent, reactionContent, fields.reactionEmoji, isEmoji, fields.operation,
    operation_text, fields.bridge, isBridge, Option.map_some, Option.bind_eq_bind,
    Option.bind_some]
  exact ⟨_, rfl⟩

theorem deleted_envelope {R : Type} {type : String} {schema : SchemaOf R}
    {build : BaseEnvelope × R → Option Intent} {buildDelete : BaseEnvelope → Option Intent}
    (typed : Typed type schema) (noRecord : entries.lookup "record" = none) :
    translateEnvelope ctx type (recordEnvelope ctx schema) build buildDelete (.obj entries) =
      (parseDeleteEnvelope ctx type (.obj entries)).bind buildDelete := by
  unfold translateEnvelope
  split
  case h_1 envelope read =>
    obtain ⟨_, same, -, record⟩ := recordEnvelope_spec read
    obtain rfl := Json.obj.inj same
    obtain ⟨_, value, -⟩ := typed record
    rw [noRecord] at value
    cases value
  case h_2 => rfl

def buildDelete (digests : Digests) (ctx : Context) :
    SocialCollection → BaseEnvelope → Option Intent
  | .like => buildReactionDeleteIntent digests ctx
  | .repost => buildShareDeleteIntent digests ctx
  | .follow => buildFollowDeleteIntent digests ctx
  | .emojiReaction => buildEmojiReactionDeleteIntent digests ctx

theorem delete_translated {r : SocialRecordOf} (fields : InputFields topic r.deleteOp entries) :
    translateSocial digests ctx r.collection (.obj entries) =
      (parseDeleteEnvelope ctx r.collection.nsid (.obj entries)).bind
        (buildDelete digests ctx r.collection) := by
  have noRecord : entries.lookup "record" = none := fields.record
  cases r.collection
  · rw [translateSocial_like]
    exact deleted_envelope typed_social noRecord
  · rw [translateSocial_repost]
    exact deleted_envelope typed_social noRecord
  · rw [translateSocial_follow]
    exact deleted_envelope typed_social noRecord
  · rw [translateSocial_emojiReaction]
    exact deleted_envelope typed_emojiReaction noRecord

theorem deletedSubject_eq (fields : InputFields topic op entries)
    (base : BaseFields ctx entries e) (wellFormed : WellFormed ctx topic.subject topic.bridge) :
    deletedSubject e = topic.subject.subjectUri.map fun uri => ⟨uri, topic.subject.subjectCid⟩ := by
  obtain ⟨-, uri, cid⟩ := subject_of_input fields base
  have start := wellFormed.subjectUri
  rw [deletedSubject, uri, cid]
  cases h : topic.subject.subjectUri with
  | none => rfl
  | some text =>
    have : text ≠ "" := by
      rintro rfl
      rw [h] at start
      revert start
      decide
    simp [Option.filter, this]

theorem deletedDid_eq (fields : InputFields topic op entries)
    (base : BaseFields ctx entries e) (wellFormed : WellFormed ctx topic.subject topic.bridge) :
    e.subjectDid.filter (· ≠ "") = topic.subject.subjectDid := by
  obtain ⟨did, -, -⟩ := subject_of_input fields base
  have start := wellFormed.subjectDid
  rw [did]
  cases h : topic.subject.subjectDid with
  | none => rfl
  | some text =>
    have : text ≠ "" := by
      rintro rfl
      rw [h] at start
      revert start
      decide
    simp [Option.filter, this]

theorem exists_undo_iff {S : Type} {named : Option S} {build : S → Intent} {key : S → String}
    {addition : Intent} {target : String}
    (h : ∀ subject, Undoes (build subject) addition ↔ key subject = target) :
    (∃ removal, named.map build = some removal ∧ Undoes removal addition) ↔
      named.map key = some target := by
  cases named with
  | none => simp
  | some subject => simp [h]

theorem undoes_iff {r : SocialRecordOf} {removal addition : Intent} (removes : About ctx r removal)
    (adds : About ctx r addition) :
    Undoes removal addition ↔ Removes removal.body addition.body :=
  ⟨fun h => h.body, fun h => ⟨removes.sourceEventId.trans adds.sourceEventId.symm,
    removes.sourceAccountRef.trans adds.sourceAccountRef.symm, h⟩⟩

theorem buildDelete_undoes_iff {r : SocialRecordOf} {addition : Intent}
    (about : About ctx r addition) (adds : Adds r.collection addition.body)
    (fields : InputFields topic r.deleteOp entries) (base : BaseFields ctx entries e)
    (wellFormed : WellFormed ctx topic.subject topic.bridge) :
    (∃ removal, buildDelete digests ctx r.collection e = some removal ∧ Undoes removal addition) ↔
      namedTarget ctx topic.subject r.collection = some (normalizedTarget addition.toDraft) := by
  have removes {nsid visibility createdAt body} :
      About ctx r (socialIntent digests ctx nsid visibility e createdAt body) := by
    refine about_socialIntent (repoDid_of_input fields base).1 ?_
    simpa only [SocialRecordOf.uri, SocialRecordOf.deleteOp] using uri_of_input fields base
  have subject := deletedSubject_eq fields base wellFormed
  have did := deletedDid_eq fields base wellFormed
  generalize added : addition.body = body at adds
  cases collection : r.collection <;> rw [collection] at adds
  case like =>
    cases adds with
    | like object =>
      have target : normalizedTarget addition.toDraft = canonicalObjectIdentityKey object := by
        simp only [normalizedTarget, added]
      rw [target, namedTarget, buildDelete, buildReactionDeleteIntent, subject, Option.map_map]
      refine exists_undo_iff fun uri => (undoes_iff removes about).trans ?_
      rw [added]
      constructor
      · intro h
        cases h with
        | like same => exact same
      · intro same
        exact .like same
  case repost =>
    cases adds with
    | repost object =>
      have target : normalizedTarget addition.toDraft = canonicalObjectIdentityKey object := by
        simp only [normalizedTarget, added]
      rw [target, namedTarget, buildDelete, buildShareDeleteIntent, subject, Option.map_map]
      refine exists_undo_iff fun uri => (undoes_iff removes about).trans ?_
      rw [added]
      constructor
      · intro h
        cases h with
        | share same => exact same
      · intro same
        exact .share same
  case follow =>
    cases adds with
    | follow subject =>
      have target : normalizedTarget addition.toDraft = canonicalActorIdentityKey subject := by
        simp only [normalizedTarget, added]
      rw [target, namedTarget, buildDelete, buildFollowDeleteIntent, did]
      refine exists_undo_iff fun uri => (undoes_iff removes about).trans ?_
      rw [added]
      constructor
      · intro h
        cases h with
        | follow same => exact same
      · intro same
        exact .follow same
  case emojiReaction =>
    cases adds with
    | emojiReaction object content definition =>
      have target : normalizedTarget addition.toDraft = canonicalObjectIdentityKey object := by
        simp only [normalizedTarget, added]
      rw [target, namedTarget, buildDelete, buildEmojiReactionDeleteIntent, subject, Option.map_map]
      refine exists_undo_iff fun uri => (undoes_iff removes about).trans ?_
      rw [added]
      constructor
      · intro h
        cases h with
        | emoji same => exact same
      · intro same
        exact .emoji same

theorem delete_undoes_iff {r : SocialRecordOf} {addition : Intent}
    (about : About ctx r addition) (adds : Adds r.collection addition.body)
    (did : hasPrefix "did:" r.did = true) (fields : InputFields topic r.deleteOp entries) :
    (∃ removal, translateSocial digests ctx r.collection (.obj entries) = some removal ∧
        Undoes removal addition) ↔
      WellFormed ctx topic.subject topic.bridge ∧
        namedTarget ctx topic.subject r.collection = some (normalizedTarget addition.toDraft) := by
  rw [delete_translated fields]
  constructor
  · rintro ⟨removal, translated, undoes⟩
    obtain ⟨e, parsed, built⟩ := Option.bind_eq_some_iff.mp translated
    obtain ⟨⟨_, same, base⟩, -⟩ := parseDeleteEnvelope_spec parsed
    obtain rfl := Json.obj.inj same
    have wellFormed := wellFormed_of_base fields base
    exact ⟨wellFormed, (buildDelete_undoes_iff about adds fields base wellFormed).mp
      ⟨removal, built, undoes⟩⟩
  · rintro ⟨wellFormed, named⟩
    obtain ⟨e, parsed⟩ := base_of_wellFormed fields did wellFormed
    obtain ⟨_, same, base⟩ := baseEnvelopeSchema_spec parsed
    obtain rfl := Json.obj.inj same
    obtain ⟨removal, built, undoes⟩ : ∃ removal,
        buildDelete digests ctx r.collection e = some removal ∧ Undoes removal addition :=
      (buildDelete_undoes_iff about adds fields base wellFormed).mpr named
    have deleted : e.operation = some .delete := operation_of_input fields base
    have collection : e.collection = some r.collection.nsid := by
      have read := base.collection
      rw [fields.collection] at read
      exact (Option.some.inj read).symm
    refine ⟨removal, ?_, undoes⟩
    simp [parseDeleteEnvelope, parsed, Option.filter, deleted, collection, built]

end

section
variable (worker : Worker) (printed : Option Json → String)

def Projects (topic : Topic) (op : RepoOp) (intent : Intent) : Prop :=
  ∃ answer w calls commands, (topic.handle printed worker answer (topic.event op) w).1.published =
    w.published ++ List.replicate (calls + 1) (intent, commands)

def IsUndone (topic : Topic) (r : SocialRecordOf) (addition : Intent) : Prop :=
  ∃ removal, translate worker.digests worker.context (topic.input printed r.deleteOp) =
    some removal ∧ Undoes removal addition

theorem published_process (answer : Nat → Except Retry.Thrown Unit) (event : Json) (w : World) :
    (process worker answer event w).1.published = w.published ∨
      ∃ intent calls commands, translate worker.digests worker.context event = some intent ∧
        (process worker answer event w).1.published =
          w.published ++ List.replicate calls (intent, commands) := by
  unfold process
  cases translated : translate worker.digests worker.context event with
  | none => exact .inl rfl
  | some intent =>
    simp only [processIntent]
    split
    · exact .inl rfl
    split
    · exact .inl rfl
    · simp only [projectIntent]
      split
      · exact .inl rfl
      · split
        · exact .inl rfl
        · split <;> exact .inl rfl
        · split <;> exact .inr ⟨_, _, _, rfl, rfl⟩

theorem translated_of_projects {topic : Topic} {op : RepoOp} {intent : Intent}
    (named : op.collection ≠ "") (keyed : op.rkey ≠ "")
    (projected : Projects worker printed topic op intent) :
    translate worker.digests worker.context (topic.input printed op) = some intent := by
  obtain ⟨answer, w, calls, commands, published⟩ := projected
  rw [handle_event printed worker answer w topic op named keyed] at published
  obtain same | ⟨other, calls', commands', translated, same⟩ :=
    published_process worker answer (topic.input printed op) w
  · simp [same] at published
  · have added : List.replicate calls' (other, commands') =
        List.replicate (calls + 1) (intent, commands) := by
      rw [same] at published
      exact List.append_cancel_left published
    have member : (intent, commands) ∈ List.replicate calls' (other, commands') := by
      rw [added]
      simp
    have is_other := congrArg Prod.fst (List.eq_of_mem_replicate member)
    rw [translated]
    exact congrArg some is_other.symm

theorem nsid_nonempty (collection : SocialCollection) : collection.nsid ≠ "" := by
  cases collection <;> decide

/-- A delete undoes the projected addition exactly when it comes by at.commit and names the
subject. -/
theorem undo_iff {created deleted : Topic} {r : SocialRecordOf} {addition : Intent}
    (projected : Projects worker printed created r.createOp addition) :
    IsUndone worker printed deleted r addition ↔
      ∃ subject cid bridge, deleted = .atCommit subject cid bridge ∧
        WellFormed worker.context subject bridge ∧
        namedTarget worker.context subject r.collection =
          some (normalizedTarget addition.toDraft) := by
  have translated :=
    translated_of_projects worker printed (nsid_nonempty r.collection) r.keyed projected
  obtain ⟨entries, isInput, fields, direct⟩ := create_input printed created r
  rw [isInput, translate_social direct] at translated
  obtain ⟨did, about, adds⟩ := create_translated fields translated
  obtain ⟨entries, isInput, fields, direct⟩ := delete_input printed deleted r
  rw [IsUndone, isInput, translate_social direct, delete_undoes_iff about adds did fields]
  cases deleted with
  | atCommit subject cid bridge =>
    constructor
    · rintro ⟨wellFormed, named⟩
      exact ⟨subject, cid, bridge, rfl, wellFormed, named⟩
    · rintro ⟨_, _, _, same, wellFormed, named⟩
      cases same
      exact ⟨wellFormed, named⟩
  | verifiedIngress cid =>
    constructor
    · rintro ⟨-, named⟩
      cases collection : r.collection <;> rw [collection] at named <;> cases named
    · rintro ⟨_, _, _, same, -⟩
      cases same

end

def isProjectable (worker : Worker) (intent : Intent) : Bool :=
  !isLoopback intent && (worker.policy intent).allowed &&
    match projectWith worker.projectors
      (mergePolicyWarnings intent (worker.policy intent).warnings) with
    | .success .. => true
    | _ => false

theorem published_of_projectable {worker : Worker} {printed : Option Json → String} {topic : Topic}
    {op : RepoOp} {intent : Intent} (named : op.collection ≠ "") (keyed : op.rkey ≠ "")
    (translated : translate worker.digests worker.context (topic.input printed op) = some intent)
    (projectable : isProjectable worker intent = true) :
    ∃ commands, (topic.handle printed worker answered (topic.event op) World.initial).1.published =
      [(intent, commands)] := by
  simp only [isProjectable, Bool.and_eq_true, Bool.not_eq_true'] at projectable
  obtain ⟨⟨native, allowed⟩, projected⟩ := projectable
  split at projected
  case h_2 => cases projected
  case h_1 commands _ _ success =>
    refine ⟨commands, ?_⟩
    have called : retryFrom answered (worker.maxAttempts - 1) 1 = (1, .ok ()) := by
      cases worker.maxAttempts - 1 <;> rfl
    rw [handle_event printed worker answered World.initial topic op named keyed]
    simp [process, translated, processIntent, native, projectIntent, allowed, success, called,
      World.initial, World.publish, World.markProjected]

noncomputable def sharesWorker : Worker where
  digests := bridgeDigests
  context := bridgeContext
  projectors := [shareAddToApProjector (fun _ => "a94a8fe5ccb19ba61c4c0873") id bridgeContext]
  policy _ := ⟨true, []⟩
  maxAttempts := 5

def reposted : String := "at://did:plc:bob/app.bsky.feed.post/3kbob"

def repostOf : SocialRecordOf where
  collection := .repost
  did := "did:plc:ada"
  rkey := "3kada"
  canonicalRefId := "share-1"
  fields := [("$type", .str "app.bsky.feed.repost"),
    ("subject", .obj [("uri", .str reposted), ("cid", .str "bafybob")]),
    ("createdAt", .str "2026-01-01T00:00:00.000Z")]
  typed := rfl
  keyed := by decide

noncomputable def repostTarget (topic : Topic) : Option String :=
  (translate sharesWorker.digests sharesWorker.context
    (topic.input (fun _ => "undefined") repostOf.createOp)).bind fun intent =>
      if isProjectable sharesWorker intent then some (normalizedTarget intent.toDraft) else none

theorem repost_published (topic : Topic) (h : repostTarget topic = some reposted) :
    ∃ addition commands, (topic.handle (fun _ => "undefined") sharesWorker answered
        (topic.event repostOf.createOp) World.initial).1.published = [(addition, commands)] ∧
      normalizedTarget addition.toDraft = reposted := by
  obtain ⟨addition, translated, h⟩ := Option.bind_eq_some_iff.mp h
  split at h
  case isFalse => cases h
  case isTrue projectable =>
    obtain ⟨commands, published⟩ :=
      published_of_projectable (by decide) (by decide) translated projectable
    exact ⟨addition, commands, published, Option.some.inj h⟩

theorem repost_projects (topic : Topic) (h : repostTarget topic = some reposted) :
    ∃ addition, Projects sharesWorker (fun _ => "undefined") topic repostOf.createOp addition ∧
      normalizedTarget addition.toDraft = reposted := by
  obtain ⟨addition, commands, published, target⟩ := repost_published topic h
  exact ⟨addition, ⟨answered, World.initial, 0, commands, published⟩, target⟩

theorem repost_undone_by_commit :
    ∃ addition, IsUndone sharesWorker (fun _ => "undefined")
      (.atCommit { subjectUri := some reposted, subjectCid := some "bafybob" } "bafyada" none)
      repostOf addition := by
  obtain ⟨addition, projected, target⟩ := repost_projects
    (.atCommit { subjectUri := some reposted } "bafyada" none) (by decide +kernel)
  refine ⟨addition, (undo_iff sharesWorker _ projected).mpr ⟨_, _, _, rfl, ?_, ?_⟩⟩
  · constructor <;> decide
  · rw [target]
    decide

/-- By the verified firehose a repost is projected and its delete is not translated. -/
theorem repost_kept_by_ingress :
    ∃ addition, Projects sharesWorker (fun _ => "undefined") (.verifiedIngress (some "bafyada"))
        repostOf.createOp addition ∧
      ¬ IsUndone sharesWorker (fun _ => "undefined") (.verifiedIngress none) repostOf addition := by
  obtain ⟨addition, projected, -⟩ := repost_projects
    (.verifiedIngress (some "bafyada")) (by decide +kernel)
  refine ⟨addition, projected, ?_⟩
  rintro ⟨removal, translated, -⟩
  have dropped : translate sharesWorker.digests sharesWorker.context
      (Topic.input (fun _ => "undefined") repostOf.deleteOp (.verifiedIngress none)) = none := by
    have : (translate sharesWorker.digests sharesWorker.context (Topic.input (fun _ => "undefined")
        repostOf.deleteOp (.verifiedIngress none))).isNone = true := by decide +kernel
    exact Option.isNone_iff_eq_none.mp this
  rw [dropped] at translated
  cases translated

end MastopodFederation.Guarantees.UndoTopics
